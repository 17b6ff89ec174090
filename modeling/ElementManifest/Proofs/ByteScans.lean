import ElementManifest.Text.Brackets

/-!
# Scans over bytes

Whether a text gets parentheses is decided by a scan over its bytes, which passes over the byte
behind a backslash. A union is split by a scan over its characters, which remembers the backslash.
Both know the same at the start of each character (`Reads`): an ASCII character is a byte, and the
bytes of all others are no marks.

> `needsParentheses_eq`: both scans meet the same tokens.
-/

namespace ElementManifest.Text

/-! ## Tokens among characters -/

/-- The token that the character `c` ends outside all brackets and quotes. -/
def Nesting.topToken? (n : Nesting) (c : Char) : Option TopToken :=
  if !n.isTop then none
  else if c = '|' then some .bar
  else if c = '&' then some .ampersand
  else if c = '>' ∧ n.prev = '=' then some .arrow
  else none

/-- Whether one of `tokens` stands in a text outside all brackets and quotes. -/
def hasTopTokenFrom (tokens : List TopToken) (n : Nesting) : List Char → Bool
  | [] => false
  | c :: s => (n.topToken? c).any tokens.contains || hasTopTokenFrom tokens (n.step c) s

/-- Whether one of `tokens` stands in a text outside all brackets and quotes. -/
def hasTopToken (tokens : List TopToken) (s : List Char) : Bool :=
  hasTopTokenFrom tokens {} s

/-! ## The bytes of a character -/

theorem bytes_cons (c : Char) (s : List Char) :
    bytes (c :: s) = String.utf8EncodeChar c ++ bytes s :=
  List.flatMap_cons

/-- An ASCII character is a byte. -/
theorem utf8EncodeChar_of_ascii {c : Char} (h : c.toNat < 0x80) :
    String.utf8EncodeChar c = [c.toUInt8] := by
  have hle : c.val.toNat ≤ 0x7f := Nat.le_of_lt_succ h
  unfold String.utf8EncodeChar
  exact if_pos hle

/-- No byte of another character is ASCII. -/
theorem le_of_mem_utf8EncodeChar {c : Char} (h : 0x80 ≤ c.toNat) {b : UInt8}
    (hb : b ∈ String.utf8EncodeChar c) : 0x80 ≤ b.toNat := by
  have hlt : ¬c.val.toNat ≤ 0x7f := Nat.not_le_of_lt h
  unfold String.utf8EncodeChar at hb
  rw [if_neg hlt] at hb
  split at hb
  · simp only [List.mem_cons, List.not_mem_nil, or_false] at hb
    rcases hb with rfl | rfl <;> simp only [UInt8.toNat_ofNat'] <;> omega
  · split at hb
    · simp only [List.mem_cons, List.not_mem_nil, or_false] at hb
      rcases hb with rfl | rfl | rfl <;> simp only [UInt8.toNat_ofNat'] <;> omega
    · simp only [List.mem_cons, List.not_mem_nil, or_false] at hb
      rcases hb with rfl | rfl | rfl | rfl <;> simp only [UInt8.toNat_ofNat'] <;> omega

theorem toNat_toUInt8 {c : Char} (h : c.toNat < 0x80) : c.toUInt8.toNat = c.toNat := by
  have hmod : c.toUInt8.toNat = c.toNat % 2 ^ 8 := UInt32.toNat_toUInt8 c.val
  omega

theorem toUInt8_eq_iff {c d : Char} (hc : c.toNat < 0x80) (hd : d.toNat < 0x80) :
    c.toUInt8 = d.toUInt8 ↔ c = d := by
  refine ⟨fun h => Char.toNat_inj.mp ?_, fun h => h ▸ rfl⟩
  rw [← toNat_toUInt8 hc, ← toNat_toUInt8 hd, h]

/-- A byte that is not ASCII is none of the marks. -/
theorem ne_toUInt8 {b : UInt8} (hb : 0x80 ≤ b.toNat) {d : Char} (hd : d.toNat < 0x80) :
    b ≠ d.toUInt8 := by
  rintro rfl
  rw [toNat_toUInt8 hd] at hb
  omega

/-- A character that is not ASCII is none of the marks. -/
theorem ne_of_le {c : Char} (hc : 0x80 ≤ c.toNat) {d : Char} (hd : d.toNat < 0x80) : c ≠ d := by
  rintro rfl
  omega

/-! ## Single bytes -/

section

variable {m : ByteNesting} {b : UInt8} (tokens : List TopToken)

theorem hasTopTokenInBytes_cons (h : m.escapes b = false) (s : List UInt8) :
    hasTopTokenInBytes tokens m (b :: s) =
      ((m.topToken? b).any tokens.contains || hasTopTokenInBytes tokens (m.step b) s) := by
  rw [hasTopTokenInBytes.eq_def]
  dsimp only
  rw [h, if_neg Bool.false_ne_true]

theorem hasTopTokenInBytes_escaped (h : m.escapes b = true) (skipped : UInt8) (s : List UInt8) :
    hasTopTokenInBytes tokens m (b :: skipped :: s) =
      hasTopTokenInBytes tokens { m with prev := some skipped } s := by
  rw [hasTopTokenInBytes.eq_def]
  dsimp only
  rw [h, if_pos rfl]

theorem hasTopTokenInBytes_escaped_last (h : m.escapes b = true) :
    hasTopTokenInBytes tokens m [b] = false := by
  rw [hasTopTokenInBytes.eq_def]
  dsimp only
  rw [h, if_pos rfl]

/-! ## Bytes that are no marks -/

theorem step_of_le (hquote : ∀ q ∈ m.quote, q.toNat < 0x80) (hb : 0x80 ≤ b.toNat) :
    m.step b = { m with prev := some b } := by
  unfold ByteNesting.step
  cases hm : m.quote with
  | none =>
    simp (disch := decide) [ByteNesting.isQuote, ByteNesting.opens, ByteNesting.endsArrow,
      ByteNesting.closes, ne_toUInt8 hb]
  | some q =>
    have hne : b ≠ q := by
      rintro rfl
      exact absurd hb (Nat.not_le_of_lt (hquote b hm))
    simp [hne]

/-- A scan passes over bytes that are not ASCII. -/
theorem hasTopTokenInBytes_append_of_le {bs : List UInt8}
    (hquote : ∀ q ∈ m.quote, q.toNat < 0x80) (hbs : ∀ b ∈ bs, 0x80 ≤ b.toNat) (s : List UInt8) :
    hasTopTokenInBytes tokens m (bs ++ s) =
      hasTopTokenInBytes tokens { m with prev := bs.getLast?.or m.prev } s := by
  induction bs generalizing m with
  | nil => rfl
  | cons b bs ih =>
    have hb := hbs b List.mem_cons_self
    have hescapes : m.escapes b = false := by
      simp (disch := decide) [ByteNesting.escapes, ne_toUInt8 hb]
    have htoken : m.topToken? b = none := by
      simp (disch := decide) [ByteNesting.topToken?, ByteNesting.endsArrow, ne_toUInt8 hb]
    have hlast : (b :: bs).getLast?.or m.prev = bs.getLast?.or (some b) := by
      rw [List.getLast?_cons]
      cases bs.getLast? <;> rfl
    rw [List.cons_append, hasTopTokenInBytes_cons tokens hescapes, htoken, step_of_le hquote hb,
      hlast]
    exact ih hquote fun c hc => hbs c (List.mem_cons_of_mem b hc)

end

/-! ## What both scans know -/

/-- Outside of quotes a scan has no backslash to remember. -/
def EscapesInside (n : Nesting) : Prop :=
  n.quote = none → n.escaped = false

/-- A scan over characters and one over bytes know the same between two characters. Inside of
quotes the last byte does not count. -/
structure Reads (n : Nesting) (m : ByteNesting) : Prop where
  quote : m.quote = n.quote.map Char.toUInt8
  depth : m.depth = n.depth
  arrow : n.quote = none → (m.prev = some '='.toUInt8 ↔ n.prev = '=')
  isQuote : ∀ q, n.quote = some q → Nesting.isQuote q = true
  escaped : EscapesInside n

theorem reads_start : Reads {} {} where
  quote := rfl
  depth := rfl
  arrow := fun _ => by decide
  isQuote := nofun
  escaped := fun _ => rfl

theorem ascii_of_isQuote {q : Char} (hq : Nesting.isQuote q = true) : q.toNat < 0x80 := by
  unfold Nesting.isQuote at hq
  simp only [Bool.or_eq_true, decide_eq_true_eq] at hq
  rcases hq with (rfl | rfl) | rfl
  · decide
  · decide
  · decide

/-! ## ASCII characters -/

section

variable {c : Char} (hc : c.toNat < 0x80)

include hc

theorem isQuote_toUInt8 : ByteNesting.isQuote c.toUInt8 = Nesting.isQuote c := by
  simp (disch := decide) only [ByteNesting.isQuote, Nesting.isQuote, toUInt8_eq_iff hc]

theorem opens_toUInt8 : ByteNesting.opens c.toUInt8 = Nesting.opens c := by
  simp (disch := decide) only [ByteNesting.opens, Nesting.opens, toUInt8_eq_iff hc]

theorem prev_toUInt8 : some c.toUInt8 = some '='.toUInt8 ↔ c = '=' := by
  rw [Option.some.injEq, toUInt8_eq_iff hc (by decide)]

end

namespace Reads

variable {n : Nesting} {m : ByteNesting} {c : Char}

theorem quote_ascii (h : Reads n m) : ∀ q ∈ m.quote, q.toNat < 0x80 := by
  intro b hb
  rw [h.quote, Option.mem_def, Option.map_eq_some_iff] at hb
  obtain ⟨q, hq, rfl⟩ := hb
  have hascii := ascii_of_isQuote (h.isQuote q hq)
  rw [toNat_toUInt8 hascii]
  exact hascii

theorem endsArrow_eq (h : Reads n m) (hn : n.quote = none) (hc : c.toNat < 0x80) :
    m.endsArrow c.toUInt8 = decide (c = '>' ∧ n.prev = '=') := by
  simp (disch := decide) only [ByteNesting.endsArrow, toUInt8_eq_iff hc, h.arrow hn,
    Bool.decide_and]

/-- The `>` that closes no bracket is the same for both. -/
theorem closes_eq (h : Reads n m) (hn : n.quote = none) (hc : c.toNat < 0x80) :
    Nesting.closes n.prev c = (!m.endsArrow c.toUInt8 && ByteNesting.closes c.toUInt8) := by
  rw [h.endsArrow_eq hn hc]
  simp (disch := decide) only [Nesting.closes, ByteNesting.closes, toUInt8_eq_iff hc]
  by_cases hend : c = '>'
  · subst hend
    by_cases hprev : n.prev = '=' <;> simp [hprev]
  · simp [hend]

theorem topToken?_eq (h : Reads n m) (hn : n.quote = none) (hc : c.toNat < 0x80) :
    m.topToken? c.toUInt8 = n.topToken? c := by
  simp (disch := decide) only [ByteNesting.topToken?, Nesting.topToken?, Nesting.isTop,
    h.endsArrow_eq hn hc, toUInt8_eq_iff hc, h.quote, h.depth, hn]
  by_cases hend : c = '>'
  · subst hend
    by_cases hdepth : n.depth = 0 <;> simp [hdepth]
  · by_cases hdepth : n.depth = 0 <;> simp [hdepth, hend]

/-- Outside of quotes an ASCII character and its byte do the same. -/
theorem step_outside (h : Reads n m) (hn : n.quote = none) (hc : c.toNat < 0x80) :
    Reads (n.step c) (m.step c.toUInt8) := by
  have hm : m.quote = none := by
    rw [h.quote, hn]
    rfl
  have hprev := prev_toUInt8 hc
  have hescaped := h.escaped hn
  unfold Nesting.step ByteNesting.step
  rw [hn, hm, h.closes_eq hn hc]
  dsimp only
  rw [isQuote_toUInt8 hc, opens_toUInt8 hc]
  cases hquote : Nesting.isQuote c with
  | true => exact ⟨rfl, h.depth, nofun, fun q hq => Option.some.inj hq ▸ hquote, nofun⟩
  | false =>
    cases Nesting.opens c with
    | true => exact ⟨rfl, congrArg (· + 1) h.depth, fun _ => hprev, nofun, fun _ => hescaped⟩
    | false =>
      cases m.endsArrow c.toUInt8 with
      | true => exact ⟨rfl, h.depth, fun _ => hprev, nofun, fun _ => hescaped⟩
      | false =>
        cases ByteNesting.closes c.toUInt8 with
        | true => exact ⟨rfl, congrArg (· - 1) h.depth, fun _ => hprev, nofun, fun _ => hescaped⟩
        | false => exact ⟨rfl, h.depth, fun _ => hprev, nofun, fun _ => hescaped⟩

/-- Inside of quotes too, if nothing is escaped. -/
theorem step_inside (h : Reads n m) {q : Char} (hn : n.quote = some q)
    (hescaped : n.escaped = false) (hslash : c ≠ '\\') (hc : c.toNat < 0x80) :
    Reads (n.step c) (m.step c.toUInt8) := by
  have hm : m.quote = some q.toUInt8 := by
    rw [h.quote, hn]
    rfl
  have hprev := prev_toUInt8 hc
  have hq := h.isQuote q hn
  have hends : c.toUInt8 = q.toUInt8 ↔ c = q := toUInt8_eq_iff hc (ascii_of_isQuote hq)
  unfold Nesting.step ByteNesting.step
  rw [hn, hm]
  dsimp only
  rw [hescaped, if_neg Bool.false_ne_true, if_neg hslash]
  by_cases hcq : c = q
  · rw [if_pos hcq, if_pos (hends.mpr hcq)]
    exact ⟨rfl, h.depth, fun _ => hprev, nofun, fun _ => rfl⟩
  · rw [if_neg hcq, if_neg (mt hends.mp hcq)]
    exact ⟨rfl, h.depth, nofun, fun q' hq' => Option.some.inj hq' ▸ hq, nofun⟩

/-- Inside of quotes the last byte does not count, nor what is escaped. -/
theorem inside (h : Reads n m) {q : Char} (hn : n.quote = some q) (escaped : Bool) (c : Char)
    (b : Option UInt8) : Reads { n with escaped := escaped, prev := c } { m with prev := b } where
  quote := h.quote
  depth := h.depth
  arrow := fun hnone => absurd (hn.symm.trans hnone) (Option.some_ne_none q)
  isQuote := h.isQuote
  escaped := fun hnone => absurd (hn.symm.trans hnone) (Option.some_ne_none q)

/-- A character that is not ASCII only ends what a backslash has begun. -/
theorem step_eq_of_le (h : Reads n m) (hc : 0x80 ≤ c.toNat) :
    n.step c = { n with escaped := false, prev := c } := by
  unfold Nesting.step
  cases hn : n.quote with
  | none =>
    simp (disch := decide) [Nesting.isQuote, Nesting.opens, Nesting.closes, ne_of_le hc,
      h.escaped hn]
  | some q =>
    have hq : c ≠ q := ne_of_le hc (ascii_of_isQuote (h.isQuote q hn))
    cases hescaped : n.escaped with
    | true => rfl
    | false => simp (disch := decide) [ne_of_le hc, hq]

/-- The bytes of such a character are passed over. -/
theorem step_of_le (h : Reads n m) (hc : 0x80 ≤ c.toNat) :
    Reads (n.step c) { m with prev := (String.utf8EncodeChar c).getLast?.or m.prev } := by
  rw [h.step_eq_of_le hc]
  refine ⟨h.quote, h.depth, fun _ => iff_of_false ?_ (ne_of_le hc (by decide)), h.isQuote,
    fun _ => rfl⟩
  -- the last byte is not ASCII either
  obtain ⟨b, hb⟩ := Option.ne_none_iff_exists'.mp
    (mt List.getLast?_eq_none_iff.mp (String.utf8EncodeChar_ne_nil (c := c)))
  rw [hb]
  simp (disch := decide) [ne_toUInt8 (le_of_mem_utf8EncodeChar hc (List.mem_of_getLast? hb))]

end Reads

theorem topToken?_of_quote {n : Nesting} {q : Char} (h : n.quote = some q) (c : Char) :
    n.topToken? c = none := by
  unfold Nesting.topToken? Nesting.isTop
  rw [h]
  rfl

theorem topToken?_of_le (n : Nesting) {c : Char} (hc : 0x80 ≤ c.toNat) : n.topToken? c = none := by
  simp (disch := decide) [Nesting.topToken?, ne_of_le hc]

/-- Only a backslash in quotes escapes what is behind it. -/
theorem escaped_step {n : Nesting} {c : Char} (hescaped : n.escaped = false)
    (h : n.quote = none ∨ c ≠ '\\') : (n.step c).escaped = false := by
  unfold Nesting.step
  cases hn : n.quote with
  | none =>
    dsimp only
    split
    · exact hescaped
    · split
      · exact hescaped
      · split <;> exact hescaped
  | some q =>
    have hslash : c ≠ '\\' := h.resolve_left (hn ▸ Option.some_ne_none q)
    dsimp only
    rw [hescaped, if_neg Bool.false_ne_true, if_neg hslash]
    split <;> rfl

/-! ## Characters and their bytes -/

section

variable {n : Nesting} {m : ByteNesting} {c : Char} (tokens : List TopToken)

/-- The bytes of a character are scanned as it is, if it neither escapes nor is escaped. -/
theorem Reads.scan_char (h : Reads n m) (hescaped : n.escaped = false)
    (hslash : n.quote = none ∨ c ≠ '\\') :
    ∃ m', Reads (n.step c) m' ∧ ∀ s,
      hasTopTokenInBytes tokens m (String.utf8EncodeChar c ++ s) =
        ((n.topToken? c).any tokens.contains || hasTopTokenInBytes tokens m' s) := by
  rcases Nat.lt_or_ge c.toNat 0x80 with hc | hc
  · rw [utf8EncodeChar_of_ascii hc]
    cases hn : n.quote with
    | none =>
      have hm : m.escapes c.toUInt8 = false := by
        rw [ByteNesting.escapes, h.quote, hn]
        rfl
      refine ⟨_, h.step_outside hn hc, fun s => ?_⟩
      rw [List.singleton_append, hasTopTokenInBytes_cons tokens hm, h.topToken?_eq hn hc]
    | some q =>
      have hslash' : c ≠ '\\' := hslash.resolve_left (hn ▸ Option.some_ne_none q)
      have hm : m.escapes c.toUInt8 = false := by
        simp (disch := decide) [ByteNesting.escapes, toUInt8_eq_iff hc, hslash']
      have htoken : m.topToken? c.toUInt8 = none := by
        rw [ByteNesting.topToken?, h.quote, hn]
        rfl
      refine ⟨_, h.step_inside hn hescaped hslash' hc, fun s => ?_⟩
      rw [List.singleton_append, hasTopTokenInBytes_cons tokens hm, htoken, topToken?_of_quote hn]
  · refine ⟨_, h.step_of_le hc, fun s => ?_⟩
    rw [topToken?_of_le n hc]
    exact hasTopTokenInBytes_append_of_le tokens h.quote_ascii
      (fun _ => le_of_mem_utf8EncodeChar hc) s

/-- A backslash in quotes is one byte, and the scan over the bytes stays in front of it. -/
theorem Reads.scan_slash (h : Reads n m) {q : Char} (hn : n.quote = some q)
    (hescaped : n.escaped = false) :
    (n.step '\\').escaped = true ∧ Reads (n.step '\\') m ∧ m.escapes '\\'.toUInt8 = true := by
  have hstep : n.step '\\' = { n with escaped := true, prev := '\\' } := by
    unfold Nesting.step
    rw [hn]
    dsimp only
    rw [hescaped, if_neg Bool.false_ne_true, if_pos rfl]
  rw [hstep]
  refine ⟨rfl, h.inside hn true _ m.prev, ?_⟩
  rw [ByteNesting.escapes, h.quote, hn]
  rfl

/-- Of an escaped character the first byte is skipped, and others are passed over. -/
theorem Reads.scan_escaped (h : Reads n m) (hescaped : n.escaped = true) {b : UInt8}
    (hb : m.escapes b = true) :
    (n.step c).escaped = false ∧ ∃ m', Reads (n.step c) m' ∧ ∀ s,
      hasTopTokenInBytes tokens m (b :: (String.utf8EncodeChar c ++ s)) =
        ((n.topToken? c).any tokens.contains || hasTopTokenInBytes tokens m' s) := by
  -- only in quotes there is a backslash to remember
  obtain ⟨q, hn⟩ : ∃ q, n.quote = some q := by
    refine Option.ne_none_iff_exists'.mp fun hnone => ?_
    rw [h.escaped hnone] at hescaped
    cases hescaped
  have hstep : n.step c = { n with escaped := false, prev := c } := by
    unfold Nesting.step
    rw [hn]
    dsimp only
    rw [hescaped, if_pos rfl]
  obtain ⟨e, es, hbytes⟩ := List.exists_cons_of_ne_nil (String.utf8EncodeChar_ne_nil (c := c))
  -- a character of several bytes has no mark in it, so it does not matter that one is skipped
  have hes : ∀ d ∈ es, 0x80 ≤ d.toNat := by
    intro d hd
    rcases Nat.lt_or_ge c.toNat 0x80 with hc | hc
    · rw [utf8EncodeChar_of_ascii hc] at hbytes
      cases hbytes
      cases hd
    · exact le_of_mem_utf8EncodeChar hc (hbytes ▸ List.mem_cons_of_mem e hd)
  rw [hstep]
  refine ⟨rfl, _, h.inside hn false c (es.getLast?.or (some e)), fun s => ?_⟩
  have hskipped := (h.inside hn false c (some e)).quote_ascii
  rw [hbytes, List.cons_append, hasTopTokenInBytes_escaped tokens hb, topToken?_of_quote hn]
  exact hasTopTokenInBytes_append_of_le tokens hskipped hes s

end

/-- **A scan over the bytes of a text meets the tokens that one over its characters meets.** Behind
a backslash in quotes the backslash is still in front of the first scan. -/
theorem hasTopTokenInBytes_bytes (tokens : List TopToken) (s : List Char) {n : Nesting}
    {m : ByteNesting} (h : Reads n m) :
    (n.escaped = false → hasTopTokenInBytes tokens m (bytes s) = hasTopTokenFrom tokens n s) ∧
      (n.escaped = true → ∀ b, m.escapes b = true →
        hasTopTokenInBytes tokens m (b :: bytes s) = hasTopTokenFrom tokens n s) := by
  induction s generalizing n m with
  | nil => exact ⟨fun _ => rfl, fun _ b hb => hasTopTokenInBytes_escaped_last tokens hb⟩
  | cons c s ih =>
    rw [bytes_cons, hasTopTokenFrom]
    constructor
    · intro hescaped
      by_cases hslash : n.quote = none ∨ c ≠ '\\'
      · obtain ⟨m', h', hscan⟩ := h.scan_char tokens hescaped hslash
        rw [hscan, (ih h').1 (escaped_step hescaped hslash)]
      · -- the characters are one ahead of the bytes until the escaped character has been read
        obtain ⟨hquote, hc⟩ := not_or.mp hslash
        obtain ⟨q, hn⟩ := Option.ne_none_iff_exists'.mp hquote
        obtain rfl := Decidable.not_not.mp hc
        obtain ⟨hescaped', h', hb⟩ := h.scan_slash hn hescaped
        rw [topToken?_of_quote hn, ← (ih h').2 hescaped' _ hb]
        rfl
    · intro hescaped b hb
      obtain ⟨hescaped', m', h', hscan⟩ := h.scan_escaped (c := c) tokens hescaped hb
      rw [hscan, (ih h').1 hescaped']

/-- **Whether a text gets parentheses is told by its characters.** -/
theorem needsParentheses_eq (tokens : List TopToken) (text : String) :
    needsParentheses tokens text = hasTopToken tokens text.toList :=
  (hasTopTokenInBytes_bytes tokens text.toList reads_start).1 rfl

end ElementManifest.Text

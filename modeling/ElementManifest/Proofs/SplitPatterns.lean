import ElementManifest.Proofs.BaseSearches

/-!
# Patterns cut at slashes

Settings are checked pattern by pattern, but a search reads the pattern behind the base, and then
every part of it between two slashes on its own. The two readings differ in one thing: a class may
list a slash (`Token.listsSlash`), and is torn when the pattern is cut there.

> `exists_parseFrom_iff_parts`: the parts of a text can all be read iff the text can be read
> without such a class.

So a search can read a pattern iff it can read its parts (`exists_search_iff`), and of valid
settings a scan applies every ignore, and every include without such a class behind a base that
can be read as a pattern itself (`valid_applied_iff`).
-/

namespace ElementManifest

open ElementManifest.Text ElementManifest.Glob

namespace Glob

/-! ## Classes with a slash -/

/-- Whether a class lists a slash, as the start or the end of a span. -/
def Token.listsSlash : Token → Bool
  | within spans | outside spans => spans.any fun span => span.first = '/' || span.last = '/'
  | _ => false

/-- Pieces none of which is a class with a slash. -/
def Untorn (tokens : List Token) : Prop :=
  ∀ t ∈ tokens, t.listsSlash = false

theorem Untorn.cons {t : Token} {tokens : List Token} (ht : t.listsSlash = false)
    (h : Untorn tokens) : Untorn (t :: tokens) := by
  intro u hu
  rcases List.mem_cons.mp hu with rfl | hu
  · exact ht
  · exact h u hu

theorem Untorn.reverse {tokens : List Token} (h : Untorn tokens) : Untorn tokens.reverse :=
  fun t ht => h t (List.mem_reverse.mp ht)

theorem Untorn.pushParts {tokens : List Token} (h : Untorn tokens) :
    Untorn (Pattern.pushParts tokens) := by
  unfold Pattern.pushParts
  split
  next => exact h
  next => exact .cons rfl h

namespace Pattern

/-- The spans of a class have the slashes of its text. -/
theorem any_spansOf (s : List Char) :
    ((spansOf s).any fun span => span.first = '/' || span.last = '/') = true ↔ '/' ∈ s := by
  fun_induction spansOf s with
  | case1 a b s ih =>
    rw [List.any_cons, Bool.or_eq_true, ih]
    grind
  | case2 a s _ ih =>
    rw [List.any_cons, Bool.or_eq_true, ih]
    grind
  | case3 => simp

theorem idxOf?_append {s rest : List Char} {n : Nat} (h : s.idxOf? ']' = some n) :
    (s ++ rest).idxOf? ']' = some n ∧ n < s.length := by
  unfold List.idxOf? at h ⊢
  have hlt := (List.findIdx?_eq_some_iff_getElem.mp h).1
  rw [List.findIdx?_append, h]
  exact ⟨rfl, hlt⟩

theorem idxOf?_append_slash {s rest : List Char} {n : Nat} (h : s.idxOf? ']' = none)
    (hn : (s ++ '/' :: rest).idxOf? ']' = some n) : '/' ∈ (s ++ '/' :: rest).take n := by
  unfold List.idxOf? at h hn
  rw [List.findIdx?_append, h, Option.none_or, List.findIdx?_cons, if_neg (by decide)] at hn
  obtain ⟨m, hm, hsum⟩ := Option.map_eq_some_iff.mp hn
  obtain ⟨k, -, rfl⟩ := Option.map_eq_some_iff.mp hm
  have hlength : n = s.length + (k + 1) := by omega
  rw [hlength, List.take_length_add_append]
  exact List.mem_append_right _ (by simp)

/-- A class that is closed in a part is the same class in front of more. -/
theorem classOf?_append {part rest : List Char} {t : Token} {size : Nat}
    (h : classOf? part = some (t, size)) :
    classOf? (part ++ rest) = some (t, size) ∧ size ≤ part.length ∧
      (t.listsSlash = true → '/' ∈ part) := by
  unfold classOf? at h
  split at h
  next c s =>
    obtain ⟨n, hn, heq⟩ := Option.map_eq_some_iff.mp h
    cases heq
    obtain ⟨hmore, hlt⟩ := @idxOf?_append s rest n hn
    refine ⟨?_, by simp only [List.length_cons]; omega, fun hslash => ?_⟩
    · rw [List.cons_append, List.cons_append, classOf?, hmore, Option.map_some,
        List.take_append_of_le_length (Nat.le_of_lt hlt)]
    · rcases List.mem_cons.mp ((any_spansOf _).mp hslash) with rfl | hmem
      · simp
      · simp [List.mem_of_mem_take hmem]
  next c s hneg =>
    obtain ⟨n, hn, heq⟩ := Option.map_eq_some_iff.mp h
    cases heq
    obtain ⟨hmore, hlt⟩ := @idxOf?_append s rest n hn
    refine ⟨?_, by simp only [List.length_cons]; omega, fun hslash => ?_⟩
    · -- more text does not make the class a negated one, because it is closed before that
      have hneg' : ∀ d r, c = '!' → s ++ rest = d :: r → False := by
        intro d r hc hs
        cases s with
        | nil => cases hn
        | cons e s => exact hneg e s hc rfl
      rw [List.cons_append, classOf?.eq_2 _ _ hneg', hmore, Option.map_some,
        List.take_append_of_le_length (Nat.le_of_lt hlt)]
    · rcases List.mem_cons.mp ((any_spansOf _).mp hslash) with rfl | hmem
      · simp
      · simp [List.mem_of_mem_take hmem]
  next => cases h

/-- A class that is not closed in a part, but behind the slash that follows, lists this slash. -/
theorem listsSlash_of_classOf? {part rest : List Char} {t : Token} {size : Nat}
    (hnone : classOf? part = none) (h : classOf? (part ++ '/' :: rest) = some (t, size)) :
    t.listsSlash = true := by
  have hlists : ∀ (c : Char) (s : List Char) (n : Nat), s.idxOf? ']' = none →
      (s ++ '/' :: rest).idxOf? ']' = some n →
        ((spansOf (c :: (s ++ '/' :: rest).take n)).any
          fun span => span.first = '/' || span.last = '/') = true := fun c s n hs hn =>
    (any_spansOf _).mpr (List.mem_cons_of_mem c (idxOf?_append_slash hs hn))
  unfold classOf? at hnone
  split at hnone
  next c s =>
    rw [List.cons_append, List.cons_append, classOf?] at h
    obtain ⟨n, hn, heq⟩ := Option.map_eq_some_iff.mp h
    cases heq
    exact hlists c s n (Option.map_eq_none_iff.mp hnone) hn
  next c s hneg =>
    by_cases hfirst : c = '!' ∧ s = []
    · -- a lone `!` negates the class, and the slash behind it is the first character of that
      obtain ⟨rfl, rfl⟩ := hfirst
      obtain ⟨n, -, heq⟩ := Option.map_eq_some_iff.mp h
      cases heq
      exact (any_spansOf _).mpr List.mem_cons_self
    · have hneg' : ∀ d r, c = '!' → s ++ '/' :: rest = d :: r → False := by
        intro d r hc hs
        cases s with
        | nil => exact hfirst ⟨hc, rfl⟩
        | cons e s => exact hneg e s hc rfl
      rw [List.cons_append, classOf?.eq_2 _ _ hneg'] at h
      obtain ⟨n, hn, heq⟩ := Option.map_eq_some_iff.mp h
      cases heq
      exact hlists c s n (Option.map_eq_none_iff.mp hnone) hn
  next =>
    obtain ⟨n, -, heq⟩ := Option.map_eq_some_iff.mp h
    cases heq
    exact (any_spansOf _).mpr List.mem_cons_self

/-! ## Reading a part -/

/-- What has been read already is passed over. -/
theorem parseFrom_skip (u : List Char) (position : Nat) (prev : Option Char)
    (tokens : List Token) :
    ∃ position' prev', ∀ rest, parseFrom u.length position prev tokens (u ++ rest) =
      parseFrom 0 position' prev' tokens rest := by
  induction u generalizing position prev with
  | nil => exact ⟨position, prev, fun _ => rfl⟩
  | cons c u ih =>
    obtain ⟨position', prev', h⟩ := ih (position + 1) (some c)
    refine ⟨position', prev', fun rest => ?_⟩
    rw [List.cons_append, parseFrom, List.length_cons]
    exact h rest

/-- How a part is read, and how with a slash behind it: both can be read and the slash is the next
character, or the part cannot and only a class with this slash lets the reading go on. -/
def ReadsToSlash (position : Nat) (prev : Option Char) (tokens : List Token)
    (part rest : List Char) : Prop :=
  (∃ ts position' more, parseFrom 0 position prev tokens part = .ok ts ∧ Untorn ts ∧
    parseFrom 0 position prev tokens (part ++ '/' :: rest) =
      parseFrom 0 position' (some '/') more rest ∧ Untorn more) ∨
  (∃ e, parseFrom 0 position prev tokens part = .error e) ∧
    ∀ ts, parseFrom 0 position prev tokens (part ++ '/' :: rest) = .ok ts → ¬Untorn ts

theorem takeWhile_stars (s rest : List Char) :
    ((s ++ '/' :: rest).takeWhile (· = '*')).length = (s.takeWhile (· = '*')).length := by
  induction s with
  | nil => rfl
  | cons c s ih =>
    rw [List.cons_append, List.takeWhile_cons, List.takeWhile_cons]
    split
    next => rw [List.length_cons, List.length_cons, ih]
    next => rfl

/-- Where neither can be read, there is nothing to compare. -/
theorem ReadsToSlash.of_errors {position : Nat} {prev : Option Char} {tokens : List Token}
    {part rest : List Char} {e e' : PatternError}
    (h : parseFrom 0 position prev tokens part = .error e)
    (h' : parseFrom 0 position prev tokens (part ++ '/' :: rest) = .error e') :
    ReadsToSlash position prev tokens part rest := by
  refine Or.inr ⟨⟨e, h⟩, fun ts hts => ?_⟩
  rw [h'] at hts
  cases hts

theorem parseFrom_stars {s : List Char} (hstars : (s.takeWhile (· = '*')).length = 1)
    (position : Nat) (prev : Option Char) (tokens : List Token) :
    parseFrom 0 position prev tokens ('*' :: s) =
      (partsAt position prev (s.drop 1)).bind fun slash =>
        parseFrom (if slash then 2 else 1) (position + 1) (some '*') (pushParts tokens) s := by
  rw [parseFrom]
  dsimp only
  rw [if_neg (Nat.lt_irrefl 0), if_neg (by decide), if_pos rfl, hstars]
  rfl

/-- A character that opens no class and has no stars behind it is a piece of its own. -/
theorem exists_parseFrom_one {c : Char} (hc : c ≠ '[') :
    ∃ t : Token, t.listsSlash = false ∧ ∀ (s : List Char) (position : Nat) (prev : Option Char)
      (tokens : List Token), (c = '*' → (s.takeWhile (· = '*')).length = 0) →
        parseFrom 0 position prev tokens (c :: s) =
          parseFrom 0 (position + 1) (some c) (t :: tokens) s := by
  by_cases hany : c = '?'
  · refine ⟨.anyChar, rfl, fun s position prev tokens _ => ?_⟩
    rw [parseFrom]
    dsimp only
    rw [if_neg (Nat.lt_irrefl 0), if_pos hany]
  · by_cases hstar : c = '*'
    · refine ⟨.anyText, rfl, fun s position prev tokens hnone => ?_⟩
      rw [parseFrom]
      dsimp only
      rw [if_neg (Nat.lt_irrefl 0), if_neg hany, if_pos hstar, hnone hstar]
      rfl
    · refine ⟨.literal c, rfl, fun s position prev tokens _ => ?_⟩
      rw [parseFrom]
      dsimp only
      rw [if_neg (Nat.lt_irrefl 0), if_neg hany, if_neg hstar, if_neg hc]

/-- More than two stars cannot be read. -/
theorem parseFrom_manyStars {s : List Char} {n : Nat}
    (hstars : (s.takeWhile (· = '*')).length = n + 2) (position : Nat) (prev : Option Char)
    (tokens : List Token) :
    parseFrom 0 position prev tokens ('*' :: s) = .error ⟨position + 2, .tooManyStars⟩ := by
  rw [parseFrom]
  dsimp only
  rw [if_neg (Nat.lt_irrefl 0), if_neg (by decide), if_pos rfl, hstars]
  rfl

theorem parseFrom_bracket (s : List Char) (position : Nat) (prev : Option Char)
    (tokens : List Token) :
    parseFrom 0 position prev tokens ('[' :: s) =
      match classOf? s with
      | some (token, size) => parseFrom size (position + 1) (some '[') (token :: tokens) s
      | none => .error ⟨position, .badClass⟩ := by
  rw [parseFrom]
  dsimp only
  rw [if_neg (Nat.lt_irrefl 0), if_neg (by decide), if_neg (by decide)]
  exact if_pos rfl

/-- Two stars are a part of their own, or cannot be read. The slash behind them belongs to
them. -/
theorem readsToSlash_stars {s rest : List Char} (hfree : ∀ x ∈ s, x ≠ '/')
    (hstars : (s.takeWhile (· = '*')).length = 1) (position : Nat) (prev : Option Char)
    {tokens : List Token} (htokens : Untorn tokens) :
    ReadsToSlash position prev tokens ('*' :: s) rest := by
  have hpart := parseFrom_stars hstars position prev tokens
  have hmore := parseFrom_stars ((takeWhile_stars s rest).trans hstars) position prev tokens
  rw [← List.cons_append] at hmore
  obtain ⟨r, rfl⟩ : ∃ r, s = '*' :: r := by
    cases s with
    | nil => cases hstars
    | cons c r =>
      rw [List.takeWhile_cons] at hstars
      split at hstars
      next hc => exact ⟨r, by rw [of_decide_eq_true hc]⟩
      next => cases hstars
  rw [List.drop_one, List.tail_cons] at hpart
  change _ = (partsAt position prev (r ++ '/' :: rest)).bind _ at hmore
  by_cases hprev : prev.any (· ≠ '/') = true
  · -- what stands in front of the stars is the same in both texts
    have herror : ∀ rest, partsAt position prev rest = .error ⟨position - 1, .partialParts⟩ :=
      fun rest => if_pos hprev
    rw [herror] at hpart hmore
    exact .of_errors hpart hmore
  · -- what stands behind them is the end of the part or the slash, or another character
    cases r with
    | nil =>
      have hend : partsAt position prev [] = .ok false := if_neg hprev
      have hslash : partsAt position prev ('/' :: rest) = .ok true := if_neg hprev
      rw [hend] at hpart
      rw [List.nil_append, hslash] at hmore
      exact Or.inl ⟨_, _, _, hpart, htokens.pushParts.reverse, hmore, htokens.pushParts⟩
    | cons d r =>
      have hd : d ≠ '/' := hfree d (by simp)
      have herror : ∀ rest, partsAt position prev (d :: rest) =
          .error ⟨position + 2, .partialParts⟩ :=
        fun rest => (if_neg hprev).trans (if_neg hd)
      rw [herror] at hpart
      change _ = (partsAt position prev (d :: (r ++ '/' :: rest))).bind _ at hmore
      rw [herror] at hmore
      exact .of_errors hpart hmore

/-- A class is closed in the part, and what is behind it can be compared; or the part cannot be
read, and a class that is closed behind the slash is torn. -/
theorem readsToSlash_class {s rest : List Char} (hfree : ∀ x ∈ s, x ≠ '/') (position : Nat)
    (prev : Option Char) {tokens : List Token} (htokens : Untorn tokens)
    (hbehind : ∀ size position' prev' tokens', Untorn tokens' →
      ReadsToSlash position' prev' tokens' (s.drop size) rest) :
    ReadsToSlash position prev tokens ('[' :: s) rest := by
  unfold ReadsToSlash
  rw [List.cons_append, parseFrom_bracket, parseFrom_bracket]
  cases hclass : classOf? s with
  | none =>
    refine Or.inr ⟨⟨_, rfl⟩, fun ts hts huntorn => ?_⟩
    cases hmore : classOf? (s ++ '/' :: rest) with
    | none =>
      rw [hmore] at hts
      cases hts
    | some class' =>
      rw [hmore] at hts
      have hlists := huntorn _ (mem_of_parseFrom hts _ List.mem_cons_self)
      rw [listsSlash_of_classOf? hclass hmore] at hlists
      cases hlists
  | some class' =>
    obtain ⟨t, size⟩ := class'
    obtain ⟨hmore, hsize, hlists⟩ := @classOf?_append s ('/' :: rest) t size hclass
    have ht : t.listsSlash = false := by
      rw [Bool.eq_false_iff]
      exact fun h => hfree '/' (hlists h) rfl
    -- the characters of the class are passed over alike in both texts
    obtain ⟨position', prev', hskip⟩ :=
      parseFrom_skip (s.take size) (position + 1) (some '[') (t :: tokens)
    rw [List.length_take_of_le hsize] at hskip
    have hpart := hskip (s.drop size)
    have hwhole := hskip (s.drop size ++ '/' :: rest)
    rw [List.take_append_drop] at hpart
    rw [← List.append_assoc, List.take_append_drop] at hwhole
    rw [hmore]
    dsimp only
    rw [hpart, hwhole]
    exact hbehind size position' prev' _ (htokens.cons ht)

theorem readsToSlash (rest part : List Char) (hfree : ∀ x ∈ part, x ≠ '/') (position : Nat)
    (prev : Option Char) (tokens : List Token) (htokens : Untorn tokens) :
    ReadsToSlash position prev tokens part rest := by
  -- on the length: behind a class the part is shorter by the size of the class
  induction hlength : part.length using Nat.strong_induction_on generalizing
    part position prev tokens with
  | _ n ih =>
  cases part with
  | nil => exact Or.inl ⟨_, _, _, rfl, htokens.reverse, rfl, htokens.cons rfl⟩
  | cons c s =>
    rw [List.length_cons] at hlength
    have hs : ∀ x ∈ s, x ≠ '/' := fun x hx => hfree x (List.mem_cons_of_mem c hx)
    have hbehind : ∀ size position' prev' tokens', Untorn tokens' →
        ReadsToSlash position' prev' tokens' (s.drop size) rest := by
      intro size position' prev' tokens' htokens'
      have hshorter : (s.drop size).length < n := by
        rw [List.length_drop]
        omega
      exact ih _ hshorter _ (fun x hx => hs x (List.mem_of_mem_drop hx)) _ _ _ htokens' rfl
    by_cases hbracket : c = '['
    · subst hbracket
      exact readsToSlash_class hs position prev htokens hbehind
    · obtain ⟨t, ht, hone⟩ := exists_parseFrom_one hbracket
      by_cases hstar : c = '*' → (s.takeWhile (· = '*')).length = 0
      · unfold ReadsToSlash
        rw [List.cons_append, hone s _ _ _ hstar,
          hone _ _ _ _ fun hc => (takeWhile_stars s rest).trans (hstar hc)]
        exact hbehind 0 _ _ _ (htokens.cons ht)
      · obtain ⟨rfl, hstars⟩ := Classical.not_imp.mp hstar
        match hcount : (s.takeWhile (· = '*')).length with
        | 0 => exact absurd hcount hstars
        | 1 => exact readsToSlash_stars hs hcount position prev htokens
        | n + 2 =>
          exact .of_errors (parseFrom_manyStars hcount position prev tokens)
            (parseFrom_manyStars ((takeWhile_stars s rest).trans hcount) position prev tokens)

/-! ## Reading all parts -/

/-- A part is read alike at the start of a text and behind a slash. -/
theorem parseFrom_behind_slash (skip position : Nat) (tokens : List Token) (s : List Char) :
    parseFrom skip position (some '/') tokens s = parseFrom skip position none tokens s := by
  cases s with
  | nil => rfl
  | cons c s =>
    rw [parseFrom, parseFrom]
    rfl

theorem exists_parse_iff {prev : Option Char} (hprev : prev = none ∨ prev = some '/')
    (position : Nat) (tokens : List Token) (part : List Char) :
    (∃ ts, parseFrom 0 position prev tokens part = .ok ts) ↔
      ∃ p, parse (String.ofList part) = .ok p := by
  have hfirst : parseFrom 0 position prev tokens part = parseFrom 0 position none tokens part := by
    rcases hprev with rfl | rfl
    · rfl
    · exact parseFrom_behind_slash 0 position tokens part
  rw [hfirst]
  constructor
  · rintro ⟨ts, hts⟩
    obtain ⟨ts', hts'⟩ := exists_parseFrom_ok hts 0 []
    refine ⟨⟨ts'⟩, ?_⟩
    unfold parse
    rw [String.toList_ofList, hts']
    rfl
  · rintro ⟨p, hp⟩
    have hts := exists_parseFrom hp
    rw [String.toList_ofList] at hts
    exact exists_parseFrom_ok hts position tokens

/-- **Parts of a pattern**: they can all be read iff the text can be read without a class that
lists a slash. -/
theorem exists_parseFrom_iff_parts {parts : List (List Char)} (hne : parts ≠ [])
    (hfree : ∀ part ∈ parts, ∀ x ∈ part, x ≠ '/') (position : Nat) {prev : Option Char}
    (hprev : prev = none ∨ prev = some '/') {tokens : List Token} (htokens : Untorn tokens) :
    (∃ ts, parseFrom 0 position prev tokens (joinWith ['/'] parts) = .ok ts ∧ Untorn ts) ↔
      ∀ part ∈ parts, ∃ p, parse (String.ofList part) = .ok p := by
  -- the second part is read from where the first one leaves off, whatever has been read by then
  induction parts generalizing position prev tokens with
  | nil => exact absurd rfl hne
  | cons part parts ih =>
    have hpart := hfree part List.mem_cons_self
    have halone := exists_parse_iff hprev position tokens part
    have hslash := fun rest => readsToSlash rest part hpart position prev tokens htokens
    rw [List.forall_mem_cons, ← halone]
    by_cases hnil : parts = []
    · subst hnil
      refine ⟨fun ⟨ts, hts, _⟩ => ⟨⟨ts, hts⟩, nofun⟩, fun ⟨⟨ts, hts⟩, _⟩ => ⟨ts, hts, ?_⟩⟩
      rcases hslash [] with ⟨ts', _, _, hts', huntorn, -⟩ | ⟨⟨e, herror⟩, -⟩
      · rw [Except.ok.inj (hts.symm.trans hts')]
        exact huntorn
      · cases hts.symm.trans herror
    · have hrest := fun position' {more : List Token} (hmore : Untorn more) =>
        ih hnil (fun q hq => hfree q (List.mem_cons_of_mem _ hq)) position'
          (Or.inr rfl) hmore
      rw [joinWith_cons hnil, List.singleton_append]
      rcases hslash (joinWith ['/'] parts) with
        ⟨ts, position', more, hts, -, hmore, huntorn⟩ | ⟨⟨e, herror⟩, htorn⟩
      · rw [hmore, hrest position' huntorn]
        exact ⟨fun h => ⟨⟨ts, hts⟩, h⟩, fun h => h.2⟩
      · refine iff_of_false (fun ⟨ts, hts, h⟩ => htorn ts hts h) ?_
        rintro ⟨⟨ts, hts⟩, -⟩
        cases hts.symm.trans herror

/-- A pattern has no class that lists a slash iff all its parts can be read. -/
theorem untorn_iff {text : String} {p : Pattern} (hp : parse text = .ok p) :
    Untorn p.tokens ↔
      ∀ part ∈ splitOn (· = '/') text.toList, ∃ q, parse (String.ofList part) = .ok q := by
  have hts := exists_parseFrom hp
  rw [← exists_parseFrom_iff_parts (splitOn_ne_nil _ _)
    (fun part hpart x hx => of_decide_eq_false (free_of_mem_splitOn hpart x hx)) 0
    (Or.inl rfl) (nofun : Untorn []), joinWith_splitOn]
  constructor
  · exact fun h => ⟨_, hts, h⟩
  · rintro ⟨ts, hts', huntorn⟩
    rw [Except.ok.inj (hts.symm.trans hts')]
    exact huntorn

end Pattern

/-! ## Reading a path pattern -/

/-- Whether a part of a path pattern can be read. -/
def CanRead (part : List Char) : Prop :=
  ∃ p, Pattern.parse (String.ofList part) = .ok p

theorem canRead_nil : CanRead [] :=
  ⟨_, rfl⟩

theorem canRead_of_plain {part : List Char} (h : isPlainText part = true) : CanRead part := by
  unfold CanRead Pattern.parse
  rw [String.toList_ofList, Pattern.parseFrom_of_plain h]
  exact ⟨_, rfl⟩

/-- The empty part at the end, which is left out, can be read. -/
theorem forall_mem_partsOf_iff (s : List Char) :
    (∀ part ∈ partsOf s, CanRead part) ↔ ∀ part ∈ splitOn (· = '/') s, CanRead part := by
  unfold partsOf
  dsimp only
  split
  next hlast =>
    obtain ⟨init, hinit⟩ := List.getLast?_eq_some_iff.mp hlast
    rw [hinit, List.dropLast_concat, List.forall_mem_append, List.forall_mem_singleton]
    exact ⟨fun h => ⟨h, canRead_nil⟩, fun h => h.1⟩
  next => exact Iff.rfl

theorem forall_mem_searchStart_iff (path : Path) :
    (∀ part ∈ (searchStart path.text.toList).2, CanRead part) ↔
      ∀ part ∈ path.parts, CanRead part := by
  unfold Path.parts searchStart
  split
  next heq =>
    rw [heq]
    exact iff_of_true (fun part h => List.mem_singleton.mp h ▸ canRead_nil)
      (by rw [show splitOn (· = '/') ['/'] = [[], []] from rfl]; simp [canRead_nil])
  next s _ heq =>
    rw [heq, show splitOn (· = '/') ('/' :: s) = [] :: splitOn (· = '/') s from if_pos rfl,
      List.forall_mem_cons, forall_mem_partsOf_iff]
    exact ⟨fun h => ⟨canRead_nil, h⟩, fun h => h.2⟩
  next => exact forall_mem_partsOf_iff _

theorem exists_mapM_iff (parts : List (List Char)) :
    (∃ ps, parts.mapM (fun part => Pattern.parse (String.ofList part)) = .ok ps) ↔
      ∀ part ∈ parts, CanRead part := by
  induction parts with
  | nil => exact iff_of_true ⟨[], rfl⟩ nofun
  | cons part parts ih =>
    rw [List.forall_mem_cons, ← ih, List.mapM_cons]
    unfold CanRead
    cases Pattern.parse (String.ofList part) with
    | error e => exact iff_of_false (fun ⟨_, h⟩ => nomatch h) (fun ⟨⟨_, h⟩, _⟩ => nomatch h)
    | ok p =>
      cases parts.mapM fun part => Pattern.parse (String.ofList part) with
      | error e => exact iff_of_false (fun ⟨_, h⟩ => nomatch h) (fun ⟨_, _, h⟩ => nomatch h)
      | ok ps => exact iff_of_true ⟨_, rfl⟩ ⟨⟨_, rfl⟩, _, rfl⟩

/-- **A search can read a path pattern** iff it can read every part. -/
theorem exists_search_iff (fs : FileSystem) (path : Path) :
    (∃ found, search fs path.text = .ok found) ↔ ∀ part ∈ path.parts, CanRead part := by
  -- the whole text is read before the parts are, and this excludes no more than they do
  have hall : (∀ part ∈ path.parts, CanRead part) → ∃ p, Pattern.parse path.text = .ok p := by
    intro h
    obtain ⟨ts, hts, -⟩ := (Pattern.exists_parseFrom_iff_parts (splitOn_ne_nil _ _)
      (fun part hpart => Path.free_of_mem_parts hpart) 0 (Or.inl rfl) (nofun : Untorn [])).mpr h
    refine ⟨⟨ts⟩, ?_⟩
    unfold Pattern.parse
    rw [← joinWith_splitOn path.text.toList, hts]
    rfl
  rw [← forall_mem_searchStart_iff, ← exists_mapM_iff] at hall ⊢
  rw [search_eq]
  constructor
  · rintro ⟨found, h⟩
    obtain ⟨p, -, h⟩ := bind_eq_ok_iff.mp h
    obtain ⟨ps, hps, -⟩ := bind_eq_ok_iff.mp h
    exact ⟨ps, hps⟩
  · rintro ⟨ps, hps⟩
    obtain ⟨p, hp⟩ := hall ⟨ps, hps⟩
    rw [hp, hps]
    exact ⟨_, rfl⟩

/-- A relative include is read behind the base, part by part. -/
theorem forall_mem_parts_join_iff (base included : Path) :
    (∀ part ∈ (base.join included).parts, CanRead part) ↔
      (∀ part ∈ included.parts, CanRead part) ∧
        (included.isAbsolute = false → ∀ part ∈ base.parts, CanRead part) := by
  cases habs : included.isAbsolute with
  | true =>
    rw [Path.join_of_isAbsolute base habs]
    exact ⟨fun h => ⟨h, nofun⟩, fun h => h.1⟩
  | false =>
    by_cases hempty : base.text = ""
    · have hparts : base.parts = [[]] := by
        unfold Path.parts
        rw [hempty]
        rfl
      rw [Path.join_of_empty hempty, hparts, List.forall_mem_singleton]
      exact ⟨fun h => ⟨h, fun _ => canRead_nil⟩, fun h => h.1⟩
    · obtain ⟨front, -, hfront, hjoin, -⟩ := Path.parts_join hempty habs
      have hbase : (∀ part ∈ base.parts, CanRead part) ↔ ∀ part ∈ front, CanRead part := by
        rcases hfront with hfront | hfront
        · rw [hfront]
        · rw [hfront, List.forall_mem_append, List.forall_mem_singleton]
          exact ⟨fun h => h.1, fun h => ⟨h, canRead_nil⟩⟩
      rw [hjoin, List.forall_mem_append, hbase, and_comm]
      exact ⟨fun h => ⟨h.1, fun _ => h.2⟩, fun h => ⟨h.1, h.2 rfl⟩⟩

end Glob

/-! ## Valid settings -/

namespace Config

theorem patternFault?_eq_none_iff {fault : String → PatternError → Fault} {patterns : List String} :
    patternFault? fault patterns = none ↔ ∀ p ∈ patterns, ∃ q, Pattern.parse p = .ok q := by
  unfold patternFault?
  rw [List.findSome?_eq_none_iff]
  refine forall₂_congr fun p _ => ?_
  cases Pattern.parse p with
  | error e => exact iff_of_false nofun (fun ⟨_, h⟩ => nomatch h)
  | ok q => exact iff_of_true rfl ⟨q, rfl⟩

theorem readable_of_valid {c : Config} (hvalid : c.fault? = none) :
    (∀ ignored ∈ c.ignores, ∃ p, Pattern.parse ignored = .ok p) ∧
      ∀ included ∈ c.includes, isGlob included = true →
        ∃ p, Pattern.parse included = .ok p := by
  unfold fault? at hvalid
  cases hignores : patternFault? .badIgnore c.ignores with
  | some fault =>
    rw [hignores] at hvalid
    cases hvalid
  | none =>
    cases hincludes : patternFault? .badInclude (c.includes.filter isGlob) with
    | some fault =>
      rw [hignores, hincludes] at hvalid
      cases hvalid
    | none =>
      exact ⟨patternFault?_eq_none_iff.mp hignores, fun included hmem hglob =>
        patternFault?_eq_none_iff.mp hincludes included (List.mem_filter.mpr ⟨hmem, hglob⟩)⟩

/-- **What a scan applies of valid settings.** Take any settings that are valid, any files and any
base. Every ignore can be read as a pattern, and the scan takes each of those that are patterns.
A search can read an include that is a pattern iff no class in it lists a slash and, if it is
relative, every part of the base can be read as a pattern as well. -/
theorem valid_applied_iff {c : Config} (hvalid : c.fault? = none) (fs : FileSystem) (base : Path) :
    (∀ ignored ∈ c.ignores, ∃ p, Pattern.parse ignored = .ok p) ∧
    (c.ignores.filter isGlob).map Pattern.parse =
      (Scan.patternsOf (c.ignores.filter isGlob)).map .ok ∧
    ∀ included ∈ c.includes, isGlob included = true →
      ((∃ found, search fs (base.join ⟨included⟩).text = .ok found) ↔
        (∀ p, Pattern.parse included = .ok p → Untorn p.tokens) ∧
        (Path.isAbsolute ⟨included⟩ = false → ∀ part ∈ base.parts, CanRead part)) := by
  obtain ⟨hignores, hincludes⟩ := readable_of_valid hvalid
  refine ⟨hignores, ?_, ?_⟩
  · have hall : ∀ p ∈ c.ignores.filter isGlob, ∃ q, Pattern.parse p = .ok q :=
      fun p hp => hignores p (List.mem_filter.mp hp).1
    generalize c.ignores.filter isGlob = patterns at hall
    induction patterns with
    | nil => rfl
    | cons p patterns ih =>
      obtain ⟨⟨q, hq⟩, hrest⟩ := List.forall_mem_cons.mp hall
      unfold Scan.patternsOf at ih ⊢
      rw [List.map_cons, ih hrest, List.filterMap_cons, hq]
      rfl
  · intro included hmem hglob
    obtain ⟨p, hp⟩ := hincludes included hmem hglob
    -- The parts of the joined path are those of the include and, if it is relative, of the base.
    rw [exists_search_iff, forall_mem_parts_join_iff]
    refine and_congr_left fun _ => (Pattern.untorn_iff hp).symm.trans ?_
    constructor
    · intro huntorn q hq
      rw [← Except.ok.inj (hp.symm.trans hq)]
      exact huntorn
    · exact fun h => h p hp

/-- Settings with patterns of every kind. -/
def packageSettings : Config where
  includes := ["lib", "**/packages/[a-c]?/s*"]
  ignores := ["**/dist/**", "gen"]

/-- They are applied behind a base without pattern characters. -/
theorem valid_applied_packages :
    packageSettings.fault? = none ∧
      ∃ found, search ⟨.empty, []⟩ (Path.join ⟨"./proj"⟩ ⟨"**/packages/[a-c]?/s*"⟩).text =
        .ok found := by
  have hvalid : packageSettings.fault? = none := by decide +kernel
  have huntorn : (Pattern.parse "**/packages/[a-c]?/s*").toOption.all
      (fun p => p.tokens.all (!·.listsSlash)) = true := by decide +kernel
  have hbase : (Path.parts ⟨"./proj"⟩).all isPlainText = true := by decide +kernel
  refine ⟨hvalid, ((valid_applied_iff hvalid ⟨.empty, []⟩ ⟨"./proj"⟩).2.2 _ (by decide)
    (by decide)).mpr ⟨fun p hp t ht => ?_, fun _ part hpart => ?_⟩⟩
  · rw [hp] at huntorn
    exact (Bool.not_eq_true' _).mp (List.all_eq_true.mp huntorn t ht)
  · exact canRead_of_plain (List.all_eq_true.mp hbase part hpart)

/-- A project in a directory whose name opens a class. -/
def bracketFiles : FileSystem :=
  ⟨.directory [("[p", .directory [("src", .directory [("x-a.ts", .file (some ""))])])], []⟩

/-- Valid settings that are not applied: behind such a base no pattern can be read, and a class that
lists a slash can be read behind none. -/
theorem valid_not_applied :
    ({ includes := ["s*"] } : Config).fault? = none ∧
      search bracketFiles (Path.join ⟨"[p"⟩ ⟨"s*"⟩).text = .error ⟨0, .badClass⟩ ∧
      (scan bracketFiles ⟨"[p"⟩ ["s*"] [] true).files = [] ∧
      (scan bracketFiles ⟨"[p"⟩ ["src"] [] true).files = [⟨"[p/src/x-a.ts"⟩] ∧
      ({ includes := ["src/[a/b]*"] } : Config).fault? = none ∧
      search bracketFiles (Path.join ⟨"."⟩ ⟨"src/[a/b]*"⟩).text = .error ⟨0, .badClass⟩ :=
  ⟨by decide +kernel, rfl, by decide +kernel, by decide +kernel, by decide +kernel, rfl⟩

end Config

end ElementManifest

import ElementManifest.TypeScript.Source
import ElementManifest.TypeDecl

/-!
# Tokens of a type

A type is read from a cursor that stands somewhere in a text. Where it stands is told by the
text that is left (`Stands`), and from the start of that text the next token is known: a name
up to the first character that cannot go on with it, or a mark. Taking the token leads to the
text behind it (`NextIs`).

> `Stands.word`, `Stands.bracket`, `Stands.joint`: what the next token is.

> `Follows`: what may stand behind a type, and the token that it starts with.
-/

namespace ElementManifest.TypeScript

open ElementManifest.Text

/-! ## Bytes -/

theorem foldl_utf8Size (s : List Char) (n : Nat) :
    s.foldl (fun n c => n + c.utf8Size) n = n + byteCount s := by
  unfold byteCount
  induction s generalizing n with
  | nil => rfl
  | cons c s ih =>
    rw [List.foldl_cons, List.foldl_cons, ih, ih (0 + _), Nat.zero_add, Nat.add_assoc]

theorem byteCount_cons (c : Char) (s : List Char) :
    byteCount (c :: s) = c.utf8Size + byteCount s := by
  rw [byteCount, List.foldl_cons, foldl_utf8Size, Nat.zero_add]

theorem byteCount_append (s t : List Char) : byteCount (s ++ t) = byteCount s + byteCount t := by
  rw [byteCount, List.foldl_append, foldl_utf8Size, foldl_utf8Size, Nat.zero_add]

theorem length_le_byteCount (s : List Char) : s.length ≤ byteCount s := by
  induction s with
  | nil => exact Nat.le_refl 0
  | cons c s ih =>
    have hc := c.utf8Size_pos
    rw [List.length_cons, byteCount_cons]
    omega

theorem dropBytes_append (s t : List Char) : dropBytes (byteCount s) (s ++ t) = t := by
  induction s with
  | nil => cases t <;> rfl
  | cons c s ih =>
    have hc := c.utf8Size_pos
    rw [byteCount_cons, List.cons_append, dropBytes, if_neg (by omega), Nat.add_sub_cancel_left, ih]

theorem takeBytes_append (s t : List Char) : takeBytes (byteCount s) (s ++ t) = s := by
  induction s with
  | nil => cases t <;> rfl
  | cons c s ih =>
    have hc := c.utf8Size_pos
    rw [byteCount_cons, List.cons_append, takeBytes, if_neg (by omega), Nat.add_sub_cancel_left, ih]

/-! ## Marks and words -/

namespace Token

variable {t : Token} {m w : String}

theorem isMark_of_mark (h : t.lexeme = .mark m) (m' : String) :
    t.isMark m' = decide (m = m') := by
  unfold isMark
  rw [h]
  simp

theorem isMarkIn_of_mark (h : t.lexeme = .mark m) (ms : List String) :
    t.isMarkIn ms = ms.contains m := by
  unfold isMarkIn
  rw [h]

theorem isWord_of_mark (h : t.lexeme = .mark m) (w : String) : t.isWord w = false := by
  unfold isWord
  rw [h]
  exact decide_eq_false nofun

theorem isName_of_mark (h : t.lexeme = .mark m) : t.isName = false := by
  unfold isName isWordSuch
  rw [h]

variable {escaped : Bool}

theorem isMark_of_word (h : t.lexeme = .word w escaped) (m : String) : t.isMark m = false := by
  unfold isMark
  rw [h]
  exact decide_eq_false nofun

theorem isMarkIn_of_word (h : t.lexeme = .word w escaped) (ms : List String) :
    t.isMarkIn ms = false := by
  unfold isMarkIn
  rw [h]

theorem isWord_of_word (h : t.lexeme = .word w false) (w' : String) :
    t.isWord w' = decide (w = w') := by
  unfold isWord
  rw [h]
  simp

theorem isWordSuch_of_word (h : t.lexeme = .word w false) (p : String → Bool) :
    t.isWordSuch p = p w := by
  unfold isWordSuch
  rw [h]
  rfl

end Token

/-! ## Characters of names -/

theorem isIdentPart_of_start {c : Char} (h : isIdentStart c = true) : isIdentPart c = true := by
  unfold isIdentStart at h
  unfold isIdentPart
  split at h
  next hascii =>
    rw [if_pos hascii]
    simp only [Bool.or_eq_true] at h ⊢
    rcases h with (h | h) | h
    · exact Or.inl (Or.inl (by rw [Char.isAlphanum, h, Bool.true_or]))
    · exact Or.inl (Or.inr h)
    · exact Or.inr h
  next hascii => rw [if_neg hascii, h, Bool.true_or, Bool.true_or, Bool.true_or]

/-- The characters that may stand between tokens, and the one that starts a comment. -/
def blanks : List Char :=
  ['\t', '\x0b', '\x0c', ' ', '\x85', '\xa0', '\ufeff', '\u1680', '\u2000', '\u2001', '\u2002',
    '\u2003', '\u2004', '\u2005', '\u2006', '\u2007', '\u2008', '\u2009', '\u200a', '\u200b',
    '\u202f', '\u205f', '\u3000', '\n', '\r', '\u2028', '\u2029', '/']

theorem mem_blanks_of_isSpace {c : Char} (h : isSpace c = true) : c ∈ blanks := by
  have hcodes : c.toNat ∈ blanks.map Char.toNat := by
    simp only [isSpace, Bool.or_eq_true, Bool.and_eq_true, beq_iff_eq, decide_eq_true_eq] at h
    simp only [blanks, List.map_cons, List.map_nil, List.mem_cons, List.not_mem_nil, or_false]
    show c.toNat = 0x09 ∨ c.toNat = 0x0B ∨ c.toNat = 0x0C ∨ c.toNat = 0x20 ∨ c.toNat = 0x85 ∨
      c.toNat = 0xA0 ∨ c.toNat = 0xFEFF ∨ c.toNat = 0x1680 ∨ c.toNat = 0x2000 ∨ c.toNat = 0x2001 ∨
      c.toNat = 0x2002 ∨ c.toNat = 0x2003 ∨ c.toNat = 0x2004 ∨ c.toNat = 0x2005 ∨
      c.toNat = 0x2006 ∨ c.toNat = 0x2007 ∨ c.toNat = 0x2008 ∨ c.toNat = 0x2009 ∨
      c.toNat = 0x200A ∨ c.toNat = 0x200B ∨ c.toNat = 0x202F ∨ c.toNat = 0x205F ∨
      c.toNat = 0x3000 ∨ c.toNat = 0x0A ∨ c.toNat = 0x0D ∨ c.toNat = 0x2028 ∨ c.toNat = 0x2029 ∨
      c.toNat = 0x2F
    omega
  obtain ⟨d, hd, hcode⟩ := List.mem_map.mp hcodes
  rwa [← Char.toNat_inj.mp hcode]

/-- No blank can start a name. -/
theorem isIdentStart_of_blank {c : Char} (h : c ∈ blanks) : isIdentStart c = false := by
  have hascii : blanks.all (fun d =>
      !(decide (d.toNat < 0x80) && (d.isAlpha || d == '_' || d == '$'))) = true := by
    decide
  have hranges : identStartRanges.ranges.toList.all (fun r =>
      blanks.all fun d => !(decide (r.1 ≤ d.toNat) && decide (d.toNat ≤ r.2))) = true := by
    decide +kernel
  unfold isIdentStart
  split
  next hsmall =>
    have hout := List.all_eq_true.mp hascii c h
    simp [hsmall] at hout
    simp [hout]
  next =>
    refine Bool.eq_false_iff.mpr fun hcontains => ?_
    obtain ⟨r, hr, hlo, hhi⟩ := CharRanges.contains_eq_true_iff.mp hcontains
    have hall := List.all_eq_true.mp hranges r (Array.mem_toList_iff.mpr hr)
    have hout := List.all_eq_true.mp hall c h
    simp [hlo, hhi] at hout

/-- A name starts with no blank. -/
theorem notBlank_of_identStart {c : Char} (h : isIdentStart c = true) :
    isSpace c = false ∧ isLineEnd c = false ∧ c ≠ '/' := by
  have hblank : c ∉ blanks := by
    intro hmem
    rw [isIdentStart_of_blank hmem] at h
    cases h
  refine ⟨?_, ?_, ?_⟩
  · exact Bool.eq_false_iff.mpr fun hspace => hblank (mem_blanks_of_isSpace hspace)
  · refine Bool.eq_false_iff.mpr fun hend => hblank ?_
    simp only [isLineEnd, Bool.or_eq_true, decide_eq_true_eq] at hend
    rcases hend with ((rfl | rfl) | rfl) | rfl <;> simp [blanks]
  · rintro rfl
    exact hblank (by simp [blanks])

/-! ## Scanning -/

theorem trivia_of_start {c : Char} (hspace : isSpace c = false) (hend : isLineEnd c = false)
    (hslash : c ≠ '/') (pos : Nat) (s : List Char) :
    trivia true .blank 0 pos false none [] (c :: s) = ⟨false, [], none, pos, c :: s⟩ := by
  rw [trivia]
  simp only [hspace, hend, Bool.false_eq_true, if_false, hslash, false_and, lineMarkLength,
    Bool.not_true, Bool.false_and, List.reverse_nil]

/-- A token that stands at the start of the text. -/
theorem scan_of_start {c : Char} (hspace : isSpace c = false) (hend : isLineEnd c = false)
    (hslash : c ≠ '/') {s : List Char} {lexeme : Lexeme} {count : Nat}
    (h : scanLexeme true (c :: s) = (lexeme, count)) (pos : Nat) :
    scan true true pos false (c :: s) = Token.make lexeme count pos pos false [] (c :: s) := by
  unfold scan
  rw [trivia_of_start hspace hend hslash]
  simp only [h, Bool.false_and, Bool.false_eq_true, if_false, Option.getD_none]

theorem scan_nil (pos : Nat) :
    scan true true pos false [] = Token.make .finish 0 pos pos false [] [] := rfl

/-- A blank is passed over. -/
theorem scan_space (pos : Nat) (s : List Char) :
    scan true true pos false (' ' :: s) = scan true true (pos + 1) false s := by
  have htrivia : trivia true .blank 0 pos false none [] (' ' :: s) =
      trivia true .blank 0 (pos + 1) false none [] s := by
    rw [trivia]
    rfl
  unfold scan
  rw [htrivia]

/-- A name is taken up to the first character that cannot go on with it. -/
theorem wordChars_append {w x : List Char} (hw : ∀ c ∈ w, isIdentPart c = true)
    (hx : ∀ c ∈ x.head?, isIdentPart c = false ∧ c ≠ '\\') (count : Nat) (taken : List Char) :
    wordChars 0 count taken false (w ++ x) =
      some (taken.reverse ++ w, count + w.length, false) := by
  induction w generalizing count taken with
  | nil =>
    rw [List.nil_append, List.append_nil, List.length_nil, Nat.add_zero]
    cases x with
    | nil => rfl
    | cons c x =>
      obtain ⟨hpart, hslash⟩ := hx c rfl
      rw [wordChars, if_neg hslash, hpart]
      rfl
  | cons c w ih =>
    have hpart := hw c List.mem_cons_self
    have hslash : c ≠ '\\' := by
      rintro rfl
      exact absurd hpart (by decide)
    have hrest := fun d hd => hw d (List.mem_cons_of_mem c hd)
    rw [List.cons_append, wordChars, if_neg hslash, if_pos hpart, ih hrest, List.reverse_cons,
      List.append_assoc, List.length_cons]
    simp only [List.singleton_append, Nat.add_assoc, Nat.add_comm 1]

theorem scanLexeme_word {c : Char} {w x : List Char} (hc : isIdentStart c = true)
    (hw : ∀ d ∈ w, isIdentPart d = true) (hx : ∀ d ∈ x.head?, isIdentPart d = false ∧ d ≠ '\\') :
    scanLexeme true (c :: w ++ x) = (.word (String.ofList (c :: w)) false, w.length + 1) := by
  have hslash : c ≠ '\\' := by
    rintro rfl
    exact absurd hc (by decide)
  have hall : ∀ d ∈ c :: w, isIdentPart d = true := by
    intro d hd
    rcases List.mem_cons.mp hd with rfl | hd
    · exact isIdentPart_of_start hc
    · exact hw d hd
  have hchars := wordChars_append hall hx 0 []
  rw [List.reverse_nil, List.nil_append, Nat.zero_add] at hchars
  show (if (isIdentStart c || c == '\\') = true then scanWord true (c :: w ++ x) else _) = _
  rw [hc, Bool.true_or, if_pos rfl]
  unfold scanWord
  rw [hchars]
  simp only [List.cons_append, List.head?_cons, Option.some.injEq, hslash, if_false,
    Bool.false_and, Bool.false_eq_true, List.length_cons]

/-! ## Where a cursor stands -/

/-- The token at the start of what is left of a text. -/
def tokenAt (size : Nat) (x : List Char) : Token :=
  scan true true (size - byteCount x) false x

/-- The cursor stands in the text `whole`, and `x` is left of it. The token is one of a type. -/
structure Stands (whole : List Char) (s : Settings) (c : Cursor) (x : List Char) : Prop where
  size : s.size = byteCount whole
  inType : s.inType = true
  suffix : x <:+ whole
  token : c.token = tokenAt s.size x

/-- The same for a cursor that stands right behind the last token that it has taken. -/
structure Rests (whole : List Char) (s : Settings) (c : Cursor) (x : List Char) : Prop
    extends Stands whole s c x where
  stop : c.stop = s.size - byteCount x

section

variable {whole x y : List Char} {s : Settings} {c : Cursor}

theorem Stands.byteCount_le (h : Stands whole s c x) : byteCount x ≤ s.size := by
  obtain ⟨before, hwhole⟩ := h.suffix
  rw [h.size, ← hwhole, byteCount_append]
  exact Nat.le_add_left _ _

/-- Blanks in front do not matter. -/
theorem Stands.of_space (h : Stands whole s c (' ' :: x)) : Stands whole s c x where
  size := h.size
  inType := h.inType
  suffix := (List.suffix_cons ' ' x).trans h.suffix
  token := by
    have hle := h.byteCount_le
    have hspace : (' ' : Char).utf8Size = 1 := by decide
    rw [byteCount_cons, hspace] at hle
    rw [h.token, tokenAt, scan_space, tokenAt, byteCount_cons, hspace]
    congr 1
    omega

/-- The text between two places of a source is what is left at the first one and not at the
second. -/
theorem Stands.textOf (h : Stands whole s c (x ++ y)) :
    (Source.mk whole [] []).textOf ⟨s.size - byteCount (x ++ y), s.size - byteCount y⟩ =
      String.ofList x := by
  obtain ⟨before, hwhole⟩ := h.suffix
  have hsize : s.size = byteCount before + byteCount (x ++ y) := by
    rw [h.size, ← hwhole, byteCount_append]
  have hlo : s.size - byteCount (x ++ y) = byteCount before := by omega
  have hhi : s.size - byteCount y - byteCount before = byteCount x := by
    rw [hsize, byteCount_append]
    omega
  unfold Source.textOf Source.slice
  dsimp only
  rw [hlo, hhi, ← hwhole, dropBytes_append, takeBytes_append]

/-- The next token is `l`. It is spelled `x` and stands on the same line, and behind it `y` is
left of the text. -/
structure NextIs (whole : List Char) (s : Settings) (c : Cursor) (l : Lexeme)
    (x y : List Char) : Prop where
  lexeme : c.token.lexeme = l
  newline : c.token.newlineBefore = false
  start : s.size - c.token.span.lo = byteCount (x ++ y)
  text : (Source.mk whole [] []).textOf c.token.span = String.ofList x
  next : Rests whole s (Read.Cursor.advance s c) y

/-- A cursor whose token is spelled `x` leads to the text behind it. -/
theorem Stands.nextIs {l : Lexeme} (h : Stands whole s c (x ++ y))
    (htoken : ∀ pos, scan true true pos false (x ++ y) =
      Token.make l x.length pos pos false [] (x ++ y)) : NextIs whole s c l x y := by
  have hle := h.byteCount_le
  rw [byteCount_append] at hle
  have hspan : s.size - byteCount (x ++ y) + byteCount ((x ++ y).take x.length) =
      s.size - byteCount y := by
    rw [List.take_left, byteCount_append]
    omega
  have heq : c.token = Token.make l x.length (s.size - byteCount (x ++ y))
      (s.size - byteCount (x ++ y)) false [] (x ++ y) := by
    rw [h.token, tokenAt, htoken]
  rw [Token.make, hspan] at heq
  refine ⟨by rw [heq], by rw [heq], ?_, ?_, ?_⟩
  · rw [heq, byteCount_append]
    dsimp only
    omega
  · rw [heq]
    exact h.textOf
  · refine ⟨⟨h.size, h.inType, (List.suffix_append x y).trans h.suffix, ?_⟩, ?_⟩
    · unfold Read.Cursor.advance Token.next
      rw [heq, h.inType]
      unfold tokenAt
      dsimp only
      rw [List.drop_left]
    · unfold Read.Cursor.advance
      rw [heq]

/-- A place that says the same of tokens does not change where the cursor stands. -/
theorem Stands.of_settings {s' : Settings} (h : Stands whole s c x) (hsize : s'.size = s.size)
    (htype : s'.inType = true) : Stands whole s' c x where
  size := hsize.trans h.size
  inType := htype
  suffix := h.suffix
  token := by rw [hsize, h.token]

theorem Rests.of_settings {s' : Settings} (h : Rests whole s c x) (hsize : s'.size = s.size)
    (htype : s'.inType = true) : Rests whole s' c x where
  toStands := h.toStands.of_settings hsize htype
  stop := by rw [hsize, h.stop]

end

/-! ## Names and marks -/

/-- Whether a text is a word that can be read as a name of its own. -/
def isWordText (w : List Char) : Bool :=
  match w with
  | [] => false
  | c :: cs => isIdentStart c && cs.all isIdentPart

/-- What may stand behind a word: nothing that goes on with it. -/
def EndsWord (x : List Char) : Prop :=
  ∀ c ∈ x.head?, isIdentPart c = false ∧ c ≠ '\\'

section

variable {whole x y : List Char} {s : Settings} {c : Cursor}

/-- A word is taken as a whole in front of what cannot go on with it. -/
theorem Stands.word {w : List Char} (h : Stands whole s c (w ++ x)) (hw : isWordText w = true)
    (hx : EndsWord x) : NextIs whole s c (.word (String.ofList w) false) w x := by
  cases w with
  | nil => cases hw
  | cons d w =>
    rw [isWordText, Bool.and_eq_true, List.all_eq_true] at hw
    obtain ⟨hspace, hend, hslash⟩ := notBlank_of_identStart hw.1
    exact h.nextIs fun pos => scan_of_start hspace hend hslash (scanLexeme_word hw.1 hw.2 hx) pos

/-- A mark is taken in front of what forms no longer mark with it. -/
theorem Stands.mark {d : Char} {m : List Char} (h : Stands whole s c (d :: (m ++ x)))
    (hspace : isSpace d = false) (hend : isLineEnd d = false) (hslash : d ≠ '/')
    (hscan : scanLexeme true (d :: (m ++ x)) = (.mark (String.ofList (d :: m)), m.length + 1)) :
    NextIs whole s c (.mark (String.ofList (d :: m))) (d :: m) x :=
  Stands.nextIs (x := d :: m) h fun pos => scan_of_start hspace hend hslash hscan pos

/-- The mark of a bracket or parenthesis is taken by itself. -/
theorem Stands.bracket {d : Char} (h : Stands whole s c (d :: x)) (hd : d ∈ ['(', ')', '[', ']']) :
    NextIs whole s c (.mark (String.singleton d)) [d] x := by
  simp only [List.mem_cons, List.not_mem_nil, or_false] at hd
  rcases hd with rfl | rfl | rfl | rfl
  · exact Stands.mark (m := []) h rfl rfl (by decide) rfl
  · exact Stands.mark (m := []) h rfl rfl (by decide) rfl
  · exact Stands.mark (m := []) h rfl rfl (by decide) rfl
  · exact Stands.mark (m := []) h rfl rfl (by decide) rfl

/-- The mark of a union or an intersection is taken in front of a blank. -/
theorem Stands.joint {d : Char} (h : Stands whole s c (d :: ' ' :: x)) (hd : d ∈ ['|', '&']) :
    NextIs whole s c (.mark (String.singleton d)) [d] (' ' :: x) := by
  simp only [List.mem_cons, List.not_mem_nil, or_false] at hd
  rcases hd with rfl | rfl
  · exact Stands.mark (m := []) h rfl rfl (by decide) rfl
  · exact Stands.mark (m := []) h rfl rfl (by decide) rfl

/-- A word starts with no digit. -/
theorem isDigit_of_identStart {d : Char} (h : isIdentStart d = true) : d.isDigit = false := by
  refine Bool.eq_false_iff.mpr fun hdigit => ?_
  simp only [Char.isDigit, Bool.and_eq_true, decide_eq_true_eq] at hdigit
  obtain ⟨hlo, hhi⟩ := hdigit
  have hlo' : 48 ≤ d.toNat := hlo
  have hhi' : d.toNat ≤ 57 := hhi
  have hnone : ∀ n : Fin 10, isIdentStart (Char.ofNat (48 + n)) = false := by decide
  have hcode : Char.ofNat (48 + (d.toNat - 48)) = d := by
    rw [Nat.add_sub_cancel' hlo', Char.ofNat_toNat]
  have hfalse := hnone ⟨d.toNat - 48, by omega⟩
  rw [hcode, h] at hfalse
  cases hfalse

/-- A dot is taken in front of a word. -/
theorem Stands.dot {w : List Char} (h : Stands whole s c ('.' :: (w ++ x)))
    (hw : isWordText w = true) : NextIs whole s c (.mark ".") ['.'] (w ++ x) := by
  cases w with
  | nil => cases hw
  | cons d w =>
    rw [isWordText, Bool.and_eq_true] at hw
    have hdigit := isDigit_of_identStart hw.1
    have hdot : ('.' == d) = false := by
      refine beq_eq_false_iff_ne.mpr ?_
      rintro rfl
      exact absurd hw.1 (by decide)
    refine Stands.mark (m := []) h rfl rfl (by decide) ?_
    have hstart : isIdentStart '.' = false := by decide
    have hmark : scanMark marks ('.' :: d :: (w ++ x)) = (.mark ".", 1) := by
      simp [scanMark, marks, List.isPrefixOf, hdot]
    have hscan : scanLexeme true ('.' :: d :: (w ++ x)) =
        scanMark marks ('.' :: d :: (w ++ x)) := by
      simp [scanLexeme, hdigit, hstart]
    exact hscan.trans hmark

end

/-! ## What follows a type -/

/-- The texts that may stand behind a type or a part of one, with the lexemes that they start
with. -/
inductive Follows : List Char → Lexeme → Prop
  | finish : Follows [] .finish
  | close (y : List Char) : Follows (')' :: y) (.mark ")")
  | brackets (y : List Char) : Follows ('[' :: ']' :: y) (.mark "[")
  | joint {d : Char} (hd : d ∈ ['|', '&']) (y : List Char) :
    Follows (' ' :: d :: ' ' :: y) (.mark (String.singleton d))

namespace Follows

variable {x : List Char} {l : Lexeme} (h : Follows x l)

include h

/-- What follows a type does not go on with a name. -/
theorem endsWord : EndsWord x := by
  intro c hc
  cases h with
  | finish => cases hc
  | close | brackets | joint =>
    cases hc
    exact ⟨by decide, by decide⟩

/-- No word follows a type, and only marks that end it or go on with it do. -/
theorem lexeme_mem : l ∈ [.finish, .mark ")", .mark "[", .mark "|", .mark "&"] := by
  cases h with
  | finish | close | brackets => decide
  | @joint d hd y =>
    simp only [List.mem_cons, List.not_mem_nil, or_false] at hd
    rcases hd with rfl | rfl <;> decide

/-- The token of what follows a type. -/
theorem token {whole : List Char} {s : Settings} {c : Cursor} (hc : Stands whole s c x) :
    c.token.lexeme = l ∧ c.token.newlineBefore = false := by
  cases h with
  | finish =>
    rw [hc.token, tokenAt, scan_nil]
    exact ⟨rfl, rfl⟩
  | close =>
    have hnext := hc.bracket (by decide)
    exact ⟨hnext.lexeme, hnext.newline⟩
  | brackets =>
    have hnext := hc.bracket (by decide)
    exact ⟨hnext.lexeme, hnext.newline⟩
  | joint hd y =>
    have hnext := hc.of_space.joint hd
    exact ⟨hnext.lexeme, hnext.newline⟩

end Follows

/-- A parenthesis that closes here is one around a type: no arrow follows it. -/
def NoArrow (y : List Char) : Prop :=
  ∀ y', y = ')' :: y' → ∃ l, Follows y' l

end ElementManifest.TypeScript

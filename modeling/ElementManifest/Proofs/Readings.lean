import ElementManifest.Proofs.Pieces
import Mathlib.Data.List.Forall2

/-!
# What the inference finds in a spelling

The rules of the inference look for words and marks anywhere in a text, and at the ends of the
members of a union. All of that is told by the type, whichever way it is spelled:

> `Spells.reads`: what is found in a spelling, and at its ends, by the constructors of the type.

> `SpellsBranches.reads`: a spelling of a union is split into spellings of its branches.
-/

namespace ElementManifest.Inference

open ElementManifest.Text ElementManifest.TypeScript ElementManifest.Expansion


/-! ## What a type tells -/

/-- Whether a name has the word `p` in it, when it is written out. -/
def HasKey (p : List Char) (name? : Option String) : Prop :=
  ∃ name, name? = some name ∧ p ∈ words ∧ p <:+: printedKey name

/-- Whether the label of an element has `p` in it. -/
def HasLabel (p : List Char) (label : Option String) : Prop :=
  ∃ l, label = some l ∧ p <:+: fold l.toList

mutual

/-- Whether `p` is found in the spellings of a type. -/
def Has (s : Source) (p : List Char) : TypeNode → Prop
  | .keyword span _ => p <:+: fold (s.slice span)
  | .other span _ => p <:+: fold (s.slice span)
  | .array _ elem => p = "[]".toList ∨ Has s p elem
  | .tuple _ [] => p = "[]".toList
  | .tuple _ (e :: es) => HasElems s p (e :: es)
  | .union _ ts => p = ['|'] ∨ HasAny s p ts
  | .paren _ inner => Has s p inner
  | .optional _ inner => Has s p inner
  | .rest _ inner => Has s p inner
  | .object _ ms => p = ['\x7b'] ∨ HasMembers s p ms
  | _ => False

/-- Whether `p` is found in the spellings of some elements. -/
def HasElems (s : Source) (p : List Char) : List TupleElem → Prop
  | [] => False
  | .mk label t :: es => HasLabel p label ∨ Has s p t ∨ HasElems s p es

/-- Whether `p` is found in the spellings of some types. -/
def HasAny (s : Source) (p : List Char) : List TypeNode → Prop
  | [] => False
  | t :: ts => Has s p t ∨ HasAny s p ts

/-- Whether `p` is found in the spellings of some members. -/
def HasMembers (s : Source) (p : List Char) : List Member → Prop
  | [] => False
  | .property (.mk span key computed optional type) :: ms =>
    HasKey p (Property.mk span key computed optional type).name? ∨ HasType s p type ∨
      HasMembers s p ms
  | .other _ _ :: ms => HasMembers s p ms

/-- Whether `p` is found in the spellings of the type of a member, if it has one. -/
def HasType (s : Source) (p : List Char) : Option TypeNode → Prop
  | none => False
  | some t => Has s p t

end

theorem hasMembers_cons (s : Source) (p : List Char) (q : Property) (ms : List Member) :
    HasMembers s p (.property q :: ms) ↔
      HasKey p q.name? ∨ HasType s p q.type ∨ HasMembers s p ms := by
  cases q
  rw [HasMembers]
  rfl

/-- The text that the inference sees of a type that has just one spelling. -/
def leafText (s : Source) : TypeNode → Option (List Char)
  | .keyword span _ => some (fold (s.slice span))
  | .truth _ value => some (truthText value)
  | .other span _ => some (fold (s.slice span))
  | _ => none

/-- Whether the spellings of a type start with the bracket of a tuple. -/
def opensTuple : TypeNode → Bool
  | .tuple _ _ => true
  | .array _ elem => opensTuple elem
  | _ => false

/-- Whether a type is an array or a tuple. -/
def isArrayType : TypeNode → Bool
  | .array _ _ => true
  | .tuple _ _ => true
  | _ => false

mutual

/-- Whether the spellings of a type end with an empty pair of brackets. -/
def endsInPair : TypeNode → Bool
  | .array _ _ => true
  | .tuple _ [] => true
  | .union _ ts => lastEndsInPair ts
  | _ => false

/-- Whether the spellings of the last one of some types end with an empty pair of brackets. -/
def lastEndsInPair : List TypeNode → Bool
  | [] => false
  | [t] => endsInPair t
  | _ :: ts => lastEndsInPair ts

end

/-! ## What a text tells -/

/-- Whether a text starts and ends with characters that are not blank. -/
structure Tight (f : List Char) : Prop where
  first : ∃ c, f.head? = some c ∧ isBlank c = false
  last : ∃ c, f.getLast? = some c ∧ isBlank c = false

/-- What a text tells of a type that is no union. -/
structure ReadsAlone (s : Source) (t : TypeNode) (f : List Char) : Prop where
  level : Level 0 f
  tight : Tight f
  opens_iff : f.head? = some '[' ↔ opensTuple t = true
  leaf : ∀ l, leafText s t = some l → f = l
  marked : leafText s t = none → ∃ c ∈ f, isMark c = true
  closes_iff : leafText s t = none → (f.getLast? = some ']' ↔ isArrayType t = true)
  array_eq : leafText s t = none → isArraySyntax f = isArrayType t

/-- What a spelling tells of its type. -/
structure Reads (s : Source) (t : TypeNode) (x : List Char) : Prop where
  inner : Inner (Has s · t) x
  tight : Tight (fold x)
  pair_iff : "[]".toList <:+ fold x ↔ endsInPair t = true
  alone : isUnion t = false → ReadsAlone s t (fold x)

/-- What a spelling of the branches of a union tells. -/
structure ReadsBranches (s : Source) (ts : List TypeNode) (x : List Char) : Prop where
  inner : Inner (fun p => (2 ≤ ts.length ∧ p = ['|']) ∨ HasAny s p ts) x
  tight : Tight (fold x)
  pair_iff : "[]".toList <:+ fold x ↔ lastEndsInPair ts = true
  parts : ∀ n b, OutsideAt 0 n → Blanks b →
    List.Forall₂ (fun t part => ReadsAlone s t (trim part)) ts (splitUnionFrom n (b ++ fold x))

/-! ## Ends -/

theorem blanks_nil : Blanks [] := nofun

theorem dropWhile_blanks {b f : List Char} (hb : Blanks b)
    (hf : ∃ c, f.head? = some c ∧ isBlank c = false) : (b ++ f).dropWhile isBlank = f := by
  obtain ⟨c, hc, hblank⟩ := hf
  obtain ⟨f, rfl⟩ := List.head?_eq_some_iff.mp hc
  rw [List.dropWhile_append_of_pos hb, List.dropWhile_cons_of_neg (by rw [hblank]; decide)]

/-- An empty pair of brackets at the end of a text stands in the part that starts with another
character than the closing one. -/
theorem pair_suffix_append {f g : List Char} (hne : g ≠ []) (hfirst : g.head? ≠ some ']') :
    "[]".toList <:+ f ++ g ↔ "[]".toList <:+ g := by
  constructor
  · intro h
    rcases List.suffix_or_suffix_of_suffix h (List.suffix_append f g) with h | h
    · exact h
    · -- `g` is a suffix of the pair, and it is neither empty nor the closing bracket alone
      rw [show "[]".toList = ['[', ']'] from rfl, List.suffix_cons_iff] at h
      rcases h with rfl | h
      · exact List.suffix_rfl
      · rw [List.suffix_cons_iff, List.suffix_nil] at h
        rcases h with rfl | rfl
        · exact absurd rfl hfirst
        · exact absurd rfl hne
  · exact fun h => h.trans (List.suffix_append f g)

theorem getLast?_of_pair_suffix {f : List Char} (h : "[]".toList <:+ f) :
    f.getLast? = some ']' := by
  obtain ⟨front, rfl⟩ := h
  rw [List.getLast?_append]
  rfl

theorem not_pair_suffix_concat {f : List Char} (hlast : f.getLast? ≠ some '[') :
    ¬"[]".toList <:+ f ++ [']'] := by
  rintro ⟨front, heq⟩
  rw [show "[]".toList = ['['] ++ [']'] from rfl, ← List.append_assoc, List.append_left_inj] at heq
  rw [← heq, List.getLast?_concat] at hlast
  exact hlast rfl

/-- A text that starts with a mark and does not end with a bracket of an array is no array. -/
theorem isArraySyntax_of_marked {f : List Char} {c : Char} (hfirst : f.head? = some c)
    (hmark : isMark c = true) (hlast : f.getLast? ≠ some ']') : isArraySyntax f = false := by
  have hword : ∀ w : List Char, (∃ d, w.head? = some d ∧ isMark d = false) →
      w.isPrefixOf f = false := by
    rintro w ⟨d, hd, hplain⟩
    rw [Bool.eq_false_iff, Ne, List.isPrefixOf_iff_prefix]
    rintro ⟨rest, rfl⟩
    rw [List.head?_append, hd] at hfirst
    cases hfirst
    rw [hplain] at hmark
    cases hmark
  have hpair : endsWith "[]".toList f = false := by
    rw [Bool.eq_false_iff]
    exact fun h => hlast (getLast?_of_pair_suffix (List.isSuffixOf_iff_suffix.mp h))
  have htuple : isTuple f = false := by
    unfold isTuple
    rw [decide_eq_false hlast, Bool.and_false]
  unfold isArraySyntax
  rw [hpair, hword _ ⟨'a', by decide⟩, hword _ ⟨'r', by decide⟩, hword _ ⟨'r', by decide⟩, htuple]
  rfl

namespace Tight

variable {f g : List Char}

theorem ne_nil (h : Tight f) : f ≠ [] := by
  rintro rfl
  obtain ⟨c, hc, -⟩ := h.first
  cases hc

theorem append (hf : Tight f) (hg : ∃ c, g.getLast? = some c ∧ isBlank c = false) :
    Tight (f ++ g) := by
  obtain ⟨c, hc, hblank⟩ := hf.first
  obtain ⟨d, hd, hblank'⟩ := hg
  exact ⟨⟨c, by rw [List.head?_append, hc]; rfl, hblank⟩,
    ⟨d, by rw [List.getLast?_append, hd]; rfl, hblank'⟩⟩

/-- Only the ends of the outer texts count. -/
theorem around (hf : Tight f) (m : List Char) (hg : Tight g) : Tight (f ++ (m ++ g)) := by
  obtain ⟨c, hc, hblank⟩ := hg.last
  exact hf.append ⟨c, by rw [List.getLast?_append, hc]; rfl, hblank⟩

theorem bar : Tight ['|'] :=
  ⟨⟨'|', rfl, by decide⟩, ⟨'|', rfl, by decide⟩⟩

theorem trim_blanks (h : Tight f) {b b' : List Char} (hb : Blanks b) (hb' : Blanks b') :
    trim (b ++ (f ++ b')) = f := by
  have hhead : ∃ c, (f ++ b').head? = some c ∧ isBlank c = false := by
    obtain ⟨c, hc, hblank⟩ := h.first
    exact ⟨c, by rw [List.head?_append, hc]; rfl, hblank⟩
  have hlast : ∃ c, f.reverse.head? = some c ∧ isBlank c = false := by
    obtain ⟨c, hc, hblank⟩ := h.last
    exact ⟨c, by rw [List.head?_reverse, hc], hblank⟩
  have hblanks : Blanks b'.reverse := fun c hc => hb' c (List.mem_reverse.mp hc)
  unfold trim trimStart trimEnd
  rw [dropWhile_blanks hb hhead, List.reverse_append, dropWhile_blanks hblanks hlast,
    List.reverse_reverse]

theorem of_ends {o c : Char} {x : List Char} (ho : isMark o = true) (hc : isMark c = true) :
    Tight (o :: (x ++ [c])) := by
  have hblank : ∀ {d}, isMark d = true → isBlank d = false := by
    intro d hd
    rw [Bool.eq_false_iff]
    intro hblank
    rw [isMark_of_isBlank hblank] at hd
    cases hd
  exact ⟨⟨o, rfl, hblank ho⟩, ⟨c, by rw [← List.cons_append, List.getLast?_concat], hblank hc⟩⟩

/-- The ends of a text that has no literals stay what they are. -/
theorem fold_word {w : List Char} (h : IsWord w) : Tight (fold w) := by
  have hfold := fold_of_quoteFree (quoteFree_of_plain h.plain)
  have halone : ∀ c, isBlank c = false →
      (∃ d, (lowerAlone c).head? = some d ∧ isBlank d = false) ∧
        ∃ d, (lowerAlone c).getLast? = some d ∧ isBlank d = false := by
    intro c hc
    rcases tame_lowerAlone c with heq | ⟨-, hne, hall⟩
    · rw [heq]
      exact ⟨⟨c, rfl, hc⟩, ⟨c, rfl, hc⟩⟩
    · exact ⟨⟨_, List.head?_eq_some_head hne, (hall _ (List.head_mem hne)).2⟩,
        ⟨_, List.getLast?_eq_some_getLast hne, (hall _ (List.getLast_mem hne)).2⟩⟩
  constructor
  · obtain ⟨c, hc, hblank⟩ := h.first
    obtain ⟨w, rfl⟩ := List.head?_eq_some_iff.mp hc
    obtain ⟨d, hd, hblank'⟩ := (halone c hblank).1
    rw [hfold, List.flatMap_cons]
    exact ⟨d, by rw [List.head?_append, hd]; rfl, hblank'⟩
  · obtain ⟨c, hc, hblank⟩ := h.last
    obtain ⟨w, rfl⟩ := List.getLast?_eq_some_iff.mp hc
    obtain ⟨d, hd, hblank'⟩ := (halone c hblank).2
    rw [hfold, List.flatMap_append, List.flatMap_singleton]
    exact ⟨d, by rw [List.getLast?_append, hd]; rfl, hblank'⟩

end Tight

/-! ## Types that are one token -/

section

variable {s : Source} {t : TypeNode} {x : List Char}

theorem opensTuple_of_leafText {l : List Char} (h : leafText s t = some l) :
    opensTuple t = false ∧ endsInPair t = false := by
  cases t with
  | keyword | truth | other => exact ⟨rfl, rfl⟩
  | _ => cases h

/-- A type that has just one spelling, without marks but for those of a template. -/
theorem Reads.of_leaf (hinner : Inner (fun p => p <:+: fold x) x)
    (hplain : ∀ c ∈ fold x, isMark c = false) (htight : Tight (fold x))
    (hleaf : leafText s t = some (fold x)) (hhas : ∀ p ∈ patterns, p <:+: fold x ↔ Has s p t) :
    Reads s t x := by
  obtain ⟨hopens, hpair⟩ := opensTuple_of_leafText hleaf
  have hnone : leafText s t ≠ none := fun hnone => by
    rw [hleaf] at hnone
    cases hnone
  refine ⟨hinner.congr hhas, htight, ?_, fun _ => ?_⟩
  · rw [hpair]
    refine iff_of_false (fun hsuffix => ?_) (by decide)
    have := hplain ']' (List.mem_of_getLast? (getLast?_of_pair_suffix hsuffix))
    cases this
  · refine ⟨.of_plain hplain 0, htight, ?_, fun l hl => ?_, fun hnil => absurd hnil hnone,
      fun hnil => absurd hnil hnone, fun hnil => absurd hnil hnone⟩
    · rw [hopens]
      refine iff_of_false (fun hhead => ?_) (by decide)
      have := hplain '[' (List.mem_of_head? hhead)
      cases this
    · rw [hleaf] at hl
      exact Option.some.inj hl

theorem Reads.of_word (h : IsWord x) (hleaf : leafText s t = some (fold x))
    (hhas : ∀ p, p <:+: fold x ↔ Has s p t) : Reads s t x :=
  .of_leaf (.of_plain h.plain) (plain_fold h.plain) (.fold_word h) hleaf fun p _ => hhas p

theorem reads_truth {span : Span} {value : Bool} :
    Reads s (.truth span value) (truthText value) := by
  have htext : ∀ value, fold (truthText value) = truthText value := by decide
  have hplain : ∀ value, ∀ c ∈ truthText value, isMark c = false := by decide
  have hword : ∀ value, ∀ p ∈ patterns, ¬p <:+: truthText value := by decide
  have htight : Tight (truthText value) := by
    cases value with
    | true => exact ⟨⟨'t', by decide⟩, ⟨'e', by decide⟩⟩
    | false => exact ⟨⟨'f', by decide⟩, ⟨'e', by decide⟩⟩
  refine .of_leaf (.of_plain (hplain value)) (plain_fold (hplain value)) ?_ ?_ fun p hp => ?_
  · rw [htext]
    exact htight
  · rw [htext]
    rfl
  · rw [htext]
    exact iff_of_false (hword value p hp) id

theorem reads_template {span : Span} {parts : List Node} {body : List Char}
    (htext : s.slice span = '\x60' :: (body ++ ['\x60']))
    (hbody : staysInside '\x60' false body = true) :
    Reads s (.other span parts) (s.slice span) := by
  have hfold : fold (s.slice span) = emptied '\x60' := by
    rw [htext]
    exact fold_literal rfl hbody
  refine .of_leaf ?_ ?_ ?_ rfl fun p _ => Iff.rfl
  · rw [hfold, htext]
    exact .of_emptied rfl hbody
  · rw [hfold]
    decide
  · rw [hfold]
    exact ⟨⟨'s', by decide⟩, ⟨'g', by decide⟩⟩

/-- Of a text in quotes only the quotes are left. -/
theorem reads_quoted {span : Span} {value : Option String} {q : Char} {body : List Char}
    (hq : q = '"' ∨ q = '\'') (hbody : staysInside q false body = true) :
    Reads s (.text span value) (q :: (body ++ [q])) := by
  have hquote : Nesting.isQuote q = true ∧ emptied q = q :: ([] ++ [q]) ∧ q ≠ ']' ∧ q ≠ '[' ∧
      ∀ p ∈ patterns, ¬p <:+: emptied q := by
    rcases hq with rfl | rfl
    · decide
    · decide
  obtain ⟨hquote, hempty, hcloses, hopens, hfree⟩ := hquote
  have hmark := isMark_of_isQuote hquote
  have hfold : fold (q :: (body ++ [q])) = q :: ([] ++ [q]) :=
    (fold_literal hquote hbody).trans hempty
  have hlast : (q :: ([] ++ [q])).getLast? ≠ some ']' :=
    fun hlast => hcloses (Option.some.inj hlast)
  refine ⟨(Inner.of_emptied hquote hbody).congr fun p hp => iff_of_false (hfree p hp) id, ?_, ?_,
    fun _ => ?_⟩
  · rw [hfold]
    exact .of_ends hmark hmark
  · rw [hfold]
    exact iff_of_false (fun hpair => hlast (getLast?_of_pair_suffix hpair)) (by simp [endsInPair])
  · rw [hfold]
    refine ⟨hempty ▸ .emptied hquote 0, .of_ends hmark hmark, ?_, nofun,
      fun _ => ⟨q, by simp, hmark⟩, fun _ => iff_of_false hlast (by simp [isArrayType]),
      fun _ => isArraySyntax_of_marked rfl hmark hlast⟩
    exact iff_of_false (fun hhead => hopens (Option.some.inj hhead)) (by simp [opensTuple])

/-! ## Types in brackets -/

theorem ReadsAlone.enclosed {o c : Char} {f : List Char} (hpair : (o, c) ∈ bracketPairs)
    (hlevel : Level 1 f) (hleaf : leafText s t = none) (hopens : o = '[' ↔ opensTuple t = true)
    (harray : opensTuple t = isArrayType t) : ReadsAlone s t (o :: (f ++ [c])) := by
  have hall : ∀ b ∈ bracketPairs,
      (isMark b.1 = true ∧ isMark b.2 = true) ∧ (b.2 = ']' ↔ b.1 = '[') := by decide
  obtain ⟨ho, -, hc, -⟩ := bracketPairs_told hpair
  obtain ⟨⟨hmark, hmark'⟩, hsame⟩ := hall (o, c) hpair
  have hlast : (o :: (f ++ [c])).getLast? = some c := by
    rw [← List.cons_append, List.getLast?_concat]
  -- the closing bracket is the last character, so both ends tell the kind of the type
  have hcloses : (o :: (f ++ [c])).getLast? = some ']' ↔ isArrayType t = true := by
    rw [hlast, Option.some_inj, ← harray, ← hopens]
    exact hsame
  refine ⟨hlevel.bracket ho hc, .of_ends hmark hmark', ?_, fun l hl => ?_,
    fun _ => ⟨o, List.mem_cons_self, hmark⟩, fun _ => hcloses, fun _ => ?_⟩
  · rw [List.head?_cons, Option.some_inj]
    exact hopens
  · rw [hleaf] at hl
    cases hl
  · cases htype : isArrayType t with
    | false =>
      refine isArraySyntax_of_marked rfl hmark fun hlast => ?_
      rw [hcloses, htype] at hlast
      cases hlast
    | true =>
      have htuple : isTuple (o :: (f ++ [c])) = true := by
        unfold isTuple
        rw [decide_eq_true (hcloses.mpr htype), List.head?_cons,
          hopens.mpr (harray.trans htype)]
        rfl
      unfold isArraySyntax
      rw [htuple, Bool.or_true]

/-- A text in brackets is read by its brackets, as long as they are no `[]`. -/
theorem Reads.enclosed {P : List Char → Prop} {o c : Char} (h : Inner P x)
    (hpair : (o, c) ∈ bracketPairs) (hne : o = '[' → fold x ≠ [])
    (hhas : ∀ p ∈ patterns, (p = [o] ∨ P p) ↔ Has s p t) (hends : endsInPair t = false)
    (hleaf : leafText s t = none) (hopens : o = '[' ↔ opensTuple t = true)
    (harray : opensTuple t = isArrayType t) : Reads s t (o :: (x ++ [c])) := by
  have hmarks : ∀ b ∈ bracketPairs,
      isMark b.1 = true ∧ isMark b.2 = true ∧ (b.2 = ']' → b.1 = '[') := by decide
  obtain ⟨hmark, hmark', hsquare⟩ := hmarks (o, c) hpair
  have hfold := fold_enclose h.closed hpair
  have hnot : ¬"[]".toList <:+ o :: (fold x ++ [c]) := by
    intro hsuffix
    have hlast := getLast?_of_pair_suffix hsuffix
    rw [← List.cons_append, List.getLast?_concat] at hlast
    obtain rfl : c = ']' := Option.some.inj hlast
    have hx : fold x ≠ [] := hne (hsquare rfl)
    rw [← List.cons_append] at hsuffix
    refine not_pair_suffix_concat (fun hlast => ?_) hsuffix
    rw [← List.singleton_append, List.getLast?_append_of_ne_nil _ hx] at hlast
    exact h.last hlast
  refine ⟨(h.enclose hpair hne).congr hhas, ?_, ?_, fun _ => ?_⟩
  · rw [hfold]
    exact .of_ends hmark hmark'
  · rw [hfold, hends]
    exact iff_of_false hnot Bool.false_ne_true
  · rw [hfold]
    exact .enclosed hpair h.level hleaf hopens harray

theorem reads_paren {span : Span} {inner : TypeNode} {b b' : List Char} (hb : Blanks b)
    (h : Reads s inner x) (hb' : Blanks b') :
    Reads s (.paren span inner) ('(' :: (b ++ x ++ b' ++ [')'])) := by
  have hin := (h.inner.behind_silent hb.silent).before_silent hb'.silent
  have hne : ∀ p ∈ patterns, p ≠ ['('] := by decide
  refine .enclosed hin (by decide) nofun (fun p hp => ?_) rfl rfl (by simp [opensTuple]) rfl
  rw [or_iff_right (hne p hp), Has]

theorem reads_object {span : Span} {members : List Member} (h : Inner (HasMembers s · members) x) :
    Reads s (.object span members) ('\x7b' :: (x ++ ['\x7d'])) :=
  .enclosed h (by decide) nofun (fun p _ => by rw [Has]) rfl rfl (by simp [opensTuple]) rfl

theorem reads_empty {span : Span} : Reads s (.tuple span []) "[]".toList := by
  have hfold : fold "[]".toList = '[' :: ([] ++ [']']) := rfl
  refine ⟨Inner.pair.congr fun p hp => by rw [Has], ?_, ?_, fun _ => ?_⟩
  · rw [hfold]
    exact .of_ends (by decide) (by decide)
  · rw [hfold]
    exact iff_of_true List.suffix_rfl rfl
  · rw [hfold]
    exact .enclosed (by decide) (.nil 1) rfl (by simp [opensTuple]) rfl

theorem reads_tuple {span : Span} {e : TupleElem} {es : List TupleElem}
    (h : Inner (HasElems s · (e :: es)) x) (hne : fold x ≠ []) :
    Reads s (.tuple span (e :: es)) ('[' :: (x ++ [']'])) := by
  have hone : ∀ p ∈ patterns, p ≠ ['['] := by decide
  refine .enclosed h (by decide) (fun _ => hne) (fun p hp => ?_) rfl rfl (by simp [opensTuple]) rfl
  rw [or_iff_right (hone p hp), Has]

theorem reads_array {span : Span} {elem : TypeNode} {b : List Char} (h : Reads s elem x)
    (hunion : isUnion elem = false) (hb : Blanks b) :
    Reads s (.array span elem) (x ++ (b ++ "[]".toList)) := by
  have halone := h.alone hunion
  have hbehind := Inner.pair.behind_silent hb.silent
  have hpair : fold (b ++ "[]".toList) = b ++ "[]".toList := by
    rw [hb.silent.fold_append]
    rfl
  have hfold : fold (x ++ (b ++ "[]".toList)) = fold x ++ (b ++ "[]".toList) := by
    rw [h.inner.closed, hpair]
  have hquiet : StartsQuiet (fold (b ++ "[]".toList)) :=
    StartsQuiet.behind_silent (fun c hc => by cases hc; rfl) hb.silent
  have hsuffix : "[]".toList <:+ fold x ++ (b ++ "[]".toList) := by
    rw [← List.append_assoc]
    exact List.suffix_append _ _
  have hlast : (fold x ++ (b ++ "[]".toList)).getLast? = some ']' :=
    getLast?_of_pair_suffix hsuffix
  refine ⟨(h.inner.append hbehind (Or.inr hquiet)).congr fun p hp => ?_, ?_, ?_, fun _ => ?_⟩
  · rw [Has, or_comm]
  · rw [hfold]
    exact h.tight.append ⟨']', by rw [List.getLast?_append]; rfl, by decide⟩
  · rw [hfold]
    exact iff_of_true hsuffix rfl
  · rw [hfold]
    refine ⟨?_, ?_, ?_, nofun, fun _ => ⟨']', List.mem_of_getLast? hlast, by decide⟩,
      fun _ => iff_of_true hlast rfl, fun _ => ?_⟩
    · exact halone.level.append ((hb.silent.level 0).append (.bracket (.nil 1) rfl (by decide)))
    · exact h.tight.append ⟨']', by rw [List.getLast?_append]; rfl, by decide⟩
    · rw [List.head?_append_of_ne_nil _ h.tight.ne_nil, halone.opens_iff]
      rfl
    · unfold isArraySyntax endsWith
      rw [List.isSuffixOf_iff_suffix.mpr hsuffix]
      rfl

/-! ## Names and labels -/

theorem silent_colon {o b : List Char} (ho : Mid o) (hb : Blanks b) : Silent (o ++ ':' :: b) := by
  have hcolon : Silent [':'] := silent_single ⟨rfl, rfl, rfl⟩
  exact ho.silent.append (hcolon.append hb.silent)

theorem silent_comma : Silent [','] := silent_single ⟨rfl, rfl, rfl⟩

theorem silent_query : Silent ['?'] := silent_single ⟨rfl, rfl, rfl⟩

theorem silent_dots : Silent "...".toList := by
  have hdot : Silent ['.'] := silent_single ⟨rfl, rfl, rfl⟩
  exact (hdot.append hdot).append hdot

/-- Only words are found in a text that has no marks. -/
theorem mem_words_of_found {p k : List Char} (hp : p ∈ patterns) (hk : ∀ c ∈ k, isMark c = false)
    (hin : p <:+: fold k) : p ∈ words := by
  have hmarked : ∀ p ∈ patterns, p ∈ words ∨ ∃ c ∈ p, isMark c = true := by decide
  rcases hmarked p hp with hword | ⟨c, hc, hmark⟩
  · exact hword
  · rw [plain_fold hk c (hin.subset hc)] at hmark
    cases hmark

theorem endsQuiet_colon {y o b : List Char} (hy : Closed y) (ho : Mid o) (hb : Blanks b) :
    EndsQuiet (fold (y ++ (o ++ ':' :: b))) := by
  have hcolon := silent_colon ho hb
  intro c hc
  rw [hy, hcolon.fold_eq, List.getLast?_append_of_ne_nil _ (by simp)] at hc
  exact (hcolon c (List.mem_of_getLast? hc)).2.1

theorem SpellsKey.inner {name : String} {k : List Char} (h : SpellsKey name k) :
    Inner (HasKey · (some name)) k := by
  have hkey : ∀ {p}, HasKey p (some name) ↔ p ∈ words ∧ p <:+: printedKey name := by
    intro p
    constructor
    · rintro ⟨n, hn, hkey⟩
      cases hn
      exact hkey
    · exact fun h => ⟨name, rfl, h⟩
  cases h with
  | plain hk hwords =>
    refine (Inner.of_plain hk).congr fun p hp => ?_
    rw [hkey]
    constructor
    · intro hin
      have hword := mem_words_of_found hp hk hin
      exact ⟨hword, (hwords p hword).mp hin⟩
    · rintro ⟨hword, hin⟩
      exact (hwords p hword).mpr hin
  | @quoted q body hq hbody hwords =>
    -- a quoted key is emptied before it is searched, and two quotes hold no pattern
    have hquote : Nesting.isQuote q = true ∧ ∀ p ∈ patterns, ¬p <:+: emptied q := by
      rcases hq with rfl | rfl
      · decide
      · decide
    refine (Inner.of_emptied hquote.1 hbody).congr fun p hp => iff_of_false (hquote.2 p hp) ?_
    rw [hkey]
    rintro ⟨hword, hin⟩
    exact hwords p hword hin

theorem SpellsLabel.inner {label : Option String} {l : List Char} (h : SpellsLabel label l) :
    Inner (HasLabel · label) l ∧ EndsQuiet (fold l) := by
  have hnone : ∀ p, ¬HasLabel p Option.none := by
    rintro p ⟨l, hl, -⟩
    cases hl
  cases h with
  | none =>
    exact ⟨(Inner.of_silent (y := []) nofun).congr fun p _ => iff_of_false id (hnone p), nofun⟩
  | @hidden d l o b hd hlabel hwords ho hb =>
    have hdots := silent_dots.append hd.silent
    have hword := ((Inner.of_plain hlabel).before_silent (silent_colon ho hb)).behind_silent hdots
    have hassoc : "...".toList ++ d ++ l ++ o ++ ':' :: b =
        ("...".toList ++ d) ++ (l ++ (o ++ ':' :: b)) := by
      simp only [List.append_assoc]
    rw [hassoc]
    refine ⟨hword.congr fun p hp => iff_of_false (fun hin => ?_) (hnone p), ?_⟩
    · exact hwords p (mem_words_of_found hp hlabel hin) hin
    · rw [← List.append_assoc]
      exact endsQuiet_colon (hdots.quoteFree.closed.append (quoteFree_of_plain hlabel).closed) ho hb
  | @some label o b hlabel ho hb =>
    have hword := (Inner.of_plain hlabel).before_silent (silent_colon ho hb)
    rw [List.append_assoc]
    refine ⟨hword.congr fun p _ => ?_, endsQuiet_colon (quoteFree_of_plain hlabel).closed ho hb⟩
    constructor
    · exact fun hin => ⟨label, rfl, hin⟩
    · rintro ⟨l, hl, hin⟩
      cases hl
      exact hin

theorem SpellsNoType.inner {z y : List Char} {P : List Char → Prop} (h : SpellsNoType z)
    (hy : Inner P y) (hquiet : StartsQuiet (fold y)) :
    Inner P (z ++ y) ∧ StartsQuiet (fold (z ++ y)) := by
  cases h with
  | missing ho => exact ⟨hy.behind_silent ho.silent, hquiet.behind_silent ho.silent⟩
  | @any o b ho hb =>
    have hcolon := silent_colon ho hb
    have hfree : ∀ p ∈ patterns, ¬p <:+: fold "any".toList := by decide
    have hany := (Inner.of_plain (x := "any".toList) (by decide)).append hy (Or.inr hquiet)
    have hfront : o ++ ':' :: (b ++ "any".toList) ++ y =
        (o ++ ':' :: b) ++ ("any".toList ++ y) := by
      simp only [List.append_assoc, List.cons_append]
    rw [hfront]
    refine ⟨(hany.congr fun p hp => ?_).behind_silent hcolon, hcolon.startsQuiet (by simp) _⟩
    exact or_iff_right (hfree p hp)

/-! ## Lists of types -/

theorem inner_no_elems {b : List Char} (hb : Blanks b) : Inner (HasElems s · []) b :=
  (Inner.of_silent hb.silent).congr fun p _ => by rw [HasElems]

theorem inner_optional {span : Span} {b : List Char} (h : Reads s t x) (hb : Blanks b) :
    Inner (Has s · (.optional span t)) (x ++ (b ++ ['?'])) ∧ fold (x ++ (b ++ ['?'])) ≠ [] := by
  refine ⟨(h.inner.before_silent (hb.silent.append silent_query)).congr fun p _ => by rw [Has], ?_⟩
  rw [h.inner.closed]
  exact List.append_ne_nil_of_left_ne_nil h.tight.ne_nil _

theorem inner_rest {span : Span} {b : List Char} (hb : Blanks b) (h : Reads s t x) :
    Inner (Has s · (.rest span t)) ("...".toList ++ b ++ x) ∧
      fold ("...".toList ++ b ++ x) ≠ [] := by
  have hdots := silent_dots.append hb.silent
  refine ⟨(h.inner.behind_silent hdots).congr fun p _ => by rw [Has], ?_⟩
  rw [hdots.fold_append]
  exact List.append_ne_nil_of_right_ne_nil _ h.tight.ne_nil

theorem inner_elem {label : Option String} {es : List TupleElem} {b l b' rest : List Char}
    (hb : Blanks b) (hl : SpellsLabel label l)
    (h : Inner (Has s · t) x ∧ fold x ≠ []) (hb' : Blanks b')
    (hrest : Inner (HasElems s · es) rest) (hquiet : StartsQuiet (fold (b' ++ rest))) :
    Inner (HasElems s · (.mk label t :: es)) (b ++ l ++ x ++ b' ++ rest) ∧
      fold (b ++ l ++ x ++ b' ++ rest) ≠ [] := by
  obtain ⟨hlabel, hends⟩ := hl.inner
  have hbehind := h.1.append (hrest.behind_silent hb'.silent) (Or.inr hquiet)
  have hall := (hlabel.append hbehind (Or.inl hends)).behind_silent hb.silent
  have hassoc : b ++ l ++ x ++ b' ++ rest = b ++ (l ++ (x ++ (b' ++ rest))) := by
    simp only [List.append_assoc]
  rw [hassoc]
  refine ⟨hall.congr fun p _ => by rw [HasElems], fun hnil => h.2 ?_⟩
  rw [hb.silent.fold_append, hlabel.closed, h.1.closed] at hnil
  simp only [List.append_eq_nil_iff] at hnil
  exact hnil.2.2.1

theorem inner_property {p : Property} {name : String} {ms : List Member} {g k y : List Char}
    (hg : Gap g) (hname : p.name? = some name) (hk : SpellsKey name k)
    (hy : Inner (fun w => HasType s w p.type ∨ HasMembers s w ms) y)
    (hquiet : StartsQuiet (fold y)) :
    Inner (HasMembers s · (.property p :: ms)) (g ++ (k ++ y)) := by
  refine ((hk.inner.append hy (Or.inr hquiet)).behind_silent hg.silent).congr fun w _ => ?_
  rw [hasMembers_cons, hname]

theorem typed_assoc (g k o b x rest : List Char) :
    g ++ k ++ o ++ ':' :: (b ++ x ++ rest) = g ++ (k ++ ((o ++ ':' :: b) ++ (x ++ rest))) := by
  simp only [List.append_assoc, List.cons_append]

theorem inner_typed {p : Property} {name : String} {ms : List Member} {g k o b rest : List Char}
    (hg : Gap g) (hname : p.name? = some name) (hk : SpellsKey name k) (ho : Mid o) (hb : Blanks b)
    (htype : p.type = some t) (h : Reads s t x) (hrest : Inner (HasMembers s · ms) rest)
    (hquiet : StartsQuiet (fold rest)) :
    Inner (HasMembers s · (.property p :: ms)) (g ++ k ++ o ++ ':' :: (b ++ x ++ rest)) := by
  have hcolon := silent_colon ho hb
  have hbehind := (h.inner.append hrest (Or.inr hquiet)).behind_silent hcolon
  rw [typed_assoc]
  refine inner_property hg hname hk (hbehind.congr fun w _ => ?_) (hcolon.startsQuiet (by simp) _)
  rw [htype, HasType]

theorem inner_untyped {p : Property} {name : String} {ms : List Member} {g k z rest : List Char}
    (hg : Gap g) (hname : p.name? = some name) (hk : SpellsKey name k) (hz : SpellsNoType z)
    (htype : p.type = none) (hrest : Inner (HasMembers s · ms) rest)
    (hquiet : StartsQuiet (fold rest)) :
    Inner (HasMembers s · (.property p :: ms)) (g ++ k ++ z ++ rest) := by
  obtain ⟨hbehind, hquiet'⟩ := hz.inner hrest hquiet
  rw [List.append_assoc, List.append_assoc]
  refine inner_property hg hname hk (hbehind.congr fun w _ => ?_) hquiet'
  rw [htype, HasType, false_or]

/-- Behind a member something stands that is no letter of a word. -/
theorem SpellsMembers.startsQuiet {ms : List Member} {rest : List Char}
    (h : SpellsMembers s ms rest) (hsep : ms = [] ∨ ∃ c, rest.head? = some c ∧ Gap [c]) :
    StartsQuiet (fold rest) := by
  rcases hsep with rfl | ⟨c, hc, hgap⟩
  · cases h with
    | nil hg =>
      intro c hc
      rw [hg.silent.fold_eq] at hc
      exact (hg.silent c (List.mem_of_head? hc)).2.1
  · obtain ⟨rest, rfl⟩ := List.head?_eq_some_iff.mp hc
    exact hgap.silent.startsQuiet (List.cons_ne_nil c []) rest

theorem endsQuiet_bar : EndsQuiet (fold ['|']) := by
  intro c hc
  cases hc
  rfl

theorem fold_bar {b : List Char} (hb : Blanks b) (x : List Char) :
    fold ('|' :: (b ++ x)) = '|' :: (b ++ fold x) := by
  rw [← List.singleton_append, Inner.bar.closed, hb.silent.fold_append]
  rfl

theorem ReadsBranches.single (h : Reads s t x) (hunion : isUnion t = false) :
    ReadsBranches s [t] x where
  inner := h.inner.congr fun p _ => by
    rw [HasAny, HasAny, or_false]
    exact (or_iff_right fun hlength => absurd hlength.1 (by simp)).symm
  tight := h.tight
  pair_iff := h.pair_iff
  parts := by
    intro n b hn hb
    have halone := h.alone hunion
    rw [((hb.silent.level 0).append halone.level).splitUnionFrom_eq hn]
    refine .cons ?_ .nil
    rw [← List.append_nil (fold x), halone.tight.trim_blanks hb blanks_nil]
    exact halone

theorem ReadsBranches.cons {ts : List TypeNode} {b b' rest : List Char} (h : Reads s t x)
    (hunion : isUnion t = false) (hb : Blanks b) (hb' : Blanks b')
    (hrest : ReadsBranches s ts rest) :
    ReadsBranches s (t :: ts) (x ++ b ++ '|' :: (b' ++ rest)) := by
  have halone := h.alone hunion
  -- there is a branch behind this one, or there would be no bar
  have hne : ts ≠ [] := by
    rintro rfl
    have hnil := hrest.parts {} [] outsideAt_start blanks_nil
    exact splitUnionFrom_ne_nil _ _ (List.forall₂_nil_left_iff.mp hnil)
  have hbar := fold_bar hb' rest
  have hbehind : Inner (fun p => p = ['|'] ∨ (2 ≤ ts.length ∧ p = ['|']) ∨ HasAny s p ts)
      (['|'] ++ (b' ++ rest)) :=
    Inner.bar.append (hrest.inner.behind_silent hb'.silent) (Or.inl endsQuiet_bar)
  have hquiet : StartsQuiet (fold (b ++ '|' :: (b' ++ rest))) := by
    refine StartsQuiet.behind_silent ?_ hb.silent
    rw [hbar]
    intro c hc
    cases hc
    rfl
  have hassoc : x ++ b ++ '|' :: (b' ++ rest) = x ++ (b ++ '|' :: (b' ++ rest)) :=
    List.append_assoc _ _ _
  have hfold : fold (x ++ b ++ '|' :: (b' ++ rest)) =
      (fold x ++ (b ++ '|' :: b')) ++ fold rest := by
    rw [hassoc, h.inner.closed, hb.silent.fold_append, hbar]
    simp only [List.append_assoc, List.cons_append]
  refine ⟨?_, ?_, ?_, fun n b₀ hn hb₀ => ?_⟩
  · rw [hassoc]
    refine (h.inner.append (hbehind.behind_silent hb.silent) (Or.inr hquiet)).congr fun p _ => ?_
    have hlength : 2 ≤ (t :: ts).length := by
      have := List.length_pos_iff.mpr hne
      rw [List.length_cons]
      omega
    rw [HasAny]
    tauto
  · rw [hfold, List.append_assoc]
    exact h.tight.around _ hrest.tight
  · obtain ⟨u, us, rfl⟩ := List.exists_cons_of_ne_nil hne
    rw [hfold, pair_suffix_append hrest.tight.ne_nil hrest.inner.first, hrest.pair_iff]
    rfl
  · have hlevel : Level 0 (b₀ ++ (fold x ++ b)) :=
      (hb₀.silent.level 0).append
        (halone.level.append (hb.silent.level 0))
    obtain ⟨n', hn', hsplit⟩ := hlevel.splitUnionFrom_bar hn
    have hshape : b₀ ++ fold (x ++ b ++ '|' :: (b' ++ rest)) =
        (b₀ ++ (fold x ++ b)) ++ '|' :: (b' ++ fold rest) := by
      rw [hfold]
      simp only [List.append_assoc, List.cons_append]
    rw [hshape, hsplit]
    refine .cons ?_ (hrest.parts n' b' hn' hb')
    rw [halone.tight.trim_blanks hb₀ hb]
    exact halone

theorem ReadsBranches.reads {span : Span} {t u : TypeNode} {ts : List TypeNode}
    (h : ReadsBranches s (t :: u :: ts) x) : Reads s (.union span (t :: u :: ts)) x where
  inner := h.inner.congr fun p _ => by
    rw [Has, and_iff_right (by simp : 2 ≤ (t :: u :: ts).length)]
  tight := h.tight
  pair_iff := h.pair_iff
  alone := nofun

/-- A bar in front of the first branch changes nothing. -/
theorem Reads.barred {span : Span} {ts : List TypeNode} {b : List Char} (hb : Blanks b)
    (h : Reads s (.union span ts) x) : Reads s (.union span ts) ('|' :: (b ++ x)) := by
  have hbar := Inner.bar.append (h.inner.behind_silent hb.silent) (Or.inl endsQuiet_bar)
  have hfold : fold ('|' :: (b ++ x)) = ('|' :: b) ++ fold x := fold_bar hb x
  refine ⟨hbar.congr fun p _ => ?_, ?_, ?_, nofun⟩
  · rw [Has, ← or_assoc, or_self]
  · rw [hfold]
    exact Tight.bar.around b h.tight
  · rw [hfold, pair_suffix_append h.tight.ne_nil h.inner.first]
    exact h.pair_iff

/-! ## All types -/

mutual

/-- **What is found in a spelling is told by the type.** -/
theorem Spells.reads {t : TypeNode} {x : List Char} (h : Spells s t x) : Reads s t x :=
  match h with
  | .keyword h => .of_word h rfl fun _ => Iff.rfl
  | .truth => reads_truth
  | .number h => .of_word h rfl fun _ => Iff.rfl
  | .template htext hbody => reads_template htext hbody
  | .literal hq hbody => reads_quoted hq hbody
  | .untold hq htext hbody => htext ▸ reads_quoted hq hbody
  | .array h hunion hb => reads_array h.reads hunion hb
  | .empty => reads_empty
  | .tuple h => reads_tuple h.inner.1 (h.inner.2 (List.cons_ne_nil _ _))
  | .union h => h.reads.reads
  | .barred hb h => h.reads.reads.barred hb
  | .paren hb h hb' => reads_paren hb h.reads hb'
  | .object h => reads_object h.inner
termination_by structural h

theorem SpellsSlot.inner {t : TypeNode} {x : List Char} (h : SpellsSlot s t x) :
    Inner (Has s · t) x ∧ fold x ≠ [] :=
  match h with
  | .plain h => ⟨h.reads.inner, h.reads.tight.ne_nil⟩
  | .optional h _ hb => inner_optional h.reads hb
  | .rest hb h => inner_rest hb h.reads
termination_by structural h

theorem SpellsElems.inner {es : List TupleElem} {x : List Char} (h : SpellsElems s es x) :
    Inner (HasElems s · es) x ∧ (es ≠ [] → fold x ≠ []) :=
  match h with
  | .nil hb => ⟨inner_no_elems hb, fun hne => absurd rfl hne⟩
  | .last hb hl h hb' => by
    have hall := inner_elem hb hl h.inner hb' (inner_no_elems blanks_nil)
      (StartsQuiet.behind_silent nofun hb'.silent)
    rw [List.append_nil] at hall
    exact ⟨hall.1, fun _ => hall.2⟩
  | .cons hb hl h hb' hrest => by
    have hall := inner_elem hb hl h.inner hb' (hrest.inner.1.behind_silent silent_comma)
      ((silent_comma.startsQuiet (List.cons_ne_nil _ _) _).behind_silent hb'.silent)
    exact ⟨hall.1, fun _ => hall.2⟩
termination_by structural h

theorem SpellsBranches.reads {ts : List TypeNode} {x : List Char} (h : SpellsBranches s ts x) :
    ReadsBranches s ts x :=
  match h with
  | .last h hunion => .single h.reads hunion
  | .cons h hunion hb hb' hrest => .cons h.reads hunion hb hb' hrest.reads
termination_by structural h

theorem SpellsMembers.inner {ms : List Member} {x : List Char} (h : SpellsMembers s ms x) :
    Inner (HasMembers s · ms) x :=
  match h with
  | .nil hg => (Inner.of_silent hg.silent).congr fun p _ => by rw [HasMembers]
  | .typed hg hname hk ho hb htype h hrest hsep =>
    inner_typed hg hname hk ho hb htype h.reads hrest.inner (hrest.startsQuiet hsep)
  | .untyped hg hname hk hz htype hrest hsep =>
    inner_untyped hg hname hk hz htype hrest.inner (hrest.startsQuiet hsep)
termination_by structural h

end

end

end ElementManifest.Inference

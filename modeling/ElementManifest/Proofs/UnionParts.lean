import ElementManifest.Proofs.LiteralContents
import ElementManifest.Proofs.Spellings

/-!
# The rules of the inference, part by part

A text is split at its bars outside of all brackets and quotes. The rules look at the parts, but
they also look for words, brackets and collections anywhere in the text. None of what they look
for has a bar or a blank in it, and blanks and bars end a word, so nothing is found across two
parts or in what is taken off a part:

> `infix_iff_parts`, `suffix_iff_parts`, `hasStructure_eq_parts`: what is found in a text is found
> in one of its parts.

So the rules can be told by the parts alone.
-/

namespace ElementManifest.Inference

open ElementManifest.Text

/-! ## Blanks and bars -/

/-- Whether `c` stands between two parts, or between a part and a bar. -/
def isBetween (c : Char) : Bool :=
  isBlank c || c = '|'

/-- A word that stands in one part. -/
def Unbroken (w : List Char) : Prop :=
  ∀ c ∈ w, isBetween c = false

instance (w : List Char) : Decidable (Unbroken w) :=
  inferInstanceAs (Decidable (∀ c ∈ w, isBetween c = false))

theorem isBetween_of_isBlank {c : Char} (h : isBlank c = true) : isBetween c = true := by
  unfold isBetween
  rw [h, Bool.true_or]

theorem Unbroken.not_mem {w : List Char} (hw : Unbroken w) {c : Char} (hc : isBetween c = true) :
    c ∉ w := by
  intro hmem
  rw [hw c hmem] at hc
  cases hc

/-- No blank is a word character. -/
theorem isWordChar_of_isBlank {c : Char} (h : isBlank c = true) : isWordChar c = false := by
  unfold isWordChar
  by_cases hascii : c.toNat < 0x80
  · have hc : isBlank c = true → (c.isAlphanum || c == '_') = false := by
      refine of_ascii hascii ?_
      decide
    rw [if_pos hascii, hc h]
  · -- along the list of the ranges, since the kernel is slow to walk through an array
    have hall : (wordRanges.ranges.toList.all fun w =>
        blankRanges.all fun b => w.2 < b.1 || b.2 < w.1) = true := by decide +kernel
    rw [if_neg hascii, Bool.eq_false_iff]
    intro hword
    obtain ⟨w, hw, hlo, hhi⟩ := CharRanges.contains_eq_true_iff.mp hword
    obtain ⟨b, hb, hlo', hhi'⟩ := isBlank_iff.mp h
    have hword := List.all_eq_true.mp hall w (Array.mem_toList_iff.mpr hw)
    have hapart := List.all_eq_true.mp hword b hb
    rw [Bool.or_eq_true, decide_eq_true_eq, decide_eq_true_eq] at hapart
    omega

theorem isWordChar_of_isBetween {c : Char} (h : isBetween c = true) : isWordChar c = false := by
  unfold isBetween at h
  rw [Bool.or_eq_true, decide_eq_true_eq] at h
  rcases h with hblank | rfl
  · exact isWordChar_of_isBlank hblank
  · decide

/-- A text is what is left of it between its outer blanks. -/
theorem exists_trim (s : List Char) :
    ∃ b b', Blanks b ∧ Blanks b' ∧ s = b ++ (trim s ++ b') := by
  obtain ⟨b, hb, hs⟩ := exists_trimStart s
  obtain ⟨b', hb', hs'⟩ := exists_trimEnd (trimStart s)
  exact ⟨b, b', hb, hb', by rw [trim, ← hs', ← hs]⟩

/-! ## Joining -/

/-- Bars between the parts give the text back. -/
theorem intercalate_splitUnionFrom (n : Nesting) (s : List Char) :
    ['|'].intercalate (splitUnionFrom n s) = s := by
  induction s generalizing n with
  | nil => rfl
  | cons c s ih =>
    obtain ⟨part, parts, heq⟩ := List.exists_cons_of_ne_nil (splitUnionFrom_ne_nil (n.step c) s)
    have hs := ih (n.step c)
    rw [splitUnionFrom]
    split
    next hbar =>
      rw [heq] at hs ⊢
      rw [List.intercalate_cons_cons, hs, hbar.1]
      rfl
    next =>
      rw [heq] at hs ⊢
      cases parts with
      | nil =>
        rw [List.intercalate_singleton] at hs ⊢
        rw [hs]
      | cons next parts =>
        rw [List.intercalate_cons_cons] at hs ⊢
        rw [← hs]
        rfl

theorem last_suffix_intercalate {ps : List (List Char)} {p : List Char}
    (h : ps.getLast? = some p) : p <:+ ['|'].intercalate ps := by
  induction ps with
  | nil => cases h
  | cons q ps ih =>
    cases ps with
    | nil =>
      cases h
      rw [List.intercalate_singleton]
      exact List.suffix_rfl
    | cons r ps =>
      rw [List.getLast?_cons_cons] at h
      rw [List.intercalate_cons_cons]
      exact (ih h).trans (List.suffix_append _ _)

/-- The parts of a text between its bars outside of brackets and quotes, without the blanks around
them. -/
def parts (text : List Char) : List (List Char) :=
  (splitUnion text).map trim

/-! ## Words -/

section

variable {w : List Char}

theorem infix_append_cons_iff {c : Char} (hc : c ∉ w) {x y : List Char} :
    w <:+: x ++ c :: y ↔ w <:+: x ∨ w <:+: y := by
  constructor
  · intro h
    rcases List.infix_append_iff.mp h with hx | hy | ⟨a, b, rfl, ha, hb⟩
    · exact Or.inl hx
    · rcases List.infix_cons_iff.mp hy with hprefix | hy
      · rcases List.prefix_cons_iff.mp hprefix with rfl | ⟨t, rfl, -⟩
        · exact Or.inl List.nil_infix
        · exact absurd List.mem_cons_self hc
      · exact Or.inr hy
    · -- what reaches over the end of `x` would have `c` in it
      rcases List.prefix_cons_iff.mp hb with rfl | ⟨t, rfl, -⟩
      · rw [List.append_nil]
        exact Or.inl ha.isInfix
      · exact absurd (List.mem_append_right a List.mem_cons_self) hc
  · rintro (hx | hy)
    · exact hx.trans (List.prefix_append x (c :: y)).isInfix
    · exact hy.trans ((List.suffix_cons c y).trans (List.suffix_append x (c :: y))).isInfix

theorem suffix_append_cons_iff {c : Char} (hc : c ∉ w) {x y : List Char} :
    w <:+ x ++ c :: y ↔ w <:+ y := by
  constructor
  · intro h
    rcases List.suffix_or_suffix_of_suffix h (List.suffix_append x (c :: y)) with hw | hw
    · rcases List.suffix_cons_iff.mp hw with rfl | hy
      · exact absurd List.mem_cons_self hc
      · exact hy
    · exact absurd (hw.subset List.mem_cons_self) hc
  · exact fun hy => (hy.trans (List.suffix_cons c y)).trans (List.suffix_append x (c :: y))

theorem eq_nil_of_infix_blanks (hw : Unbroken w) {b : List Char} (hb : Blanks b) (h : w <:+: b) :
    w = [] := by
  rw [List.eq_nil_iff_forall_not_mem]
  intro c hc
  exact hw.not_mem (isBetween_of_isBlank (hb c (h.subset hc))) hc

theorem infix_blanks_append_iff (hw : Unbroken w) {b : List Char} (hb : Blanks b)
    {x : List Char} : w <:+: b ++ x ↔ w <:+: x := by
  rcases List.eq_nil_or_concat b with rfl | ⟨b, c, rfl⟩
  · rfl
  · have hc : c ∉ w := hw.not_mem (isBetween_of_isBlank (hb c (by simp)))
    rw [List.concat_eq_append, List.append_assoc, List.singleton_append, infix_append_cons_iff hc]
    refine or_iff_right_of_imp fun h => ?_
    rw [eq_nil_of_infix_blanks hw (fun d hd => hb d (by simp [hd])) h]
    exact List.nil_infix

theorem infix_append_blanks_iff (hw : Unbroken w) {b : List Char} (hb : Blanks b)
    {x : List Char} : w <:+: x ++ b ↔ w <:+: x := by
  cases b with
  | nil => rw [List.append_nil]
  | cons c b =>
    rw [infix_append_cons_iff (hw.not_mem (isBetween_of_isBlank (hb c List.mem_cons_self)))]
    refine or_iff_left_of_imp fun h => ?_
    rw [eq_nil_of_infix_blanks hw (fun d hd => hb d (List.mem_cons_of_mem c hd)) h]
    exact List.nil_infix

theorem infix_trim_iff (hw : Unbroken w) (s : List Char) : w <:+: trim s ↔ w <:+: s := by
  obtain ⟨b, b', hb, hb', hs⟩ := exists_trim s
  rw [← infix_append_blanks_iff hw hb', ← infix_blanks_append_iff hw hb, ← hs]

theorem infix_intercalate_iff (hw : '|' ∉ w) {ps : List (List Char)} (hne : ps ≠ []) :
    w <:+: ['|'].intercalate ps ↔ ∃ p ∈ ps, w <:+: p := by
  induction ps with
  | nil => exact absurd rfl hne
  | cons p ps ih =>
    cases ps with
    | nil => simp
    | cons q qs =>
      rw [List.intercalate_cons_cons, List.append_assoc, List.singleton_append,
        infix_append_cons_iff hw, ih (List.cons_ne_nil q qs)]
      simp

theorem suffix_intercalate_iff (hw : '|' ∉ w) {ps : List (List Char)} (hne : ps ≠ []) :
    w <:+ ['|'].intercalate ps ↔ ∃ p, ps.getLast? = some p ∧ w <:+ p := by
  induction ps with
  | nil => exact absurd rfl hne
  | cons p ps ih =>
    cases ps with
    | nil => simp
    | cons q qs =>
      rw [List.intercalate_cons_cons, List.append_assoc, List.singleton_append,
        suffix_append_cons_iff hw, ih (List.cons_ne_nil q qs), List.getLast?_cons_cons]

/-- **A word is found in a text if and only if it is found in one of its parts.** -/
theorem infix_iff_parts (hw : Unbroken w) (text : List Char) :
    w <:+: text ↔ ∃ p ∈ parts text, w <:+: p := by
  have hbar : '|' ∉ w := hw.not_mem (by decide)
  have hjoined := infix_intercalate_iff hbar (splitUnionFrom_ne_nil {} text)
  rw [intercalate_splitUnionFrom] at hjoined
  rw [hjoined]
  unfold parts splitUnion
  simp only [List.mem_map, exists_exists_and_eq_and, infix_trim_iff hw]

/-- A text without blanks at its end has none to lose there. -/
theorem eq_nil_of_trimEnd {x b : List Char} (hb : Blanks b) (h : trimEnd (x ++ b) = x ++ b) :
    b = [] := by
  obtain ⟨b', -, hx⟩ := exists_trimEnd x
  rw [trimEnd_append, if_pos (trimEnd_blanks hb)] at h
  have hlength := congrArg List.length h
  have hshorter := congrArg List.length hx
  rw [List.length_append] at hlength hshorter
  exact List.eq_nil_of_length_eq_zero (by omega)

theorem suffix_blanks_append_iff (hw : Unbroken w) {b : List Char} (hb : Blanks b)
    {x : List Char} : w <:+ b ++ x ↔ w <:+ x := by
  rcases List.eq_nil_or_concat b with rfl | ⟨b, c, rfl⟩
  · rfl
  · have hc : c ∉ w := hw.not_mem (isBetween_of_isBlank (hb c (by simp)))
    rw [List.concat_eq_append, List.append_assoc, List.singleton_append,
      suffix_append_cons_iff hc]

/-- A text ends with a word if and only if its last part does. -/
theorem suffix_iff_parts (hw : Unbroken w) {text : List Char} (htext : trimEnd text = text) :
    w <:+ text ↔ ∃ p, (parts text).getLast? = some p ∧ w <:+ p := by
  have hne := splitUnionFrom_ne_nil {} text
  have hjoined := intercalate_splitUnionFrom {} text
  have hlast := List.getLast?_eq_some_getLast hne
  have hends : (splitUnionFrom {} text).getLast hne <:+ text := by
    have hself := last_suffix_intercalate hlast
    rwa [hjoined] at hself
  have hword := suffix_intercalate_iff (hw.not_mem (by decide)) hne
  rw [hjoined] at hword
  rw [hword, parts, splitUnion, List.getLast?_map, hlast]
  simp only [Option.some.injEq, exists_eq_left', Option.map_some]
  -- the blanks behind the last part would be blanks at the end of the text
  obtain ⟨b, b', hb, hb', hpart⟩ := exists_trim ((splitUnionFrom {} text).getLast hne)
  obtain ⟨x, hx⟩ := hends
  rw [hpart, ← List.append_assoc, ← List.append_assoc] at hx
  obtain rfl := eq_nil_of_trimEnd hb' (hx.symm ▸ htext)
  rw [List.append_nil] at hpart
  conv_lhs => rw [hpart]
  exact suffix_blanks_append_iff hw hb

end

/-! ## Bars -/

theorem bar_notMem_blanks {b : List Char} (hb : Blanks b) : '|' ∉ b :=
  fun hmem => absurd (hb '|' hmem) (by decide)

theorem bar_mem_trim_iff (s : List Char) : '|' ∈ trim s ↔ '|' ∈ s := by
  obtain ⟨b, b', hb, hb', hs⟩ := exists_trim s
  constructor
  · intro h
    rw [hs]
    exact List.mem_append_right b (List.mem_append_left b' h)
  · intro h
    rw [hs] at h
    rcases List.mem_append.mp h with h | h
    · exact absurd h (bar_notMem_blanks hb)
    · exact (List.mem_append.mp h).resolve_right (bar_notMem_blanks hb')

/-- A text has a bar if and only if one parts it or one stands in a part. -/
theorem bar_mem_iff_parts (text : List Char) :
    '|' ∈ text ↔ 2 ≤ (parts text).length ∨ ∃ p ∈ parts text, '|' ∈ p := by
  have hjoined := intercalate_splitUnionFrom {} text
  unfold parts splitUnion
  simp only [List.mem_map, exists_exists_and_eq_and, bar_mem_trim_iff, List.length_map]
  generalize hps : splitUnionFrom {} text = ps at hjoined ⊢
  rw [← hjoined]
  match ps with
  | [] => exact absurd hps (splitUnionFrom_ne_nil {} text)
  | [p] => simp
  | p :: q :: ps =>
    rw [List.intercalate_cons_cons]
    exact iff_of_true (by simp) (Or.inl (by simp))

/-! ## Structure -/

/-- A text that ends whatever structure has begun in front of it. -/
structure Separates (z : List Char) : Prop where
  head : ∀ c, z.head? = some c → isBetween c = true
  angle : (z.dropWhile isBlank).head? ≠ some '<'

theorem Separates.bar (y : List Char) : Separates ('|' :: y) where
  head := fun c hc => by
    cases hc
    decide
  angle := by
    rw [List.dropWhile_cons_of_neg (by decide)]
    simp

theorem Separates.blanks {b : List Char} (hb : Blanks b) : Separates b where
  head := fun c hc => isBetween_of_isBlank (hb c (List.mem_of_head? hc))
  angle := by
    rw [show b.dropWhile isBlank = [] from trimStart_blanks hb]
    exact nofun

theorem prefix_append_iff {w s z : List Char} (hw : Unbroken w) (hz : Separates z) :
    w <+: s ++ z ↔ w <+: s := by
  induction s generalizing w with
  | nil =>
    refine ⟨fun h => ?_, fun h => h.trans List.nil_prefix⟩
    cases w with
    | nil => exact List.nil_prefix
    | cons d w =>
      have hd : z.head? = some d := by
        obtain ⟨rest, hrest⟩ := h
        rw [List.nil_append] at hrest
        rw [← hrest]
        rfl
      exact absurd List.mem_cons_self (hw.not_mem (hz.head d hd))
  | cons c s ih =>
    cases w with
    | nil => exact iff_of_true List.nil_prefix List.nil_prefix
    | cons d w =>
      rw [List.cons_append, List.cons_prefix_cons, List.cons_prefix_cons,
        ih fun e he => hw e (List.mem_cons_of_mem d he)]

theorem unbroken_collections : ∀ word ∈ collections, Unbroken word := by
  decide

theorem startsCollection_append {s z : List Char} (hz : Separates z) :
    startsCollection (s ++ z) = startsCollection s := by
  unfold startsCollection
  rw [Bool.eq_iff_iff, List.any_eq_true, List.any_eq_true]
  refine exists_congr fun word => and_congr_right fun hmem => ?_
  rw [Bool.and_eq_true, Bool.and_eq_true, List.isPrefixOf_iff_prefix, List.isPrefixOf_iff_prefix,
    prefix_append_iff (unbroken_collections word hmem) hz, decide_eq_true_eq, decide_eq_true_eq]
  refine and_congr_right fun hprefix => ?_
  obtain ⟨r, rfl⟩ := hprefix
  rw [List.append_assoc, List.drop_left, List.drop_left, List.dropWhile_append]
  -- only where blanks are all that stands behind the word, the text behind comes into sight
  split
  next hblank =>
    rw [List.isEmpty_iff.mp hblank]
    exact iff_of_false hz.angle nofun
  next hblank => rw [List.head?_append_of_ne_nil _ (by rwa [List.isEmpty_iff] at hblank)]

theorem startsCollection_of_isBetween {c : Char} (hc : isBetween c = true) (s : List Char) :
    startsCollection (c :: s) = false := by
  have hne : ∀ word ∈ collections, word ≠ [] := by decide
  unfold startsCollection
  rw [List.any_eq_false]
  intro word hmem hword
  rw [Bool.and_eq_true, List.isPrefixOf_iff_prefix] at hword
  rcases List.prefix_cons_iff.mp hword.1 with rfl | ⟨t, rfl, -⟩
  · exact hne [] hmem rfl
  · exact (unbroken_collections _ hmem).not_mem hc List.mem_cons_self

theorem hasStructureFrom_congr {prev prev' : Option Char}
    (h : prev.any isWordChar = prev'.any isWordChar) (s : List Char) :
    hasStructureFrom prev s = hasStructureFrom prev' s := by
  cases s with
  | nil => rfl
  | cons c s => rw [hasStructureFrom, hasStructureFrom, h]

/-- A blank or a bar is no structure, and a word may start behind it. -/
theorem hasStructureFrom_between {c : Char} (hc : isBetween c = true) (prev : Option Char)
    (s : List Char) : hasStructureFrom prev (c :: s) = hasStructure s := by
  have hpair : "[]".toList.isPrefixOf (c :: s) = false := by
    rw [Bool.eq_false_iff, Ne, List.isPrefixOf_iff_prefix]
    intro hprefix
    have hhead := (List.cons_prefix_cons.mp hprefix).1
    rw [← hhead] at hc
    exact absurd hc (by decide)
  have hbrace : decide (c = '\x7b') = false := by
    rw [decide_eq_false_iff_not]
    rintro rfl
    exact absurd hc (by decide)
  rw [hasStructureFrom, hpair, hbrace, startsCollection_of_isBetween hc, Bool.and_false,
    Bool.false_or, Bool.false_or, Bool.false_or]
  refine hasStructureFrom_congr ?_ s
  rw [Option.any_some, isWordChar_of_isBetween hc, Option.any_none]

theorem hasStructureFrom_append {z : List Char} (hz : Separates z) (s : List Char)
    (prev : Option Char) :
    hasStructureFrom prev (s ++ z) = (hasStructureFrom prev s || hasStructure z) := by
  induction s generalizing prev with
  | nil =>
    cases z with
    | nil => rfl
    | cons c z =>
      have hc := hz.head c rfl
      rw [List.nil_append, hasStructureFrom_between hc]
      exact (hasStructureFrom_between hc none z).symm
  | cons c s ih =>
    have hpair : "[]".toList.isPrefixOf (c :: (s ++ z)) = "[]".toList.isPrefixOf (c :: s) := by
      rw [Bool.eq_iff_iff, List.isPrefixOf_iff_prefix, List.isPrefixOf_iff_prefix,
        ← List.cons_append, prefix_append_iff (by decide) hz]
    have hstarts : startsCollection (c :: (s ++ z)) = startsCollection (c :: s) :=
      startsCollection_append (s := c :: s) hz
    rw [List.cons_append, hasStructureFrom, hasStructureFrom, hpair, hstarts, ih, ← Bool.or_assoc]

theorem hasStructure_blanks_append {b : List Char} (hb : Blanks b) (s : List Char) :
    hasStructure (b ++ s) = hasStructure s := by
  induction b with
  | nil => rfl
  | cons c b ih =>
    have hc := isBetween_of_isBlank (hb c List.mem_cons_self)
    rw [List.cons_append, hasStructure, hasStructureFrom_between hc,
      ih fun d hd => hb d (List.mem_cons_of_mem c hd)]

theorem hasStructure_trim (s : List Char) : hasStructure (trim s) = hasStructure s := by
  obtain ⟨b, b', hb, hb', hs⟩ := exists_trim s
  have hend : hasStructure b' = false := by
    have hall := hasStructure_blanks_append hb' []
    rwa [List.append_nil] at hall
  have hfront := hasStructureFrom_append (.blanks hb') (trim s) none
  rw [hend, Bool.or_false] at hfront
  conv_rhs => rw [hs, hasStructure_blanks_append hb]
  exact hfront.symm

theorem hasStructure_intercalate (ps : List (List Char)) :
    hasStructure (['|'].intercalate ps) = ps.any hasStructure := by
  induction ps with
  | nil => rfl
  | cons p ps ih =>
    cases ps with
    | nil => rw [List.intercalate_singleton, List.any_cons, List.any_nil, Bool.or_false]
    | cons q qs =>
      rw [List.intercalate_cons_cons, List.append_assoc, List.singleton_append, hasStructure,
        hasStructureFrom_append (.bar _), hasStructure, hasStructureFrom_between (by decide), ih,
        List.any_cons]
      rfl

/-- **Structure stands in a text if and only if it stands in one of its parts.** -/
theorem hasStructure_eq_parts (text : List Char) :
    hasStructure text = (parts text).any hasStructure := by
  have hjoined := hasStructure_intercalate (splitUnionFrom {} text)
  rw [intercalate_splitUnionFrom] at hjoined
  rw [hjoined, parts, List.any_map]
  exact congrArg (List.any _) (funext fun p => (hasStructure_trim p).symm)

end ElementManifest.Inference

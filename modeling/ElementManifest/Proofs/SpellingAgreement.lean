import ElementManifest.Proofs.MemberRules
import ElementManifest.Proofs.Readings

/-!
# The inference does not depend on the spelling

What is found in the spelling of a type is told by the type. So the rules of the inference come to
the same result for all of its spellings:

> `Spells.summaryOf_eq`, `Spells.serializationOf_eq`: two spellings of one type have the same kind
> and the same way of writing.
-/

namespace ElementManifest.Inference

open ElementManifest.Text ElementManifest.TypeScript ElementManifest.Decimal

/-! ## Members -/

/-- Whether the rules tell the same of two members. -/
structure Alike (f g : List Char) : Prop where
  tuple_eq : isTuple f = isTuple g
  boolean_eq : isBoolean f = isBoolean g
  number_eq : isNumber f = isNumber g
  array_eq : isArraySyntax f = isArraySyntax g

/-- The types that the members of a union come from. -/
def branchesOf : TypeNode → List TypeNode
  | .union _ ts => ts
  | t => [t]

/-- Whether a type stands for an absent value. -/
def isNullishType (s : Source) (t : TypeNode) : Bool :=
  (leafText s t).any isNullish

section

variable {s : Source} {t : TypeNode} {f g : List Char}

theorem plain_word_of_mark {w : List Char} (hw : ∀ c ∈ w, isMark c = false)
    (hf : ∃ c ∈ f, isMark c = true) : decide (f = w) = false := by
  obtain ⟨c, hc, hmark⟩ := hf
  refine decide_eq_false fun heq => ?_
  rw [hw c (heq ▸ hc)] at hmark
  cases hmark

theorem isNullish_of_mark (hf : ∃ c ∈ f, isMark c = true) : isNullish f = false := by
  unfold isNullish
  rw [plain_word_of_mark (by decide) hf, plain_word_of_mark (by decide) hf]
  rfl

theorem isBoolean_of_mark (hf : ∃ c ∈ f, isMark c = true) : isBoolean f = false := by
  unfold isBoolean
  rw [plain_word_of_mark (by decide) hf, plain_word_of_mark (by decide) hf,
    plain_word_of_mark (by decide) hf]
  rfl

theorem isNumber_of_mark (hf : ∃ c ∈ f, isMark c = true) : isNumber f = false := by
  have htext : isNumberText f = false := by
    rw [Bool.eq_false_iff]
    intro hnumber
    obtain ⟨c, hc, hmark⟩ := hf
    rw [isMark_of_isNumberChar (isNumberChar_of_isNumberText hnumber c hc)] at hmark
    cases hmark
  unfold isNumber
  rw [plain_word_of_mark (by decide) hf, htext]
  rfl

theorem ReadsAlone.isNullish_eq (h : ReadsAlone s t f) : isNullish f = isNullishType s t := by
  unfold isNullishType
  cases hleaf : leafText s t with
  | none => exact isNullish_of_mark (h.marked hleaf)
  | some l => rw [h.leaf l hleaf, Option.any_some]

theorem ReadsAlone.alike (hf : ReadsAlone s t f) (hg : ReadsAlone s t g) : Alike f g := by
  cases hleaf : leafText s t with
  | some l =>
    rw [hf.leaf l hleaf, hg.leaf l hleaf]
    exact ⟨rfl, rfl, rfl, rfl⟩
  | none =>
    have hmark := hf.marked hleaf
    have hmark' := hg.marked hleaf
    refine ⟨?_, ?_, ?_, ?_⟩
    · unfold isTuple
      rw [decide_eq_decide.mpr (hf.opens_iff.trans hg.opens_iff.symm),
        decide_eq_decide.mpr ((hf.closes_iff hleaf).trans (hg.closes_iff hleaf).symm)]
    · rw [isBoolean_of_mark hmark, isBoolean_of_mark hmark']
    · rw [isNumber_of_mark hmark, isNumber_of_mark hmark']
    · rw [hf.array_eq hleaf, hg.array_eq hleaf]

/-- The members of a union come from its branches but for those that stand for an absent value. -/
theorem forall₂_members {ts : List TypeNode} {parts : List (List Char)}
    (h : List.Forall₂ (fun t part => ReadsAlone s t (trim part)) ts parts) :
    List.Forall₂ (ReadsAlone s) (ts.filter fun t => !isNullishType s t)
      ((parts.map trim).filter fun m => !m.isEmpty && !isNullish m) := by
  induction h with
  | nil => exact .nil
  | @cons t part ts parts hpart _ ih =>
    have hfull : (trim part).isEmpty = false := List.isEmpty_eq_false_iff.mpr hpart.tight.ne_nil
    rw [List.map_cons, List.filter_cons, List.filter_cons, hfull, hpart.isNullish_eq,
      Bool.not_false, Bool.true_and]
    split
    next => exact .cons hpart ih
    next => exact ih

theorem branchesOf_of_not_union (h : isUnion t = false) : branchesOf t = [t] := by
  cases t with
  | union => cases h
  | _ => rfl

theorem Spells.members {x : List Char} (h : Spells s t x) :
    List.Forall₂ (ReadsAlone s) ((branchesOf t).filter fun t => !isNullishType s t)
      (members (fold x)) := by
  cases hunion : isUnion t with
  | false =>
    rw [branchesOf_of_not_union hunion]
    have hsingle := ReadsBranches.single h.reads hunion
    exact forall₂_members (hsingle.parts {} [] outsideAt_start blanks_nil)
  | true =>
    cases h with
    | union h => exact forall₂_members (h.reads.parts {} [] outsideAt_start blanks_nil)
    | @barred _ t u ts b x hb h =>
      -- nothing stands in front of the bar, and a member that is empty is left out
      have hmembers : Inference.members ('|' :: (b ++ fold x)) =
          ((splitUnionFrom (({} : Nesting).step '|') (b ++ fold x)).map trim).filter
            fun m => !m.isEmpty && !isNullish m := by
        unfold Inference.members splitUnion
        rw [splitUnionFrom, if_pos (by decide), List.map_cons, List.filter_cons]
        exact if_neg (by decide)
      rw [fold_bar hb, hmembers]
      exact forall₂_members (h.reads.parts _ b ⟨rfl, rfl, rfl⟩ hb)
    | _ => cases hunion

end

/-! ## Rules -/

theorem summaryOf_congr {f g : List Char} (hhas : ∀ p ∈ patterns, p <:+: f ↔ p <:+: g)
    (hpair : "[]".toList <:+ f ↔ "[]".toList <:+ g)
    (hmembers : List.Forall₂ Alike (members f) (members g)) : summaryOf f = summaryOf g := by
  have hpatterns : ∀ w ∈ settlingWords ++ objectWords, w ∈ patterns := by decide
  have hwords : summaryByWords f = summaryByWords g :=
    (summaryByWords_eq_iff fun w hw => hhas w (hpatterns w hw)).mpr (Or.inr hpair)
  unfold summaryOf
  generalize members f = fs at hmembers ⊢
  generalize members g = gs at hmembers ⊢
  cases hmembers with
  | nil => exact hwords
  | cons halike hrest =>
    cases hrest with
    | nil =>
      dsimp only
      rw [halike.array_eq, hwords]
    | cons => exact hwords

theorem startsCollection_of_calm {f : List Char} (hcalm : '<' ∉ f) :
    startsCollection f = false := by
  unfold startsCollection
  rw [List.any_eq_false]
  intro word _
  rw [Bool.and_eq_true, decide_eq_true_eq]
  rintro ⟨-, hhead⟩
  exact hcalm (List.mem_of_mem_drop ((List.dropWhile_sublist _).subset (List.mem_of_head? hhead)))

/-- Without angle brackets only the syntax of arrays and objects counts as structure. -/
theorem hasStructureFrom_iff {f : List Char} (hcalm : '<' ∉ f) (prev : Option Char) :
    hasStructureFrom prev f = true ↔ "[]".toList <:+: f ∨ '\x7b' ∈ f := by
  induction f generalizing prev with
  | nil => simp [hasStructureFrom]
  | cons c f ih =>
    have hbehind : '<' ∉ f := fun hmem => hcalm (List.mem_cons_of_mem c hmem)
    rw [hasStructureFrom, startsCollection_of_calm hcalm, Bool.and_false, Bool.or_false,
      Bool.or_eq_true, Bool.or_eq_true, decide_eq_true_eq, List.isPrefixOf_iff_prefix, ih hbehind,
      List.infix_cons_iff, List.mem_cons, eq_comm]
    tauto

theorem any_congr_of_forall₂ {P : List Char → Bool} {fs gs : List (List Char)}
    (h : List.Forall₂ (fun f g => P f = P g) fs gs) :
    fs.any P = gs.any P ∧ fs.all P = gs.all P := by
  induction h with
  | nil => exact ⟨rfl, rfl⟩
  | cons hfg _ ih =>
    rw [List.any_cons, List.any_cons, List.all_cons, List.all_cons, hfg, ih.1, ih.2]
    exact ⟨rfl, rfl⟩

theorem serializationOf_congr_of_alike {f g : List Char}
    (hhas : ∀ p ∈ patterns, p <:+: f ↔ p <:+: g)
    (hcalm : '<' ∉ f) (hcalm' : '<' ∉ g) (hmembers : List.Forall₂ Alike (members f) (members g)) :
    serializationOf f = serializationOf g := by
  have hstructure : hasStructure f = hasStructure g := by
    unfold hasStructure
    rw [Bool.eq_iff_iff, hasStructureFrom_iff hcalm, hasStructureFrom_iff hcalm',
      hhas _ (by decide), ← List.singleton_infix_iff, ← List.singleton_infix_iff,
      hhas _ (by decide)]
  have hempty : (members f).isEmpty = (members g).isEmpty := by
    generalize members f = fs at hmembers ⊢
    generalize members g = gs at hmembers ⊢
    cases hmembers with
    | nil => rfl
    | cons => rfl
  have htuple := (any_congr_of_forall₂ (hmembers.imp fun _ _ h => h.tuple_eq)).1
  have hboolean := (any_congr_of_forall₂ (hmembers.imp fun _ _ h => h.boolean_eq)).2
  have hnumber := (any_congr_of_forall₂ (hmembers.imp fun _ _ h => h.number_eq)).2
  have hpatterns : ∀ w ∈ writingWords, w ∈ patterns := by decide
  exact serializationOf_congr hstructure (fun w hw => hhas w (hpatterns w hw)) hempty htuple
    hboolean hnumber

/-! ## Two spellings of one type -/

section

variable {s : Source} {t : TypeNode} {x y : List Char}

theorem forall₂_alike_of_reads {ts : List TypeNode} {fs gs : List (List Char)}
    (hf : List.Forall₂ (ReadsAlone s) ts fs) (hg : List.Forall₂ (ReadsAlone s) ts gs) :
    List.Forall₂ Alike fs gs := by
  induction hf generalizing gs with
  | nil =>
    cases hg
    exact .nil
  | cons hf _ ih =>
    cases hg with
    | cons hg hgs => exact .cons (hf.alike hg) (ih hgs)

theorem Spells.forall₂_alike (hx : Spells s t x) (hy : Spells s t y) :
    List.Forall₂ Alike (Inference.members (fold x)) (Inference.members (fold y)) :=
  forall₂_alike_of_reads hx.members hy.members

/-- **Two spellings of one type have the same kind.** -/
theorem Spells.summaryOf_eq (hx : Spells s t x) (hy : Spells s t y) :
    summaryOf (fold x) = summaryOf (fold y) := by
  have hreads := hx.reads
  have hreads' := hy.reads
  refine summaryOf_congr (fun p hp => ?_) ?_ (hx.forall₂_alike hy)
  · rw [hreads.inner.has_iff p hp, hreads'.inner.has_iff p hp]
  · rw [hreads.pair_iff, hreads'.pair_iff]

/-- **Two spellings of one type have the same way of writing.** -/
theorem Spells.serializationOf_eq (hx : Spells s t x) (hy : Spells s t y) :
    serializationOf (fold x) = serializationOf (fold y) := by
  have hreads := hx.reads
  have hreads' := hy.reads
  refine serializationOf_congr_of_alike (fun p hp => ?_) hreads.inner.calm hreads'.inner.calm
    (hx.forall₂_alike hy)
  rw [hreads.inner.has_iff p hp, hreads'.inner.has_iff p hp]

end

end ElementManifest.Inference

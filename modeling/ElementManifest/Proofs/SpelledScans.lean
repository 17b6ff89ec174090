import ElementManifest.Proofs.SpelledReadings
import Mathlib.Logic.Function.Iterate

/-!
# Parentheses around what is spelled

Whether a part of a type gets parentheses is decided by a scan through its text. The scan finds
what the rank tells:

> `Spelled.level`: what is no looser than an operator shows the scan nothing that parts it.

> `Spelled.hasTopToken_joined`: what is joined shows its joint.

So a part that is looser than its place allows always gets parentheses, and with them it spells
the same (`Spells.guarded`).
-/

namespace ElementManifest.TypeScript

open ElementManifest.Text ElementManifest.Inference

/-! ## What a scan finds -/

theorem not_isMark_of_identPart {c : Char} (h : isIdentPart c = true) :
    Inference.isMark c = false := by
  have hall : ∀ d ∈ Inference.marks, isIdentPart d = false := by decide
  refine Bool.eq_false_iff.mpr fun hmark => ?_
  rw [hall c (List.contains_iff_mem.mp hmark)] at h
  cases h

theorem not_isMark_of_isWordText {w : List Char} (h : isWordText w = true) :
    ∀ c ∈ w, Inference.isMark c = false := by
  cases w with
  | nil => nofun
  | cons d w =>
    rw [isWordText, Bool.and_eq_true, List.all_eq_true] at h
    intro c hc
    rcases List.mem_cons.mp hc with rfl | hc
    · exact not_isMark_of_identPart (isIdentPart_of_start h.1)
    · exact not_isMark_of_identPart (h.2 c hc)

theorem not_isMark_of_dotted {ws : List (List Char)} (hws : ∀ w ∈ ws, isWordText w = true) :
    ∀ c ∈ Read.dotted ws, Inference.isMark c = false := by
  intro c hc
  obtain ⟨w, hw, hc⟩ := List.mem_flatMap.mp hc
  rcases List.mem_cons.mp hc with rfl | hc
  · rfl
  · exact not_isMark_of_isWordText (hws w hw) c hc

/-- A scan that enters outside of all brackets and quotes leaves there too. -/
def Balanced (x : List Char) : Prop :=
  ∀ n, OutsideAt 0 n → OutsideAt 0 (x.foldl Nesting.step n)

theorem Balanced.of_level {x : List Char} (h : Level 0 x) : Balanced x :=
  fun n hn => (h 0 n (Int.le_refl 0) hn).1

theorem Balanced.append {x y : List Char} (hx : Balanced x) (hy : Balanced y) :
    Balanced (x ++ y) := by
  intro n hn
  rw [List.foldl_append]
  exact hy _ (hx n hn)

theorem outsideAt_joint {d : Int} {n : Nesting} (h : OutsideAt d n) (j : Joint) :
    OutsideAt d (n.step j.char) := by
  cases j with
  | bar | ampersand => exact h.step_of_plain rfl rfl rfl

theorem balanced_joint (j : Joint) : Balanced (' ' :: j.char :: [' ']) := by
  intro n hn
  have hspace : Level 0 [' '] := Level.char rfl 0
  exact (hspace 0 _ (Int.le_refl 0) (outsideAt_joint (hspace 0 n (Int.le_refl 0) hn).1 j)).1

/-- Inside brackets a joint parts nothing. -/
theorem level_joint (j : Joint) : Level 1 (' ' :: j.char :: [' ']) := by
  have hspace : Level 1 [' '] := Level.char rfl 1
  have hjoint : Level 1 [j.char] := by
    intro d n hd hn
    have htop : n.isTop = false := by
      rw [hn.isTop_eq, decide_eq_false_iff_not]
      omega
    exact ⟨outsideAt_joint hn j, by simp [hasTopTokenFrom, Nesting.topToken?, htop]⟩
  exact hspace.append (hjoint.append hspace)

namespace Spelled

variable {x : List Char} {a : TypeForm}

/-- Inside brackets nothing parts a type. -/
theorem level_one (h : Spelled x a) : Level 1 x := by
  have hspace : Level 1 [' '] := Level.char rfl 1
  induction h with
  | name hw hws =>
    simp only [Read.isPlainWord, Bool.and_eq_true] at hw
    exact (Level.of_plain (not_isMark_of_isWordText hw.1.1) 1).append
      (Level.of_plain (not_isMark_of_dotted hws) 1)
  | array h _ ih => exact ih.append ((Level.bracket (Level.nil 1) rfl (by decide)).mono (by decide))
  | @joined x y a b j _ _ _ _ ih ih' => exact ih.append ((level_joint j).append ih')
  | @operator x a op _ _ ih =>
    have hop : Level 1 op.text.toList := by cases op <;> exact Level.of_plain (by decide) 1
    exact hop.append (hspace.append ih)
  | paren h ih => exact (Level.bracket ih rfl (by decide)).mono (by decide)
  | written h => exact h.level

/-- Nothing parts a type that is no looser than an operator. -/
theorem level (h : Spelled x a) (hrank : a.rank ≤ 1) : Level 0 x := by
  have hspace : Level 0 [' '] := Level.char rfl 0
  induction h with
  | name hw hws =>
    simp only [Read.isPlainWord, Bool.and_eq_true] at hw
    exact (Level.of_plain (not_isMark_of_isWordText hw.1.1) 0).append
      (Level.of_plain (not_isMark_of_dotted hws) 0)
  | array h hr ih =>
    exact (ih (by rw [hr]; decide)).append (Level.bracket (Level.nil 1) rfl (by decide))
  | joined j => exact absurd (Nat.le_trans j.two_le_rank hrank) (by decide)
  | @operator x a op _ hr ih =>
    have hop : Level 0 op.text.toList := by cases op <;> exact Level.of_plain (by decide) 0
    exact hop.append (hspace.append (ih hr))
  | paren h => exact Level.bracket h.level_one rfl (by decide)
  | written => exact absurd hrank (by show ¬4 ≤ 1; decide)

theorem balanced (h : Spelled x a) (hrank : a.rank ≤ 3) : Balanced x := by
  induction h with
  | name hw hws => exact .of_level ((Spelled.name hw hws).level (Nat.zero_le 1))
  | array h hr => exact .of_level ((Spelled.array h hr).level (Nat.zero_le 1))
  | operator op h hr => exact .of_level ((Spelled.operator op h hr).level (Nat.le_refl 1))
  | paren h => exact .of_level ((Spelled.paren h).level (Nat.zero_le 1))
  | joined j _ _ hr hr' ih ih' =>
    exact (ih (Nat.le_trans hr j.rank_le)).append
      ((balanced_joint j).append (ih' (Nat.le_trans hr' j.rank_le)))
  | written => exact absurd hrank (by show ¬4 ≤ 3; decide)

end Spelled

/-- The token by which a scan knows a joint. -/
def Joint.topToken : Joint → TopToken
  | bar => .bar
  | ampersand => .ampersand

/-- A scan finds the joint between two parts. -/
theorem hasTopToken_joint {tokens : List TopToken} {x : List Char} (hx : Balanced x) (j : Joint)
    (h : tokens.contains j.topToken = true) (y : List Char) :
    hasTopToken tokens (x ++ ' ' :: j.char :: ' ' :: y) = true := by
  have hspace : Level 0 [' '] := Level.char rfl 0
  have hn := (hspace 0 _ (Int.le_refl 0) (hx {} outsideAt_start)).1
  have htop : ((x.foldl Nesting.step {}).step ' ').isTop = true := by
    rw [show (x.foldl Nesting.step {}).step ' ' = [' '].foldl Nesting.step _ from rfl, hn.isTop_eq]
    rfl
  have htoken : ((x.foldl Nesting.step {}).step ' ').topToken? j.char = some j.topToken := by
    unfold Nesting.topToken?
    rw [htop]
    cases j with
    | bar | ampersand => rfl
  unfold hasTopToken
  rw [hasTopTokenFrom_append, hasTopTokenFrom, hasTopTokenFrom, htoken]
  simp only [Option.any_some, h, Bool.true_or, Bool.or_true]

/-! ## Parts that get parentheses -/

/-- With any number of brackets behind them, the two types have one normal form. -/
def Alike (a b : TypeForm) : Prop :=
  ∀ k, (TypeForm.bracketed^[k] a).normal = (TypeForm.bracketed^[k] b).normal

theorem Alike.normal_eq {a b : TypeForm} (h : Alike a b) : a.normal = b.normal :=
  h 0

theorem Alike.bracketed {a b : TypeForm} (h : Alike a b) : Alike a.bracketed b.bracketed :=
  fun k => h (k + 1)

theorem iterate_bracketed_operator (op : TypeOperator) (a : TypeForm) (k : Nat) :
    TypeForm.bracketed^[k] (.operator op a) = .operator op (TypeForm.bracketed^[k] a) := by
  induction k generalizing a with
  | zero => rfl
  | succ k ih => exact ih a.bracketed

theorem Alike.operator {a b : TypeForm} (h : Alike a b) (op : TypeOperator) :
    Alike (.operator op a) (.operator op b) := by
  intro k
  rw [iterate_bracketed_operator, iterate_bracketed_operator, TypeForm.normal, TypeForm.normal, h k]

theorem iterate_bracketed_of_not {a : TypeForm} (h : a.isOperator = false) (k : Nat) :
    TypeForm.bracketed^[k] a = a.arrays k := by
  induction k generalizing a with
  | zero => rfl
  | succ k ih =>
    have harray : (TypeForm.array a).isOperator = false := rfl
    rw [Function.iterate_succ_apply, TypeForm.bracketed_of_not h, ih harray, TypeForm.arrays_array,
      TypeForm.arrays]

theorem normal_arrays (a : TypeForm) (k : Nat) : (a.arrays k).normal = a.normal.arrays k := by
  induction k with
  | zero => rfl
  | succ k ih => rw [TypeForm.arrays, TypeForm.normal, ih, TypeForm.arrays]

/-- Types that are no operators are alike if they have one normal form. -/
theorem alike_of_normal {a b : TypeForm} (ha : a.isOperator = false) (hb : b.isOperator = false)
    (h : a.normal = b.normal) : Alike a b := by
  intro k
  rw [iterate_bracketed_of_not ha, iterate_bracketed_of_not hb, normal_arrays, normal_arrays, h]

/-- The text is that of a type like `a`. -/
def Spells (x : List Char) (a : TypeForm) : Prop :=
  ∃ b, Spelled x b ∧ Alike b a

/-- The same for a text that is no looser than `rank`. -/
def SpellsWithin (rank : Nat) (x : List Char) (a : TypeForm) : Prop :=
  ∃ b, Spelled x b ∧ b.rank ≤ rank ∧ Alike b a

namespace TypeForm

theorem isOperator_of_rank {a : TypeForm} (h : 1 < a.rank) : a.isOperator = false := by
  cases a with
  | operator => exact absurd h (Nat.lt_irrefl 1)
  | name | array | joined | paren | written => rfl

theorem rank_bracketed (a : TypeForm) : a.bracketed.rank ≤ 1 := by
  cases a with
  | operator => exact Nat.le_refl 1
  | name | array | joined | paren | written => exact Nat.zero_le 1

end TypeForm

/-- Brackets go on with an operand, inside its operators. -/
theorem Spelled.brackets {x : List Char} {a : TypeForm} (h : Spelled x a) (hrank : a.rank ≤ 1) :
    Spelled (x ++ ['[', ']']) a.bracketed := by
  induction h with
  | name hw hws => exact .array (.name hw hws) rfl
  | array h hr => exact .array (.array h hr) rfl
  | paren h => exact .array (.paren h) rfl
  | operator op h hr ih =>
    rw [List.append_assoc, List.cons_append]
    exact .operator op (ih hr) (TypeForm.rank_bracketed _)
  | joined j => exact absurd (Nat.le_trans j.two_le_rank hrank) (by decide)
  | written => exact absurd hrank (by show ¬4 ≤ 1; decide)

/-- A part keeps its meaning in the parentheses that it gets, and it gets them whenever it is
too loose for its place. -/
theorem Spells.guarded {text : String} {a : TypeForm} (h : Spells text.toList a)
    {tokens : List TopToken} {rank : Nat}
    (hloose : ∀ b, Spelled text.toList b → rank < b.rank → hasTopToken tokens text.toList = true) :
    SpellsWithin rank (wrapIf tokens text).toList a := by
  obtain ⟨b, hb, halike⟩ := h
  rw [wrapIf, needsParentheses_eq]
  split
  next htop =>
    have hop : b.isOperator = false := by
      refine TypeForm.isOperator_of_rank (Nat.lt_of_not_le fun hle => ?_)
      have hlevel := (hb.level hle 0 {} (Int.le_refl 0) outsideAt_start).2
      rw [hasTopToken, hasTopTokenFrom_of_topTokens hlevel] at htop
      cases htop
    have hparen : Alike (.paren b) b := alike_of_normal rfl hop rfl
    refine ⟨.paren b, ?_, Nat.zero_le rank, fun k => (hparen k).trans (halike k)⟩
    simp only [String.toList_append]
    exact hb.paren
  next htop =>
    refine ⟨b, hb, Nat.le_of_not_lt fun hlt => htop (hloose b hb hlt), halike⟩

theorem hasTopToken_mono {tokens tokens' : List TopToken} {x : List Char}
    (hsub : ∀ t, tokens.contains t = true → tokens'.contains t = true)
    (h : hasTopToken tokens x = true) : hasTopToken tokens' x = true := by
  unfold hasTopToken at h ⊢
  generalize ({} : Nesting) = n at h ⊢
  induction x generalizing n with
  | nil => cases h
  | cons c x ih =>
    rw [hasTopTokenFrom, Bool.or_eq_true] at h ⊢
    refine h.imp (fun hc => ?_) (ih _)
    cases htoken : n.topToken? c with
    | none =>
      rw [htoken] at hc
      cases hc
    | some t =>
      rw [htoken] at hc
      exact hsub t hc

/-- What is looser than an operator gets parentheses as an operand. -/
theorem hasTopToken_operand {x : List Char} {b : TypeForm} (h : Spelled x b) (hrank : 1 < b.rank) :
    hasTopToken [.bar, .ampersand, .arrow] x = true := by
  cases h with
  | name | array | paren => exact absurd hrank (Nat.not_lt_zero 1)
  | operator => exact absurd hrank (Nat.lt_irrefl 1)
  | joined j ha _ hr =>
    refine hasTopToken_joint (ha.balanced (Nat.le_trans hr j.rank_le)) j ?_ _
    cases j with
    | bar | ampersand => decide
  | written h =>
    refine hasTopToken_mono (fun t ht => ?_) h.arrow
    cases t with
    | bar | ampersand => cases ht
    | arrow => rfl

/-- A function gets parentheses as a branch of a union. -/
theorem hasTopToken_branch {x : List Char} {b : TypeForm} (h : Spelled x b) (hrank : 3 < b.rank) :
    hasTopToken [.arrow] x = true := by
  cases h with
  | name | array | paren => exact absurd hrank (Nat.not_lt_zero 3)
  | operator => exact absurd hrank (by show ¬3 < 1; decide)
  | joined j => exact absurd j.rank_le (Nat.not_le_of_lt hrank)
  | written h => exact h.arrow

end ElementManifest.TypeScript

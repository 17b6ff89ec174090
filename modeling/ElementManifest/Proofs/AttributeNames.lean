import ElementManifest.Naming
import ElementManifest.Proofs.Folding
import Mathlib.Logic.Relation

/-!
# Attribute names are in normal form

The name of an attribute is made in three passes: a hyphen goes before each capital behind a
small letter or digit, each run of separators becomes a hyphen, and the rest goes to lower case.
No pass makes work for an earlier one. The first two look at plain capitals and at separators
only, and in lower case there are neither:

> `lower_lower`: what is in lower case stays as it is, since the table leads to no character that
> it moves on (`lowerNumbers_not_moved`).

> `attributeName_normal`: so the name of an attribute is its own attribute name, and a run of
> separators counts as the hyphen that it becomes.
-/

namespace ElementManifest.Naming

open ElementManifest.Text ElementManifest.Inference

/-! ## Lower case is final -/

/-- How far the characters of a run are behind its first one. -/
def runSteps : Nat × Nat × Nat × Nat → List Nat
  | (first, last, step, _) => (List.range ((last - first) / step + 1)).map (step * ·)

/-- The numbers of the characters that are moved: those in the table, and the dotted capital I. -/
def movedNumbers : List Nat :=
  0x130 :: lowerRuns.runs.toList.flatMap fun run => (runSteps run).map (run.1 + ·)

/-- The numbers that the table leads to. -/
def lowerNumbers : List Nat :=
  lowerRuns.runs.toList.flatMap fun run => (runSteps run).map (run.2.2.2 + ·)

theorem mem_numbers_of_find? {n k : Nat} (h : lowerRuns.find? n = some k) :
    n ∈ movedNumbers ∧ k ∈ lowerNumbers := by
  obtain ⟨⟨first, last, step, target⟩, hmem, hrun⟩ := Array.exists_of_findSome?_eq_some h
  dsimp only at hrun
  split at hrun
  next hin =>
    obtain ⟨hfirst, hlast, hstep⟩ := hin
    have hsteps : n - first ∈ runSteps (first, last, step, target) := by
      have hle : (n - first) / step ≤ (last - first) / step := Nat.div_le_div_right (by omega)
      refine List.mem_map.mpr ⟨(n - first) / step, List.mem_range.mpr (by omega), ?_⟩
      exact Nat.mul_div_cancel' (Nat.dvd_of_mod_eq_zero hstep)
    have hrun' := Array.mem_toList_iff.mpr hmem
    constructor
    · refine List.mem_cons_of_mem _ (List.mem_flatMap.mpr ⟨_, hrun', ?_⟩)
      exact List.mem_map.mpr ⟨n - first, hsteps, Nat.add_sub_cancel' hfirst⟩
    · refine List.mem_flatMap.mpr ⟨_, hrun', ?_⟩
      exact List.mem_map.mpr ⟨n - first, hsteps, Option.some.inj hrun⟩
  next => cases hrun

/-- A set of numbers as the bits of one number. -/
def bitsOf (ns : List Nat) : Nat :=
  ns.foldr (fun n bits => 1 <<< n ||| bits) 0

theorem testBit_bitsOf {ns : List Nat} {n : Nat} (h : n ∈ ns) : (bitsOf ns).testBit n = true := by
  induction ns with
  | nil => cases h
  | cons m ns ih =>
    have hbits : bitsOf (m :: ns) = 1 <<< m ||| bitsOf ns := rfl
    rw [hbits, Nat.testBit_or, Bool.or_eq_true, Nat.one_shiftLeft]
    rcases List.mem_cons.mp h with rfl | h
    · exact Or.inl Nat.testBit_two_pow_self
    · exact Or.inr (ih h)

/-- No character is moved that another one is moved to. -/
theorem lowerNumbers_not_moved {k : Nat} (h : k ∈ lowerNumbers) : k ∉ movedNumbers := by
  intro hmoved
  -- the table is long, so its numbers are compared all at once
  have hapart : bitsOf lowerNumbers &&& bitsOf movedNumbers = 0 := by decide +kernel
  have hbit : (bitsOf lowerNumbers &&& bitsOf movedNumbers).testBit k = true := by
    rw [Nat.testBit_and, testBit_bitsOf h, testBit_bitsOf hmoved, Bool.and_self]
  rw [hapart, Nat.zero_testBit] at hbit
  cases hbit

/-- What the table leads to is not in the table. -/
theorem find?_of_find? {n k : Nat} (h : lowerRuns.find? n = some k) :
    lowerRuns.find? k = none ∧ k ≠ 0x130 := by
  have hmoved := lowerNumbers_not_moved (mem_numbers_of_find? h).2
  constructor
  · cases hfind : lowerRuns.find? k with
    | none => rfl
    | some j => exact absurd (mem_numbers_of_find? hfind).1 hmoved
  · rintro rfl
    exact hmoved List.mem_cons_self

/-- A number is that of a character, or stands for the null character. -/
theorem toNat_ofNat_cases (n : Nat) : (Char.ofNat n).toNat = n ∨ Char.ofNat n = '\x00' := by
  unfold Char.ofNat
  by_cases hvalid : n.isValidChar
  · rw [dif_pos hvalid]
    exact Or.inl rfl
  · rw [dif_neg hvalid]
    exact Or.inr rfl

/-- What a character becomes in lower case is in lower case. -/
theorem lowerChar_of_mem_lowerChar {c d : Char} (h : d ∈ lowerChar c) : lowerChar d = [d] := by
  unfold lowerChar at h
  by_cases hascii : c.toNat < 0x80
  · rw [if_pos hascii, List.mem_singleton] at h
    rw [h]
    refine of_ascii hascii ?_
    decide
  · rw [if_neg hascii] at h
    by_cases hdotted : c = '\u0130'
    · rw [if_pos hdotted] at h
      have hboth : ∀ e ∈ ['i', '\u0307'], lowerChar e = [e] := by decide +kernel
      exact hboth d h
    · rw [if_neg hdotted, List.mem_singleton] at h
      cases hfind : lowerRuns.find? c.toNat with
      | none =>
        rw [hfind] at h
        obtain rfl : d = c := h
        rw [lowerChar, if_neg hascii, if_neg hdotted, hfind]
        rfl
      | some k =>
        -- what a run leads to is in no run itself
        obtain ⟨hnone, hne⟩ := find?_of_find? hfind
        obtain ⟨hk, -⟩ := lowerRuns_find? (Nat.le_of_not_lt hascii) hfind
        rw [hfind] at h
        obtain rfl : d = Char.ofNat k := h
        rcases toNat_ofNat_cases k with hself | hnull
        · by_cases hlow : k < 0x80
          · have hsmall : ∀ n : Fin 0x80, 0x61 ≤ n.val ∧ n.val ≤ 0x7A →
                lowerChar (Char.ofNat n) = [Char.ofNat n] := by decide
            exact hsmall ⟨k, hlow⟩ (by dsimp only; omega)
          · have hkept : Char.ofNat k ≠ '\u0130' := by
              intro heq
              rw [heq] at hself
              exact hne hself.symm
            rw [lowerChar, if_neg (by omega), if_neg hkept, hself, hnone]
            rfl
        · rw [hnull]
          decide

/-- A capital sigma is the only letter that is read with its neighbours; it becomes one of the
small ones. -/
theorem mem_lowerAfter {before s : List Char} {d : Char} (h : d ∈ lowerAfter before s) :
    d = 'σ' ∨ d = 'ς' ∨ ∃ c ∈ s, d ∈ lowerChar c := by
  induction s generalizing before with
  | nil => cases h
  | cons c s ih =>
    rw [lowerAfter, List.mem_append] at h
    rcases h with hhere | hrest
    · by_cases hsigma : c = 'Σ'
      · rw [if_pos hsigma, List.mem_singleton] at hhere
        rw [hhere, lowerSigma]
        split
        · exact Or.inr (Or.inl rfl)
        · exact Or.inl rfl
      · rw [if_neg hsigma] at hhere
        exact Or.inr (Or.inr ⟨c, List.mem_cons_self, hhere⟩)
    · rcases ih hrest with hsigma | hfinal | ⟨e, he, hd⟩
      · exact Or.inl hsigma
      · exact Or.inr (Or.inl hfinal)
      · exact Or.inr (Or.inr ⟨e, List.mem_cons_of_mem c he, hd⟩)

theorem lowerChar_of_mem_lower {s : List Char} {d : Char} (h : d ∈ lower s) :
    lowerChar d = [d] := by
  rcases mem_lowerAfter h with rfl | rfl | ⟨c, -, hd⟩
  · decide +kernel
  · decide +kernel
  · exact lowerChar_of_mem_lowerChar hd

theorem lowerAfter_of_lowerChar {s : List Char} (h : ∀ d ∈ s, lowerChar d = [d])
    (before : List Char) : lowerAfter before s = s := by
  induction s generalizing before with
  | nil => rfl
  | cons c s ih =>
    have hc := h c List.mem_cons_self
    have hsigma : c ≠ 'Σ' := by
      rintro rfl
      have hmoved : lowerChar 'Σ' ≠ ['Σ'] := by decide +kernel
      exact hmoved hc
    rw [lowerAfter, if_neg hsigma, hc, ih fun d hd => h d (List.mem_cons_of_mem c hd)]
    rfl

theorem lower_lower (s : List Char) : lower (lower s) = lower s :=
  lowerAfter_of_lowerChar (fun _ => lowerChar_of_mem_lower) []

theorem lower_ne_nil {s : List Char} (h : s ≠ []) : lower s ≠ [] := by
  cases s with
  | nil => exact absurd rfl h
  | cons c s =>
    unfold lower lowerAfter
    intro hnil
    have hc := (List.append_eq_nil_iff.mp hnil).1
    by_cases hsigma : c = 'Σ'
    · rw [if_pos hsigma] at hc
      cases hc
    · rw [if_neg hsigma] at hc
      rcases tame_lowerChar c with hself | ⟨-, hne, -⟩
      · rw [hself] at hc
        cases hc
      · exact hne hc

/-! ## Neither capitals nor separators -/

theorem isUpper_of_lowerChar {c : Char} (h : lowerChar c = [c]) : c.isUpper = false := by
  by_cases hascii : c.toNat < 0x80
  · have hall : lowerChar c = [c] → c.isUpper = false := by
      refine of_ascii hascii ?_
      decide
    exact hall h
  · unfold Char.isUpper
    refine decide_eq_false ?_
    rintro ⟨-, hle⟩
    exact hascii (Nat.lt_of_le_of_lt (UInt32.le_iff_toNat_le.mp hle) (by decide))

theorem eq_underscore_of_mem_lowerChar {c : Char} (h : '_' ∈ lowerChar c) : c = '_' := by
  by_cases hascii : c.toNat < 0x80
  · have hall : '_' ∈ lowerChar c → c = '_' := by
      refine of_ascii hascii ?_
      decide
    exact hall h
  · unfold lowerChar at h
    rw [if_neg hascii] at h
    by_cases hdotted : c = '\u0130'
    · rw [if_pos hdotted] at h
      exact absurd h (by decide)
    · rw [if_neg hdotted, List.mem_singleton] at h
      cases hfind : lowerRuns.find? c.toNat with
      | none =>
        rw [hfind] at h
        exact h.symm
      | some k =>
        obtain ⟨hk, -⟩ := lowerRuns_find? (Nat.le_of_not_lt hascii) hfind
        rw [hfind] at h
        obtain h : '_' = Char.ofNat k := h
        rcases toNat_ofNat_cases k with hself | hnull
        · rw [← h] at hself
          have hcode : '_'.toNat = 0x5F := rfl
          omega
        · rw [hnull] at h
          exact absurd h (by decide)

/-- Lower case makes no separators. -/
theorem isSeparator_of_mem_lower {s : List Char} (h : ∀ c ∈ s, isSeparator c = false) :
    ∀ d ∈ lower s, isSeparator d = false := by
  intro d hd
  rcases mem_lowerAfter hd with rfl | rfl | ⟨c, hc, hd⟩
  · decide
  · decide
  · have hcfree := h c hc
    unfold isSeparator at hcfree ⊢
    rw [Bool.or_eq_false_iff, decide_eq_false_iff_not] at hcfree ⊢
    constructor
    · rcases tame_lowerChar c with hself | ⟨-, -, hall⟩
      · rw [hself, List.mem_singleton] at hd
        rw [hd]
        exact hcfree.1
      · exact (hall d hd).2
    · rintro rfl
      exact hcfree.2 (eq_underscore_of_mem_lowerChar hd)

theorem isSeparator_of_mem_joinRuns {inRun : Bool} {s : List Char} {d : Char}
    (h : d ∈ joinRuns inRun s) : isSeparator d = false := by
  induction s generalizing inRun with
  | nil => cases h
  | cons c s ih =>
    rw [joinRuns] at h
    by_cases hc : isSeparator c = true
    · rw [if_pos hc] at h
      cases inRun with
      | true => exact ih h
      | false =>
        rcases List.mem_cons.mp h with rfl | hrest
        · decide
        · exact ih hrest
    · rw [if_neg hc] at h
      rcases List.mem_cons.mp h with rfl | hrest
      · exact Bool.eq_false_iff.mpr hc
      · exact ih hrest

/-! ## The first two passes -/

/-- Without capitals there is nothing to split. -/
theorem splitHumps_of_isUpper {s : List Char} (h : ∀ c ∈ s, c.isUpper = false) :
    splitHumps s = s := by
  induction s with
  | nil => rfl
  | cons c s ih =>
    have hrest := ih fun d hd => h d (List.mem_cons_of_mem c hd)
    cases s with
    | nil => rfl
    | cons d s =>
      have hhump : isHump c d = false := by
        rw [isHump, h d (List.mem_cons_of_mem c List.mem_cons_self), Bool.and_false]
      rw [splitHumps, hhump, if_neg Bool.false_ne_true, hrest]

/-- Without separators there is nothing to join. -/
theorem joinRuns_of_isSeparator {s : List Char} (h : ∀ c ∈ s, isSeparator c = false)
    (inRun : Bool) : joinRuns inRun s = s := by
  induction s generalizing inRun with
  | nil => rfl
  | cons c s ih =>
    rw [joinRuns, h c List.mem_cons_self, if_neg Bool.false_ne_true,
      ih fun d hd => h d (List.mem_cons_of_mem c hd)]

/-- A name that its attribute name is the same as. -/
theorem attributeName_of_settled {s : String} (hlower : ∀ c ∈ s.toList, lowerChar c = [c])
    (hjoined : ∀ c ∈ s.toList, isSeparator c = false) : attributeName s = s := by
  rw [attributeName, splitHumps_of_isUpper fun c hc => isUpper_of_lowerChar (hlower c hc),
    joinRuns_of_isSeparator hjoined, lower, lowerAfter_of_lowerChar hlower, String.ofList_toList]

/-! ## Runs of separators -/

/-- One of the longest runs of separators in `s` is a hyphen in `t`; the rest is the same. -/
def HyphenForRun (s t : List Char) : Prop :=
  ∃ before run behind, s = before ++ run ++ behind ∧ t = before ++ '-' :: behind ∧
    run ≠ [] ∧ (∀ c ∈ run, isSeparator c = true) ∧
    (∀ c ∈ before.getLast?, isSeparator c = false) ∧ ∀ c ∈ behind.head?, isSeparator c = false

/-- A character that is part of no hump. -/
def IsFlat (c : Char) : Prop :=
  c.isUpper = false ∧ (c.isLower || c.isDigit) = false

theorem isFlat_of_isSeparator {c : Char} (h : isSeparator c = true) : IsFlat c := by
  by_cases hascii : c.toNat < 0x80
  · have hall : isSeparator c = true → c.isUpper = false ∧ (c.isLower || c.isDigit) = false := by
      refine of_ascii hascii ?_
      decide
    exact hall h
  · unfold IsFlat Char.isUpper Char.isLower Char.isDigit
    have hbig : ∀ n : UInt32, n.toNat < 0x80 → ¬c.val ≤ n :=
      fun n hn hle => hascii (Nat.lt_of_le_of_lt (UInt32.le_iff_toNat_le.mp hle) hn)
    simp [hbig]

theorem splitHumps_append {c : Char} (hc : IsFlat c) (s t : List Char) :
    splitHumps (s ++ c :: t) = splitHumps s ++ splitHumps (c :: t) := by
  induction s with
  | nil => rfl
  | cons d s ih =>
    cases s with
    | nil =>
      have hhump : isHump d c = false := by rw [isHump, hc.1, Bool.and_false]
      rw [List.cons_append, List.nil_append, splitHumps, hhump, if_neg Bool.false_ne_true]
      rfl
    | cons e s =>
      rw [List.cons_append, List.cons_append, splitHumps, splitHumps, ← List.cons_append, ih]
      split
      · rfl
      · rfl

theorem splitHumps_cons {c : Char} (hc : IsFlat c) (s : List Char) :
    splitHumps (c :: s) = c :: splitHumps s := by
  cases s with
  | nil => rfl
  | cons d s =>
    have hhump : isHump c d = false := by rw [isHump, hc.2, Bool.false_and]
    rw [splitHumps, hhump, if_neg Bool.false_ne_true]

theorem splitHumps_run_append {run : List Char} (h : ∀ c ∈ run, isSeparator c = true)
    (s : List Char) : splitHumps (run ++ s) = run ++ splitHumps s := by
  induction run with
  | nil => rfl
  | cons c run ih =>
    rw [List.cons_append, splitHumps_cons (isFlat_of_isSeparator (h c List.mem_cons_self)),
      ih fun d hd => h d (List.mem_cons_of_mem c hd), List.cons_append]

theorem head?_splitHumps (s : List Char) : (splitHumps s).head? = s.head? := by
  unfold splitHumps
  split
  · split
    · rfl
    · rfl
  · rfl

theorem getLast?_splitHumps (s : List Char) : (splitHumps s).getLast? = s.getLast? := by
  induction s with
  | nil => rfl
  | cons c s ih =>
    cases s with
    | nil => rfl
    | cons d s =>
      have hne : splitHumps (d :: s) ≠ [] := by
        intro hnil
        have hhead := head?_splitHumps (d :: s)
        rw [hnil] at hhead
        cases hhead
      rw [splitHumps, List.getLast?_cons_cons, ← ih]
      split
      · rw [List.getLast?_cons_cons, List.getLast?_cons_of_ne_nil hne]
      · exact List.getLast?_cons_of_ne_nil hne

/-- Whether a run goes on behind `s`. -/
def endsInRun (inRun : Bool) (s : List Char) : Bool :=
  s.getLast?.elim inRun isSeparator

theorem joinRuns_append (inRun : Bool) (s t : List Char) :
    joinRuns inRun (s ++ t) = joinRuns inRun s ++ joinRuns (endsInRun inRun s) t := by
  induction s generalizing inRun with
  | nil => rfl
  | cons c s ih =>
    have hends : endsInRun inRun (c :: s) = endsInRun (isSeparator c) s := by
      cases s with
      | nil => rfl
      | cons d s => rfl
    rw [List.cons_append, joinRuns, joinRuns, hends]
    by_cases hc : isSeparator c = true
    · rw [if_pos hc, if_pos hc, ih, hc]
      cases inRun with
      | true => rfl
      | false => rfl
    · rw [if_neg hc, if_neg hc, ih, Bool.eq_false_iff.mpr hc]
      rfl

theorem joinRuns_run {run : List Char} (h : ∀ c ∈ run, isSeparator c = true) :
    joinRuns true run = [] := by
  induction run with
  | nil => rfl
  | cons c run ih =>
    rw [joinRuns, if_pos (h c List.mem_cons_self), if_pos rfl,
      ih fun d hd => h d (List.mem_cons_of_mem c hd)]

/-- Before a letter it does not matter whether a run goes on. -/
theorem joinRuns_of_head? {s : List Char} (h : ∀ c ∈ s.head?, isSeparator c = false)
    (inRun : Bool) : joinRuns inRun s = joinRuns false s := by
  cases s with
  | nil => rfl
  | cons c s =>
    have hc : isSeparator c = false := h c rfl
    rw [joinRuns, joinRuns, hc, if_neg Bool.false_ne_true, if_neg Bool.false_ne_true]

/-- A run of separators becomes what a hyphen in its place would be. -/
theorem joinRuns_splitHumps_of_hyphenForRun {s t : List Char} (h : HyphenForRun s t) :
    joinRuns false (splitHumps t) = joinRuns false (splitHumps s) := by
  obtain ⟨before, run, behind, rfl, rfl, hne, hrun, hbefore, hbehind⟩ := h
  obtain ⟨c, run, rfl⟩ := List.exists_cons_of_ne_nil hne
  have hc := hrun c List.mem_cons_self
  have hrest : ∀ d ∈ run, isSeparator d = true := fun d hd => hrun d (List.mem_cons_of_mem c hd)
  have hhyphen : IsFlat '-' := ⟨by decide, by decide⟩
  have hends : endsInRun false (splitHumps before) = false := by
    unfold endsInRun
    rw [getLast?_splitHumps]
    cases hlast : before.getLast? with
    | none => rfl
    | some d => exact hbefore d hlast
  have hhead : ∀ d ∈ (splitHumps behind).head?, isSeparator d = false := by
    rw [head?_splitHumps]
    exact hbehind
  -- behind a hyphen the rest of the run is skipped
  have hjoined : joinRuns true (run ++ splitHumps behind) = joinRuns false (splitHumps behind) := by
    rw [joinRuns_append, joinRuns_run hrest, List.nil_append, joinRuns_of_head? hhead]
  calc joinRuns false (splitHumps (before ++ '-' :: behind))
      = joinRuns false (splitHumps before) ++ '-' :: joinRuns false (splitHumps behind) := by
        rw [splitHumps_append hhyphen, splitHumps_cons hhyphen, joinRuns_append, hends]
        rfl
    _ = joinRuns false (splitHumps before) ++ joinRuns false (c :: (run ++ splitHumps behind)) := by
        rw [← hjoined, joinRuns, if_pos hc]
        rfl
    _ = joinRuns false (splitHumps (before ++ (c :: run) ++ behind)) := by
        have hsplit : splitHumps (c :: (run ++ behind)) = c :: (run ++ splitHumps behind) :=
          splitHumps_run_append hrun behind
        rw [List.append_assoc, List.cons_append, splitHumps_append (isFlat_of_isSeparator hc),
          hsplit, joinRuns_append, hends]

/-! ## Attribute names -/

theorem joinRuns_splitHumps_of_hyphens {s t : List Char}
    (h : Relation.ReflTransGen HyphenForRun s t) :
    joinRuns false (splitHumps t) = joinRuns false (splitHumps s) := by
  induction h with
  | refl => rfl
  | tail _ hstep ih => rw [joinRuns_splitHumps_of_hyphenForRun hstep, ih]

theorem attributeName_eq_empty {s : String} (h : attributeName s = "") : s = "" := by
  by_contra hne
  have hchars : s.toList ≠ [] := fun hnil => hne (String.toList_eq_nil_iff.mp hnil)
  have hjoined : joinRuns false (splitHumps s.toList) ≠ [] := by
    have hhead := head?_splitHumps s.toList
    cases hsplit : splitHumps s.toList with
    | nil =>
      rw [hsplit] at hhead
      exact absurd (List.head?_eq_none_iff.mp hhead.symm) hchars
    | cons c cs =>
      rw [joinRuns]
      split
      · exact List.cons_ne_nil _ _
      · exact List.cons_ne_nil _ _
  refine lower_ne_nil hjoined ?_
  rw [← String.toList_ofList (l := lower _)]
  exact String.toList_eq_nil_iff.mpr h

/-- The name of an attribute is its own attribute name. It has no plain capitals, underscores or
blanks in it, and it is empty for the empty name only. Any runs of blanks and underscores count as
a hyphen each. -/
theorem attributeName_normal (s : String) :
    attributeName (attributeName s) = attributeName s ∧
      (∀ c ∈ (attributeName s).toList, c.isUpper = false ∧ c ≠ '_' ∧ isBlank c = false) ∧
      (attributeName s = "" → s = "") ∧
      ∀ t : String, Relation.ReflTransGen HyphenForRun s.toList t.toList →
        attributeName t = attributeName s := by
  have hchars : (attributeName s).toList = lower (joinRuns false (splitHumps s.toList)) :=
    String.toList_ofList
  have hlower : ∀ c ∈ (attributeName s).toList, lowerChar c = [c] := by
    rw [hchars]
    exact fun _ => lowerChar_of_mem_lower
  have hjoined : ∀ c ∈ (attributeName s).toList, isSeparator c = false := by
    rw [hchars]
    exact isSeparator_of_mem_lower fun _ => isSeparator_of_mem_joinRuns
  refine ⟨attributeName_of_settled hlower hjoined, fun c hc => ?_, attributeName_eq_empty,
    fun t hruns => by rw [attributeName, joinRuns_splitHumps_of_hyphens hruns, attributeName]⟩
  have hfree := hjoined c hc
  rw [isSeparator, Bool.or_eq_false_iff, decide_eq_false_iff_not] at hfree
  exact ⟨isUpper_of_lowerChar (hlower c hc), hfree.2, hfree.1⟩

/-- Two runs, one of them in front of a capital. -/
theorem attributeName_normal_two_runs :
    Relation.ReflTransGen HyphenForRun "max_\tItem __no".toList "max-Item-no".toList ∧
      attributeName "max-Item-no" = attributeName "max_\tItem __no" := by
  have hfirst : HyphenForRun "max_\tItem __no".toList "max-Item __no".toList :=
    ⟨"max".toList, "_\t".toList, "Item __no".toList, by decide, by decide, by decide,
      List.all_eq_true.mp (by decide), by rintro c ⟨⟩; decide, by rintro c ⟨⟩; decide⟩
  have hsecond : HyphenForRun "max-Item __no".toList "max-Item-no".toList :=
    ⟨"max-Item".toList, " __".toList, "no".toList, by decide, by decide, by decide,
      List.all_eq_true.mp (by decide), by rintro c ⟨⟩; decide, by rintro c ⟨⟩; decide⟩
  have hruns := (Relation.ReflTransGen.single hfirst).tail hsecond
  exact ⟨hruns, (attributeName_normal "max_\tItem __no").2.2.2 "max-Item-no" hruns⟩

end ElementManifest.Naming

import ElementManifest.Proofs.UnionOrder

/-!
# Parentheses and parts

The scan that tells whether a printed type gets parentheses and the scan that takes a union apart
see the same bars: a text has a bar outside of all brackets and quotes if and only if it falls into
more than one part (`hasTopTokenFrom_bar_iff`). Behind a bar the second scan starts afresh, so a
part has none left (`bars_of_parts`). In parentheses a scan stands one bracket deeper
(`step_deeper`), so as long as no bracket is closed that has not been opened it meets nothing.

> `scans_agree`: all of this for any text.
-/

namespace ElementManifest.Inference

open ElementManifest.Text

/-! ## Bars -/

theorem any_bar (n : Nesting) (c : Char) :
    (n.topToken? c).any [TopToken.bar].contains = decide (c = '|' ∧ n.isTop = true) := by
  unfold Nesting.topToken?
  cases n.isTop with
  | false => simp
  | true =>
    by_cases hbar : c = '|'
    · simp [hbar]
    · simp only [hbar, Bool.not_true, Bool.false_eq_true, if_false, false_and, decide_false]
      split
      · rfl
      · split <;> rfl

/-- A text has a bar if and only if it has more than one part. -/
theorem hasTopTokenFrom_bar_iff (n : Nesting) (s : List Char) :
    hasTopTokenFrom [.bar] n s = true ↔ 1 < (splitUnionFrom n s).length := by
  induction s generalizing n with
  | nil => exact iff_of_false Bool.false_ne_true (Nat.lt_irrefl 1)
  | cons c s ih =>
    obtain ⟨part, parts, hparts⟩ := List.exists_cons_of_ne_nil (splitUnionFrom_ne_nil (n.step c) s)
    have hrest := ih (n.step c)
    rw [hparts] at hrest
    rw [hasTopTokenFrom, any_bar, splitUnionFrom, hparts]
    by_cases hbar : c = '|' ∧ n.isTop = true
    · rw [if_pos hbar, decide_eq_true hbar]
      exact iff_of_true rfl (by simp)
    · rw [if_neg hbar, decide_eq_false hbar, Bool.false_or, hrest]
      simp

/-! ## Parts -/

/-- A scan leaves quotes only by the one that closes them, and remembers no backslash then. -/
theorem escapesInside_step {n : Nesting} (h : EscapesInside n) (c : Char) :
    EscapesInside (n.step c) := by
  intro hquote
  cases hn : n.quote with
  | none => exact escaped_step (h hn) (Or.inl hn)
  | some q =>
    have hends : ¬(n.escaped = true ∨ c = '\\' ∨ c ≠ q) := by
      intro hstays
      rw [(step_staying hn hstays).1] at hquote
      cases hquote
    rw [not_or, not_or] at hends
    exact escaped_step (Bool.eq_false_iff.mpr hends.1) (Or.inr hends.2.1)

/-- No part has a bar left: the first one where the scan stands, and the others from the start. -/
theorem bars_of_parts {s : List Char} {n : Nesting} (hn : EscapesInside n) {part : List Char}
    {parts : List (List Char)} (h : splitUnionFrom n s = part :: parts) :
    hasTopTokenFrom [.bar] n part = false ∧ ∀ p ∈ parts, hasTopToken [.bar] p = false := by
  induction s generalizing n part parts with
  | nil =>
    cases h
    exact ⟨rfl, nofun⟩
  | cons c s ih =>
    obtain ⟨next, rest, hrest⟩ := List.exists_cons_of_ne_nil (splitUnionFrom_ne_nil (n.step c) s)
    obtain ⟨hnext, hfree⟩ := ih (escapesInside_step hn c) hrest
    rw [splitUnionFrom, hrest] at h
    by_cases hbar : c = '|' ∧ n.isTop = true
    · rw [if_pos hbar] at h
      cases h
      obtain ⟨rfl, htop⟩ := hbar
      -- behind the bar the scan stands as at the start
      have houtside : OutsideAt 0 n := by
        rw [Nesting.isTop, Bool.and_eq_true, Option.isNone_iff_eq_none, decide_eq_true_eq] at htop
        exact ⟨htop.1, hn htop.1, htop.2⟩
      have hstart : InStep (n.step '|') {} :=
        .of_outsideAt houtside.step_bar outsideAt_start
          (iff_of_false (by rw [prev_step]; decide) (by decide))
      refine ⟨rfl, fun p hp => ?_⟩
      rcases List.mem_cons.mp hp with rfl | hp
      · rw [hasTopToken, ← hstart.hasTopTokenFrom_eq, hnext]
      · exact hfree p hp
    · rw [if_neg hbar] at h
      cases h
      rw [hasTopTokenFrom, any_bar, decide_eq_false hbar, hnext]
      exact ⟨rfl, hfree⟩

/-- A part is not split again. -/
theorem splitUnion_part {s part : List Char} (h : part ∈ splitUnion s) :
    splitUnion part = [part] := by
  obtain ⟨first, parts, hparts⟩ := List.exists_cons_of_ne_nil (splitUnionFrom_ne_nil {} s)
  obtain ⟨hfirst, hfree⟩ := bars_of_parts (fun _ => rfl) hparts
  rw [splitUnion, hparts] at h
  refine splitUnionFrom_whole ?_
  rcases List.mem_cons.mp h with rfl | h
  · exact hfirst
  · exact hfree part h

/-! ## Parentheses -/

/-- A scan one bracket deeper. -/
def deeper (n : Nesting) : Nesting :=
  { n with depth := n.depth + 1 }

theorem step_deeper (n : Nesting) (c : Char) : (deeper n).step c = deeper (n.step c) := by
  unfold Nesting.step
  cases hquote : n.quote with
  | none =>
    simp only [deeper, hquote]
    split
    · rfl
    · split
      · rfl
      · split
        · have hdepth : n.depth + 1 - 1 = n.depth - 1 + 1 := by omega
          rw [hdepth]
        · rfl
  | some q =>
    simp only [deeper, hquote]
    split
    · rfl
    · split
      · rfl
      · split <;> rfl

/-- Whether a scan never has closed more brackets than it has opened. -/
def ClosesOpened (s : List Char) : Prop :=
  ∀ p ∈ s.inits, 0 ≤ (p.foldl Nesting.step {}).depth

instance (s : List Char) : Decidable (ClosesOpened s) :=
  inferInstanceAs (Decidable (∀ p ∈ s.inits, 0 ≤ (p.foldl Nesting.step {}).depth))

/-- What is never closed too often has nothing outside of the brackets around it. -/
theorem hasTopTokenFrom_deeper (tokens : List TopToken) {s : List Char} {n : Nesting}
    (h : ∀ p, p <+: s → 0 ≤ (p.foldl Nesting.step n).depth) :
    hasTopTokenFrom tokens (deeper n) s = false := by
  induction s generalizing n with
  | nil => rfl
  | cons c s ih =>
    have hdepth : 0 ≤ n.depth := h [] List.nil_prefix
    have htop : (deeper n).isTop = false := by
      have hne : n.depth + 1 ≠ 0 := by omega
      simp [Nesting.isTop, deeper, hne]
    have hrest := ih fun p hp => h (c :: p) ((List.prefix_cons_inj c).mpr hp)
    rw [hasTopTokenFrom, step_deeper, hrest, Nesting.topToken?, htop]
    rfl

/-- Parentheses leave no token outside. -/
theorem needsParentheses_wrapIf {tokens : List TopToken} {t : String} (h : ClosesOpened t.toList) :
    needsParentheses tokens (wrapIf tokens t) = false := by
  unfold wrapIf
  split
  next =>
    -- neither a parenthesis nor the start of a text is the start of an arrow
    have hopen : InStep (Nesting.step {} '(') (deeper {}) := ⟨rfl, rfl, rfl, by decide⟩
    have hinside : hasTopTokenFrom tokens (deeper {}) t.toList = false :=
      hasTopTokenFrom_deeper tokens fun p hp => h p ((List.mem_inits p t.toList).mpr hp)
    have hclose (n : Nesting) : hasTopTokenFrom tokens n [')'] = false := by
      simp [hasTopTokenFrom, Nesting.topToken?]
    calc needsParentheses tokens ("(" ++ t ++ ")")
        = hasTopToken tokens ('(' :: (t.toList ++ [')'])) := by
          rw [needsParentheses_eq, String.toList_append, String.toList_append]
          rfl
      _ = hasTopTokenFrom tokens (deeper {}) (t.toList ++ [')']) := by
          rw [hasTopToken, hasTopTokenFrom, hopen.hasTopTokenFrom_eq]
          rfl
      _ = false := by rw [hasTopTokenFrom_append, hinside, hclose, Bool.or_false]
  next hfree => exact Bool.eq_false_iff.mpr hfree

/-- **The scan for parentheses and the one for the parts of a union see the same bars.** The parts
give the text back and fall into no further ones. And a text that closes only what it has opened
needs no parentheses once it may have got them, whatever tokens they are for; its last brackets and
quotes may even be open. -/
theorem scans_agree (t : String) :
    (needsParentheses [.bar] t = true ↔ 1 < (splitUnion t.toList).length) ∧
      ['|'].intercalate (splitUnion t.toList) = t.toList ∧
      (∀ part ∈ splitUnion t.toList, splitUnion part = [part]) ∧
      (ClosesOpened t.toList → ∀ tokens, needsParentheses tokens (wrapIf tokens t) = false) := by
  rw [needsParentheses_eq]
  exact ⟨hasTopTokenFrom_bar_iff {} t.toList, intercalate_splitUnionFrom {} t.toList,
    fun _ => splitUnion_part, fun h _ => needsParentheses_wrapIf h⟩

/-- A function in a union, with an arrow, bars and an escape that is no mark. -/
def guardedCallback : String :=
  "(x: 'a|\\'b') => Map<é, \"\\ö\"> | null"

theorem scans_agree_callback :
    ClosesOpened guardedCallback.toList ∧
      needsParentheses [.arrow] (wrapIf [.arrow] guardedCallback) = false :=
  have hcloses : ClosesOpened guardedCallback.toList := by decide
  ⟨hcloses, (scans_agree guardedCallback).2.2.2 hcloses [.arrow]⟩

end ElementManifest.Inference

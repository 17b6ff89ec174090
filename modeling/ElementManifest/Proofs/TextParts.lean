import ElementManifest.Text.Blank
import ElementManifest.Text.Split

/-!
# Parts and ends of a text

What splitting and trimming do to texts that are put together from others.

> `splitOn_append_cons`: a text is cut at each separator.

> `trim_blanks_append`, `trim_append_blanks`: blanks in front of a text and behind it are taken off
> with its own.
-/

namespace ElementManifest.Text

/-! ## Parts -/

theorem splitOn_of_free {sep : Char → Bool} {s : List Char} (h : ∀ c ∈ s, sep c = false) :
    splitOn sep s = [s] := by
  induction s with
  | nil => rfl
  | cons c s ih =>
    unfold splitOn
    rw [if_neg (by simp [h c List.mem_cons_self]), ih fun d hd => h d (List.mem_cons_of_mem c hd)]

/-- A text is cut at each separator. -/
theorem splitOn_append_cons {sep : Char → Bool} {c : Char} (hc : sep c = true) (t : List Char) :
    ∀ s : List Char, splitOn sep (s ++ c :: t) = splitOn sep s ++ splitOn sep t
  | [] => by
    show splitOn sep (c :: t) = [] :: splitOn sep t
    rw [splitOn, if_pos hc]
  | d :: s => by
    rw [List.cons_append, splitOn, splitOn, splitOn_append_cons hc t s]
    by_cases hd : sep d = true
    · rw [if_pos hd, if_pos hd]
      rfl
    · rw [if_neg hd, if_neg hd]
      cases hs : splitOn sep s with
      | nil => exact absurd hs (splitOn_ne_nil sep s)
      | cons part parts => rfl

/-- What has no separator in it goes to the first part. -/
theorem splitOn_append_of_free {sep : Char → Bool} {x s part : List Char} {parts : List (List Char)}
    (h : ∀ c ∈ x, sep c = false) (hs : splitOn sep s = part :: parts) :
    splitOn sep (x ++ s) = (x ++ part) :: parts := by
  induction x with
  | nil => exact hs
  | cons c x ih =>
    rw [List.cons_append, splitOn, if_neg (by simp [h c List.mem_cons_self]),
      ih fun d hd => h d (List.mem_cons_of_mem c hd)]
    rfl

theorem free_of_mem_splitOn {sep : Char → Bool} {s part : List Char} (h : part ∈ splitOn sep s) :
    ∀ c ∈ part, sep c = false := by
  induction s generalizing part with
  | nil =>
    rw [splitOn, List.mem_singleton] at h
    intro c hc
    rw [h] at hc
    cases hc
  | cons d s ih =>
    rw [splitOn] at h
    by_cases hd : sep d = true
    · rw [if_pos hd] at h
      rcases List.mem_cons.mp h with rfl | h
      · intro c hc
        cases hc
      · exact ih h
    · rw [if_neg hd] at h
      cases hs : splitOn sep s with
      | nil => exact absurd hs (splitOn_ne_nil sep s)
      | cons first parts =>
        rw [hs] at h ih
        rcases List.mem_cons.mp h with rfl | h
        · intro c hc
          rcases List.mem_cons.mp hc with rfl | hc
          · exact Bool.not_eq_true _ ▸ hd
          · exact ih List.mem_cons_self c hc
        · exact ih (List.mem_cons_of_mem first h)

theorem mem_of_mem_splitOn {sep : Char → Bool} {s part : List Char} (h : part ∈ splitOn sep s) :
    ∀ c ∈ part, c ∈ s := by
  induction s generalizing part with
  | nil =>
    rw [splitOn, List.mem_singleton] at h
    rw [h]
    intro c hc
    cases hc
  | cons d s ih =>
    intro c hc
    unfold splitOn at h
    split at h
    next =>
      rcases List.mem_cons.mp h with rfl | h
      · cases hc
      · exact List.mem_cons_of_mem d (ih h c hc)
    next =>
      split at h
      next first parts hsplit =>
        rcases List.mem_cons.mp h with rfl | h
        · rcases List.mem_cons.mp hc with rfl | hc
          · exact List.mem_cons_self
          · exact List.mem_cons_of_mem d (ih (hsplit ▸ List.mem_cons_self) c hc)
        · exact List.mem_cons_of_mem d (ih (hsplit ▸ List.mem_cons_of_mem first h) c hc)
      next hsplit => exact absurd hsplit (splitOn_ne_nil sep s)

theorem exists_mem_splitOn {sep : Char → Bool} {s : List Char} {c : Char} (h : c ∈ s)
    (hc : sep c = false) : ∃ part ∈ splitOn sep s, c ∈ part := by
  induction s with
  | nil => cases h
  | cons d s ih =>
    unfold splitOn
    rcases List.mem_cons.mp h with rfl | h
    · rw [if_neg (by simp [hc])]
      split
      next first parts _ => exact ⟨c :: first, List.mem_cons_self, List.mem_cons_self⟩
      next => exact ⟨[c], List.mem_cons_self, List.mem_cons_self⟩
    · obtain ⟨part, hpart, hmem⟩ := ih h
      split
      next => exact ⟨part, List.mem_cons_of_mem _ hpart, hmem⟩
      next =>
        split
        next first parts hsplit =>
          rw [hsplit] at hpart
          rcases List.mem_cons.mp hpart with rfl | hpart
          · exact ⟨d :: part, List.mem_cons_self, List.mem_cons_of_mem d hmem⟩
          · exact ⟨part, List.mem_cons_of_mem _ hpart, hmem⟩
        next hsplit => exact absurd hsplit (splitOn_ne_nil sep s)

theorem joinWith_cons {rest : List (List Char)} (hne : rest ≠ []) (between part : List Char) :
    joinWith between (part :: rest) = part ++ (between ++ joinWith between rest) := by
  cases rest with
  | nil => exact absurd rfl hne
  | cons next rest => exact List.append_assoc _ _ _

theorem joinWith_append {before behind : List (List Char)} (hbefore : before ≠ [])
    (hbehind : behind ≠ []) (between : List Char) :
    joinWith between (before ++ behind) =
      joinWith between before ++ (between ++ joinWith between behind) := by
  induction before with
  | nil => exact absurd rfl hbefore
  | cons part before ih =>
    by_cases hnil : before = []
    · rw [hnil]
      exact joinWith_cons hbehind between part
    · rw [List.cons_append, joinWith_cons (by simp [hnil]), ih hnil, joinWith_cons hnil]
      simp only [List.append_assoc]

theorem joinWith_eq_intercalate (between : List Char) (parts : List (List Char)) :
    joinWith between parts = between.intercalate parts := by
  induction parts with
  | nil => rfl
  | cons part parts ih =>
    cases parts with
    | nil => exact List.intercalate_singleton.symm
    | cons next parts =>
      rw [joinWith, ih, List.intercalate_cons_cons]
      exact nofun

/-- Parts that are put together are found again. -/
theorem splitOn_joinWith {sep : Char → Bool} {c : Char} (hc : sep c = true) :
    ∀ {parts : List (List Char)}, parts ≠ [] → (∀ part ∈ parts, ∀ d ∈ part, sep d = false) →
      splitOn sep (joinWith [c] parts) = parts
  | [], hne, _ => absurd rfl hne
  | [part], _, hfree => splitOn_of_free (hfree part List.mem_cons_self)
  | part :: next :: parts, _, hfree => by
    have hrest : ∀ p ∈ next :: parts, ∀ d ∈ p, sep d = false :=
      fun p hp => hfree p (List.mem_cons_of_mem part hp)
    rw [joinWith, List.append_assoc, List.singleton_append, splitOn_append_cons hc,
      splitOn_of_free (hfree part List.mem_cons_self),
      splitOn_joinWith hc (List.cons_ne_nil next parts) hrest]
    · rfl
    · exact nofun

/-! ## Blanks at the ends -/

theorem trimEnd_append (x y : List Char) :
    trimEnd (x ++ y) = if trimEnd y = [] then trimEnd x else x ++ trimEnd y := by
  unfold trimEnd
  rw [List.reverse_append, List.dropWhile_append]
  by_cases hy : y.reverse.dropWhile isBlank = []
  · rw [if_pos (by rw [hy]; rfl), if_pos (by rw [hy]; rfl)]
  · rw [if_neg (by rwa [List.isEmpty_iff]), if_neg (by rwa [List.reverse_eq_nil_iff]),
      List.reverse_append, List.reverse_reverse]

theorem exists_trimStart (s : List Char) :
    ∃ b : List Char, (∀ c ∈ b, isBlank c = true) ∧ s = b ++ trimStart s := by
  have hblanks : (s.takeWhile isBlank).all isBlank = true := List.all_takeWhile
  exact ⟨_, List.all_eq_true.mp hblanks, List.takeWhile_append_dropWhile.symm⟩

theorem exists_trimEnd (s : List Char) :
    ∃ b : List Char, (∀ c ∈ b, isBlank c = true) ∧ s = trimEnd s ++ b := by
  obtain ⟨b, hb, hs⟩ := exists_trimStart s.reverse
  refine ⟨b.reverse, fun c hc => hb c (List.mem_reverse.mp hc), ?_⟩
  have hreverse := congrArg List.reverse hs
  rw [List.reverse_reverse, List.reverse_append] at hreverse
  exact hreverse

theorem trimStart_blanks {b : List Char} (hb : ∀ c ∈ b, isBlank c = true) : trimStart b = [] := by
  have hdrop : (b ++ []).dropWhile isBlank = [] := List.dropWhile_append_of_pos hb
  rwa [List.append_nil] at hdrop

theorem trimEnd_blanks {b : List Char} (hb : ∀ c ∈ b, isBlank c = true) : trimEnd b = [] := by
  have hdrop : trimStart b.reverse = [] :=
    trimStart_blanks fun c hc => hb c (List.mem_reverse.mp hc)
  exact congrArg List.reverse hdrop

theorem trim_blanks_append {b : List Char} (hb : ∀ c ∈ b, isBlank c = true) (s : List Char) :
    trim (b ++ s) = trim s :=
  congrArg trimEnd (List.dropWhile_append_of_pos hb)

theorem trim_append_blanks {b : List Char} (hb : ∀ c ∈ b, isBlank c = true) (s : List Char) :
    trim (s ++ b) = trim s := by
  have hstart : trimStart (s ++ b) =
      if (trimStart s).isEmpty = true then trimStart b else trimStart s ++ b :=
    List.dropWhile_append
  unfold trim
  rw [hstart]
  split
  next hnone => rw [trimStart_blanks hb, List.isEmpty_iff.mp hnone]
  next => rw [trimEnd_append, if_pos (trimEnd_blanks hb)]

end ElementManifest.Text

import ElementManifest.Proofs.PathPlaces

/-!
# Parents, one after another

The parents of a path are what is left when the last component is taken away, again and again. A
path has fewer components than its text has characters, so there is room for all of them:

> `ancestors_of_parent?`: the paths above a path are its parent and the paths above that.

What is to be shown of a path from what holds of its parent is shown by `parent_induction`. Where
the component that is taken away is no `..`, the steps of the parent are those of the path, or all
of them but the last (`steps_of_parent?`).
-/

namespace ElementManifest

open ElementManifest.Text

/-- Of a text that is split the separators are left out, one fewer than there are parts. -/
theorem length_flatten_splitOn (sep : Char → Bool) (s : List Char) :
    (splitOn sep s).flatten.length + (splitOn sep s).length = s.length + 1 := by
  induction s with
  | nil => rfl
  | cons c s ih =>
    unfold splitOn
    split
    next =>
      rw [List.flatten_cons, List.nil_append, List.length_cons, List.length_cons]
      omega
    next =>
      split
      next part parts hsplit =>
        rw [hsplit] at ih
        simp only [List.flatten_cons, List.length_append, List.length_cons] at ih ⊢
        omega
      next hsplit => exact absurd hsplit (splitOn_ne_nil sep s)

namespace Path

theorem root_not_mem_filterMap (parts : List (List Char)) :
    .root ∉ parts.filterMap componentOf := by
  intro hmem
  obtain ⟨part, -, hpart⟩ := List.mem_filterMap.mp hmem
  exact componentOf_ne_root part hpart

theorem isAbsolute_iff_head? (p : Path) :
    p.isAbsolute = true ↔ p.components.head? = some .root := by
  rw [components_eq_steps, steps_eq]
  constructor
  · intro habs
    rw [startsHere_of_isAbsolute habs, habs]
    rfl
  · intro hhead
    by_contra habs
    rw [if_neg habs, List.nil_append] at hhead
    rcases List.mem_append.mp (List.mem_of_head? hhead) with hhere | hmem
    · split at hhere
      next => cases List.mem_singleton.mp hhere
      next => cases hhere
    · exact root_not_mem_filterMap _ hmem

theorem isAbsolute_of_parent? {p q : Path} (h : p.parent? = some q) :
    p.isAbsolute = q.isAbsolute := by
  obtain ⟨c, hroot, hc⟩ := components_of_parent? h
  rw [Bool.eq_iff_iff, isAbsolute_iff_head?, isAbsolute_iff_head?, hc]
  cases q.components with
  | nil => simp [hroot]
  | cons d ds => rfl

/-- To take away what is no `..` is to take one name away, or nothing. -/
theorem steps_of_parent? {p q : Path} (h : p.parent? = some q)
    (hup : p.components.getLast? ≠ some .up) :
    p.steps = q.steps ∨ ∃ name, p.steps = q.steps ++ [.name name] := by
  obtain ⟨c, hroot, hc⟩ := components_of_parent? h
  rw [hc, List.getLast?_concat] at hup
  unfold steps
  rw [hc, List.filter_append]
  cases c with
  | root => exact absurd rfl hroot
  | up => exact absurd rfl hup
  | here => exact Or.inl (List.append_nil _)
  | name name => exact Or.inr ⟨name, rfl⟩

/-- The empty part is no component. -/
theorem length_toList_componentOf_le (part : List Char) :
    (componentOf part).toList.length ≤ part.length := by
  cases part with
  | nil => exact Nat.le_refl 0
  | cons c part =>
    rw [List.length_cons]
    exact Nat.le_trans Option.length_toList_le (Nat.le_add_left 1 _)

theorem length_filterMap_componentOf_le (parts : List (List Char)) :
    (parts.filterMap componentOf).length ≤ parts.flatten.length := by
  induction parts with
  | nil => exact Nat.le_refl 0
  | cons part parts ih =>
    have hpart := length_toList_componentOf_le part
    rw [List.filterMap_cons, List.flatten_cons, List.length_append]
    cases hc : componentOf part with
    | none => exact Nat.le_trans ih (Nat.le_add_left _ _)
    | some c =>
      rw [hc, Option.toList_some, List.length_singleton] at hpart
      dsimp only
      rw [List.length_cons]
      omega

/-- A component takes a character at least. -/
theorem length_components_le (p : Path) : p.components.length ≤ p.text.length := by
  have hlength := length_flatten_splitOn (· = '/') p.text.toList
  change p.parts.flatten.length + p.parts.length = _ at hlength
  rw [String.length_toList] at hlength
  obtain ⟨first, rest, hparts⟩ : ∃ first rest, p.parts = first :: rest :=
    List.exists_cons_of_ne_nil (splitOn_ne_nil _ _)
  have hrest := length_filterMap_componentOf_le rest
  rw [components_eq, hparts, componentsOf, List.length_append]
  rw [hparts, List.flatten_cons, List.length_append, List.length_cons] at hlength
  cases habs : p.isAbsolute with
  | true =>
    -- the slash at the start parts the empty part before it from another one
    have hne : rest ≠ [] := by
      rintro rfl
      obtain ⟨hne, hhead⟩ := (head?_parts p).mp habs
      rw [hparts] at hhead
      obtain rfl : first = [] := Option.some.inj hhead
      have hzero : p.text.length = 0 := by simpa using hlength.symm
      exact hne (String.length_eq_zero_iff.mp hzero)
    have hpos := List.length_pos_iff.mpr hne
    rw [if_pos rfl, List.length_singleton]
    omega
  | false =>
    have hfirst : (if first = ['.'] then [Component.here]
        else (componentOf first).toList).length ≤ first.length := by
      split
      next hdot =>
        rw [hdot]
        exact Nat.le_refl 1
      next => exact length_toList_componentOf_le first
    rw [if_neg Bool.false_ne_true]
    omega

theorem parent?_eq_none {p : Path} (h : p.components.length = 0) : p.parent? = none := by
  by_contra hsome
  obtain ⟨q, hq⟩ := Option.ne_none_iff_exists'.mp hsome
  obtain ⟨c, -, hc⟩ := components_of_parent? hq
  rw [hc] at h
  simp at h

theorem ancestorsUpTo_of_top {p : Path} (h : p.parent? = none) (n : Nat) :
    p.ancestorsUpTo n = [p] := by
  cases n with
  | zero => rfl
  | succ n =>
    rw [ancestorsUpTo, h]
    rfl

/-- There is room enough to take all components away. -/
theorem ancestorsUpTo_eq {n m : Nat} {p : Path} (hn : p.components.length ≤ n)
    (hm : p.components.length ≤ m) : p.ancestorsUpTo n = p.ancestorsUpTo m := by
  induction n generalizing m p with
  | zero =>
    have hnone := parent?_eq_none (Nat.le_zero.mp hn)
    rw [ancestorsUpTo_of_top hnone, ancestorsUpTo_of_top hnone]
  | succ n ih =>
    cases hparent : p.parent? with
    | none => rw [ancestorsUpTo_of_top hparent, ancestorsUpTo_of_top hparent]
    | some q =>
      obtain ⟨c, -, hc⟩ := components_of_parent? hparent
      rw [hc, List.length_append, List.length_singleton] at hn hm
      obtain ⟨m, rfl⟩ := Nat.exists_eq_add_of_le' (Nat.le_trans (Nat.le_add_left 1 _) hm)
      rw [ancestorsUpTo, ancestorsUpTo, hparent, Option.map_some, Option.map_some,
        ih (Nat.le_of_succ_le_succ hn) (Nat.le_of_succ_le_succ hm)]

theorem ancestors_of_parent? {p q : Path} (h : p.parent? = some q) :
    p.ancestors = p :: q.ancestors := by
  obtain ⟨c, -, hc⟩ := components_of_parent? h
  have hlength := length_components_le p
  rw [hc, List.length_append, List.length_singleton] at hlength
  obtain ⟨n, hn⟩ := Nat.exists_eq_add_of_le' (Nat.le_trans (Nat.le_add_left 1 _) hlength)
  unfold ancestors
  rw [hn, ancestorsUpTo, h, Option.map_some, Option.getD_some]
  exact congrArg _ (ancestorsUpTo_eq (by omega) (length_components_le q))

theorem ancestors_of_top {p : Path} (h : p.parent? = none) : p.ancestors = [p] :=
  ancestorsUpTo_of_top h _

theorem exists_ancestors (p : Path) : ∃ above, p.ancestors = p :: above := by
  unfold ancestors
  cases p.text.length with
  | zero => exact ⟨_, rfl⟩
  | succ n => exact ⟨_, rfl⟩

/-- What holds of paths without a parent, and of a path when it holds of the parent, holds of
all paths. -/
@[elab_as_elim]
theorem parent_induction {motive : Path → Prop} (top : ∀ p, p.parent? = none → motive p)
    (below : ∀ p q, p.parent? = some q → motive q → motive p) (p : Path) : motive p := by
  induction hn : p.components.length generalizing p with
  | zero => exact top p (parent?_eq_none hn)
  | succ n ih =>
    cases hparent : p.parent? with
    | none => exact top p hparent
    | some q =>
      obtain ⟨c, -, hc⟩ := components_of_parent? hparent
      rw [hc, List.length_append, List.length_singleton] at hn
      exact below p q hparent (ih q (Nat.succ.inj hn))

theorem components_prefix_of_mem_ancestors {p q : Path} (h : q ∈ p.ancestors) :
    q.components <+: p.components := by
  induction p using parent_induction with
  | top p hparent =>
    rw [ancestors_of_top hparent] at h
    exact List.mem_singleton.mp h ▸ List.prefix_rfl
  | below p above hparent ih =>
    rw [ancestors_of_parent? hparent] at h
    rcases List.mem_cons.mp h with rfl | h
    · exact List.prefix_rfl
    · obtain ⟨c, -, hc⟩ := components_of_parent? hparent
      exact (ih h).trans (hc ▸ List.prefix_append _ _)

end Path

end ElementManifest

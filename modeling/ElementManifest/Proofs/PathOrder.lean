import ElementManifest.Scan
import Mathlib.Data.List.Induction

/-!
# The order of paths

A scan keeps its paths in a list in order, and puts a path in only if no other with the same
components is there. That finds every other spelling because paths are ordered by their
components, lexicographically:

> `compare_eq_eq_iff`: two paths stand at one place of the order if they are the same.

> `pairwise_insertPath`: so a list in order stays in order.

A scan has no two paths with the same components (`pairwise_files`), and those that it has
come from the directories it has walked through (`mem_files`).
-/

namespace ElementManifest

/-! ## Components -/

namespace Component

/-- The text of a name. -/
def nameText : Component → String
  | name text => text
  | _ => ""

theorem compare_eq (a b : Component) :
    a.compare b = compareLex (compareOn rank) (compareOn nameText) a b := by
  cases a <;> cases b <;> rfl

theorem compare_eq_compareLex :
    Component.compare = compareLex (compareOn rank) (compareOn nameText) :=
  funext fun a => funext fun b => compare_eq a b

instance : Std.TransCmp Component.compare := by
  rw [compare_eq_compareLex]
  infer_instance

instance : Std.LawfulEqCmp Component.compare where
  eq_of_compare {a b} h := by
    rw [compare_eq, compareLex_eq_eq] at h
    have hrank : a.rank = b.rank := Std.LawfulEqCmp.eq_of_compare h.1
    have htext : a.nameText = b.nameText := Std.LawfulEqCmp.eq_of_compare h.2
    cases a with
    | name s =>
      cases b with
      | name t => exact congrArg name htext
      | _ => simp [rank] at hrank
    | _ => cases b <;> first | rfl | simp [rank] at hrank

end Component

/-! ## Paths -/

namespace Path

theorem compareComponents_eq (as bs : List Component) :
    compareComponents as bs = as.compareLex Component.compare bs := by
  induction as generalizing bs with
  | nil => cases bs <;> rfl
  | cons a as ih =>
    cases bs with
    | nil => rfl
    | cons b bs =>
      rw [List.compareLex_cons_cons, ← ih]
      rfl

theorem compare_eq_compareLex (p q : Path) :
    p.compare q = p.components.compareLex Component.compare q.components :=
  compareComponents_eq p.components q.components

instance : Std.TransCmp Path.compare where
  eq_swap {p q} := by
    rw [compare_eq_compareLex, compare_eq_compareLex]
    exact Std.OrientedCmp.eq_swap
  isLE_trans {p q r} hpq hqr := by
    rw [compare_eq_compareLex] at *
    exact Std.TransCmp.isLE_trans hpq hqr

/-- Paths stand at one place of the order if they have the same components. -/
theorem compare_eq_eq_iff (p q : Path) : p.compare q = .eq ↔ p.components = q.components := by
  rw [compare_eq_compareLex]
  exact Std.LawfulEqCmp.compare_eq_iff_eq

end Path

/-! ## Lists in order -/

namespace Scan

theorem mem_insertPath {path q : Path} {ps : List Path} (h : q ∈ insertPath path ps) :
    q = path ∨ q ∈ ps := by
  induction ps with
  | nil => exact Or.inl (List.mem_singleton.mp h)
  | cons p ps ih =>
    unfold insertPath at h
    split at h
    next => exact List.mem_cons.mp h
    next => exact Or.inr h
    next =>
      rcases List.mem_cons.mp h with rfl | hrest
      · exact Or.inr List.mem_cons_self
      · rcases ih hrest with rfl | hmem
        · exact Or.inl rfl
        · exact Or.inr (List.mem_cons_of_mem p hmem)

theorem pairwise_insertPath (path : Path) {ps : List Path}
    (h : ps.Pairwise fun p q => p.compare q = .lt) :
    (insertPath path ps).Pairwise fun p q => p.compare q = .lt := by
  induction ps with
  | nil => exact List.pairwise_singleton _ _
  | cons p ps ih =>
    obtain ⟨hp, hps⟩ := List.pairwise_cons.mp h
    unfold insertPath
    split
    next hlt =>
      refine List.pairwise_cons.mpr ⟨?_, h⟩
      intro q hq
      rcases List.mem_cons.mp hq with rfl | hq
      · exact hlt
      · exact Std.TransCmp.lt_trans hlt (hp q hq)
    next => exact h
    next hgt =>
      refine List.pairwise_cons.mpr ⟨?_, ih hps⟩
      intro q hq
      rcases mem_insertPath hq with rfl | hq
      · exact Std.OrientedCmp.lt_of_gt hgt
      · exact hp q hq

theorem mem_foldl_insertPath {q : Path} {found : List Path}
    (h : q ∈ found.foldl (fun ps p => insertPath p ps) []) : q ∈ found := by
  induction found using List.reverseRecOn with
  | nil => cases h
  | append_singleton found last ih =>
    rw [List.foldl_append] at h
    rcases mem_insertPath h with rfl | hmem
    · exact List.mem_append_right _ List.mem_cons_self
    · exact List.mem_append_left _ (ih hmem)

theorem pairwise_foldl_insertPath (found : List Path) :
    (found.foldl (fun ps p => insertPath p ps) []).Pairwise fun p q => p.compare q = .lt := by
  induction found using List.reverseRecOn with
  | nil => exact List.Pairwise.nil
  | append_singleton found path ih =>
    rw [List.foldl_append]
    exact pairwise_insertPath path ih

/-! ## Paths in any spelling -/

/-- Whether a path is in a list, in some spelling. -/
def Has (ps : List Path) (p : Path) : Prop :=
  ∃ q ∈ ps, q.components = p.components

theorem has_cons (q : Path) (ps : List Path) (p : Path) :
    Has (q :: ps) p ↔ q.components = p.components ∨ Has ps p := by
  unfold Has
  simp only [List.mem_cons, exists_eq_or_imp]

/-- A path that is put in is there, if not as it is spelled then in another spelling. -/
theorem has_insertPath (path : Path) (ps : List Path) (p : Path) :
    Has (insertPath path ps) p ↔ path.components = p.components ∨ Has ps p := by
  induction ps with
  | nil => exact has_cons path [] p
  | cons q ps ih =>
    unfold insertPath
    split
    next => exact has_cons path (q :: ps) p
    next heq =>
      have hsame := (Path.compare_eq_eq_iff path q).mp heq
      rw [has_cons, hsame, or_self_left]
    next => rw [has_cons, has_cons, ih, or_left_comm]

theorem has_foldl_insertPath (found : List Path) (p : Path) :
    Has (found.foldl (fun ps p => insertPath p ps) []) p ↔ Has found p := by
  induction found using List.reverseRecOn with
  | nil => exact Iff.rfl
  | append_singleton found path ih =>
    have happend : Has (found ++ [path]) p ↔ Has found p ∨ path.components = p.components := by
      unfold Has
      simp only [List.mem_append, List.mem_singleton, or_and_right, exists_or, exists_eq_left]
    rw [List.foldl_append, happend, or_comm, ← ih]
    exact has_insertPath path _ p

end Scan

/-! ## Scans -/

section

variable (fs : FileSystem) (base : Path) (includes ignores : List String) (testFiles : Bool)

/-- The paths of a scan are in order. -/
theorem sorted_files :
    (scan fs base includes ignores testFiles).files.Pairwise fun p q => p.compare q = .lt :=
  Scan.pairwise_foldl_insertPath _

/-- No two paths of a scan have the same components. -/
theorem pairwise_files :
    (scan fs base includes ignores testFiles).files.Pairwise
      fun p q => p.components ≠ q.components := by
  refine (sorted_files fs base includes ignores testFiles).imp ?_
  intro p q hlt heq
  rw [(Path.compare_eq_eq_iff p q).mpr heq] at hlt
  cases hlt

/-- What a scan has found is below one of the directories that it has walked through. -/
theorem mem_files {path : Path} (h : path ∈ (scan fs base includes ignores testFiles).files) :
    ∃ root ∈ Scan.roots fs base includes, ∃ below t, fs.walk? root = some below ∧
      (path, t) ∈ below := by
  have hfound : path ∈ (Scan.roots fs base includes).flatMap
      (Scan.modulesBelow fs (Scan.ignoredIn base ignores testFiles)) :=
    Scan.mem_foldl_insertPath h
  obtain ⟨root, hroot, hbelow⟩ := List.mem_flatMap.mp hfound
  obtain ⟨⟨path', t⟩, hentry, rfl⟩ := List.mem_map.mp hbelow
  have hmem := (List.mem_filter.mp hentry).1
  cases hwalk : fs.walk? root with
  | none =>
    rw [hwalk] at hmem
    cases hmem
  | some below =>
    rw [hwalk] at hmem
    exact ⟨root, hroot, below, t, hwalk, hmem⟩

end

end ElementManifest

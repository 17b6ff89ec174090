import ElementManifest.Proofs.ClosedPrograms

/-!
# When a program lists a file twice

Two files are told apart by their paths as they are written. Links lead to paths in normal
form, so that linked files are listed once each (`Explored.pairwise_tail`). The root keeps
the path that it was asked for under:

> `listing_of_load`: a program lists a file twice if and only if its root is asked for under
> a path that is not in normal form, and a link leads back to that file.
-/

namespace ElementManifest

open ElementManifest.TypeScript

/-! ## Paths that name the same file -/

/-- Whether two files have paths that mean different ones when they are normalized. -/
def SourceFile.Distinct (f g : SourceFile) : Prop :=
  f.path.normalize.same g.path.normalize = false

instance : DecidableRel SourceFile.Distinct := fun f g =>
  inferInstanceAs (Decidable (f.path.normalize.same g.path.normalize = false))

namespace Path

variable {p q : Path}

theorem same_comm (p q : Path) : p.same q = q.same p := by
  rw [Bool.eq_iff_iff, same_iff, same_iff, eq_comm]

theorem normalize_same_of_isNormal (hp : p.IsNormal) (q : Path) :
    p.normalize.same q = p.same q := by
  rw [Bool.eq_iff_iff, same_iff, same_iff, components_normalize_of_isNormal hp]

/-- Paths in normal form mean the same one only if they are the same as written. -/
theorem same_normalize_of_isNormal (hp : p.IsNormal) (hq : q.IsNormal) :
    p.normalize.same q.normalize = p.same q := by
  rw [normalize_same_of_isNormal hp, same_comm, normalize_same_of_isNormal hq, same_comm]

end Path

theorem SourceFile.distinct_iff_apart {f g : SourceFile} (hf : f.path.IsNormal)
    (hg : g.path.IsNormal) : f.Distinct g ↔ f.Apart g := by
  unfold Distinct Apart
  rw [Path.same_normalize_of_isNormal hf hg]

namespace Program

variable {fs : FileSystem} {root : SourceFile} {done rest : List Path} {p : Program}

/-! ## Linked files -/

theorem Explored.eq_cons (h : Explored fs root done p) : p.files = root :: p.files.tail := by
  obtain ⟨linked, hlinked⟩ := h.root_first
  rw [← hlinked]
  rfl

theorem Explored.isNormal_of_mem_linkedModules (h : Explored fs root done p) {f : SourceFile}
    (hf : f ∈ p.files) {m : Path} (hm : m ∈ f.linkedModules) : m.IsNormal := by
  rw [h.indexed f hf] at hm
  obtain ⟨q, rfl⟩ := eq_normalize_of_mem_linkedModules hm
  exact Path.isNormal_normalize q

theorem Explored.isNormal_of_loadModule (h : Explored fs root done p) {f g : SourceFile}
    (hf : f ∈ p.files) {m : Path} (hm : m ∈ f.linkedModules) (hg : loadModule fs m = some g) :
    g.path.IsNormal :=
  Path.isNormal_of_mem_fileCandidates (h.isNormal_of_mem_linkedModules hf hm)
    (loadedFrom_of_loadModule hg).mem_fileCandidates

/-- The path of a linked file is in normal form. -/
theorem Explored.isNormal_of_mem_tail (h : Explored fs root done p) {g : SourceFile}
    (hg : g ∈ p.files.tail) : g.path.IsNormal := by
  obtain ⟨n, hn⟩ := List.mem_iff_getElem?.mp hg
  rw [List.getElem?_tail] at hn
  obtain ⟨i, f, -, hf, m, hm, hload⟩ := h.discovered hn
  exact h.isNormal_of_loadModule (List.mem_of_getElem? hf) hm hload

/-- Linked files are listed once each. -/
theorem Explored.pairwise_tail (h : Explored fs root done p) :
    p.files.tail.Pairwise SourceFile.Distinct := by
  have hapart : p.files.tail.Pairwise SourceFile.Apart :=
    h.apart.sublist (List.tail_sublist p.files)
  refine hapart.imp_of_mem ?_
  intro f g hf hg
  exact (SourceFile.distinct_iff_apart (h.isNormal_of_mem_tail hf)
    (h.isNormal_of_mem_tail hg)).mpr

theorem Explored.distinct_root_iff (h : Explored fs root done p) {g : SourceFile}
    (hg : g ∈ p.files.tail) : root.Distinct g ↔ g.path.same root.path.normalize = false := by
  unfold SourceFile.Distinct
  rw [Path.same_comm, Path.normalize_same_of_isNormal (h.isNormal_of_mem_tail hg)]

/-- A root in normal form is not listed again. -/
theorem Explored.distinct_root (h : Explored fs root done p) (hroot : root.path.IsNormal)
    {g : SourceFile} (hg : g ∈ p.files.tail) : root.Distinct g := by
  have hpairwise := h.apart
  rw [h.eq_cons] at hpairwise
  exact (SourceFile.distinct_iff_apart hroot (h.isNormal_of_mem_tail hg)).mpr
    ((List.pairwise_cons.mp hpairwise).1 g hg)

/-! ## Links back to the root -/

theorem Explored.position?_root (h : Explored fs root done p) {path : Path}
    (hpath : path.same root.path = true) : p.position? path = some rootFile := by
  refine (position?_eq_some_iff h.apart path rootFile).mpr ⟨root, ?_, ?_⟩
  · rw [h.eq_cons]
    rfl
  · rw [Path.same_comm]
    exact hpath

/-- A link whose file has the path of the root leads to the root. -/
theorem Explored.eq_rootFile_of_moduleFile? (h : Explored fs root done p)
    (hlinks : done ++ rest = linksOf p.files) {f g : SourceFile} {m : Path} {n : Nat}
    (hf : f ∈ p.files) (hm : m ∈ f.linkedModules) (hload : loadModule fs m = some g)
    (hg : g.path.same root.path = true) (hn : p.moduleFile? m = some n) : n = rootFile := by
  have hlinked : m ∈ done ++ rest := by
    rw [hlinks]
    exact List.mem_flatMap.mpr ⟨f, hf, hm⟩
  have hdone := h.mem_done_of_knows hlinks hlinked (knows_of_moduleFile? hn)
  rw [h.moduleFile?_eq hlinks hdone, hload, Option.bind_some, h.position?_root hg] at hn
  exact (Option.some.inj hn).symm

/-! ## Listings -/

/-- How often the files of a program are listed whose root is asked for under a path. -/
structure Listing (fs : FileSystem) (path : Path) (p : Program) : Prop where
  /-- Linked files are listed once each. -/
  linked : p.files.tail.Pairwise SourceFile.Distinct
  /-- All files are, unless the root is loaded again from another spelling of its path. -/
  once_iff : p.files.Pairwise SourceFile.Distinct ↔
    path.normalize.same path = true ∨ ∀ g ∈ p.files.tail, g.path.same path.normalize = false
  /-- Under a path in normal form, a link back to the root leads to the first file. -/
  back : path.normalize.same path = true → ∀ f ∈ p.files, ∀ m ∈ f.linkedModules, ∀ g,
    loadModule fs m = some g → g.path.normalize.same path.normalize = true →
      (∀ n, p.moduleFile? m = some n → n = rootFile) ∧
      (p.files.length < maxFiles → p.moduleFile? m = some rootFile)

/-- **A program lists each file once, unless its root is loaded again from another spelling of
its path.** -/
theorem listing_of_load {fs : FileSystem} {path : Path} {text : String} {p : Program}
    (hload : load fs path text = some p) : Listing fs path p := by
  obtain ⟨s, done, rest, hs, h, hlinks, hend⟩ := exists_explored_of_load hload
  refine ⟨h.pairwise_tail, ?_, ?_⟩
  · rw [h.eq_cons, List.pairwise_cons, List.tail_cons]
    constructor
    · rintro ⟨hroot, -⟩
      exact Or.inr fun g hg => (h.distinct_root_iff hg).mp (hroot g hg)
    · intro hspelling
      refine ⟨?_, h.pairwise_tail⟩
      intro g hg
      rcases hspelling with hnormal | hother
      · exact h.distinct_root ((Path.isNormal_iff path).mpr hnormal) hg
      · exact (h.distinct_root_iff hg).mpr (hother g hg)
  · intro hnormal f hf m hm g hg hsame
    have hpath : path.IsNormal := (Path.isNormal_iff path).mpr hnormal
    have hgpath : g.path.IsNormal := h.isNormal_of_loadModule hf hm hg
    rw [Path.same_normalize_of_isNormal hgpath hpath] at hsame
    have hroot : ∀ n, p.moduleFile? m = some n → n = rootFile := fun n hn =>
      h.eq_rootFile_of_moduleFile? hlinks hf hm hg hsame hn
    refine ⟨hroot, ?_⟩
    intro hroom
    have hdone : m ∈ done := mem_done_of_room hlinks hend hroom hf hm
    rw [h.moduleFile?_eq hlinks hdone, hg, Option.bind_some]
    exact h.position?_root hsame

/-- Asked for under its own path, the root of the circle is listed once. -/
theorem listing_of_load_circle :
    ∃ p, load circleFiles onePath circleText = some p ∧ Listing circleFiles onePath p ∧
      p.files.Pairwise SourceFile.Distinct ∧ p.moduleFile? ⟨"x.types"⟩ = some rootFile := by
  have hlinks : (loadWithin circleFiles 5 onePath circleText).map
      (fun p => p.moduleFile? ⟨"x.types"⟩) = some (some rootFile) := by
    decide +kernel
  obtain ⟨p, hwithin, hback⟩ := Option.map_eq_some_iff.mp hlinks
  have hlisting := listing_of_load (load_of_loadWithin hwithin)
  have hnormal : onePath.normalize.same onePath = true := by decide +kernel
  exact ⟨p, load_of_loadWithin hwithin, hlisting, hlisting.once_iff.mpr (Or.inl hnormal), hback⟩

/-- The path of the same root, as seen from the working directory. -/
def dottedPath : Path := ⟨"./x.types.ts"⟩

/-- Asked for from the working directory, it is loaded again when the other file links back. -/
theorem circle_lists_root_twice :
    ∃ p, load circleFiles dottedPath circleText = some p ∧
      ¬p.files.Pairwise SourceFile.Distinct ∧
      p.files.map (·.path.text) = ["./x.types.ts", "b.ts", "x.types.ts"] ∧
      p.moduleFile? ⟨"x.types"⟩ = some 2 := by
  have hlinks : (loadWithin circleFiles 6 dottedPath circleText).map
      (fun p => (decide (p.files.Pairwise SourceFile.Distinct), p.files.map (·.path.text),
        p.moduleFile? ⟨"x.types"⟩)) =
      some (false, ["./x.types.ts", "b.ts", "x.types.ts"], some 2) := by
    decide +kernel
  obtain ⟨p, hwithin, hfound⟩ := Option.map_eq_some_iff.mp hlinks
  obtain ⟨htwice, hpaths, hback⟩ : _ ∧ _ ∧ _ := by simpa using hfound
  exact ⟨p, load_of_loadWithin hwithin, htwice, hpaths, hback⟩

end Program

end ElementManifest

import ElementManifest.Proofs.RootFile
import ElementManifest.Proofs.FileChanges

/-!
# What a build looks at

To build a context is to look at its root file and, for each module, at the paths where
its file may be, up to the first one that is there. Nothing else in the file system
matters:

> `loadAll_of_probed`: where these paths read the same, the same files are loaded.

> `build_of_probed`: and the same context is built.

The modules that have been looked for are kept in the program, so the paths can be told
from the context itself (`Context.probes`).
-/

namespace ElementManifest

open ElementManifest.TypeScript

/-! ## Candidates -/

/-- The paths at which the file of a module is looked for: the candidates up to the first
one that is a file. -/
def probedCandidates (fs : FileSystem) (module : Path) : List Path :=
  (Program.fileCandidates module).takeWhile (fun q => !fs.isFile q) ++
    ((Program.fileCandidates module).find? fs.isFile).toList

/-- The paths that were looked at to build a context in a file system. -/
def Context.probes (fs : FileSystem) (c : Context) : List Path :=
  c.path :: c.program.modules.flatMap fun m => probedCandidates fs m.1

/-- A search ends at the same place for two tests that agree up to there. -/
theorem find?_of_takeWhile {α : Type} {f g : α → Bool} {l : List α}
    (h : ∀ a ∈ l.takeWhile (fun a => !g a) ++ (l.find? g).toList, f a = g a) :
    l.find? f = l.find? g := by
  induction l with
  | nil => rfl
  | cons a l ih =>
    rw [List.find?_cons, List.find?_cons]
    rw [List.takeWhile_cons, List.find?_cons] at h
    cases hg : g a with
    | true =>
      rw [hg] at h
      have hf : f a = g a := h a (by simp)
      rw [hf, hg]
    | false =>
      rw [hg] at h
      have hf : f a = g a := h a (by simp)
      rw [hf, hg]
      exact ih fun b hb => h b (List.mem_cons_of_mem a hb)

namespace Program

/-- The file of a module is loaded alike if its candidates read alike. -/
theorem loadModule_of_probed {fs fs' : FileSystem} {module : Path}
    (h : ∀ q ∈ probedCandidates fs module, fs'.read q = fs.read q) :
    loadModule fs' module = loadModule fs module := by
  have hfind : (fileCandidates module).find? fs'.isFile = (fileCandidates module).find? fs.isFile :=
    find?_of_takeWhile fun q hq => FileSystem.isFile_of_read (h q hq)
  unfold loadModule
  rw [hfind]
  cases hfound : (fileCandidates module).find? fs.isFile with
  | none => rfl
  | some path =>
    have hread : fs'.read path = fs.read path := by
      refine h path (List.mem_append_right _ ?_)
      rw [hfound]
      exact List.mem_singleton.mpr rfl
    dsimp only [Option.bind_eq_bind, Option.bind_some]
    rw [hread]

/-! ## Loading -/

theorem exists_modules_add (p : Program) (module : Path) (file : Option SourceFile) :
    ∃ n, (p.add module file).modules = p.modules ++ [(module, n)] := by
  unfold add
  split
  next => exact ⟨none, rfl⟩
  next file =>
    split
    next n _ => exact ⟨some n, rfl⟩
    next => exact ⟨some p.files.length, rfl⟩

/-- A module that has been looked for is kept. -/
theorem mem_modules_loadAll (fs : FileSystem) {p : Program} {queue : List Path}
    {m : Path × Option Nat} (h : m ∈ p.modules) : m ∈ (loadAll fs p queue).modules := by
  induction p, queue using loadAll.induct fs with
  | case1 p =>
    rw [loadAll]
    exact h
  | case2 p module queue hfull =>
    rw [loadAll, if_pos hfull]
    exact h
  | case3 p module queue hfull hknown ih =>
    rw [loadAll, if_neg hfull, if_pos hknown]
    exact ih h
  | case4 p module queue hfull hknown next ih =>
    rw [loadAll, if_neg hfull, if_neg hknown]
    obtain ⟨n, hmodules⟩ := exists_modules_add p module (loadModule fs module)
    refine ih ?_
    rw [hmodules]
    exact List.mem_append_left _ h

/-- **The same files are loaded where all paths that are looked at read the same.** -/
theorem loadAll_of_probed {fs fs' : FileSystem} {p : Program} {queue : List Path}
    (h : ∀ m ∈ (loadAll fs p queue).modules, ∀ q ∈ probedCandidates fs m.1,
      fs'.read q = fs.read q) :
    loadAll fs' p queue = loadAll fs p queue := by
  induction p, queue using loadAll.induct fs with
  | case1 p => rw [loadAll, loadAll]
  | case2 p module queue hfull => rw [loadAll, loadAll, if_pos hfull, if_pos hfull]
  | case3 p module queue hfull hknown ih =>
    rw [loadAll, if_neg hfull, if_pos hknown] at h
    rw [loadAll, loadAll, if_neg hfull, if_neg hfull, if_pos hknown, if_pos hknown]
    exact ih h
  | case4 p module queue hfull hknown next ih =>
    rw [loadAll, if_neg hfull, if_neg hknown] at h
    obtain ⟨n, hmodules⟩ := exists_modules_add p module (loadModule fs module)
    have hmem : (module, n) ∈ (p.add module (loadModule fs module)).modules := by
      rw [hmodules]
      exact List.mem_append_right _ (List.mem_singleton.mpr rfl)
    -- the module is still known at the end, so its candidates read alike
    have hmodule := loadModule_of_probed (h (module, n) (mem_modules_loadAll fs hmem))
    rw [loadAll, loadAll, if_neg hfull, if_neg hfull, if_neg hknown, if_neg hknown, hmodule]
    exact ih h

end Program

/-- **The same context is built where all paths that are looked at read the same.** -/
theorem build_of_probed {fs fs' : FileSystem} {path : Path} {text : String} {c : Context}
    (h : Context.build fs path text = .ok c) (hprobes : ∀ q ∈ c.probes fs, fs'.read q = fs.read q) :
    Context.build fs' path text = .ok c := by
  obtain ⟨hfile, p, hload, rfl⟩ := build_eq_ok_iff.mp h
  refine build_eq_ok_iff.mpr ⟨?_, p, ?_, rfl⟩
  · rw [FileSystem.isFile_of_read (hprobes path List.mem_cons_self)]
    exact hfile
  · unfold Program.load at hload ⊢
    cases hs : Source.read path text with
    | none =>
      rw [hs] at hload
      cases hload
    | some s =>
      rw [hs] at hload
      obtain rfl := Option.some.inj hload
      refine congrArg some (Program.loadAll_of_probed ?_)
      intro m hm q hq
      exact hprobes q (List.mem_cons_of_mem _ (List.mem_flatMap.mpr ⟨m, hm, hq⟩))

end ElementManifest

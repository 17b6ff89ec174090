import ElementManifest.Proofs.Discovery
import ElementManifest.Proofs.Searches

/-!
# Programs are closed under their links

What a search through the links of a program meets is in the program. A search that starts
at one of its files looks at no others, since what is kept about modules are files that are
there (`searchedAlike_withMore`). And unless the program is full, each link of each file leads to
the file that the file system has for it, if it has one:

> `load_closed`: the program of a root file is closed under its links.

Programs are loaded turn by turn of the queue; a number of turns that is enough can be run
(`load_of_loadWithin`).
-/

namespace ElementManifest

open ElementManifest.TypeScript

namespace Program

variable {fs : FileSystem} {root : SourceFile} {p : Program}

/-! ## Searches stay among the files -/

/-- Whether the file of every module is one of the files. -/
def WithinFiles (p : Program) : Prop :=
  ∀ m n, (m, some n) ∈ p.modules → n < p.files.length

/-- The program with more files behind its own. -/
def withMore (p : Program) (more : List SourceFile) : Program :=
  { p with files := p.files ++ more }

theorem WithinFiles.lt_of_moduleFile? (h : p.WithinFiles) {m : Path} {n : Nat}
    (hn : p.moduleFile? m = some n) : n < p.files.length := by
  obtain ⟨⟨m', r⟩, hfind, hr⟩ := Option.bind_eq_some_iff.mp hn
  obtain rfl : r = some n := hr
  exact h m' n (List.mem_of_find?_eq_some hfind)

theorem getElem?_withMore (p : Program) (more : List SourceFile) {file : Nat}
    (h : file < p.files.length) : (p.withMore more).files[file]? = p.files[file]? :=
  List.getElem?_append_left h

/-- A search that starts at a file of the program looks at no files behind its own. -/
theorem searchedAlike_withMore (h : p.WithinFiles) (more : List SourceFile) :
    p.SearchedAlike (· < p.files.length) Eq (p.withMore more) where
  modules _ := rfl
  stays _ _ hm := h.lt_of_moduleFile? hm
  files file hfile := by
    rw [getElem?_withMore p more hfile]
    cases p.files[file]? with
    | none => exact .none
    | some f => exact .some (f.linksAlike_self file)

theorem lookup_withMore (h : p.WithinFiles) (more : List SourceFile) {file : Nat}
    (hfile : file < p.files.length) (name : String) :
    (p.withMore more).lookup file name = p.lookup file name :=
  (rel_eq_iff.mp ((searchedAlike_withMore h more).lookup hfile name)).symm

theorem findType_withMore (h : p.WithinFiles) (more : List SourceFile) {file : Nat}
    (hfile : file < p.files.length) (name : String) :
    (p.withMore more).findType file name = p.findType file name :=
  (rel_eq_iff.mp ((searchedAlike_withMore h more).findType hfile name)).symm

/-! ## Closed programs -/

/-- A program that holds what the links of its root lead to, as far as there is room. -/
structure Closed (fs : FileSystem) (root : SourceFile) (p : Program) : Prop where
  root_eq : p.files[rootFile]? = some root
  length_le : p.files.length ≤ maxFiles
  /-- The files are in the order of a search in breadth. -/
  breadth_first : ∀ n, maxFiles ≤ n + 1 → p.files = (reached fs root n).take maxFiles
  /-- A file that is not the root is loaded for a link of a file before it. -/
  discovered : ∀ n g, p.files[n + 1]? = some g →
    ∃ i f, i ≤ n ∧ p.files[i]? = some f ∧ ∃ m ∈ f.linkedModules, LoadedFrom fs m g
  /-- What is kept about a module is one of the files. -/
  within : p.WithinFiles
  /-- So a search never looks for a file that is not there. -/
  inside : ∀ more file name, file < p.files.length →
    (p.withMore more).lookup file name = p.lookup file name ∧
    (p.withMore more).findType file name = p.findType file name
  /-- Each link leads to the file with the path that is loaded for it. -/
  resolved : p.files.length < maxFiles → ∀ f ∈ p.files, ∀ m ∈ f.linkedModules,
    (p.moduleFile? m).isSome = (loadModule fs m).isSome ∧
    ∀ g, loadModule fs m = some g → ∀ n, p.moduleFile? m = some n ↔
      ∃ f', p.files[n]? = some f' ∧ f'.path.same g.path = true

theorem Explored.withinFiles {done : List Path} (h : Explored fs root done p) :
    p.WithinFiles := by
  intro m n hmem
  obtain ⟨-, hr⟩ := h.modules_eq m _ hmem
  obtain ⟨g, -, hg⟩ := Option.bind_eq_some_iff.mp hr.symm
  obtain ⟨f, hf, -⟩ := (position?_eq_some_iff h.apart g.path n).mp hg
  exact (List.getElem?_eq_some_iff.mp hf).1

theorem Explored.moduleFile?_eq_some_iff {done rest : List Path} (h : Explored fs root done p)
    (hlinks : done ++ rest = linksOf p.files) {m : Path} (hm : m ∈ done) {g : SourceFile}
    (hg : loadModule fs m = some g) (n : Nat) :
    p.moduleFile? m = some n ↔ ∃ f, p.files[n]? = some f ∧ f.path.same g.path = true := by
  rw [h.moduleFile?_eq hlinks hm, hg]
  exact position?_eq_some_iff h.apart g.path n

theorem Explored.isSome_moduleFile? {done rest : List Path} (h : Explored fs root done p)
    (hlinks : done ++ rest = linksOf p.files) {m : Path} (hm : m ∈ done) :
    (p.moduleFile? m).isSome = (loadModule fs m).isSome := by
  rw [h.moduleFile?_eq hlinks hm]
  cases hg : loadModule fs m with
  | none => rfl
  | some g =>
    obtain ⟨n, hn⟩ := h.exists_position? hm hg
    rw [Option.bind_some, hn]
    rfl

/-- **The program of a root file is closed under its links.** -/
theorem load_closed {fs : FileSystem} {path : Path} {text : String} {s : Source}
    (hs : Source.read path text = some s) :
    ∃ p, load fs path text = some p ∧ Closed fs (.ofSource path s) p := by
  obtain ⟨p, hload⟩ : ∃ p, load fs path text = some p := by
    unfold load
    rw [hs]
    exact ⟨_, rfl⟩
  obtain ⟨s', done, rest, hs', h, hlinks, hend⟩ := exists_explored_of_load hload
  obtain rfl : s = s' := Option.some.inj (hs.symm.trans hs')
  refine ⟨p, hload, ?_, h.length_le, ?_, ?_, h.withinFiles, ?_, ?_⟩
  · obtain ⟨later, hlater⟩ := h.root_first
    rw [← hlater]
    rfl
  · intro n hn
    exact h.files_eq_reached hlinks hend hn
  · intro n g hg
    obtain ⟨i, f, hi, hf, m, hm, hg⟩ := h.discovered hg
    exact ⟨i, f, hi, hf, m, hm, loadedFrom_of_loadModule hg⟩
  · intro more file name hfile
    exact ⟨lookup_withMore h.withinFiles more hfile name,
      findType_withMore h.withinFiles more hfile name⟩
  · intro hroom f hf m hm
    have hdone : m ∈ done := mem_done_of_room hlinks hend hroom hf hm
    refine ⟨h.isSome_moduleFile? hlinks hdone, ?_⟩
    intro g hg n
    exact h.moduleFile?_eq_some_iff hlinks hdone hg n

/-! ## Loading in so many turns -/

/-- Load the modules in a queue, if it ends in at most `n` turns. -/
def loadAllWithin (fs : FileSystem) : Nat → Program → List Path → Option Program
  | 0, _, _ => none
  | _ + 1, p, [] => some p
  | n + 1, p, module :: queue =>
    if maxFiles ≤ p.files.length then some p
    else if p.knows module then loadAllWithin fs n p queue
    else
      let next := p.add module (loadModule fs module)
      loadAllWithin fs n next (queue ++ newModules p next)

/-- Load the program of a root file, if it is loaded in at most `n` turns. -/
def loadWithin (fs : FileSystem) (n : Nat) (path : Path) (text : String) : Option Program := do
  let root := SourceFile.ofSource path (← Source.read path text)
  loadAllWithin fs n (ofRoot root) root.linkedModules

theorem loadAll_of_loadAllWithin {n : Nat} {queue : List Path} {q : Program}
    (h : loadAllWithin fs n p queue = some q) : loadAll fs p queue = q := by
  induction n generalizing p queue with
  | zero => cases h
  | succ n ih =>
    cases queue with
    | nil =>
      rw [loadAll]
      exact Option.some.inj h
    | cons module queue =>
      rw [loadAll]
      rw [loadAllWithin] at h
      split
      next hfull =>
        rw [if_pos hfull] at h
        exact Option.some.inj h
      next hfull =>
        rw [if_neg hfull] at h
        split
        next hknown =>
          rw [if_pos hknown] at h
          exact ih h
        next hknown =>
          rw [if_neg hknown] at h
          exact ih h

theorem load_of_loadWithin {n : Nat} {path : Path} {text : String}
    (h : loadWithin fs n path text = some p) : load fs path text = some p := by
  unfold loadWithin at h
  obtain ⟨s, hs, hwithin⟩ := Option.bind_eq_some_iff.mp h
  unfold load
  rw [hs]
  exact congrArg some (loadAll_of_loadAllWithin hwithin)

/-! ## A circle of two files -/

/-- The text of a root that links to its other file under two names. -/
def circleText : String :=
  "import { B } from './b';\nexport { B as C } from './b.js';\n" ++
    "export type XConfigType = \x7b b: B \x7d;"

/-- A root and another file that bring in names from each other. -/
def circleFiles : FileSystem :=
  ⟨.directory [("x.types.ts", .file (some circleText)),
    ("b.ts", .file (some ("import { XConfigType } from './x.types';\n" ++
      "export type B = \x7b x: XConfigType \x7d;")))], []⟩

theorem load_closed_circle :
    ∃ s p, Source.read onePath circleText = some s ∧
      load circleFiles onePath circleText = some p ∧ Closed circleFiles (.ofSource onePath s) p ∧
      p.files.map (·.path.text) = ["x.types.ts", "b.ts"] := by
  have hfiles : (loadWithin circleFiles 5 onePath circleText).map
      (fun p => p.files.map (·.path.text)) = some ["x.types.ts", "b.ts"] := by
    decide +kernel
  obtain ⟨p, hwithin, hpaths⟩ := Option.map_eq_some_iff.mp hfiles
  obtain ⟨s, hs, -⟩ := exists_source_of_load (load_of_loadWithin hwithin)
  obtain ⟨p', hload, hclosed⟩ : ∃ p', load circleFiles onePath circleText = some p' ∧
      Closed circleFiles (.ofSource onePath s) p' := load_closed hs
  obtain rfl : p = p' := Option.some.inj ((load_of_loadWithin hwithin).symm.trans hload)
  exact ⟨s, p, hs, hload, hclosed, hpaths⟩

end Program

end ElementManifest

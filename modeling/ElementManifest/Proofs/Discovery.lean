import ElementManifest.Proofs.FileLinks
import ElementManifest.Proofs.NormalPaths

/-!
# How the files of a program are found

Loading works off a queue of modules. At each moment the modules that are done, with those
in the queue behind them, are the links of the files that are there, file by file; and the
files are those that the modules done so far have led to, each path once:

> `Explored.add`, `Explored.skip`: what a turn of the queue keeps.

> `explored_loadAll`: what the whole run keeps.

So the order of the files is that of a search through the links in breadth
(`Explored.files_eq_reached`), and what a program says about a module is what the file
system says (`Explored.moduleFile?_eq`).
-/

namespace ElementManifest

open ElementManifest.TypeScript

/-! ## Files with different paths -/

/-- Whether two files have different paths. -/
def SourceFile.Apart (f g : SourceFile) : Prop :=
  f.path.same g.path = false

/-- A file behind others, if none of them has its path. -/
def addFile (files : List SourceFile) (f : SourceFile) : List SourceFile :=
  if files.any (·.path.same f.path) then files else files ++ [f]

theorem prefix_foldl_addFile (files more : List SourceFile) :
    ∃ new, more.foldl addFile files = files ++ new ∧ new ⊆ more := by
  induction more generalizing files with
  | nil => exact ⟨[], (List.append_nil _).symm, List.Subset.refl _⟩
  | cons f more ih =>
    rw [List.foldl_cons, addFile]
    split
    next =>
      obtain ⟨new, heq, hsub⟩ := ih files
      exact ⟨new, heq, List.subset_cons_of_subset f hsub⟩
    next =>
      obtain ⟨new, heq, hsub⟩ := ih (files ++ [f])
      refine ⟨f :: new, ?_, List.cons_subset_cons f hsub⟩
      rw [heq, List.append_assoc, List.singleton_append]

theorem foldl_addFile_mono (files : List SourceFile) {more others : List SourceFile}
    (h : more <+: others) : more.foldl addFile files <+: others.foldl addFile files := by
  obtain ⟨rest, rfl⟩ := h
  rw [List.foldl_append]
  obtain ⟨new, heq, -⟩ := prefix_foldl_addFile (more.foldl addFile files) rest
  rw [heq]
  exact List.prefix_append _ _

/-- Every file has its path among those that are kept. -/
theorem any_foldl_addFile {files more : List SourceFile} {f : SourceFile} (h : f ∈ more) :
    (more.foldl addFile files).any (·.path.same f.path) = true := by
  obtain ⟨before, after, rfl⟩ := List.append_of_mem h
  rw [List.foldl_append, List.foldl_cons]
  obtain ⟨new, heq, -⟩ := prefix_foldl_addFile (addFile (before.foldl addFile files) f) after
  rw [heq, List.any_append, Bool.or_eq_true]
  refine Or.inl ?_
  unfold addFile
  split
  next hany => exact hany
  next =>
    rw [List.any_append, List.any_cons, (Path.same_iff _ _).mpr rfl]
    simp

theorem pairwise_foldl_addFile {files : List SourceFile} (h : files.Pairwise SourceFile.Apart)
    (more : List SourceFile) : (more.foldl addFile files).Pairwise SourceFile.Apart := by
  induction more generalizing files with
  | nil => exact h
  | cons f more ih =>
    rw [List.foldl_cons]
    apply ih
    unfold addFile
    split
    next => exact h
    next hnone =>
      refine List.pairwise_append.mpr ⟨h, List.pairwise_singleton _ _, ?_⟩
      intro g hg f' hf'
      rw [List.mem_singleton.mp hf']
      rw [Bool.not_eq_true, List.any_eq_false] at hnone
      simpa [SourceFile.Apart] using hnone g hg

namespace Program

/-- A file is loaded for a module: from the first of its candidates that is a file. -/
structure LoadedFrom (fs : FileSystem) (module : Path) (file : SourceFile) : Prop where
  first : ∃ before after, fileCandidates module = before ++ file.path :: after ∧
    (∀ q ∈ before, fs.isFile q = false) ∧ fs.isFile file.path = true
  read : ∃ text, fs.read file.path = .ok text ∧ Source.read file.path text = some file.source
  indexed : file = .ofSource file.path file.source

theorem loadedFrom_of_loadModule {fs : FileSystem} {module : Path} {file : SourceFile}
    (h : loadModule fs module = some file) : LoadedFrom fs module file := by
  unfold loadModule at h
  obtain ⟨path, hpath, h⟩ := Option.bind_eq_some_iff.mp h
  obtain ⟨text, htext, h⟩ := Option.bind_eq_some_iff.mp h
  obtain ⟨s, hs, h⟩ := Option.bind_eq_some_iff.mp h
  obtain rfl : SourceFile.ofSource path s = file := Option.some.inj h
  obtain ⟨hfile, before, after, hsplit, hbefore⟩ := List.find?_eq_some_iff_append.mp hpath
  refine ⟨⟨before, after, hsplit, ?_, hfile⟩, ⟨text, ?_, hs⟩, rfl⟩
  · intro q hq
    simpa using hbefore q hq
  · show fs.read path = .ok text
    cases hread : fs.read path with
    | error error =>
      rw [hread] at htext
      cases htext
    | ok text' =>
      rw [hread] at htext
      exact congrArg Except.ok (Option.some.inj htext)

theorem LoadedFrom.mem_fileCandidates {fs : FileSystem} {module : Path} {file : SourceFile}
    (h : LoadedFrom fs module file) : file.path ∈ fileCandidates module := by
  obtain ⟨before, after, hsplit, -⟩ := h.first
  rw [hsplit]
  exact List.mem_append_right _ List.mem_cons_self

/-- The links of files, file by file. -/
def linksOf (files : List SourceFile) : List Path :=
  files.flatMap SourceFile.linkedModules

/-- The root with the files that modules lead to, in order, each path once. -/
def filesOf (fs : FileSystem) (root : SourceFile) (modules : List Path) : List SourceFile :=
  (modules.filterMap (loadModule fs)).foldl addFile [root]

/-- The files that at most so many links lead to from the root: the root, then the files of its
links, then the files of their links, and so on. -/
def reached (fs : FileSystem) (root : SourceFile) : Nat → List SourceFile
  | 0 => [root]
  | n + 1 => filesOf fs root (linksOf (reached fs root n))

theorem linksOf_append (files more : List SourceFile) :
    linksOf (files ++ more) = linksOf files ++ linksOf more :=
  List.flatMap_append

theorem linksOf_mono {files others : List SourceFile} (h : files <+: others) :
    linksOf files <+: linksOf others := by
  obtain ⟨more, rfl⟩ := h
  rw [linksOf_append]
  exact List.prefix_append _ _

theorem filesOf_mono (fs : FileSystem) (root : SourceFile) {modules others : List Path}
    (h : modules <+: others) : filesOf fs root modules <+: filesOf fs root others :=
  foldl_addFile_mono _ (h.filterMap _)

theorem root_prefix_filesOf (fs : FileSystem) (root : SourceFile) (modules : List Path) :
    [root] <+: filesOf fs root modules :=
  filesOf_mono fs root List.nil_prefix

/-- One more round keeps what was reached, at its place. -/
theorem reached_prefix_succ (fs : FileSystem) (root : SourceFile) (n : Nat) :
    reached fs root n <+: reached fs root (n + 1) := by
  induction n with
  | zero => exact root_prefix_filesOf fs root _
  | succ n ih => exact filesOf_mono fs root (linksOf_mono ih)

/-! ## The queue -/

/-- A program in which the modules `done` have been looked for. -/
structure Explored (fs : FileSystem) (root : SourceFile) (done : List Path) (p : Program) :
    Prop where
  files_eq : p.files = filesOf fs root done
  /-- Each file is found through links of the files before it. -/
  early : ∀ n, n + 1 < p.files.length →
    p.files.take (n + 2) <+: filesOf fs root (linksOf (p.files.take (n + 1)))
  modules_eq : ∀ m r, (m, r) ∈ p.modules →
    m ∈ done ∧ r = (loadModule fs m).bind fun g => p.position? g.path
  known : ∀ m ∈ done, p.knows m = true
  indexed : ∀ f ∈ p.files, f = .ofSource f.path f.source
  length_le : p.files.length ≤ maxFiles

variable {fs : FileSystem} {root : SourceFile} {done : List Path} {p : Program}

/-- The file of a module that is done is there, under its path. -/
theorem Explored.exists_position? (h : Explored fs root done p) {m : Path} (hm : m ∈ done)
    {g : SourceFile} (hg : loadModule fs m = some g) : ∃ n, p.position? g.path = some n := by
  have hany : p.files.any (·.path.same g.path) = true := by
    rw [h.files_eq]
    exact any_foldl_addFile (List.mem_filterMap.mpr ⟨m, hm, hg⟩)
  unfold position?
  exact Option.isSome_iff_exists.mp (List.findIdx?_isSome.trans hany)

theorem Explored.eq_normalize (h : Explored fs root done p) {rest : List Path}
    (hlinks : done ++ rest = linksOf p.files) {m : Path} (hm : m ∈ done ++ rest) :
    ∃ q : Path, m = q.normalize := by
  rw [hlinks] at hm
  obtain ⟨f, hf, hlinked⟩ := List.mem_flatMap.mp hm
  rw [h.indexed f hf] at hlinked
  exact eq_normalize_of_mem_linkedModules hlinked

/-- A module that is known has been done, with the same spelling. -/
theorem Explored.mem_done_of_knows (h : Explored fs root done p) {rest : List Path}
    (hlinks : done ++ rest = linksOf p.files) {module : Path} (hm : module ∈ done ++ rest)
    (hknown : p.knows module = true) : module ∈ done := by
  obtain ⟨⟨m, r⟩, hmem, hsame⟩ := List.any_eq_true.mp hknown
  obtain ⟨hdone, -⟩ := h.modules_eq m r hmem
  obtain ⟨q, rfl⟩ := h.eq_normalize hlinks (List.mem_append_left _ hdone)
  obtain ⟨q', rfl⟩ := h.eq_normalize hlinks hm
  exact Path.normalize_eq_of_same hsame ▸ hdone

theorem filesOf_concat (fs : FileSystem) (root : SourceFile) (done : List Path) (module : Path) :
    filesOf fs root (done ++ [module]) =
      match loadModule fs module with
      | none => filesOf fs root done
      | some g => addFile (filesOf fs root done) g := by
  unfold filesOf
  rw [List.filterMap_append, List.foldl_append, List.filterMap_cons, List.filterMap_nil]
  cases loadModule fs module with
  | none => rfl
  | some g => rfl

theorem any_files_iff (p : Program) (path : Path) :
    p.files.any (·.path.same path) = true ↔ ∃ n, p.position? path = some n := by
  unfold position?
  rw [← List.findIdx?_isSome, Option.isSome_iff_exists]

/-- A module that is known is passed over. -/
theorem Explored.skip (h : Explored fs root done p) {module : Path} (hdone : module ∈ done) :
    Explored fs root (done ++ [module]) p where
  files_eq := by
    rw [filesOf_concat, ← h.files_eq]
    cases hg : loadModule fs module with
    | none => rfl
    | some g =>
      have hany := (any_files_iff p g.path).mpr (h.exists_position? hdone hg)
      show p.files = addFile p.files g
      unfold addFile
      rw [if_pos hany]
  early := h.early
  modules_eq := by
    intro m r hmem
    obtain ⟨hm, hr⟩ := h.modules_eq m r hmem
    exact ⟨List.mem_append_left _ hm, hr⟩
  known := by
    intro m hm
    rcases List.mem_append.mp hm with hm | hm
    · exact h.known m hm
    · rw [List.mem_singleton.mp hm]
      exact h.known module hdone
  indexed := h.indexed
  length_le := h.length_le

theorem position?_append {next : Program} {path : Path} {n : Nat} (more : List SourceFile)
    (hfiles : next.files = p.files ++ more) (h : p.position? path = some n) :
    next.position? path = some n := by
  unfold position? at h ⊢
  rw [hfiles, List.findIdx?_append, h]
  rfl

/-- What a module adds: its answer, and its file if no file has that path. -/
theorem add_eq (p : Program) (module : Path) (file : Option SourceFile) :
    ∃ r, (p.add module file).modules = p.modules ++ [(module, r)] ∧
      r = file.bind (fun g => (p.add module file).position? g.path) ∧
      (p.add module file).files = match file with
        | none => p.files
        | some g => addFile p.files g := by
  cases file with
  | none => exact ⟨none, rfl, rfl, rfl⟩
  | some g =>
    unfold add addFile
    dsimp only [Option.bind_some]
    cases hg : p.position? g.path with
    | some n =>
      have hany := (any_files_iff p g.path).mpr ⟨n, hg⟩
      refine ⟨some n, rfl, hg.symm, ?_⟩
      rw [if_pos hany]
    | none =>
      have hany : ¬p.files.any (·.path.same g.path) = true := by
        rw [any_files_iff, hg]
        exact nofun
      refine ⟨some p.files.length, rfl, ?_, ?_⟩
      · unfold position? at hg ⊢
        rw [List.findIdx?_append, hg, List.findIdx?_cons, (Path.same_iff _ _).mpr rfl]
        simp
      · rw [if_neg hany]

theorem mem_files_add {module : Path} {file : Option SourceFile} {f : SourceFile}
    (h : f ∈ (p.add module file).files) : f ∈ p.files ∨ file = some f := by
  obtain ⟨r, -, -, hfiles⟩ := add_eq p module file
  rw [hfiles] at h
  cases file with
  | none => exact Or.inl h
  | some g =>
    change f ∈ addFile p.files g at h
    unfold addFile at h
    split at h
    next => exact Or.inl h
    next =>
      rcases List.mem_append.mp h with h | h
      · exact Or.inl h
      · exact Or.inr (congrArg some (List.mem_singleton.mp h).symm)

theorem knows_add {module m : Path} (file : Option SourceFile) (h : p.knows m = true ∨ m = module) :
    (p.add module file).knows m = true := by
  obtain ⟨r, hmodules, -, -⟩ := add_eq p module file
  unfold knows
  rw [hmodules, List.any_append, Bool.or_eq_true]
  rcases h with h | rfl
  · exact Or.inl h
  · refine Or.inr ?_
    rw [List.any_cons, (Path.same_iff _ _).mpr rfl]
    rfl

theorem Explored.files_add (h : Explored fs root done p) (module : Path) :
    (p.add module (loadModule fs module)).files = filesOf fs root (done ++ [module]) := by
  obtain ⟨r, -, -, hfiles⟩ := add_eq p module (loadModule fs module)
  rw [hfiles, filesOf_concat, ← h.files_eq]

theorem Explored.early_add (h : Explored fs root done p) {module : Path} {queue : List Path}
    (hlinks : done ++ module :: queue = linksOf p.files) {n : Nat}
    (hn : n + 1 < (p.add module (loadModule fs module)).files.length) :
    (p.add module (loadModule fs module)).files.take (n + 2) <+:
      filesOf fs root (linksOf ((p.add module (loadModule fs module)).files.take (n + 1))) := by
  obtain ⟨more, hmore⟩ := exists_files_add p module (loadModule fs module)
  have hlength := length_files_add p module (loadModule fs module)
  by_cases hold : n + 1 < p.files.length
  · rw [hmore, List.take_append_of_le_length (by omega),
      List.take_append_of_le_length (by omega)]
    exact h.early n hold
  · -- the new file comes of a link of the files that were there before
    have hall : n + 1 = p.files.length := by omega
    have hlast : (p.add module (loadModule fs module)).files.length = n + 2 := by omega
    have hbefore : (p.add module (loadModule fs module)).files.take (n + 1) = p.files := by
      rw [hmore, hall, List.take_left]
    rw [hbefore, List.take_of_length_le (Nat.le_of_eq hlast), h.files_add module, ← hlinks]
    exact filesOf_mono fs root ⟨queue, by simp⟩

/-- What was said about the modules that are done still holds when a file is added. -/
theorem Explored.modules_add (h : Explored fs root done p) {module m : Path} {r : Option Nat}
    (hmem : (m, r) ∈ (p.add module (loadModule fs module)).modules) :
    m ∈ done ++ [module] ∧ r = (loadModule fs m).bind fun g =>
      (p.add module (loadModule fs module)).position? g.path := by
  obtain ⟨r', hmodules, hr', -⟩ := add_eq p module (loadModule fs module)
  obtain ⟨more, hmore⟩ := exists_files_add p module (loadModule fs module)
  rw [hmodules] at hmem
  rcases List.mem_append.mp hmem with hmem | hmem
  · obtain ⟨hm, hr⟩ := h.modules_eq m r hmem
    refine ⟨List.mem_append_left _ hm, ?_⟩
    rw [hr]
    refine Option.bind_congr ?_
    intro g hg
    obtain ⟨n, hn⟩ := h.exists_position? hm hg
    rw [hn, position?_append more hmore hn]
  · cases List.mem_singleton.mp hmem
    exact ⟨List.mem_append_right _ (List.mem_singleton_self _), hr'⟩

/-- A module that is not known is looked for. -/
theorem Explored.add (h : Explored fs root done p) {module : Path} {queue : List Path}
    (hlinks : done ++ module :: queue = linksOf p.files) (hroom : p.files.length < maxFiles) :
    Explored fs root (done ++ [module]) (p.add module (loadModule fs module)) where
  files_eq := h.files_add module
  early _ hn := h.early_add hlinks hn
  modules_eq _ _ hmem := h.modules_add hmem
  known := by
    intro m hm
    rcases List.mem_append.mp hm with hm | hm
    · exact knows_add _ (Or.inl (h.known m hm))
    · exact knows_add _ (Or.inr (List.mem_singleton.mp hm))
  indexed := by
    intro f hf
    rcases mem_files_add hf with hf | hload
    · exact h.indexed f hf
    · exact (loadedFrom_of_loadModule hload).indexed
  length_le := by
    have hlength := length_files_add p module (loadModule fs module)
    omega

/-- The whole run keeps it: at its end the queue is empty, or the program is full. -/
theorem explored_loadAll (fs : FileSystem) (root : SourceFile) (p : Program)
    (queue : List Path) :
    ∀ done, Explored fs root done p → done ++ queue = linksOf p.files →
      ∃ done' rest, Explored fs root done' (loadAll fs p queue) ∧
        done' ++ rest = linksOf (loadAll fs p queue).files ∧
        (rest = [] ∨ maxFiles ≤ (loadAll fs p queue).files.length) := by
  induction p, queue using loadAll.induct fs with
  | case1 p =>
    intro done h hlinks
    rw [loadAll]
    exact ⟨done, [], h, hlinks, Or.inl rfl⟩
  | case2 p module queue hfull =>
    intro done h hlinks
    rw [loadAll, if_pos hfull]
    exact ⟨done, module :: queue, h, hlinks, Or.inr hfull⟩
  | case3 p module queue hfull hknown ih =>
    intro done h hlinks
    rw [loadAll, if_neg hfull, if_pos hknown]
    have hdone : module ∈ done :=
      h.mem_done_of_knows hlinks (List.mem_append_right _ List.mem_cons_self) hknown
    refine ih (done ++ [module]) (h.skip hdone) ?_
    rw [List.append_assoc, List.singleton_append, hlinks]
  | case4 p module queue hfull hknown next ih =>
    intro done h hlinks
    rw [loadAll, if_neg hfull, if_neg hknown]
    refine ih (done ++ [module]) (h.add hlinks (Nat.lt_of_not_le hfull)) ?_
    -- the links of the new files have gone to the end of the queue
    obtain ⟨more, hmore⟩ := exists_files_add p module (loadModule fs module)
    have hfiles : next.files = p.files ++ more := hmore
    have hnew : newModules p next = linksOf more := by
      unfold newModules
      rw [hfiles, List.drop_left]
      rfl
    rw [hnew, hfiles, linksOf_append, ← hlinks]
    simp

theorem explored_ofRoot (path : Path) (s : Source) :
    Explored fs (.ofSource path s) [] (ofRoot (.ofSource path s)) where
  files_eq := rfl
  early := by
    intro n hn
    exact absurd hn (by simp [ofRoot])
  modules_eq := nofun
  known := nofun
  indexed := by
    intro f hf
    rw [List.mem_singleton.mp hf]
    rfl
  length_le := Nat.le_of_ble_eq_true rfl

/-- How a program has been loaded. -/
theorem exists_explored_of_load {path : Path} {text : String} (h : load fs path text = some p) :
    ∃ s done rest, Source.read path text = some s ∧ Explored fs (.ofSource path s) done p ∧
      done ++ rest = linksOf p.files ∧ (rest = [] ∨ maxFiles ≤ p.files.length) := by
  unfold load at h
  obtain ⟨s, hs, h⟩ := Option.bind_eq_some_iff.mp h
  obtain ⟨done, rest, hexplored, hlinks, hend⟩ := explored_loadAll fs (.ofSource path s) _
    (SourceFile.ofSource path s).linkedModules [] (explored_ofRoot path s)
    (by simp [linksOf, ofRoot])
  obtain rfl := Option.some.inj h
  exact ⟨s, done, rest, hs, hexplored, hlinks, hend⟩

/-- In a program that is not full, every link is done. -/
theorem mem_done_of_room {rest : List Path} (hlinks : done ++ rest = linksOf p.files)
    (hend : rest = [] ∨ maxFiles ≤ p.files.length) (hroom : p.files.length < maxFiles)
    {f : SourceFile} {m : Path} (hf : f ∈ p.files) (hm : m ∈ f.linkedModules) : m ∈ done := by
  obtain rfl : rest = [] := hend.resolve_right (Nat.not_le.mpr hroom)
  rw [List.append_nil] at hlinks
  rw [hlinks]
  exact List.mem_flatMap.mpr ⟨f, hf, hm⟩

/-! ## The order of the files -/

theorem Explored.root_first (h : Explored fs root done p) : [root] <+: p.files := by
  rw [h.files_eq]
  exact root_prefix_filesOf fs root done

/-- The first files are found by few links. -/
theorem Explored.take_prefix_reached (h : Explored fs root done p) (n : Nat) :
    p.files.take (n + 1) <+: reached fs root n := by
  induction n with
  | zero =>
    have htake : [root] = p.files.take 1 := List.prefix_iff_eq_take.mp h.root_first
    exact ⟨[], (List.append_nil _).trans htake.symm⟩
  | succ n ih =>
    by_cases hmore : n + 1 < p.files.length
    · exact (h.early n hmore).trans (filesOf_mono fs root (linksOf_mono ih))
    · have hall : p.files.length ≤ n + 1 := Nat.le_of_not_lt hmore
      rw [List.take_of_length_le hall] at ih
      rw [List.take_of_length_le (Nat.le_succ_of_le hall)]
      exact ih.trans (reached_prefix_succ fs root n)

/-- If nothing is left in the queue, then nothing else is reached. -/
theorem Explored.reached_prefix_files (h : Explored fs root done p) (hend : done = linksOf p.files)
    (n : Nat) : reached fs root n <+: p.files := by
  induction n with
  | zero => exact h.root_first
  | succ n ih =>
    rw [h.files_eq, hend]
    exact filesOf_mono fs root (linksOf_mono ih)

/-- The files are those that are reached, in that order, as many as there is room for. -/
theorem Explored.files_eq_reached (h : Explored fs root done p) {rest : List Path}
    (hlinks : done ++ rest = linksOf p.files) (hend : rest = [] ∨ maxFiles ≤ p.files.length)
    {n : Nat} (hn : maxFiles ≤ n + 1) : p.files = (reached fs root n).take maxFiles := by
  have hreached : p.files <+: reached fs root n := by
    have htake := h.take_prefix_reached n
    rwa [List.take_of_length_le (h.length_le.trans hn)] at htake
  rcases hend with rfl | hfull
  · rw [List.append_nil] at hlinks
    have heq : reached fs root n = p.files :=
      (h.reached_prefix_files hlinks n).eq_of_length_le hreached.length_le
    rw [heq, List.take_of_length_le h.length_le]
  · have hlength : p.files.length = maxFiles := Nat.le_antisymm h.length_le hfull
    rw [← hlength]
    exact List.prefix_iff_eq_take.mp hreached

/-- Each file behind the root is loaded for a module that a file before it links to. -/
theorem Explored.discovered (h : Explored fs root done p) {n : Nat} {g : SourceFile}
    (hg : p.files[n + 1]? = some g) :
    ∃ i f, i ≤ n ∧ p.files[i]? = some f ∧
      ∃ m ∈ f.linkedModules, loadModule fs m = some g := by
  obtain ⟨hlt, -⟩ := List.getElem?_eq_some_iff.mp hg
  obtain ⟨new, hnew, hsub⟩ := prefix_foldl_addFile [root]
    ((linksOf (p.files.take (n + 1))).filterMap (loadModule fs))
  obtain ⟨later, hlater⟩ := h.early n hlt
  have hmem : g ∈ new := by
    have hat : (filesOf fs root (linksOf (p.files.take (n + 1))))[n + 1]? = some g := by
      rw [← hlater, List.getElem?_append_left (by simp; omega),
        List.getElem?_take_of_lt (Nat.lt_succ_self _), hg]
    unfold filesOf at hat
    rw [hnew, List.singleton_append, List.getElem?_cons_succ] at hat
    exact List.mem_of_getElem? hat
  obtain ⟨m, hm, hload⟩ := List.mem_filterMap.mp (hsub hmem)
  obtain ⟨f, hf, hlinked⟩ := List.mem_flatMap.mp hm
  obtain ⟨i, hi, hget⟩ := List.mem_take_iff_getElem.mp hf
  refine ⟨i, f, by omega, ?_, m, hlinked, hload⟩
  rw [← hget]
  exact List.getElem?_eq_getElem _

/-! ## What is said about modules -/

theorem Explored.apart (h : Explored fs root done p) : p.files.Pairwise SourceFile.Apart := by
  rw [h.files_eq]
  exact pairwise_foldl_addFile (List.pairwise_singleton _ _) _

theorem position?_eq_some_iff (h : p.files.Pairwise SourceFile.Apart) (path : Path) (n : Nat) :
    p.position? path = some n ↔ ∃ f, p.files[n]? = some f ∧ f.path.same path = true := by
  unfold position?
  rw [List.findIdx?_eq_some_iff_getElem]
  constructor
  · rintro ⟨hn, hsame, -⟩
    exact ⟨p.files[n], List.getElem?_eq_getElem hn, hsame⟩
  · rintro ⟨f, hf, hsame⟩
    obtain ⟨hn, rfl⟩ := List.getElem?_eq_some_iff.mp hf
    refine ⟨hn, hsame, ?_⟩
    intro i hi hother
    have hapart : SourceFile.Apart p.files[i] p.files[n] :=
      List.pairwise_iff_getElem.mp h i n (by omega) hn hi
    rw [Path.same_iff] at hsame hother
    have hsame' := (Path.same_iff _ _).mpr (hother.trans hsame.symm)
    unfold SourceFile.Apart at hapart
    rw [hsame'] at hapart
    cases hapart

theorem knows_of_moduleFile? {m : Path} {n : Nat} (h : p.moduleFile? m = some n) :
    p.knows m = true := by
  obtain ⟨e, hfind, -⟩ := Option.bind_eq_some_iff.mp h
  exact List.any_eq_true.mpr ⟨e, List.mem_of_find?_eq_some hfind,
    List.find?_some (p := fun e : Path × Option Nat => e.1.same m) hfind⟩

/-- What a program says about a module that is done is what the file system says. -/
theorem Explored.moduleFile?_eq (h : Explored fs root done p) {rest : List Path}
    (hlinks : done ++ rest = linksOf p.files) {m : Path} (hm : m ∈ done) :
    p.moduleFile? m = (loadModule fs m).bind fun g => p.position? g.path := by
  obtain ⟨e, hfind⟩ := Option.isSome_iff_exists.mp
    (List.find?_isSome.mpr (List.any_eq_true.mp (h.known m hm)))
  obtain ⟨m', r⟩ := e
  obtain ⟨hdone, hr⟩ := h.modules_eq m' r (List.mem_of_find?_eq_some hfind)
  have hsame : m'.same m = true :=
    List.find?_some (p := fun e : Path × Option Nat => e.1.same m) hfind
  obtain ⟨q, rfl⟩ := h.eq_normalize hlinks (List.mem_append_left _ hm)
  obtain ⟨q', rfl⟩ := h.eq_normalize hlinks (List.mem_append_left _ hdone)
  unfold moduleFile?
  rw [hfind, ← Path.normalize_eq_of_same hsame]
  exact hr

end Program

end ElementManifest

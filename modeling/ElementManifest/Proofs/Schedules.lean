import ElementManifest.Project
import ElementManifest.Proofs.CacheSteps
import ElementManifest.Proofs.Respelling
import Mathlib.Data.List.Basic

/-!
# Passes in any order

The modules of a project share a cache, so what one of them leaves there is what the next
one finds. As long as the files stay as they are this makes no difference. A cache is
`BuiltIn` the file system when every context in it would be built again now:

> `findProperties_builtIn`: which properties are found does not depend on such a cache.

> `analyzeFiles_builtIn`: so each module is analyzed as if it were alone.

A pass may take the modules in any order when the results are put back in the order of
the scan:

> `run_eq_alone`: its report is the one of modules that are analyzed alone.
-/

namespace ElementManifest

/-! ## Caches of the same files -/

namespace Cache

/-- Every kept context would be built again. -/
def BuiltIn (fs : FileSystem) (c : Cache) : Prop :=
  ∀ e ∈ c.entries, Context.build fs e.context.path e.context.text = .ok e.context

theorem builtIn_ofCapacity (fs : FileSystem) (capacity : Nat) :
    (ofCapacity capacity).BuiltIn fs :=
  nofun

theorem BuiltIn.request {fs : FileSystem} {c : Cache} (h : c.BuiltIn fs) (path : Path)
    (text : String) : (c.request fs path text).2.BuiltIn fs := by
  refine forall_entries_request (P := fun c => Context.build fs c.path c.text = .ok c) h ?_
  intro context hbuild
  obtain ⟨rfl, rfl⟩ := path_text_of_build hbuild
  exact hbuild

end Cache

/-! ## Modules with such a cache -/

namespace Analysis

theorem findResolved_respell (c : Context) (path : Path) :
    findResolved (c.respell path) = findResolved c := by
  have hcandidate : resolvedCandidate (c.respell path) = resolvedCandidate c := by
    funext name
    unfold resolvedCandidate
    rw [Context.extract_respell]
  funext candidates
  unfold findResolved
  rw [hcandidate, Context.firstConfigType_respell]

/-- What is found with names resolved in a context that is built for the purpose. -/
def findFresh (fs : FileSystem) (companion : Path) (text : String) (candidates : List String) :
    Option Finding :=
  (Context.build fs companion text).toOption.bind (findResolved · candidates)

section

variable {fs : FileSystem} (options : AnalysisOptions)

theorem findCached_builtIn {cache : Cache} (h : cache.BuiltIn fs) {companion : Path}
    (hfile : fs.isFile companion = true) (text : String) (candidates : List String) :
    (findCached fs cache companion text candidates).1 =
      findFresh fs companion text candidates := by
  have hcases := Cache.request_cases fs cache companion text
  unfold findCached findFresh
  generalize cache.request fs companion text = result at hcases
  cases hcases with
  | hit e _ kept path_same text_eq _ _ =>
    -- the context may be kept under another spelling of the path
    have hbuild := h e kept
    rw [text_eq] at hbuild
    rw [build_respell hbuild path_same hfile]
    exact (congrFun (findResolved_respell e.context companion) candidates).symm
  | built context _ build_eq _ _ =>
    rw [build_eq]
    rfl
  | failed error _ build_eq _ _ =>
    rw [build_eq]
    rfl

theorem builtIn_findCached {cache : Cache} (h : cache.BuiltIn fs) (companion : Path)
    (text : String) (candidates : List String) :
    (findCached fs cache companion text candidates).2.BuiltIn fs := by
  have hrequest := h.request companion text
  unfold findCached
  generalize cache.request fs companion text = result at hrequest
  obtain ⟨error | e, cache'⟩ := result
  · exact hrequest
  · exact hrequest

theorem builtIn_findProperties {cache : Cache} (h : cache.BuiltIn fs) (companion : Path)
    (text : String) (candidates : List String) :
    (findProperties fs options cache companion text candidates).2.BuiltIn fs := by
  unfold findProperties
  by_cases hsemantic : options.semantic = true
  · rw [if_pos hsemantic]
    exact builtIn_findCached h companion text candidates
  · rw [if_neg hsemantic]
    exact h

/-- Which properties are found does not depend on a cache of the same files. -/
theorem findProperties_builtIn {cache cache' : Cache} (h : cache.BuiltIn fs)
    (h' : cache'.BuiltIn fs) {companion : Path} (hfile : fs.isFile companion = true)
    (text : String) (candidates : List String) :
    (findProperties fs options cache companion text candidates).1 =
      (findProperties fs options cache' companion text candidates).1 := by
  unfold findProperties
  by_cases hsemantic : options.semantic = true
  · rw [if_pos hsemantic, if_pos hsemantic]
    dsimp only
    rw [findCached_builtIn h hfile, findCached_builtIn h' hfile]
  · rw [if_neg hsemantic, if_neg hsemantic]

/-- Two states with the same document, and each with a cache of the files. -/
structure Alike (fs : FileSystem) (st st' : State) : Prop where
  doc_eq : st.doc = st'.doc
  left : st.cache.BuiltIn fs
  right : st'.cache.BuiltIn fs

theorem Alike.analyzeRegistration {st st' : State} (h : Alike fs st st') (module : Path)
    (r : Registration) :
    (analyzeRegistration fs options module st r).1 =
        (analyzeRegistration fs options module st' r).1 ∧
      Alike fs (analyzeRegistration fs options module st r).2
        (analyzeRegistration fs options module st' r).2 := by
  unfold Analysis.analyzeRegistration
  cases hlocate : Companion.locate? fs module with
  | none => exact ⟨rfl, congrArg (·.register r) h.doc_eq, h.left, h.right⟩
  | some companion =>
    have hfile : fs.isFile companion = true := List.find?_some hlocate
    dsimp only
    cases fs.read companion with
    | error error => exact ⟨rfl, congrArg (·.register r) h.doc_eq, h.left, h.right⟩
    | ok text =>
      -- What the caches keep has been built from these files, so neither side can tell them
      -- apart.
      have hfound := findProperties_builtIn options h.left h.right hfile text
        (Companion.typeNames r.className (Companion.baseName? module))
      have hleft := builtIn_findProperties options h.left companion text
        (Companion.typeNames r.className (Companion.baseName? module))
      have hright := builtIn_findProperties options h.right companion text
        (Companion.typeNames r.className (Companion.baseName? module))
      dsimp only
      generalize findProperties fs options st.cache companion text _ = found at hfound hleft ⊢
      generalize findProperties fs options st'.cache companion text _ = found' at hfound hright ⊢
      obtain ⟨finding, cache⟩ := found
      obtain ⟨finding', cache'⟩ := found'
      obtain rfl : finding = finding' := hfound
      rw [h.doc_eq]
      exact ⟨rfl, rfl, hleft, hright⟩

theorem Alike.analyzeAll {st st' : State} (h : Alike fs st st') (module : Path)
    (rs : List Registration) :
    (analyzeAll fs options module st rs).1 = (analyzeAll fs options module st' rs).1 ∧
      Alike fs (analyzeAll fs options module st rs).2
        (analyzeAll fs options module st' rs).2 := by
  induction rs generalizing st st' with
  | nil => exact ⟨rfl, h⟩
  | cons r rs ih =>
    obtain ⟨houtcome, halike⟩ := h.analyzeRegistration options module r
    obtain ⟨houtcomes, hrest⟩ := ih halike
    unfold Analysis.analyzeAll
    exact ⟨congrArg₂ List.cons houtcome houtcomes, hrest⟩

end

end Analysis

namespace Project

variable {fs : FileSystem}

/-- A file is analyzed alike with any caches of the same files. -/
theorem analyzeFile_builtIn {cache cache' : Cache} (h : cache.BuiltIn fs)
    (h' : cache'.BuiltIn fs) (options : AnalysisOptions) (root file : Path) :
    (analyzeFile fs options root cache file).1 = (analyzeFile fs options root cache' file).1 ∧
      (analyzeFile fs options root cache file).2.BuiltIn fs := by
  unfold analyzeFile
  dsimp only
  cases fs.read file with
  | error error => exact ⟨rfl, h⟩
  | ok text =>
    dsimp only
    unfold Analysis.analyzeModule
    cases TypeScript.Source.read file text with
    | none => exact ⟨rfl, h⟩
    | some source =>
      have halike : Analysis.Alike fs ⟨.ofPath (modulePath root file), cache⟩
          ⟨.ofPath (modulePath root file), cache'⟩ := ⟨rfl, h, h'⟩
      obtain ⟨houtcomes, hstates⟩ := halike.analyzeAll options file
        (source.registrations options.registerFunctions)
      refine ⟨?_, hstates.left⟩
      exact congrArg₂ ModuleResult.analyzed hstates.doc_eq houtcomes

/-- Files that are analyzed with one cache are analyzed as if each were alone. -/
theorem analyzeFiles_builtIn {cache : Cache} (h : cache.BuiltIn fs) (options : AnalysisOptions)
    (root : Path) (own : Nat) (files : List Path) :
    (analyzeFiles fs options root cache files).1 =
        files.map (fun file => (analyzeFile fs options root (.ofCapacity own) file).1) ∧
      (analyzeFiles fs options root cache files).2.BuiltIn fs := by
  induction files generalizing cache with
  | nil => exact ⟨rfl, h⟩
  | cons file files ih =>
    obtain ⟨hresult, hcache⟩ :=
      analyzeFile_builtIn h (Cache.builtIn_ofCapacity fs own) options root file
    obtain ⟨hresults, hlast⟩ := ih hcache
    unfold analyzeFiles
    exact ⟨congrArg₂ List.cons hresult hresults, hlast⟩

/-! ## Passes -/

/-- An order in which files are taken, each with its place among them. -/
structure Schedule (files : List Path) where
  turns : List (Path × Nat)
  perm : turns.Perm files.zipIdx

/-- The results at their places. -/
def collect (files : List Path) (placed : List (Nat × ModuleResult)) : List ModuleResult :=
  files.zipIdx.filterMap fun turn => placed.lookup turn.2

/-- A pass over a project, and the order in which it takes the modules. -/
structure Pass (fs : FileSystem) where
  options : AnalysisOptions
  root : Path
  config : Config
  schedule :
    Schedule (scan fs root config.includes config.ignores config.ignoreTestFiles).files

namespace Pass

/-- What the pass has found to analyze. -/
def found (p : Pass fs) : ScanResult :=
  scan fs p.root p.config.includes p.config.ignores p.config.ignoreTestFiles

/-- The report of the pass, and the cache that it leaves. -/
def run (p : Pass fs) (cache : Cache) : ProjectReport × Cache :=
  let (results, cache) :=
    analyzeFiles fs p.options p.root cache (p.schedule.turns.map Prod.fst)
  let placed := (p.schedule.turns.map Prod.snd).zip results
  (report p.found (collect p.found.files placed), cache)

/-- The report when each module is analyzed with an empty cache of its own. -/
def alone (p : Pass fs) (own : Nat) : ProjectReport :=
  report p.found (p.found.files.map fun file =>
    (analyzeFile fs p.options p.root (.ofCapacity own) file).1)

/-- The cache that passes leave behind, one after the other. -/
def cacheAfter (capacity : Nat) (passes : List (Pass fs)) : Cache :=
  passes.foldl (fun cache p => (p.run cache).2) (.ofCapacity capacity)

end Pass

theorem lookup_of_mem {α : Type} {n : Nat} {a : α} {l : List (Nat × α)}
    (h : (l.map Prod.fst).Nodup) (hmem : (n, a) ∈ l) : l.lookup n = some a := by
  induction l with
  | nil => cases hmem
  | cons x l ih =>
    obtain ⟨hx, hl⟩ := List.nodup_cons.mp h
    rcases List.mem_cons.mp hmem with rfl | hmem
    · exact List.lookup_cons_self
    · have hne : (n == x.1) = false := by
        refine beq_eq_false_iff_ne.mpr ?_
        rintro rfl
        exact hx (List.mem_map.mpr ⟨_, hmem, rfl⟩)
      rw [List.lookup_cons, hne]
      exact ih hl hmem

/-- Results that are put at their places are in the order of the files. -/
theorem collect_eq {files : List Path} (s : Schedule files) (f : Path → ModuleResult) :
    collect files ((s.turns.map Prod.snd).zip ((s.turns.map Prod.fst).map f)) =
      files.map f := by
  have hplaced : (s.turns.map Prod.snd).zip ((s.turns.map Prod.fst).map f) =
      s.turns.map fun turn => (turn.2, f turn.1) := by
    rw [List.map_map, List.zip_map']
    rfl
  -- the places are those of the scan in another order, so none occurs twice
  have hnodup : ((s.turns.map fun turn => (turn.2, f turn.1)).map Prod.fst).Nodup := by
    rw [List.map_map]
    refine (s.perm.map _).nodup_iff.mpr ?_
    show (files.zipIdx.map Prod.snd).Nodup
    rw [List.zipIdx_map_snd]
    exact List.nodup_range'
  have hlookup : ∀ turn ∈ files.zipIdx,
      (s.turns.map fun turn => (turn.2, f turn.1)).lookup turn.2 = some (f turn.1) := by
    intro turn hturn
    refine lookup_of_mem hnodup ?_
    exact List.mem_map.mpr ⟨turn, s.perm.mem_iff.mpr hturn, rfl⟩
  unfold collect
  rw [hplaced, List.filterMap_eq_map_iff_forall_eq_some.mpr hlookup]
  show files.zipIdx.map (f ∘ Prod.fst) = files.map f
  rw [← List.map_map, List.zipIdx_map_fst]

namespace Pass

/-- A pass reports what is found in each module alone, in whatever order it takes them. -/
theorem run_eq_alone {cache : Cache} (h : cache.BuiltIn fs) (p : Pass fs) (own : Nat) :
    (p.run cache).1 = p.alone own ∧ (p.run cache).2.BuiltIn fs := by
  obtain ⟨hresults, hcache⟩ :=
    analyzeFiles_builtIn h p.options p.root own (p.schedule.turns.map Prod.fst)
  refine ⟨?_, hcache⟩
  unfold run alone
  dsimp only
  rw [hresults]
  exact congrArg (report p.found) (collect_eq p.schedule _)

/-- So does a pass in the order of the scan. -/
theorem analyze_eq_alone {cache : Cache} (h : cache.BuiltIn fs) (p : Pass fs) (own : Nat) :
    (analyze fs p.options cache p.root p.config).1 = p.alone own ∧
      (analyze fs p.options cache p.root p.config).2.BuiltIn fs := by
  obtain ⟨hresults, hcache⟩ := analyzeFiles_builtIn h p.options p.root own p.found.files
  exact ⟨congrArg (report p.found) hresults, hcache⟩

/-- A pass that takes the modules in the order of the scan is the analysis of the project. -/
theorem run_eq_analyze {cache : Cache} (h : cache.BuiltIn fs) {p : Pass fs}
    (hturns : p.schedule.turns = p.found.files.zipIdx) :
    p.run cache = analyze fs p.options cache p.root p.config := by
  have hreport := (run_eq_alone h p 0).1.trans (analyze_eq_alone h p 0).1.symm
  refine Prod.ext hreport ?_
  show (analyzeFiles fs p.options p.root cache (p.schedule.turns.map Prod.fst)).2 = _
  rw [hturns, List.zipIdx_map_fst]
  rfl

theorem builtIn_cacheAfter (capacity : Nat) (passes : List (Pass fs)) :
    (cacheAfter capacity passes).BuiltIn fs := by
  unfold cacheAfter
  have hstart := Cache.builtIn_ofCapacity fs capacity
  generalize Cache.ofCapacity capacity = cache at hstart
  induction passes generalizing cache with
  | nil => exact hstart
  | cons p passes ih => exact ih _ (run_eq_alone hstart p capacity).2

/-- **The report does not depend on the schedule or on the cache.** After any passes over
the same files, whatever they were and in whatever order they took their modules, a pass in
any order reports what is found when each module is analyzed with an empty cache of its own;
so does the pass in the order of the scan, and when it is done once more it reports the
same. -/
theorem report_eq_alone (capacity own : Nat) (passes : List (Pass fs)) (p : Pass fs) :
    (p.run (cacheAfter capacity passes)).1 = p.alone own ∧
    (analyze fs p.options (cacheAfter capacity passes) p.root p.config).1 = p.alone own ∧
    (analyze fs p.options
        (analyze fs p.options (cacheAfter capacity passes) p.root p.config).2 p.root p.config).1 =
      (analyze fs p.options (cacheAfter capacity passes) p.root p.config).1 := by
  have hcache := builtIn_cacheAfter capacity passes
  obtain ⟨hfirst, hbetween⟩ := analyze_eq_alone hcache p own
  obtain ⟨hsecond, -⟩ := analyze_eq_alone hbetween p own
  exact ⟨(run_eq_alone hcache p own).1, hfirst, hsecond.trans hfirst.symm⟩

end Pass

end Project

end ElementManifest

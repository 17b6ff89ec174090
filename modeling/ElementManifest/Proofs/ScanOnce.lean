import ElementManifest.Proofs.Conservation
import ElementManifest.Proofs.GlobSpelling
import ElementManifest.Proofs.PathOrder
import Mathlib.Data.List.Pairwise

/-!
# Each file is scanned once

Includes may overlap, and then a file is found more than once. It counts once because a scan
has no two paths with the same components, so all depends on whether a file is found under
the same spelling each time. Two things decide that:

> `SpelledFrom.lead_eq`: where the names of its path start. From there on the names follow
> the tree, so two paths of one file agree (`steps_eq_of_place`).

> `SpelledFrom.here_eq`: whether its path starts with a `.`. Paths below a literal include do
> if the include does; search results never do.

The second is not the same for all includes when the root is `.` and patterns stand next to
paths, and then a file is scanned twice (`scan_twice_from_here`). Apart from that each file
is scanned once, and the modules of the manifest have different paths (`scan_once`).
-/

namespace ElementManifest

open ElementManifest.Text ElementManifest.Glob

/-! ## Parts of includes -/

theorem plain_of_mem_parts {p : Path} (h : isPlainText p.text.toList = true) {part : List Char}
    (hpart : part ∈ p.parts) : isPlainText part = true := by
  unfold isPlainText at h ⊢
  rw [List.all_eq_true] at h ⊢
  intro c hc
  exact h c (mem_of_mem_splitOn hpart c hc)

theorem exists_wild_part {text : String} (h : isGlob text = true) :
    ∃ part ∈ Path.parts ⟨text⟩, isPlainText part = false := by
  unfold isGlob at h
  obtain ⟨c, hc, hwild⟩ := List.any_eq_true.mp h
  rw [Bool.or_eq_true, decide_eq_true_eq, decide_eq_true_eq] at hwild
  have hplain : isPlain c = false ∧ decide (c = '/') = false := by
    rcases hwild with rfl | rfl
    · decide
    · decide
  obtain ⟨part, hpart, hmem⟩ : ∃ part ∈ splitOn (· = '/') text.toList, c ∈ part :=
    exists_mem_splitOn hc hplain.2
  refine ⟨part, hpart, ?_⟩
  rw [Bool.eq_false_iff]
  intro hall
  rw [List.all_eq_true.mp hall c hmem] at hplain
  cases hplain.1

/-! ## Directories that are walked through -/

namespace Scan

/-- An include that leads to names below the base, or wherever `lead` ends: it can be told
from its spelling. A pattern must not stand for `..`, and the base must not be a pattern. -/
structure Followable (base : Path) (lead : List Component) (included : String) : Prop where
  lead_eq : (base.join ⟨included⟩).lead = lead
  plain_base : isGlob included = true → isPlainText base.text.toList = true
  stays_below : isGlob included = true →
    ∀ part ∈ Path.parts ⟨included⟩, partStaysBelow part = true

/-- Whether what an include leads to is spelled with a `.` at the start. Search results
never are. -/
def startsHere (base : Path) (included : String) : Bool :=
  !isGlob included && (base.join ⟨included⟩).startsHere

/-- Whether the includes all lead to paths with a `.` at the start, or none of them does. -/
def SpelledAlike (base : Path) (includes : List String) : Prop :=
  ∀ i ∈ includes, ∀ j ∈ includes, startsHere base i = startsHere base j

/-- What the spelling of a path tells about where it comes from. -/
structure SpelledFrom (base : Path) (lead : List Component) (here : Bool) (p : Path) : Prop where
  lead_eq : p.lead = lead
  here_eq : p.startsHere = here
  origin : .root ∈ p.components ∨ base.startsHere = true ∨ base.components <+: p.components

/-- A relative include without `..` leads to names below the base, and an absolute one to
names below the root, which is where the names of an absolute base without `..` start. -/
theorem followable_of_names {base : Path} {included : String}
    (hnames : ∀ part ∈ Path.parts ⟨included⟩, part ≠ ['.', '.'])
    (habsolute : Path.isAbsolute ⟨included⟩ = true → base.lead = [.root])
    (hplain : isGlob included = true → isPlainText base.text.toList = true)
    (hbelow : isGlob included = true →
      ∀ part ∈ Path.parts ⟨included⟩, partStaysBelow part = true) :
    Followable base base.lead included where
  lead_eq := by
    have hbehind : ∀ c ∈ (Path.parts ⟨included⟩).filterMap Path.componentOf, c.isName = true := by
      intro c hc
      obtain ⟨part, hpart, hcomponent⟩ := List.mem_filterMap.mp hc
      exact Path.isName_of_componentOf (hnames part hpart) hcomponent
    by_cases habs : Path.isAbsolute ⟨included⟩ = true
    · have hdown : Path.Down [.root] (base.join ⟨included⟩).steps := by
        refine ⟨_, hbehind, ?_⟩
        rw [Path.join_of_isAbsolute base habs, Path.steps_eq, if_pos habs]
      exact hdown.rdropWhile_eq.trans (habsolute habs).symm
    rw [Bool.not_eq_true] at habs
    by_cases hbase : base.text = ""
    · have hempty : base.steps = [] := by
        unfold Path.steps
        rw [(Path.components_eq_nil_iff base).mpr hbase]
        rfl
      have hdown : Path.Down base.steps (base.join ⟨included⟩).steps := by
        refine ⟨_, hbehind, ?_⟩
        rw [hempty, Path.join_of_empty hbase, Path.steps_eq, habs]
        rfl
      exact hdown.rdropWhile_eq
    · exact Path.lead_of_down ⟨_, hbehind, Path.components_join hbase habs⟩
  plain_base := hplain
  stays_below := hbelow

/-- All includes are spelled alike below every root that does not start with a `.` as a part
of its own, unless it is the empty path. -/
theorem spelledAlike_of_root {base : Path} (hbase : base.text ≠ "")
    (hhere : base.startsHere = false) (includes : List String) : SpelledAlike base includes := by
  have hnone : ∀ included, startsHere base included = false := by
    intro included
    have hjoin : (base.join ⟨included⟩).startsHere = false := by
      by_cases habs : Path.isAbsolute ⟨included⟩ = true
      · rw [Path.join_of_isAbsolute base habs]
        exact Path.startsHere_of_isAbsolute habs
      · have hne : base.components ≠ [] := fun h => hbase ((Path.components_eq_nil_iff base).mp h)
        unfold Path.startsHere
        rw [Path.components_join hbase (Bool.not_eq_true _ ▸ habs),
          List.head?_append_of_ne_nil _ hne]
        exact hhere
    unfold startsHere
    rw [hjoin, Bool.and_false]
  intro i _ j _
  rw [hnone i, hnone j]

/-- Names behind a path leave all of that. -/
theorem SpelledFrom.down {base p q : Path} {lead : List Component} {here : Bool}
    (h : SpelledFrom base lead here p) (hp : p.components ≠ [])
    (hdown : Path.Down p.components q.components) : SpelledFrom base lead here q where
  lead_eq := (Path.lead_of_down hdown).trans h.lead_eq
  here_eq := (Path.startsHere_of_down hp hdown).trans h.here_eq
  origin := by
    obtain ⟨names, -, heq⟩ := hdown
    rcases h.origin with hroot | hhere | hunder
    · rw [heq]
      exact Or.inl (List.mem_append_left _ hroot)
    · exact Or.inr (Or.inl hhere)
    · rw [heq]
      exact Or.inr (Or.inr (hunder.trans (List.prefix_append _ _)))

theorem spelledFrom_join (base : Path) (included : String) :
    SpelledFrom base (base.join ⟨included⟩).lead (base.join ⟨included⟩).startsHere
      (base.join ⟨included⟩) where
  lead_eq := rfl
  here_eq := rfl
  origin := by
    by_cases habs : Path.isAbsolute ⟨included⟩ = true
    · have hmem : Component.root ∈ Path.steps ⟨included⟩ := by
        rw [Path.steps_eq, if_pos habs]
        exact List.mem_cons_self
      rw [Path.join_of_isAbsolute base habs]
      exact Or.inl (List.mem_filter.mp hmem).1
    · rw [Bool.not_eq_true] at habs
      by_cases hbase : base.text = ""
      · rw [(Path.components_eq_nil_iff base).mpr hbase]
        exact Or.inr (Or.inr List.nil_prefix)
      · rw [Path.components_join hbase habs]
        exact Or.inr (Or.inr (List.prefix_append _ _))

/-- The parts of the path of an include: those of the base in front, if the include is
relative. -/
theorem exists_front (base : Path) (included : String) :
    ∃ front, (base.join ⟨included⟩).parts = front ++ Path.parts ⟨included⟩ ∧
      (∀ part ∈ front, part ∈ base.parts) ∧
      ((base.join ⟨included⟩).isAbsolute = true ∨ base.components = [] ∨
        (if (base.join ⟨included⟩).isAbsolute then [.root] else []) ++
          front.filterMap Path.componentOf = base.steps) := by
  by_cases habs : Path.isAbsolute ⟨included⟩ = true
  · rw [Path.join_of_isAbsolute base habs]
    exact ⟨[], rfl, nofun, Or.inl habs⟩
  · rw [Bool.not_eq_true] at habs
    by_cases hbase : base.text = ""
    · rw [Path.join_of_empty hbase]
      exact ⟨[], rfl, nofun, Or.inr (Or.inl ((Path.components_eq_nil_iff base).mpr hbase))⟩
    · obtain ⟨front, -, hfront, hparts, hjoin⟩ := Path.parts_join hbase habs
      refine ⟨front, hparts, ?_, Or.inr (Or.inr ?_)⟩
      · intro part hpart
        rcases hfront with hfront | hfront
        · rw [hfront]
          exact hpart
        · rw [hfront]
          exact List.mem_append_left _ hpart
      · rw [hjoin, Path.steps_eq]
        rcases hfront with hfront | hfront
        · rw [hfront]
        · rw [hfront, List.filterMap_append]
          exact congrArg _ (List.append_nil _).symm

/-- A search result is spelled as its pattern, but without a `.` at the start. -/
theorem spelledFrom_of_mem_search {fs : FileSystem} (hnamed : fs.root.isNamed = true)
    {base r : Path} {lead : List Component} {included : String}
    (h : Followable base lead included) (hglob : isGlob included = true) {found : List Path}
    (hsearch : search fs (base.join ⟨included⟩).text = .ok found) (hr : r ∈ found) :
    SpelledFrom base lead false r := by
  obtain ⟨front, hparts, hsub, horigin⟩ := exists_front base included
  have hdown := down_of_mem_search hnamed hparts
    (fun part hpart => plain_of_mem_parts (h.plain_base hglob) (hsub part hpart))
    (h.stays_below hglob) (exists_wild_part hglob) hsearch hr
  have hnone : .here ∉ r.components := by
    obtain ⟨names, hnames, heq⟩ := hdown
    rw [heq]
    intro hmem
    rcases List.mem_append.mp hmem with hmem | hmem
    · rcases List.mem_append.mp hmem with hmem | hmem
      · split at hmem
        next => cases List.mem_singleton.mp hmem
        next => cases hmem
      · exact Path.here_not_mem_filterMap front hmem
    · cases hnames _ hmem
  have hsteps : r.steps = r.components := Path.filter_here_of_not_mem hnone
  refine ⟨?_, ?_, ?_⟩
  · -- the parts of the pattern itself are names as well
    have hpattern : Path.Down
        ((if (base.join ⟨included⟩).isAbsolute then [.root] else []) ++
          front.filterMap Path.componentOf) (base.join ⟨included⟩).steps := by
      refine ⟨(Path.parts ⟨included⟩).filterMap Path.componentOf, ?_, ?_⟩
      · intro c hc
        obtain ⟨part, hpart, hcomponent⟩ := List.mem_filterMap.mp hc
        exact isName_of_partStaysBelow (h.stays_below hglob part hpart) hcomponent
      · rw [Path.steps_eq, hparts, List.filterMap_append, List.append_assoc]
    rw [← h.lead_eq]
    unfold Path.lead
    rw [hsteps, hdown.rdropWhile_eq, hpattern.rdropWhile_eq]
  · unfold Path.startsHere
    refine decide_eq_false ?_
    intro hhead
    exact hnone (List.mem_of_head? hhead)
  · obtain ⟨names, -, heq⟩ := hdown
    rcases horigin with habs | hempty | hbase
    · rw [heq, if_pos habs]
      exact Or.inl (List.mem_append_left _ List.mem_cons_self)
    · rw [hempty]
      exact Or.inr (Or.inr List.nil_prefix)
    · rw [hbase] at heq
      cases hhere : base.startsHere with
      | true => exact Or.inr (Or.inl rfl)
      | false =>
        have hcomponents := Path.components_eq_steps base
        rw [hhere, if_neg Bool.false_ne_true, List.nil_append] at hcomponents
        rw [heq, hcomponents]
        exact Or.inr (Or.inr (List.prefix_append _ _))

theorem spelledFrom_of_mem_rootsOf {fs : FileSystem} (hnamed : fs.root.isNamed = true)
    {base r : Path} {lead : List Component} {included : String}
    (h : Followable base lead included) (hr : r ∈ rootsOf fs base included) :
    SpelledFrom base lead (startsHere base included) r := by
  unfold rootsOf at hr
  unfold startsHere
  dsimp only at hr
  cases hglob : isGlob included with
  | true =>
    rw [hglob, if_pos rfl] at hr
    split at hr
    next found hsearch =>
      exact spelledFrom_of_mem_search hnamed h hglob hsearch (List.mem_filter.mp hr).1
    next => cases hr
  | false =>
    rw [hglob, if_neg Bool.false_ne_true] at hr
    split at hr
    next =>
      rw [List.mem_singleton.mp hr, ← h.lead_eq]
      exact spelledFrom_join base included
    next => cases hr

theorem mem_roots {fs : FileSystem} {base r : Path} {includes : List String}
    (h : r ∈ roots fs base includes) :
    (includes = [] ∧ r = base) ∨ ∃ included ∈ includes, r ∈ rootsOf fs base included := by
  unfold roots at h
  split at h
  next hempty => exact Or.inl ⟨List.isEmpty_iff.mp hempty, List.mem_singleton.mp h⟩
  next => exact Or.inr (List.mem_flatMap.mp h)

/-! ## What a scan finds -/

section

variable {fs : FileSystem} (hnamed : fs.root.isNamed = true) {base : Path}
  {includes ignores : List String} {testFiles : Bool}

include hnamed

theorem exists_root_of_mem_files {p : Path}
    (hp : p ∈ (scan fs base includes ignores testFiles).files) :
    ∃ r ∈ roots fs base includes, r.components ≠ [] ∧ Path.Down r.components p.components := by
  obtain ⟨r, hr, found, t, hwalk, hmem⟩ := mem_files fs base includes ignores testFiles hp
  refine ⟨r, hr, ?_, down_of_mem_walk? hnamed hwalk hmem⟩
  intro hempty
  obtain ⟨u, hu, -⟩ := Option.map_eq_some_iff.mp hwalk
  obtain ⟨place, hplace, -⟩ := Option.bind_eq_some_iff.mp hu
  unfold FileSystem.place? at hplace
  rw [if_pos ((Path.components_eq_nil_iff r).mp hempty)] at hplace
  cases hplace

/-- The names of all paths of a scan start alike, but for a `.`; with includes that are
spelled alike, not even for that. -/
theorem exists_spelledFrom {lead : List Component}
    (hincludes : ∀ included ∈ includes, Followable base lead included) :
    ∃ lead', (∀ p ∈ (scan fs base includes ignores testFiles).files,
        ∃ here, SpelledFrom base lead' here p) ∧
      (SpelledAlike base includes → ∃ here,
        ∀ p ∈ (scan fs base includes ignores testFiles).files, SpelledFrom base lead' here p) := by
  cases hfirst : includes with
  | nil =>
    -- without includes the base itself is searched
    have hall : ∀ p ∈ (scan fs base [] ignores testFiles).files,
        SpelledFrom base base.lead base.startsHere p := by
      intro p hp
      obtain ⟨r, hr, hne, hdown⟩ := exists_root_of_mem_files hnamed hp
      obtain rfl : r = base := List.mem_singleton.mp hr
      exact SpelledFrom.down ⟨rfl, rfl, Or.inr (Or.inr List.prefix_rfl)⟩ hne hdown
    exact ⟨base.lead, fun p hp => ⟨_, hall p hp⟩, fun _ => ⟨_, hall⟩⟩
  | cons first rest =>
    rw [← hfirst]
    have hall : ∀ p ∈ (scan fs base includes ignores testFiles).files,
        ∃ included ∈ includes, SpelledFrom base lead (startsHere base included) p := by
      intro p hp
      obtain ⟨r, hr, hne, hdown⟩ := exists_root_of_mem_files hnamed hp
      rcases mem_roots hr with ⟨hnil, -⟩ | ⟨included, hmem, hr⟩
      · rw [hnil] at hfirst
        cases hfirst
      · have hroot := spelledFrom_of_mem_rootsOf hnamed (hincludes included hmem) hr
        exact ⟨included, hmem, hroot.down hne hdown⟩
    refine ⟨lead, ?_, ?_⟩
    · intro p hp
      obtain ⟨included, -, hspelled⟩ := hall p hp
      exact ⟨_, hspelled⟩
    · intro halike
      refine ⟨startsHere base first, ?_⟩
      intro p hp
      obtain ⟨included, hmem, hspelled⟩ := hall p hp
      rw [halike first (hfirst ▸ List.mem_cons_self) included hmem]
      exact hspelled

end

end Scan

/-! ## Paths of modules -/

namespace Project

open ElementManifest.Path ElementManifest.Scan

/-- The components of the path of a module: those behind the root of the project, or all. -/
def moduleComponents (root file : Path) : List Component :=
  (file.behind? root).getD file.components

theorem behind?_cases (root file : Path) :
    (root.components <+: file.components ∧
        file.components = root.components ++ moduleComponents root file) ∨
      (¬root.components <+: file.components ∧ moduleComponents root file = file.components) := by
  unfold moduleComponents behind?
  by_cases h : root.components <+: file.components
  · refine Or.inl ⟨h, ?_⟩
    rw [if_pos (List.isPrefixOf_iff_prefix.mpr h), Option.getD_some]
    obtain ⟨rest, hrest⟩ := h
    rw [← hrest, List.drop_left]
  · refine Or.inr ⟨h, ?_⟩
    rw [if_neg (fun hpre => h (List.isPrefixOf_iff_prefix.mp hpre))]
    rfl

/-- The path of a module tells its components. -/
theorem components_modulePath (root file : Path) :
    Path.components ⟨modulePath root file⟩ = moduleComponents root file := by
  show Path.components ⟨"/".intercalate ((moduleComponents root file).map Component.text)⟩ = _
  rcases behind?_cases root file with ⟨-, heq⟩ | ⟨-, heq⟩
  · cases hroot : root.components with
    | nil =>
      rw [hroot, List.nil_append] at heq
      rw [← heq]
      exact components_intercalate_components file
    | cons c cs =>
      rw [hroot, List.cons_append] at heq
      refine components_intercalate ?_
      intro d hd
      exact inner_of_mem_tail heq d (List.mem_append_right cs hd)
  · rw [heq]
    exact components_intercalate_components file

/-- A file below the root and one that is not have different module paths, if they are
spelled from the same root. -/
theorem moduleComponents_ne {root p q : Path} {lead : List Component} {here : Bool}
    (hp : SpelledFrom root lead here p) (hq : SpelledFrom root lead here q)
    (hbelow : root.components <+: p.components) (hbeside : ¬root.components <+: q.components) :
    moduleComponents root p ≠ moduleComponents root q := by
  intro heq
  rcases behind?_cases root p with ⟨-, hpsplit⟩ | ⟨hcontra, -⟩
  swap
  · exact hcontra hbelow
  rcases behind?_cases root q with ⟨hcontra, -⟩ | ⟨-, hqall⟩
  · exact hbeside hcontra
  rw [heq, hqall] at hpsplit
  cases hroot : root.components with
  | nil =>
    rw [hroot] at hbeside
    exact hbeside List.nil_prefix
  | cons c cs =>
    -- behind the root there are only names and steps up, so `q` has no other components
    rw [hroot, List.cons_append] at hpsplit
    have hinner : ∀ d ∈ q.components, Inner d := by
      intro d hd
      exact inner_of_mem_tail hpsplit d (List.mem_append_right cs hd)
    rcases hq.origin with hmem | hhere | hunder
    · obtain ⟨hslash, -⟩ := hinner _ hmem
      exact hslash '/' (by decide) rfl
    · have hhere' : q.startsHere = true := by
        rw [hq.here_eq, ← hp.here_eq]
        unfold Path.startsHere at hhere ⊢
        rw [hroot] at hhere
        rw [hpsplit]
        exact hhere
      have hmem : Component.here ∈ q.components := List.mem_of_head? (of_decide_eq_true hhere')
      cases (hinner _ hmem).2
    · exact hbeside hunder

/-- Paths that are spelled from one root alike can be told from their module paths. -/
theorem components_eq_of_modulePath {root p q : Path} {lead : List Component} {here : Bool}
    (hp : SpelledFrom root lead here p) (hq : SpelledFrom root lead here q)
    (h : modulePath root p = modulePath root q) : p.components = q.components := by
  have heq : moduleComponents root p = moduleComponents root q := by
    rw [← components_modulePath, ← components_modulePath, h]
  rcases behind?_cases root p with ⟨hpbelow, hpsplit⟩ | ⟨hpbeside, hpall⟩
  · rcases behind?_cases root q with ⟨-, hqsplit⟩ | ⟨hqbeside, -⟩
    · rw [hpsplit, hqsplit, heq]
    · exact absurd heq (moduleComponents_ne hp hq hpbelow hqbeside)
  · rcases behind?_cases root q with ⟨hqbelow, -⟩ | ⟨-, hqall⟩
    · exact absurd heq.symm (moduleComponents_ne hq hp hqbelow hpbeside)
    · rw [← hpall, ← hqall, heq]

/-! ## Passes -/

/-- The files that a pass over a project scans. -/
def scannedFiles (fs : FileSystem) (root : Path) (config : Config) : List Path :=
  (scan fs root config.includes config.ignores config.ignoreTestFiles).files

theorem eq_of_mem_scannedFiles {fs : FileSystem} {root : Path} {config : Config} {p q : Path}
    (hp : p ∈ scannedFiles fs root config) (hq : q ∈ scannedFiles fs root config)
    (h : p.components = q.components) : p = q := by
  have hpairwise := pairwise_files fs root config.includes config.ignores config.ignoreTestFiles
  by_contra hne
  have hsymm : Std.Symm fun p q : Path => p.components ≠ q.components := ⟨fun _ _ hpq => hpq.symm⟩
  exact hpairwise.forall hp hq hne h

theorem sublist_analyzedModules (fs : FileSystem) (options : AnalysisOptions) (root : Path)
    (files : List Path) :
    ((analyzedModules fs options root files).map (·.path)).Sublist
      (files.map (modulePath root)) := by
  induction files with
  | nil => exact .slnil
  | cons file files ih =>
    cases h : registrationsIn? fs options file with
    | none =>
      rw [analyzedModules_cons_of_none h]
      exact ih.cons _
    | some rs =>
      rw [analyzedModules_cons_of_some h]
      exact ih.cons_cons _

/-- The paths of a manifest are module paths of scanned files, each once if these are
different. -/
theorem nodup_paths_of_accounts {fs : FileSystem} {options : AnalysisOptions} {root : Path}
    {files : List Path} {report : ProjectReport} (h : Accounts fs options root files report)
    (hfiles : (files.map (modulePath root)).Nodup) :
    (report.manifest.modules.map (·.path)).Nodup := by
  have hpaths := h.modules_perm.map Prod.fst
  rw [List.map_map, List.map_map] at hpaths
  have hanalyzed := hfiles.sublist (sublist_analyzedModules fs options root files)
  exact hpaths.nodup_iff.mpr (hanalyzed.sublist (List.filter_sublist.map _))

/-- Files that are spelled from one root alike have different module paths. -/
theorem nodup_modulePaths {fs : FileSystem} {root : Path} {config : Config} {lead : List Component}
    {here : Bool} (hall : ∀ p ∈ scannedFiles fs root config, SpelledFrom root lead here p) :
    ((scannedFiles fs root config).map (modulePath root)).Nodup := by
  have hpairwise := pairwise_files fs root config.includes config.ignores config.ignoreTestFiles
  refine List.pairwise_map.mpr (hpairwise.imp_of_mem ?_)
  intro p q hp hq hne heq
  exact hne (components_eq_of_modulePath (hall p hp) (hall q hq) heq)

/-- **Each file is scanned once.** Take any tree of files, any root, and any includes that can
be told from their spelling, paths and patterns, however they overlap. Two paths that are
scanned and lead to one place have the same steps; so they differ in a `.` at the start or
not at all. If the includes are spelled alike, with such a `.` or without it, then each file is
scanned under one path, and the modules of the manifest have different paths. -/
theorem scan_once {fs : FileSystem} (hnamed : fs.root.isNamed = true) {root : Path}
    {config : Config} {lead : List Component}
    (hincludes : ∀ included ∈ config.includes, Followable root lead included) :
    (∀ p ∈ scannedFiles fs root config, ∀ q ∈ scannedFiles fs root config, ∀ place,
      fs.place? p = some place → fs.place? q = some place → p.steps = q.steps) ∧
    (SpelledAlike root config.includes →
      (∀ p ∈ scannedFiles fs root config, ∀ q ∈ scannedFiles fs root config, ∀ place,
        fs.place? p = some place → fs.place? q = some place → p = q) ∧
      ∀ options cache,
        ((analyze fs options cache root config).1.manifest.modules.map (·.path)).Nodup) := by
  obtain ⟨lead', hspelled, halike⟩ : ∃ lead',
      (∀ p ∈ scannedFiles fs root config, ∃ here, SpelledFrom root lead' here p) ∧
      (SpelledAlike root config.includes →
        ∃ here, ∀ p ∈ scannedFiles fs root config, SpelledFrom root lead' here p) :=
    exists_spelledFrom hnamed hincludes
  have hsteps : ∀ p ∈ scannedFiles fs root config, ∀ q ∈ scannedFiles fs root config, ∀ place,
      fs.place? p = some place → fs.place? q = some place → p.steps = q.steps := by
    intro p hp q hq place hpplace hqplace
    obtain ⟨_, hpfrom⟩ := hspelled p hp
    obtain ⟨_, hqfrom⟩ := hspelled q hq
    exact steps_eq_of_place (hpfrom.lead_eq.trans hqfrom.lead_eq.symm) hpplace hqplace
  refine ⟨hsteps, ?_⟩
  intro hsame
  obtain ⟨here, hall⟩ := halike hsame
  refine ⟨?_, ?_⟩
  · intro p hp q hq place hpplace hqplace
    refine eq_of_mem_scannedFiles hp hq ?_
    -- With the leading `.` told by the includes, the steps are the whole path.
    rw [components_eq_steps p, components_eq_steps q, (hall p hp).here_eq, (hall q hq).here_eq,
      hsteps p hp q hq place hpplace hqplace]
  · intro options cache
    exact nodup_paths_of_accounts
      (accounts_report (settled_analyzeFiles fs options root cache _)) (nodup_modulePaths hall)

/-- A module with a custom element, in a project below the working directory. -/
def elementFiles : FileTree :=
  .directory [("proj", .directory [("src", .directory [("x-a.ts",
    .file (some "customElements.define('x-a', class A extends HTMLElement \x7b\x7d);"))])])]

/-- The project as seen from the directory that it is in. -/
def besideProject : FileSystem :=
  ⟨elementFiles, []⟩

/-- The project as seen from within. -/
def withinProject : FileSystem :=
  ⟨elementFiles, ["proj"]⟩

/-- Includes that both lead to the module, one as a path and one as a pattern. -/
def overlapping : Config :=
  { includes := ["src", "s*"] }

/-- The module counts once. -/
theorem scan_once_overlapping_includes :
    (scannedFiles besideProject ⟨"proj"⟩ overlapping).map (·.text) = ["proj/src/x-a.ts"] ∧
      ∀ options cache, ((analyze besideProject options cache ⟨"proj"⟩
        overlapping).1.manifest.modules.map (·.path)).Nodup := by
  have hincludes : ∀ included ∈ overlapping.includes,
      Followable ⟨"proj"⟩ (Path.lead ⟨"proj"⟩) included := by
    have hplain : ∀ included ∈ overlapping.includes, isGlob included = true →
        isPlainText "proj".toList = true := by decide
    have hbelow : ∀ included ∈ overlapping.includes, isGlob included = true →
        ∀ part ∈ Path.parts ⟨included⟩, partStaysBelow part = true := by decide +kernel
    have hnames : ∀ included ∈ overlapping.includes,
        ∀ part ∈ Path.parts ⟨included⟩, part ≠ ['.', '.'] := by decide +kernel
    have hrelative : ∀ included ∈ overlapping.includes,
        Path.isAbsolute ⟨included⟩ = true → Path.lead ⟨"proj"⟩ = [.root] := by decide
    intro included hmem
    exact followable_of_names (hnames included hmem) (hrelative included hmem)
      (hplain included hmem) (hbelow included hmem)
  have halike : SpelledAlike ⟨"proj"⟩ overlapping.includes :=
    spelledAlike_of_root (by decide) (by decide) _
  have hnamed : besideProject.root.isNamed = true := by decide +kernel
  refine ⟨by decide +kernel, ?_⟩
  exact ((scan_once hnamed hincludes).2 halike).2

/-- From within the project, the paths that the pattern leads to do not start with a `.` as
the others do, and the module counts twice. -/
theorem scan_twice_from_here :
    (∃ p ∈ scannedFiles withinProject ⟨"."⟩ overlapping,
      ∃ q ∈ scannedFiles withinProject ⟨"."⟩ overlapping, ∃ place,
        p ≠ q ∧ withinProject.place? p = some place ∧ withinProject.place? q = some place) ∧
      (analyze withinProject {} (.ofCapacity 1) ⟨"."⟩ overlapping).1.manifest.modules.map
        (·.path) = ["src/x-a.ts", "src/x-a.ts"] := by
  refine ⟨⟨⟨"./src/x-a.ts"⟩, by decide +kernel, ⟨"src/x-a.ts"⟩, by decide +kernel,
    ["proj", "src", "x-a.ts"], by decide, by decide +kernel, by decide +kernel⟩, ?_⟩
  decide +kernel

end Project

end ElementManifest

import ElementManifest.Proofs.CompanionNames
import ElementManifest.Proofs.PathOrder
import Mathlib.Data.List.Sort

/-!
# What a scan finds

A scan is told by three things, none of which depends on the order in which it goes on: where
it starts (`IsRoot`), what a walk reaches from there (`FileSystem.Reaches`), and which paths it
takes (`Passes`).

> `scan_finds`: the files of a scan are the paths that are reached and taken.

A walk goes into each directory that it reaches, also if the path of the directory is ignored
(`mem_walk?_iff`). Of several spellings of one path a scan keeps the first, so that its files
are told up to spelling (`Has`); two scans that find the same paths list them in the same order.
-/

namespace ElementManifest

open ElementManifest.Glob ElementManifest.Text

/-! ## Walking -/

namespace FileSystem

/-- What a walk from a path reaches: what is at the path, and every entry of a directory that
it has reached. -/
inductive Reaches (fs : FileSystem) (root : Path) : Path → FileTree → Prop
  | root {t : FileTree} (h : fs.find? root = some t) : Reaches fs root root t
  | entry {dir : Path} {es : List (String × FileTree)} {name : String} {t : FileTree}
      (h : Reaches fs root dir (.directory es)) (hmem : (name, t) ∈ es) :
      Reaches fs root (dir.join ⟨name⟩) t

variable {fs : FileSystem} {root : Path}

mutual

theorem reaches_of_mem_descendants {path q : Path} {u : FileTree} : ∀ {t : FileTree},
    fs.Reaches root path t → (q, u) ∈ t.descendants path → fs.Reaches root q u
  | .file _, _, hq => by
    rw [FileTree.descendants] at hq
    cases hq
  | .directory es, h, hq => by
    rw [FileTree.descendants] at hq
    exact reaches_of_mem_entriesBelow (fun _ _ hmem => h.entry hmem) hq

theorem reaches_of_mem_entriesBelow {path q : Path} {u : FileTree} :
    ∀ {es : List (String × FileTree)},
      (∀ name t, (name, t) ∈ es → fs.Reaches root (path.join ⟨name⟩) t) →
        (q, u) ∈ FileTree.entriesBelow path es → fs.Reaches root q u
  | [], _, hq => by
    rw [FileTree.entriesBelow] at hq
    cases hq
  | (name, t) :: es, h, hq => by
    have hfirst := h name t List.mem_cons_self
    rw [FileTree.entriesBelow, List.mem_cons, List.mem_append] at hq
    rcases hq with heq | hbelow | hrest
    · cases heq
      exact hfirst
    · exact reaches_of_mem_descendants hfirst hbelow
    · exact reaches_of_mem_entriesBelow
        (fun name t hmem => h name t (List.mem_cons_of_mem _ hmem)) hrest

end

theorem mem_entriesBelow {path : Path} {es : List (String × FileTree)} {name : String}
    {t : FileTree} (h : (name, t) ∈ es) :
    (path.join ⟨name⟩, t) ∈ FileTree.entriesBelow path es := by
  induction es with
  | nil => cases h
  | cons e es ih =>
    obtain ⟨name', t'⟩ := e
    rw [FileTree.entriesBelow]
    rcases List.mem_cons.mp h with heq | hmem
    · cases heq
      exact List.mem_cons_self
    · exact List.mem_cons_of_mem _ (List.mem_append_right _ (ih hmem))

mutual

/-- What is in a directory below a path is below the path as well. -/
theorem mem_descendants_of_entry {path dir : Path} {es : List (String × FileTree)}
    {name : String} {u : FileTree} (hmem : (name, u) ∈ es) : ∀ {t : FileTree},
    (dir, .directory es) ∈ t.descendants path → (dir.join ⟨name⟩, u) ∈ t.descendants path
  | .file _, h => by
    rw [FileTree.descendants] at h
    cases h
  | .directory _, h => by
    rw [FileTree.descendants] at h ⊢
    exact mem_entriesBelow_of_entry hmem h

theorem mem_entriesBelow_of_entry {path dir : Path} {es : List (String × FileTree)}
    {name : String} {u : FileTree} (hmem : (name, u) ∈ es) :
    ∀ {all : List (String × FileTree)}, (dir, .directory es) ∈ FileTree.entriesBelow path all →
      (dir.join ⟨name⟩, u) ∈ FileTree.entriesBelow path all
  | [], h => by
    rw [FileTree.entriesBelow] at h
    cases h
  | (first, t) :: rest, h => by
    rw [FileTree.entriesBelow, List.mem_cons, List.mem_append] at h
    rw [FileTree.entriesBelow, List.mem_cons, List.mem_append]
    rcases h with heq | hbelow | hrest
    · cases heq
      rw [FileTree.descendants]
      exact Or.inr (Or.inl (mem_entriesBelow hmem))
    · exact Or.inr (Or.inl (mem_descendants_of_entry hmem hbelow))
    · exact Or.inr (Or.inr (mem_entriesBelow_of_entry hmem hrest))

end

/-- A walk finds what it reaches. -/
theorem mem_walk?_iff {p : Path} {t : FileTree} :
    (p, t) ∈ (fs.walk? root).getD [] ↔ fs.Reaches root p t := by
  unfold walk?
  constructor
  · intro h
    cases hfind : fs.find? root with
    | none =>
      rw [hfind] at h
      cases h
    | some u =>
      rw [hfind] at h
      rcases List.mem_cons.mp h with heq | hbelow
      · cases heq
        exact .root hfind
      · exact reaches_of_mem_descendants (.root hfind) hbelow
  · intro h
    -- the walk of a root holds the entries of each directory that it holds
    induction h with
    | root hfind =>
      rw [hfind]
      exact List.mem_cons_self
    | entry _ hmem ih =>
      cases hfind : fs.find? root with
      | none =>
        rw [hfind] at ih
        cases ih
      | some u =>
        rw [hfind] at ih
        refine List.mem_cons_of_mem _ ?_
        rcases List.mem_cons.mp ih with heq | hbelow
        · cases heq
          rw [FileTree.descendants]
          exact mem_entriesBelow hmem
        · exact mem_descendants_of_entry hmem hbelow

end FileSystem

namespace Scan

/-! ## Where a scan starts -/

/-- The directories that a scan walks through: the base if nothing is included, else each
path that is included and exists, and each directory that a pattern stands for. -/
inductive IsRoot (fs : FileSystem) (base : Path) (includes : List String) : Path → Prop
  | base (h : includes = []) : IsRoot fs base includes base
  | literal {included : String} (h : included ∈ includes) (hglob : isGlob included = false)
      (hexists : fs.pathExists (base.join ⟨included⟩) = true) :
      IsRoot fs base includes (base.join ⟨included⟩)
  | glob {included : String} {found : List Path} {dir : Path} (h : included ∈ includes)
      (hglob : isGlob included = true) (hsearch : search fs (base.join ⟨included⟩).text = .ok found)
      (hmem : dir ∈ found) (hdir : fs.isDirectory dir = true) : IsRoot fs base includes dir

theorem mem_rootsOf_iff {fs : FileSystem} {base r : Path} {includes : List String}
    (hne : includes ≠ []) :
    (∃ included ∈ includes, r ∈ rootsOf fs base included) ↔ IsRoot fs base includes r := by
  constructor
  · rintro ⟨included, hmem, hr⟩
    unfold rootsOf at hr
    cases hglob : isGlob included with
    | true =>
      rw [if_pos hglob] at hr
      split at hr
      next found hsearch =>
        obtain ⟨hfound, hdir⟩ := List.mem_filter.mp hr
        exact .glob hmem hglob hsearch hfound hdir
      next => cases hr
    | false =>
      rw [if_neg (Bool.eq_false_iff.mp hglob)] at hr
      split at hr
      next hexists =>
        rw [List.mem_singleton.mp hr]
        exact .literal hmem hglob hexists
      next => cases hr
  · intro h
    cases h with
    | base h => exact absurd h hne
    | @literal included hmem hglob hexists =>
      refine ⟨included, hmem, ?_⟩
      unfold rootsOf
      rw [if_neg (Bool.eq_false_iff.mp hglob), if_pos hexists]
      exact List.mem_singleton_self _
    | @glob included found _ hmem hglob hsearch hfound hdir =>
      refine ⟨included, hmem, ?_⟩
      unfold rootsOf
      rw [if_pos hglob, hsearch]
      exact List.mem_filter.mpr ⟨hfound, hdir⟩

theorem mem_roots_iff {fs : FileSystem} {base r : Path} {includes : List String} :
    r ∈ roots fs base includes ↔ IsRoot fs base includes r := by
  unfold roots
  cases includes with
  | nil =>
    rw [List.isEmpty_nil, if_pos rfl, List.mem_singleton]
    constructor
    · rintro rfl
      exact .base rfl
    · intro h
      cases h with
      | base => rfl
      | literal h => cases h
      | glob h => cases h
  | cons included rest =>
    rw [List.isEmpty_cons, if_neg Bool.false_ne_true, List.mem_flatMap]
    exact mem_rootsOf_iff (List.cons_ne_nil _ _)

/-- More includes are more directories, unless there were none. -/
theorem IsRoot.mono {fs : FileSystem} {base r : Path} {includes more : List String}
    (h : IsRoot fs base includes r) (hne : includes ≠ []) (hsub : includes ⊆ more) :
    IsRoot fs base more r := by
  cases h with
  | base h => exact absurd h hne
  | literal hmem hglob hexists => exact .literal (hsub hmem) hglob hexists
  | glob hmem hglob hsearch hfound hdir => exact .glob (hsub hmem) hglob hsearch hfound hdir

theorem IsRoot.congr {fs : FileSystem} {base r : Path} {includes includes' : List String}
    (h : IsRoot fs base includes r) (hsame : ∀ i, i ∈ includes ↔ i ∈ includes') :
    IsRoot fs base includes' r := by
  by_cases hnil : includes = []
  · have hnil' : includes' = [] := by
      refine List.eq_nil_iff_forall_not_mem.mpr fun i hi => ?_
      have hmem := (hsame i).mpr hi
      rw [hnil] at hmem
      cases hmem
    rw [hnil] at h
    rw [hnil']
    exact h
  · exact h.mono hnil fun i => (hsame i).mp

/-! ## Which paths a scan takes -/

/-- A path that a scan takes: it has the name and the extension of a module, it is not below
a path that is ignored, and no pattern stands for its text. -/
structure Passes (base : Path) (ignores : List String) (testFiles : Bool) (path : Path) :
    Prop where
  named : ∃ name, path.fileName? = some name ∧ ¬".d.ts".toList <:+ name.toList ∧
    ¬".types.".toList <:+: name.toList
  extended : ∃ extension ∈ moduleExtensions, path.extension? = some extension
  not_below : ∀ ignored ∈ ignores, isGlob ignored = false →
    ¬(base.join ⟨ignored⟩).components <+: path.components
  not_matched : ∀ ignored ∈ ignores, isGlob ignored = true →
    ∀ p, Pattern.parse ignored = .ok p → p.isMatch path.text = false
  no_test : testFiles = true → ∀ text ∈ testFilePatterns,
    ∀ p, Pattern.parse text = .ok p → p.isMatch path.text = false

theorem isModuleFile_iff {path : Path} : isModuleFile path = true ↔
    (∃ name, path.fileName? = some name ∧ ¬".d.ts".toList <:+ name.toList ∧
      ¬".types.".toList <:+: name.toList) ∧
    ∃ extension ∈ moduleExtensions, path.extension? = some extension := by
  have hext : path.extension?.any moduleExtensions.contains = true ↔
      ∃ extension ∈ moduleExtensions, path.extension? = some extension := by
    cases path.extension? with
    | none => simp
    | some extension => simp [List.contains_eq_mem, eq_comm]
  unfold isModuleFile
  cases path.fileName? with
  | none => simp
  | some name =>
    dsimp only
    rw [Bool.and_eq_true, hext, Bool.and_eq_true, Bool.not_eq_true', Bool.not_eq_true',
      ← Bool.not_eq_true, ← Bool.not_eq_true, Path.endsWith_iff, hasInfix_iff]
    simp only [Option.some.injEq, exists_eq_left']

theorem mem_patternsOf_iff {texts : List String} {p : Pattern} :
    p ∈ patternsOf texts ↔ ∃ text ∈ texts, Pattern.parse text = .ok p := by
  have hok : ∀ text, (Pattern.parse text).toOption = some p ↔ Pattern.parse text = .ok p := by
    intro text
    cases Pattern.parse text with
    | error e => exact ⟨nofun, nofun⟩
    | ok q => simp [Except.toOption]
  unfold patternsOf
  simp only [List.mem_filterMap, hok]

theorem contains_ignoredIn_iff {base path : Path} {ignores : List String} {testFiles : Bool} :
    (ignoredIn base ignores testFiles).contains path = false ↔
      (∀ ignored ∈ ignores, isGlob ignored = false →
        ¬(base.join ⟨ignored⟩).components <+: path.components) ∧
      (∀ ignored ∈ ignores, isGlob ignored = true →
        ∀ p, Pattern.parse ignored = .ok p → p.isMatch path.text = false) ∧
      (testFiles = true → ∀ text ∈ testFilePatterns,
        ∀ p, Pattern.parse text = .ok p → p.isMatch path.text = false) := by
  unfold Ignored.contains ignoredIn
  rw [Bool.or_eq_false_iff]
  refine and_congr ?_ ?_
  · simp only [List.any_eq_false, List.mem_map, List.mem_filter, Bool.not_eq_true',
      forall_exists_index, and_imp, Path.startsWith, List.isPrefixOf_iff_prefix]
    exact ⟨fun h ignored hmem hglob => h _ ignored hmem hglob rfl,
      fun h _ ignored hmem hglob heq => heq ▸ h ignored hmem hglob⟩
  · rw [List.any_append, Bool.or_eq_false_iff]
    refine and_congr ?_ ?_
    · simp only [List.any_eq_false, mem_patternsOf_iff, List.mem_filter, forall_exists_index,
        and_imp, Bool.not_eq_true]
      exact ⟨fun h ignored hmem hglob p hp => h p ignored hmem hglob hp,
        fun h p ignored hmem hglob hp => h ignored hmem hglob p hp⟩
    · cases testFiles with
      | false => simp
      | true =>
        simp only [if_pos, List.any_eq_false, mem_patternsOf_iff, forall_exists_index, and_imp,
          Bool.not_eq_true, forall_true_left]
        exact ⟨fun h text hmem p hp => h p text hmem hp, fun h p text hmem hp => h text hmem p hp⟩

theorem passes_iff {base path : Path} {ignores : List String} {testFiles : Bool} :
    isModuleFile path = true ∧ (ignoredIn base ignores testFiles).contains path = false ↔
      Passes base ignores testFiles path := by
  rw [isModuleFile_iff, contains_ignoredIn_iff]
  constructor
  · rintro ⟨⟨hnamed, hextended⟩, hbelow, hmatched, htest⟩
    exact ⟨hnamed, hextended, hbelow, hmatched, htest⟩
  · intro h
    exact ⟨⟨h.named, h.extended⟩, h.not_below, h.not_matched, h.no_test⟩

/-- Fewer paths pass if more are ignored. -/
theorem Passes.anti {base path : Path} {ignores more : List String} {testFiles : Bool}
    (h : Passes base more testFiles path) (hsub : ignores ⊆ more) :
    Passes base ignores testFiles path where
  named := h.named
  extended := h.extended
  not_below := fun ignored hmem => h.not_below ignored (hsub hmem)
  not_matched := fun ignored hmem => h.not_matched ignored (hsub hmem)
  no_test := h.no_test

/-- The companions of modules do not pass, whatever is ignored. -/
theorem not_passes_of_candidate {module companion : Path}
    (h : companion ∈ Companion.candidates module) {base path : Path} {ignores : List String}
    {testFiles : Bool} (hsame : path.components = companion.components) :
    ¬Passes base ignores testFiles path := by
  intro hpasses
  obtain ⟨name, hname, -, htypes⟩ := hpasses.named
  obtain ⟨module, ending, -, -, hending, hcompanion⟩ := Companion.fileName?_of_mem_candidates h
  have heq : name = module ++ ending := by
    unfold Path.fileName? at hname hcompanion
    rw [hsame, hcompanion] at hname
    exact (Option.some.inj hname).symm
  have hmarked : ∀ ending ∈ Companion.endings, ".types.".toList <:+: ending.toList := by decide
  rw [heq, String.toList_append] at htypes
  exact htypes ((hmarked ending hending).trans (List.suffix_append _ _).isInfix)

/-! ## What a scan finds -/

/-- A file that a scan reaches and takes. -/
def Found (fs : FileSystem) (base : Path) (includes ignores : List String) (testFiles : Bool)
    (path : Path) : Prop :=
  ∃ root text, IsRoot fs base includes root ∧ fs.Reaches root path (.file text) ∧
    Passes base ignores testFiles path

theorem mem_modulesBelow_iff {fs : FileSystem} {base root path : Path} {ignores : List String}
    {testFiles : Bool} :
    path ∈ modulesBelow fs (ignoredIn base ignores testFiles) root ↔
      ∃ text, fs.Reaches root path (.file text) ∧ Passes base ignores testFiles path := by
  unfold modulesBelow
  constructor
  · intro h
    obtain ⟨⟨path', t⟩, hentry, rfl⟩ := List.mem_map.mp h
    obtain ⟨hwalk, hall⟩ := List.mem_filter.mp hentry
    dsimp only at hall
    rw [Bool.and_eq_true, Bool.and_eq_true, Bool.not_eq_true', and_assoc, passes_iff] at hall
    have hreaches := FileSystem.mem_walk?_iff.mp hwalk
    cases t with
    | file text => exact ⟨text, hreaches, hall.2⟩
    | directory es => cases hall.1
  · rintro ⟨text, hreaches, hpasses⟩
    refine List.mem_map.mpr ⟨(path, .file text), ?_, rfl⟩
    refine List.mem_filter.mpr ⟨FileSystem.mem_walk?_iff.mpr hreaches, ?_⟩
    dsimp only
    rw [Bool.and_eq_true, Bool.and_eq_true, Bool.not_eq_true', and_assoc, passes_iff]
    exact ⟨rfl, hpasses⟩

section

variable {fs : FileSystem} {base : Path} {includes ignores : List String} {testFiles : Bool}

theorem mem_found_iff {p : Path} :
    p ∈ (roots fs base includes).flatMap (modulesBelow fs (ignoredIn base ignores testFiles)) ↔
      Found fs base includes ignores testFiles p := by
  simp only [List.mem_flatMap, mem_roots_iff, mem_modulesBelow_iff]
  constructor
  · rintro ⟨root, hroot, text, hreaches, hpasses⟩
    exact ⟨root, text, hroot, hreaches, hpasses⟩
  · rintro ⟨root, text, hroot, hreaches, hpasses⟩
    exact ⟨root, hroot, text, hreaches, hpasses⟩

theorem found_of_mem_files {p : Path}
    (h : p ∈ (scan fs base includes ignores testFiles).files) :
    Found fs base includes ignores testFiles p :=
  mem_found_iff.mp (mem_foldl_insertPath h)

theorem has_files_iff {p : Path} : Has (scan fs base includes ignores testFiles).files p ↔
    ∃ q, Found fs base includes ignores testFiles q ∧ q.components = p.components := by
  refine (has_foldl_insertPath _ p).trans ?_
  unfold Has
  simp only [mem_found_iff]

/-- Scans that have the same paths have them in the same order. -/
theorem components_files_congr {includes' ignores' : List String} {testFiles' : Bool}
    (h : ∀ p, Has (scan fs base includes' ignores' testFiles').files p ↔
      Has (scan fs base includes ignores testFiles).files p) :
    (scan fs base includes' ignores' testFiles').files.map Path.components =
      (scan fs base includes ignores testFiles).files.map Path.components := by
  have hirrefl : Std.Irrefl fun as bs => Path.compareComponents as bs = .lt := by
    refine ⟨fun as h => ?_⟩
    have hself : as.compareLex Component.compare as = .eq := Std.ReflCmp.compare_self
    rw [Path.compareComponents_eq, hself] at h
    cases h
  have hantisymm : Std.Antisymm fun as bs => Path.compareComponents as bs = .lt := by
    refine ⟨fun as bs h h' => ?_⟩
    rw [Path.compareComponents_eq] at h h'
    exact absurd h' (Std.OrientedCmp.not_lt_of_lt h)
  have hsorted : ∀ includes ignores testFiles,
      ((scan fs base includes ignores testFiles).files.map Path.components).Pairwise
        fun as bs => Path.compareComponents as bs = .lt :=
    fun _ _ _ => List.pairwise_map.mpr (sorted_files ..)
  refine (hsorted _ _ _).eq_of_mem_iff (hsorted _ _ _) ?_
  intro cs
  simp only [List.mem_map]
  constructor
  · rintro ⟨p, hp, rfl⟩
    exact (h p).mp ⟨p, hp, rfl⟩
  · rintro ⟨p, hp, rfl⟩
    exact (h p).mpr ⟨p, hp, rfl⟩

end

/-- **A scan finds the paths that are reached and pass**, each in one spelling. So it
finds the same whichever way its includes and ignores are listed; it finds no more with
more ignores, and no less with more includes if there were any; and it never finds a companion of
a module. -/
theorem scan_finds (fs : FileSystem) (base : Path) (includes ignores : List String)
    (testFiles : Bool) :
    let files := (scan fs base includes ignores testFiles).files
    (∀ p ∈ files, Found fs base includes ignores testFiles p) ∧
    (∀ p, Has files p ↔
      ∃ q, Found fs base includes ignores testFiles q ∧ q.components = p.components) ∧
    (files.Pairwise fun p q => p.components ≠ q.components) ∧
    (∀ includes' ignores', (∀ i, i ∈ includes' ↔ i ∈ includes) →
      (∀ i, i ∈ ignores' ↔ i ∈ ignores) →
        (scan fs base includes' ignores' testFiles).files.map Path.components =
          files.map Path.components) ∧
    (∀ ignores', ignores ⊆ ignores' →
      ∀ p ∈ (scan fs base includes ignores' testFiles).files, Has files p) ∧
    (∀ includes', includes ≠ [] → includes ⊆ includes' →
      ∀ p ∈ files, Has (scan fs base includes' ignores testFiles).files p) ∧
    ∀ module, ∀ companion ∈ Companion.candidates module, ¬Has files companion := by
  refine ⟨fun p => found_of_mem_files, fun p => has_files_iff, pairwise_files .., ?_, ?_, ?_, ?_⟩
  · intro includes' ignores' hincludes hignores
    refine components_files_congr fun p => ?_
    -- includes and ignores count as sets, whatever their order
    have hmore : ignores ⊆ ignores' := fun i hi => (hignores i).mpr hi
    have hless : ignores' ⊆ ignores := fun i hi => (hignores i).mp hi
    rw [has_files_iff, has_files_iff]
    refine exists_congr fun q => and_congr_left fun _ => ⟨?_, ?_⟩
    · rintro ⟨root, text, hroot, hreaches, hpasses⟩
      exact ⟨root, text, hroot.congr hincludes, hreaches, hpasses.anti hmore⟩
    · rintro ⟨root, text, hroot, hreaches, hpasses⟩
      exact ⟨root, text, hroot.congr fun i => (hincludes i).symm, hreaches, hpasses.anti hless⟩
  · intro ignores' hsub p hp
    obtain ⟨root, text, hroot, hreaches, hpasses⟩ := found_of_mem_files hp
    exact has_files_iff.mpr ⟨p, ⟨root, text, hroot, hreaches, hpasses.anti hsub⟩, rfl⟩
  · intro includes' hne hsub p hp
    obtain ⟨root, text, hroot, hreaches, hpasses⟩ := found_of_mem_files hp
    exact has_files_iff.mpr ⟨p, ⟨root, text, hroot.mono hne hsub, hreaches, hpasses⟩, rfl⟩
  · intro module companion hcandidate hhas
    obtain ⟨q, ⟨root, text, -, -, hpasses⟩, hsame⟩ := has_files_iff.mp hhas
    exact not_passes_of_candidate hcandidate hsame hpasses

/-- A directory that a pattern stands for is skipped, but not what is in it. -/
example : (scan ⟨.directory [("src", .directory [("gen", .directory [("a.ts", .file none)])])], []⟩
    ⟨"src"⟩ [] ["*/gen"] false).files = [⟨"src/gen/a.ts"⟩] := by
  decide +kernel

end Scan

end ElementManifest

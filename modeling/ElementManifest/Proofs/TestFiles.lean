import ElementManifest.Proofs.MovedProjects

/-!
# Test files

With the flag for test files a scan leaves out what some patterns stand for. What they stand for
among files is told by names: the endings by the file name (`suffix_text_iff`), the directory by
the names in front of it, because the path of a file that is found ends with its name, however the
base is spelled (`exists_last_of_reaches`).

> `scan_leaves_out_tests`: what is left out are the test files with the extensions of the patterns,
> and everything below a directory for tests.

The patterns have all extensions of modules but one (`testEndings_eq`), so the test files with that
one are found (`scan_keeps_test`).
-/

namespace ElementManifest

open ElementManifest.Text ElementManifest.Glob

/-! ## Names on the way to a file -/

/-- The names on the way to a place are names of the path, or of the place that it starts from. -/
theorem Component.mem_foldl_enter {cs : List Component} {place : Place} {name : String}
    (h : name ∈ cs.foldl enter place) : name ∈ place ∨ .name name ∈ cs := by
  induction cs generalizing place with
  | nil => exact Or.inl h
  | cons c cs ih =>
    rcases ih h with hstart | hmem
    · cases c with
      | root => cases hstart
      | here => exact Or.inl hstart
      | up => exact Or.inl (List.dropLast_subset _ hstart)
      | name text =>
        rcases List.mem_append.mp hstart with hplace | htext
        · exact Or.inl hplace
        · rw [List.mem_singleton.mp htext]
          exact Or.inr List.mem_cons_self
    · exact Or.inr (List.mem_cons_of_mem c hmem)

namespace FileSystem

variable {fs : FileSystem} {root p : Path} {t : FileTree}

theorem Reaches.text_ne (hnamed : fs.root.isNamed = true) (h : fs.Reaches root p t) :
    t.isNamed = true ∧ p.text ≠ "" := by
  induction h with
  | root hfind => exact ⟨isNamed_find? hnamed hfind, text_ne_of_find? hfind⟩
  | entry _ hmem ih =>
    obtain ⟨hdir, htext⟩ := ih
    rw [FileTree.isNamed] at hdir
    obtain ⟨hname, hentry⟩ := isNamed_of_mem hdir hmem
    exact ⟨hentry, join_text_ne htext (isAbsolute_of_free (parts_of_isEntryName hname).2.1)⟩

/-- A file that a walk reaches has its name as last part. -/
theorem exists_last_of_reaches (hnamed : fs.root.isNamed = true) {text : Option String}
    (h : fs.Reaches root p (.file text)) :
    ∃ front name, p.steps = front ++ [.name name] ∧ p.parts.getLast? = some name.toList := by
  cases h with
  | root hfind => exact Scan.exists_last_of_find? hfind
  | @entry dir es name _ hdir hmem =>
    obtain ⟨hnamedDir, -⟩ := hdir.text_ne hnamed
    rw [FileTree.isNamed] at hnamedDir
    have hname := (isNamed_of_mem hnamedDir hmem).1
    exact ⟨dir.steps, name, steps_join_name _ hname, getLast?_parts_join_name _ hname⟩

end FileSystem

namespace Scan

/-! ## Names of test files -/

/-- The marks between the stem and the extension of a test file. -/
def testMarks : List String :=
  [".test.", ".spec."]

/-- The name of a test file with an extension. -/
def IsTestName (extension name : String) : Prop :=
  ∃ stem, ∃ mark ∈ testMarks, name = stem ++ mark ++ extension

theorem isTestName_iff {extension name : String} :
    IsTestName extension name ↔ ∃ mark ∈ testMarks, (mark ++ extension).toList <:+ name.toList := by
  constructor
  · rintro ⟨stem, mark, hmark, rfl⟩
    refine ⟨mark, hmark, stem.toList, ?_⟩
    rw [← String.toList_append, String.append_assoc]
  · rintro ⟨mark, hmark, stem, hstem⟩
    refine ⟨String.ofList stem, mark, hmark, String.toList_injective ?_⟩
    rw [String.append_assoc, String.toList_append, String.toList_ofList]
    exact hstem.symm

/-- The endings are those of all extensions of modules but one. -/
theorem testEndings_eq :
    testEndings = testMarks.flatMap fun mark =>
      (moduleExtensions.filter (· ≠ "mjs")).map (mark ++ ·) := by
  decide

theorem endings_iff {name : String} :
    (∀ ending ∈ testEndings, ¬ending.toList <:+ name.toList) ↔
      ∀ extension ∈ moduleExtensions, extension ≠ "mjs" → ¬IsTestName extension name := by
  simp only [testEndings_eq, isTestName_iff, List.mem_flatMap, List.mem_map, List.mem_filter,
    decide_eq_true_eq]
  constructor
  · rintro h extension hmem hne ⟨mark, hmark, hsuffix⟩
    exact h _ ⟨mark, hmark, extension, ⟨hmem, hne⟩, rfl⟩ hsuffix
  · rintro h _ ⟨mark, hmark, extension, ⟨hmem, hne⟩, rfl⟩ hsuffix
    exact h extension hmem hne ⟨mark, hmark, hsuffix⟩

/-- A path that the patterns for test files do not stand for, told by its names. -/
structure IsNoTest (path : Path) : Prop where
  named : ∀ name, path.fileName? = some name →
    ∀ extension ∈ moduleExtensions, extension ≠ "mjs" → ¬IsTestName extension name
  outside : .name "__tests__" ∉ path.components.dropLast

/-- A path that ends with a name is told by that and the names in front. -/
theorem isNoTest_iff_of_steps {path : Path} {front : List Component} {name : String}
    (hsteps : path.steps = front ++ [.name name]) :
    IsNoTest path ↔
      (∀ extension ∈ moduleExtensions, extension ≠ "mjs" → ¬IsTestName extension name) ∧
        .name "__tests__" ∉ front := by
  have hname := fileName?_of_steps hsteps
  have hdirs : .name "__tests__" ∈ path.components.dropLast ↔ .name "__tests__" ∈ front := by
    rw [Path.components_eq_steps, hsteps, ← List.append_assoc, List.dropLast_concat,
      List.mem_append, or_iff_right]
    split
    next => exact fun hmem => nomatch List.mem_singleton.mp hmem
    next => exact List.not_mem_nil
  constructor
  · exact fun h => ⟨h.named name hname, fun hmem => h.outside (hdirs.mpr hmem)⟩
  · rintro ⟨hnamed, houtside⟩
    refine ⟨fun name' hname' => ?_, fun hmem => houtside (hdirs.mp hmem)⟩
    rw [← Option.some.inj (hname.symm.trans hname')]
    exact hnamed

/-- **The patterns for test files**, matched with the path of a file. -/
theorem no_testFilePatterns_iff {path : Path} {front : List Component} {name : String}
    (hsteps : path.steps = front ++ [.name name])
    (hlast : path.parts.getLast? = some name.toList) :
    (∀ text ∈ testFilePatterns, ∀ p, Pattern.parse text = .ok p → p.isMatch path.text = false) ↔
      IsNoTest path := by
  have hmatch : ∀ ending ∈ testEndings, ∀ p, Pattern.parse (endingPattern ending) = .ok p →
      (p.isMatch path.text = true ↔ ending.toList <:+ name.toList) := by
    intro ending hmem p hp
    obtain ⟨hplain, hfree⟩ := plain_of_mem_testEndings hmem
    rw [isMatch_ending_iff hplain hp, suffix_text_iff hlast hfree]
  have hdirectory : ∀ p, Pattern.parse (belowPattern "__tests__") = .ok p →
      (p.isMatch path.text = true ↔ .name "__tests__" ∈ front) := by
    intro p hp
    obtain ⟨hfree, hcomponent⟩ := @inner_of_isEntryName "__tests__" (by decide)
    rw [isMatch_below_iff (by decide) hfree hp]
    exact mem_dropLast_parts_iff hsteps hlast hcomponent
  rw [isNoTest_iff_of_steps hsteps, ← endings_iff, testFilePatterns_eq]
  simp only [List.forall_mem_append, List.forall_mem_map, List.forall_mem_singleton,
    ← Bool.not_eq_true]
  refine and_congr ⟨?_, ?_⟩ ⟨?_, ?_⟩
  · intro h ending hmem hsuffix
    have hp := Pattern.parse_endingPattern (plain_of_mem_testEndings hmem).1
    exact h ending hmem _ hp ((hmatch ending hmem _ hp).mpr hsuffix)
  · exact fun h ending hmem p hp hmatched => h ending hmem ((hmatch ending hmem p hp).mp hmatched)
  · intro h hmem
    have hp := @Pattern.parse_belowPattern "__tests__" (by decide)
    exact h _ hp ((hdirectory _ hp).mpr hmem)
  · exact fun h p hp hmatched => h ((hdirectory p hp).mp hmatched)

/-! ## Scans without test files -/

section

variable {fs : FileSystem} {base : Path} {includes ignores : List String}

/-- What is found without test files is what is found and is none. -/
theorem found_iff_isNoTest (hnamed : fs.root.isNamed = true) {p : Path} :
    Found fs base includes ignores true p ↔
      Found fs base includes ignores false p ∧ IsNoTest p := by
  constructor
  · rintro ⟨root, text, hroot, hreaches, hpasses⟩
    obtain ⟨front, name, hsteps, hlast⟩ := FileSystem.exists_last_of_reaches hnamed hreaches
    refine ⟨⟨root, text, hroot, hreaches, hpasses.named, hpasses.extended, hpasses.not_below,
      hpasses.not_matched, nofun⟩, ?_⟩
    exact (no_testFilePatterns_iff hsteps hlast).mp (hpasses.no_test rfl)
  · rintro ⟨⟨root, text, hroot, hreaches, hpasses⟩, hnoTest⟩
    obtain ⟨front, name, hsteps, hlast⟩ := FileSystem.exists_last_of_reaches hnamed hreaches
    refine ⟨root, text, hroot, hreaches, hpasses.named, hpasses.extended, hpasses.not_below,
      hpasses.not_matched, fun _ => ?_⟩
    exact (no_testFilePatterns_iff hsteps hlast).mpr hnoTest

/-- What a path does not say is told by where it starts: a file that is found lies below a directory
for tests only if the working directory does. -/
theorem not_below_tests (hnamed : fs.root.isNamed = true) {p : Path}
    (hp : Found fs base includes ignores true p) {place : Place} (hplace : fs.place? p = some place)
    (hbelow : "__tests__" ∈ place.dropLast) :
    p.isAbsolute = false ∧ "__tests__" ∈ fs.workPlace := by
  have hnoTest := ((found_iff_isNoTest hnamed).mp hp).2
  obtain ⟨root, text, -, hreaches, -⟩ := hp
  obtain ⟨front, name, hsteps, -⟩ := FileSystem.exists_last_of_reaches hnamed hreaches
  have hfront := ((isNoTest_iff_of_steps hsteps).mp hnoTest).2
  have hdirs : place.dropLast = front.foldl Component.enter fs.workPlace := by
    rw [Path.place_eq_foldl_steps hplace, hsteps, List.foldl_append]
    exact List.dropLast_concat
  rw [hdirs] at hbelow
  refine ⟨?_, (Component.mem_foldl_enter hbelow).resolve_right hfront⟩
  -- an absolute path starts from the root, which is below nothing
  rw [Bool.eq_false_iff]
  intro habs
  have hall := p.steps_eq
  rw [habs, if_pos rfl, hsteps] at hall
  cases front with
  | nil => cases hall
  | cons c front =>
    obtain ⟨rfl, -⟩ := List.cons.inj hall
    rcases @Component.mem_foldl_enter _ [] _ hbelow with hnone | hmem
    · cases hnone
    · exact hfront (List.mem_cons_of_mem _ hmem)

/-- **A scan leaves out test files.** Take any tree of files, any base, includes and ignores. No
file of a scan without test files has the name of one, `<stem>.test.<extension>` or
`<stem>.spec.<extension>`, for any extension of modules but `mjs`; and none lies below a directory
`__tests__`, neither by its path nor in the tree, unless its path starts from a working directory
that lies below one. Nothing else is left out. -/
theorem scan_leaves_out_tests (hnamed : fs.root.isNamed = true) :
    (∀ p ∈ (scan fs base includes ignores true).files,
      (∃ name, p.fileName? = some name ∧
        ∀ extension ∈ moduleExtensions, extension ≠ "mjs" → ¬IsTestName extension name) ∧
      .name "__tests__" ∉ p.components.dropLast ∧
      ∀ place, fs.place? p = some place → "__tests__" ∈ place.dropLast →
        p.isAbsolute = false ∧ "__tests__" ∈ fs.workPlace) ∧
    ∀ p, Found fs base includes ignores true p ↔
      Found fs base includes ignores false p ∧ IsNoTest p := by
  refine ⟨fun p hmem => ?_, fun p => found_iff_isNoTest hnamed⟩
  have hp := found_of_mem_files hmem
  have hnoTest := ((found_iff_isNoTest hnamed).mp hp).2
  refine ⟨?_, hnoTest.outside, fun place => not_below_tests hnamed hp⟩
  obtain ⟨root, text, -, -, hpasses⟩ := hp
  obtain ⟨name, hname, -⟩ := hpasses.named
  exact ⟨name, hname, hnoTest.named name hname⟩

end

/-- A project with tests next to its modules, and in a directory of their own. -/
def testedFiles : FileTree :=
  .directory [("lib", .directory [("x-a.ts", .file (some "")), ("x-a.test.ts", .file (some "")),
    ("x-a.spec.jsx", .file (some "")), ("__tests__", .directory [("help", .directory
      [("x-b.js", .file (some ""))])])])]

/-- The tests are left out, wherever they are and however the base is spelled. -/
theorem scan_leaves_out_tests_nested :
    testedFiles.isNamed = true ∧
      (scan ⟨testedFiles, []⟩ ⟨".//lib"⟩ [] [] false).files.length = 4 ∧
      (scan ⟨testedFiles, []⟩ ⟨".//lib"⟩ [] [] true).files = [⟨".//lib/x-a.ts"⟩] ∧
      ∀ p ∈ (scan ⟨testedFiles, []⟩ ⟨".//lib"⟩ [] [] true).files,
        .name "__tests__" ∉ p.components.dropLast := by
  have hnamed : testedFiles.isNamed = true := by decide +kernel
  exact ⟨hnamed, by decide +kernel, by decide +kernel, fun p hp =>
    ((@scan_leaves_out_tests ⟨testedFiles, []⟩ ⟨".//lib"⟩ [] [] hnamed).1 p hp).2.1⟩

/-- The one extension that the patterns do not have: a file with it is a module, and its tests are
found. -/
theorem scan_keeps_test :
    "mjs" ∈ moduleExtensions ∧ IsTestName "mjs" "x-c.test.mjs" ∧
      (scan ⟨.directory [("x-c.test.mjs", .file (some ""))], []⟩ ⟨"."⟩ [] [] true).files =
        [⟨"./x-c.test.mjs"⟩] :=
  ⟨by decide, ⟨"x-c", ".test.", by decide, by decide⟩, by decide +kernel⟩

end Scan

end ElementManifest

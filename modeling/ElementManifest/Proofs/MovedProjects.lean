import ElementManifest.Proofs.BaseSearches
import ElementManifest.Proofs.LiteralIgnores
import ElementManifest.Proofs.SideBySide

/-!
# Projects in other places

A project is scanned from a base directory, and what is in there does not tell where it lies.
Two scans, from two bases with the same tree, go side by side, and find the same as far as what
is taken does not depend on the base:

> `scan_wherever`: bases that are alike for a scan (`AlikeBases`) have the same files.

There are three ways in which a scan does depend on the base. A base with pattern characters is
read as a pattern, and then its files may not be found (`scan_depends_on_base`). Patterns that are
ignored are matched with the base in front, and tell two bases apart unless they are `Level` for
them: `**/*ending` is (`level_ending`), and `**/name/**` is if both bases or neither lie in such a
directory (`level_below`). And a `.` at the start of a base is left out in search results, but not
for literal ignores.
-/

namespace ElementManifest

open ElementManifest.Text ElementManifest.Glob

/-! ## Files side by side -/

section

variable (b b' : Path)

/-- Two paths that end with the name of a file and are behind two bases by the same names. -/
structure FileBeside (q q' : Path) : Prop where
  names : ∃ dirs name, (∀ c ∈ dirs, c.isName = true) ∧ q.steps = b.steps ++ (dirs ++ [.name name]) ∧
    q'.steps = b'.steps ++ (dirs ++ [.name name]) ∧ q.parts.getLast? = some name.toList ∧
    q'.parts.getLast? = some name.toList

/-- A pattern that does not tell two bases apart: it stands for a file behind one of them iff it
stands for the file behind the other one. -/
def Glob.Pattern.Level (p : Pattern) : Prop :=
  ∀ q q', FileBeside b b' q q' → p.isMatch q.text = p.isMatch q'.text

end

section

variable {b b' : Path}

theorem FileBeside.symm {q q' : Path} (h : FileBeside b b' q q') : FileBeside b' b q' q := by
  obtain ⟨dirs, name, hdirs, hsteps, hsteps', hlast, hlast'⟩ := h.names
  exact ⟨dirs, name, hdirs, hsteps', hsteps, hlast', hlast⟩

theorem Glob.Pattern.Level.symm {p : Pattern} (h : p.Level b b') : p.Level b' b :=
  fun q q' hbeside => (h q' q hbeside.symm).symm

theorem fileName?_of_steps {q : Path} {front : List Component} {name : String}
    (h : q.steps = front ++ [.name name]) : q.fileName? = some name := by
  unfold Path.fileName?
  rw [Path.components_eq_steps, h, ← List.append_assoc, List.getLast?_concat]

theorem FileBeside.fileName?_eq {q q' : Path} (h : FileBeside b b' q q') :
    q.fileName? = q'.fileName? := by
  obtain ⟨dirs, name, -, hsteps, hsteps', -⟩ := h.names
  rw [← List.append_assoc] at hsteps hsteps'
  rw [fileName?_of_steps hsteps, fileName?_of_steps hsteps']

theorem eq_toList_of_componentOf {part : List Char} {name : String}
    (h : Path.componentOf part = some (.name name)) : part = name.toList := by
  rcases Path.componentOf_cases h with ⟨-, hc⟩ | ⟨-, hc⟩
  · cases hc
  · rw [Component.name.inj hc, String.toList_ofList]

/-- The steps of a path before its last part. -/
theorem mem_dropLast_parts_iff {q : Path} {front : List Component} {name dir : String}
    (hsteps : q.steps = front ++ [.name name]) (hlast : q.parts.getLast? = some name.toList)
    (hdir : Path.componentOf dir.toList = some (.name dir)) :
    dir.toList ∈ q.parts.dropLast ↔ .name dir ∈ front := by
  obtain ⟨init, hparts⟩ := List.getLast?_eq_some_iff.mp hlast
  have hall := q.steps_eq
  rw [hsteps, hparts, List.filterMap_append, ← List.append_assoc] at hall
  -- the last step is told by a part, since the root of an absolute path is no name
  have hname : Path.componentOf name.toList = some (.name name) := by
    have hmem : .name name ∈ q.parts.filterMap Path.componentOf := by
      have hstep : .name name ∈ q.steps := by
        rw [hsteps]
        exact List.mem_append_right _ List.mem_cons_self
      rw [q.steps_eq] at hstep
      rcases List.mem_append.mp hstep with hroot | hmem
      · split at hroot
        next => cases List.mem_singleton.mp hroot
        next => cases hroot
      · exact hmem
    obtain ⟨part, -, hpart⟩ := List.mem_filterMap.mp hmem
    rwa [eq_toList_of_componentOf hpart] at hpart
  rw [List.filterMap_cons, hname] at hall
  have hfront := List.append_cancel_right hall
  rw [hparts, List.dropLast_concat, hfront, List.mem_append, List.mem_filterMap]
  constructor
  · exact fun hmem => Or.inr ⟨_, hmem, hdir⟩
  · rintro (hroot | ⟨part, hmem, hpart⟩)
    · split at hroot
      next => cases List.mem_singleton.mp hroot
      next => cases hroot
    · rwa [eq_toList_of_componentOf hpart] at hmem

/-- A directory on the way to one base only is what `**/name/**` tells two bases apart by. -/
theorem level_below {name : String} (hplain : isPlainText name.toList = true)
    (hname : isEntryName name = true) (hbases : .name name ∈ b.steps ↔ .name name ∈ b'.steps)
    {p : Pattern} (hp : Pattern.parse (belowPattern name) = .ok p) : p.Level b b' := by
  obtain ⟨hfree, hcomponent⟩ := inner_of_isEntryName hname
  change Path.componentOf name.toList = _ at hcomponent
  rintro q q' ⟨dirs, file, -, hsteps, hsteps', hlast, hlast'⟩
  rw [← List.append_assoc] at hsteps hsteps'
  rw [Bool.eq_iff_iff, isMatch_below_iff hplain hfree hp, isMatch_below_iff hplain hfree hp,
    mem_dropLast_parts_iff hsteps hlast hcomponent,
    mem_dropLast_parts_iff hsteps' hlast' hcomponent, List.mem_append, List.mem_append, hbases]

/-- An ending without a slash is an ending of the last part. -/
theorem suffix_text_iff {q : Path} {last ending : List Char} (hlast : q.parts.getLast? = some last)
    (hfree : ∀ x ∈ ending, x ≠ '/') : ending <:+ q.text.toList ↔ ending <:+ last := by
  obtain ⟨init, hparts⟩ := List.getLast?_eq_some_iff.mp hlast
  have htext := joinWith_splitOn q.text.toList
  change joinWith ['/'] q.parts = _ at htext
  rw [hparts] at htext
  by_cases hnil : init = []
  · rw [hnil] at htext
    rw [← htext]
    exact Iff.rfl
  · rw [joinWith_append hnil (List.cons_ne_nil _ _)] at htext
    change joinWith ['/'] init ++ (['/'] ++ last) = _ at htext
    rw [← htext, ← List.append_assoc]
    constructor
    · intro h
      by_cases hle : ending.length ≤ last.length
      · exact List.suffix_of_suffix_length_le h (List.suffix_append _ _) hle
      · -- a longer one would have the slash in front of the last part
        obtain ⟨more, hmore⟩ := List.suffix_of_suffix_length_le (List.suffix_append _ last) h
          (Nat.le_of_not_le hle)
        obtain ⟨front, hfront⟩ := h
        rw [← hmore, ← List.append_assoc] at hfront
        have hlast := congrArg List.getLast? (List.append_cancel_right hfront)
        have hne : more ≠ [] := by
          rintro rfl
          rw [List.nil_append] at hmore
          rw [hmore] at hle
          exact hle (Nat.le_refl _)
        rw [List.getLast?_append_of_ne_nil _ hne, List.getLast?_concat] at hlast
        exact absurd rfl (hfree '/' (hmore ▸ List.mem_append_left _ (List.mem_of_getLast? hlast)))
    · exact fun h => h.trans (List.suffix_append _ _)

theorem level_ending {ending : String} (hplain : isPlainText ending.toList = true)
    (hfree : ∀ x ∈ ending.toList, x ≠ '/') {p : Pattern}
    (hp : Pattern.parse (endingPattern ending) = .ok p) : p.Level b b' := by
  rintro q q' ⟨dirs, file, -, -, -, hlast, hlast'⟩
  rw [Bool.eq_iff_iff, isMatch_ending_iff hplain hp, isMatch_ending_iff hplain hp,
    suffix_text_iff hlast hfree, suffix_text_iff hlast' hfree]

end

namespace Scan

/-- The endings of test files. -/
def testEndings : List String :=
  [".test.tsx", ".test.ts", ".test.jsx", ".test.js", ".spec.tsx", ".spec.ts", ".spec.jsx",
    ".spec.js"]

theorem testFilePatterns_eq :
    testFilePatterns = testEndings.map endingPattern ++ [belowPattern "__tests__"] := by
  decide

/-- The endings stand for themselves in patterns, and have no slash. -/
theorem plain_of_mem_testEndings {ending : String} (h : ending ∈ testEndings) :
    isPlainText ending.toList = true ∧ ∀ x ∈ ending.toList, x ≠ '/' := by
  have hall : testEndings.all (fun ending =>
      isPlainText ending.toList && ending.toList.all (· ≠ '/')) = true := by decide +kernel
  obtain ⟨hplain, hfree⟩ := Bool.and_eq_true _ _ ▸ List.all_eq_true.mp hall ending h
  exact ⟨hplain, fun x hx => of_decide_eq_true (List.all_eq_true.mp hfree x hx)⟩

variable {b b' : Path}

/-- The patterns for test files tell two bases apart only if one is among tests. -/
theorem level_testFilePatterns
    (hbases : .name "__tests__" ∈ b.steps ↔ .name "__tests__" ∈ b'.steps) {text : String}
    (htext : text ∈ testFilePatterns) {p : Pattern} (hp : Pattern.parse text = .ok p) :
    p.Level b b' := by
  rw [testFilePatterns_eq] at htext
  rcases List.mem_append.mp htext with hending | hbelow
  · obtain ⟨ending, hmem, rfl⟩ := List.mem_map.mp hending
    obtain ⟨hplain, hfree⟩ := plain_of_mem_testEndings hmem
    exact level_ending hplain hfree hp
  · rw [List.mem_singleton.mp hbelow] at hp
    exact level_below (by decide) (by decide) hbases hp

/-! ## Scans side by side -/

/-- An include that leads to names below every base. -/
structure LeadsBelow (included : String) : Prop where
  relative : Path.isAbsolute ⟨included⟩ = false
  names : ∀ part ∈ Path.parts ⟨included⟩, part ≠ ['.', '.']
  stays_below : isGlob included = true →
    ∀ part ∈ Path.parts ⟨included⟩, partStaysBelow part = true
  no_gap : isGlob included = true → [] ∉ partsOf included.toList

/-- A base that patterns can be looked for behind: it has no pattern characters itself, and no
part of it is empty. -/
structure Searchable (b : Path) : Prop where
  plain : isPlainText b.text.toList = true
  no_gap : [] ∉ searchedParts b

/-- What makes two bases alike for a scan. -/
structure AlikeBases (b b' : Path) (includes ignores : List String) (testFiles : Bool) : Prop where
  below : ∀ included ∈ includes, LeadsBelow included
  relative : ∀ ignored ∈ ignores, isGlob ignored = false → Path.isAbsolute ⟨ignored⟩ = false
  searchable : (∃ included ∈ includes, isGlob included = true) → Searchable b ∧ Searchable b'
  here : (∃ included ∈ includes, isGlob included = true) →
    (∃ ignored ∈ ignores, isGlob ignored = false) → b.startsHere = b'.startsHere
  level : ∀ ignored ∈ ignores, isGlob ignored = true → ∀ p, Pattern.parse ignored = .ok p →
    p.Level b b'
  tests : testFiles = true → (.name "__tests__" ∈ b.steps ↔ .name "__tests__" ∈ b'.steps)

variable {includes ignores : List String} {testFiles : Bool}

theorem AlikeBases.symm (h : AlikeBases b b' includes ignores testFiles) :
    AlikeBases b' b includes ignores testFiles where
  below := h.below
  relative := h.relative
  searchable := fun hglob => (h.searchable hglob).symm
  here := fun hglob hliteral => (h.here hglob hliteral).symm
  level := fun ignored hmem hglob p hp => (h.level ignored hmem hglob p hp).symm
  tests := fun htest => (h.tests htest).symm

theorem LeadsBelow.followable {included : String} (h : LeadsBelow included) (base : Path)
    (hplain : isGlob included = true → isPlainText base.text.toList = true) :
    Followable base base.lead included :=
  followable_of_names h.names (fun habs => absurd habs (Bool.eq_false_iff.mp h.relative)) hplain
    h.stays_below

section

variable {fs fs' : FileSystem}

/-- A pattern leads to the same behind two bases with the same tree. -/
theorem exists_mem_search (hnamed : fs.root.isNamed = true) {t : FileTree}
    (hb : fs.find? b = some t) (hb' : fs'.find? b' = some t) (hsearchable : Searchable b)
    (hsearchable' : Searchable b') {included : String} (hbelow : LeadsBelow included)
    (hglob : isGlob included = true) {found : List Path}
    (hfound : search fs (b.join ⟨included⟩).text = .ok found) {r : Path} (hr : r ∈ found) :
    ∃ found', search fs' (b'.join ⟨included⟩).text = .ok found' ∧
      ∃ r' ∈ found', Mirrored b b' fs fs' r r' := by
  have hne : included ≠ "" := by
    rintro rfl
    cases hglob
  obtain ⟨path, htext, hfind, hsteps, hsearch⟩ :=
    search_join hb hsearchable.plain hsearchable.no_gap hbelow.relative hne
  obtain ⟨path', htext', hfind', hsteps', hsearch'⟩ :=
    search_join hb' hsearchable'.plain hsearchable'.no_gap hbelow.relative hne
  -- both searches get to the tree of the base, and follow the patterns of the include from there
  have hmirrored : Mirrored b b' fs fs' path path' :=
    { text_ne := htext
      text_ne' := htext'
      names := ⟨[], nofun, by rw [hsteps, List.append_nil], by rw [hsteps', List.append_nil]⟩
      find?_eq := hfind.trans hfind'.symm }
  rw [hsearch] at hfound
  obtain ⟨pattern, hparse, hfound⟩ := bind_eq_ok_iff.mp hfound
  obtain ⟨ps, hps, hfound⟩ := bind_eq_ok_iff.mp hfound
  rw [← Except.ok.inj hfound] at hr
  obtain ⟨pattern', hparse'⟩ := exists_parse_join (FileSystem.text_ne_of_find? hb)
    (FileSystem.text_ne_of_find? hb') hsearchable.plain hsearchable'.plain hbelow.relative hparse
  have hparts : ∀ part ∈ partsOf included.toList, part ∈ Path.parts ⟨included⟩ :=
    fun part hpart => partsOf_subset hpart
  obtain ⟨r', hr', hmirrored'⟩ := exists_found_beside hnamed
    (forall₂_of_mapM (fun part hpart => Path.free_of_mem_parts (hparts part hpart)) hps)
    (fun part hpart => hbelow.stays_below hglob part (hparts part hpart))
    (hbelow.no_gap hglob) hmirrored (found_of_mem_searchFrom hr)
  refine ⟨_, ?_, r', hr'.mem_searchFrom, hmirrored'⟩
  rw [hsearch', hparse', hps]
  rfl

/-- Whether two paths both keep the `.` of their bases or both leave it out, as far as that
matters for what is ignored. -/
def HereAlike (b b' : Path) (ignores : List String) (q q' : Path) : Prop :=
  (∃ ignored ∈ ignores, isGlob ignored = false) →
    (q.startsHere = b.startsHere ↔ q'.startsHere = b'.startsHere)

/-- Scans start side by side. -/
theorem exists_isRoot (hnamed : fs.root.isNamed = true) (hnamed' : fs'.root.isNamed = true)
    {t : FileTree} (hb : fs.find? b = some t) (hb' : fs'.find? b' = some t)
    (halike : AlikeBases b b' includes ignores testFiles) {r : Path}
    (hr : IsRoot fs b includes r) :
    ∃ r', IsRoot fs' b' includes r' ∧ Mirrored b b' fs fs' r r' ∧ HereAlike b b' ignores r r' := by
  have hself : Mirrored b b' fs fs' b b' :=
    { text_ne := FileSystem.text_ne_of_find? hb
      text_ne' := FileSystem.text_ne_of_find? hb'
      names := ⟨[], nofun, (List.append_nil _).symm, (List.append_nil _).symm⟩
      find?_eq := hb.trans hb'.symm }
  cases hr with
  | base hnil => exact ⟨b', .base hnil, hself, fun _ => iff_of_true rfl rfl⟩
  | @literal included hmem hglob hexists =>
    have hbelow := halike.below included hmem
    have hjoin := hself.join (q := ⟨included⟩) hbelow.relative
      fun hup => hbelow.names _ hup rfl
    refine ⟨b'.join ⟨included⟩, .literal hmem hglob ?_, hjoin, fun _ => ?_⟩
    · unfold FileSystem.pathExists at hexists ⊢
      rw [← hjoin.find?_eq]
      exact hexists
    · rw [Path.startsHere_join (FileSystem.text_ne_of_find? hb) hbelow.relative,
        Path.startsHere_join (FileSystem.text_ne_of_find? hb') hbelow.relative]
      exact iff_of_true rfl rfl
  | @glob included found _ hmem hglob hsearch hfound hdir =>
    have hbelow := halike.below included hmem
    obtain ⟨hsearchable, hsearchable'⟩ := halike.searchable ⟨included, hmem, hglob⟩
    obtain ⟨found', hsearch', r', hfound', hmirrored⟩ := exists_mem_search hnamed hb hb'
      hsearchable hsearchable' hbelow hglob hsearch hfound
    refine ⟨r', .glob hmem hglob hsearch' hfound' ?_, hmirrored, fun hliteral => ?_⟩
    · unfold FileSystem.isDirectory at hdir ⊢
      rw [← hmirrored.find?_eq]
      exact hdir
    · -- whether a result starts with `.` is told by its pattern, and the bases are alike in that
      have hspelled := spelledFrom_of_mem_search hnamed
        (hbelow.followable b fun _ => hsearchable.plain) hglob hsearch hfound
      have hspelled' := spelledFrom_of_mem_search hnamed'
        (hbelow.followable b' fun _ => hsearchable'.plain) hglob hsearch' hfound'
      rw [hspelled.here_eq, hspelled'.here_eq, halike.here ⟨included, hmem, hglob⟩ hliteral]

/-- A path that leads to a file ends with its name: behind a slash, a `.` or a `..` there would be
a directory. -/
theorem exists_last_of_find? {r : Path} {text : Option String}
    (hr : fs.find? r = some (.file text)) :
    ∃ front name, r.steps = front ++ [.name name] ∧ r.parts.getLast? = some name.toList := by
  obtain ⟨place, hplace, hat⟩ := Option.bind_eq_some_iff.mp hr
  have hnotDirectory : fs.isDirectoryAt place = false := by
    unfold FileSystem.isDirectoryAt
    rw [hat]
    rfl
  obtain ⟨init, last, hparts⟩ : ∃ init last, r.parts = init ++ [last] :=
    ⟨_, _, (List.dropLast_append_getLast (splitOn_ne_nil _ _)).symm⟩
  obtain ⟨before, hdir, heq⟩ :
      ∃ before, fs.isDirectoryAt before = true ∧ FileSystem.placeBehind before last = place := by
    unfold FileSystem.place? at hplace
    rw [if_neg (Path.text_ne_of_place hplace), hparts, List.foldlM_append] at hplace
    obtain ⟨before, -, hlast⟩ := Option.bind_eq_some_iff.mp hplace
    obtain ⟨hdir, hbehind⟩ := Option.ite_none_right_eq_some.mp
      ((Option.bind_fun_some _).symm.trans hlast)
    exact ⟨before, hdir, Option.some.inj hbehind⟩
  unfold FileSystem.placeBehind at heq
  split at heq
  next =>
    rw [heq, hnotDirectory] at hdir
    cases hdir
  next hcounts =>
    split at heq
    next =>
      rw [← heq, FileSystem.isDirectoryAt_dropLast hdir] at hnotDirectory
      cases hnotDirectory
    next hup =>
      have hlast : Path.componentOf last = some (.name (String.ofList last)) := by
        unfold Path.componentOf
        rw [if_neg hcounts, if_neg hup]
      refine ⟨(if r.isAbsolute then [.root] else []) ++ init.filterMap Path.componentOf,
        String.ofList last, ?_, ?_⟩
      · rw [r.steps_eq, hparts, List.filterMap_append, List.filterMap_cons, hlast,
          List.append_assoc]
        rfl
      · rw [hparts, List.getLast?_concat, String.toList_ofList]

/-- A file that is found behind a base by names has its name as last part. -/
theorem exists_last_of_file {es : List (String × FileTree)} (hb : fs.find? b = some (.directory es))
    {r : Path} {text : Option String} (hr : fs.find? r = some (.file text))
    {names : List Component} (hsteps : r.steps = b.steps ++ names) :
    ∃ dirs name, names = dirs ++ [.name name] ∧ r.parts.getLast? = some name.toList := by
  obtain ⟨front, name, hfront, hlast⟩ := exists_last_of_find? hr
  rcases List.eq_nil_or_concat' names with rfl | ⟨dirs, c, rfl⟩
  · -- without names it would be the base
    exfalso
    obtain ⟨place, hplace, hat⟩ := Option.bind_eq_some_iff.mp hb
    obtain ⟨place', hplace', hat'⟩ := Option.bind_eq_some_iff.mp hr
    have hsame : place' = place := by
      rw [Path.place_eq_foldl_steps hplace', Path.place_eq_foldl_steps hplace, hsteps,
        List.append_nil]
    rw [hsame, hat] at hat'
    cases hat'
  · rw [hsteps, ← List.append_assoc] at hfront
    obtain rfl : c = .name name := List.singleton_injective (List.append_inj_right' hfront rfl)
    exact ⟨dirs, name, rfl, hlast⟩

/-- Walks go side by side. -/
theorem exists_reaches (hnamed : fs.root.isNamed = true) {root root' p : Path} {t : FileTree}
    (hroot : Mirrored b b' fs fs' root root') (h : fs.Reaches root p t) :
    t.isNamed = true ∧ ∃ p', fs'.Reaches root' p' t ∧ Beside b b' p p' ∧
      Path.Down root.components p.components ∧ Path.Down root'.components p'.components ∧
      (fs.find? p = some t ∧ fs'.find? p' = some t ∨ FileBeside b b' p p') := by
  induction h with
  | root hfind =>
    have hfind' := hroot.find?_eq.symm.trans hfind
    exact ⟨isNamed_find? hnamed hfind, root', .root hfind', hroot.toBeside, .refl _, .refl _,
      Or.inl ⟨hfind, hfind'⟩⟩
  | @entry dir es name t hdir hmem ih =>
    obtain ⟨hnamedDir, dir', hreaches', hbeside, hdown, hdown', -⟩ := ih
    rw [FileTree.isNamed] at hnamedDir
    obtain ⟨hname, hnamedEntry⟩ := isNamed_of_mem hnamedDir hmem
    obtain ⟨-, hfree, hup⟩ := parts_of_isEntryName hname
    have hparts := parts_of_free hfree
    have habs := isAbsolute_of_free hfree
    -- an entry adds its name to both paths, so they stay behind the bases by the same names
    have hfile : FileBeside b b' (dir.join ⟨name⟩) (dir'.join ⟨name⟩) := by
      obtain ⟨names, hnames, hdirSteps, hdirSteps'⟩ := hbeside.names
      refine ⟨names, name, hnames, ?_, ?_, getLast?_parts_join_name _ hname,
        getLast?_parts_join_name _ hname⟩
      · rw [steps_join_name _ hname, hdirSteps, List.append_assoc]
      · rw [steps_join_name _ hname, hdirSteps', List.append_assoc]
    refine ⟨hnamedEntry, dir'.join ⟨name⟩, hreaches'.entry hmem, hbeside.join habs ?_,
      hdown.trans ?_, hdown'.trans ?_, Or.inr hfile⟩
    · rw [hparts, List.mem_singleton]
      exact fun hdots => hup hdots.symm
    · exact components_join_name dir hname ▸ Path.Down.name _ _
    · exact components_join_name dir' hname ▸ Path.Down.name _ _

/-- A file is reached side by side. -/
theorem exists_file_beside (hnamed : fs.root.isNamed = true) {es : List (String × FileTree)}
    (hb : fs.find? b = some (.directory es)) (hb' : fs'.find? b' = some (.directory es))
    {root root' p : Path} {text : Option String} (hroot : Mirrored b b' fs fs' root root')
    (h : fs.Reaches root p (.file text)) :
    ∃ p', fs'.Reaches root' p' (.file text) ∧ FileBeside b b' p p' ∧
      p.startsHere = root.startsHere ∧ p'.startsHere = root'.startsHere := by
  obtain ⟨-, p', hreaches', hbeside, hdown, hdown', hcases⟩ := exists_reaches hnamed hroot h
  have hne : ∀ {p : Path}, p.text ≠ "" → p.components ≠ [] :=
    fun hp hnil => hp ((Path.components_eq_nil_iff _).mp hnil)
  refine ⟨p', hreaches', ?_, Path.startsHere_of_down (hne hroot.text_ne) hdown,
    Path.startsHere_of_down (hne hroot.text_ne') hdown'⟩
  rcases hcases with ⟨hfind, hfind'⟩ | hfile
  · obtain ⟨names, hnames, hsteps, hsteps'⟩ := hbeside.names
    obtain ⟨dirs, name, rfl, hlast⟩ := exists_last_of_file hb hfind hsteps
    obtain ⟨dirs', name', heq, hlast'⟩ := exists_last_of_file hb' hfind' hsteps'
    obtain ⟨rfl, hname⟩ := List.append_inj' heq rfl
    cases hname
    exact ⟨dirs, name, fun c hc => hnames c (List.mem_append_left _ hc), hsteps, hsteps', hlast,
      hlast'⟩
  · exact hfile

/-- What a scan takes behind one base, it takes behind the other one. -/
theorem passes_beside (hb : b.text ≠ "") (hb' : b'.text ≠ "")
    (halike : AlikeBases b b' includes ignores testFiles) {q q' : Path}
    (hbeside : FileBeside b b' q q') (hhere : HereAlike b b' ignores q q')
    (h : Passes b ignores testFiles q) : Passes b' ignores testFiles q' where
  named := by
    rw [← hbeside.fileName?_eq]
    exact h.named
  extended := by
    unfold Path.extension?
    rw [← hbeside.fileName?_eq]
    exact h.extended
  not_below := by
    intro ignored hmem hliteral hstarts
    have hrelative := halike.relative ignored hmem hliteral
    have hne : ∀ {b : Path}, b.text ≠ "" → (b.join ⟨ignored⟩).components ≠ [] :=
      fun hb hnil => join_text_ne hb hrelative ((Path.components_eq_nil_iff _).mp hnil)
    refine h.not_below ignored hmem hliteral ?_
    -- the steps of the two bases cancel, and what is left of both paths is the same
    obtain ⟨dirs, name, -, hsteps, hsteps', -⟩ := hbeside.names
    rw [Path.components_prefix_iff_steps (hne hb'), FileSystem.steps_join hb' hrelative, hsteps',
      List.prefix_append_right_inj, Path.startsHere_join hb' hrelative] at hstarts
    rw [Path.components_prefix_iff_steps (hne hb), FileSystem.steps_join hb hrelative, hsteps,
      List.prefix_append_right_inj, Path.startsHere_join hb hrelative]
    exact ⟨hstarts.1, (hhere ⟨ignored, hmem, hliteral⟩).mpr hstarts.2⟩
  not_matched := by
    intro ignored hmem hglob p hp
    rw [← halike.level ignored hmem hglob p hp q q' hbeside]
    exact h.not_matched ignored hmem hglob p hp
  no_test := by
    intro htest text htext p hp
    rw [← level_testFilePatterns (halike.tests htest) htext hp q q' hbeside]
    exact h.no_test htest text htext p hp

theorem exists_found_beside (hnamed : fs.root.isNamed = true) (hnamed' : fs'.root.isNamed = true)
    {es : List (String × FileTree)} (hb : fs.find? b = some (.directory es))
    (hb' : fs'.find? b' = some (.directory es))
    (halike : AlikeBases b b' includes ignores testFiles) {q : Path}
    (hq : Found fs b includes ignores testFiles q) :
    ∃ q', Found fs' b' includes ignores testFiles q' ∧ FileBeside b b' q q' := by
  obtain ⟨root, text, hroot, hreaches, hpasses⟩ := hq
  obtain ⟨root', hroot', hmirrored, hhere⟩ := exists_isRoot hnamed hnamed' hb hb' halike hroot
  obtain ⟨q', hreaches', hbeside, hstart, hstart'⟩ :=
    exists_file_beside hnamed hb hb' hmirrored hreaches
  refine ⟨q', ⟨root', text, hroot', hreaches', ?_⟩, hbeside⟩
  refine passes_beside (FileSystem.text_ne_of_find? hb) (FileSystem.text_ne_of_find? hb') halike
    hbeside (fun hliteral => ?_) hpasses
  rw [hstart, hstart']
  exact hhere hliteral

/-- The files of a scan, as the names behind the base that lead to them. -/
def relativeFiles (fs : FileSystem) (b : Path) (includes ignores : List String)
    (testFiles : Bool) : Set (List Component) :=
  {names | ∃ q ∈ (scan fs b includes ignores testFiles).files, q.steps = b.steps ++ names}

theorem relativeFiles_subset (hnamed : fs.root.isNamed = true) (hnamed' : fs'.root.isNamed = true)
    {es : List (String × FileTree)} (hb : fs.find? b = some (.directory es))
    (hb' : fs'.find? b' = some (.directory es))
    (halike : AlikeBases b b' includes ignores testFiles) :
    relativeFiles fs b includes ignores testFiles ⊆
      relativeFiles fs' b' includes ignores testFiles := by
  rintro names ⟨q, hq, hsteps⟩
  obtain ⟨q', hfound', hbeside⟩ :=
    exists_found_beside hnamed hnamed' hb hb' halike (found_of_mem_files hq)
  obtain ⟨dirs, name, -, hqsteps, hqsteps', -⟩ := hbeside.names
  obtain rfl : names = dirs ++ [.name name] :=
    List.append_cancel_left (hsteps.symm.trans hqsteps)
  obtain ⟨kept, hkept, hsame⟩ := has_files_iff.mpr ⟨q', hfound', rfl⟩
  refine ⟨kept, hkept, ?_⟩
  unfold Path.steps at hqsteps' ⊢
  rw [hsame]
  exact hqsteps'

/-- **Scanning does not depend on where a project lies**, as far as the two bases are alike for
it. Take any two file systems and a base in each, with the same tree at both. Every file that is
scanned is behind its base by names, and the scans find the same files behind their bases. -/
theorem scan_wherever (hnamed : fs.root.isNamed = true) (hnamed' : fs'.root.isNamed = true)
    {es : List (String × FileTree)} (hb : fs.find? b = some (.directory es))
    (hb' : fs'.find? b' = some (.directory es))
    (halike : AlikeBases b b' includes ignores testFiles) :
    (∀ q ∈ (scan fs b includes ignores testFiles).files,
      ∃ names ∈ relativeFiles fs b includes ignores testFiles,
        (∀ c ∈ names, c.isName = true) ∧ q.steps = b.steps ++ names) ∧
    relativeFiles fs b includes ignores testFiles =
      relativeFiles fs' b' includes ignores testFiles := by
  refine ⟨?_, ?_⟩
  · intro q hq
    obtain ⟨q', -, hbeside⟩ :=
      exists_found_beside hnamed hnamed' hb hb' halike (found_of_mem_files hq)
    obtain ⟨dirs, name, hdirs, hsteps, -⟩ := hbeside.names
    refine ⟨_, ⟨q, hq, hsteps⟩, ?_, hsteps⟩
    intro c hc
    rcases List.mem_append.mp hc with hc | hc
    · exact hdirs c hc
    · rw [List.mem_singleton.mp hc]
      rfl
  · exact Set.Subset.antisymm (relativeFiles_subset hnamed hnamed' hb hb' halike)
      (relativeFiles_subset hnamed' hnamed hb' hb halike.symm)

end

/-- A project with files of every kind, among them some that are ignored. -/
def projectFiles : List (String × FileTree) :=
  [("src", .directory [("x-a.ts", .file (some "")), ("x-a.test.ts", .file (some "")),
    ("gen", .directory [("x-b.ts", .file (some ""))]),
    ("lib", .directory [("dist", .directory [("x-c.ts", .file (some ""))])])])]

/-- The project in two places, one of them with a name that is a pattern, and a third. -/
def threePlaces : FileSystem :=
  ⟨.directory [("proj", .directory projectFiles),
    ("home", .directory [("work", .directory projectFiles), ("[w]", .directory projectFiles)])],
    []⟩

/-- The same files are found in two of the places, with includes and ignores of all kinds. -/
theorem scan_wherever_three_places :
    relativeFiles threePlaces ⟨"proj"⟩ ["src", "s*"] ["**/dist/**", "src/gen"] true =
      relativeFiles threePlaces ⟨"home/work/"⟩ ["src", "s*"] ["**/dist/**", "src/gen"] true ∧
    (scan threePlaces ⟨"home/work/"⟩ ["src", "s*"] ["**/dist/**", "src/gen"] true).files =
      [⟨"home/work/src/x-a.ts"⟩] := by
  have halike : AlikeBases ⟨"proj"⟩ ⟨"home/work/"⟩ ["src", "s*"] ["**/dist/**", "src/gen"] true :=
    { below := by
        have hnames : ∀ included ∈ ["src", "s*"],
            ∀ part ∈ Path.parts ⟨included⟩, part ≠ ['.', '.'] := by decide +kernel
        have hbelow : ∀ included ∈ ["src", "s*"], isGlob included = true →
            ∀ part ∈ Path.parts ⟨included⟩, partStaysBelow part = true := by decide +kernel
        have hgap : ∀ included ∈ ["src", "s*"], isGlob included = true →
            [] ∉ partsOf included.toList := by decide +kernel
        have hrelative : ∀ included ∈ ["src", "s*"],
            Path.isAbsolute ⟨included⟩ = false := by decide +kernel
        exact fun included hmem => ⟨hrelative included hmem, hnames included hmem,
          hbelow included hmem, hgap included hmem⟩
      relative := by decide +kernel
      searchable := fun _ => ⟨⟨by decide, by decide +kernel⟩, ⟨by decide, by decide +kernel⟩⟩
      here := fun _ _ => by decide +kernel
      level := by
        intro ignored hmem hglob p hp
        rcases List.mem_cons.mp hmem with rfl | hmem
        · exact @level_below _ _ "dist" (by decide) (by decide) (by decide +kernel) p hp
        · rw [List.mem_singleton.mp hmem] at hglob
          cases hglob
      tests := fun _ => by decide +kernel }
  have hnamed : threePlaces.root.isNamed = true := by decide +kernel
  exact ⟨(scan_wherever hnamed hnamed rfl rfl halike).2, by decide +kernel⟩

/-- In the third place the pattern leads nowhere, as the name of the base is read as one. -/
theorem scan_depends_on_base :
    threePlaces.find? ⟨"home/[w]"⟩ = threePlaces.find? ⟨"proj"⟩ ∧
      (scan threePlaces ⟨"proj"⟩ ["s*"] [] true).files.map (·.text) =
        ["proj/src/gen/x-b.ts", "proj/src/lib/dist/x-c.ts", "proj/src/x-a.ts"] ∧
      (scan threePlaces ⟨"home/[w]"⟩ ["s*"] [] true).files = [] :=
  ⟨rfl, by decide +kernel, by decide +kernel⟩

end Scan

end ElementManifest

import ElementManifest.Proofs.ScanOnce
import ElementManifest.Proofs.ScannedFiles

/-!
# What a literal ignore leaves out

A literal ignore names a directory or a file in the base, and is meant to leave out what lies
in it, wherever the walk came from. What it does leave out are the paths whose components start
with its own. Both come to the same for paths whose names start at one place and that are
spelled alike at the start:

> `components_prefix_iff`: the components of one path start with those of another iff it leads
> to a place in there, and both start with a `.` or neither does.

So a literal ignore leaves out exactly what is found by an include that is spelled as the
ignore is (`left_out_if_spelled_alike`). Under `.` the paths that patterns lead to are spelled
without the `.`, and no literal ignore holds for them (`not_left_out_from_here`).
-/

namespace ElementManifest

open ElementManifest.Text ElementManifest.Glob

/-! ## Lying in a place -/

/-- A path leads into the place that another one leads to, or to that place itself. -/
def FileSystem.LiesIn (fs : FileSystem) (p q : Path) : Prop :=
  ∃ inside outside, fs.place? p = some inside ∧ fs.place? q = some outside ∧ outside <+: inside

namespace Component

theorem prefix_of_texts {names names' : List Component} (h : ∀ c ∈ names, c.isName = true)
    (h' : ∀ c ∈ names', c.isName = true) (htexts : names.map text <+: names'.map text) :
    names <+: names' := by
  have htake : names.map text = (names'.take names.length).map text := by
    have heq := List.prefix_iff_eq_take.mp htexts
    rw [List.length_map] at heq
    rw [heq, List.map_take]
  have hnames : names = names'.take names.length :=
    names_eq_of_texts h (fun c hc => h' c (List.mem_of_mem_take hc)) htake
  rw [hnames]
  exact List.take_prefix _ _

end Component

namespace Path

/-- Where two paths have their names start at one place, the steps of one start with those of
the other iff the places do. -/
theorem steps_prefix_iff {fs : FileSystem} {p q : Path} {inside outside : Place}
    (hlead : p.lead = q.lead) (hp : fs.place? p = some inside)
    (hq : fs.place? q = some outside) : q.steps <+: p.steps ↔ outside <+: inside := by
  obtain ⟨names, hnames, hsteps⟩ := exists_names p
  obtain ⟨names', hnames', hsteps'⟩ := exists_names q
  have hinside := place_eq_foldl_steps hp
  have houtside := place_eq_foldl_steps hq
  rw [hsteps, List.foldl_append, Component.foldl_enter_names hnames] at hinside
  rw [hsteps', List.foldl_append, Component.foldl_enter_names hnames', ← hlead] at houtside
  rw [hsteps, hsteps', hlead, hinside, houtside, hlead, List.prefix_append_right_inj,
    List.prefix_append_right_inj]
  exact ⟨fun h => h.map _, Component.prefix_of_texts hnames' hnames⟩

/-- The components of a path start with those of another iff its steps do and both start with a
`.` or neither does. -/
theorem components_prefix_iff_steps {p q : Path} (hq : q.components ≠ []) :
    q.components <+: p.components ↔ q.steps <+: p.steps ∧ p.startsHere = q.startsHere := by
  constructor
  · intro h
    refine ⟨h.filter _, ?_⟩
    obtain ⟨rest, hrest⟩ := h
    unfold startsHere
    rw [← hrest, List.head?_append_of_ne_nil _ hq]
  · rintro ⟨hsteps, hhere⟩
    rw [components_eq_steps p, components_eq_steps q, hhere, List.prefix_append_right_inj]
    exact hsteps

theorem components_ne_nil_of_place {fs : FileSystem} {p : Path} {place : Place}
    (h : fs.place? p = some place) : p.components ≠ [] :=
  fun hnil => text_ne_of_place h ((components_eq_nil_iff p).mp hnil)

theorem startsHere_join {p q : Path} (hp : p.text ≠ "") (hq : q.isAbsolute = false) :
    (p.join q).startsHere = p.startsHere := by
  have hne : p.components ≠ [] := fun h => hp ((components_eq_nil_iff p).mp h)
  unfold startsHere
  rw [components_join hp hq, List.head?_append_of_ne_nil _ hne]

/-- **Components and places**: among paths whose names start at one place, the components of one
start with those of another iff it lies in there, and is spelled alike at the start. -/
theorem components_prefix_iff {fs : FileSystem} {p q : Path} {inside outside : Place}
    (hlead : p.lead = q.lead) (hp : fs.place? p = some inside)
    (hq : fs.place? q = some outside) :
    q.components <+: p.components ↔ fs.LiesIn p q ∧ p.startsHere = q.startsHere := by
  have hlies : fs.LiesIn p q ↔ outside <+: inside := by
    constructor
    · rintro ⟨_, _, hp', hq', h⟩
      rw [hp] at hp'
      rw [hq] at hq'
      cases hp'
      cases hq'
      exact h
    · exact fun h => ⟨inside, outside, hp, hq, h⟩
  rw [components_prefix_iff_steps (components_ne_nil_of_place hq), steps_prefix_iff hlead hp hq,
    hlies]

end Path

/-! ## Ignores of a scan -/

namespace Scan

theorem startsHere_eq_of_literal {base : Path} {text : String} (h : isGlob text = false) :
    startsHere base text = (base.join ⟨text⟩).startsHere := by
  unfold startsHere
  rw [h]
  rfl

section

variable {fs : FileSystem} {base : Path} {includes ignores : List String} {testFiles : Bool}

/-- A path that is found is spelled from the base, as some include tells or, without includes,
as the base is. -/
theorem spelledFrom_of_found (hnamed : fs.root.isNamed = true)
    (hincludes : ∀ included ∈ includes, Followable base base.lead included) {p : Path}
    (hp : Found fs base includes ignores testFiles p) :
    ∃ here, SpelledFrom base base.lead here p ∧
      ((includes = [] ∧ base.components ≠ [] ∧ here = base.startsHere) ∨
        ∃ included ∈ includes, here = startsHere base included) := by
  obtain ⟨root, text, hroot, hreaches, -⟩ := hp
  have hwalk := FileSystem.mem_walk?_iff.mpr hreaches
  obtain ⟨found, hfound⟩ : ∃ found, fs.walk? root = some found := by
    cases h : fs.walk? root with
    | none =>
      rw [h] at hwalk
      cases hwalk
    | some found => exact ⟨found, rfl⟩
  rw [hfound, Option.getD_some] at hwalk
  have hdown := down_of_mem_walk? hnamed hfound hwalk
  -- A walk starts at a place, and the empty path has none.
  have hne : root.components ≠ [] := by
    obtain ⟨t, ht, -⟩ := Option.map_eq_some_iff.mp hfound
    obtain ⟨place, hplace, -⟩ := Option.bind_eq_some_iff.mp ht
    exact Path.components_ne_nil_of_place hplace
  by_cases hnil : includes = []
  · obtain rfl : root = base := by
      cases hroot with
      | base => rfl
      | literal hmem => rw [hnil] at hmem; cases hmem
      | glob hmem => rw [hnil] at hmem; cases hmem
    exact ⟨_, SpelledFrom.down ⟨rfl, rfl, Or.inr (Or.inr List.prefix_rfl)⟩ hne hdown,
      Or.inl ⟨hnil, hne, rfl⟩⟩
  · obtain ⟨included, hmem, hroots⟩ := (mem_rootsOf_iff hnil).mpr hroot
    have hspelled := spelledFrom_of_mem_rootsOf hnamed (hincludes included hmem) hroots
    exact ⟨_, hspelled.down hne hdown, Or.inr ⟨included, hmem, rfl⟩⟩

/-- The paths that are found with an ignore less, and that the ignore does not leave out. -/
theorem found_iff_of_literal {ignored : String} (hmem : ignored ∈ ignores)
    (hliteral : isGlob ignored = false) {p : Path} :
    Found fs base includes ignores testFiles p ↔
      Found fs base includes (ignores.filter (· ≠ ignored)) testFiles p ∧
        ¬(base.join ⟨ignored⟩).components <+: p.components := by
  constructor
  · rintro ⟨root, text, hroot, hreaches, hpasses⟩
    exact ⟨⟨root, text, hroot, hreaches, hpasses.anti (List.filter_subset_self _)⟩,
      hpasses.not_below ignored hmem hliteral⟩
  · rintro ⟨⟨root, text, hroot, hreaches, hpasses⟩, hbelow⟩
    have hother : ∀ i ∈ ignores, i ≠ ignored → i ∈ ignores.filter (· ≠ ignored) :=
      fun i hi hne => List.mem_filter.mpr ⟨hi, decide_eq_true hne⟩
    refine ⟨root, text, hroot, hreaches, hpasses.named, hpasses.extended, ?_, ?_, hpasses.no_test⟩
    · intro i hi hglob
      by_cases heq : i = ignored
      · rw [heq]
        exact hbelow
      · exact hpasses.not_below i (hother i hi heq) hglob
    · intro i hi hglob
      have hne : i ≠ ignored := by
        rintro rfl
        rw [hliteral] at hglob
        cases hglob
      exact hpasses.not_matched i (hother i hi hne) hglob

/-- **A literal ignore holds for every include that is spelled alike.** Take any tree of files,
any base, any includes that can be told from their spelling, paths and patterns, and a literal
ignore below the base. Of the files that would be found without it, the ignore leaves out
exactly those that lie in what it names and start with a `.` if it does and only then. So if the
includes are all spelled as the ignore is, no file of the scan lies in there. -/
theorem left_out_if_spelled_alike (hnamed : fs.root.isNamed = true)
    (hincludes : ∀ included ∈ includes, Followable base base.lead included) {ignored : String}
    (hmem : ignored ∈ ignores) (hliteral : isGlob ignored = false)
    (hrelative : Path.isAbsolute ⟨ignored⟩ = false)
    (hnames : ∀ part ∈ Path.parts ⟨ignored⟩, part ≠ ['.', '.']) :
    (∀ p, Found fs base includes (ignores.filter (· ≠ ignored)) testFiles p →
      fs.LiesIn p (base.join ⟨ignored⟩) →
        (Found fs base includes ignores testFiles p ↔
          p.startsHere ≠ startsHere base ignored)) ∧
    ((∀ included ∈ includes, startsHere base included = startsHere base ignored) →
      ∀ p ∈ (scan fs base includes ignores testFiles).files,
        ¬fs.LiesIn p (base.join ⟨ignored⟩)) := by
  have hlead : (base.join ⟨ignored⟩).lead = base.lead :=
    (followable_of_names hnames (fun habs => absurd habs (Bool.eq_false_iff.mp hrelative))
      (fun hglob => absurd hglob (Bool.eq_false_iff.mp hliteral))
      (fun hglob => absurd hglob (Bool.eq_false_iff.mp hliteral))).lead_eq
  have hfound : ∀ p, Found fs base includes (ignores.filter (· ≠ ignored)) testFiles p →
      fs.LiesIn p (base.join ⟨ignored⟩) →
        (Found fs base includes ignores testFiles p ↔
          p.startsHere ≠ startsHere base ignored) := by
    intro p hp hlies
    obtain ⟨here, hspelled, -⟩ := spelledFrom_of_found hnamed hincludes hp
    obtain ⟨inside, outside, hinside, houtside, -⟩ := id hlies
    rw [found_iff_of_literal hmem hliteral, startsHere_eq_of_literal hliteral,
      Path.components_prefix_iff (hspelled.lead_eq.trans hlead.symm) hinside houtside]
    exact ⟨fun h hhere => h.2 ⟨hlies, hhere⟩, fun h => ⟨hp, fun hboth => h hboth.2⟩⟩
  refine ⟨hfound, ?_⟩
  intro halike p hp hlies
  have hpfound := found_of_mem_files hp
  have hless := ((found_iff_of_literal hmem hliteral).mp hpfound).1
  refine (hfound p hless hlies).mp hpfound ?_
  obtain ⟨here, hspelled, horigin⟩ := spelledFrom_of_found hnamed hincludes hpfound
  rw [hspelled.here_eq]
  rcases horigin with ⟨-, hne, rfl⟩ | ⟨included, hincluded, rfl⟩
  · -- without includes the walk starts at the base, where the ignore starts as well
    have hbase : base.text ≠ "" := fun h => hne ((Path.components_eq_nil_iff base).mpr h)
    rw [startsHere_eq_of_literal hliteral, Path.startsHere_join hbase hrelative]
  · exact halike included hincluded

end

/-- A project with a directory of modules that are generated. -/
def generatedFiles : FileTree :=
  .directory [("proj", .directory [("src", .directory [("x-a.ts", .file (some "")),
    ("gen", .directory [("x-b.ts", .file (some ""))])])])]

/-- What is generated is left out, whether the walk comes from the path or from the pattern. -/
theorem left_out_if_spelled_alike_generated :
    (scan ⟨generatedFiles, []⟩ ⟨"proj"⟩ ["src", "s*"] ["src/gen"] false).files =
      [⟨"proj/src/x-a.ts"⟩] ∧
    ∀ p ∈ (scan ⟨generatedFiles, []⟩ ⟨"proj"⟩ ["src", "s*"] ["src/gen"] false).files,
      ¬FileSystem.LiesIn ⟨generatedFiles, []⟩ p (Path.join ⟨"proj"⟩ ⟨"src/gen"⟩) := by
  have hincludes : ∀ included ∈ ["src", "s*"],
      Followable ⟨"proj"⟩ (Path.lead ⟨"proj"⟩) included := by
    have hplain : ∀ included ∈ ["src", "s*"], isGlob included = true →
        isPlainText "proj".toList = true := by decide
    have hbelow : ∀ included ∈ ["src", "s*"], isGlob included = true →
        ∀ part ∈ Path.parts ⟨included⟩, partStaysBelow part = true := by decide +kernel
    have hnames : ∀ included ∈ ["src", "s*"],
        ∀ part ∈ Path.parts ⟨included⟩, part ≠ ['.', '.'] := by decide +kernel
    have hrelative : ∀ included ∈ ["src", "s*"],
        Path.isAbsolute ⟨included⟩ = true → Path.lead ⟨"proj"⟩ = [.root] := by decide
    intro included hmem
    exact followable_of_names (hnames included hmem) (hrelative included hmem)
      (hplain included hmem) (hbelow included hmem)
  have hnamed : generatedFiles.isNamed = true := by decide +kernel
  have halike : ∀ included ∈ ["src", "s*"],
      startsHere ⟨"proj"⟩ included = startsHere ⟨"proj"⟩ "src/gen" := by decide +kernel
  exact ⟨by decide +kernel, (left_out_if_spelled_alike hnamed hincludes (by decide)
    (by decide) (by decide) (by decide +kernel)).2 halike⟩

/-- From within the project, the paths that the pattern leads to do not start with a `.` as the
ignore does, and what is generated is found. -/
theorem not_left_out_from_here :
    ∃ p ∈ (scan ⟨generatedFiles, ["proj"]⟩ ⟨"."⟩ ["s*"] ["src/gen"] false).files,
      FileSystem.LiesIn ⟨generatedFiles, ["proj"]⟩ p (Path.join ⟨"."⟩ ⟨"src/gen"⟩) :=
  ⟨⟨"src/gen/x-b.ts"⟩, by decide +kernel, ["proj", "src", "gen", "x-b.ts"],
    ["proj", "src", "gen"], by decide +kernel, by decide +kernel, by decide⟩

end Scan

end ElementManifest

import ElementManifest.Proofs.Searches
import ElementManifest.Resolved
import Mathlib.Data.List.Induction
import Mathlib.Data.List.TakeWhile

/-!
# The root file of a program

Loading puts the root first and only appends to it, and a name without a dot is
looked up among the declarations of a file before anything else:

> `exists_source_of_load`: the first file of a loaded program is its root, read
> from the given text.

> `find?_declGroups`: the group of a name has all declarations of it, in order.

> `findType_of_group`: a declared name leads to its own declarations, unless it is
> diverted.
-/

namespace ElementManifest

open ElementManifest.TypeScript

/-! ## Loading keeps the root -/

namespace Program

theorem exists_files_add (p : Program) (module : Path) (file : Option SourceFile) :
    ∃ more, (p.add module file).files = p.files ++ more := by
  unfold add
  split
  · exact ⟨[], (List.append_nil _).symm⟩
  · split
    · exact ⟨[], (List.append_nil _).symm⟩
    · exact ⟨_, rfl⟩

theorem exists_files_loadAll (fs : FileSystem) (p : Program) (queue : List Path) :
    ∃ more, (loadAll fs p queue).files = p.files ++ more := by
  fun_induction loadAll fs p queue with
  | case1 p => exact ⟨[], (List.append_nil _).symm⟩
  | case2 p module queue _ => exact ⟨[], (List.append_nil _).symm⟩
  | case3 p module queue _ _ ih => exact ih
  | case4 p module queue _ _ next ih =>
    obtain ⟨new, hnew⟩ := exists_files_add p module (loadModule fs module)
    obtain ⟨more, hmore⟩ := ih
    exact ⟨new ++ more, by rw [hmore, hnew, List.append_assoc]⟩

/-- A loaded program starts with its root, read from the given text. -/
theorem exists_source_of_load {fs : FileSystem} {path : Path} {text : String} {p : Program}
    (h : load fs path text = some p) :
    ∃ s, Source.read path text = some s ∧ p.files[rootFile]? = some (.ofSource path s) := by
  unfold load at h
  cases hs : Source.read path text with
  | none =>
    rw [hs] at h
    exact absurd h (by simp)
  | some s =>
    rw [hs] at h
    have hp : loadAll fs (ofRoot (.ofSource path s))
        (SourceFile.ofSource path s).linkedModules = p :=
      Option.some.inj h
    obtain ⟨more, hmore⟩ := exists_files_loadAll fs (ofRoot (.ofSource path s))
      (SourceFile.ofSource path s).linkedModules
    refine ⟨s, rfl, ?_⟩
    rw [← hp, hmore]
    rfl

/-- The program of a file without links is that file alone. -/
theorem load_of_no_links {fs : FileSystem} {path : Path} {text : String} {s : Source}
    (hs : Source.read path text = some s)
    (hlinks : (SourceFile.ofSource path s).linkedModules = []) :
    load fs path text = some (ofRoot (.ofSource path s)) := by
  unfold load
  rw [hs]
  simp only [Option.bind_eq_bind, Option.bind_some, hlinks, loadAll]
  rfl

end Program

/-! ## Groups of declarations -/

theorem find?_addDecl (d : TopLevelDecl) (gs : List DeclGroup) (name : String) :
    (addDecl d gs).find? (·.name == name) =
      if d.name = name then
        match gs.find? (·.name == name) with
        | none => some ⟨name, d.exported, [d.decl]⟩
        | some g => some ⟨name, g.exported || d.exported, g.decls ++ [d.decl]⟩
      else gs.find? (·.name == name) := by
  induction gs with
  | nil =>
    by_cases h : d.name = name
    · simp [addDecl, h]
    · simp [addDecl, h]
  | cons g gs ih =>
    unfold addDecl
    -- The declaration joins the group of its name, so the search has to be told for that group
    -- and for the ones before it.
    by_cases hg : g.name = d.name
    · rw [if_pos (beq_iff_eq.mpr hg)]
      by_cases h : d.name = name
      · have hgn : g.name = name := hg.trans h
        simp [h, hgn]
      · have hgn : ¬ g.name = name := fun e => h (hg.symm.trans e)
        simp [h, hgn]
    · rw [if_neg (fun e => hg (beq_iff_eq.mp e))]
      by_cases hgn : g.name = name
      · have h : ¬ d.name = name := fun e => hg (hgn.trans e.symm)
        simp [h, hgn]
      · have hfalse : (g.name == name) = false := beq_eq_false_iff_ne.mpr hgn
        rw [List.find?_cons, List.find?_cons, hfalse]
        exact ih

/-- The group of a name has the declarations of that name, in order. -/
theorem find?_declGroups (ds : List TopLevelDecl) (name : String) :
    (ds.foldl (fun gs d => addDecl d gs) []).find? (·.name == name) =
      match ds.filter (·.name == name) with
      | [] => none
      | d :: more => some ⟨name, (d :: more).any (·.exported), (d :: more).map (·.decl)⟩ := by
  induction ds using List.reverseRecOn with
  | nil => rfl
  | append_singleton ds d ih =>
    rw [List.foldl_append, List.filter_append]
    show (addDecl d (ds.foldl (fun gs d => addDecl d gs) [])).find? (·.name == name) = _
    rw [find?_addDecl, ih]
    by_cases h : d.name = name
    · rw [if_pos h]
      cases ds.filter (·.name == name) with
      | nil => simp [h]
      | cons d' more => simp [h, Bool.or_assoc]
    · rw [if_neg h]
      simp [h]

/-- A declared name has a group, with all its declarations. -/
theorem exists_group_of_mem (path : Path) {s : Source} {d : TopLevelDecl}
    (hd : d ∈ s.typeDecls) :
    ∃ g, (SourceFile.ofSource path s).group? d.name = some g ∧ g.name = d.name ∧
      g.exported = (s.typeDecls.filter (·.name == d.name)).any (·.exported) ∧
      g.decls = (s.typeDecls.filter (·.name == d.name)).map (·.decl) := by
  have hmem : d ∈ s.typeDecls.filter (·.name == d.name) :=
    List.mem_filter.mpr ⟨hd, beq_self_eq_true _⟩
  have hfind := find?_declGroups s.typeDecls d.name
  show ∃ g, s.declGroups.find? (·.name == d.name) = some g ∧ _
  unfold TypeScript.Source.declGroups
  rw [hfind]
  cases hds : s.typeDecls.filter (·.name == d.name) with
  | nil =>
    rw [hds] at hmem
    exact absurd hmem (by simp)
  | cons d' more => exact ⟨_, rfl, rfl, rfl, rfl⟩

/-- A name that some declaration exports is among the exported names of its file. -/
theorem mem_declaredNames_of_exported {path : Path} {s : Source} {d : TopLevelDecl}
    (hd : d ∈ s.typeDecls) (hexp : d.exported = true) :
    (d.name, true) ∈ (SourceFile.ofSource path s).declaredNames := by
  obtain ⟨g, hg, hname, hgexp, _⟩ := exists_group_of_mem path hd
  have htrue : g.exported = true := by
    rw [hgexp, List.any_eq_true]
    exact ⟨d, List.mem_filter.mpr ⟨hd, beq_self_eq_true _⟩, hexp⟩
  unfold SourceFile.declaredNames
  rw [List.mem_map]
  refine ⟨g, List.mem_of_find?_eq_some hg, ?_⟩
  rw [htrue, hname, Bool.true_or]

/-! ## Looking up a declared name -/

theorem splitDot?_eq_none_iff (name : String) : splitDot? name = none ↔ '.' ∉ name.toList := by
  unfold splitDot?
  have hlen : name.toList.drop (name.toList.takeWhile (· ≠ '.')).length
      = name.toList.dropWhile (· ≠ '.') := by
    calc name.toList.drop (name.toList.takeWhile (· ≠ '.')).length
        = (name.toList.takeWhile (· ≠ '.') ++ name.toList.dropWhile (· ≠ '.')).drop
            (name.toList.takeWhile (· ≠ '.')).length := by rw [List.takeWhile_append_dropWhile]
      _ = name.toList.dropWhile (· ≠ '.') := List.drop_left
  simp only [hlen]
  constructor
  · intro h hdot
    cases hdrop : name.toList.dropWhile (· ≠ '.') with
    | nil =>
      have hall := List.dropWhile_eq_nil_iff.mp hdrop '.' hdot
      exact absurd hall (by simp)
    | cons c rest =>
      rw [hdrop] at h
      exact absurd h (by simp)
  · intro hdot
    have hnil : name.toList.dropWhile (· ≠ '.') = [] := by
      rw [List.dropWhile_eq_nil_iff]
      intro c hc
      have hne : c ≠ '.' := fun e => hdot (e ▸ hc)
      simp [hne]
    rw [hnil]

namespace Program

/-- Whether a declared name of the root file leads to something else: it has a dot, and
a namespace of the file or an export list gives it another meaning. -/
def Diverts (p : Program) (name : String) : Prop :=
  '.' ∈ name.toList ∧ ((p.lookup rootFile name).isSome ∨
    ∃ root, p.files[rootFile]? = some root ∧ (root.localExports.lookup name).isSome)

theorem lookup_of_group {p : Program} {root : SourceFile} {name : String} {g : DeclGroup}
    (hroot : p.files[rootFile]? = some root) (hdot : '.' ∉ name.toList)
    (hg : root.group? name = some g) :
    p.lookup rootFile name = some (g.symbol rootFile) := by
  unfold lookup maxSteps
  rw [lookupInside_succ hroot, (splitDot?_eq_none_iff name).mpr hdot, hg]

theorem lookupExport_of_group {p : Program} {root : SourceFile} {name : String} {g : DeclGroup}
    (hroot : p.files[rootFile]? = some root) (hlocal : root.localExports.lookup name = none)
    (hg : root.group? name = some g) :
    p.lookupExport maxSteps rootFile name = some (g.symbol rootFile) := by
  unfold maxSteps
  rw [lookupExport_succ hroot, hlocal, hg]

/-- A declared name of the root leads to its own declarations, unless it is diverted. -/
theorem findType_of_group {p : Program} {root : SourceFile} {name : String} {g : DeclGroup}
    (hroot : p.files[rootFile]? = some root) (hdiv : ¬ p.Diverts name)
    (hg : root.group? name = some g) :
    p.findType rootFile name = some (g.symbol rootFile) := by
  unfold findType
  by_cases hdot : '.' ∈ name.toList
  · have hnone : p.lookup rootFile name = none := by
      rw [← Option.not_isSome_iff_eq_none]
      exact fun h => hdiv ⟨hdot, Or.inl h⟩
    have hlocal : root.localExports.lookup name = none := by
      rw [← Option.not_isSome_iff_eq_none]
      exact fun h => hdiv ⟨hdot, Or.inr ⟨root, hroot, h⟩⟩
    rw [hnone]
    exact lookupExport_of_group hroot hlocal hg
  · rw [lookup_of_group hroot hdot hg]
    rfl

end Program

/-! ## Contexts -/

theorem build_eq_ok_iff {fs : FileSystem} {path : Path} {text : String} {c : Context} :
    Context.build fs path text = .ok c ↔
      fs.isFile path = true ∧ ∃ p, Program.load fs path text = some p ∧ c = ⟨path, text, p⟩ := by
  unfold Context.build
  cases hfile : fs.isFile path with
  | false =>
    constructor
    · intro h
      cases h
    · rintro ⟨h, -⟩
      cases h
  | true =>
    cases hload : Program.load fs path text with
    | none =>
      constructor
      · intro h
        cases h
      · rintro ⟨-, p, h, -⟩
        cases h
    | some p =>
      constructor
      · intro h
        cases h
        exact ⟨rfl, p, rfl, rfl⟩
      · rintro ⟨-, q, h, rfl⟩
        cases h
        rfl

theorem path_text_of_build {fs : FileSystem} {path : Path} {text : String} {c : Context}
    (h : Context.build fs path text = .ok c) : c.path = path ∧ c.text = text := by
  obtain ⟨-, p, -, rfl⟩ := build_eq_ok_iff.mp h
  exact ⟨rfl, rfl⟩

/-- A context has the program of its text, with the root file in front. -/
theorem exists_root_of_build {fs : FileSystem} {path : Path} {text : String} {c : Context}
    (h : Context.build fs path text = .ok c) :
    ∃ s, Source.read path text = some s ∧
      c.program.files[rootFile]? = some (.ofSource path s) := by
  obtain ⟨-, p, hload, rfl⟩ := build_eq_ok_iff.mp h
  exact Program.exists_source_of_load hload

theorem build_of_no_links {fs : FileSystem} {path : Path} {text : String} {s : Source}
    (hfile : fs.isFile path = true) (hs : Source.read path text = some s)
    (hlinks : (SourceFile.ofSource path s).linkedModules = []) :
    Context.build fs path text = .ok ⟨path, text, .ofRoot (.ofSource path s)⟩ :=
  build_eq_ok_iff.mpr ⟨hfile, _, Program.load_of_no_links hs hlinks, rfl⟩

/-! ## A file of its own -/

/-- A directory with one types file. -/
def oneFile (text : String) : FileSystem :=
  ⟨.directory [("x.types.ts", .file (some text))], []⟩

/-- The path of that types file. -/
def onePath : Path := ⟨"x.types.ts"⟩

/-- The context of that types file, if it links to nothing. There is nothing to load then. -/
def oneContext? (text : String) : Option Context :=
  (Source.read onePath text).bind fun s =>
    if (SourceFile.ofSource onePath s).linkedModules.isEmpty then
      some ⟨onePath, text, .ofRoot (.ofSource onePath s)⟩
    else none

theorem read_of_oneContext? {text : String} {c : Context} (h : oneContext? text = some c) :
    ∃ s, Source.read onePath text = some s ∧
      (SourceFile.ofSource onePath s).linkedModules = [] ∧
      c = ⟨onePath, text, .ofRoot (.ofSource onePath s)⟩ := by
  obtain ⟨s, hs, hroot⟩ := Option.bind_eq_some_iff.mp h
  split at hroot
  next hlinks => exact ⟨s, hs, List.isEmpty_iff.mp hlinks, (Option.some.inj hroot).symm⟩
  next => cases hroot

/-- What is checked of all files of that context holds of the source of the types file. -/
theorem exists_source_of_oneContext? {text : String} {c : Context} {check : Source → Bool}
    (hc : oneContext? text = some c)
    (h : (c.program.files.map SourceFile.source).all check = true) :
    ∃ s, Source.read onePath text = some s ∧ check s = true := by
  obtain ⟨s, hs, -, rfl⟩ := read_of_oneContext? hc
  exact ⟨s, hs, List.all_eq_true.mp h s List.mem_cons_self⟩

theorem build_of_oneContext? {text : String} {c : Context} (h : oneContext? text = some c) :
    Context.build (oneFile text) onePath text = .ok c := by
  obtain ⟨s, hs, hlinks, rfl⟩ := read_of_oneContext? h
  exact build_of_no_links rfl hs hlinks

end ElementManifest

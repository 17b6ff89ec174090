import ElementManifest.Proofs.Paths
import ElementManifest.Proofs.RootFile
import ElementManifest.Proofs.Searches

/-!
# The root file under another spelling

A program keeps the path of its root file as it was spelled. Nothing else in it depends
on that spelling, because files are told apart by what their paths mean:

> `loadAll_respell`: under another spelling the same files and modules are loaded.

> `extract_respell`, `firstConfigType_respell`: and the same properties are found.
-/

namespace ElementManifest

open ElementManifest.TypeScript ElementManifest.Expansion

/-- The program with another spelling of the path of its root file. -/
def Program.respell (p : Program) (path : Path) : Program :=
  { p with files := p.files.modifyHead fun f => { f with path } }

namespace Program

/-! ## Loading -/

/-- The root file of a program has this path, perhaps in another spelling. -/
def RootAt (p : Program) (path : Path) : Prop :=
  ∃ f rest, p.files = f :: rest ∧ f.path.same path = true

section

variable {p : Program} {path : Path} (h : p.RootAt path)

include h

theorem position?_respell (q : Path) : (p.respell path).position? q = p.position? q := by
  obtain ⟨f, rest, hfiles, hsame⟩ := h
  unfold position? respell
  rw [hfiles, List.modifyHead_cons, List.findIdx?_cons, List.findIdx?_cons, Path.same_left hsame q]

theorem length_files_respell : (p.respell path).files.length = p.files.length := by
  obtain ⟨f, rest, hfiles, hsame⟩ := h
  unfold respell
  rw [hfiles]
  rfl

theorem rootAt_add (module : Path) (file : Option SourceFile) :
    (p.add module file).RootAt path := by
  obtain ⟨f, rest, hfiles, hsame⟩ := h
  unfold add
  split
  next => exact ⟨f, rest, hfiles, hsame⟩
  next file =>
    split
    next => exact ⟨f, rest, hfiles, hsame⟩
    next => exact ⟨f, rest ++ [file], by rw [hfiles]; rfl, hsame⟩

theorem add_respell (module : Path) (file : Option SourceFile) :
    (p.respell path).add module file = (p.add module file).respell path := by
  unfold add
  cases file with
  | none => rfl
  | some file =>
    dsimp only
    rw [position?_respell h, length_files_respell h]
    cases p.position? file.path with
    | some n => rfl
    | none =>
      obtain ⟨f, rest, hfiles, -⟩ := h
      unfold respell
      dsimp only
      rw [hfiles]
      rfl

theorem newModules_respell {next : Program} (hnext : next.RootAt path) :
    newModules (p.respell path) (next.respell path) = newModules p next := by
  -- new files stand behind the root, so the spelling of the root is not among them
  unfold newModules
  rw [length_files_respell h]
  obtain ⟨f, rest, hfiles, -⟩ := h
  obtain ⟨g, others, hothers, -⟩ := hnext
  unfold respell
  rw [hfiles, hothers]
  rfl

end

/-- Under another spelling of the root the same files and modules are loaded. -/
theorem loadAll_respell (fs : FileSystem) {p : Program} {path : Path} {queue : List Path}
    (h : p.RootAt path) :
    loadAll fs (p.respell path) queue = (loadAll fs p queue).respell path := by
  induction p, queue using loadAll.induct fs with
  | case1 p => rw [loadAll, loadAll]
  | case2 p module queue hfull =>
    rw [loadAll, loadAll, length_files_respell h, if_pos hfull, if_pos hfull]
  | case3 p module queue hfull hknown ih =>
    rw [loadAll, loadAll, length_files_respell h, if_neg hfull, if_neg hfull,
      show (p.respell path).knows module = p.knows module from rfl, if_pos hknown, if_pos hknown]
    exact ih h
  | case4 p module queue hfull hknown next ih =>
    have hnext : next.RootAt path := rootAt_add h module (loadModule fs module)
    rw [loadAll, loadAll, length_files_respell h, if_neg hfull, if_neg hfull,
      show (p.respell path).knows module = p.knows module from rfl, if_neg hknown, if_neg hknown,
      add_respell h]
    dsimp only
    rw [newModules_respell h hnext]
    exact ih hnext

theorem load_respell {fs : FileSystem} {path path' : Path} {text : String} {p : Program}
    (hsame : path.same path' = true) (h : load fs path text = some p) :
    load fs path' text = some (p.respell path') := by
  unfold load at h ⊢
  rw [← read_of_same hsame text]
  cases hs : Source.read path text with
  | none =>
    rw [hs] at h
    cases h
  | some s =>
    rw [hs] at h
    obtain rfl := Option.some.inj h
    have hroot : (ofRoot (SourceFile.ofSource path s)).RootAt path' :=
      ⟨_, [], rfl, hsame⟩
    have hspelled : SourceFile.ofSource path' s =
        { SourceFile.ofSource path s with path := path' } := by
      refine ofSource_of_same ?_ s
      rw [Path.same_iff]
      exact ((Path.same_iff path path').mp hsame).symm
    dsimp only [Option.bind_eq_bind, Option.bind_some]
    rw [hspelled]
    exact congrArg some (loadAll_respell fs hroot)

/-! ## Looking up -/

theorem getElem?_respell (p : Program) (path : Path) (i : Nat) :
    (p.respell path).files[i]? =
      p.files[i]?.map fun f => { f with path := if i = 0 then path else f.path } := by
  unfold respell
  cases p.files with
  | nil => rfl
  | cons f rest =>
    cases i with
    | zero => rfl
    | succ i =>
      show rest[i]? = rest[i]?.map fun f => f
      rw [Option.map_id']

theorem searchedAlike_respell (p : Program) (path : Path) :
    p.SearchedAlike (fun _ => True) Eq (p.respell path) where
  modules _ := rfl
  stays _ _ _ := trivial
  files file _ := by
    rw [getElem?_respell]
    cases p.files[file]? with
    | none => exact .none
    | some f => exact .some ⟨rfl, rfl, rfl, rfl, rfl, fun _ => rel_eq_iff.mpr rfl⟩

theorem lookup_respell (p : Program) (path : Path) : (p.respell path).lookup = p.lookup := by
  funext file name
  exact (rel_eq_iff.mp ((searchedAlike_respell p path).lookup trivial name)).symm

theorem findType_respell (p : Program) (path : Path) :
    (p.respell path).findType = p.findType := by
  funext file name
  exact (rel_eq_iff.mp ((searchedAlike_respell p path).findType trivial name)).symm

theorem sourceOf_respell (p : Program) (path : Path) :
    sourceOf (p.respell path) = sourceOf p := by
  funext file
  unfold sourceOf
  rw [getElem?_respell]
  cases p.files[file]? with
  | none => rfl
  | some f => rfl

/-! ## Expanding -/

theorem siteWith_respell (p : Program) (path : Path) :
    siteWith (p.respell path) = siteWith p := by
  unfold siteWith
  rw [lookup_respell, sourceOf_respell]

theorem meaningIn_respell (p : Program) (path : Path) (opener : Opener) (inside : OpenSymbols)
    (scope : Scope) :
    meaningIn (p.respell path) opener inside scope = meaningIn p opener inside scope := by
  induction scope with
  | empty => rfl
  | bind param file type around rest iharound ihrest =>
    funext name
    unfold meaningIn
    rw [siteWith_respell, iharound, ihrest]

theorem siteAt_respell (p : Program) (path : Path) : siteAt (p.respell path) = siteAt p := by
  funext opener inside file scope
  unfold siteAt
  rw [siteWith_respell, meaningIn_respell]

theorem openProperties_respell (p : Program) (path : Path) :
    openProperties (p.respell path) = openProperties p := by
  have hbody : bodySite (p.respell path) = bodySite p := by
    unfold bodySite
    rw [siteAt_respell]
  have hdecl : declProperties (p.respell path) = declProperties p := by
    funext opener inside file args d
    unfold declProperties
    rw [hbody]
  unfold openProperties
  rw [hdecl]

theorem openerWith_respell (p : Program) (path : Path) (room : Nat) :
    openerWith (p.respell path) room = openerWith p room := by
  have hkeys : openKeys (p.respell path) = openKeys p := by
    unfold openKeys
    rw [siteAt_respell]
  have htext : openText (p.respell path) = openText p := by
    unfold openText bodySite
    rw [siteAt_respell, openProperties_respell]
  induction room with
  | zero => rfl
  | succ room ih =>
    unfold openerWith
    rw [ih, openProperties_respell, hkeys, htext]

theorem symbolProperties_respell (p : Program) (path : Path) :
    symbolProperties (p.respell path) = symbolProperties p := by
  unfold symbolProperties
  rw [openerWith_respell]

end Program

/-! ## Extracting -/

namespace Context

/-- The context under another spelling of its path. -/
def respell (c : Context) (path : Path) : Context :=
  { c with path, program := c.program.respell path }

theorem firstConfigType_respell (c : Context) (path : Path) :
    (c.respell path).firstConfigType = c.firstConfigType := by
  have hshapes : shapesIfAny (c.program.respell path) = shapesIfAny c.program := by
    funext name
    unfold shapesIfAny
    rw [Program.lookup_respell, Program.symbolProperties_respell]
  have hnames : configNames (c.program.respell path) = configNames c.program := by
    unfold configNames Program.respell
    cases c.program.files with
    | nil => rfl
    | cons f rest => rfl
  unfold firstConfigType respell
  rw [hshapes, hnames]

theorem extract_respell (c : Context) (path : Path) : (c.respell path).extract = c.extract := by
  have hnamed : (c.respell path).namedShapes = c.namedShapes := by
    funext name
    unfold namedShapes respell
    rw [Program.findType_respell, Program.symbolProperties_respell]
  funext name
  unfold extract shapes
  rw [hnamed, firstConfigType_respell]

end Context

/-- A context that has been built for a path is built for every spelling of it that leads
to a file. -/
theorem build_respell {fs : FileSystem} {path path' : Path} {text : String} {c : Context}
    (h : Context.build fs path text = .ok c) (hsame : path.same path' = true)
    (hfile : fs.isFile path' = true) : Context.build fs path' text = .ok (c.respell path') := by
  obtain ⟨-, p, hload, rfl⟩ := build_eq_ok_iff.mp h
  exact build_eq_ok_iff.mpr ⟨hfile, _, Program.load_respell hsame hload, rfl⟩

end ElementManifest

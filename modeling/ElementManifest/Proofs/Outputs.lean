import ElementManifest.CommandLine.Run
import ElementManifest.Proofs.FileChanges

/-!
# What a call of the program changes

A command writes one file at most, and makes the directories that are missing on the way
to it. Here it is shown that nothing else is touched, whichever way the command ends:

> `call_changes_one_file`: what every call may change, and what it writes.

The way to a file is made part by part. Each part finds a directory, or makes one where
nothing was (`changesOnly_makeDirectoryAt`), so that the whole way adds directories to
the tree and does nothing more to it (`changesOnly_makeAlong`), also when it ends early.
The file is then written at one place (`changedAt_write`).
-/

namespace ElementManifest

theorem FileTree.at?_empty {names : List String} (h : names ≠ []) :
    FileTree.empty.at? names = none := by
  obtain ⟨name, more, rfl⟩ := List.exists_cons_of_ne_nil h
  rw [FileTree.empty, at?_cons]
  rfl

namespace FileSystem

variable {fs fs' fs'' : FileSystem}

/-! ## Nothing but one file and new directories -/

/-- Nothing shows differently, except at the place of a file, if there is one, and where
directories have been made on a way: in places where nothing was. -/
structure ChangesOnly (file : Option Place) (way : List Place) (fs fs' : FileSystem) : Prop where
  workPlace_eq : fs'.workPlace = fs.workPlace
  shows : ∀ place, file ≠ some place →
    (fs'.root.at? place).map FileTree.face = (fs.root.at? place).map FileTree.face ∨
      place ∈ way ∧ fs.root.at? place = none ∧ fs'.isDirectoryAt place = true

namespace ChangesOnly

theorem refl (file : Option Place) (way : List Place) (fs : FileSystem) :
    ChangesOnly file way fs fs :=
  ⟨rfl, fun _ _ => .inl rfl⟩

theorem mono {way : List Place} (h : ChangesOnly none way fs fs') (file : Option Place) :
    ChangesOnly file way fs fs' :=
  ⟨h.workPlace_eq, fun place _ => h.shows place nofun⟩

/-- What is made first stays. -/
theorem trans {file : Option Place} {way more : List Place} (h : ChangesOnly none way fs fs')
    (h' : ChangesOnly file more fs' fs'') : ChangesOnly file (way ++ more) fs fs'' := by
  refine ⟨h'.workPlace_eq.trans h.workPlace_eq, fun place hplace => ?_⟩
  rcases h.shows place nofun, h'.shows place hplace with
    ⟨hsame | ⟨hway, hnone, hdir⟩, hsame' | ⟨hmore, hnone', hdir'⟩⟩
  · exact .inl (hsame'.trans hsame)
  · have hnone : fs.root.at? place = none := by
      rw [hnone'] at hsame
      exact Option.map_eq_none_iff.mp hsame.symm
    exact .inr ⟨List.mem_append_right _ hmore, hnone, hdir'⟩
  · exact .inr ⟨List.mem_append_left _ hway, hnone, (isDirectoryAt_of_face hsame').trans hdir⟩
  · unfold isDirectoryAt at hdir
    rw [hnone'] at hdir
    cases hdir

end ChangesOnly

theorem ChangedAt.changesOnly {place : Place} (h : ChangedAt place fs fs') :
    ChangesOnly (some place) [] fs fs' :=
  ⟨h.workPlace_eq, fun other hother => .inl (h.face_eq other fun he => hother (he ▸ rfl))⟩

/-! ## Making directories -/

theorem changesOnly_makeDirectoryAt {place : Place} (h : fs.makeDirectoryAt place = some fs') :
    ChangesOnly none [place] fs fs' := by
  unfold makeDirectoryAt at h
  split at h
  next => cases h; exact .refl none _ fs
  next => cases h
  next hnone =>
    split at h
    next hdir =>
      cases h
      refine ⟨rfl, fun other _ => ?_⟩
      by_cases hother : other = place
      · refine .inr ⟨List.mem_singleton.mpr hother, hother ▸ hnone, ?_⟩
        unfold isDirectoryAt
        rw [hother, FileTree.at?_put_self hdir]
        rfl
      · have hfree : (fs.root.at? place).any FileTree.isDirectory = false := by rw [hnone]; rfl
        exact .inl (FileTree.face_at?_put (fun _ => FileTree.at?_empty) hdir hfree hother)
    next => cases h

/-- The places that parts of a path lead to, one behind the other. -/
def placesAlong (place : Place) : List (List Char) → List Place
  | [] => []
  | part :: parts => placeBehind place part :: placesAlong (placeBehind place part) parts

/-- The places on the way to where a path leads. -/
def wayTo (fs : FileSystem) (p : Path) : List Place :=
  if p.text = "" then [] else placesAlong (fs.start p) p.parts

theorem changesOnly_makeAlong (fs : FileSystem) (place : Place) (parts : List (List Char)) :
    ChangesOnly none (placesAlong place parts) fs (fs.makeAlong place parts).1 := by
  induction parts generalizing fs place with
  | nil => exact .refl none _ fs
  | cons part parts ih =>
    unfold makeAlong
    split
    next made hmade => exact (changesOnly_makeDirectoryAt hmade).trans (ih made _)
    next => exact .refl none _ fs

theorem changesOnly_makeWay (fs : FileSystem) (p : Path) :
    ChangesOnly none (fs.wayTo p) fs (fs.makeWay p).1 := by
  unfold makeWay wayTo
  split
  · exact .refl none _ fs
  · exact changesOnly_makeAlong fs _ _

/-! ## Writing a file -/

/-- What is written can be read. -/
theorem read_of_write {p : Path} {text : String} (h : fs.write p text = some fs') :
    fs'.read p = .ok text := by
  obtain ⟨place, hplace, hchanged⟩ := changedAt_write h
  have hat : fs'.root.at? place = some (.file (some text)) := by
    unfold write at h
    rw [hplace, Option.bind_eq_bind, Option.bind_some] at h
    split at h
    next => cases h
    next hfree =>
      have hdir : fs.isDirectoryAt place.dropLast = true := by
        simp only [Bool.or_eq_true, not_or, Bool.not_eq_true, Bool.not_eq_false'] at hfree
        exact hfree.2
      cases h
      exact FileTree.at?_put_self hdir
  unfold read find?
  rw [hchanged.place?_eq, hplace, Option.bind_some, hat]

end FileSystem

namespace CommandLine

open FileSystem

/-- A file is written at the place of its path, with the directories on the way to it, or
there is a message and nothing but directories is new. -/
theorem writeManifest_cases (fs : FileSystem) (w : Written) :
    ((writeManifest fs w).2 = none ∧
      ChangesOnly ((writeManifest fs w).1.place? w.path) (fs.wayTo w.path.parent) fs
        (writeManifest fs w).1 ∧
      (writeManifest fs w).1.read w.path = .ok w.text) ∨
    ∃ message, (writeManifest fs w).2 = some message ∧
      ChangesOnly none (fs.wayTo w.path.parent) fs (writeManifest fs w).1 := by
  have hway := changesOnly_makeWay fs w.path.parent
  unfold writeManifest
  split
  next made hmade =>
    rw [hmade] at hway
    exact .inr ⟨_, rfl, hway⟩
  next made hmade =>
    rw [hmade] at hway
    split
    next => exact .inr ⟨_, rfl, hway⟩
    next fs' hfs' =>
      obtain ⟨place, hplace, hchanged⟩ := changedAt_write hfs'
      refine .inl ⟨rfl, ?_, read_of_write hfs'⟩
      have hall := hway.trans hchanged.changesOnly
      rw [List.append_nil] at hall
      rw [hchanged.place?_eq, hplace]
      exact hall

/-! ## Commands -/

theorem apply_of_written_none {r : Result} (h : r.written = none) (fs : FileSystem) :
    r.apply fs = fs := by
  unfold Result.apply
  rw [h]

theorem apply_of_written_some {r : Result} {w : Written} (h : r.written = some w)
    (fs : FileSystem) : r.apply fs = (writeManifest fs w).1 := by
  unfold Result.apply
  rw [h]

theorem written_runInspect (fs : FileSystem) (common : CommonOptions) (typesFile : Path)
    (typeName : Option String) : (runInspect fs common typesFile typeName).written = none := by
  unfold runInspect
  split
  next => rfl
  next =>
    split
    next => rfl
    next => rfl

theorem apply_runInit_of_exists {fs : FileSystem}
    (h : fs.pathExists ⟨Config.fileName⟩ = true) : (runInit fs).apply fs = fs := by
  have hrun : runInit fs = { status := .failure, stderr := existsLine } := if_pos h
  rw [hrun]
  rfl

/-- The configuration file is named without a directory, so none is made for it. -/
theorem changesOnly_runInit (fs : FileSystem) :
    ChangesOnly (((runInit fs).apply fs).place? ⟨Config.fileName⟩) [] fs
      ((runInit fs).apply fs) := by
  by_cases hexists : fs.pathExists ⟨Config.fileName⟩ = true
  · rw [apply_runInit_of_exists hexists]
    exact .refl _ _ fs
  · have hrun : (runInit fs).written = some ⟨⟨Config.fileName⟩, Config.defaultText⟩ := by
      unfold runInit
      rw [if_neg hexists]
    have hway : fs.wayTo (Path.mk Config.fileName).parent = [] := by
      rw [show (Path.mk Config.fileName).parent = ⟨""⟩ by decide +kernel]
      exact if_pos rfl
    have hcases := writeManifest_cases fs ⟨⟨Config.fileName⟩, Config.defaultText⟩
    rw [hway] at hcases
    rw [apply_of_written_some hrun]
    rcases hcases with ⟨-, hall, -⟩ | ⟨message, -, hall⟩
    · exact hall
    · exact hall.mono _

theorem runAnalyze_of_config_error {fs : FileSystem} {common : CommonOptions}
    {e : Config.LoadError} (h : common.config fs = .error e) (outFile : Option Path)
    (stdout strict : Bool) :
    runAnalyze fs common outFile stdout strict = .error e.message e.cause? := by
  unfold runAnalyze
  rw [h]

theorem written_runAnalyze_stdout (fs : FileSystem) (common : CommonOptions)
    (outFile : Option Path) (strict : Bool) :
    (runAnalyze fs common outFile true strict).written = none := by
  unfold runAnalyze
  split
  next => rfl
  next => rfl

theorem stdout_runAnalyze {fs : FileSystem} {common : CommonOptions} {config : Config}
    (h : common.config fs = .ok config) (outFile : Option Path) (strict : Bool) :
    (runAnalyze fs common outFile true strict).stdout = manifestText
      (Project.analyze fs (analysisOptions config) newCache common.root config).1.manifest := by
  unfold runAnalyze
  rw [h]
  rfl

/-- An analysis that writes a manifest is given up just when it cannot be written. -/
theorem runAnalyze_cases {fs : FileSystem} {common : CommonOptions} {config : Config}
    (h : common.config fs = .ok config) (outFile : Option Path) (strict : Bool) :
    let result := runAnalyze fs common outFile false strict
    let file : Written := ⟨manifestPath common config outFile, manifestText
      (Project.analyze fs (analysisOptions config) newCache common.root config).1.manifest⟩
    result.written = some file ∧
      match (writeManifest fs file).2 with
      | some message => result.status = .error message none
      | none => result.status = .success ∨ result.status = .failure := by
  dsimp only
  unfold runAnalyze
  rw [h]
  dsimp only
  rw [if_neg Bool.false_ne_true]
  generalize (Project.analyze fs (analysisOptions config) newCache common.root config).1 = report
  cases (writeManifest fs ⟨manifestPath common config outFile, manifestText report.manifest⟩).2 with
  | some message => exact ⟨rfl, rfl⟩
  | none =>
    refine ⟨rfl, ?_⟩
    by_cases hstrict : (strict && !report.failures.isEmpty) = true
    · exact .inr (if_pos hstrict)
    · exact .inl (if_neg hstrict)

/-! ## Calls -/

/-- What the program does when it is called with arguments. -/
def call (fs : FileSystem) (args : List String) : Except Usage Result :=
  (parse args).map (run fs)

/-- The file system after a call. -/
def after (fs : FileSystem) (args : List String) : FileSystem :=
  match call fs args with
  | .error _ => fs
  | .ok result => result.apply fs

theorem call_of_parse {args : List String} {command : Command} (h : parse args = .ok command)
    (fs : FileSystem) : call fs args = .ok (run fs command) := by
  unfold call
  rw [h]
  rfl

theorem after_of_parse {args : List String} {command : Command} (h : parse args = .ok command)
    (fs : FileSystem) : after fs args = (run fs command).apply fs := by
  unfold after
  rw [call_of_parse h]

/-- A call without a command, an inspection, and an analysis that prints the manifest or has no
settings that can be used leave the file system as it is. A call that makes a configuration
file does the same when there is one, and else changes nothing but that file. An analysis
that writes the manifest changes nothing but the file at the path for it, and makes directories
on the way there. Either it is given up and the file is not changed, or the text
of the file is what all calls print that analyze the same project with the same common options
and print the manifest. -/
theorem call_changes_one_file (fs : FileSystem) (args : List String) (command : Command) :
    parse args = .ok command →
    match command with
    | .nothing => after fs args = fs
    | .inspect _ _ _ => after fs args = fs
    | .init =>
      if fs.pathExists ⟨Config.fileName⟩ then after fs args = fs
      else ChangesOnly ((after fs args).place? ⟨Config.fileName⟩) [] fs (after fs args)
    | .analyze common outFile stdout _ =>
      match common.config fs with
      | .error _ => after fs args = fs
      | .ok config =>
        if stdout then after fs args = fs
        else
          let path := manifestPath common config outFile
          ∃ result, call fs args = .ok result ∧
            ((∃ message, result.status = .error message none ∧
                ChangesOnly none (fs.wayTo path.parent) fs (after fs args)) ∨
              (result.status = .success ∨ result.status = .failure) ∧
                ChangesOnly ((after fs args).place? path) (fs.wayTo path.parent) fs
                  (after fs args) ∧
                ∀ args' outFile' strict',
                  parse args' = .ok (.analyze common outFile' true strict') →
                    ∃ printed, call fs args' = .ok printed ∧
                      (after fs args).read path = .ok printed.stdout) := by
  intro h
  rw [after_of_parse h, call_of_parse h]
  cases command with
  | nothing => rfl
  | inspect common typesFile typeName =>
    exact apply_of_written_none (written_runInspect fs common typesFile typeName) fs
  | init =>
    dsimp only
    split
    next hexists => exact apply_runInit_of_exists hexists
    next => exact changesOnly_runInit fs
  | analyze common outFile stdout strict =>
    dsimp only [run]
    split
    next e hconfig =>
      rw [runAnalyze_of_config_error hconfig]
      rfl
    next config hconfig =>
      cases stdout with
      | true =>
        rw [if_pos rfl]
        exact apply_of_written_none (written_runAnalyze_stdout fs common outFile strict) fs
      | false =>
        rw [if_neg Bool.false_ne_true]
        obtain ⟨hwritten, hstatus⟩ := runAnalyze_cases hconfig outFile strict
        refine ⟨_, rfl, ?_⟩
        rw [apply_of_written_some hwritten]
        rcases writeManifest_cases fs _ with ⟨hnone, hall, hread⟩ | ⟨message, hsome, hall⟩
        · rw [hnone] at hstatus
          refine .inr ⟨hstatus, hall, fun args' outFile' strict' h' => ?_⟩
          refine ⟨_, call_of_parse h' fs, ?_⟩
          rw [hread]
          exact congrArg _ (stdout_runAnalyze hconfig outFile' strict').symm
        · rw [hsome] at hstatus
          exact .inl ⟨message, hstatus, hall⟩

/-- One module, whose manifest goes into a directory that is made for it. -/
theorem call_changes_one_file_new_directory :
    let fs : FileSystem := ⟨.directory [("src", .directory [("x-a.ts",
      .file (some "customElements.define('x-a', class A extends HTMLElement \x7b\x7d)"))])], []⟩
    let args := ["analyze", "--out-file", "out/x.json"]
    parse args = .ok (.analyze ⟨none, false, false⟩ (some ⟨"out/x.json"⟩) false false) ∧
      (after fs args).isDirectoryAt ["out"] = true ∧
      ChangesOnly (some ["out", "x.json"]) [["out"]] fs (after fs args) ∧
      ∃ printed, call fs ["analyze", "--stdout"] = .ok printed ∧ printed.stdout ≠ "" ∧
        (after fs args).read ⟨"out/x.json"⟩ = .ok printed.stdout := by
  intro fs args
  have hargs : parse args =
      .ok (.analyze ⟨none, false, false⟩ (some ⟨"out/x.json"⟩) false false) := by rfl
  have hprint : parse ["analyze", "--stdout"] =
      .ok (.analyze ⟨none, false, false⟩ none true false) := by rfl
  have hcall := call_changes_one_file fs args _ hargs
  have hconfig : CommonOptions.config ⟨none, false, false⟩ fs = .ok {} := by rfl
  dsimp only at hcall
  rw [hconfig] at hcall
  obtain ⟨result, hresult, hends⟩ := hcall
  have hstatus : (run fs (.analyze ⟨none, false, false⟩ (some ⟨"out/x.json"⟩) false false)).status
      = .success := by decide +kernel
  have hplace : (after fs args).place? ⟨"out/x.json"⟩ = some ["out", "x.json"] := by
    decide +kernel
  have hway : fs.wayTo (Path.mk "out/x.json").parent = [["out"]] := by decide +kernel
  rw [call_of_parse hargs] at hresult
  cases hresult
  rw [hstatus] at hends
  rcases hends with ⟨message, herror, -⟩ | ⟨-, hall, hread⟩
  · cases herror
  · obtain ⟨printed, hprinted, hread⟩ := hread _ _ _ hprint
    refine ⟨hargs, by decide +kernel, ?_, printed, hprinted, ?_, hread⟩
    · rw [show manifestPath _ _ _ = ⟨"out/x.json"⟩ from rfl, hplace, hway] at hall
      exact hall
    · rw [call_of_parse hprint] at hprinted
      cases hprinted
      decide +kernel

end CommandLine

end ElementManifest

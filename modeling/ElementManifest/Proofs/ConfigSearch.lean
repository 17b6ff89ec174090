import ElementManifest.Config
import ElementManifest.Proofs.ParentPaths
import ElementManifest.Proofs.PathLookups

/-!
# The search for a configuration file

A search takes the last component of a path away, again and again, and asks at each path that is
left (`consulted`). What it asks there is answered by the place that the path denotes
(`pathExists_join`), and as long as it goes on from no path that ends with `..`, the places are
those of the start and of the directories above it:

> `find?_looks_upwards`: what is found is the nearest configuration file at or above the start, and
> the search ends where a repository starts.

That is so for every start without `..` (`getLast?_ne_up_of_consulted`). But to take a `..` away is
to go down again: behind `a/..` the search asks in `a` (`find?_steps_down`).
-/

namespace ElementManifest

open ElementManifest.Text

/-! ## Steps from place to place -/

namespace FileSystem

/-- The place that a path denotes. The empty path denotes the working directory. -/
def placeOf (fs : FileSystem) (p : Path) : Place :=
  p.steps.foldl Component.enter fs.workPlace

/-- Whether there is anything under a name in the directory at a place. -/
def holds (fs : FileSystem) (place : Place) (name : String) : Bool :=
  (fs.root.at? (place ++ [name])).isSome

/-- Follow one step of a path. Only the root needs no directory to start from. -/
def enter? (fs : FileSystem) (place : Place) (c : Component) : Option Place :=
  if c = .root ∨ fs.isDirectoryAt place then some (c.enter place) else none

variable {fs : FileSystem}

theorem step_of_uncounted {part : List Char} (h : Path.componentOf part = none) (place : Place) :
    fs.step place part = if fs.isDirectoryAt place then some place else none := by
  unfold step placeBehind
  rw [if_pos (Path.componentOf_eq_none_iff.mp h)]

theorem step_of_counted {part : List Char} {c : Component} (h : Path.componentOf part = some c)
    (place : Place) : fs.step place part = fs.enter? place c := by
  have hroot : c ≠ .root := by
    rintro rfl
    exact Path.componentOf_ne_root part h
  have hplace : placeBehind place part = c.enter place := by
    have hone := Path.foldl_placeBehind [part] place
    rw [List.filterMap_cons, h] at hone
    exact hone
  unfold step enter?
  simp only [hplace, hroot, false_or]

/-- No step but the root starts from what is no directory. -/
theorem foldlM_enter?_of_not_isDirectory {place : Place} (h : fs.isDirectoryAt place = false)
    {cs : List Component} (hne : cs ≠ []) (hroot : .root ∉ cs) :
    cs.foldlM fs.enter? place = none := by
  cases cs with
  | nil => exact absurd rfl hne
  | cons c cs =>
    have hc : c ≠ .root := fun hc => hroot (hc ▸ List.mem_cons_self)
    rw [List.foldlM_cons]
    unfold enter?
    rw [if_neg (by simp [hc, h])]
    rfl

/-- Parts that do not count can be left out in front of one that does. -/
theorem foldlM_step_concat {part : List Char} {c : Component}
    (hc : Path.componentOf part = some c) (parts : List (List Char)) (place : Place) :
    (parts ++ [part]).foldlM fs.step place =
      ((parts ++ [part]).filterMap Path.componentOf).foldlM fs.enter? place := by
  induction parts generalizing place with
  | nil =>
    rw [List.nil_append, List.filterMap_cons, hc]
    show (fs.step place part).bind some = (fs.enter? place c).bind some
    rw [step_of_counted hc]
  | cons first parts ih =>
    rw [List.cons_append, List.foldlM_cons, List.filterMap_cons]
    cases hfirst : Path.componentOf first with
    | some d =>
      dsimp only
      rw [step_of_counted hfirst, List.foldlM_cons]
      exact congrArg _ (funext ih)
    | none =>
      dsimp only
      rw [step_of_uncounted hfirst]
      -- the part asks for a directory only, and the next one that counts does so too
      by_cases hdir : fs.isDirectoryAt place = true
      · rw [if_pos hdir]
        exact ih place
      · have hne : (parts ++ [part]).filterMap Path.componentOf ≠ [] :=
          List.ne_nil_of_mem (List.mem_filterMap.mpr ⟨part, by simp, hc⟩)
        rw [if_neg hdir, foldlM_enter?_of_not_isDirectory (Bool.not_eq_true _ ▸ hdir) hne
          (Path.root_not_mem_filterMap _)]
        rfl

/-- Steps that can be followed lead to the place that they denote. -/
theorem eq_foldl_of_foldlM_enter? {cs : List Component} {start place : Place}
    (h : cs.foldlM fs.enter? start = some place) : place = cs.foldl Component.enter start := by
  induction cs generalizing start with
  | nil => exact (Option.some.inj h).symm
  | cons c cs ih =>
    obtain ⟨next, hnext, hrest⟩ := Option.bind_eq_some_iff.mp h
    obtain rfl := Option.some.inj (Option.ite_none_right_eq_some.mp hnext).2
    exact ih hrest

/-- What has a name behind a path is looked up along the steps of the path. -/
theorem place?_join_name (p : Path) {name : String} (h : isEntryName name = true) :
    fs.place? (p.join ⟨name⟩) =
      (p.steps.foldlM fs.enter? fs.workPlace).bind (fs.enter? · (.name name)) := by
  have hcomponent : Path.componentOf name.toList = some (.name name) := (inner_of_isEntryName h).2
  obtain ⟨init, hparts⟩ := List.getLast?_eq_some_iff.mp (getLast?_parts_join_name p h)
  have hne : (p.join ⟨name⟩).text ≠ "" := by
    intro hempty
    have hnone := (Path.components_eq_nil_iff _).mpr hempty
    rw [components_join_name p h] at hnone
    simp at hnone
  have hsteps := (p.join ⟨name⟩).steps_eq
  rw [steps_join_name p h] at hsteps
  have hall : (p.steps ++ [Component.name name]).foldlM fs.enter? fs.workPlace =
      (p.steps.foldlM fs.enter? fs.workPlace).bind (fs.enter? · (.name name)) := by
    rw [List.foldlM_append]
    exact congrArg _ (funext fun place => Option.bind_fun_some _)
  rw [← hall, hsteps]
  unfold place? start
  rw [if_neg hne, hparts, foldlM_step_concat hcomponent]
  cases (p.join ⟨name⟩).isAbsolute with
  | false => rfl
  | true =>
    -- an absolute path comes to the root from wherever it starts
    have hroot : fs.enter? fs.workPlace .root = some [] := if_pos (Or.inl rfl)
    rw [if_pos rfl, if_pos rfl, List.singleton_append, List.foldlM_cons, hroot]
    rfl

/-- If a path denotes a directory, then the directory is found. A path can also denote one
behind a `..` of something that is not there. -/
def Opens (fs : FileSystem) (p : Path) : Prop :=
  fs.isDirectoryAt (fs.placeOf p) = true →
    p.steps.foldlM fs.enter? fs.workPlace = some (fs.placeOf p)

theorem isDirectoryAt_of_holds {place : Place} {name : String} (h : fs.holds place name = true) :
    fs.isDirectoryAt place = true := by
  obtain ⟨u, hu⟩ := Option.isSome_iff_exists.mp h
  exact FileTree.isDirectory_of_at?_append hu

section

variable {p : Path} {name : String} (hname : isEntryName name = true)

include hname

theorem place?_join_of_opens (h : fs.Opens p) (hdir : fs.isDirectoryAt (fs.placeOf p) = true) :
    fs.place? (p.join ⟨name⟩) = some (fs.placeOf p ++ [name]) := by
  rw [place?_join_name p hname, h hdir]
  exact if_pos (Or.inr hdir)

theorem exists_of_place?_join {place : Place} (h : fs.place? (p.join ⟨name⟩) = some place) :
    p.steps.foldlM fs.enter? fs.workPlace = some (fs.placeOf p) ∧
      fs.isDirectoryAt (fs.placeOf p) = true ∧ place = fs.placeOf p ++ [name] := by
  rw [place?_join_name p hname] at h
  obtain ⟨dir, hdir, henter⟩ := Option.bind_eq_some_iff.mp h
  obtain rfl := eq_foldl_of_foldlM_enter? hdir
  obtain ⟨hor, hplace⟩ := Option.ite_none_right_eq_some.mp henter
  exact ⟨hdir, hor.resolve_left nofun, (Option.some.inj hplace).symm⟩

theorem opens_of_pathExists (h : fs.pathExists (p.join ⟨name⟩) = true) : fs.Opens p := by
  obtain ⟨u, hu⟩ := Option.isSome_iff_exists.mp h
  obtain ⟨place, hplace, -⟩ := Option.bind_eq_some_iff.mp hu
  exact fun _ => (exists_of_place?_join hname hplace).1

/-- What is found behind a path is what there is in the directory that it denotes. -/
theorem pathExists_join (h : fs.Opens p) :
    fs.pathExists (p.join ⟨name⟩) = fs.holds (fs.placeOf p) name := by
  by_cases hdir : fs.isDirectoryAt (fs.placeOf p) = true
  · unfold pathExists find? holds
    rw [place?_join_of_opens hname h hdir]
    rfl
  · have hholds : fs.holds (fs.placeOf p) name = false :=
      Bool.eq_false_iff.mpr fun hholds => hdir (isDirectoryAt_of_holds hholds)
    have hplace : fs.place? (p.join ⟨name⟩) = none := by
      by_contra hsome
      obtain ⟨place, hplace⟩ := Option.ne_none_iff_exists'.mp hsome
      exact hdir (exists_of_place?_join hname hplace).2.1
    rw [hholds]
    unfold pathExists find?
    rw [hplace]
    rfl

end

theorem placeOf_of_steps {p q : Path} (h : p.steps = q.steps) : fs.placeOf p = fs.placeOf q := by
  unfold placeOf
  rw [h]

theorem placeOf_down {p q : Path} {name : String} (h : p.steps = q.steps ++ [.name name]) :
    fs.placeOf p = fs.placeOf q ++ [name] := by
  unfold placeOf
  rw [h, List.foldl_append]
  rfl

theorem Opens.of_steps {p q : Path} (h : fs.Opens q) (hsteps : p.steps = q.steps) :
    fs.Opens p := by
  unfold Opens
  rw [placeOf_of_steps hsteps, hsteps]
  exact h

/-- A directory in a directory that is found is found itself. -/
theorem Opens.down {p q : Path} (h : fs.Opens q) {name : String}
    (hsteps : p.steps = q.steps ++ [.name name]) : fs.Opens p := by
  have hplace : fs.placeOf p = fs.placeOf q ++ [name] := placeOf_down hsteps
  intro hdir
  have hq := isDirectoryAt_dropLast hdir
  rw [hplace, List.dropLast_concat] at hq
  rw [hsteps, List.foldlM_append, h hq, hplace]
  show (fs.enter? (fs.placeOf q) (.name name)).bind some = _
  unfold enter?
  rw [if_pos (Or.inr hq)]
  rfl

end FileSystem

/-! ## The search -/

namespace Config

/-- Whether a search ends at a path: behind it there is a configuration file, or a repository
starts there. -/
def endsAt (fs : FileSystem) (dir : Path) : Bool :=
  fs.pathExists (dir.join ⟨fileName⟩) || fs.pathExists (dir.join ⟨".git"⟩)

/-- The paths up to the first one at which a search ends. -/
def upToEnd (fs : FileSystem) : List Path → List Path
  | [] => []
  | dir :: dirs => dir :: if endsAt fs dir then [] else upToEnd fs dirs

/-- The paths that the search from a path asks at, one after another. -/
def consulted (fs : FileSystem) (start : Path) : List Path :=
  upToEnd fs start.ancestors

theorem mem_of_mem_upToEnd {fs : FileSystem} {dirs : List Path} {dir : Path}
    (h : dir ∈ upToEnd fs dirs) : dir ∈ dirs := by
  induction dirs with
  | nil => cases h
  | cons first dirs ih =>
    rw [upToEnd] at h
    rcases List.mem_cons.mp h with rfl | h
    · exact List.mem_cons_self
    · split at h
      next => cases h
      next => exact List.mem_cons_of_mem first (ih h)

/-- The search depends on what is found behind the consulted paths, under the two names. -/
theorem findIn_congr {fs fs' : FileSystem} {dirs : List Path}
    (h : ∀ dir ∈ upToEnd fs dirs, ∀ name ∈ [fileName, ".git"],
      fs'.pathExists (dir.join ⟨name⟩) = fs.pathExists (dir.join ⟨name⟩)) :
    findIn fs' dirs = findIn fs dirs := by
  induction dirs with
  | nil => rfl
  | cons dir dirs ih =>
    have hdir := h dir List.mem_cons_self
    rw [findIn, findIn, hdir fileName (by simp), hdir ".git" (by simp)]
    cases hconfig : fs.pathExists (dir.join ⟨fileName⟩) with
    | true => rfl
    | false =>
      cases hgit : fs.pathExists (dir.join ⟨".git"⟩) with
      | true => rfl
      | false =>
        have hon : endsAt fs dir = false := by
          unfold endsAt
          rw [hconfig, hgit]
          rfl
        refine ih fun d hd => h d ?_
        rw [upToEnd, hon]
        exact List.mem_cons_of_mem dir hd

/-! ## Going upwards -/

/-- A place from which a search goes on: nothing in the directory has one of the two names. -/
def Clear (fs : FileSystem) (place : Place) : Prop :=
  fs.holds place fileName = false ∧ fs.holds place ".git" = false

/-- A place at or above another one, and on the way up to it nothing that ends a search. -/
structure Reached (fs : FileSystem) (here dir : Place) : Prop where
  above : dir <+: here
  before : ∀ d, dir <+: d → d <+: here → d ≠ dir → Clear fs d

/-- What a search upwards answers: the nearest configuration file, if no repository starts nearer
to `here`. Without one the search ends where a repository starts, or at the top. -/
def Answers (fs : FileSystem) (here top : Place) : Option Path → Prop
  | some path => ∃ dir, Reached fs here dir ∧ fs.holds dir fileName = true ∧
      fs.place? path = some (dir ++ [fileName])
  | none => ∃ dir, Reached fs here dir ∧ fs.holds dir fileName = false ∧
      (fs.holds dir ".git" = true ∨ dir = top)

variable {fs : FileSystem}

theorem Reached.refl (here : Place) : Reached fs here here := by
  refine ⟨List.prefix_rfl, ?_⟩
  intro d hdown hup hne
  exact absurd (hup.eq_of_length_le hdown.length_le) hne

/-- One directory more to go up from. -/
theorem Reached.below {here dir : Place} (h : Reached fs here dir) {name : String}
    (hclear : Clear fs (here ++ [name])) : Reached fs (here ++ [name]) dir := by
  refine ⟨h.above.trans (List.prefix_append _ _), ?_⟩
  intro d hdown hup hne
  rcases List.prefix_concat_iff.mp hup with rfl | hup
  · exact hclear
  · exact h.before d hdown hup hne

theorem Answers.below {here top : Place} {answer : Option Path} (h : Answers fs here top answer)
    {name : String} (hclear : Clear fs (here ++ [name])) :
    Answers fs (here ++ [name]) top answer := by
  cases answer with
  | some path =>
    obtain ⟨dir, hreached, hmore⟩ := h
    exact ⟨dir, hreached.below hclear, hmore⟩
  | none =>
    obtain ⟨dir, hreached, hmore⟩ := h
    exact ⟨dir, hreached.below hclear, hmore⟩

theorem isEntryName_fileName : isEntryName fileName = true := by decide

theorem isEntryName_git : isEntryName ".git" = true := by decide

section

variable {p : Path}

theorem opens_of_endsAt (hend : endsAt fs p = true) : fs.Opens p := by
  rcases Bool.or_eq_true _ _ ▸ hend with hconfig | hgit
  · exact FileSystem.opens_of_pathExists isEntryName_fileName hconfig
  · exact FileSystem.opens_of_pathExists isEntryName_git hgit

theorem endsAt_eq (h : fs.Opens p) : endsAt fs p =
    (fs.holds (fs.placeOf p) fileName || fs.holds (fs.placeOf p) ".git") := by
  unfold endsAt
  rw [FileSystem.pathExists_join isEntryName_fileName h,
    FileSystem.pathExists_join isEntryName_git h]

/-- A search that ends at its first path. -/
theorem answers_of_endsAt (hend : endsAt fs p = true) (top : Place) (dirs : List Path) :
    Answers fs (fs.placeOf p) top (findIn fs (p :: dirs)) := by
  have hopens := opens_of_endsAt hend
  have hconfig := FileSystem.pathExists_join isEntryName_fileName hopens
  rw [findIn]
  split
  next hfound =>
    rw [hconfig] at hfound
    exact ⟨_, .refl _, hfound, FileSystem.place?_join_of_opens isEntryName_fileName hopens
      (FileSystem.isDirectoryAt_of_holds hfound)⟩
  next hfound =>
    rw [hconfig, Bool.not_eq_true] at hfound
    have hgit : fs.holds (fs.placeOf p) ".git" = true := by
      rwa [endsAt_eq hopens, hfound, Bool.false_or] at hend
    rw [if_pos (FileSystem.pathExists_join isEntryName_git hopens ▸ hgit)]
    exact ⟨_, .refl _, hfound, Or.inl hgit⟩

theorem findIn_of_not_endsAt (hend : endsAt fs p = false) (dirs : List Path) :
    findIn fs (p :: dirs) = findIn fs dirs := by
  obtain ⟨hconfig, hgit⟩ := Bool.or_eq_false_iff.mp hend
  rw [findIn, hconfig, hgit]
  rfl

/-- A path without a parent is the root or empty, and denotes where paths start. -/
theorem foldlM_enter?_of_top (h : p.parent? = none) :
    p.steps.foldlM fs.enter? fs.workPlace = some (fs.start p) := by
  unfold Path.steps FileSystem.start
  rw [Path.components_of_parent?_eq_none h]
  cases p.isAbsolute with
  | false => rfl
  | true =>
    show (fs.enter? fs.workPlace .root).bind some = some []
    unfold FileSystem.enter?
    rw [if_pos (Or.inl rfl)]
    rfl

end

/-- What a search that goes upwards does. -/
structure Upwards (fs : FileSystem) (p : Path) : Prop where
  opens : fs.Opens p
  answers : Answers fs (fs.placeOf p) (fs.start p) (find? fs p)
  above : ∀ dir ∈ consulted fs p, fs.placeOf dir <+: fs.placeOf p

theorem Upwards.of_endsAt {p : Path} (hend : endsAt fs p = true) : Upwards fs p := by
  obtain ⟨dirs, hdirs⟩ := p.exists_ancestors
  refine ⟨opens_of_endsAt hend, ?_, ?_⟩
  · unfold find?
    rw [hdirs]
    exact answers_of_endsAt hend _ _
  · unfold consulted
    rw [hdirs, upToEnd, hend, if_pos rfl]
    intro dir hdir
    exact List.mem_singleton.mp hdir ▸ List.prefix_rfl

/-- A search without a path to go on to. -/
theorem Upwards.of_top {p : Path} (hparent : p.parent? = none) (hend : endsAt fs p = false) :
    Upwards fs p := by
  have hall := Path.ancestors_of_top hparent
  have hplace : fs.start p = fs.placeOf p :=
    FileSystem.eq_foldl_of_foldlM_enter? (foldlM_enter?_of_top hparent)
  have hopens : fs.Opens p := fun _ => hplace ▸ foldlM_enter?_of_top hparent
  refine ⟨hopens, ?_, ?_⟩
  · unfold find?
    rw [hall, findIn_of_not_endsAt hend]
    rw [endsAt_eq hopens] at hend
    exact ⟨_, .refl _, (Bool.or_eq_false_iff.mp hend).1, Or.inr hplace.symm⟩
  · unfold consulted
    rw [hall, upToEnd, upToEnd, ite_self]
    intro dir hdir
    exact List.mem_singleton.mp hdir ▸ List.prefix_rfl

theorem consulted_of_parent? {p q : Path} (hparent : p.parent? = some q)
    (hend : endsAt fs p = false) : consulted fs p = p :: consulted fs q := by
  unfold consulted
  rw [Path.ancestors_of_parent? hparent, upToEnd, hend]
  rfl

/-- One path more in front of a search. -/
theorem Upwards.of_parent? {p q : Path} (h : Upwards fs q) (hparent : p.parent? = some q)
    (hend : endsAt fs p = false) (hup : p.components.getLast? ≠ some .up) : Upwards fs p := by
  have hfound : find? fs p = find? fs q := by
    unfold find?
    rw [Path.ancestors_of_parent? hparent, findIn_of_not_endsAt hend]
  have hstart : fs.start p = fs.start q := by
    unfold FileSystem.start
    rw [Path.isAbsolute_of_parent? hparent]
  have habove : fs.placeOf q <+: fs.placeOf p →
      ∀ dir ∈ consulted fs p, fs.placeOf dir <+: fs.placeOf p := by
    intro hq dir hdir
    rw [consulted_of_parent? hparent hend] at hdir
    rcases List.mem_cons.mp hdir with rfl | hdir
    · exact List.prefix_rfl
    · exact (h.above dir hdir).trans hq
  rcases Path.steps_of_parent? hparent hup with hsteps | ⟨name, hsteps⟩
  · -- only a `.` is taken away, and the search asks at the same place again
    have hplace : fs.placeOf p = fs.placeOf q := FileSystem.placeOf_of_steps hsteps
    refine ⟨h.opens.of_steps hsteps, ?_, habove (hplace ▸ List.prefix_rfl)⟩
    rw [hfound, hstart, hplace]
    exact h.answers
  · have hplace : fs.placeOf p = fs.placeOf q ++ [name] := FileSystem.placeOf_down hsteps
    have hopens := h.opens.down hsteps
    refine ⟨hopens, ?_, habove (hplace ▸ List.prefix_append _ _)⟩
    rw [endsAt_eq hopens, hplace] at hend
    rw [hfound, hstart, hplace]
    exact h.answers.below (Bool.or_eq_false_iff.mp hend)

/-- A search that goes on from no path with `..` at its end goes upwards. -/
theorem upwards {p : Path}
    (hup : ∀ dir ∈ consulted fs p, endsAt fs dir = false → dir.components.getLast? ≠ some .up) :
    Upwards fs p := by
  -- a search goes on as the one from the parent, which takes what is to be shown over
  induction p using Path.parent_induction with
  | top p hparent =>
    cases hend : endsAt fs p with
    | true => exact .of_endsAt hend
    | false => exact .of_top hparent hend
  | below p q hparent ih =>
    cases hend : endsAt fs p with
    | true => exact .of_endsAt hend
    | false =>
      rw [consulted_of_parent? hparent hend] at hup
      have hq := ih fun dir hdir => hup dir (List.mem_cons_of_mem p hdir)
      exact hq.of_parent? hparent hend (hup p List.mem_cons_self hend)

/-- No path above one without `..` ends with it. -/
theorem getLast?_ne_up_of_consulted {start : Path} (h : .up ∉ start.components) :
    ∀ dir ∈ consulted fs start, endsAt fs dir = false → dir.components.getLast? ≠ some .up := by
  intro dir hdir _ hlast
  have habove := Path.components_prefix_of_mem_ancestors (mem_of_mem_upToEnd hdir)
  exact h (habove.subset (List.mem_of_getLast? hlast))

/-- **The search looks upwards only**, if it goes on from no path that ends with `..`: what is
found is the configuration file of the nearest directory, at or above the start, that has one, and
nearer than that no repository starts; if nothing is found, then up to where a repository starts,
or to the top, no directory has one. It asks at paths to the start and to directories above it
only, and nothing but what is found there, under the two names, makes a difference. -/
theorem find?_looks_upwards (fs : FileSystem) (start : Path)
    (hup : ∀ dir ∈ consulted fs start, endsAt fs dir = false →
      dir.components.getLast? ≠ some .up) :
    Answers fs (fs.placeOf start) (fs.start start) (find? fs start) ∧
    (∀ dir ∈ consulted fs start, fs.placeOf dir <+: fs.placeOf start) ∧
    (∀ fs' : FileSystem, (∀ dir ∈ consulted fs start, ∀ name ∈ [fileName, ".git"],
      fs'.pathExists (dir.join ⟨name⟩) = fs.pathExists (dir.join ⟨name⟩)) →
        find? fs' start = find? fs start) :=
  ⟨(upwards hup).answers, (upwards hup).above, fun _ h => findIn_congr h⟩

/-- A project in `p/b/c`, looked at from `p/a`, has the configuration file of `p`. -/
theorem find?_looks_upwards_beside :
    let fs : FileSystem := {
      root := .directory [("p", .directory [
        (fileName, .file (some "{}")),
        ("a", .directory [(fileName, .file (some "{}"))]),
        ("b", .directory [("c", .empty)])])]
      workPlace := ["p", "a"] }
    find? fs ⟨"../b/./c"⟩ = some ⟨"../.tagmetarc.json"⟩ ∧
    fs.placeOf ⟨"../b/./c"⟩ = ["p", "b", "c"] ∧
    Answers fs ["p", "b", "c"] ["p", "a"] (some ⟨"../.tagmetarc.json"⟩) := by
  intro fs
  have hfound : find? fs ⟨"../b/./c"⟩ = some ⟨"../.tagmetarc.json"⟩ := by decide +kernel
  have hplace : fs.placeOf ⟨"../b/./c"⟩ = ["p", "b", "c"] := by decide +kernel
  obtain ⟨hanswers, -⟩ := find?_looks_upwards fs ⟨"../b/./c"⟩ (by decide +kernel)
  rw [hfound, hplace] at hanswers
  exact ⟨hfound, hplace, hanswers⟩

/-- Behind `a/..` the search goes down: it asks in `a`, which is below the start, and takes what
it finds there. -/
theorem find?_steps_down :
    let fs : FileSystem := {
      root := .directory [("a", .directory [(fileName, .file (some "{}"))])]
      workPlace := [] }
    find? fs ⟨"a/.."⟩ = some ⟨"a/.tagmetarc.json"⟩ ∧
    fs.place? ⟨"a/.."⟩ = some [] ∧
    ¬∃ dir, dir <+: [] ∧ fs.place? ⟨"a/.tagmetarc.json"⟩ = some (dir ++ [fileName]) := by
  intro fs
  have hplace : fs.place? ⟨"a/.tagmetarc.json"⟩ = some ["a", fileName] := by decide +kernel
  refine ⟨by decide +kernel, by decide +kernel, ?_⟩
  rintro ⟨dir, hdir, hat⟩
  rw [List.prefix_nil.mp hdir, hplace] at hat
  exact absurd hat (by decide)

end Config

end ElementManifest

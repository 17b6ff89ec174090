import ElementManifest.Files.System

/-!
# What a change leaves as it is

A file that is written or deleted changes what is at its own place. The directories above
it stay directories, and everything else stays what it was:

> `changedAt_write`, `changedAt_delete`: both change one place at most.

So a path leads to the same place as before, and what it leads to can be read as before
unless it is the place of the change (`ChangedAt.place?_eq`, `ChangedAt.read_eq`).
-/

namespace ElementManifest

theorem Table.lookup_set_of_ne {α : Type} {name other : String} (h : other ≠ name) (value : α)
    (table : List (String × α)) :
    (Table.set name value table).lookup other = table.lookup other := by
  have hne : (other == name) = false := beq_eq_false_iff_ne.mpr h
  induction table with
  | nil => simp [Table.set, List.lookup_cons, hne]
  | cons e entries ih =>
    obtain ⟨n, v⟩ := e
    unfold Table.set
    split
    next hn =>
      obtain rfl := eq_of_beq hn
      simp only [List.lookup_cons, hne]
    next => simp only [List.lookup_cons, ih]

theorem lookup_filter_ne {α : Type} (name other : String) (table : List (String × α)) :
    (table.filter (·.1 != name)).lookup other =
      if other = name then none else table.lookup other := by
  induction table with
  | nil => simp
  | cons e entries ih =>
    obtain ⟨n, v⟩ := e
    rw [List.filter_cons]
    by_cases hn : n = name
    · rw [if_neg (by simp [hn]), ih]
      by_cases ho : other = name
      · rw [if_pos ho, if_pos ho]
      · rw [if_neg ho, if_neg ho, List.lookup_cons, hn, beq_eq_false_iff_ne.mpr ho]
    · rw [if_pos (by simp [hn]), List.lookup_cons, List.lookup_cons, ih]
      by_cases ho : other = name
      · rw [if_pos ho, if_pos ho, beq_eq_false_iff_ne.mpr (fun h => hn (h.symm.trans ho))]
      · rw [if_neg ho, if_neg ho]

namespace FileTree

/-- What shows of a tree without going into it: the text of a file, if it is one. -/
def face : FileTree → Option (Option String)
  | file text => some text
  | directory _ => none

theorem isDirectory_eq (t : FileTree) : t.isDirectory = t.face.isNone := by
  cases t with
  | file text => rfl
  | directory es => rfl

theorem at?_cons (es : List (String × FileTree)) (name : String) (names : List String) :
    (directory es).at? (name :: names) = (es.lookup name).bind (·.at? names) := by
  rw [at?]
  rfl

theorem at?_file (text : Option String) {names : List String} (h : names ≠ []) :
    (file text).at? names = none := by
  cases names with
  | nil => exact absurd rfl h
  | cons name names =>
    rw [at?]
    rfl

/-- Below what is no directory there is nothing. -/
theorem at?_append_of_not_directory {t : FileTree} {names more : List String}
    (h : (t.at? names).any isDirectory = false) (hmore : more ≠ []) :
    t.at? (names ++ more) = none := by
  induction names generalizing t with
  | nil =>
    cases t with
    | file text => exact at?_file text hmore
    | directory es => cases h
  | cons name names ih =>
    cases t with
    | file text => exact at?_file text (List.cons_ne_nil _ _)
    | directory es =>
      rw [List.cons_append, at?_cons]
      rw [at?_cons] at h
      cases hchild : es.lookup name with
      | none => rfl
      | some child =>
        rw [hchild] at h
        exact ih h

/-! ## A file that is put somewhere -/

theorem at?_put_self {t : FileTree} {place : List String} {new : FileTree}
    (hdir : (t.at? place.dropLast).any isDirectory = true) :
    (t.put place new).at? place = some new := by
  induction place generalizing t with
  | nil => rfl
  | cons name names ih =>
    cases t with
    | file text =>
      cases names with
      | nil => cases hdir
      | cons next names =>
        rw [List.dropLast_cons_of_ne_nil (List.cons_ne_nil _ _), at?_file _ (List.cons_ne_nil _ _)]
          at hdir
        cases hdir
    | directory es =>
      rw [put, at?_cons, Table.lookup_set_self, Option.bind_some]
      cases names with
      | nil => rw [put]; rfl
      | cons next names =>
        rw [List.dropLast_cons_of_ne_nil (List.cons_ne_nil _ _), at?_cons] at hdir
        cases hchild : es.lookup name with
        | none =>
          rw [hchild] at hdir
          cases hdir
        | some child =>
          rw [hchild] at hdir
          exact ih hdir

/-- What is put into a directory shows at its own place only, if there is nothing in it. -/
theorem face_at?_put {t new : FileTree} {place other : List String}
    (hnew : ∀ names, names ≠ [] → new.at? names = none)
    (hdir : (t.at? place.dropLast).any isDirectory = true)
    (hplace : (t.at? place).any isDirectory = false) (hother : other ≠ place) :
    ((t.put place new).at? other).map face = (t.at? other).map face := by
  induction place generalizing t other with
  | nil =>
    rw [List.dropLast_nil] at hdir
    rw [hdir] at hplace
    cases hplace
  | cons name names ih =>
    cases t with
    | file text' => rw [put]
    | directory es =>
      rw [put]
      cases other with
      | nil => rfl
      | cons first rest =>
        rw [at?_cons, at?_cons]
        by_cases hfirst : first = name
        · rw [hfirst, Table.lookup_set_self, Option.bind_some]
          have hrest : rest ≠ names := fun h => hother (by rw [hfirst, h])
          cases names with
          | nil =>
            -- the other path goes on below the new place, where nothing was before
            rw [put, hnew rest hrest, Option.map_none]
            have hnone : (directory es).at? ([name] ++ rest) = none :=
              at?_append_of_not_directory hplace hrest
            rw [List.singleton_append, at?_cons] at hnone
            rw [hnone, Option.map_none]
          | cons next names =>
            rw [List.dropLast_cons_of_ne_nil (List.cons_ne_nil _ _), at?_cons] at hdir
            rw [at?_cons] at hplace
            cases hchild : es.lookup name with
            | none =>
              rw [hchild] at hdir
              cases hdir
            | some child =>
              rw [hchild] at hdir hplace
              exact ih hdir hplace hrest
        · rw [Table.lookup_set_of_ne hfirst]

/-! ## A file that is taken away -/

theorem at?_remove_self {t : FileTree} {place : List String}
    (hfile : (t.at? place).any isDirectory = false) :
    ((t.remove place).at? place).any isDirectory = false := by
  induction place generalizing t with
  | nil =>
    rw [remove]
    exact hfile
  | cons name names ih =>
    cases t with
    | file text =>
      rw [remove]
      exact hfile
    | directory es =>
      rw [at?_cons] at hfile
      cases names with
      | nil =>
        rw [remove, at?_cons, lookup_filter_ne, if_pos rfl]
        rfl
      | cons next names =>
        rw [remove]
        cases hchild : es.lookup name with
        | none =>
          rw [at?_cons, hchild]
          rfl
        | some child =>
          rw [hchild] at hfile
          rw [at?_cons, Table.lookup_set_self]
          exact ih hfile
        exact nofun

/-- What is taken away, and is no directory, is missing at its own place only. -/
theorem face_at?_remove {t : FileTree} {place other : List String}
    (hfile : (t.at? place).any isDirectory = false) (hother : other ≠ place) :
    ((t.remove place).at? other).map face = (t.at? other).map face := by
  induction place generalizing t other with
  | nil => rw [remove]
  | cons name names ih =>
    cases t with
    | file text => rw [remove]
    | directory es =>
      -- there is nothing below a file
      have hbelow : ∀ more, more ≠ [] → (directory es).at? (name :: names ++ more) = none :=
        fun more => at?_append_of_not_directory hfile
      rw [at?_cons] at hfile
      cases other with
      | nil =>
        cases names with
        | nil =>
          rw [remove]
          rfl
        | cons next names =>
          rw [remove]
          cases es.lookup name with
          | none => rfl
          | some child => rfl
          exact nofun
      | cons first rest =>
        by_cases hfirst : first = name
        · have hrest : rest ≠ names := fun h => hother (by rw [hfirst, h])
          rw [hfirst]
          cases names with
          | nil =>
            rw [remove, at?_cons, lookup_filter_ne, if_pos rfl]
            rw [show (directory es).at? (name :: rest) = none from hbelow rest hrest]
            rfl
          | cons next names =>
            rw [remove]
            cases hchild : es.lookup name with
            | none => rfl
            | some child =>
              rw [hchild] at hfile
              rw [at?_cons, at?_cons, Table.lookup_set_self, hchild]
              exact ih hfile hrest
            exact nofun
        · cases names with
          | nil => rw [remove, at?_cons, at?_cons, lookup_filter_ne, if_neg hfirst]
          | cons next names =>
            rw [remove]
            cases es.lookup name with
            | none => rfl
            | some child =>
              dsimp only
              rw [at?_cons, at?_cons, Table.lookup_set_of_ne hfirst]
            exact nofun

end FileTree

namespace FileSystem

/-- Delete a file; `none` when there is no file at the path. -/
def delete (fs : FileSystem) (p : Path) : Option FileSystem := do
  let place ← fs.place? p
  if (fs.root.at? place).any FileTree.isFile then
    some { fs with root := fs.root.remove place }
  else none

/-- Whether there is a directory at a place is a matter of what shows there. -/
theorem isDirectoryAt_of_face {fs fs' : FileSystem} {place : Place}
    (h : (fs'.root.at? place).map FileTree.face = (fs.root.at? place).map FileTree.face) :
    fs'.isDirectoryAt place = fs.isDirectoryAt place := by
  have hdir : ∀ t : Option FileTree, t.any FileTree.isDirectory =
      (t.map FileTree.face).any Option.isNone := by
    intro t
    cases t with
    | none => rfl
    | some t => exact t.isDirectory_eq
  show (fs'.root.at? place).any _ = (fs.root.at? place).any _
  rw [hdir, hdir, h]

/-! ## Changes at one place -/

/-- Two file systems that differ at one place at most, and have the same directories. -/
structure ChangedAt (place : Place) (fs fs' : FileSystem) : Prop where
  workPlace_eq : fs'.workPlace = fs.workPlace
  face_eq : ∀ other, other ≠ place →
    (fs'.root.at? other).map FileTree.face = (fs.root.at? other).map FileTree.face
  isDirectoryAt_self : fs'.isDirectoryAt place = fs.isDirectoryAt place

theorem changedAt_write {fs fs' : FileSystem} {p : Path} {text : String}
    (h : fs.write p text = some fs') :
    ∃ place, fs.place? p = some place ∧ ChangedAt place fs fs' := by
  unfold write at h
  obtain ⟨place, hplace, h⟩ := Option.bind_eq_some_iff.mp h
  split at h
  next => cases h
  next hfree =>
    obtain ⟨hself, hdir⟩ : fs.isDirectoryAt place = false ∧
        fs.isDirectoryAt place.dropLast = true := by simpa using hfree
    cases h
    refine ⟨place, hplace, rfl,
      fun other => FileTree.face_at?_put (fun _ => FileTree.at?_file _) hdir hself, ?_⟩
    rw [hself]
    show (((fs.root.put place _).at? place).any FileTree.isDirectory) = false
    rw [FileTree.at?_put_self hdir]
    rfl

theorem changedAt_delete {fs fs' : FileSystem} {p : Path} (h : fs.delete p = some fs') :
    ∃ place, fs.place? p = some place ∧ ChangedAt place fs fs' := by
  unfold delete at h
  obtain ⟨place, hplace, h⟩ := Option.bind_eq_some_iff.mp h
  split at h
  next hfile =>
    have hself : (fs.root.at? place).any FileTree.isDirectory = false := by
      cases htree : fs.root.at? place with
      | none => rfl
      | some t =>
        rw [htree] at hfile
        cases t with
        | file text => rfl
        | directory es => cases hfile
    cases h
    refine ⟨place, hplace, rfl, fun other => FileTree.face_at?_remove hself, ?_⟩
    exact (FileTree.at?_remove_self hself).trans hself.symm
  next => cases h

namespace ChangedAt

variable {place : Place} {fs fs' : FileSystem}

theorem isDirectoryAt_eq (h : ChangedAt place fs fs') (other : Place) :
    fs'.isDirectoryAt other = fs.isDirectoryAt other := by
  by_cases hother : other = place
  · rw [hother]
    exact h.isDirectoryAt_self
  · exact isDirectoryAt_of_face (h.face_eq other hother)

/-- Every path leads to the same place as before. -/
theorem place?_eq (h : ChangedAt place fs fs') : fs'.place? = fs.place? := by
  have hstep : fs'.step = fs.step := by
    funext at_ part
    unfold step
    rw [h.isDirectoryAt_eq]
  have hstart : fs'.start = fs.start := by
    funext p
    unfold start
    rw [h.workPlace_eq]
  funext p
  unfold place?
  rw [hstep, hstart]

end ChangedAt

/-! ## Reading -/

/-- What can be read is a matter of what shows at the end of the path. -/
theorem read_of_face {fs fs' : FileSystem} {p : Path}
    (h : (fs'.find? p).map FileTree.face = (fs.find? p).map FileTree.face) :
    fs'.read p = fs.read p := by
  unfold read
  cases hnew : fs'.find? p with
  | none =>
    rw [hnew] at h
    rw [Option.map_eq_none_iff.mp h.symm]
  | some t' =>
    rw [hnew] at h
    obtain ⟨t, ht, hface⟩ := Option.map_eq_some_iff.mp h.symm
    rw [ht]
    cases t with
    | file text =>
      cases t' with
      | file text' =>
        cases hface
        rfl
      | directory es' => cases hface
    | directory es =>
      cases t' with
      | file text' => cases hface
      | directory es' => rfl

/-- Whether there is a file at a path shows when it is read. -/
theorem isFile_of_read {fs fs' : FileSystem} {p : Path} (h : fs'.read p = fs.read p) :
    fs'.isFile p = fs.isFile p := by
  have hread : ∀ fs : FileSystem, fs.isFile p = match fs.read p with
      | .ok _ => true
      | .error .notText => true
      | _ => false := by
    intro fs
    unfold isFile read
    cases fs.find? p with
    | none => rfl
    | some t =>
      cases t with
      | directory es => rfl
      | file text =>
        cases text with
        | none => rfl
        | some text => rfl
  rw [hread, hread, h]

/-- A path that leads elsewhere is read as before. -/
theorem ChangedAt.read_eq {place : Place} {fs fs' : FileSystem} (h : ChangedAt place fs fs')
    {p : Path} (hp : fs.place? p ≠ some place) : fs'.read p = fs.read p := by
  refine read_of_face ?_
  unfold find?
  rw [h.place?_eq]
  cases hplace : fs.place? p with
  | none => rfl
  | some other =>
    refine h.face_eq other ?_
    intro hother
    exact hp (hother ▸ hplace)

end FileSystem

end ElementManifest

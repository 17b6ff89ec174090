import ElementManifest.Glob.Search
import ElementManifest.Proofs.PathPlaces

/-!
# What is found behind a path

What a path leads to is looked up from where another one leads, part by part, as long as no
part is a step up:

> `find?_join`: what is behind a path depends on what is at the path only.

A search names what it finds in a directory behind the directory, but without a `.` that it
starts with. That leads to the same (`find?_namingBase_join`) and has the same steps
(`steps_namingBase_join`).
-/

namespace ElementManifest

open ElementManifest.Glob ElementManifest.Text

namespace FileTree

/-- What one part of a path leads to, if it is no step up. -/
def below? (t : FileTree) (part : List Char) : Option FileTree :=
  if t.isDirectory then
    if part = [] ∨ part = ['.'] then some t else t.child? (String.ofList part)
  else none

theorem at?_append (t : FileTree) (names more : List String) :
    t.at? (names ++ more) = (t.at? names).bind (·.at? more) := by
  induction names generalizing t with
  | nil => rfl
  | cons name names ih =>
    rw [List.cons_append, at?, at?, Option.bind_assoc]
    exact congrArg _ (funext fun u => ih u)

/-- What has something below it is a directory. -/
theorem isDirectory_of_at?_append {t u : FileTree} {names more : List String} {name : String}
    (h : t.at? (names ++ name :: more) = some u) :
    (t.at? names).any FileTree.isDirectory = true := by
  rw [at?_append] at h
  obtain ⟨v, hv, hmore⟩ := Option.bind_eq_some_iff.mp h
  rw [hv]
  cases v with
  | file text => cases hmore
  | directory es => rfl

/-- Parts that do not count stay where they are, in a directory. -/
theorem foldlM_below?_of_uncounted {parts : List (List Char)}
    (h : parts.filterMap Path.componentOf = []) (hne : parts ≠ []) (t : FileTree) :
    parts.foldlM below? t = if t.isDirectory then some t else none := by
  induction parts with
  | nil => exact absurd rfl hne
  | cons part parts ih =>
    obtain ⟨hnone, hrest⟩ := List.forall_mem_cons.mp (List.filterMap_eq_nil_iff.mp h)
    -- only an empty part and a `.` are no steps, and both stay where they are
    have hpart : part = [] ∨ part = ['.'] := Path.componentOf_eq_none_iff.mp hnone
    have hparts : parts.filterMap Path.componentOf = [] := List.filterMap_eq_nil_iff.mpr hrest
    rw [List.foldlM_cons]
    unfold below?
    by_cases hdir : t.isDirectory = true
    · rw [if_pos hdir, if_pos hpart, if_pos hdir]
      cases hnil : parts with
      | nil => rfl
      | cons next rest =>
        rw [← hnil]
        have hrest := ih hparts (by rw [hnil]; exact List.cons_ne_nil _ _)
        rw [if_pos hdir] at hrest
        exact hrest
    · rw [if_neg hdir, if_neg hdir]
      rfl

end FileTree

theorem join_text_ne {p q : Path} (hp : p.text ≠ "") (hq : q.isAbsolute = false) :
    (p.join q).text ≠ "" := by
  obtain ⟨front, hfront, -, hjoin, -⟩ := Path.parts_join hp hq
  intro hempty
  -- the parts of the empty path are one part, and these are two at least
  have hparts : (p.join q).parts = [[]] := by
    unfold Path.parts
    rw [hempty]
    rfl
  obtain ⟨part, rest, hpart⟩ := List.exists_cons_of_ne_nil hfront
  obtain ⟨part', rest', hpart'⟩ :=
    List.exists_cons_of_ne_nil (splitOn_ne_nil (· = '/') q.text.toList)
  change q.parts = _ at hpart'
  rw [hjoin, hpart, hpart'] at hparts
  simp at hparts

namespace FileSystem

variable {fs : FileSystem}

/-- A directory lies in directories. -/
theorem isDirectoryAt_dropLast {place : Place} (h : fs.isDirectoryAt place = true) :
    fs.isDirectoryAt place.dropLast = true := by
  rcases List.eq_nil_or_concat' place with rfl | ⟨init, name, rfl⟩
  · exact h
  · rw [List.dropLast_concat]
    obtain ⟨u, hu⟩ : ∃ u, fs.root.at? (init ++ [name]) = some u := by
      unfold isDirectoryAt at h
      cases hat : fs.root.at? (init ++ [name]) with
      | none =>
        rw [hat] at h
        cases h
      | some u => exact ⟨u, rfl⟩
    exact FileTree.isDirectory_of_at?_append hu

/-- What is found at the end of a way is looked up from what is at its start. -/
theorem foldlM_step_bind_at? {parts : List (List Char)} (hup : ['.', '.'] ∉ parts)
    (place : Place) :
    (parts.foldlM fs.step place).bind fs.root.at? =
      (fs.root.at? place).bind (parts.foldlM FileTree.below? ·) := by
  induction parts generalizing place with
  | nil =>
    exact (Option.bind_fun_some _).symm
  | cons part parts ih =>
    obtain ⟨hpart, hparts⟩ : part ≠ ['.', '.'] ∧ ['.', '.'] ∉ parts :=
      ⟨fun h => hup (h ▸ List.mem_cons_self), fun h => hup (List.mem_cons_of_mem _ h)⟩
    have hlater : ∀ t, (part :: parts).foldlM FileTree.below? t =
        (t.below? part).bind (parts.foldlM FileTree.below? ·) := fun t => rfl
    -- one part goes the same way by places as it does in the tree, as long as it is not `..`
    have hfirst : (fs.step place part).bind fs.root.at? =
        (fs.root.at? place).bind (·.below? part) := by
      unfold step isDirectoryAt
      cases hat : fs.root.at? place with
      | none => rfl
      | some t =>
        rw [Option.any_some, Option.bind_some]
        unfold FileTree.below?
        by_cases hdir : t.isDirectory = true
        · rw [if_pos hdir, if_pos hdir, Option.bind_some]
          unfold placeBehind
          by_cases hstay : part = [] ∨ part = ['.']
          · rw [if_pos hstay, if_pos hstay, hat]
          · rw [if_neg hstay, if_neg hstay, if_neg hpart, FileTree.at?_append, hat]
            exact Option.bind_fun_some _
        · rw [if_neg hdir, if_neg hdir]
          rfl
    calc ((part :: parts).foldlM fs.step place).bind fs.root.at?
        = (fs.step place part).bind fun next =>
            (parts.foldlM fs.step next).bind fs.root.at? := Option.bind_assoc _ _ _
      _ = (fs.step place part).bind fun next =>
            (fs.root.at? next).bind (parts.foldlM FileTree.below? ·) := by
          exact congrArg _ (funext fun next => ih hparts next)
      _ = ((fs.root.at? place).bind (·.below? part)).bind (parts.foldlM FileTree.below? ·) := by
          rw [← hfirst, Option.bind_assoc]
      _ = (fs.root.at? place).bind ((part :: parts).foldlM FileTree.below? ·) := by
          rw [Option.bind_assoc]
          exact congrArg _ (funext fun t => (hlater t).symm)

theorem find?_eq {p : Path} (hp : p.text ≠ "") :
    fs.find? p = (p.parts.foldlM fs.step (fs.start p)).bind fs.root.at? := by
  unfold find? place?
  rw [if_neg hp]

theorem text_ne_of_find? {p : Path} {t : FileTree} (h : fs.find? p = some t) : p.text ≠ "" := by
  obtain ⟨place, hplace, -⟩ := Option.bind_eq_some_iff.mp h
  exact Path.text_ne_of_place hplace

/-- **What is behind a path** is looked up from what is at the path. -/
theorem find?_join {p q : Path} (hp : p.text ≠ "") (hq : q.isAbsolute = false)
    (hup : ['.', '.'] ∉ q.parts) :
    fs.find? (p.join q) = (fs.find? p).bind (q.parts.foldlM FileTree.below? ·) := by
  obtain ⟨front, -, hparts, hjoin, habs⟩ := Path.parts_join hp hq
  have hstart : fs.start (p.join q) = fs.start p := by
    unfold start
    rw [habs]
  have hbehind : fs.find? (p.join q) =
      ((front.foldlM fs.step (fs.start p)).bind fs.root.at?).bind
        (q.parts.foldlM FileTree.below? ·) := by
    rw [find?_eq (join_text_ne hp hq), hjoin, hstart, List.foldlM_append, Option.bind_eq_bind,
      Option.bind_assoc, Option.bind_assoc]
    exact congrArg _ (funext fun place => foldlM_step_bind_at? hup place)
  rw [hbehind, find?_eq hp]
  rcases hparts with hparts | hparts
  · rw [hparts]
  · -- a slash at the end of `p` asks for the directory that `q` starts from anyway
    rw [hparts, List.foldlM_append, Option.bind_eq_bind, Option.bind_assoc, Option.bind_assoc,
      Option.bind_assoc]
    refine congrArg _ (funext fun place => ?_)
    have hslash := @foldlM_step_bind_at? fs [[]] (by decide) place
    rw [← Option.bind_assoc, hslash, Option.bind_assoc]
    refine congrArg _ (funext fun t => ?_)
    rw [FileTree.foldlM_below?_of_uncounted rfl (List.cons_ne_nil _ _)]
    by_cases hdir : t.isDirectory = true
    · rw [if_pos hdir, Option.bind_some]
    · obtain ⟨part, parts, hq⟩ :=
        List.exists_cons_of_ne_nil (splitOn_ne_nil (· = '/') q.text.toList)
      change q.parts = _ at hq
      rw [if_neg hdir, hq, List.foldlM_cons]
      unfold FileTree.below?
      rw [if_neg hdir]
      rfl

/-! ## Behind a directory of a search -/

section

variable {part : List Char} (hne : part ≠ []) (hfree : ∀ x ∈ part, x ≠ '/')

theorem parts_ofList_of_free {part : List Char} (hfree : ∀ x ∈ part, x ≠ '/') :
    Path.parts ⟨String.ofList part⟩ = [part] ∧ Path.isAbsolute ⟨String.ofList part⟩ = false := by
  have hfree' : ∀ x ∈ (String.ofList part).toList, x ≠ '/' := by
    rw [String.toList_ofList]
    exact hfree
  refine ⟨?_, isAbsolute_of_free hfree'⟩
  rw [parts_of_free hfree', String.toList_ofList]

theorem steps_join {p q : Path} (hp : p.text ≠ "") (hq : q.isAbsolute = false) :
    (p.join q).steps = p.steps ++ q.parts.filterMap Path.componentOf := by
  unfold Path.steps
  rw [Path.components_join hp hq, List.filter_append,
    Path.filter_here_of_not_mem (Path.here_not_mem_filterMap q.parts)]

/-- Where the `.` at the start is left out, nothing else is there. -/
theorem namingBase_cases (p : Path) :
    namingBase p = p ∨ (namingBase p = .empty ∧ p.steps = [] ∧ p.isAbsolute = false ∧
      p.parts.filterMap Path.componentOf = []) := by
  unfold namingBase
  split
  next hhere =>
    have hsteps : p.steps = [] := by
      unfold Path.steps
      rw [hhere]
      rfl
    have hall := p.steps_eq
    rw [hsteps] at hall
    obtain ⟨habs, hparts⟩ := List.append_eq_nil_iff.mp hall.symm
    refine Or.inr ⟨rfl, hsteps, ?_, hparts⟩
    rw [Bool.eq_false_iff]
    intro h
    rw [if_pos h] at habs
    cases habs
  next => exact Or.inl rfl

include hfree in
theorem steps_namingBase_join {p : Path} (hp : p.text ≠ "") :
    ((namingBase p).join ⟨String.ofList part⟩).steps =
      p.steps ++ (Path.componentOf part).toList := by
  obtain ⟨hparts, habs⟩ := parts_ofList_of_free hfree
  have hlast : [part].filterMap Path.componentOf = (Path.componentOf part).toList := by
    rw [List.filterMap_cons]
    cases Path.componentOf part with
    | none => rfl
    | some c => rfl
  rcases namingBase_cases p with hbase | ⟨hbase, hsteps, -⟩
  · rw [hbase, steps_join hp habs, hparts, hlast]
  · rw [hbase, Path.join_of_empty (p := .empty) rfl, hsteps, Path.steps_eq, habs, hparts, hlast]
    rfl

include hne

theorem text_ofList_ne : (Path.mk (String.ofList part)).text ≠ "" := by
  intro hempty
  have hlist : (String.ofList part).toList = [] := congrArg String.toList hempty
  rw [String.toList_ofList] at hlist
  exact hne hlist

include hfree

theorem namingBase_join_text_ne {p : Path} (hp : p.text ≠ "") :
    ((namingBase p).join ⟨String.ofList part⟩).text ≠ "" := by
  rcases namingBase_cases p with hbase | ⟨hbase, -⟩
  · rw [hbase]
    exact join_text_ne hp (parts_ofList_of_free hfree).2
  · rw [hbase, Path.join_of_empty (p := .empty) rfl]
    exact text_ofList_ne hne

theorem place?_namingBase_join {p : Path} {place : Place} (hplace : fs.place? p = some place) :
    fs.place? ((namingBase p).join ⟨String.ofList part⟩) = fs.step place part := by
  obtain ⟨hparts, habs⟩ := parts_ofList_of_free hfree
  have hp : p.text ≠ "" := Path.text_ne_of_place hplace
  have hone : ∀ start, [part].foldlM fs.step start = fs.step start part := by
    intro start
    exact Option.bind_fun_some _
  rcases namingBase_cases p with hbase | ⟨hbase, hsteps, -⟩
  · obtain ⟨front, -, hfront, hjoin, habs'⟩ := Path.parts_join hp habs
    have hat : front.foldlM fs.step (fs.start p) = some place := by
      unfold place? at hplace
      rw [if_neg hp] at hplace
      rcases hfront with hfront | hfront
      · rw [← hfront]
        exact hplace
      · rw [hfront, List.foldlM_append] at hplace
        obtain ⟨before, hbefore, hslash⟩ := Option.bind_eq_some_iff.mp hplace
        rw [hbefore]
        refine congrArg some ?_
        change (fs.step before []).bind some = some place at hslash
        rw [Option.bind_fun_some] at hslash
        exact (Option.some.inj (Option.ite_none_right_eq_some.mp hslash).2)
    unfold place?
    rw [hbase, if_neg (join_text_ne hp habs), hjoin, hparts, List.foldlM_append]
    unfold start at hat ⊢
    rw [habs', hat]
    exact hone place
  · -- a base that is left out is `.`, which leads to the working directory
    have hwork : place = fs.workPlace := by
      rw [Path.place_eq_foldl_steps hplace, hsteps]
      rfl
    unfold place? start
    rw [hbase, Path.join_of_empty (p := .empty) rfl, if_neg (text_ofList_ne hne), habs, hparts,
      hwork]
    exact hone _

theorem find?_namingBase_join {p : Path} (hp : p.text ≠ "") (hup : part ≠ ['.', '.']) :
    fs.find? ((namingBase p).join ⟨String.ofList part⟩) = (fs.find? p).bind (·.below? part) := by
  obtain ⟨hparts, habs⟩ := parts_ofList_of_free hfree
  have hnotUp : ['.', '.'] ∉ Path.parts ⟨String.ofList part⟩ := by
    rw [hparts, List.mem_singleton]
    exact fun h => hup h.symm
  have hone : ∀ t, [part].foldlM FileTree.below? t = t.below? part := by
    intro t
    exact Option.bind_fun_some _
  rcases namingBase_cases p with hbase | ⟨hbase, -, hrelative, huncounted⟩
  · rw [hbase, find?_join hp habs hnotUp, hparts]
    exact congrArg _ (funext hone)
  · -- the base has no steps at all, so it only asks for the directory that it starts from
    have hhere : ['.', '.'] ∉ p.parts := by
      intro hmem
      have hcounted : Component.up ∈ p.parts.filterMap Path.componentOf :=
        List.mem_filterMap.mpr ⟨_, hmem, rfl⟩
      rw [huncounted] at hcounted
      cases hcounted
    rw [hbase, Path.join_of_empty (p := .empty) rfl, find?_eq (text_ofList_ne hne), find?_eq hp,
      hparts, foldlM_step_bind_at? (hparts ▸ hnotUp), foldlM_step_bind_at? hhere, Option.bind_assoc]
    unfold start
    rw [habs, hrelative]
    refine congrArg _ (funext fun t => ?_)
    rw [hone, FileTree.foldlM_below?_of_uncounted huncounted (splitOn_ne_nil _ _)]
    unfold FileTree.below?
    by_cases hdir : t.isDirectory = true
    · rw [if_pos hdir, if_pos hdir, Option.bind_some, if_pos hdir]
    · rw [if_neg hdir, if_neg hdir]
      rfl

end

end FileSystem

end ElementManifest

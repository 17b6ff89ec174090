import ElementManifest.Program.Load
import ElementManifest.Proofs.Paths

/-!
# Paths in normal form

A path in normal form goes up at its start if anywhere, and down from there by names. It is
told by its components:

> `components_normalize`: the components of a normal form are the steps that were not taken
> back.

> `normalize_eq_of_same`: normal forms that mean the same path are spelled alike.

Modules are paths in normal form, and a file of a module is an ending or a name away from
it, so the paths of linked files are in normal form too (`isNormal_of_mem_fileCandidates`).
-/

namespace ElementManifest

open ElementManifest.Text

namespace Path

/-! ## Components between slashes -/

/-- A component that is found again when it is written between slashes. -/
def Inner (c : Component) : Prop :=
  (∀ x ∈ c.text.toList, x ≠ '/') ∧ componentOf c.text.toList = some c

theorem inner_up : Inner .up := by
  constructor
  · simp [Component.text]
  · decide

theorem inner_of_componentOf {part : List Char} {c : Component} (hfree : ∀ x ∈ part, x ≠ '/')
    (h : componentOf part = some c) : Inner c := by
  rcases componentOf_cases h with ⟨-, rfl⟩ | ⟨-, rfl⟩
  · exact inner_up
  · have hpart : (Component.name (String.ofList part)).text.toList = part := String.toList_ofList
    refine ⟨hpart.symm ▸ hfree, ?_⟩
    rw [hpart]
    exact h

/-- A part that is longer than the two steps is a name. -/
theorem componentOf_of_length {part : List Char} (h : 3 ≤ part.length) :
    componentOf part = some (.name (String.ofList part)) := by
  have hne : ∀ short : List Char, short.length ≤ 2 → part ≠ short := by
    intro short hshort heq
    rw [heq] at h
    omega
  exact componentOf_of_ne (hne [] (by decide)) (hne ['.'] (by decide))
    (hne ['.', '.'] (by decide))

theorem free_of_mem_parts {p : Path} {part : List Char} (h : part ∈ p.parts) :
    ∀ x ∈ part, x ≠ '/' := by
  intro x hx heq
  have hsep := free_of_mem_splitOn h x hx
  rw [heq] at hsep
  cases hsep

/-- The components of a path are found again, but for those that can only be its first. -/
theorem inner_of_mem_components {p : Path} {c : Component} (h : c ∈ p.components) :
    c = .root ∨ c = .here ∨ Inner c := by
  rw [components_eq] at h
  cases hparts : p.parts with
  | nil => exact absurd hparts (splitOn_ne_nil _ _)
  | cons first rest =>
    have hfree : ∀ part ∈ first :: rest, ∀ x ∈ part, x ≠ '/' :=
      fun part hpart => free_of_mem_parts (hparts ▸ hpart)
    rw [hparts] at h
    rcases List.mem_append.mp h with hstart | hrest
    · split at hstart
      next => exact Or.inl (List.mem_singleton.mp hstart)
      next =>
        split at hstart
        next => exact Or.inr (Or.inl (List.mem_singleton.mp hstart))
        next =>
          have hfirst := Option.mem_toList.mp hstart
          exact Or.inr (Or.inr (inner_of_componentOf (hfree first List.mem_cons_self) hfirst))
    · obtain ⟨part, hpart, hc⟩ := List.mem_filterMap.mp hrest
      have hmem := List.mem_cons_of_mem first hpart
      exact Or.inr (Or.inr (inner_of_componentOf (hfree part hmem) hc))

/-! ## Components that are written down -/

theorem joinWith_slash (cs : List Component) :
    ("/".intercalate (cs.map Component.text)).toList =
      joinWith ['/'] (cs.map (·.text.toList)) := by
  rw [String.toList_intercalate, List.map_map]
  induction cs with
  | nil => rfl
  | cons c cs ih =>
    cases cs with
    | nil => exact List.intercalate_singleton
    | cons d ds =>
      rw [List.map_cons, List.map_cons] at ih ⊢
      rw [List.intercalate_cons_cons, ih]
      rfl

theorem filterMap_componentOf {cs : List Component} (h : ∀ c ∈ cs, Inner c) :
    (cs.map (·.text.toList)).filterMap componentOf = cs := by
  induction cs with
  | nil => rfl
  | cons c cs ih =>
    rw [List.map_cons, List.filterMap_cons, (h c List.mem_cons_self).2,
      ih fun d hd => h d (List.mem_cons_of_mem c hd)]

theorem splitOn_slash {cs : List Component} (hne : cs ≠ []) (h : ∀ c ∈ cs, Inner c) :
    splitOn (· = '/') ("/".intercalate (cs.map Component.text)).toList =
      cs.map (·.text.toList) := by
  rw [joinWith_slash]
  refine splitOn_joinWith (by decide) (by simpa using hne) ?_
  intro part hpart x hx
  obtain ⟨c, hc, rfl⟩ := List.mem_map.mp hpart
  exact decide_eq_false ((h c hc).1 x hx)

/-- Components that are written with slashes between them are those of the path. -/
theorem components_intercalate {cs : List Component} (h : ∀ c ∈ cs, Inner c) :
    Path.components ⟨"/".intercalate (cs.map Component.text)⟩ = cs := by
  cases cs with
  | nil => rfl
  | cons c cs =>
    have hparts : Path.parts ⟨"/".intercalate ((c :: cs).map Component.text)⟩ =
        (c :: cs).map (·.text.toList) := splitOn_slash (List.cons_ne_nil c cs) h
    have hfirst := (h c List.mem_cons_self).2
    have habs : Path.isAbsolute ⟨"/".intercalate ((c :: cs).map Component.text)⟩ = false := by
      rw [Bool.eq_false_iff]
      intro habs
      have hhead := ((head?_parts _).mp habs).2
      rw [hparts] at hhead
      have hnil : c.text.toList = [] := Option.some.inj hhead
      rw [hnil] at hfirst
      cases hfirst
    have hdot : c.text.toList ≠ ['.'] := by
      intro hdot
      rw [hdot] at hfirst
      cases hfirst
    have hrest : (cs.map (·.text.toList)).filterMap componentOf = cs :=
      filterMap_componentOf fun d hd => h d (List.mem_cons_of_mem c hd)
    rw [components_eq, habs, hparts, List.map_cons, componentsOf, if_neg (by decide),
      if_neg hdot, hfirst, hrest]
    rfl

/-- The same behind the slash of the root. -/
theorem components_root_intercalate {cs : List Component} (h : ∀ c ∈ cs, Inner c) :
    Path.components ⟨"/" ++ "/".intercalate (cs.map Component.text)⟩ = .root :: cs := by
  have hparts : Path.parts ⟨"/" ++ "/".intercalate (cs.map Component.text)⟩ =
      [] :: splitOn (· = '/') ("/".intercalate (cs.map Component.text)).toList := by
    unfold parts
    rw [String.toList_append]
    rfl
  have habs : Path.isAbsolute ⟨"/" ++ "/".intercalate (cs.map Component.text)⟩ = true := by
    unfold isAbsolute
    rw [String.toList_append]
    rfl
  have hrest : (splitOn (· = '/') ("/".intercalate (cs.map Component.text)).toList).filterMap
      componentOf = cs := by
    cases cs with
    | nil => rfl
    | cons c cs =>
      rw [splitOn_slash (List.cons_ne_nil c cs) h]
      exact filterMap_componentOf h
  rw [components_eq, habs, hparts, componentsOf, hrest]
  rfl

/-! ## Normal form -/

/-- The components of a path in normal form, read backwards: names, behind one step up at
most. -/
inductive Normal : List Component → Prop
  | nil : Normal []
  | root : Normal [.root]
  | up : Normal [.up]
  | rootUp : Normal [.up, .root]
  | name {text : String} {taken : List Component} (head : Inner (.name text))
      (tail : Normal taken) : Normal (.name text :: taken)

theorem Normal.of_suffix {taken more : List Component} (h : Normal more)
    (hsuffix : taken <:+ more) : Normal taken := by
  induction h with
  | nil =>
    rw [List.suffix_nil.mp hsuffix]
    exact .nil
  | root =>
    rcases List.suffix_cons_iff.mp hsuffix with rfl | hsuffix
    · exact .root
    · rw [List.suffix_nil.mp hsuffix]
      exact .nil
  | up =>
    rcases List.suffix_cons_iff.mp hsuffix with rfl | hsuffix
    · exact .up
    · rw [List.suffix_nil.mp hsuffix]
      exact .nil
  | rootUp =>
    rcases List.suffix_cons_iff.mp hsuffix with rfl | hsuffix
    · exact .rootUp
    · rcases List.suffix_cons_iff.mp hsuffix with rfl | hsuffix
      · exact .root
      · rw [List.suffix_nil.mp hsuffix]
        exact .nil
  | name head tail ih =>
    rcases List.suffix_cons_iff.mp hsuffix with rfl | hsuffix
    · exact .name head tail
    · exact ih hsuffix

theorem normal_normalStep {taken : List Component} {c : Component} (h : Normal taken)
    (hc : c = .root ∨ c = .here ∨ Inner c) : Normal (normalStep taken c) := by
  cases c with
  | here => exact h
  | root => exact .root
  | name text =>
    rcases hc with hroot | hhere | hinner
    · cases hroot
    · cases hhere
    · exact .name hinner h
  | up =>
    cases h with
    | nil => exact .up
    | root => exact .rootUp
    | up => exact .nil
    | rootUp => exact .root
    | name head tail => exact tail

theorem normal_foldl_normalStep {taken cs : List Component} (h : Normal taken)
    (hcs : ∀ c ∈ cs, c = .root ∨ c = .here ∨ Inner c) : Normal (cs.foldl normalStep taken) := by
  induction cs generalizing taken with
  | nil => exact h
  | cons c cs ih =>
    have hstep := normal_normalStep h (hcs c List.mem_cons_self)
    exact ih hstep fun d hd => hcs d (List.mem_cons_of_mem c hd)

/-- In a normal form no step is taken back. -/
theorem foldl_normalStep_reverse {taken : List Component} (h : Normal taken) :
    taken.reverse.foldl normalStep [] = taken := by
  induction h with
  | nil => rfl
  | root => rfl
  | up => rfl
  | rootUp => rfl
  | name head tail ih =>
    rw [List.reverse_cons, List.foldl_append, ih]
    rfl

/-- Components in normal form are found again in the path that is made of them. -/
theorem components_ofComponents {taken : List Component} (h : Normal taken) :
    (ofComponents taken.reverse).components = taken.reverse := by
  -- behind the root, if there is one, a normal form has names and steps up
  have hcases : ∃ cs : List Component, (∀ c ∈ cs, Inner c) ∧
      (taken.reverse = cs ∨ taken.reverse = .root :: cs) := by
    induction h with
    | nil => exact ⟨[], nofun, Or.inl rfl⟩
    | root => exact ⟨[], nofun, Or.inr rfl⟩
    | up => exact ⟨[.up], by simp [inner_up], Or.inl rfl⟩
    | rootUp => exact ⟨[.up], by simp [inner_up], Or.inr rfl⟩
    | @name text taken head tail ih =>
      obtain ⟨cs, hcs, htaken⟩ := ih
      refine ⟨cs ++ [.name text], ?_, ?_⟩
      · intro c hc
        rcases List.mem_append.mp hc with hc | hc
        · exact hcs c hc
        · exact List.mem_singleton.mp hc ▸ head
      · rcases htaken with htaken | htaken
        · exact Or.inl (by rw [List.reverse_cons, htaken])
        · exact Or.inr (by rw [List.reverse_cons, htaken, List.cons_append])
  obtain ⟨cs, hcs, htaken | htaken⟩ := hcases
  · rw [htaken]
    have hform : ofComponents cs = ⟨"/".intercalate (cs.map Component.text)⟩ := by
      cases cs with
      | nil => rfl
      | cons c cs =>
        cases c with
        | root => exact absurd (hcs .root List.mem_cons_self).2 (by decide)
        | here => rfl
        | up => rfl
        | name text => rfl
    rw [hform]
    exact components_intercalate hcs
  · rw [htaken]
    exact components_root_intercalate hcs

/-- What is left of the steps of a path. -/
theorem normal_normalized (p : Path) : Normal (p.components.foldl normalStep []) :=
  normal_foldl_normalStep .nil fun _ hc => inner_of_mem_components hc

/-- The components of the normal form are the steps that are left. -/
theorem components_normalize (p : Path) :
    p.normalize.components = (p.components.foldl normalStep []).reverse :=
  components_ofComponents (normal_normalized p)

/-- Whether a path means what its normal form means. -/
def IsNormal (p : Path) : Prop :=
  Normal p.components.reverse

theorem isNormal_normalize (p : Path) : p.normalize.IsNormal := by
  unfold IsNormal
  rw [components_normalize, List.reverse_reverse]
  exact normal_normalized p

theorem components_normalize_of_isNormal {p : Path} (h : p.IsNormal) :
    p.normalize.components = p.components := by
  have hsteps := foldl_normalStep_reverse h
  rw [List.reverse_reverse] at hsteps
  rw [components_normalize, hsteps, List.reverse_reverse]

/-- Normal forms of the same path are spelled alike. -/
theorem normalize_eq_of_same {p q : Path} (h : p.normalize.same q.normalize = true) :
    p.normalize = q.normalize := by
  have hcomponents := (same_iff _ _).mp h
  rw [components_normalize, components_normalize] at hcomponents
  unfold normalize
  rw [hcomponents]

theorem isNormal_iff (p : Path) : p.IsNormal ↔ p.normalize.same p = true := by
  rw [same_iff]
  constructor
  · exact components_normalize_of_isNormal
  · intro h
    have hnormal := isNormal_normalize p
    unfold IsNormal at hnormal ⊢
    exact h ▸ hnormal

/-! ## Endings -/

/-- An ending without a slash goes to the last part. -/
theorem exists_splitOn_append (s : List Char) :
    ∃ init last, (∀ x ∈ last, x ≠ '/') ∧ splitOn (· = '/') s = init ++ [last] ∧
      ∀ ending, (∀ x ∈ ending, x ≠ '/') →
        splitOn (· = '/') (s ++ ending) = init ++ [last ++ ending] := by
  induction s with
  | nil =>
    refine ⟨[], [], nofun, rfl, ?_⟩
    intro ending hfree
    exact splitOn_of_free fun x hx => decide_eq_false (hfree x hx)
  | cons c s ih =>
    obtain ⟨init, last, hlast, hs, happend⟩ := ih
    by_cases hc : c = '/'
    · refine ⟨[] :: init, last, hlast, ?_, ?_⟩
      · rw [splitOn, if_pos (decide_eq_true hc), hs, List.cons_append]
      · intro ending hfree
        rw [List.cons_append, splitOn, if_pos (decide_eq_true hc), happend ending hfree,
          List.cons_append]
    · have hneg : ¬decide (c = '/') = true := by simpa using hc
      cases init with
      | nil =>
        refine ⟨[], c :: last, ?_, ?_, ?_⟩
        · intro x hx
          rcases List.mem_cons.mp hx with rfl | hx
          · exact hc
          · exact hlast x hx
        · rw [splitOn, if_neg hneg, hs]
          rfl
        · intro ending hfree
          rw [List.cons_append, splitOn, if_neg hneg, happend ending hfree]
          rfl
      | cons first init =>
        refine ⟨(c :: first) :: init, last, hlast, ?_, ?_⟩
        · rw [splitOn, if_neg hneg, hs]
          rfl
        · intro ending hfree
          rw [List.cons_append, splitOn, if_neg hneg, happend ending hfree]
          rfl

/-- An ending changes the last component at most, and makes it a name if it is long enough. -/
theorem exists_components_append (text : String) :
    ∃ front last, front <+: Path.components ⟨text⟩ ∧ ∀ ending : String,
      3 ≤ ending.toList.length → (∀ x ∈ ending.toList, x ≠ '/') →
        Inner (.name (String.ofList (last ++ ending.toList))) ∧
        Path.components ⟨text ++ ending⟩ =
          front ++ [.name (String.ofList (last ++ ending.toList))] := by
  obtain ⟨init, last, hlast, hparts, happend⟩ := exists_splitOn_append text.toList
  have hname : ∀ ending : String, 3 ≤ ending.toList.length →
      componentOf (last ++ ending.toList) =
        some (.name (String.ofList (last ++ ending.toList))) := by
    intro ending hlength
    refine componentOf_of_length ?_
    rw [List.length_append]
    omega
  have hinner : ∀ ending : String, 3 ≤ ending.toList.length →
      (∀ x ∈ ending.toList, x ≠ '/') →
        Inner (.name (String.ofList (last ++ ending.toList))) := by
    intro ending hlength hfree
    refine inner_of_componentOf ?_ (hname ending hlength)
    intro x hx
    rcases List.mem_append.mp hx with hx | hx
    · exact hlast x hx
    · exact hfree x hx
  have hsplit : ∀ ending : String, (∀ x ∈ ending.toList, x ≠ '/') →
      Path.parts ⟨text ++ ending⟩ = init ++ [last ++ ending.toList] := by
    intro ending hfree
    unfold parts
    rw [String.toList_append]
    exact happend ending.toList hfree
  cases init with
  | nil =>
    -- a single part, so the path is relative and the name is all there is
    refine ⟨[], last, List.nil_prefix, ?_⟩
    intro ending hlength hfree
    refine ⟨hinner ending hlength hfree, ?_⟩
    have hone : Path.parts ⟨text ++ ending⟩ = [last ++ ending.toList] := hsplit ending hfree
    have hsome := hname ending hlength
    have habs : Path.isAbsolute ⟨text ++ ending⟩ = false := by
      rw [Bool.eq_false_iff]
      intro habs
      have hhead := ((head?_parts _).mp habs).2
      rw [hone] at hhead
      rw [Option.some.inj hhead] at hsome
      cases hsome
    have hdot : last ++ ending.toList ≠ ['.'] := by
      intro hdot
      rw [hdot] at hsome
      cases hsome
    rw [components_eq, habs, hone, componentsOf, if_neg (by decide), if_neg hdot, hsome]
    rfl
  | cons first init =>
    have htext : text ≠ "" := by
      rintro rfl
      cases init with
      | nil => cases hparts
      | cons next init => cases hparts
    refine ⟨componentsOf (Path.isAbsolute ⟨text⟩) (first :: init), last, ?_, ?_⟩
    · have hpath : Path.parts ⟨text⟩ = first :: init ++ [last] := hparts
      rw [components_eq, hpath, componentsOf_append (List.cons_ne_nil first init)]
      exact List.prefix_append _ _
    · intro ending hlength hfree
      refine ⟨hinner ending hlength hfree, ?_⟩
      have habs : Path.isAbsolute ⟨text ++ ending⟩ = Path.isAbsolute ⟨text⟩ := by
        have hpath : Path.parts ⟨text⟩ = first :: init ++ [last] := hparts
        rw [Bool.eq_iff_iff, head?_parts, head?_parts, hsplit ending hfree, hpath]
        simp [htext]
      rw [components_eq, habs, hsplit ending hfree,
        componentsOf_append (List.cons_ne_nil first init), List.filterMap_cons,
        hname ending hlength]
      rfl

theorem endsWith_iff (s ending : String) :
    s.endsWith ending = true ↔ ending.toList <:+ s.toList := by
  rw [String.endsWith_eq_endsWith_toSlice, String.Slice.endsWith_string_iff, String.copy_toSlice]

theorem dropEnding_append {s ending : String} (h : s.endsWith ending = true) :
    Program.dropEnding ending s ++ ending = s := by
  obtain ⟨front, hfront⟩ := (endsWith_iff s ending).mp h
  have hlength : s.length - ending.length = front.length := by
    rw [← String.length_toList, ← String.length_toList, ← hfront, List.length_append]
    omega
  apply String.toList_injective
  rw [String.toList_append, Program.dropEnding, String.toList_ofList, hlength, ← hfront,
    List.take_left]

/-! ## Files of modules -/

theorem isNormal_of_ending {m : Path} (h : m.IsNormal) {text old : String}
    (hm : m.text = text ++ old) (hold : old = "" ∨ old = ".js") {ending : String}
    (hlength : 3 ≤ ending.toList.length) (hfree : ∀ x ∈ ending.toList, x ≠ '/') :
    Path.IsNormal ⟨text ++ ending⟩ := by
  obtain ⟨front, last, hfront, happend⟩ := exists_components_append text
  have hpre : front <+: m.components := by
    obtain ⟨mtext⟩ := m
    obtain rfl : mtext = text ++ old := hm
    rcases hold with rfl | rfl
    · rw [String.append_empty]
      exact hfront
    · rw [(happend ".js" (by decide) (by simp)).2]
      exact List.prefix_append _ _
  obtain ⟨hinner, hcomponents⟩ := happend ending hlength hfree
  unfold IsNormal
  rw [hcomponents, List.reverse_append]
  exact .name hinner (h.of_suffix (List.reverse_suffix.mpr hpre))

theorem isNormal_join {m : Path} (h : m.IsNormal) {name : String}
    (hparts : Path.parts ⟨name⟩ = [name.toList]) (habs : Path.isAbsolute ⟨name⟩ = false)
    (hname : componentOf name.toList = some (.name name)) : (m.join ⟨name⟩).IsNormal := by
  have hinner : Inner (.name name) := by
    refine inner_of_componentOf ?_ hname
    exact free_of_mem_parts (hparts ▸ List.mem_singleton_self _)
  unfold IsNormal
  rw [components_join_part m hparts habs hname, List.reverse_append]
  exact .name hinner h

/-- The files that a module may have are in normal form if the module is. -/
theorem isNormal_of_mem_fileCandidates {m q : Path} (h : m.IsNormal)
    (hq : q ∈ Program.fileCandidates m) : q.IsNormal := by
  unfold Program.fileCandidates at hq
  dsimp only at hq
  split at hq
  next hjs =>
    have hm : m.text = Program.dropEnding ".js" m.text ++ ".js" := (dropEnding_append hjs).symm
    rcases List.mem_cons.mp hq with rfl | hq
    · exact isNormal_of_ending h hm (Or.inr rfl) (by decide) (by simp)
    · rw [List.mem_singleton.mp hq]
      exact isNormal_of_ending h hm (Or.inr rfl) (by decide) (by simp)
  next =>
    split at hq
    next =>
      rw [List.mem_singleton.mp hq]
      exact h
    next =>
      have hm : m.text = m.text ++ "" := String.append_empty.symm
      simp only [List.mem_cons, List.not_mem_nil, or_false] at hq
      rcases hq with rfl | rfl | rfl | rfl
      · exact isNormal_of_ending h hm (Or.inl rfl) (by decide) (by simp)
      · exact isNormal_of_ending h hm (Or.inl rfl) (by decide) (by simp)
      · exact isNormal_join h (by decide) (by decide) (by decide)
      · exact isNormal_join h (by decide) (by decide) (by decide)

end Path

end ElementManifest

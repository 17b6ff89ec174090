import ElementManifest.Files.Walk
import ElementManifest.Proofs.FileLinks
import ElementManifest.Proofs.NormalPaths
import Mathlib.Data.List.DropRight

/-!
# Places of paths

Two spellings can lead to one place in the tree. How much they can differ is told by where
their names start, the `lead` of a path: from there on every name goes one step down, so

> `steps_eq_of_place`: paths with the same lead that lead to one place have the same steps.

The `.` that a path may start with is no step. It is the only component that leads nowhere,
and the paths behind a directory all have it or all lack it (`startsHere_of_down`).

What is found by walking through a tree is behind its start by names only, when everything in
the tree has a name that can stand in a path (`down_of_mem_walk?`).
-/

namespace ElementManifest

open ElementManifest.Text

/-! ## Steps -/

namespace Component

/-- Whether a component is a name. -/
def isName : Component → Bool
  | name _ => true
  | _ => false

/-- The place that a component leads to. -/
def enter (place : Place) : Component → Place
  | root => []
  | here => place
  | up => place.dropLast
  | name text => place ++ [text]

theorem foldl_enter_names {names : List Component} (h : ∀ c ∈ names, c.isName = true)
    (place : Place) : names.foldl enter place = place ++ names.map text := by
  induction names generalizing place with
  | nil => exact (List.append_nil place).symm
  | cons c names ih =>
    have hrest : ∀ d ∈ names, d.isName = true := fun d hd => h d (List.mem_cons_of_mem c hd)
    cases c with
    | name text =>
      rw [List.foldl_cons, ih hrest, List.map_cons]
      exact (List.append_cons place text _).symm
    | root => exact absurd (h _ List.mem_cons_self) Bool.false_ne_true
    | here => exact absurd (h _ List.mem_cons_self) Bool.false_ne_true
    | up => exact absurd (h _ List.mem_cons_self) Bool.false_ne_true

theorem eq_of_text_eq {c d : Component} (hc : c.isName = true) (hd : d.isName = true)
    (h : c.text = d.text) : c = d := by
  cases c with
  | name s =>
    cases d with
    | name t => exact congrArg name h
    | _ => cases hd
  | _ => cases hc

theorem names_eq_of_texts {names names' : List Component} (h : ∀ c ∈ names, c.isName = true)
    (h' : ∀ c ∈ names', c.isName = true) (htexts : names.map text = names'.map text) :
    names = names' := by
  induction names generalizing names' with
  | nil => exact (List.map_eq_nil_iff.mp htexts.symm).symm
  | cons c names ih =>
    cases names' with
    | nil => cases htexts
    | cons c' names' =>
      rw [List.map_cons, List.map_cons, List.cons.injEq] at htexts
      have hfirst := eq_of_text_eq (h c List.mem_cons_self) (h' c' List.mem_cons_self) htexts.1
      have hrest := ih (fun d hd => h d (List.mem_cons_of_mem c hd))
        (fun d hd => h' d (List.mem_cons_of_mem c' hd)) htexts.2
      rw [hfirst, hrest]

end Component

namespace Path

/-- The components of a path but for a `.` at its start. -/
def steps (p : Path) : List Component :=
  p.components.filter (· ≠ .here)

/-- The steps of a path up to where its names start: it ends with the last step that is no
name. -/
def lead (p : Path) : List Component :=
  p.steps.rdropWhile Component.isName

/-- Whether a path is spelled with a `.` at its start. -/
def startsHere (p : Path) : Bool :=
  p.components.head? = some .here

theorem componentOf_ne_here (part : List Char) : componentOf part ≠ some .here := by
  intro h
  rcases componentOf_cases h with ⟨-, hc⟩ | ⟨-, hc⟩
  · cases hc
  · cases hc

/-- A part that is no `..` is a name, or it is left out. -/
theorem isName_of_componentOf {part : List Char} {c : Component} (hup : part ≠ ['.', '.'])
    (h : componentOf part = some c) : c.isName = true := by
  rcases componentOf_cases h with ⟨hdots, -⟩ | ⟨-, rfl⟩
  · exact absurd hdots hup
  · rfl

theorem here_not_mem_filterMap (parts : List (List Char)) :
    .here ∉ parts.filterMap componentOf := by
  intro hmem
  obtain ⟨part, -, hpart⟩ := List.mem_filterMap.mp hmem
  exact componentOf_ne_here part hpart

theorem filter_here_of_not_mem {cs : List Component} (h : .here ∉ cs) :
    cs.filter (· ≠ .here) = cs := by
  refine List.filter_eq_self.mpr ?_
  intro c hc
  refine decide_eq_true ?_
  rintro rfl
  exact h hc

theorem head?_parts_of_isAbsolute {p : Path} (h : p.isAbsolute = true) :
    p.parts.head? = some [] :=
  ((head?_parts p).mp h).2

/-- The steps are those of the parts, behind the root of an absolute path. -/
theorem filter_componentsOf {absolute : Bool} {parts : List (List Char)}
    (h : absolute = true → parts = [] ∨ parts.head? = some []) :
    (componentsOf absolute parts).filter (· ≠ .here) =
      (if absolute then [.root] else []) ++ parts.filterMap componentOf := by
  cases parts with
  | nil => cases absolute <;> rfl
  | cons first rest =>
    rw [componentsOf, List.filter_append, filter_here_of_not_mem (here_not_mem_filterMap rest)]
    cases absolute with
    | true =>
      obtain rfl : first = [] := by
        rcases h rfl with hnil | hhead
        · cases hnil
        · exact Option.some.inj hhead
      rfl
    | false =>
      rw [if_neg Bool.false_ne_true, if_neg Bool.false_ne_true]
      by_cases hdot : first = ['.']
      · rw [hdot]
        rfl
      · have hfirst : .here ∉ (componentOf first).toList := by
          intro hmem
          exact componentOf_ne_here first (Option.mem_toList.mp hmem)
        rw [if_neg hdot, filter_here_of_not_mem hfirst, List.filterMap_cons]
        cases componentOf first with
        | none => rfl
        | some c => rfl

theorem steps_eq (p : Path) :
    p.steps = (if p.isAbsolute then [.root] else []) ++ p.parts.filterMap componentOf := by
  unfold steps
  rw [components_eq]
  exact filter_componentsOf fun h => Or.inr (head?_parts_of_isAbsolute h)

/-- A `.` is at the start if anywhere. -/
theorem here_cases (p : Path) :
    (∃ cs, p.components = .here :: cs ∧ .here ∉ cs) ∨ .here ∉ p.components := by
  rw [components_eq]
  cases hparts : p.parts with
  | nil => exact absurd hparts (splitOn_ne_nil _ _)
  | cons first rest =>
    rw [componentsOf]
    have hrest := here_not_mem_filterMap rest
    cases p.isAbsolute with
    | true =>
      refine Or.inr ?_
      simpa using hrest
    | false =>
      rw [if_neg Bool.false_ne_true]
      by_cases hdot : first = ['.']
      · rw [if_pos hdot]
        exact Or.inl ⟨_, rfl, hrest⟩
      · rw [if_neg hdot]
        refine Or.inr ?_
        intro hmem
        rcases List.mem_append.mp hmem with hfirst | hmem
        · exact componentOf_ne_here first (Option.mem_toList.mp hfirst)
        · exact hrest hmem

/-- An absolute path starts with its root. -/
theorem startsHere_of_isAbsolute {p : Path} (h : p.isAbsolute = true) : p.startsHere = false := by
  have hhead : p.components.head? = some .root := by
    rw [components_eq, h]
    cases p.parts with
    | nil => rfl
    | cons first rest => rfl
  unfold startsHere
  rw [hhead]
  exact decide_eq_false nofun

/-- Nothing but a `.` at the start is missing among the steps. -/
theorem components_eq_steps (p : Path) :
    p.components = (if p.startsHere then [.here] else []) ++ p.steps := by
  unfold startsHere steps
  rcases here_cases p with ⟨cs, hcs, hnone⟩ | hnone
  · rw [hcs, List.filter_cons_of_neg (by simp), filter_here_of_not_mem hnone]
    rfl
  · have hhead : p.components.head? ≠ some .here := fun hhead => hnone (List.mem_of_head? hhead)
    rw [filter_here_of_not_mem hnone, if_neg (by simpa using hhead)]
    rfl

/-! ## Components between slashes -/

/-- What a path is made of: names and steps up, behind the root or a `.` at most. -/
theorem components_cases (p : Path) : ∃ cs, (∀ c ∈ cs, Inner c) ∧
    (p.components = cs ∨ p.components = .root :: cs ∨ p.components = .here :: cs) := by
  have hinner : ∀ parts : List (List Char), (∀ part ∈ parts, part ∈ p.parts) →
      ∀ c ∈ parts.filterMap componentOf, Inner c := by
    intro parts hsub c hc
    obtain ⟨part, hpart, hcomponent⟩ := List.mem_filterMap.mp hc
    exact inner_of_componentOf (free_of_mem_parts (hsub part hpart)) hcomponent
  refine ⟨p.parts.filterMap componentOf, hinner _ fun _ h => h, ?_⟩
  have hsteps := components_eq_steps p
  rw [steps_eq] at hsteps
  cases habs : p.isAbsolute with
  | true =>
    rw [habs, if_pos rfl, startsHere_of_isAbsolute habs, if_neg Bool.false_ne_true] at hsteps
    exact Or.inr (Or.inl hsteps)
  | false =>
    rw [habs, if_neg Bool.false_ne_true, List.nil_append] at hsteps
    cases hhere : p.startsHere with
    | true =>
      rw [hhere, if_pos rfl] at hsteps
      exact Or.inr (Or.inr hsteps)
    | false =>
      rw [hhere, if_neg Bool.false_ne_true] at hsteps
      exact Or.inl hsteps

theorem inner_of_mem_tail {p : Path} {c : Component} {cs : List Component}
    (h : p.components = c :: cs) : ∀ d ∈ cs, Inner d := by
  obtain ⟨ds, hinner, hcases⟩ := components_cases p
  intro d hd
  rcases hcases with heq | heq | heq
  · rw [← heq, h] at hinner
    exact hinner d (List.mem_cons_of_mem c hd)
  · exact hinner d ((List.cons.inj (h.symm.trans heq)).2 ▸ hd)
  · exact hinner d ((List.cons.inj (h.symm.trans heq)).2 ▸ hd)

/-- What stands in front of other components is a part of its own, but for the root, whose
slash is a part more. -/
theorem parts_intercalate_cons (c : Component) {cs : List Component} (hne : cs ≠ [])
    (h : ∀ c ∈ cs, Inner c) :
    Path.parts ⟨"/".intercalate ((c :: cs).map Component.text)⟩ =
      splitOn (· = '/') c.text.toList ++ cs.map (·.text.toList) := by
  cases cs with
  | nil => exact absurd rfl hne
  | cons d ds =>
    have hrest := splitOn_slash hne h
    rw [joinWith_slash] at hrest
    have hjoin : joinWith ['/'] ((c :: d :: ds).map (·.text.toList)) =
        c.text.toList ++ '/' :: joinWith ['/'] ((d :: ds).map (·.text.toList)) :=
      List.append_assoc _ _ _
    unfold parts
    rw [joinWith_slash, hjoin, splitOn_append_cons (by decide), hrest]

/-- The components of a path are found again when they are written with slashes between
them. -/
theorem components_intercalate_components (p : Path) :
    Path.components ⟨"/".intercalate (p.components.map Component.text)⟩ = p.components := by
  obtain ⟨cs, hinner, hcases⟩ := components_cases p
  rcases hcases with heq | heq | heq
  · rw [heq]
    exact components_intercalate hinner
  · rw [heq]
    by_cases hne : cs = []
    · rw [hne]
      decide
    · -- the root is written as two empty parts, as nothing stands in front of its slash
      have hparts := parts_intercalate_cons .root hne hinner
      change Path.parts _ = [] :: [] :: cs.map (·.text.toList) at hparts
      have habs : Path.isAbsolute ⟨"/".intercalate ((.root :: cs).map Component.text)⟩ = true := by
        refine (head?_parts _).mpr ⟨?_, ?_⟩
        · intro hempty
          unfold parts at hparts
          rw [hempty] at hparts
          cases hparts
        · rw [hparts]
          rfl
      rw [components_eq, habs, hparts, componentsOf, List.filterMap_cons,
        filterMap_componentOf hinner]
      rfl
  · rw [heq]
    by_cases hne : cs = []
    · rw [hne]
      decide
    · have hparts := parts_intercalate_cons .here hne hinner
      change Path.parts _ = ['.'] :: cs.map (·.text.toList) at hparts
      have habs : Path.isAbsolute ⟨"/".intercalate ((.here :: cs).map Component.text)⟩ = false := by
        rw [Bool.eq_false_iff]
        intro habs
        have hhead := ((head?_parts _).mp habs).2
        rw [hparts] at hhead
        cases hhead
      rw [components_eq, habs, hparts, componentsOf, filterMap_componentOf hinner]
      rfl

/-! ## Places -/

theorem foldl_placeBehind (parts : List (List Char)) (place : Place) :
    parts.foldl FileSystem.placeBehind place =
      (parts.filterMap componentOf).foldl Component.enter place := by
  induction parts generalizing place with
  | nil => rfl
  | cons part parts ih =>
    rw [List.foldl_cons, ih, List.filterMap_cons]
    unfold FileSystem.placeBehind componentOf
    by_cases hsame : part = [] ∨ part = ['.']
    · rw [if_pos hsame, if_pos hsame]
    · rw [if_neg hsame, if_neg hsame]
      by_cases hup : part = ['.', '.']
      · rw [if_pos hup, if_pos hup]
        rfl
      · rw [if_neg hup, if_neg hup]
        rfl

/-- A path leads where its steps do. -/
theorem place_eq_foldl_steps {fs : FileSystem} {p : Path} {place : Place}
    (h : fs.place? p = some place) : place = p.steps.foldl Component.enter fs.workPlace := by
  -- a way that is found goes by the same places, whether it asks for directories or not
  have hparts : ∀ (parts : List (List Char)) (start : Place),
      parts.foldlM fs.step start = some place →
        parts.foldl FileSystem.placeBehind start = place := by
    intro parts
    induction parts with
    | nil =>
      intro start hstart
      exact Option.some.inj hstart
    | cons part parts ih =>
      intro start hstart
      rw [List.foldlM_cons] at hstart
      obtain ⟨next, hnext, hrest⟩ := Option.bind_eq_some_iff.mp hstart
      unfold FileSystem.step at hnext
      split at hnext
      next =>
        obtain rfl := Option.some.inj hnext
        exact ih _ hrest
      next => cases hnext
  unfold FileSystem.place? at h
  split at h
  next => cases h
  next =>
    rw [← hparts _ _ h, foldl_placeBehind, steps_eq, List.foldl_append]
    unfold FileSystem.start
    cases p.isAbsolute with
    | true => rfl
    | false => rfl

/-- The empty path leads nowhere. -/
theorem text_ne_of_place {fs : FileSystem} {p : Path} {place : Place}
    (h : fs.place? p = some place) : p.text ≠ "" := by
  intro hempty
  unfold FileSystem.place? at h
  rw [if_pos hempty] at h
  cases h

theorem exists_names (p : Path) :
    ∃ names, (∀ c ∈ names, c.isName = true) ∧ p.steps = p.lead ++ names :=
  ⟨p.steps.rtakeWhile Component.isName, fun _ hc => List.mem_rtakeWhile_imp hc,
    List.rdropWhile_append_rtakeWhile.symm⟩

/-- Paths to one place differ before their names start, or not at all but for a `.`. -/
theorem steps_eq_of_place {fs : FileSystem} {p q : Path} {place : Place} (hlead : p.lead = q.lead)
    (hp : fs.place? p = some place) (hq : fs.place? q = some place) : p.steps = q.steps := by
  obtain ⟨names, hnames, hsteps⟩ := exists_names p
  obtain ⟨names', hnames', hsteps'⟩ := exists_names q
  have hplace := (place_eq_foldl_steps hp).symm.trans (place_eq_foldl_steps hq)
  rw [hsteps, hsteps', List.foldl_append, List.foldl_append, hlead,
    Component.foldl_enter_names hnames, Component.foldl_enter_names hnames',
    List.append_cancel_left_eq] at hplace
  rw [hsteps, hsteps', hlead, Component.names_eq_of_texts hnames hnames' hplace]

/-! ## Names behind a path -/

/-- Components that are behind others by names only. -/
def Down (cs ds : List Component) : Prop :=
  ∃ names, (∀ c ∈ names, c.isName = true) ∧ ds = cs ++ names

namespace Down

theorem refl (cs : List Component) : Down cs cs :=
  ⟨[], nofun, (List.append_nil cs).symm⟩

theorem trans {cs ds es : List Component} (h : Down cs ds) (h' : Down ds es) : Down cs es := by
  obtain ⟨names, hnames, rfl⟩ := h
  obtain ⟨names', hnames', rfl⟩ := h'
  refine ⟨names ++ names', ?_, List.append_assoc _ _ _⟩
  intro c hc
  rcases List.mem_append.mp hc with hc | hc
  · exact hnames c hc
  · exact hnames' c hc

theorem name (cs : List Component) (text : String) : Down cs (cs ++ [.name text]) := by
  refine ⟨[.name text], ?_, rfl⟩
  intro c hc
  rw [List.mem_singleton.mp hc]
  rfl

theorem length_le {cs ds : List Component} (h : Down cs ds) : cs.length ≤ ds.length := by
  obtain ⟨names, -, rfl⟩ := h
  rw [List.length_append]
  omega

/-- Names at the end are left out of a lead. -/
theorem rdropWhile_eq {cs ds : List Component} (h : Down cs ds) :
    ds.rdropWhile Component.isName = cs.rdropWhile Component.isName := by
  obtain ⟨names, hnames, rfl⟩ := h
  induction names using List.reverseRecOn with
  | nil => rw [List.append_nil]
  | append_singleton names c ih =>
    rw [← List.append_assoc, List.rdropWhile_concat_pos _ _ _ (hnames c (by simp))]
    exact ih fun d hd => hnames d (List.mem_append_left _ hd)

end Down

theorem lead_of_down {p q : Path} (h : Down p.components q.components) : q.lead = p.lead := by
  obtain ⟨names, hnames, heq⟩ := h
  have hkept : names.filter (· ≠ .here) = names := by
    refine List.filter_eq_self.mpr ?_
    intro c hc
    refine decide_eq_true ?_
    rintro rfl
    cases hnames _ hc
  have hsteps : Down p.steps q.steps := by
    refine ⟨names, hnames, ?_⟩
    unfold steps
    rw [heq, List.filter_append, hkept]
  exact hsteps.rdropWhile_eq

theorem startsHere_of_down {p q : Path} (hp : p.components ≠ [])
    (h : Down p.components q.components) : q.startsHere = p.startsHere := by
  obtain ⟨names, -, heq⟩ := h
  unfold startsHere
  rw [heq, List.head?_append_of_ne_nil _ hp]

end Path

/-! ## Trees whose names can stand in a path -/

/-- Whether a text can be the name of something in a directory. -/
def isEntryName (name : String) : Bool :=
  name ≠ "" && name ≠ "." && name ≠ ".." && !name.toList.contains '/'

mutual

/-- Whether everything in a tree has such a name. -/
def FileTree.isNamed : FileTree → Bool
  | .file _ => true
  | .directory es => FileTree.areNamed es

/-- Whether entries, and everything in them, have such names. -/
def FileTree.areNamed : List (String × FileTree) → Bool
  | [] => true
  | (name, t) :: es => isEntryName name && t.isNamed && FileTree.areNamed es

end

theorem inner_of_isEntryName {name : String} (h : isEntryName name = true) :
    Path.Inner (.name name) := by
  unfold isEntryName at h
  simp only [Bool.and_eq_true, decide_eq_true_eq, Bool.not_eq_true', List.contains_eq_mem,
    decide_eq_false_iff_not] at h
  obtain ⟨⟨⟨hempty, hdot⟩, hdots⟩, hslash⟩ := h
  have hne : ∀ s : String, name ≠ s → name.toList ≠ s.toList :=
    fun s hs heq => hs (String.toList_injective heq)
  refine ⟨?_, ?_⟩
  · rintro x hx rfl
    exact hslash hx
  · show Path.componentOf name.toList = _
    rw [Path.componentOf_of_ne (hne "" hempty) (hne "." hdot) (hne ".." hdots),
      String.ofList_toList]

theorem parts_of_free {text : String} (h : ∀ x ∈ text.toList, x ≠ '/') :
    Path.parts ⟨text⟩ = [text.toList] :=
  splitOn_of_free fun x hx => decide_eq_false (h x hx)

theorem isAbsolute_of_free {text : String} (h : ∀ x ∈ text.toList, x ≠ '/') :
    Path.isAbsolute ⟨text⟩ = false := by
  rw [Bool.eq_false_iff]
  intro habs
  exact h '/' (List.mem_of_head? (of_decide_eq_true habs)) rfl

/-- A name behind a path is one component more. -/
theorem components_join_name (p : Path) {name : String} (h : isEntryName name = true) :
    (p.join ⟨name⟩).components = p.components ++ [.name name] := by
  obtain ⟨hfree, hcomponent⟩ := inner_of_isEntryName h
  exact p.components_join_part (parts_of_free hfree) (isAbsolute_of_free hfree) hcomponent

/-- A name behind a path is its last step. -/
theorem steps_join_name (p : Path) {name : String} (h : isEntryName name = true) :
    (p.join ⟨name⟩).steps = p.steps ++ [.name name] := by
  unfold Path.steps
  rw [components_join_name p h, List.filter_append]
  rfl

/-- A name behind a path is its last part. -/
theorem getLast?_parts_join_name (p : Path) {name : String} (h : isEntryName name = true) :
    (p.join ⟨name⟩).parts.getLast? = some name.toList := by
  have hfree : ∀ x ∈ name.toList, x ≠ '/' := (inner_of_isEntryName h).1
  have hparts := parts_of_free hfree
  by_cases hp : p.text = ""
  · rw [Path.join_of_empty hp, hparts]
    rfl
  · obtain ⟨front, -, -, hjoin, -⟩ := Path.parts_join hp (isAbsolute_of_free hfree)
    rw [hjoin, hparts, List.getLast?_concat]

theorem isNamed_of_mem {es : List (String × FileTree)} (h : FileTree.areNamed es = true)
    {name : String} {t : FileTree} (hmem : (name, t) ∈ es) :
    isEntryName name = true ∧ t.isNamed = true := by
  induction es with
  | nil => cases hmem
  | cons e es ih =>
    obtain ⟨name', t'⟩ := e
    rw [FileTree.areNamed, Bool.and_eq_true, Bool.and_eq_true] at h
    rcases List.mem_cons.mp hmem with heq | hmem
    · cases heq
      exact h.1
    · exact ih h.2 hmem

/-- What is at a place of such a tree is such a tree. -/
theorem isNamed_at? {t u : FileTree} {place : Place} (h : t.isNamed = true)
    (hu : t.at? place = some u) : u.isNamed = true := by
  induction place generalizing t with
  | nil => exact Option.some.inj hu ▸ h
  | cons name place ih =>
    obtain ⟨child, hchild, hrest⟩ := Option.bind_eq_some_iff.mp hu
    cases t with
    | file text => cases hchild
    | directory es => exact ih (isNamed_of_mem h (Table.mem_of_lookup hchild)).2 hrest

theorem isNamed_find? {fs : FileSystem} {p : Path} {t : FileTree} (h : fs.root.isNamed = true)
    (ht : fs.find? p = some t) : t.isNamed = true := by
  obtain ⟨place, -, hat⟩ := Option.bind_eq_some_iff.mp ht
  exact isNamed_at? h hat

/-! ## Walking -/

mutual

/-- Everything below a directory is behind its path by names, and by one at least. -/
theorem down_of_mem_descendants {path q : Path} {u : FileTree} : ∀ {t : FileTree},
    t.isNamed = true → (q, u) ∈ t.descendants path →
      Path.Down path.components q.components ∧ path.components.length < q.components.length
  | .file _, _, hq => by
    rw [FileTree.descendants] at hq
    cases hq
  | .directory es, h, hq => by
    rw [FileTree.descendants] at hq
    exact down_of_mem_entriesBelow h hq

theorem down_of_mem_entriesBelow {path q : Path} {u : FileTree} :
    ∀ {es : List (String × FileTree)}, FileTree.areNamed es = true →
      (q, u) ∈ FileTree.entriesBelow path es →
        Path.Down path.components q.components ∧ path.components.length < q.components.length
  | [], _, hq => by
    rw [FileTree.entriesBelow] at hq
    cases hq
  | (name, t) :: es, h, hq => by
    rw [FileTree.areNamed, Bool.and_eq_true, Bool.and_eq_true] at h
    have hjoin := components_join_name path h.1.1
    have hdown : Path.Down path.components (path.join ⟨name⟩).components :=
      hjoin ▸ Path.Down.name _ _
    have hlength : path.components.length < (path.join ⟨name⟩).components.length := by
      rw [hjoin, List.length_append, List.length_singleton]
      omega
    rw [FileTree.entriesBelow, List.mem_cons, List.mem_append] at hq
    rcases hq with heq | hbelow | hrest
    · cases heq
      exact ⟨hdown, hlength⟩
    · obtain ⟨hmore, -⟩ := down_of_mem_descendants h.1.2 hbelow
      have hle := hmore.length_le
      exact ⟨hdown.trans hmore, by omega⟩
    · exact down_of_mem_entriesBelow h.2 hrest

end

/-- What is found by walking is behind the start by names. -/
theorem down_of_mem_walk? {fs : FileSystem} {root path : Path} {t : FileTree}
    {found : List (Path × FileTree)} (h : fs.root.isNamed = true)
    (hwalk : fs.walk? root = some found) (hpath : (path, t) ∈ found) :
    Path.Down root.components path.components := by
  obtain ⟨u, hu, rfl⟩ := Option.map_eq_some_iff.mp hwalk
  rcases List.mem_cons.mp hpath with heq | hbelow
  · cases heq
    exact .refl _
  · exact (down_of_mem_descendants (isNamed_find? h hu) hbelow).1

end ElementManifest

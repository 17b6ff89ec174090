import ElementManifest.Proofs.PathPlaces

/-!
# Where normal forms lead

The normal form of a path takes each step up together with the name in front of it. A step up
with no name in front of it is kept, but the next one takes it back as if it were a name. So a
normal form leads where the path does as long as that never comes to pass:

> `placeFrom_normalize_iff`: the normal form leads to the same place, from any directory that is
> deep enough, if and only if the path climbs at most one directory above its start.

From there on nothing brings the two together again, since both go up and down alike
(`length_le_of_ahead`). An absolute path never climbs above its root, so it has no such steps.

A module is the normal form of a specifier behind the directory of its file, and its file is
looked for at the places around the one that the module leads to (`places_fileCandidates`).
-/

namespace ElementManifest

open ElementManifest.Text ElementManifest.TypeScript

/-! ## Steps from a place -/

/-- How many directories above its start a way leads at the most. What is in front of a root does
not count. -/
def Component.climb : List Component → Nat
  | [] => 0
  | .root :: _ => 0
  | .here :: cs => climb cs
  | .up :: cs => climb cs + 1
  | .name _ :: cs => climb cs - 1

namespace Path

/-- How many directories above its start a path leads at the most. -/
def climb (p : Path) : Nat :=
  Component.climb p.components

/-- The place that a path leads to from another one, component by component. -/
def placeFrom (p : Path) (start : Place) : Place :=
  p.components.foldl Component.enter start

/-- If a file system follows a path, it comes to the place that the components lead to. -/
theorem place?_eq_placeFrom {fs : FileSystem} {p : Path} {place : Place}
    (h : fs.place? p = some place) : place = p.placeFrom fs.workPlace := by
  rw [place_eq_foldl_steps h, placeFrom, components_eq_steps, List.foldl_append]
  split
  · rfl
  · rfl

/-! ## Steps that are kept backwards -/

/-- The place that steps lead to which are kept backwards. -/
def placeBehind (start : Place) (taken : List Component) : Place :=
  taken.foldr (fun c place => Component.enter place c) start

/-- One more step leads on from the same place, but for a second step up at the start. -/
theorem placeBehind_normalStep (start : Place) {taken : List Component} {c : Component}
    (h : Normal taken) (hup : taken = [.up] → c ≠ .up) :
    placeBehind start (normalStep taken c) = Component.enter (placeBehind start taken) c := by
  cases c with
  | here => rfl
  | root => rfl
  | name text => rfl
  | up =>
    cases h with
    | nil => rfl
    | root => rfl
    | up => exact absurd rfl (hup rfl)
    | rootUp => rfl
    | name head tail => exact List.dropLast_concat.symm

theorem placeFrom_normalize (p : Path) (start : Place) :
    p.normalize.placeFrom start = placeBehind start (p.components.foldl normalStep []) := by
  rw [placeFrom, components_normalize, List.foldl_reverse]
  rfl

/-- Behind a root there is no start that could be left. -/
theorem placeBehind_foldl_of_root {start : Place} {taken cs : List Component} (h : Normal taken)
    (hroot : .root ∈ taken) (hcs : ∀ c ∈ cs, Inner c) :
    placeBehind start (cs.foldl normalStep taken) =
      cs.foldl Component.enter (placeBehind start taken) := by
  induction cs generalizing taken with
  | nil => rfl
  | cons c cs ih =>
    have hc := hcs c List.mem_cons_self
    have hnext : .root ∈ normalStep taken c := by
      cases c with
      | here => exact hroot
      | root => exact List.mem_cons_self
      | name text => exact List.mem_cons_of_mem _ hroot
      | up =>
        cases h with
        | nil => cases hroot
        | root => exact List.mem_cons_of_mem _ List.mem_cons_self
        | up => exact absurd hroot (by decide)
        | rootUp => exact List.mem_cons_self
        | name head tail => exact (List.mem_cons.mp hroot).resolve_left nofun
    have hup : taken = [.up] → c ≠ .up := by
      rintro rfl
      exact absurd hroot (by decide)
    rw [List.foldl_cons, List.foldl_cons, ← placeBehind_normalStep _ h hup]
    exact ih (normal_normalStep h (Or.inr (Or.inr hc))) hnext fun d hd =>
      hcs d (List.mem_cons_of_mem c hd)

/-! ## Relative paths -/

/-- What a relative path is made of. -/
def Relative (cs : List Component) : Prop :=
  ∀ c ∈ cs, c = .here ∨ Inner c

theorem Relative.ne_root {cs : List Component} {c : Component} (h : Relative (c :: cs)) :
    c ≠ .root := by
  rintro rfl
  exact absurd (h .root List.mem_cons_self) (by simp [Inner, Component.text, componentOf])

theorem Relative.tail {cs : List Component} {c : Component} (h : Relative (c :: cs)) :
    Relative cs :=
  fun d hd => h d (List.mem_cons_of_mem c hd)

theorem Relative.normal_normalStep {taken cs : List Component} {c : Component}
    (h : Relative (c :: cs)) (htaken : Normal taken) : Normal (normalStep taken c) :=
  Path.normal_normalStep htaken (Or.inr (h c List.mem_cons_self))

theorem root_not_mem_normalStep {taken : List Component} {c : Component} (h : Normal taken)
    (hroot : .root ∉ taken) (hc : c ≠ .root) : .root ∉ normalStep taken c := by
  cases c with
  | root => exact absurd rfl hc
  | here => exact hroot
  | name text => simpa [normalStep] using hroot
  | up =>
    cases h with
    | root => exact absurd List.mem_cons_self hroot
    | rootUp => exact absurd (by decide) hroot
    | up => exact nofun
    | nil => decide
    | name head tail => exact fun hmem => hroot (List.mem_cons_of_mem _ hmem)

/-- How many more steps up are kept as they are meant, behind steps that are kept backwards. -/
def room : List Component → Nat
  | [] => 1
  | .name _ :: taken => room taken + 1
  | _ => 0

theorem room_normalStep_up {taken : List Component} (h : Normal taken) (hroot : .root ∉ taken)
    (hup : taken ≠ [.up]) : room (normalStep taken .up) + 1 = room taken := by
  cases h with
  | root => exact absurd List.mem_cons_self hroot
  | rootUp => exact absurd (by decide) hroot
  | up => exact absurd rfl hup
  | nil => rfl
  | name head tail => rfl

/-- A way that climbs no further than there is room leads where it should. -/
theorem placeBehind_foldl_of_climb {start : Place} {taken cs : List Component} (h : Normal taken)
    (hroot : .root ∉ taken) (hcs : Relative cs) (hclimb : Component.climb cs ≤ room taken) :
    placeBehind start (cs.foldl normalStep taken) =
      cs.foldl Component.enter (placeBehind start taken) := by
  induction cs generalizing taken with
  | nil => rfl
  | cons c cs ih =>
    have hup : taken = [.up] → c ≠ .up := by
      rintro rfl rfl
      exact absurd hclimb (Nat.not_succ_le_zero _)
    rw [List.foldl_cons, List.foldl_cons, ← placeBehind_normalStep _ h hup]
    refine ih (hcs.normal_normalStep h) (root_not_mem_normalStep h hroot hcs.ne_root) hcs.tail ?_
    cases c with
    | root => exact absurd rfl hcs.ne_root
    | here => exact hclimb
    | name text =>
      change Component.climb cs - 1 ≤ room taken at hclimb
      change Component.climb cs ≤ room taken + 1
      omega
    | up =>
      rw [← room_normalStep_up h hroot fun heq => hup heq rfl] at hclimb
      exact Nat.le_of_succ_le_succ hclimb

/-- A place that is deep enough for a way is so for the rest of the way. -/
theorem climb_le_length_enter {place : Place} {cs : List Component} {c : Component}
    (hc : c ≠ .root) (h : Component.climb (c :: cs) ≤ place.length) :
    Component.climb cs ≤ (Component.enter place c).length := by
  cases c with
  | root => exact absurd rfl hc
  | here => exact h
  | name text =>
    change Component.climb cs - 1 ≤ place.length at h
    change _ ≤ (place ++ [text]).length
    rw [List.length_append, List.length_singleton]
    omega
  | up =>
    change Component.climb cs + 1 ≤ place.length at h
    change _ ≤ (place.dropLast).length
    rw [List.length_dropLast]
    omega

/-- Of two places of which one is two directories further down at least, it stays so if both are
entered in the same way. -/
theorem length_enter_le {place ahead : Place} {c : Component} (hc : c ≠ .root)
    (hdeep : c = .up → 0 < place.length) (h : place.length + 2 ≤ ahead.length) :
    (Component.enter place c).length + 2 ≤ (Component.enter ahead c).length := by
  cases c with
  | root => exact absurd rfl hc
  | here => exact h
  | name text =>
    change (place ++ [text]).length + 2 ≤ (ahead ++ [text]).length
    rw [List.length_append, List.length_append]
    omega
  | up =>
    have hdeep := hdeep rfl
    have hplace : (place.dropLast).length = place.length - 1 := List.length_dropLast
    have hahead : (ahead.dropLast).length = ahead.length - 1 := List.length_dropLast
    change (place.dropLast).length + 2 ≤ (ahead.dropLast).length
    omega

/-- Steps that are two directories too far down stay so at least. -/
theorem length_le_of_ahead {start place : Place} {taken cs : List Component} (h : Normal taken)
    (hroot : .root ∉ taken) (hcs : Relative cs) (hclimb : Component.climb cs ≤ place.length)
    (hahead : place.length + 2 ≤ (placeBehind start taken).length) :
    (cs.foldl Component.enter place).length + 2 ≤
      (placeBehind start (cs.foldl normalStep taken)).length := by
  induction cs generalizing place taken with
  | nil => exact hahead
  | cons c cs ih =>
    have hdeep : c = .up → 0 < place.length := by
      rintro rfl
      exact Nat.zero_lt_of_lt hclimb
    refine ih (hcs.normal_normalStep h) (root_not_mem_normalStep h hroot hcs.ne_root) hcs.tail
      (climb_le_length_enter hcs.ne_root hclimb) ?_
    by_cases hup : taken = [.up] ∧ c = .up
    · -- the step up is taken back, and the steps are further ahead than before
      obtain ⟨rfl, rfl⟩ := hup
      have hplace : (place.dropLast).length = place.length - 1 := List.length_dropLast
      change place.length + 2 ≤ (start.dropLast).length at hahead
      change (place.dropLast).length + 2 ≤ start.length
      rw [List.length_dropLast] at hahead
      omega
    · rw [placeBehind_normalStep _ h fun heq heq' => hup ⟨heq, heq'⟩]
      exact length_enter_le hcs.ne_root hdeep hahead

/-- A way that climbs further comes out too far down. -/
theorem length_le_of_room_lt {start : Place} {taken cs : List Component} (h : Normal taken)
    (hroot : .root ∉ taken) (hcs : Relative cs)
    (hclimb : Component.climb cs ≤ (placeBehind start taken).length)
    (hroom : room taken < Component.climb cs) :
    (cs.foldl Component.enter (placeBehind start taken)).length + 2 ≤
      (placeBehind start (cs.foldl normalStep taken)).length := by
  induction cs generalizing taken with
  | nil => exact absurd hroom (Nat.not_lt_zero _)
  | cons c cs ih =>
    have hdeep := climb_le_length_enter hcs.ne_root hclimb
    have hnext := hcs.normal_normalStep h
    have hroot' := root_not_mem_normalStep h hroot hcs.ne_root
    rw [List.foldl_cons, List.foldl_cons]
    by_cases hup : taken = [.up] ∧ c = .up
    · -- the second `..` takes back the first one, so the normal form misses two steps up
      obtain ⟨rfl, rfl⟩ := hup
      change Component.climb cs + 1 ≤ (start.dropLast).length at hclimb
      rw [List.length_dropLast] at hclimb
      refine length_le_of_ahead hnext hroot' hcs.tail hdeep ?_
      change ((start.dropLast).dropLast).length + 2 ≤ start.length
      rw [List.length_dropLast, List.length_dropLast]
      omega
    · have hstep := placeBehind_normalStep start h fun heq heq' => hup ⟨heq, heq'⟩
      rw [← hstep] at hdeep ⊢
      refine ih hnext hroot' hcs.tail hdeep ?_
      cases c with
      | root => exact absurd rfl hcs.ne_root
      | here => exact hroom
      | name text =>
        change room taken < Component.climb cs - 1 at hroom
        change room taken + 1 < Component.climb cs
        omega
      | up =>
        rw [← room_normalStep_up h hroot fun heq => hup ⟨heq, rfl⟩] at hroom
        exact Nat.lt_of_succ_lt_succ hroom

/-- From a directory that is deep enough a normal form leads where the path does, if and only if
the path climbs at most one directory above it. -/
theorem placeFrom_normalize_iff (p : Path) {start : Place} (hdeep : p.climb ≤ start.length) :
    p.normalize.placeFrom start = p.placeFrom start ↔ p.climb ≤ 1 := by
  rw [placeFrom_normalize]
  obtain ⟨cs, hinner, hcs⟩ := components_cases p
  have hrelative : Relative p.components →
      (placeBehind start (p.components.foldl normalStep []) = p.placeFrom start ↔ p.climb ≤ 1) := by
    intro hcs
    constructor
    · intro heq
      by_contra hclimb
      have hlength := length_le_of_room_lt .nil nofun hcs hdeep (Nat.lt_of_not_le hclimb)
      rw [heq] at hlength
      exact absurd hlength (by change ¬(p.placeFrom start).length + 2 ≤ _; omega)
    · exact placeBehind_foldl_of_climb .nil nofun hcs
  rcases hcs with heq | heq | heq
  · exact hrelative fun c hc => Or.inr (hinner c (heq ▸ hc))
  · have hroot : p.climb = 0 := by rw [climb, heq]; rfl
    refine iff_of_true ?_ (hroot ▸ Nat.zero_le 1)
    rw [placeFrom, heq, List.foldl_cons, List.foldl_cons]
    exact placeBehind_foldl_of_root .root List.mem_cons_self hinner
  · refine hrelative fun c hc => ?_
    rw [heq] at hc
    exact (List.mem_cons.mp hc).imp id (hinner c)

/-! ## Behind the last slash -/

/-- A text that a part of a path may start behind. -/
def EndsAtSlash (front : List Char) : Prop :=
  front = [] ∨ ∃ g, front = g ++ ['/']

/-- What stands in front of the last part decides the components in front of the last one. -/
theorem exists_components_behind {front : List Char} (h : EndsAtSlash front) :
    ∃ before, ∀ part c, (∀ x ∈ part, x ≠ '/') → componentOf part = some c →
      Path.components ⟨String.ofList (front ++ part)⟩ = before ++ [c] := by
  rcases h with rfl | ⟨g, rfl⟩
  · refine ⟨[], fun part c hfree hc => ?_⟩
    have hparts : Path.parts ⟨String.ofList ([] ++ part)⟩ = [part] := by
      unfold parts
      rw [String.toList_ofList, List.nil_append]
      exact splitOn_of_free fun x hx => decide_eq_false (hfree x hx)
    have hdot : part ≠ ['.'] := by
      rintro rfl
      cases hc
    have habs : Path.isAbsolute ⟨String.ofList ([] ++ part)⟩ = false := by
      rw [Bool.eq_false_iff]
      intro habs
      have hhead := ((head?_parts _).mp habs).2
      rw [hparts] at hhead
      rw [Option.some.inj hhead] at hc
      cases hc
    rw [components_eq, habs, hparts, componentsOf, if_neg Bool.false_ne_true, if_neg hdot, hc]
    rfl
  · -- the slash keeps the last part apart from what is in front of it
    refine ⟨componentsOf (decide ((g ++ ['/']).head? = some '/')) (splitOn (· = '/') g), ?_⟩
    intro part c hfree hc
    have hparts : Path.parts ⟨String.ofList (g ++ ['/'] ++ part)⟩ =
        splitOn (· = '/') g ++ [part] := by
      unfold parts
      rw [String.toList_ofList, List.append_assoc, List.cons_append, List.nil_append,
        splitOn_append_cons (by decide), splitOn_of_free fun x hx => decide_eq_false (hfree x hx)]
    have habs : Path.isAbsolute ⟨String.ofList (g ++ ['/'] ++ part)⟩ =
        decide ((g ++ ['/']).head? = some '/') := by
      unfold isAbsolute
      rw [String.toList_ofList]
      cases g with
      | nil => rfl
      | cons d g => rfl
    rw [components_eq, habs, hparts, componentsOf_append (splitOn_ne_nil _ _),
      List.filterMap_cons, hc]
    rfl

/-- An ending without a slash is one of the last part. -/
theorem suffix_append_iff {front last ending : List Char} (h : EndsAtSlash front)
    (hfree : ∀ x ∈ ending, x ≠ '/') : ending <:+ front ++ last ↔ ending <:+ last := by
  constructor
  · intro hsuffix
    rcases List.suffix_or_suffix_of_suffix hsuffix (List.suffix_append front last) with
      hending | ⟨more, rfl⟩
    · exact hending
    · obtain ⟨rest, hrest⟩ := hsuffix
      rw [← List.append_assoc, List.append_cancel_right_eq] at hrest
      rcases h with rfl | ⟨g, rfl⟩
      · rw [(List.append_eq_nil_iff.mp hrest).2]
        exact List.suffix_rfl
      · rcases List.eq_nil_or_concat more with rfl | ⟨init, x, rfl⟩
        · exact List.suffix_rfl
        · -- the slash in front of the last part would be in the ending
          rw [List.concat_eq_append, ← List.append_assoc] at hrest
          have hlast := congrArg List.getLast? hrest
          rw [List.getLast?_concat, List.getLast?_concat] at hlast
          exact absurd (Option.some.inj hlast) (hfree x (by simp))
  · exact fun hsuffix => hsuffix.trans (List.suffix_append front last)

/-- The text of a relative path ends with its last component. -/
theorem exists_front_of_intercalate (before : List Component) (c : Component) :
    ∃ front, ("/".intercalate ((before ++ [c]).map Component.text)).toList =
      front ++ c.text.toList ∧ EndsAtSlash front := by
  rw [joinWith_slash, List.map_append]
  cases before with
  | nil => exact ⟨[], rfl, Or.inl rfl⟩
  | cons d before =>
    refine ⟨_, ?_, Or.inr ⟨joinWith ['/'] ((d :: before).map (·.text.toList)), rfl⟩⟩
    rw [joinWith_append (by simp) (by simp), List.append_assoc]
    rfl

/-- A normal form that leads to a name ends with it. -/
theorem exists_front_of_normalize {p : Path} {before : List Component} {name : String}
    (h : p.normalize.components = before ++ [.name name]) :
    ∃ front, p.normalize.text.toList = front ++ name.toList ∧ EndsAtSlash front := by
  have hform : p.normalize = ofComponents (before ++ [.name name]) := by
    rw [← h, components_normalize]
    rfl
  rw [hform]
  cases before with
  | nil => exact exists_front_of_intercalate [] (.name name)
  | cons c before =>
    obtain ⟨front, hfront, hcut⟩ := exists_front_of_intercalate (c :: before) (.name name)
    cases c with
    | here => exact ⟨front, hfront, hcut⟩
    | up => exact ⟨front, hfront, hcut⟩
    | name text => exact ⟨front, hfront, hcut⟩
    | root =>
      obtain ⟨front, hfront, hcut⟩ := exists_front_of_intercalate before (.name name)
      refine ⟨'/' :: front, ?_, Or.inr ?_⟩
      · change ("/" ++ "/".intercalate
          ((before ++ [Component.name name]).map Component.text)).toList = _
        rw [String.toList_append, hfront]
        rfl
      · rcases hcut with rfl | ⟨g, rfl⟩
        · exact ⟨[], rfl⟩
        · exact ⟨'/' :: g, rfl⟩

theorem inner_of_mem_normalize {p : Path} {name : String}
    (h : .name name ∈ p.normalize.components) : Inner (.name name) :=
  ((inner_of_mem_components h).resolve_left nofun).resolve_left nofun

end Path

/-! ## The files of a module -/

namespace Program

/-- The places at which the file of a module may be, by the place that the module leads to. -/
def filePlaces (place : Place) : List Place :=
  let front := place.dropLast
  let name := place.getLast?.getD ""
  if name.endsWith ".js" then
    [front ++ [dropEnding ".js" name ++ ".d.ts"], front ++ [dropEnding ".js" name ++ ".ts"]]
  else if name.endsWith ".ts" then [place]
  else
    [front ++ [name ++ ".d.ts"], front ++ [name ++ ".ts"], place ++ ["index.d.ts"],
      place ++ ["index.ts"]]

variable {p : Path} {before : List Component} {name : String}

/-- The path of a name with an ending leads next to the name. -/
theorem placeFrom_ending {front stem : List Char} (start : Place)
    (hbehind : ∀ part c, (∀ x ∈ part, x ≠ '/') → Path.componentOf part = some c →
      Path.components ⟨String.ofList (front ++ part)⟩ = before ++ [c])
    {text : String} (htext : text.toList = front ++ stem) (hstem : ∀ x ∈ stem, x ≠ '/')
    {ending : String} (hlength : 3 ≤ ending.toList.length) (hfree : ∀ x ∈ ending.toList, x ≠ '/') :
    Path.placeFrom ⟨text ++ ending⟩ start =
      before.foldl Component.enter start ++ [String.ofList stem ++ ending] := by
  have hpart : ∀ x ∈ stem ++ ending.toList, x ≠ '/' := by
    intro x hx
    rcases List.mem_append.mp hx with hx | hx
    · exact hstem x hx
    · exact hfree x hx
  have hname : Path.componentOf (stem ++ ending.toList) =
      some (.name (String.ofList (stem ++ ending.toList))) := by
    refine Path.componentOf_of_length ?_
    rw [List.length_append]
    omega
  have hwhole : text ++ ending = String.ofList (front ++ (stem ++ ending.toList)) := by
    apply String.toList_injective
    rw [String.toList_append, String.toList_ofList, htext, List.append_assoc]
  have hending : String.ofList stem ++ ending = String.ofList (stem ++ ending.toList) := by
    apply String.toList_injective
    rw [String.toList_append, String.toList_ofList, String.toList_ofList]
  rw [hwhole, hending, Path.placeFrom, hbehind _ _ hpart hname, List.foldl_append]
  rfl

theorem placeFrom_join_name (m : Path) (start : Place) {file : String}
    (hparts : Path.parts ⟨file⟩ = [file.toList]) (habs : Path.isAbsolute ⟨file⟩ = false)
    (hname : Path.componentOf file.toList = some (.name file)) :
    (m.join ⟨file⟩).placeFrom start = m.placeFrom start ++ [file] := by
  rw [Path.placeFrom, Path.components_join_part m hparts habs hname, List.foldl_append]
  rfl

/-- The files of a module are looked for around the place that the module leads to. -/
theorem places_fileCandidates (h : p.normalize.components = before ++ [.name name])
    (start : Place) :
    (fileCandidates p.normalize).map (·.placeFrom start) =
      filePlaces (p.normalize.placeFrom start) := by
  obtain ⟨front, hfront, hcut⟩ := Path.exists_front_of_normalize h
  obtain ⟨hfree, hname⟩ : Path.Inner (.name name) :=
    Path.inner_of_mem_normalize (h ▸ List.mem_append_right _ (List.mem_singleton_self _))
  change ∀ x ∈ name.toList, x ≠ '/' at hfree
  change Path.componentOf name.toList = some (.name name) at hname
  obtain ⟨before', hbehind⟩ := Path.exists_components_behind hcut
  have hself : p.normalize = ⟨String.ofList (front ++ name.toList)⟩ := by
    rw [← hfront, String.ofList_toList]
  -- both are what comes in front of the same last name
  obtain rfl : before' = before := by
    have hboth := hbehind name.toList _ hfree hname
    rw [← hself, h] at hboth
    exact (List.append_inj_left' hboth rfl).symm
  have hplace : p.normalize.placeFrom start = before'.foldl Component.enter start ++ [name] := by
    rw [Path.placeFrom, h, List.foldl_append]
    rfl
  -- an ending without a slash does not reach beyond the last name
  have hends : ∀ ending : String, (∀ x ∈ ending.toList, x ≠ '/') →
      p.normalize.text.endsWith ending = name.endsWith ending := by
    intro ending hending
    rw [Bool.eq_iff_iff, Path.endsWith_iff, Path.endsWith_iff, hfront,
      Path.suffix_append_iff hcut hending]
  unfold fileCandidates filePlaces
  dsimp only
  rw [hplace, List.dropLast_concat, List.getLast?_concat, Option.getD_some,
    hends ".js" (by simp), hends ".ts" (by simp)]
  split
  next hjs =>
    have hstem : (dropEnding ".js" p.normalize.text).toList =
        front ++ (dropEnding ".js" name).toList := by
      have htext := Path.dropEnding_append ((hends ".js" (by simp)).trans hjs)
      have hlast := Path.dropEnding_append hjs
      have hboth : (dropEnding ".js" p.normalize.text).toList ++ ".js".toList =
          front ++ (dropEnding ".js" name).toList ++ ".js".toList := by
        rw [← String.toList_append, htext, List.append_assoc, ← String.toList_append, hlast,
          hfront]
      exact List.append_cancel_right hboth
    have hfree' : ∀ x ∈ (dropEnding ".js" name).toList, x ≠ '/' := by
      intro x hx
      refine hfree x ?_
      rw [← Path.dropEnding_append hjs, String.toList_append]
      exact List.mem_append_left _ hx
    rw [List.map_cons, List.map_singleton,
      placeFrom_ending start hbehind hstem hfree' (by decide) (by simp),
      placeFrom_ending start hbehind hstem hfree' (by decide) (by simp), String.ofList_toList]
  next =>
    split
    next => rw [List.map_singleton, hplace]
    next =>
      rw [List.map_cons, List.map_cons, List.map_cons, List.map_singleton,
        placeFrom_ending start hbehind hfront hfree (by decide) (by simp),
        placeFrom_ending start hbehind hfront hfree (by decide) (by simp),
        placeFrom_join_name _ start (by decide) (by decide) (by decide),
        placeFrom_join_name _ start (by decide) (by decide) (by decide), hplace,
        String.ofList_toList]

/-- A module that does not lead to a name may still be a directory with a file for its index. -/
theorem exists_index_candidate (h : p.normalize.fileName? = none) (start : Place) {file : String}
    (hfile : file = "index.d.ts" ∨ file = "index.ts") :
    ∃ q ∈ fileCandidates p.normalize,
      q.placeFrom start = p.normalize.placeFrom start ++ [file] := by
  have hends : p.normalize.text.endsWith ".js" = false ∧
      p.normalize.text.endsWith ".ts" = false := by
    have hlast : ∀ name, p.normalize.components.getLast? ≠ some (.name name) := by
      intro name hname
      rw [Path.fileName?, hname] at h
      cases h
    have hnormal := Path.normal_normalized p
    rw [Path.components_normalize, List.getLast?_reverse] at hlast
    unfold Path.normalize
    generalize p.components.foldl Path.normalStep [] = taken at hlast hnormal
    cases hnormal with
    | nil => decide +kernel
    | root => decide +kernel
    | up => decide +kernel
    | rootUp => decide +kernel
    | name head tail => exact absurd rfl (hlast _)
  unfold fileCandidates
  dsimp only
  rw [hends.1, hends.2, if_neg Bool.false_ne_true, if_neg Bool.false_ne_true]
  rcases hfile with rfl | rfl
  · exact ⟨_, by simp, placeFrom_join_name _ start (by decide) (by decide) (by decide)⟩
  · exact ⟨_, by simp, placeFrom_join_name _ start (by decide) (by decide) (by decide)⟩

end Program

/-! ## What a specifier means -/

/-- What a specifier in a file means: a path from the directory of the file. -/
def SourceFile.specified (f : SourceFile) (specifier : String) : Path :=
  f.path.parent.join ⟨specifier⟩

theorem moduleOf?_eq_some {f : SourceFile} {specifier : String} {m : Path}
    (h : moduleOf? f.path.parent (some specifier) = some m) :
    m = (f.specified specifier).normalize := by
  change (if specifier.startsWith "./" || specifier.startsWith "../" then
    some (f.specified specifier).normalize else none) = some m at h
  split at h
  next => exact (Option.some.inj h).symm
  next => cases h

/-- The normal form of a path leads where the path does, from every directory that is deep enough
for it, if and only if the path climbs at most one directory above that. So it is with the module
of a specifier and the path that the specifier means, from the working directory; and where the
two lead to the same place, the files of the module are looked for there. -/
theorem normalize_keeps_place (p : Path) (start : Place) :
    (p.climb ≤ start.length →
      (p.normalize.placeFrom start = p.placeFrom start ↔ p.climb ≤ 1)) ∧
    ∀ (fs : FileSystem) (f : SourceFile) (specifier : String) (m : Path),
      moduleOf? f.path.parent (some specifier) = some m →
      (f.specified specifier).climb ≤ fs.workPlace.length →
        (m.placeFrom fs.workPlace = (f.specified specifier).placeFrom fs.workPlace ↔
          (f.specified specifier).climb ≤ 1) ∧
        ((f.specified specifier).climb ≤ 1 →
          (∀ q ∈ Program.fileCandidates m, ∀ place, fs.place? q = some place →
            place = q.placeFrom fs.workPlace) ∧
          (m.fileName?.isSome →
            (Program.fileCandidates m).map (·.placeFrom fs.workPlace) =
              Program.filePlaces ((f.specified specifier).placeFrom fs.workPlace)) ∧
          (m.fileName? = none → ∀ file, file = "index.d.ts" ∨ file = "index.ts" →
            ∃ q ∈ Program.fileCandidates m, q.placeFrom fs.workPlace =
              (f.specified specifier).placeFrom fs.workPlace ++ [file])) := by
  refine ⟨Path.placeFrom_normalize_iff p, ?_⟩
  intro fs f specifier m hm hdeep
  obtain rfl := moduleOf?_eq_some hm
  have hplace := Path.placeFrom_normalize_iff _ hdeep
  refine ⟨hplace, fun hclimb => ⟨fun q _ place => Path.place?_eq_placeFrom, ?_, ?_⟩⟩
  · intro hname
    obtain ⟨name, hname⟩ := Option.isSome_iff_exists.mp hname
    unfold Path.fileName? at hname
    split at hname
    next text hlast =>
      obtain ⟨before, hbefore⟩ := List.getLast?_eq_some_iff.mp hlast
      rw [← hplace.mpr hclimb]
      exact Program.places_fileCandidates hbefore fs.workPlace
    next => cases hname
  · intro hnone file hfile
    rw [← hplace.mpr hclimb]
    exact Program.exists_index_candidate hnone fs.workPlace hfile

/-- Up and down again, and one directory above the start. -/
theorem normalize_keeps_place_one_up :
    (Path.mk "a/../../b/./c").climb ≤ ["home", "work"].length ∧
      (Path.mk "a/../../b/./c").normalize.placeFrom ["home", "work"] = ["home", "b", "c"] := by
  have hdeep : (Path.mk "a/../../b/./c").climb ≤ ["home", "work"].length := by decide
  refine ⟨hdeep, ?_⟩
  exact ((normalize_keeps_place ⟨"a/../../b/./c"⟩ ["home", "work"]).1 hdeep).mpr (by decide)

/-- Two directories above the start, the normal form leads back to the start: the second step up
takes back the first. -/
theorem normalize_two_up_elsewhere :
    (Path.mk "../../b").climb ≤ ["home", "me", "work"].length ∧
      (Path.mk "../../b").placeFrom ["home", "me", "work"] = ["home", "b"] ∧
      (Path.mk "../../b").normalize.placeFrom ["home", "me", "work"] =
        ["home", "me", "work", "b"] := by
  decide +kernel

end ElementManifest

import ElementManifest.Shape
import Mathlib.Data.List.Induction

/-!
# Lists of shapes, each name once

`addShapes` is how every extraction collects what it finds: a shape goes behind
the others unless its name is there already. Four facts about it carry the rest:

> `mem_names_addShapes`: no name is lost and none is made up.

> `addShapes_addShapes_nil`: to collect first and add then is to add at once.

> `called_addShapes`: the first shape of a name is the one that is kept.

> `outline_addShapes`: which shapes are kept is decided by their names, so two
> lists that differ in the texts of types only stay alike.
-/

namespace ElementManifest

/-- The names of shapes, in order. -/
def names (shapes : List Shape) : List String :=
  shapes.map Shape.name

/-- A shape without the text of its type. -/
def Shape.outline (s : Shape) : String × Bool × Option String :=
  (s.name, s.optional, s.doc)

theorem names_append (shapes more : List Shape) :
    names (shapes ++ more) = names shapes ++ names more :=
  List.map_append

theorem any_name_eq_true_iff (shapes : List Shape) (name : String) :
    shapes.any (·.name == name) = true ↔ name ∈ names shapes := by
  rw [List.any_eq_true, names, List.mem_map]
  constructor
  · rintro ⟨s, hs, hname⟩
    exact ⟨s, hs, eq_of_beq hname⟩
  · rintro ⟨s, hs, rfl⟩
    exact ⟨s, hs, beq_self_eq_true _⟩

/-! ## One shape more -/

theorem addShape_of_mem {shapes : List Shape} {s : Shape} (h : s.name ∈ names shapes) :
    addShape shapes s = shapes := by
  unfold addShape
  rw [if_pos ((any_name_eq_true_iff shapes s.name).mpr h)]

theorem addShape_of_not_mem {shapes : List Shape} {s : Shape} (h : s.name ∉ names shapes) :
    addShape shapes s = shapes ++ [s] := by
  unfold addShape
  rw [if_neg (fun hany => h ((any_name_eq_true_iff shapes s.name).mp hany))]

theorem mem_names_addShape (shapes : List Shape) (s : Shape) (name : String) :
    name ∈ names (addShape shapes s) ↔ name ∈ names shapes ∨ name = s.name := by
  by_cases h : s.name ∈ names shapes
  · rw [addShape_of_mem h]
    constructor
    · intro hn
      exact Or.inl hn
    · rintro (hn | rfl)
      · exact hn
      · exact h
  · rw [addShape_of_not_mem h, names_append, List.mem_append]
    simp [names]

theorem nodup_names_addShape {shapes : List Shape} (s : Shape) (h : (names shapes).Nodup) :
    (names (addShape shapes s)).Nodup := by
  by_cases hs : s.name ∈ names shapes
  · rw [addShape_of_mem hs]
    exact h
  · rw [addShape_of_not_mem hs, names_append, List.nodup_append]
    refine ⟨h, by simp [names], ?_⟩
    intro a ha b hb hab
    have hbs : b = s.name := by simpa [names] using hb
    exact hs (hbs ▸ hab ▸ ha)

/-! ## Any number of shapes more -/

theorem addShapes_append (shapes more others : List Shape) :
    addShapes shapes (more ++ others) = addShapes (addShapes shapes more) others := by
  unfold addShapes
  rw [List.foldl_append]

theorem addShapes_concat (shapes more : List Shape) (s : Shape) :
    addShapes shapes (more ++ [s]) = addShape (addShapes shapes more) s :=
  addShapes_append shapes more [s]

theorem mem_names_addShapes (shapes more : List Shape) (name : String) :
    name ∈ names (addShapes shapes more) ↔ name ∈ names shapes ∨ name ∈ names more := by
  induction more generalizing shapes with
  | nil => simp [addShapes, names]
  | cons s more ih =>
    show name ∈ names (addShapes (addShape shapes s) more) ↔ _
    rw [ih, mem_names_addShape, or_assoc]
    simp [names]

theorem nodup_names_addShapes {shapes : List Shape} (more : List Shape)
    (h : (names shapes).Nodup) : (names (addShapes shapes more)).Nodup := by
  induction more generalizing shapes with
  | nil => exact h
  | cons s more ih => exact ih (nodup_names_addShape s h)

/-- To collect shapes first and to add them then is to add them at once. -/
theorem addShapes_addShapes_nil (shapes more : List Shape) :
    addShapes shapes (addShapes [] more) = addShapes shapes more := by
  -- From the right: `addShapes` keeps or drops the last shape by the names before it.
  induction more using List.reverseRecOn with
  | nil => rfl
  | append_singleton more s ih =>
    rw [addShapes_concat, addShapes_concat]
    by_cases h : s.name ∈ names (addShapes [] more)
    · have hmore : s.name ∈ names more := by
        rcases (mem_names_addShapes [] more s.name).mp h with hnil | hm
        · exact absurd hnil (by simp [names])
        · exact hm
      rw [addShape_of_mem h, ih,
        addShape_of_mem ((mem_names_addShapes shapes more s.name).mpr (Or.inr hmore))]
    · rw [addShape_of_not_mem h, addShapes_concat, ih]

/-- Shapes whose names are different and new are all kept. -/
theorem addShapes_of_nodup {shapes more : List Shape}
    (h : (names (shapes ++ more)).Nodup) : addShapes shapes more = shapes ++ more := by
  induction more generalizing shapes with
  | nil => exact (List.append_nil shapes).symm
  | cons s more ih =>
    have hs : s.name ∉ names shapes := by
      intro hmem
      rw [names_append, List.nodup_append] at h
      exact h.2.2 _ hmem _ (by simp [names]) rfl
    have hassoc : shapes ++ s :: more = shapes ++ [s] ++ more := by simp
    show addShapes (addShape shapes s) more = _
    rw [addShape_of_not_mem hs, hassoc]
    exact ih (hassoc ▸ h)

theorem addShapes_nil_of_nodup {shapes : List Shape} (h : (names shapes).Nodup) :
    addShapes [] shapes = shapes :=
  addShapes_of_nodup h

/-! ## Outlines -/

theorem names_eq_of_outline {shapes shapes' : List Shape}
    (h : shapes.map Shape.outline = shapes'.map Shape.outline) : names shapes = names shapes' := by
  have hfst := congrArg (List.map Prod.fst) h
  rw [List.map_map, List.map_map] at hfst
  exact hfst

theorem outline_addShape {shapes shapes' : List Shape} {s s' : Shape}
    (h : shapes.map Shape.outline = shapes'.map Shape.outline) (hs : s.outline = s'.outline) :
    (addShape shapes s).map Shape.outline = (addShape shapes' s').map Shape.outline := by
  have hname : s.name = s'.name := congrArg Prod.fst hs
  have hnames := names_eq_of_outline h
  by_cases hmem : s.name ∈ names shapes
  · rw [addShape_of_mem hmem, addShape_of_mem (hname ▸ hnames ▸ hmem)]
    exact h
  · rw [addShape_of_not_mem hmem, addShape_of_not_mem (hname ▸ hnames ▸ hmem),
      List.map_append, List.map_append, h]
    simp [hs]

/-- Which shapes are kept is decided by their names alone. -/
theorem outline_addShapes {shapes shapes' more more' : List Shape}
    (h : shapes.map Shape.outline = shapes'.map Shape.outline)
    (hmore : more.map Shape.outline = more'.map Shape.outline) :
    (addShapes shapes more).map Shape.outline = (addShapes shapes' more').map Shape.outline := by
  induction more generalizing shapes shapes' more' with
  | nil =>
    have hnil : more' = [] := List.map_eq_nil_iff.mp hmore.symm
    rw [hnil]
    exact h
  | cons s more ih =>
    cases more' with
    | nil => exact absurd hmore (by simp)
    | cons s' more' =>
      rw [List.map_cons, List.map_cons, List.cons.injEq] at hmore
      show (addShapes (addShape shapes s) more).map Shape.outline
        = (addShapes (addShape shapes' s') more').map Shape.outline
      exact ih (outline_addShape h hmore.1) hmore.2

/-! ## The first shape of each name -/

/-- The first shape of a name. -/
def called (name : String) (shapes : List Shape) : Option Shape :=
  shapes.find? (·.name == name)

theorem called_append (name : String) (shapes more : List Shape) :
    called name (shapes ++ more) = (called name shapes).or (called name more) :=
  List.find?_append

theorem isSome_called {name : String} {shapes : List Shape} (h : name ∈ names shapes) :
    (called name shapes).isSome = true := by
  obtain ⟨s, hs, hname⟩ := List.mem_map.mp h
  exact List.find?_isSome.mpr ⟨s, hs, beq_iff_eq.mpr hname⟩

/-- Only the first shape of a name is kept. -/
theorem called_addShapes (name : String) (shapes more : List Shape) :
    called name (addShapes shapes more) = (called name shapes).or (called name more) := by
  induction more using List.reverseRecOn with
  | nil => exact Option.or_none.symm
  | append_singleton more s ih =>
    rw [addShapes_concat, called_append, ← Option.or_assoc, ← ih]
    by_cases hmem : s.name ∈ names (addShapes shapes more)
    · rw [addShape_of_mem hmem]
      by_cases hname : s.name = name
      · rw [Option.or_of_isSome (isSome_called (hname ▸ hmem))]
      · have hnone : called name [s] = none :=
          List.find?_cons_of_neg (fun h => hname (beq_iff_eq.mp h))
        rw [hnone, Option.or_none]
    · rw [addShape_of_not_mem hmem]
      exact called_append name _ [s]

theorem filter_name_of_called {name : String} {shapes : List Shape} {s : Shape}
    (hnodup : (names shapes).Nodup) (h : called name shapes = some s) :
    shapes.filter (·.name == name) = [s] := by
  induction shapes with
  | nil => cases h
  | cons t shapes ih =>
    obtain ⟨hfresh, hnodup⟩ := List.nodup_cons.mp hnodup
    unfold called at h
    rw [List.find?_cons] at h
    rw [List.filter_cons]
    cases hbeq : t.name == name with
    | true =>
      rw [hbeq] at h
      obtain rfl : t = s := Option.some.inj h
      rw [if_pos rfl, List.filter_eq_nil_iff.mpr]
      intro u hu hbeq'
      have hsame : u.name = t.name := (beq_iff_eq.mp hbeq').trans (beq_iff_eq.mp hbeq).symm
      exact hfresh (List.mem_map.mpr ⟨u, hu, hsame⟩)
    | false =>
      rw [hbeq] at h
      exact ih hnodup h

end ElementManifest

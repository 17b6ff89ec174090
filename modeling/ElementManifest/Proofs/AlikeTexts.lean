import ElementManifest.Proofs.Answers
import ElementManifest.Text.Search
import Mathlib.Data.List.Forall2
import Mathlib.Data.Option.Basic

/-!
# Texts that are the same but for some slices

Two texts are compared up to slices of the source that may be written out in the one and
as they stand in the other: the texts are the same, unless such a slice is printed in the
first. All that makes texts out of texts keeps them alike, since it prints what it is made
of:

> `TextsAlike`: the same text, or one of the slices is in the first.

> `ShapesAlike`, `AnswersAlike`: the same properties and the same answer of a look, with the
> texts in them alike. The docs of properties are left out.
-/

namespace ElementManifest.Expansion

open ElementManifest.Text

section

variable (slices : List String)

/-- One of the slices is printed in a text. -/
def Shows (text : String) : Prop :=
  ∃ slice ∈ slices, slice.toList <:+: text.toList

/-- Two texts are the same, unless one of the slices is printed in the first. -/
def TextsAlike (text text' : String) : Prop :=
  text = text' ∨ Shows slices text

/-- Two shapes are the same up to their docs, with texts that are alike. -/
structure ShapeAlike (s s' : Shape) : Prop where
  name : s.name = s'.name
  optional : s.optional = s'.optional
  type : TextsAlike slices s.type s'.type

/-- Two lists of shapes are alike, one by one. -/
def ShapesAlike : List Shape → List Shape → Prop :=
  List.Forall₂ (ShapeAlike slices)

/-- Two answers are the same, with texts that are alike. -/
inductive AnswersAlike : Answer → Answer → Prop
  | properties {shapes shapes' : List Shape} (h : ShapesAlike slices shapes shapes') :
    AnswersAlike (.properties shapes) (.properties shapes')
  | keys (ks : List String) : AnswersAlike (.keys ks) (.keys ks)
  | text {text text' : Option String} (h : Option.Rel (TextsAlike slices) text text') :
    AnswersAlike (.text text) (.text text')

variable {slices}

instance (text : String) : Decidable (Shows slices text) :=
  decidable_of_iff (slices.any fun slice => hasInfix slice.toList text.toList) <| by
    simp only [List.any_eq_true, hasInfix_iff, Shows]

/-! ## Texts made of texts -/

theorem Shows.of_infix {text whole : String} (h : Shows slices text)
    (hsub : text.toList <:+: whole.toList) : Shows slices whole := by
  obtain ⟨slice, hslice, hshown⟩ := h
  exact ⟨slice, hslice, hshown.trans hsub⟩

theorem Shows.append_left {x : String} (h : Shows slices x) (y : String) :
    Shows slices (x ++ y) := by
  refine h.of_infix ?_
  rw [String.toList_append]
  exact (List.prefix_append _ _).isInfix

theorem Shows.append_right {y : String} (h : Shows slices y) (x : String) :
    Shows slices (x ++ y) := by
  refine h.of_infix ?_
  rw [String.toList_append]
  exact (List.suffix_append _ _).isInfix

theorem Shows.intercalate {sep : String} {xs : List String} {x : String} (h : Shows slices x)
    (hmem : x ∈ xs) : Shows slices (sep.intercalate xs) := by
  refine h.of_infix ?_
  rw [String.toList_intercalate]
  have hmem' : x.toList ∈ xs.map String.toList := List.mem_map_of_mem hmem
  generalize xs.map String.toList = parts at hmem' ⊢
  induction parts with
  | nil => cases hmem'
  | cons part parts ih =>
    cases parts with
    | nil =>
      have hpart : List.intercalate sep.toList [part] = x.toList := by
        rw [List.intercalate_singleton, List.mem_singleton.mp hmem']
      exact ⟨[], [], by rw [hpart, List.nil_append, List.append_nil]⟩
    | cons next parts =>
      rw [List.intercalate_cons_cons]
      rcases List.mem_cons.mp hmem' with heq | hmem'
      · rw [heq, List.append_assoc]
        exact (List.prefix_append _ _).isInfix
      · exact (ih hmem').trans (List.suffix_append _ _).isInfix

theorem Shows.wrapIf {x : String} (h : Shows slices x) (tokens : List TopToken) :
    Shows slices (wrapIf tokens x) := by
  unfold Text.wrapIf
  split
  next => exact (h.append_right "(").append_left ")"
  next => exact h

namespace TextsAlike

theorem refl (text : String) : TextsAlike slices text text :=
  Or.inl rfl

theorem append {x x' y y' : String} (hx : TextsAlike slices x x') (hy : TextsAlike slices y y') :
    TextsAlike slices (x ++ y) (x' ++ y') := by
  rcases hx with rfl | hx
  · rcases hy with rfl | hy
    · exact .refl _
    · exact Or.inr (hy.append_right x)
  · exact Or.inr (hx.append_left y)

theorem wrapIf {x x' : String} (h : TextsAlike slices x x') (tokens : List TopToken) :
    TextsAlike slices (wrapIf tokens x) (Text.wrapIf tokens x') := by
  rcases h with rfl | h
  · exact .refl _
  · exact Or.inr (h.wrapIf tokens)

theorem map_wrapIf {xs xs' : List String} (h : List.Forall₂ (TextsAlike slices) xs xs')
    (tokens : List TopToken) : List.Forall₂ (TextsAlike slices) (xs.map (Text.wrapIf tokens))
      (xs'.map (Text.wrapIf tokens)) := by
  induction h with
  | nil => exact .nil
  | cons hx _ ih => exact .cons (hx.wrapIf tokens) ih

/-- Texts that are alike one by one are the same, or one of them shows a slice. -/
theorem eq_or_shows {xs xs' : List String} (h : List.Forall₂ (TextsAlike slices) xs xs') :
    xs = xs' ∨ ∃ x ∈ xs, Shows slices x := by
  induction h with
  | nil => exact Or.inl rfl
  | cons hx _ ih =>
    rcases hx with rfl | hx
    · rcases ih with rfl | ⟨x, hmem, hx⟩
      · exact Or.inl rfl
      · exact Or.inr ⟨x, List.mem_cons_of_mem _ hmem, hx⟩
    · exact Or.inr ⟨_, List.mem_cons_self, hx⟩

theorem intercalate {xs xs' : List String} (h : List.Forall₂ (TextsAlike slices) xs xs')
    (sep : String) : TextsAlike slices (sep.intercalate xs) (sep.intercalate xs') := by
  rcases eq_or_shows h with rfl | ⟨x, hmem, hx⟩
  · exact .refl _
  · exact Or.inr (hx.intercalate hmem)

theorem appliedText {args args' : List String} (h : List.Forall₂ (TextsAlike slices) args args')
    (name : String) :
    TextsAlike slices (appliedText name args) (Expansion.appliedText name args') := by
  cases h with
  | nil => exact .refl _
  | cons harg hargs =>
    exact ((refl (name ++ "<")).append (intercalate (.cons harg hargs) ", ")).append (refl ">")

end TextsAlike

/-! ## Shapes -/

theorem rel_mapM {α β : Type} {R : β → β → Prop} {f f' : α → Option β}
    (h : ∀ a, Option.Rel R (f a) (f' a)) (as : List α) :
    Option.Rel (List.Forall₂ R) (as.mapM f) (as.mapM f') := by
  induction as with
  | nil => exact .some .nil
  | cons a as ih =>
    rw [List.mapM_cons, List.mapM_cons]
    have hb := h a
    generalize f a = b, f' a = b' at hb ⊢
    cases hb with
    | none => exact .none
    | some hb =>
      generalize as.mapM f = bs, as.mapM f' = bs' at ih ⊢
      cases ih with
      | none => exact .none
      | some hbs => exact .some (.cons hb hbs)

namespace ShapesAlike

variable {shapes shapes' more more' : List Shape}

theorem nil : ShapesAlike slices [] [] :=
  List.Forall₂.nil

theorem append (h : ShapesAlike slices shapes shapes') (hmore : ShapesAlike slices more more') :
    ShapesAlike slices (shapes ++ more) (shapes' ++ more') :=
  List.rel_append h hmore

theorem any_name (h : ShapesAlike slices shapes shapes') (name : String) :
    shapes.any (·.name == name) = shapes'.any (·.name == name) := by
  induction h with
  | nil => rfl
  | cons hs _ ih => rw [List.any_cons, List.any_cons, hs.name, ih]

theorem addShape (h : ShapesAlike slices shapes shapes') {s s' : Shape}
    (hs : ShapeAlike slices s s') :
    ShapesAlike slices (addShape shapes s) (addShape shapes' s') := by
  unfold ElementManifest.addShape
  rw [h.any_name, hs.name]
  split
  next => exact h
  next => exact h.append (.cons hs .nil)

theorem addShapes (h : ShapesAlike slices shapes shapes') (hmore : ShapesAlike slices more more') :
    ShapesAlike slices (addShapes shapes more) (addShapes shapes' more') :=
  List.rel_foldl (fun _ _ h _ _ hs => h.addShape hs) h hmore

theorem filter_name (h : ShapesAlike slices shapes shapes') (keep : String → Bool) :
    ShapesAlike slices (shapes.filter fun s => keep s.name) (shapes'.filter fun s => keep s.name) :=
  List.rel_filter (fun s s' hs => by show keep s.name = true ↔ keep s'.name = true; rw [hs.name]) h

theorem withOptional (h : ShapesAlike slices shapes shapes') (optional : Bool) :
    ShapesAlike slices (shapes.map ({ · with optional })) (shapes'.map ({ · with optional })) :=
  List.rel_map (fun _ _ hs => ⟨hs.name, rfl, hs.type⟩) h

theorem apply (h : ShapesAlike slices shapes shapes') (u : Utility)
    (keys : Option (List String)) :
    ShapesAlike slices (u.apply shapes keys) (u.apply shapes' keys) := by
  cases u with
  | partialOf => exact h.withOptional true
  | requiredOf => exact h.withOptional false
  | readonlyOf => exact h
  | pick =>
    cases keys with
    | none => exact nil
    | some keys => exact h.filter_name keys.contains
  | leaveOut =>
    cases keys with
    | none => exact nil
    | some keys => exact h.filter_name fun name => !keys.contains name

theorem find? (h : ShapesAlike slices shapes shapes') (key : String) :
    Option.Rel (TextsAlike slices) ((shapes.find? (·.name == key)).map (·.type))
      ((shapes'.find? (·.name == key)).map (·.type)) := by
  induction h with
  | nil => exact .none
  | cons hs _ ih =>
    rw [List.find?_cons, List.find?_cons, hs.name]
    split
    next => exact .some hs.type
    next => exact ih

theorem accessText (h : ShapesAlike slices shapes shapes') (keys : List String) :
    Option.Rel (TextsAlike slices) (accessText keys shapes) (accessText keys shapes') := by
  unfold Expansion.accessText
  have htypes := rel_mapM h.find? keys
  generalize keys.mapM (fun key => (shapes.find? (·.name == key)).map (·.type)) = types,
    keys.mapM (fun key => (shapes'.find? (·.name == key)).map (·.type)) = types' at htypes ⊢
  cases htypes with
  | none => exact .none
  | some htypes =>
    refine .some ?_
    rcases TextsAlike.eq_or_shows (TextsAlike.map_wrapIf htypes [.arrow]) with heq | ⟨x, hmem, hx⟩
    · exact heq ▸ .refl _
    · exact Or.inr (hx.intercalate (List.mem_eraseDups.mpr hmem))

theorem objectText (h : ShapesAlike slices shapes shapes') {others others' : List String}
    (hothers : List.Forall₂ (TextsAlike slices) others others') :
    TextsAlike slices (objectText shapes others) (objectText shapes' others') := by
  have hproperties : List.Forall₂ (TextsAlike slices) (shapes.map propertyText)
      (shapes'.map propertyText) := by
    refine List.rel_map (fun s s' hs => ?_) h
    unfold propertyText
    rw [hs.name, hs.optional]
    exact ((TextsAlike.refl _).append hs.type).append (.refl ";")
  have hmembers : List.Forall₂ (TextsAlike slices) (others.map (· ++ ";"))
      (others'.map (· ++ ";")) :=
    List.rel_map (fun _ _ htext => htext.append (.refl ";")) hothers
  have hempty : (shapes.isEmpty && others.isEmpty) = (shapes'.isEmpty && others'.isEmpty) := by
    cases h <;> cases hothers <;> rfl
  unfold Expansion.objectText
  rw [hempty]
  split
  next => exact .refl _
  next =>
    have hparts := TextsAlike.intercalate (List.rel_append hproperties hmembers) " "
    exact ((TextsAlike.refl _).append hparts).append (.refl _)

end ShapesAlike

/-! ## Answers -/

theorem AnswersAlike.of_properties {shapes shapes' : List Shape}
    (h : AnswersAlike slices (.properties shapes) (.properties shapes')) :
    ShapesAlike slices shapes shapes' := by
  cases h with
  | properties h => exact h

theorem AnswersAlike.of_keys {ks ks' : List String}
    (h : AnswersAlike slices (.keys ks) (.keys ks')) : ks = ks' := by
  cases h with
  | keys => rfl

theorem AnswersAlike.of_text {text text' : Option String}
    (h : AnswersAlike slices (.text text) (.text text')) :
    Option.Rel (TextsAlike slices) text text' := by
  cases h with
  | text h => exact h

theorem AnswersAlike.refl (answer : Answer) : AnswersAlike slices answer answer := by
  cases answer with
  | properties shapes => exact .properties (List.forall₂_same.mpr fun _ _ => ⟨rfl, rfl, .refl _⟩)
  | keys ks => exact .keys ks
  | text text =>
    cases text with
    | none => exact .text .none
    | some text => exact .text (.some (.refl text))

end

/-- What a shape tells of a property, other than its doc. -/
def Shape.signature (s : Shape) : String × String × Bool :=
  (s.name, s.type, s.optional)

theorem ShapesAlike.signature {slices : List String} {shapes shapes' : List Shape}
    (h : ShapesAlike slices shapes shapes') (hshown : ∀ s ∈ shapes, ¬ Shows slices s.type) :
    shapes.map Shape.signature = shapes'.map Shape.signature := by
  induction h with
  | nil => rfl
  | cons hs _ ih =>
    rw [List.forall_mem_cons] at hshown
    have htype := hs.type.resolve_right hshown.1
    rw [List.map_cons, List.map_cons, ih hshown.2]
    unfold Shape.signature
    rw [hs.name, htype, hs.optional]

end ElementManifest.Expansion

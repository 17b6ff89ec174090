import ElementManifest.Proofs.AlikeTexts
import ElementManifest.Proofs.Openings
import ElementManifest.Proofs.Searches

/-!
# Types with their parameters written out

One type is another one with its parameters written out if both are built alike, and
where the other one has a parameter this one has what may stand for it. The two may
stand in different places, and even in different files: a name has to mean the same symbol,
and what is kept as a stretch of text has to be the same text. Some slices may be written out
as well, as long as they are not printed.

What a type answers is made from what its names answer. So it is enough to compare two sites
at the names:

> `Site.ReadsAs`: a parameter answers at the one site what stands for it answers at the other.

> `answerOf_writtenOut`: then the type answers what it does with its parameters written out.
-/

namespace ElementManifest

open ElementManifest.TypeScript

/-- What tells a symbol apart from others. -/
def Symbol.key (s : Symbol) : Nat × String :=
  (s.file, s.name)

/-! ## Symbols and their keys -/

namespace Program

/-- Two names that mean symbols with one key mean the same symbol. -/
theorem lookup_eq_of_key {p : Program} {f g : Nat} {n : String}
    (h : (p.lookup f n).map Symbol.key = (p.lookup g n).map Symbol.key) :
    p.lookup f n = p.lookup g n := by
  cases hs : p.lookup f n with
  | none =>
    rw [hs] at h
    exact (Option.map_eq_none_iff.mp h.symm).symm
  | some s =>
    rw [hs] at h
    obtain ⟨s', hs', hkey⟩ := Option.map_eq_some_iff.mp h.symm
    obtain ⟨file, hfile, hgroup⟩ := declaredIn_of_lookup hs
    obtain ⟨file', hfile', hgroup'⟩ := declaredIn_of_lookup hs'
    obtain ⟨hfiles, hnames⟩ := Prod.mk.inj hkey
    rw [hfiles] at hfile' hgroup'
    rw [hnames] at hgroup'
    obtain rfl := Option.some.inj (hfile'.symm.trans hfile)
    rw [hs', Option.some.inj (hgroup.symm.trans hgroup')]

end Program

namespace Expansion

/-! ## References in types -/

mutual

/-- The references in a type: their dotted names, with how many arguments they have. What is only
kept as a stretch of text has none. -/
def referencesIn : TypeNode → List (String × Nat)
  | .reference _ name args => (name.text, args.length) :: referencesInAll args
  | .object _ members => referencesInMembers members
  | .array _ elem => referencesIn elem
  | .tuple _ elems => referencesInElems elems
  | .union _ branches => referencesInAll branches
  | .intersection _ branches => referencesInAll branches
  | .paren _ inner => referencesIn inner
  | .operator _ _ inner => referencesIn inner
  | .optional _ inner => referencesIn inner
  | .rest _ inner => referencesIn inner
  | .indexed _ object index => referencesIn index ++ referencesIn object
  | _ => []

/-- The references in types. -/
def referencesInAll : List TypeNode → List (String × Nat)
  | [] => []
  | t :: ts => referencesIn t ++ referencesInAll ts

/-- The references in the elements of a tuple. -/
def referencesInElems : List TupleElem → List (String × Nat)
  | [] => []
  | .mk _ type :: es => referencesIn type ++ referencesInElems es

/-- The references in the types of properties. -/
def referencesInMembers : List Member → List (String × Nat)
  | [] => []
  | .property (.mk _ _ _ _ type) :: ms => referencesInOptional type ++ referencesInMembers ms
  | .other _ _ :: ms => referencesInMembers ms

/-- The references in the type of a property. -/
def referencesInOptional : Option TypeNode → List (String × Nat)
  | some type => referencesIn type
  | none => []

end

/-- The name of the parent of an interface, and the references in its arguments. -/
def referencesInParent (parent : Heritage) : List (String × Nat) :=
  parent.base.dottedName?.toList.map (·, parent.args.length) ++ referencesInAll parent.args

/-! ## Types that are written out -/

/-- What may stand for the type parameters. -/
abbrev Spellings := String → Option (TypeNode → Bool)

/-- What may stand for a reference, if it is to a parameter. -/
def Spellings.parameter? (σ : Spellings) : EntityName → List TypeNode → Option (TypeNode → Bool)
  | .name text, [] => σ text
  | _, _ => none

section

variable (p : Program) (slices : List String) (f g : Nat)

/-- Whether a stretch of the file `f` is the same text as one of the file `g`, or is one of the
slices. -/
def sameSlice (span span' : Span) : Bool :=
  let text := (sourceOf p f).textOf span
  text == (sourceOf p g).textOf span' || slices.contains text

/-- Whether a name means the same symbol in the file `f` as in the file `g`. -/
def sameSymbol (name : String) : Bool :=
  (p.lookup f name).map Symbol.key == (p.lookup g name).map Symbol.key

mutual

/-- Whether the second type, in the file `g`, is the first one, in the file `f`, with its
parameters written out. -/
def writtenOut (σ : Spellings) : TypeNode → TypeNode → Bool
  | .reference _ name args, t' =>
    match σ.parameter? name args with
    | some stands => stands t'
    | none => match t' with
      | .reference _ name' args' =>
        name' == name && sameSymbol p f g name.text && allWrittenOut σ args args'
      | _ => false
  | .object _ members, t' => match t' with
    | .object _ members' => membersWrittenOut σ members members'
    | _ => false
  | .array _ elem, t' => match t' with
    | .array _ elem' => writtenOut σ elem elem'
    | _ => false
  | .tuple _ elems, t' => match t' with
    | .tuple _ elems' => elemsWrittenOut σ elems elems'
    | _ => false
  | .union _ branches, t' => match t' with
    | .union _ branches' => allWrittenOut σ branches branches'
    | _ => false
  | .intersection _ branches, t' => match t' with
    | .intersection _ branches' => allWrittenOut σ branches branches'
    | _ => false
  | .paren _ inner, t' => match t' with
    | .paren _ inner' => writtenOut σ inner inner'
    | _ => false
  | .operator _ op inner, t' => match t' with
    | .operator _ op' inner' => op' == op && writtenOut σ inner inner'
    | _ => false
  | .optional _ inner, t' => match t' with
    | .optional _ inner' => writtenOut σ inner inner'
    | _ => false
  | .rest _ inner, t' => match t' with
    | .rest _ inner' => writtenOut σ inner inner'
    | _ => false
  | .indexed span object index, t' => match t' with
    | .indexed span' object' index' =>
      sameSlice p slices f g span span' && writtenOut σ object object' && writtenOut σ index index'
    | _ => false
  | .keyword span _, t' => match t' with
    | .keyword span' _ => sameSlice p slices f g span span'
    | _ => false
  | .text span value, t' => match t' with
    | .text span' value' => value' == value && (value.isSome || sameSlice p slices f g span span')
    | _ => false
  | .truth _ value, t' => match t' with
    | .truth _ value' => value' == value
    | _ => false
  | .other span _, t' => match t' with
    | .other span' _ => sameSlice p slices f g span span'
    | _ => false

/-- Whether types are others with their parameters written out. -/
def allWrittenOut (σ : Spellings) : List TypeNode → List TypeNode → Bool
  | [], ts' => ts'.isEmpty
  | t :: ts, ts' => match ts' with
    | t' :: ts' => writtenOut σ t t' && allWrittenOut σ ts ts'
    | [] => false

/-- Whether elements of a tuple are others with their parameters written out. -/
def elemsWrittenOut (σ : Spellings) : List TupleElem → List TupleElem → Bool
  | [], es' => es'.isEmpty
  | .mk label type :: es, es' => match es' with
    | .mk label' type' :: es' =>
      label' == label && writtenOut σ type type' && elemsWrittenOut σ es es'
    | [] => false

/-- Whether members are others with their parameters written out. -/
def membersWrittenOut (σ : Spellings) : List Member → List Member → Bool
  | [], ms' => ms'.isEmpty
  | .property (.mk span key computed optional type) :: ms, ms' => match ms' with
    | .property (.mk span' key' computed' optional' type') :: ms' =>
      Property.name? (.mk span' key' computed' optional' type') ==
          Property.name? (.mk span key computed optional type) &&
        optional' == optional && optionWrittenOut σ type type' && membersWrittenOut σ ms ms'
    | _ => false
  | .other span _ :: ms, ms' => match ms' with
    | .other span' _ :: ms' =>
      let text := otherText (sourceOf p f) span
      (text == otherText (sourceOf p g) span' || slices.contains text) &&
        membersWrittenOut σ ms ms'
    | _ => false

/-- Whether the type of a property is another one with its parameters written out. -/
def optionWrittenOut (σ : Spellings) : Option TypeNode → Option TypeNode → Bool
  | none, type' => type'.isNone
  | some type, type' => match type' with
    | some type' => writtenOut σ type type'
    | none => false

end

/-- Whether a parent is another one with the parameters in its arguments written out. Its own
name is none of a parameter. -/
def parentWrittenOut (σ : Spellings) (parent parent' : Heritage) : Bool :=
  parent'.base.dottedName? == parent.base.dottedName? &&
    parent.base.dottedName?.all (sameSymbol p f g) &&
    allWrittenOut p slices f g σ parent.args parent'.args

/-- Whether parents are others with the parameters in their arguments written out. -/
def parentsWrittenOut (σ : Spellings) : List Heritage → List Heritage → Bool
  | [], parents' => parents'.isEmpty
  | parent :: parents, parents' => match parents' with
    | parent' :: parents' =>
      parentWrittenOut p slices f g σ parent parent' && parentsWrittenOut σ parents parents'
    | [] => false

end

/-! ## Sites that read alike -/

/-- Types at the site `a`, in the file `f`, read as they do with their parameters written out
at the site `b`, in the file `g`, as far as the names in them then are `good`. -/
structure Site.ReadsAs (p : Program) (slices : List String) (f g : Nat) (σ : Spellings)
    (a b : Site) (good : String → Nat → Prop) : Prop where
  source : a.source = sourceOf p f ∧ b.source = sourceOf p g
  lookup : a.lookup = p.lookup f ∧ b.lookup = p.lookup g
  spelled : ∀ name stands t', σ name = some stands → stands t' = true →
    (∀ r ∈ referencesIn t', good r.1 r.2) → ∃ m, a.meaning name = some m ∧
      ∀ look, AnswersAlike slices (m.answer look) (answerOf b t' look)
  kept : ∀ name, σ name = none → good name 0 → (a.meaning name = none ∧ b.meaning name = none) ∨
    ∀ span span' look, AnswersAlike slices (answerOf a (.reference span (.name name) []) look)
      (answerOf b (.reference span' (.name name) []) look)
  symbol : ∀ look name s args args', p.lookup g name = some s → good name args'.length →
    allWrittenOut p slices f g σ args args' = true → (∀ r ∈ referencesInAll args', good r.1 r.2) →
      AnswersAlike slices (a.answer s args look) (b.answer s args' look)

theorem answerOf_of_meaning {site : Site} {name : String} {m : Meaning}
    (h : site.meaning name = some m) (span : Span) (look : Look) :
    answerOf site (.reference span (.name name) []) look = m.answer look := by
  have hparam : site.parameter? (.name name) [] = some m := h
  cases look with
  | properties =>
    show Answer.properties _ = _
    rw [propertiesOf, hparam]
    rfl
  | keys =>
    show Answer.keys _ = _
    rw [keysOf, hparam]
    rfl
  | text =>
    show Answer.text (some _) = _
    rw [textOf, hparam]
    rfl

theorem textsAlike_or_contains {slices : List String} {text text' : String}
    (h : (text == text' || slices.contains text) = true) : TextsAlike slices text text' := by
  rw [Bool.or_eq_true, beq_iff_eq, List.contains_iff_mem] at h
  rcases h with rfl | h
  · exact .refl text
  · exact Or.inr ⟨text, h, List.infix_rfl⟩

section

variable {p : Program} {slices : List String} {f g : Nat} {σ : Spellings} {a b : Site}
  {good : String → Nat → Prop}

theorem Site.ReadsAs.textOf_source (h : a.ReadsAs p slices f g σ b good) {span span' : Span}
    (hslice : sameSlice p slices f g span span' = true) :
    TextsAlike slices (a.source.textOf span) (b.source.textOf span') := by
  rw [h.source.1, h.source.2]
  exact textsAlike_or_contains hslice

theorem Site.ReadsAs.lookup_eq (h : a.ReadsAs p slices f g σ b good) {name : String}
    (hsame : sameSymbol p f g name = true) : a.lookup name = b.lookup name := by
  rw [h.lookup.1, h.lookup.2]
  exact Program.lookup_eq_of_key (eq_of_beq hsame)

/-- A reference answers what is written out for it, or it stays a reference, and then it is to
no parameter at both sites. -/
theorem Site.ReadsAs.reference_cases (h : a.ReadsAs p slices f g σ b good) {span : Span}
    {name : EntityName} {args : List TypeNode} {t' : TypeNode}
    (hout : writtenOut p slices f g σ (.reference span name args) t' = true)
    (hgood : ∀ r ∈ referencesIn t', good r.1 r.2) :
    (∀ look, AnswersAlike slices (answerOf a (.reference span name args) look)
      (answerOf b t' look)) ∨
    ∃ span' args', t' = .reference span' name args' ∧
      allWrittenOut p slices f g σ args args' = true ∧ a.lookup name.text = b.lookup name.text ∧
      a.parameter? name args = none ∧ b.parameter? name args' = none := by
  unfold writtenOut at hout
  cases hstands : σ.parameter? name args with
  | some stands =>
    rw [hstands] at hout
    -- only a plain name without arguments is one of a parameter
    obtain ⟨text, rfl, rfl, hσ⟩ : ∃ text, name = .name text ∧ args = [] ∧ σ text = some stands := by
      unfold Spellings.parameter? at hstands
      split at hstands
      next text => exact ⟨text, rfl, rfl, hstands⟩
      next => cases hstands
    obtain ⟨m, hm, hsame⟩ := h.spelled text stands t' hσ hout hgood
    refine Or.inl fun look => ?_
    rw [answerOf_of_meaning hm]
    exact hsame look
  | none =>
    rw [hstands] at hout
    dsimp only at hout
    split at hout
    next span' name' args' =>
      simp only [Bool.and_eq_true, beq_iff_eq] at hout
      obtain ⟨⟨hname, hsymbol⟩, hargs⟩ := hout
      subst name'
      have hlookup := h.lookup_eq hsymbol
      rw [referencesIn, List.forall_mem_cons] at hgood
      cases name with
      | member left right => exact Or.inr ⟨span', args', rfl, hargs, hlookup, rfl, rfl⟩
      | name text =>
        cases args with
        | cons arg args =>
          cases args' with
          | nil =>
            rw [allWrittenOut] at hargs
            cases hargs
          | cons arg' args' => exact Or.inr ⟨span', _, rfl, hargs, hlookup, rfl, rfl⟩
        | nil =>
          have hnil : args' = [] := by
            rw [allWrittenOut, List.isEmpty_iff] at hargs
            exact hargs
          subst hnil
          rcases h.kept text hstands hgood.1 with ⟨ha, hb⟩ | hsame
          · exact Or.inr ⟨span', [], rfl, hargs, hlookup, ha, hb⟩
          · exact Or.inl (hsame span span')
    next => cases hout

/-- The members that are no properties are written alike. -/
theorem otherTexts_writtenOut (h : a.ReadsAs p slices f g σ b good) : ∀ ms ms' : List Member,
    membersWrittenOut p slices f g σ ms ms' = true →
      List.Forall₂ (TextsAlike slices) (otherTexts a.source ms) (otherTexts b.source ms')
  | [], ms', hout => by
    rw [membersWrittenOut, List.isEmpty_iff] at hout
    rw [hout, otherTexts, otherTexts]
    exact .nil
  | .property (.mk ..) :: ms, ms', hout => by
    unfold membersWrittenOut at hout
    split at hout
    next ms' =>
      rw [Bool.and_eq_true] at hout
      rw [otherTexts, otherTexts]
      exact otherTexts_writtenOut h ms ms' hout.2
    next => cases hout
  | .other .. :: ms, ms', hout => by
    unfold membersWrittenOut at hout
    split at hout
    next ms' =>
      rw [Bool.and_eq_true, ← h.source.1, ← h.source.2] at hout
      rw [otherTexts, otherTexts]
      exact .cons (textsAlike_or_contains hout.1) (otherTexts_writtenOut h ms ms' hout.2)
    next => cases hout

/-! ### Keys -/

mutual

theorem keysOf_writtenOut (h : a.ReadsAs p slices f g σ b good) : ∀ t t' : TypeNode,
    writtenOut p slices f g σ t t' = true → (∀ r ∈ referencesIn t', good r.1 r.2) →
      keysOf a t = keysOf b t'
  | .reference _ name args, t', hout, hgood => by
    rcases h.reference_cases hout hgood with hsame | ⟨span', args', rfl, hargs, hlookup, ha, hb⟩
    · exact (hsame .keys).of_keys
    · rw [referencesIn, List.forall_mem_cons] at hgood
      rw [keysOf, keysOf, ha, hb, hlookup]
      dsimp only
      cases hs : b.lookup name.text with
      | none => rfl
      | some s =>
        rw [h.lookup.2] at hs
        exact (h.symbol .keys name.text s args args' hs hgood.1 hargs hgood.2).of_keys
  | .paren _ inner, t', hout, hgood => by
    unfold writtenOut at hout
    split at hout
    next inner' =>
      rw [referencesIn] at hgood
      rw [keysOf, keysOf, keysOf_writtenOut h inner inner' hout hgood]
    next => cases hout
  | .union _ branches, t', hout, hgood => by
    unfold writtenOut at hout
    split at hout
    next branches' =>
      rw [referencesIn] at hgood
      rw [keysOf, keysOf, keysOfAll_writtenOut h branches branches' hout hgood]
    next => cases hout
  | .text _ value, t', hout, _ => by
    unfold writtenOut at hout
    split at hout
    next value' =>
      rw [Bool.and_eq_true, beq_iff_eq] at hout
      rw [keysOf, keysOf, hout.1]
    next => cases hout
  | .keyword .., t', hout, _ | .truth .., t', hout, _ | .object .., t', hout, _
  | .array .., t', hout, _ | .tuple .., t', hout, _ | .intersection .., t', hout, _
  | .operator .., t', hout, _ | .optional .., t', hout, _ | .rest .., t', hout, _
  | .indexed .., t', hout, _ | .other .., t', hout, _ => by
    unfold writtenOut at hout
    split at hout
    next => rw [keysOf, keysOf] <;> simp
    next => cases hout

theorem keysOfAll_writtenOut (h : a.ReadsAs p slices f g σ b good) : ∀ ts ts' : List TypeNode,
    allWrittenOut p slices f g σ ts ts' = true → (∀ r ∈ referencesInAll ts', good r.1 r.2) →
      keysOfAll a ts = keysOfAll b ts'
  | [], ts', hout, _ => by
    rw [allWrittenOut, List.isEmpty_iff] at hout
    rw [hout, keysOfAll, keysOfAll]
  | t :: ts, ts', hout, hgood => by
    unfold allWrittenOut at hout
    split at hout
    next t' ts' =>
      rw [Bool.and_eq_true] at hout
      rw [referencesInAll, List.forall_mem_append] at hgood
      rw [keysOfAll, keysOfAll, keysOf_writtenOut h t t' hout.1 hgood.1,
        keysOfAll_writtenOut h ts ts' hout.2 hgood.2]
    next => cases hout

end

/-! ### Properties and texts -/

mutual

theorem propertiesOf_writtenOut (h : a.ReadsAs p slices f g σ b good) : ∀ t t' : TypeNode,
    writtenOut p slices f g σ t t' = true → (∀ r ∈ referencesIn t', good r.1 r.2) →
      ShapesAlike slices (propertiesOf a t) (propertiesOf b t')
  | .reference _ name args, t', hout, hgood => by
    rcases h.reference_cases hout hgood with hsame | ⟨span', args', rfl, hargs, hlookup, ha, hb⟩
    · exact (hsame .properties).of_properties
    · rw [referencesIn, List.forall_mem_cons] at hgood
      rw [propertiesOf, propertiesOf, ha, hb, hlookup]
      dsimp only
      cases hs : b.lookup name.text with
      | none => exact utilityProperties_writtenOut h name.text args args' hargs hgood.2
      | some s =>
        rw [h.lookup.2] at hs
        exact (h.symbol .properties name.text s args args' hs hgood.1 hargs hgood.2).of_properties
  | .paren _ inner, t', hout, hgood => by
    unfold writtenOut at hout
    split at hout
    next inner' =>
      rw [referencesIn] at hgood
      rw [propertiesOf, propertiesOf]
      exact propertiesOf_writtenOut h inner inner' hout hgood
    next => cases hout
  | .object span members, t', hout, hgood => by
    unfold writtenOut at hout
    split at hout
    next span' members' =>
      rw [referencesIn] at hgood
      rw [propertiesOf, propertiesOf]
      exact ShapesAlike.nil.addShapes (memberShapes_writtenOut h members members' _ _ hout hgood)
    next => cases hout
  | .intersection _ branches, t', hout, hgood => by
    unfold writtenOut at hout
    split at hout
    next branches' =>
      rw [referencesIn] at hgood
      rw [propertiesOf, propertiesOf]
      exact branchProperties_writtenOut h branches branches' [] [] .nil hout hgood
    next => cases hout
  | .operator _ op inner, t', hout, hgood => by
    unfold writtenOut at hout
    split at hout
    next op' inner' =>
      rw [Bool.and_eq_true, beq_iff_eq] at hout
      obtain ⟨rfl, hinner⟩ := hout
      rw [referencesIn] at hgood
      -- only `readonly` lets the properties through
      cases op' with
      | readonly =>
        rw [propertiesOf, propertiesOf]
        exact propertiesOf_writtenOut h inner inner' hinner hgood
      | keyof =>
        rw [propertiesOf, propertiesOf]
        · exact .nil
        all_goals exact nofun
      | unique =>
        rw [propertiesOf, propertiesOf]
        · exact .nil
        all_goals exact nofun
    next => cases hout
  | .text .., t', hout, _ | .keyword .., t', hout, _ | .truth .., t', hout, _
  | .array .., t', hout, _ | .tuple .., t', hout, _ | .union .., t', hout, _
  | .optional .., t', hout, _ | .rest .., t', hout, _ | .indexed .., t', hout, _
  | .other .., t', hout, _ => by
    unfold writtenOut at hout
    split at hout
    next =>
      rw [propertiesOf, propertiesOf]
      · exact .nil
      all_goals exact nofun
    next => cases hout
termination_by structural t => t

theorem branchProperties_writtenOut (h : a.ReadsAs p slices f g σ b good) :
    ∀ (ts ts' : List TypeNode) (shapes shapes' : List Shape), ShapesAlike slices shapes shapes' →
      allWrittenOut p slices f g σ ts ts' = true → (∀ r ∈ referencesInAll ts', good r.1 r.2) →
        ShapesAlike slices (branchProperties a shapes ts) (branchProperties b shapes' ts')
  | [], ts', shapes, shapes', hshapes, hout, _ => by
    rw [allWrittenOut, List.isEmpty_iff] at hout
    rw [hout, branchProperties, branchProperties]
    exact hshapes
  | t :: ts, ts', shapes, shapes', hshapes, hout, hgood => by
    unfold allWrittenOut at hout
    split at hout
    next t' ts' =>
      rw [Bool.and_eq_true] at hout
      rw [referencesInAll, List.forall_mem_append] at hgood
      rw [branchProperties, branchProperties]
      exact branchProperties_writtenOut h ts ts' _ _
        (hshapes.addShapes (propertiesOf_writtenOut h t t' hout.1 hgood.1)) hout.2 hgood.2
    next => cases hout
termination_by structural ts => ts

theorem utilityProperties_writtenOut (h : a.ReadsAs p slices f g σ b good) (name : String) :
    ∀ ts ts' : List TypeNode, allWrittenOut p slices f g σ ts ts' = true →
      (∀ r ∈ referencesInAll ts', good r.1 r.2) →
        ShapesAlike slices (utilityProperties a name ts) (utilityProperties b name ts')
  | [], ts', hout, _ => by
    rw [allWrittenOut, List.isEmpty_iff] at hout
    rw [hout, utilityProperties, utilityProperties]
    exact .nil
  | [target], ts', hout, hgood => by
    unfold allWrittenOut at hout
    split at hout
    next target' ts' =>
      rw [Bool.and_eq_true, allWrittenOut, List.isEmpty_iff] at hout
      obtain ⟨htarget, rfl⟩ := hout
      rw [referencesInAll, List.forall_mem_append] at hgood
      rw [utilityProperties, utilityProperties]
      cases Utility.ofName? name with
      | none => exact .nil
      | some u => exact (propertiesOf_writtenOut h target target' htarget hgood.1).apply u none
    next => cases hout
  | target :: keys :: _, ts', hout, hgood => by
    unfold allWrittenOut at hout
    split at hout
    next target' ts' =>
      rw [Bool.and_eq_true] at hout
      obtain ⟨htarget, hout⟩ := hout
      unfold allWrittenOut at hout
      split at hout
      next keys' ts' =>
        rw [Bool.and_eq_true] at hout
        rw [referencesInAll, referencesInAll, List.forall_mem_append,
          List.forall_mem_append] at hgood
        rw [utilityProperties, utilityProperties,
          keysOf_writtenOut h keys keys' hout.1 hgood.2.1]
        cases Utility.ofName? name with
        | none => exact .nil
        | some u => exact (propertiesOf_writtenOut h target target' htarget hgood.1).apply u _
      next => cases hout
    next => cases hout
termination_by structural ts => ts

theorem memberShapes_writtenOut (h : a.ReadsAs p slices f g σ b good) :
    ∀ (ms ms' : List Member) (place place' : Nat),
      membersWrittenOut p slices f g σ ms ms' = true →
        (∀ r ∈ referencesInMembers ms', good r.1 r.2) →
          ShapesAlike slices (memberShapes a place ms) (memberShapes b place' ms')
  | [], ms', _, _, hout, _ => by
    rw [membersWrittenOut, List.isEmpty_iff] at hout
    rw [hout, memberShapes, memberShapes]
    exact .nil
  | .property (.mk span key computed optional type) :: ms, ms', place, place', hout, hgood => by
    unfold membersWrittenOut at hout
    split at hout
    next span' key' computed' optional' type' ms' =>
      simp only [Bool.and_eq_true, beq_iff_eq] at hout
      obtain ⟨⟨⟨hname, rfl⟩, htype⟩, hout⟩ := hout
      rw [referencesInMembers, List.forall_mem_append] at hgood
      have htext := annotationText_writtenOut h type type' htype hgood.1
      have hrest := memberShapes_writtenOut h ms ms' span.hi span'.hi hout hgood.2
      rw [memberShapes, memberShapes, hname]
      refine ShapesAlike.append ?_ hrest
      cases Property.name? (.mk span key computed optional' type) with
      | none => exact .nil
      | some name => exact .cons ⟨rfl, rfl, htext⟩ .nil
    next => cases hout
  | .other span _ :: ms, ms', place, place', hout, hgood => by
    unfold membersWrittenOut at hout
    split at hout
    next span' _ ms' =>
      rw [Bool.and_eq_true] at hout
      rw [referencesInMembers] at hgood
      rw [memberShapes, memberShapes]
      exact memberShapes_writtenOut h ms ms' span.hi span'.hi hout.2 hgood
    next => cases hout
termination_by structural ms => ms

theorem annotationText_writtenOut (h : a.ReadsAs p slices f g σ b good) :
    ∀ type type' : Option TypeNode, optionWrittenOut p slices f g σ type type' = true →
      (∀ r ∈ referencesInOptional type', good r.1 r.2) →
        TextsAlike slices (annotationText a type) (annotationText b type')
  | none, type', hout, _ => by
    rw [optionWrittenOut, Option.isNone_iff_eq_none] at hout
    rw [hout, annotationText, annotationText]
    exact .refl _
  | some type, type', hout, hgood => by
    unfold optionWrittenOut at hout
    split at hout
    next type' =>
      rw [referencesInOptional] at hgood
      rw [annotationText, annotationText]
      exact textOf_writtenOut h type type' hout hgood
    next => cases hout
termination_by structural type => type

theorem textOf_writtenOut (h : a.ReadsAs p slices f g σ b good) : ∀ t t' : TypeNode,
    writtenOut p slices f g σ t t' = true → (∀ r ∈ referencesIn t', good r.1 r.2) →
      TextsAlike slices (textOf a t) (textOf b t')
  | .reference _ name args, t', hout, hgood => by
    rcases h.reference_cases hout hgood with hsame | ⟨span', args', rfl, hargs, hlookup, ha, hb⟩
    · exact Option.rel_some_some.mp (hsame .text).of_text
    · rw [referencesIn, List.forall_mem_cons] at hgood
      have htexts := textsOf_writtenOut h args args' hargs hgood.2
      rw [textOf, textOf, ha, hb, hlookup]
      dsimp only
      cases hs : b.lookup name.text with
      | none => exact .appliedText htexts name.text
      | some s =>
        rw [h.lookup.2] at hs
        have htext := (h.symbol .text name.text s args args' hs hgood.1 hargs hgood.2).of_text
        dsimp only [Option.bind_some]
        generalize a.text s args = text, b.text s args' = text' at htext ⊢
        cases htext with
        | none => exact .appliedText htexts name.text
        | some htext => exact htext
  | .object span members, t', hout, hgood => by
    unfold writtenOut at hout
    split at hout
    next span' members' =>
      rw [referencesIn] at hgood
      rw [textOf, textOf]
      exact (ShapesAlike.nil.addShapes (memberShapes_writtenOut h members members' _ _ hout
        hgood)).objectText (otherTexts_writtenOut h members members' hout)
    next => cases hout
  | .array _ elem, t', hout, hgood => by
    unfold writtenOut at hout
    split at hout
    next elem' =>
      rw [referencesIn] at hgood
      rw [textOf, textOf]
      exact ((textOf_writtenOut h elem elem' hout hgood).wrapIf _).append (.refl "[]")
    next => cases hout
  | .tuple _ elems, t', hout, hgood => by
    unfold writtenOut at hout
    split at hout
    next elems' =>
      rw [referencesIn] at hgood
      rw [textOf, textOf]
      have htexts := TextsAlike.intercalate (elementTexts_writtenOut h elems elems' hout hgood) ", "
      exact ((TextsAlike.refl "[").append htexts).append (.refl "]")
    next => cases hout
  | .union _ branches, t', hout, hgood => by
    unfold writtenOut at hout
    split at hout
    next branches' =>
      rw [referencesIn] at hgood
      rw [textOf, textOf]
      have htexts := textsOf_writtenOut h branches branches' hout hgood
      exact .intercalate (TextsAlike.map_wrapIf htexts _) " | "
    next => cases hout
  | .intersection _ branches, t', hout, hgood => by
    unfold writtenOut at hout
    split at hout
    next branches' =>
      rw [referencesIn] at hgood
      rw [textOf, textOf]
      have htexts := textsOf_writtenOut h branches branches' hout hgood
      exact .intercalate (TextsAlike.map_wrapIf htexts _) " & "
    next => cases hout
  | .paren _ inner, t', hout, hgood => by
    unfold writtenOut at hout
    split at hout
    next inner' =>
      rw [referencesIn] at hgood
      rw [textOf, textOf]
      have htext := textOf_writtenOut h inner inner' hout hgood
      exact ((TextsAlike.refl "(").append htext).append (.refl ")")
    next => cases hout
  | .operator _ op inner, t', hout, hgood => by
    unfold writtenOut at hout
    split at hout
    next op' inner' =>
      rw [Bool.and_eq_true, beq_iff_eq] at hout
      rw [referencesIn] at hgood
      rw [textOf, textOf, hout.1]
      exact (TextsAlike.refl _).append ((textOf_writtenOut h inner inner' hout.2 hgood).wrapIf _)
    next => cases hout
  | .optional _ inner, t', hout, hgood => by
    unfold writtenOut at hout
    split at hout
    next inner' =>
      rw [referencesIn] at hgood
      rw [textOf, textOf]
      exact ((textOf_writtenOut h inner inner' hout hgood).wrapIf _).append (.refl "?")
    next => cases hout
  | .rest _ inner, t', hout, hgood => by
    unfold writtenOut at hout
    split at hout
    next inner' =>
      rw [referencesIn] at hgood
      rw [textOf, textOf]
      exact (TextsAlike.refl "...").append (textOf_writtenOut h inner inner' hout hgood)
    next => cases hout
  | .indexed _ object index, t', hout, hgood => by
    unfold writtenOut at hout
    split at hout
    next span' object' index' =>
      simp only [Bool.and_eq_true] at hout
      obtain ⟨⟨hslice, hobject⟩, hindex⟩ := hout
      rw [referencesIn, List.forall_mem_append] at hgood
      have hshapes := propertiesOf_writtenOut h object object' hobject hgood.2
      rw [textOf, textOf, keysOf_writtenOut h index index' hindex hgood.1]
      split
      next => exact h.textOf_source hslice
      next =>
        have htext := hshapes.accessText (keysOf b index')
        generalize accessText _ (propertiesOf a object) = text,
          accessText _ (propertiesOf b object') = text' at htext ⊢
        cases htext with
        | none => exact h.textOf_source hslice
        | some htext => exact htext
    next => cases hout
  | .text _ (some value), t', hout, _ => by
    unfold writtenOut at hout
    split at hout
    next =>
      rw [Bool.and_eq_true, beq_iff_eq] at hout
      rw [hout.1, textOf, textOf]
      exact .refl _
    next => cases hout
  | .text _ none, t', hout, _ => by
    unfold writtenOut at hout
    split at hout
    next =>
      rw [Bool.and_eq_true, beq_iff_eq] at hout
      rw [hout.1, textOf, textOf]
      exact h.textOf_source hout.2
    next => cases hout
  | .truth _ value, t', hout, _ => by
    unfold writtenOut at hout
    split at hout
    next value' =>
      rw [textOf, textOf, eq_of_beq hout]
      exact .refl _
    next => cases hout
  | .keyword .., t', hout, _ | .other .., t', hout, _ => by
    unfold writtenOut at hout
    split at hout
    next =>
      rw [textOf, textOf]
      exact h.textOf_source hout
    next => cases hout
termination_by structural t => t

theorem textsOf_writtenOut (h : a.ReadsAs p slices f g σ b good) : ∀ ts ts' : List TypeNode,
    allWrittenOut p slices f g σ ts ts' = true → (∀ r ∈ referencesInAll ts', good r.1 r.2) →
      List.Forall₂ (TextsAlike slices) (textsOf a ts) (textsOf b ts')
  | [], ts', hout, _ => by
    rw [allWrittenOut, List.isEmpty_iff] at hout
    rw [hout, textsOf, textsOf]
    exact .nil
  | t :: ts, ts', hout, hgood => by
    unfold allWrittenOut at hout
    split at hout
    next t' ts' =>
      rw [Bool.and_eq_true] at hout
      rw [referencesInAll, List.forall_mem_append] at hgood
      rw [textsOf, textsOf]
      exact .cons (textOf_writtenOut h t t' hout.1 hgood.1)
        (textsOf_writtenOut h ts ts' hout.2 hgood.2)
    next => cases hout
termination_by structural ts => ts

theorem elementTexts_writtenOut (h : a.ReadsAs p slices f g σ b good) : ∀ es es' : List TupleElem,
    elemsWrittenOut p slices f g σ es es' = true → (∀ r ∈ referencesInElems es', good r.1 r.2) →
      List.Forall₂ (TextsAlike slices) (elementTexts a es) (elementTexts b es')
  | [], es', hout, _ => by
    rw [elemsWrittenOut, List.isEmpty_iff] at hout
    rw [hout, elementTexts, elementTexts]
    exact .nil
  | .mk label type :: es, es', hout, hgood => by
    unfold elemsWrittenOut at hout
    split at hout
    next label' type' es' =>
      simp only [Bool.and_eq_true, beq_iff_eq] at hout
      obtain ⟨⟨rfl, htype⟩, hout⟩ := hout
      rw [referencesInElems, List.forall_mem_append] at hgood
      have htext := textOf_writtenOut h type type' htype hgood.1
      have hrest := elementTexts_writtenOut h es es' hout hgood.2
      cases label' with
      | none =>
        rw [elementTexts, elementTexts]
        exact .cons htext hrest
      | some name =>
        rw [elementTexts, elementTexts]
        exact .cons ((TextsAlike.refl (name ++ ": ")).append htext) hrest
    next => cases hout
termination_by structural es => es

end

/-- A type at the one site answers what it does with its parameters written out at the other. -/
theorem answerOf_writtenOut (h : a.ReadsAs p slices f g σ b good) {t t' : TypeNode}
    (hout : writtenOut p slices f g σ t t' = true) (hgood : ∀ r ∈ referencesIn t', good r.1 r.2)
    (look : Look) : AnswersAlike slices (answerOf a t look) (answerOf b t' look) := by
  cases look with
  | properties => exact .properties (propertiesOf_writtenOut h t t' hout hgood)
  | keys =>
    show AnswersAlike slices (.keys _) (.keys _)
    rw [keysOf_writtenOut h t t' hout hgood]
    exact .keys _
  | text => exact .text (.some (textOf_writtenOut h t t' hout hgood))

/-- So do the parents of an interface. -/
theorem parentProperties_writtenOut (h : a.ReadsAs p slices f g σ b good)
    {parent parent' : Heritage} (hout : parentWrittenOut p slices f g σ parent parent' = true)
    (hgood : ∀ r ∈ referencesInParent parent', good r.1 r.2) :
    ShapesAlike slices (parentProperties a parent) (parentProperties b parent') := by
  unfold parentWrittenOut at hout
  simp only [Bool.and_eq_true, beq_iff_eq] at hout
  obtain ⟨⟨hbase, hsymbol⟩, hargs⟩ := hout
  unfold referencesInParent at hgood
  rw [List.forall_mem_append, hbase] at hgood
  unfold parentProperties
  rw [hbase]
  cases hname : parent.base.dottedName? with
  | none => exact .nil
  | some name =>
    rw [hname] at hsymbol hgood
    dsimp only
    unfold namedProperties
    rw [h.lookup_eq hsymbol]
    cases hs : b.lookup name with
    | none => exact utilityProperties_writtenOut h name parent.args parent'.args hargs hgood.2
    | some s =>
      rw [h.lookup.2] at hs
      have hname' := hgood.1 (name, parent'.args.length) (by simp)
      exact (h.symbol .properties name s parent.args parent'.args hs hname' hargs
        hgood.2).of_properties

theorem parentsProperties_writtenOut (h : a.ReadsAs p slices f g σ b good)
    {parents parents' : List Heritage}
    (hout : parentsWrittenOut p slices f g σ parents parents' = true)
    (hgood : ∀ r ∈ parents'.flatMap referencesInParent, good r.1 r.2) :
    ShapesAlike slices (parents.flatMap (parentProperties a))
      (parents'.flatMap (parentProperties b)) := by
  induction parents generalizing parents' with
  | nil =>
    rw [parentsWrittenOut, List.isEmpty_iff] at hout
    rw [hout]
    exact .nil
  | cons parent parents ih =>
    cases parents' with
    | nil => cases hout
    | cons parent' parents' =>
      rw [parentsWrittenOut, Bool.and_eq_true] at hout
      rw [List.flatMap_cons, List.forall_mem_append] at hgood
      rw [List.flatMap_cons, List.flatMap_cons]
      exact (parentProperties_writtenOut h hout.1 hgood.1).append (ih hout.2 hgood.2)

end

/-! ## Types as they stand -/

/-- No parameters to write out. -/
def Spellings.none : Spellings := fun _ => .none

theorem parameter?_none (name : EntityName) (args : List TypeNode) :
    Spellings.none.parameter? name args = .none := by
  cases name with
  | member left right => rfl
  | name text => cases args <;> rfl

section

variable (p : Program) (slices : List String) (f : Nat)

theorem sameSlice_self (span : Span) : sameSlice p slices f f span span = true := by
  unfold sameSlice
  dsimp only
  rw [beq_self_eq_true, Bool.true_or]

theorem sameSymbol_self (name : String) : sameSymbol p f f name = true :=
  beq_self_eq_true _

mutual

/-- A type is itself with no parameters written out. -/
theorem writtenOut_self : ∀ t : TypeNode, writtenOut p slices f f .none t t = true
  | .reference _ name args => by
    rw [writtenOut, parameter?_none]
    simp only [beq_self_eq_true, sameSymbol_self, allWrittenOut_self args, Bool.and_self]
  | .object _ members => by rw [writtenOut, membersWrittenOut_self members]
  | .array _ elem => by rw [writtenOut, writtenOut_self elem]
  | .tuple _ elems => by rw [writtenOut, elemsWrittenOut_self elems]
  | .union _ branches => by rw [writtenOut, allWrittenOut_self branches]
  | .intersection _ branches => by rw [writtenOut, allWrittenOut_self branches]
  | .paren _ inner => by rw [writtenOut, writtenOut_self inner]
  | .operator _ _ inner => by
    rw [writtenOut, writtenOut_self inner, beq_self_eq_true, Bool.and_self]
  | .optional _ inner => by rw [writtenOut, writtenOut_self inner]
  | .rest _ inner => by rw [writtenOut, writtenOut_self inner]
  | .indexed span object index => by
    rw [writtenOut, sameSlice_self, writtenOut_self object, writtenOut_self index, Bool.and_self,
      Bool.and_self]
  | .keyword span _ | .other span _ => by rw [writtenOut, sameSlice_self]
  | .text span value => by
    rw [writtenOut, sameSlice_self, beq_self_eq_true, Bool.or_true, Bool.and_self]
  | .truth _ value => by rw [writtenOut, beq_self_eq_true]

theorem allWrittenOut_self : ∀ ts : List TypeNode, allWrittenOut p slices f f .none ts ts = true
  | [] => by rw [allWrittenOut, List.isEmpty_nil]
  | t :: ts => by rw [allWrittenOut, writtenOut_self t, allWrittenOut_self ts, Bool.and_self]

theorem elemsWrittenOut_self : ∀ es : List TupleElem,
    elemsWrittenOut p slices f f .none es es = true
  | [] => by rw [elemsWrittenOut, List.isEmpty_nil]
  | .mk label type :: es => by
    rw [elemsWrittenOut, writtenOut_self type, elemsWrittenOut_self es, beq_self_eq_true,
      Bool.and_self, Bool.and_self]

theorem membersWrittenOut_self : ∀ ms : List Member,
    membersWrittenOut p slices f f .none ms ms = true
  | [] => by rw [membersWrittenOut, List.isEmpty_nil]
  | .property (.mk _ _ _ _ type) :: ms => by
    rw [membersWrittenOut, optionWrittenOut_self type, membersWrittenOut_self ms]
    simp only [beq_self_eq_true, Bool.and_self]
  | .other _ _ :: ms => by
    rw [membersWrittenOut, membersWrittenOut_self ms, beq_self_eq_true]
    rfl

theorem optionWrittenOut_self : ∀ type : Option TypeNode,
    optionWrittenOut p slices f f .none type type = true
  | .none => by rw [optionWrittenOut, Option.isNone_none]
  | some type => by rw [optionWrittenOut, writtenOut_self type]

end

theorem parentsWrittenOut_self (parents : List Heritage) :
    parentsWrittenOut p slices f f .none parents parents = true := by
  induction parents with
  | nil => rfl
  | cons parent parents ih =>
    have hsymbol : parent.base.dottedName?.all (sameSymbol p f f) = true := by
      cases parent.base.dottedName? with
      | none => rfl
      | some name => exact sameSymbol_self p f name
    rw [parentsWrittenOut, parentWrittenOut, ih, hsymbol, allWrittenOut_self, beq_self_eq_true,
      Bool.and_self, Bool.and_self, Bool.and_self]

end

end Expansion

end ElementManifest

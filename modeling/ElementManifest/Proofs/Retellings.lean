import ElementManifest.Expansion.Symbols
import Mathlib.Data.List.Forall2

/-!
# Types that are told again

The same type may be written in two sources, at different places. All that a type answers is
made from the stretches of text that it keeps, from the docs that stand before its members, and
from what its names lead to. So two types answer the same if the stretches and docs are the same,
and the two sites answer the same for every name:

> `Site.Echoes`: names without arguments answer the same at both sites, and symbols do with
> arguments that are told again.

> `sameAnswers_of_retold`: then a type answers what it does where it is told again.
-/

namespace ElementManifest.Expansion

open ElementManifest.TypeScript

/-! ## Trees without their places -/

section

variable (s s' : Source)

mutual

/-- Whether the second type, in the source `s'`, is the first one, in the source `s`, told
again: they differ only in where they stand. -/
def retold : TypeNode → TypeNode → Bool
  | .keyword span _, t' => match t' with
    | .keyword span' _ => s'.textOf span' == s.textOf span
    | _ => false
  | .text span value, t' => match t' with
    | .text span' value' =>
      value' == value && (value.isSome || s'.textOf span' == s.textOf span)
    | _ => false
  | .truth _ value, t' => match t' with
    | .truth _ value' => value' == value
    | _ => false
  | .reference _ name args, t' => match t' with
    | .reference _ name' args' => name' == name && allRetold args args'
    | _ => false
  | .object span members, t' => match t' with
    | .object span' members' => membersRetold span.lo span'.lo members members'
    | _ => false
  | .array _ elem, t' => match t' with
    | .array _ elem' => retold elem elem'
    | _ => false
  | .tuple _ elems, t' => match t' with
    | .tuple _ elems' => elemsRetold elems elems'
    | _ => false
  | .union _ branches, t' => match t' with
    | .union _ branches' => allRetold branches branches'
    | _ => false
  | .intersection _ branches, t' => match t' with
    | .intersection _ branches' => allRetold branches branches'
    | _ => false
  | .paren _ inner, t' => match t' with
    | .paren _ inner' => retold inner inner'
    | _ => false
  | .operator _ op inner, t' => match t' with
    | .operator _ op' inner' => op' == op && retold inner inner'
    | _ => false
  | .optional _ inner, t' => match t' with
    | .optional _ inner' => retold inner inner'
    | _ => false
  | .rest _ inner, t' => match t' with
    | .rest _ inner' => retold inner inner'
    | _ => false
  | .indexed span object index, t' => match t' with
    | .indexed span' object' index' =>
      s'.textOf span' == s.textOf span && retold object object' && retold index index'
    | _ => false
  | .other span _, t' => match t' with
    | .other span' _ => s'.textOf span' == s.textOf span
    | _ => false

/-- Whether types are others told again. -/
def allRetold : List TypeNode → List TypeNode → Bool
  | [], ts' => ts'.isEmpty
  | t :: ts, ts' => match ts' with
    | t' :: ts' => retold t t' && allRetold ts ts'
    | [] => false

/-- Whether elements of a tuple are others told again. -/
def elemsRetold : List TupleElem → List TupleElem → Bool
  | [], es' => es'.isEmpty
  | .mk label type :: es, es' => match es' with
    | .mk label' type' :: es' => label' == label && retold type type' && elemsRetold es es'
    | [] => false

/-- Whether members are others told again. The docs of the first ones may start at `place` and
`place'`. -/
def membersRetold (place place' : Nat) : List Member → List Member → Bool
  | [], ms' => ms'.isEmpty
  | .property (.mk span key computed optional type) :: ms, ms' => match ms' with
    | .property (.mk span' key' computed' optional' type') :: ms' =>
      let p := Property.mk span key computed optional type
      let p' := Property.mk span' key' computed' optional' type'
      p'.name? == p.name? && optional' == optional && s'.docOf p' place' == s.docOf p place &&
        optionRetold type type' && membersRetold span.hi span'.hi ms ms'
    | _ => false
  | .other span _ :: ms, ms' => match ms' with
    | .other span' _ :: ms' =>
      otherText s' span' == otherText s span && membersRetold span.hi span'.hi ms ms'
    | _ => false

/-- Whether the type of a property is another one told again. -/
def optionRetold : Option TypeNode → Option TypeNode → Bool
  | none, type' => type'.isNone
  | some type, type' => match type' with
    | some type' => retold type type'
    | none => false

end

end

/-! ### The same tree -/

section

variable (s : Source)

mutual

/-- A type is told again by itself. -/
theorem retold_self : ∀ t : TypeNode, retold s s t t = true
  | .keyword .. | .truth .. | .other .. => by
    rw [retold]
    exact beq_self_eq_true _
  | .text span value => by
    rw [retold, beq_self_eq_true, beq_self_eq_true, Bool.or_true]
    rfl
  | .reference _ name args => by rw [retold, beq_self_eq_true, allRetold_self args, Bool.and_self]
  | .object span members => by rw [retold, membersRetold_self members span.lo]
  | .array _ elem => by rw [retold, retold_self elem]
  | .tuple _ elems => by rw [retold, elemsRetold_self elems]
  | .union _ branches | .intersection _ branches => by rw [retold, allRetold_self branches]
  | .paren _ inner | .optional _ inner | .rest _ inner => by rw [retold, retold_self inner]
  | .operator _ op inner => by rw [retold, beq_self_eq_true, retold_self inner, Bool.and_self]
  | .indexed _ object index => by
    rw [retold, beq_self_eq_true, retold_self object, retold_self index, Bool.and_self,
      Bool.and_self]

theorem allRetold_self : ∀ ts : List TypeNode, allRetold s s ts ts = true
  | [] => by rw [allRetold, List.isEmpty_nil]
  | t :: ts => by rw [allRetold, retold_self t, allRetold_self ts, Bool.and_self]

theorem elemsRetold_self : ∀ es : List TupleElem, elemsRetold s s es es = true
  | [] => by rw [elemsRetold, List.isEmpty_nil]
  | .mk label type :: es => by
    rw [elemsRetold, beq_self_eq_true, retold_self type, elemsRetold_self es, Bool.and_self,
      Bool.and_self]

theorem membersRetold_self : ∀ (ms : List Member) (place : Nat),
    membersRetold s s place place ms ms = true
  | [], _ => by rw [membersRetold, List.isEmpty_nil]
  | .property (.mk span key computed optional type) :: ms, place => by
    rw [membersRetold, optionRetold_self type, membersRetold_self ms span.hi]
    simp only [beq_self_eq_true, Bool.and_self]
  | .other span _ :: ms, _ => by
    rw [membersRetold, beq_self_eq_true, membersRetold_self ms span.hi, Bool.and_self]

theorem optionRetold_self : ∀ type : Option TypeNode, optionRetold s s type type = true
  | none => by rw [optionRetold, Option.isNone_none]
  | some type => by rw [optionRetold, retold_self type]

end

end

/-! ## The same answers -/

/-- Two types answer the same where they stand. -/
structure SameAnswers (a b : Site) (t t' : TypeNode) : Prop where
  properties : propertiesOf a t = propertiesOf b t'
  keys : keysOf a t = keysOf b t'
  text : textOf a t = textOf b t'

/-- What names answer at the one site, they answer at the other. -/
structure Site.Echoes (a b : Site) : Prop where
  meaning : a.meaning = b.meaning
  keys : ∀ name, (a.lookup name).map a.keys = (b.lookup name).map b.keys
  properties : ∀ name args args', allRetold a.source b.source args args' = true →
    (a.lookup name).map (a.properties · args) = (b.lookup name).map (b.properties · args')
  text : ∀ name args args', allRetold a.source b.source args args' = true →
    (a.lookup name).bind (a.text · args) = (b.lookup name).bind (b.text · args')

section

variable {a b : Site}

/-! ### Lists of types -/

section

variable {ts ts' : List TypeNode} (h : List.Forall₂ (SameAnswers a b) ts ts')

include h

theorem keysOfAll_of_sameAnswers : keysOfAll a ts = keysOfAll b ts' := by
  induction h with
  | nil => rw [keysOfAll, keysOfAll]
  | cons ht _ ih => rw [keysOfAll, keysOfAll, ht.keys, ih]

theorem textsOf_of_sameAnswers : textsOf a ts = textsOf b ts' := by
  induction h with
  | nil => rw [textsOf, textsOf]
  | cons ht _ ih => rw [textsOf, textsOf, ht.text, ih]

theorem branchProperties_of_sameAnswers (shapes : List Shape) :
    branchProperties a shapes ts = branchProperties b shapes ts' := by
  induction h generalizing shapes with
  | nil => rw [branchProperties, branchProperties]
  | cons ht _ ih => rw [branchProperties, branchProperties, ht.properties, ih]

theorem utilityProperties_of_sameAnswers (name : String) :
    utilityProperties a name ts = utilityProperties b name ts' := by
  cases h with
  | nil => rw [utilityProperties, utilityProperties]
  | cons htarget h =>
    cases h with
    | nil => rw [utilityProperties, utilityProperties, htarget.properties]
    | cons hkeys _ => rw [utilityProperties, utilityProperties, htarget.properties, hkeys.keys]

end

/-! ### One case for each form of a type -/

namespace SameAnswers

variable {t t' : TypeNode} {ts ts' : List TypeNode} {span span' : Span}

theorem keyword (h : a.source.textOf span = b.source.textOf span') (name name' : String) :
    SameAnswers a b (.keyword span name) (.keyword span' name') where
  properties := by rw [propertiesOf, propertiesOf] <;> simp
  keys := by rw [keysOf, keysOf] <;> simp
  text := by rw [textOf, textOf, h]

theorem other (h : a.source.textOf span = b.source.textOf span') (parts parts' : List Node) :
    SameAnswers a b (.other span parts) (.other span' parts') where
  properties := by rw [propertiesOf, propertiesOf] <;> simp
  keys := by rw [keysOf, keysOf] <;> simp
  text := by rw [textOf, textOf, h]

theorem textLiteral {value : Option String}
    (h : value.isSome = true ∨ a.source.textOf span = b.source.textOf span') :
    SameAnswers a b (.text span value) (.text span' value) where
  properties := by rw [propertiesOf, propertiesOf] <;> simp
  keys := by rw [keysOf, keysOf]
  text := by
    cases value with
    | some value => rw [textOf, textOf]
    | none =>
      rw [textOf, textOf]
      exact h.resolve_left Bool.false_ne_true

theorem truth (span span' : Span) (value : Bool) :
    SameAnswers a b (.truth span value) (.truth span' value) where
  properties := by rw [propertiesOf, propertiesOf] <;> simp
  keys := by rw [keysOf, keysOf] <;> simp
  text := by rw [textOf, textOf]

theorem array (h : SameAnswers a b t t') : SameAnswers a b (.array span t) (.array span' t') where
  properties := by rw [propertiesOf, propertiesOf] <;> simp
  keys := by rw [keysOf, keysOf] <;> simp
  text := by rw [textOf, textOf, h.text]

theorem tuple {es es' : List TupleElem} (h : elementTexts a es = elementTexts b es') :
    SameAnswers a b (.tuple span es) (.tuple span' es') where
  properties := by rw [propertiesOf, propertiesOf] <;> simp
  keys := by rw [keysOf, keysOf] <;> simp
  text := by rw [textOf, textOf, h]

theorem union (h : List.Forall₂ (SameAnswers a b) ts ts') :
    SameAnswers a b (.union span ts) (.union span' ts') where
  properties := by rw [propertiesOf, propertiesOf] <;> simp
  keys := by rw [keysOf, keysOf, keysOfAll_of_sameAnswers h]
  text := by rw [textOf, textOf, textsOf_of_sameAnswers h]

theorem intersection (h : List.Forall₂ (SameAnswers a b) ts ts') :
    SameAnswers a b (.intersection span ts) (.intersection span' ts') where
  properties := by rw [propertiesOf, propertiesOf, branchProperties_of_sameAnswers h]
  keys := by rw [keysOf, keysOf] <;> simp
  text := by rw [textOf, textOf, textsOf_of_sameAnswers h]

theorem paren (h : SameAnswers a b t t') : SameAnswers a b (.paren span t) (.paren span' t') where
  properties := by rw [propertiesOf, propertiesOf, h.properties]
  keys := by rw [keysOf, keysOf, h.keys]
  text := by rw [textOf, textOf, h.text]

theorem operator (h : SameAnswers a b t t') (op : TypeOperator) :
    SameAnswers a b (.operator span op t) (.operator span' op t') where
  properties := by
    cases op with
    | readonly => rw [propertiesOf, propertiesOf, h.properties]
    | keyof => rw [propertiesOf, propertiesOf] <;> simp
    | unique => rw [propertiesOf, propertiesOf] <;> simp
  keys := by rw [keysOf, keysOf] <;> simp
  text := by rw [textOf, textOf, h.text]

theorem optional (h : SameAnswers a b t t') :
    SameAnswers a b (.optional span t) (.optional span' t') where
  properties := by rw [propertiesOf, propertiesOf] <;> simp
  keys := by rw [keysOf, keysOf] <;> simp
  text := by rw [textOf, textOf, h.text]

theorem rest (h : SameAnswers a b t t') : SameAnswers a b (.rest span t) (.rest span' t') where
  properties := by rw [propertiesOf, propertiesOf] <;> simp
  keys := by rw [keysOf, keysOf] <;> simp
  text := by rw [textOf, textOf, h.text]

theorem indexed {index index' : TypeNode} (hobject : SameAnswers a b t t')
    (hindex : SameAnswers a b index index')
    (hslice : a.source.textOf span = b.source.textOf span') :
    SameAnswers a b (.indexed span t index) (.indexed span' t' index') where
  properties := by rw [propertiesOf, propertiesOf] <;> simp
  keys := by rw [keysOf, keysOf] <;> simp
  text := by rw [textOf, textOf, hindex.keys, hobject.properties, hslice]

theorem object {ms ms' : List Member}
    (hshapes : memberShapes a span.lo ms = memberShapes b span'.lo ms')
    (hothers : otherTexts a.source ms = otherTexts b.source ms') :
    SameAnswers a b (.object span ms) (.object span' ms') where
  properties := by rw [propertiesOf, propertiesOf, hshapes]
  keys := by rw [keysOf, keysOf] <;> simp
  text := by rw [textOf, textOf, hshapes, hothers]

end SameAnswers

/-- A reference is to the same parameter at both sites, or to none at either. -/
theorem Site.Echoes.parameter?_eq (h : a.Echoes b) (name : EntityName) {args args' : List TypeNode}
    (hargs : List.Forall₂ (SameAnswers a b) args args') :
    a.parameter? name args = b.parameter? name args' := by
  cases name with
  | member left right => rfl
  | name text =>
    cases hargs with
    | nil => exact congrFun h.meaning text
    | cons _ _ => rfl

/-- The properties of what a name means are the same. -/
theorem namedProperties_of_sameAnswers (h : a.Echoes b) (name : String) {args args' : List TypeNode}
    (hretold : allRetold a.source b.source args args' = true)
    (hargs : List.Forall₂ (SameAnswers a b) args args') :
    namedProperties a name args = namedProperties b name args' := by
  have hprops := h.properties name args args' hretold
  unfold namedProperties
  cases ha : a.lookup name with
  | none =>
    rw [ha, Option.map_none] at hprops
    rw [Option.map_eq_none_iff.mp hprops.symm]
    exact utilityProperties_of_sameAnswers hargs name
  | some s =>
    rw [ha, Option.map_some] at hprops
    obtain ⟨s', hs', heq⟩ := Option.map_eq_some_iff.mp hprops.symm
    rw [hs']
    exact heq.symm

theorem SameAnswers.reference (h : a.Echoes b) {name : EntityName} {args args' : List TypeNode}
    (hretold : allRetold a.source b.source args args' = true)
    (hargs : List.Forall₂ (SameAnswers a b) args args') (span span' : Span) :
    SameAnswers a b (.reference span name args) (.reference span' name args') := by
  have hparam := h.parameter?_eq name hargs
  refine ⟨?_, ?_, ?_⟩
  · rw [propertiesOf, propertiesOf, hparam]
    cases b.parameter? name args' with
    | some meaning => rfl
    | none => exact namedProperties_of_sameAnswers h name.text hretold hargs
  · rw [keysOf, keysOf, hparam, h.keys name.text]
  · rw [textOf, textOf, hparam, h.text name.text args args' hretold, textsOf_of_sameAnswers hargs]

/-! ### All forms together -/

theorem otherTexts_retold {s s' : Source} : ∀ {ms ms' : List Member} {place place' : Nat},
    membersRetold s s' place place' ms ms' = true → otherTexts s ms = otherTexts s' ms'
  | [], ms', _, _, hout => by
    rw [membersRetold, List.isEmpty_iff] at hout
    rw [hout, otherTexts, otherTexts]
  | .property (.mk ..) :: ms, ms', _, _, hout => by
    unfold membersRetold at hout
    split at hout
    next =>
      rw [Bool.and_eq_true] at hout
      rw [otherTexts, otherTexts, otherTexts_retold hout.2]
    next => cases hout
  | .other .. :: ms, ms', _, _, hout => by
    unfold membersRetold at hout
    split at hout
    next =>
      rw [Bool.and_eq_true, beq_iff_eq] at hout
      rw [otherTexts, otherTexts, hout.1, otherTexts_retold hout.2]
    next => cases hout

mutual

/-- A type answers what it does where it is told again. -/
theorem sameAnswers_of_retold (h : a.Echoes b) : ∀ t t' : TypeNode,
    retold a.source b.source t t' = true → SameAnswers a b t t'
  | .keyword .., t', hout => by
    unfold retold at hout
    split at hout
    next => exact .keyword (eq_of_beq hout).symm _ _
    next => cases hout
  | .other .., t', hout => by
    unfold retold at hout
    split at hout
    next => exact .other (eq_of_beq hout).symm _ _
    next => cases hout
  | .text _ value, t', hout => by
    unfold retold at hout
    split at hout
    next value' =>
      rw [Bool.and_eq_true, Bool.or_eq_true, beq_iff_eq, beq_iff_eq] at hout
      obtain ⟨rfl, hslice⟩ := hout
      exact .textLiteral (hslice.imp_right Eq.symm)
    next => cases hout
  | .truth _ value, t', hout => by
    unfold retold at hout
    split at hout
    next value' =>
      rw [eq_of_beq hout]
      exact .truth _ _ _
    next => cases hout
  | .reference _ name args, t', hout => by
    unfold retold at hout
    split at hout
    next name' args' =>
      rw [Bool.and_eq_true, beq_iff_eq] at hout
      obtain ⟨rfl, hargs⟩ := hout
      exact .reference h hargs (forall₂_of_retold h args args' hargs) _ _
    next => cases hout
  | .object span members, t', hout => by
    unfold retold at hout
    split at hout
    next span' members' =>
      exact .object (memberShapes_retold h members members' _ _ hout) (otherTexts_retold hout)
    next => cases hout
  | .array _ elem, t', hout => by
    unfold retold at hout
    split at hout
    next elem' => exact .array (sameAnswers_of_retold h elem elem' hout)
    next => cases hout
  | .tuple _ elems, t', hout => by
    unfold retold at hout
    split at hout
    next elems' => exact .tuple (elementTexts_retold h elems elems' hout)
    next => cases hout
  | .union _ branches, t', hout => by
    unfold retold at hout
    split at hout
    next branches' => exact .union (forall₂_of_retold h branches branches' hout)
    next => cases hout
  | .intersection _ branches, t', hout => by
    unfold retold at hout
    split at hout
    next branches' => exact .intersection (forall₂_of_retold h branches branches' hout)
    next => cases hout
  | .paren _ inner, t', hout => by
    unfold retold at hout
    split at hout
    next inner' => exact .paren (sameAnswers_of_retold h inner inner' hout)
    next => cases hout
  | .operator _ op inner, t', hout => by
    unfold retold at hout
    split at hout
    next op' inner' =>
      rw [Bool.and_eq_true, beq_iff_eq] at hout
      obtain ⟨rfl, hinner⟩ := hout
      exact .operator (sameAnswers_of_retold h inner inner' hinner) _
    next => cases hout
  | .optional _ inner, t', hout => by
    unfold retold at hout
    split at hout
    next inner' => exact .optional (sameAnswers_of_retold h inner inner' hout)
    next => cases hout
  | .rest _ inner, t', hout => by
    unfold retold at hout
    split at hout
    next inner' => exact .rest (sameAnswers_of_retold h inner inner' hout)
    next => cases hout
  | .indexed _ object index, t', hout => by
    unfold retold at hout
    split at hout
    next span' object' index' =>
      rw [Bool.and_eq_true, Bool.and_eq_true, beq_iff_eq] at hout
      obtain ⟨⟨hslice, hobject⟩, hindex⟩ := hout
      exact .indexed (sameAnswers_of_retold h object object' hobject)
        (sameAnswers_of_retold h index index' hindex) hslice.symm
    next => cases hout
termination_by structural t => t

theorem forall₂_of_retold (h : a.Echoes b) : ∀ ts ts' : List TypeNode,
    allRetold a.source b.source ts ts' = true → List.Forall₂ (SameAnswers a b) ts ts'
  | [], ts', hout => by
    rw [allRetold, List.isEmpty_iff] at hout
    rw [hout]
    exact .nil
  | t :: ts, ts', hout => by
    unfold allRetold at hout
    split at hout
    next t' ts' =>
      rw [Bool.and_eq_true] at hout
      exact .cons (sameAnswers_of_retold h t t' hout.1) (forall₂_of_retold h ts ts' hout.2)
    next => cases hout
termination_by structural ts => ts

theorem elementTexts_retold (h : a.Echoes b) : ∀ es es' : List TupleElem,
    elemsRetold a.source b.source es es' = true → elementTexts a es = elementTexts b es'
  | [], es', hout => by
    rw [elemsRetold, List.isEmpty_iff] at hout
    rw [hout, elementTexts, elementTexts]
  | .mk label type :: es, es', hout => by
    unfold elemsRetold at hout
    split at hout
    next label' type' es' =>
      rw [Bool.and_eq_true, Bool.and_eq_true, beq_iff_eq] at hout
      obtain ⟨⟨rfl, htype⟩, hout⟩ := hout
      have htext := (sameAnswers_of_retold h type type' htype).text
      have hrest := elementTexts_retold h es es' hout
      cases label' with
      | none => rw [elementTexts, elementTexts, htext, hrest]
      | some name => rw [elementTexts, elementTexts, htext, hrest]
    next => cases hout
termination_by structural es => es

/-- Members have the same shapes where they are told again. -/
theorem memberShapes_retold (h : a.Echoes b) : ∀ (ms ms' : List Member) (place place' : Nat),
    membersRetold a.source b.source place place' ms ms' = true →
      memberShapes a place ms = memberShapes b place' ms'
  | [], ms', _, _, hout => by
    rw [membersRetold, List.isEmpty_iff] at hout
    rw [hout, memberShapes, memberShapes]
  | .property (.mk span key computed optional type) :: ms, ms', place, place', hout => by
    unfold membersRetold at hout
    split at hout
    next span' key' computed' optional' type' ms' =>
      simp only [Bool.and_eq_true, beq_iff_eq] at hout
      obtain ⟨⟨⟨⟨hname, rfl⟩, hdoc⟩, htype⟩, hout⟩ := hout
      rw [memberShapes, memberShapes, memberShapes_retold h ms ms' span.hi span'.hi hout,
        annotationText_retold h type type' htype, hname, hdoc]
    next => cases hout
  | .other span _ :: ms, ms', place, place', hout => by
    unfold membersRetold at hout
    split at hout
    next span' _ ms' =>
      rw [Bool.and_eq_true] at hout
      rw [memberShapes, memberShapes, memberShapes_retold h ms ms' span.hi span'.hi hout.2]
    next => cases hout
termination_by structural ms => ms

theorem annotationText_retold (h : a.Echoes b) : ∀ type type' : Option TypeNode,
    optionRetold a.source b.source type type' = true →
      annotationText a type = annotationText b type'
  | none, type', hout => by
    rw [optionRetold, Option.isNone_iff_eq_none] at hout
    rw [hout, annotationText, annotationText]
  | some type, type', hout => by
    unfold optionRetold at hout
    split at hout
    next type' =>
      rw [annotationText, annotationText, (sameAnswers_of_retold h type type' hout).text]
    next => cases hout
termination_by structural type => type

end

/-! ### Parents -/

/-- Whether a parent of an interface is another one told again. -/
def parentRetold (s s' : Source) (parent parent' : Heritage) : Bool :=
  parent'.base.dottedName? == parent.base.dottedName? &&
    allRetold s s' parent.args parent'.args

theorem parentProperties_retold (h : a.Echoes b) {parent parent' : Heritage}
    (hout : parentRetold a.source b.source parent parent' = true) :
    parentProperties a parent = parentProperties b parent' := by
  unfold parentRetold at hout
  rw [Bool.and_eq_true, beq_iff_eq] at hout
  unfold parentProperties
  rw [hout.1]
  cases parent.base.dottedName? with
  | none => rfl
  | some name =>
    exact namedProperties_of_sameAnswers h name hout.2 (forall₂_of_retold h _ _ hout.2)

end

end ElementManifest.Expansion

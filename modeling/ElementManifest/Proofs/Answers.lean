import ElementManifest.Proofs.Openings
import Mathlib.Data.List.Basic

/-!
# Answers that agree

The properties, keys and text of a type are made from what the names in it have to
tell. So a type answers the same at two sites that answer the same to all that it opens:

> `answerOf_congr`: the same answers from the names make the same answer of the type.

An argument is read where it is written, with the scope that was around it. That the
parameters of a scope answer the same is an induction on the scope:

> `spotAt_matches`: an opener that answers like the one that cuts nothing makes the
> sites of a program answer like the uncut ones.

> `answer_open_congr`: so it does with symbols, once they are open.
-/

namespace ElementManifest.Expansion

open ElementManifest.TypeScript

/-! ## The same answers -/

/-- What a look at a type, an argument or a symbol has to tell. -/
inductive Answer
  | properties (shapes : List Shape)
  | keys (keys : List String)
  | text (text : Option String)

/-- What an argument answers. -/
def Meaning.answer (m : Meaning) : Look → Answer
  | .properties => .properties (m.properties ())
  | .keys => .keys (m.keys ())
  | .text => .text (some (m.text ()))

/-- What a symbol answers at a site. -/
def Site.answer (site : Site) (s : Symbol) (args : List TypeNode) : Look → Answer
  | .properties => .properties (site.properties s args)
  | .keys => .keys (site.keys s)
  | .text => .text (site.text s args)

/-- What an opener answers to a call. -/
def Opener.answer (o : Opener) (inside : OpenSymbols) (c : Call) : Answer :=
  match c.look with
  | .properties => .properties (o.properties inside c.symbol c.args)
  | .keys => .keys (o.keys inside c.symbol)
  | .text => .text (o.text inside c.symbol c.args)

/-- A site that answers like a spot, as far as what the spot opens is `good`. -/
structure Spot.Matches (a : Spot) (site : Site) (good : Call → Prop) : Prop where
  source : site.source = a.site.source
  lookup : site.lookup = a.site.lookup
  unbound : ∀ name, a.site.meaning name = none → site.meaning name = none
  bound : ∀ name m, a.site.meaning name = some m → ∃ m', site.meaning name = some m' ∧
    ∀ look, (∀ o ∈ a.parameter look name, good o.call) → m'.answer look = m.answer look
  symbol : ∀ look s args, (∀ o ∈ a.symbolOpenings look s args, good o.call) →
    site.answer s args look = a.site.answer s args look
  declared : ∀ s args, a.site.text s args = none → s.decls = []

namespace Spot.Matches

variable {a : Spot} {site : Site} {good : Call → Prop}

/-- A reference to a type parameter is one at both of them. -/
theorem parameter?_cases (h : a.Matches site good) (name : EntityName) (args : List TypeNode) :
    (a.site.parameter? name args = none ∧ site.parameter? name args = none) ∨
    ∃ m m', a.site.parameter? name args = some m ∧ site.parameter? name args = some m' ∧
      ∀ look, (∀ o ∈ a.parameter look name.text, good o.call) → m'.answer look = m.answer look := by
  cases name with
  | member left right => exact Or.inl ⟨rfl, rfl⟩
  | name text =>
    cases args with
    | cons arg args => exact Or.inl ⟨rfl, rfl⟩
    | nil =>
      cases hm : a.site.meaning text with
      | none => exact Or.inl ⟨hm, h.unbound text hm⟩
      | some m =>
        obtain ⟨m', hm', hsame⟩ := h.bound text m hm
        exact Or.inr ⟨m, m', hm, hm', hsame⟩

end Spot.Matches

section

variable {a : Spot} {site : Site} {good : Call → Prop}

/-! ### Keys -/

mutual

/-- A type lists the same keys at a site where all that it opens does. -/
theorem keysOf_congr (h : a.Matches site good) : ∀ t : TypeNode,
    (∀ o ∈ keyOpenings a t, good o.call) → keysOf site t = keysOf a.site t
  | .paren _ inner, hgood => by
    rw [keyOpenings] at hgood
    rw [keysOf, keysOf, keysOf_congr h inner hgood]
  | .union _ branches, hgood => by
    rw [keyOpenings] at hgood
    rw [keysOf, keysOf, keysOfAll_congr h branches hgood]
  | .reference _ name args, hgood => by
    rw [keyOpenings] at hgood
    rw [keysOf, keysOf, h.lookup]
    rcases h.parameter?_cases name args with ⟨hnone, hnone'⟩ | ⟨m, m', hm, hm', hsame⟩
    · rw [hnone] at hgood ⊢
      rw [hnone']
      dsimp only at hgood ⊢
      cases hs : a.site.lookup name.text with
      | none => rfl
      | some s =>
        rw [hs] at hgood
        exact Answer.keys.inj (h.symbol .keys s args hgood)
    · rw [hm] at hgood ⊢
      rw [hm']
      exact Answer.keys.inj (hsame .keys hgood)
  | .text .., _ => by rw [keysOf, keysOf]
  | .keyword .., _ | .truth .., _ | .object .., _ | .array .., _ | .tuple .., _
  | .intersection .., _ | .operator .., _ | .optional .., _ | .rest .., _ | .indexed .., _
  | .other .., _ => by rw [keysOf, keysOf] <;> simp

theorem keysOfAll_congr (h : a.Matches site good) : ∀ ts : List TypeNode,
    (∀ o ∈ keyOpeningsAll a ts, good o.call) → keysOfAll site ts = keysOfAll a.site ts
  | [], _ => rfl
  | t :: ts, hgood => by
    rw [keyOpeningsAll, List.forall_mem_append] at hgood
    rw [keysOfAll, keysOfAll, keysOf_congr h t hgood.1, keysOfAll_congr h ts hgood.2]

end

/-! ### Properties and texts -/

/-- A built-in type only makes something of the keys that it reads. -/
theorem Utility.apply_congr (u : Utility) (shapes : List Shape) {keys keys' : List String}
    (h : u.readsKeys = true → keys = keys') :
    u.apply shapes (some keys) = u.apply shapes (some keys') := by
  cases u with
  | pick => rw [h rfl]
  | leaveOut => rw [h rfl]
  | partialOf => rfl
  | requiredOf => rfl
  | readonlyOf => rfl

mutual

/-- A type has the same properties at a site where all that it opens has the same ones. -/
theorem propertiesOf_congr (h : a.Matches site good) : ∀ t : TypeNode,
    (∀ o ∈ propertyOpenings a t, good o.call) → propertiesOf site t = propertiesOf a.site t
  | .paren _ inner, hgood => by
    rw [propertyOpenings] at hgood
    rw [propertiesOf, propertiesOf, propertiesOf_congr h inner hgood]
  | .object _ members, hgood => by
    rw [propertyOpenings] at hgood
    rw [propertiesOf, propertiesOf, memberShapes_congr h members _ hgood]
  | .intersection _ branches, hgood => by
    rw [propertyOpenings] at hgood
    rw [propertiesOf, propertiesOf, branchProperties_congr h branches _ hgood]
  | .operator _ .readonly inner, hgood => by
    rw [propertyOpenings] at hgood
    rw [propertiesOf, propertiesOf, propertiesOf_congr h inner hgood]
  | .reference _ name args, hgood => by
    rw [propertyOpenings] at hgood
    rw [propertiesOf, propertiesOf, h.lookup]
    -- a parameter, a symbol and a built-in type are all told by what the name opens
    rcases h.parameter?_cases name args with ⟨hnone, hnone'⟩ | ⟨m, m', hm, hm', hsame⟩
    · rw [hnone] at hgood ⊢
      rw [hnone']
      dsimp only at hgood ⊢
      cases hs : a.site.lookup name.text with
      | none =>
        rw [hs] at hgood
        exact utilityProperties_congr h name.text args hgood
      | some s =>
        rw [hs] at hgood
        exact Answer.properties.inj (h.symbol .properties s args hgood)
    · rw [hm] at hgood ⊢
      rw [hm']
      exact Answer.properties.inj (hsame .properties hgood)
  | .text .., _ | .keyword .., _ | .truth .., _ | .array .., _ | .tuple .., _ | .union .., _
  | .operator _ .keyof _, _ | .operator _ .unique _, _ | .optional .., _ | .rest .., _
  | .indexed .., _ | .other .., _ => by rw [propertiesOf, propertiesOf] <;> simp

theorem branchProperties_congr (h : a.Matches site good) :
    ∀ (ts : List TypeNode) (shapes : List Shape), (∀ o ∈ propertyOpeningsAll a ts, good o.call) →
      branchProperties site shapes ts = branchProperties a.site shapes ts
  | [], _, _ => by rw [branchProperties, branchProperties]
  | t :: ts, shapes, hgood => by
    rw [propertyOpeningsAll, List.forall_mem_append] at hgood
    rw [branchProperties, branchProperties, propertiesOf_congr h t hgood.1,
      branchProperties_congr h ts _ hgood.2]

theorem utilityProperties_congr (h : a.Matches site good) (name : String) :
    ∀ ts : List TypeNode, (∀ o ∈ utilityOpenings a name ts, good o.call) →
      utilityProperties site name ts = utilityProperties a.site name ts
  | [], _ => by rw [utilityProperties, utilityProperties]
  | [target], hgood => by
    rw [utilityOpenings] at hgood
    rw [utilityProperties, utilityProperties]
    cases hu : Utility.ofName? name with
    | none => rfl
    | some u =>
      rw [hu] at hgood
      dsimp only at hgood ⊢
      rw [propertiesOf_congr h target hgood]
  | target :: keys :: _, hgood => by
    rw [utilityOpenings] at hgood
    rw [utilityProperties, utilityProperties]
    cases hu : Utility.ofName? name with
    | none => rfl
    | some u =>
      rw [hu] at hgood
      dsimp only at hgood ⊢
      rw [List.forall_mem_append] at hgood
      rw [propertiesOf_congr h target hgood.1]
      refine u.apply_congr _ ?_
      intro hreads
      rw [if_pos hreads] at hgood
      exact keysOf_congr h keys hgood.2

theorem memberShapes_congr (h : a.Matches site good) : ∀ (ms : List Member) (place : Nat),
    (∀ o ∈ memberOpenings a ms, good o.call) →
      memberShapes site place ms = memberShapes a.site place ms
  | [], _, _ => by rw [memberShapes, memberShapes]
  | .property (.mk span key computed optional type) :: ms, place, hgood => by
    rw [memberOpenings, List.forall_mem_append] at hgood
    rw [memberShapes, memberShapes, memberShapes_congr h ms span.hi hgood.2, h.source]
    cases hname : (Property.mk span key computed optional type).name? with
    | none => rfl
    | some name =>
      rw [hname, if_pos Option.isSome_some] at hgood
      dsimp only [Option.map_some]
      rw [annotationText_congr h type hgood.1]
  | .other span _ :: ms, place, hgood => by
    rw [memberOpenings] at hgood
    rw [memberShapes, memberShapes, memberShapes_congr h ms span.hi hgood]

theorem annotationText_congr (h : a.Matches site good) : ∀ type : Option TypeNode,
    (∀ o ∈ annotationOpenings a type, good o.call) →
      annotationText site type = annotationText a.site type
  | none, _ => by rw [annotationText, annotationText]
  | some type, hgood => by
    rw [annotationOpenings] at hgood
    rw [annotationText, annotationText, textOf_congr h type hgood]

/-- A type has the same text at a site where all that it opens answers the same. -/
theorem textOf_congr (h : a.Matches site good) : ∀ t : TypeNode,
    (∀ o ∈ textOpenings a t, good o.call) → textOf site t = textOf a.site t
  | .reference _ name args, hgood => by
    rw [textOpenings] at hgood
    rw [textOf, textOf, h.lookup]
    rcases h.parameter?_cases name args with ⟨hnone, hnone'⟩ | ⟨m, m', hm, hm', hsame⟩
    · rw [hnone] at hgood ⊢
      rw [hnone']
      dsimp only at hgood ⊢
      cases hs : a.site.lookup name.text with
      | none =>
        rw [hs] at hgood
        dsimp only [Option.bind_none]
        rw [textsOf_congr h args hgood]
      | some s =>
        rw [hs] at hgood
        dsimp only [Option.bind_some] at hgood ⊢
        rw [List.forall_mem_append] at hgood
        rw [Answer.text.inj (h.symbol .text s args hgood.1)]
        -- a name that has no text of its own stays, and then its arguments are written out
        cases htext : a.site.text s args with
        | some text => rfl
        | none =>
          rw [h.declared s args htext, List.isEmpty_nil, if_pos rfl] at hgood
          dsimp only
          rw [textsOf_congr h args hgood.2]
    · rw [hm] at hgood ⊢
      rw [hm']
      exact Option.some.inj (Answer.text.inj (hsame .text hgood))
  | .object _ members, hgood => by
    rw [textOpenings] at hgood
    rw [textOf, textOf, memberShapes_congr h members _ hgood, h.source]
  | .array _ elem, hgood => by
    rw [textOpenings] at hgood
    rw [textOf, textOf, textOf_congr h elem hgood]
  | .tuple _ elems, hgood => by
    rw [textOpenings] at hgood
    rw [textOf, textOf, elementTexts_congr h elems hgood]
  | .union _ branches, hgood => by
    rw [textOpenings] at hgood
    rw [textOf, textOf, textsOf_congr h branches hgood]
  | .intersection _ branches, hgood => by
    rw [textOpenings] at hgood
    rw [textOf, textOf, textsOf_congr h branches hgood]
  | .paren _ inner, hgood => by
    rw [textOpenings] at hgood
    rw [textOf, textOf, textOf_congr h inner hgood]
  | .operator _ op inner, hgood => by
    rw [textOpenings] at hgood
    rw [textOf, textOf, textOf_congr h inner hgood]
  | .optional _ inner, hgood => by
    rw [textOpenings] at hgood
    rw [textOf, textOf, textOf_congr h inner hgood]
  | .rest _ inner, hgood => by
    rw [textOpenings] at hgood
    rw [textOf, textOf, textOf_congr h inner hgood]
  | .indexed span object index, hgood => by
    rw [textOpenings, List.forall_mem_append] at hgood
    rw [textOf, textOf, keysOf_congr h index hgood.1, h.source]
    by_cases hkeys : (keysOf a.site index).isEmpty = true
    · rw [if_pos hkeys, if_pos hkeys]
    · rw [if_neg hkeys] at hgood
      rw [propertiesOf_congr h object hgood.2]
  | .text _ none, _ | .text _ (some _), _ | .keyword .., _ | .truth .., _ | .other .., _ => by
    rw [textOf, textOf] <;> simp only [h.source]

theorem textsOf_congr (h : a.Matches site good) : ∀ ts : List TypeNode,
    (∀ o ∈ textOpeningsAll a ts, good o.call) → textsOf site ts = textsOf a.site ts
  | [], _ => by rw [textsOf, textsOf]
  | t :: ts, hgood => by
    rw [textOpeningsAll, List.forall_mem_append] at hgood
    rw [textsOf, textsOf, textOf_congr h t hgood.1, textsOf_congr h ts hgood.2]

theorem elementTexts_congr (h : a.Matches site good) : ∀ es : List TupleElem,
    (∀ o ∈ elementOpenings a es, good o.call) → elementTexts site es = elementTexts a.site es
  | [], _ => by rw [elementTexts, elementTexts]
  | .mk label type :: es, hgood => by
    rw [elementOpenings, List.forall_mem_append] at hgood
    cases label with
    | none =>
      rw [elementTexts, elementTexts, textOf_congr h type hgood.1,
        elementTexts_congr h es hgood.2]
    | some name =>
      rw [elementTexts, elementTexts, textOf_congr h type hgood.1,
        elementTexts_congr h es hgood.2]

end

end

/-! ## Spots in a scope -/

/-- What a type answers. -/
def answerOf (site : Site) (t : TypeNode) : Look → Answer
  | .properties => .properties (propertiesOf site t)
  | .keys => .keys (keysOf site t)
  | .text => .text (some (textOf site t))

/-- A type answers the same at a site where all that it opens does. -/
theorem answerOf_congr {a : Spot} {site : Site} {good : Call → Prop} (h : a.Matches site good)
    (t : TypeNode) (look : Look) (hgood : ∀ o ∈ openingsOf a look t, good o.call) :
    answerOf site t look = answerOf a.site t look := by
  cases look with
  | properties => exact congrArg Answer.properties (propertiesOf_congr h t hgood)
  | keys => exact congrArg Answer.keys (keysOf_congr h t hgood)
  | text => exact congrArg (Answer.text ∘ some) (textOf_congr h t hgood)

/-- An opener that has nothing to tell of symbols that are not opened. -/
structure Opener.Plain (o : Opener) : Prop where
  keys : ∀ inside s, opensFor .keys s.decls = false → o.keys inside s = []
  text : ∀ inside s args, opensFor .text s.decls = false → o.text inside s args = none

theorem openKeys_of_not_opensFor {p : Program} {o : Opener} {inside : OpenSymbols} {s : Symbol}
    (h : opensFor .keys s.decls = false) : openKeys p o inside s = [] := by
  unfold openKeys
  split
  next d _ hdecls =>
    rw [hdecls] at h
    cases h
  next => rfl

theorem openText_of_not_opensFor {p : Program} {o : Opener} {inside : OpenSymbols} {s : Symbol}
    {args : Arguments} (h : opensFor .text s.decls = false) :
    openText p o inside s args = none := by
  unfold openText
  split
  next d _ hdecls =>
    rw [hdecls] at h
    cases h
  next d _ hdecls =>
    rw [hdecls] at h
    cases h
  next => rfl

theorem plain_openerWith (p : Program) (room : Nat) : (openerWith p room).Plain := by
  cases room with
  | zero => exact ⟨fun _ _ _ => rfl, fun _ _ _ _ => rfl⟩
  | succ room =>
    constructor
    · intro inside s h
      show (inside.enter? s).elim [] _ = []
      cases inside.enter? s with
      | none => rfl
      | some inside' => exact openKeys_of_not_opensFor h
    · intro inside s args h
      show (inside.enter? s).bind _ = none
      cases inside.enter? s with
      | none => rfl
      | some inside' => exact openText_of_not_opensFor h

theorem plain_uncutWith (p : Program) (room : Nat) : (uncutWith p room).Plain := by
  cases room with
  | zero => exact ⟨fun _ _ _ => rfl, fun _ _ _ _ => rfl⟩
  | succ room =>
    exact ⟨fun _ _ h => openKeys_of_not_opensFor h, fun _ _ _ h => openText_of_not_opensFor h⟩

/-- With room, only a symbol without declarations stays as it is written. -/
theorem decls_eq_nil_of_text_uncutWith {p : Program} {room : Nat} {s : Symbol}
    {args : Arguments} (h : (uncutWith p (room + 1)).text .none s args = none) :
    s.decls = [] := by
  have hopen : openText p (uncutWith p room) .none s args = none := h
  unfold openText at hopen
  split at hopen
  next => cases hopen
  next => cases hopen
  next hdecls => exact hdecls

section

variable {p : Program} {o : Opener} {inside : OpenSymbols}

/-- Whether an opener answers a call like the one that cuts nothing. -/
def Opener.Uncut (p : Program) (o : Opener) (inside : OpenSymbols) (c : Call) : Prop :=
  o.answer inside c = (uncutWith p maxDepth).answer .none c

/-- A symbol answers the same at a site if the opener does. -/
theorem answer_siteAt (ho : o.Plain) (file : Nat) (scope : Scope) (look : Look) (s : Symbol)
    (args : List TypeNode)
    (h : ∀ x ∈ (spotAt p file scope).symbolOpenings look s args, o.Uncut p inside x.call) :
    (siteAt p o inside file scope).answer s args look =
      (spotAt p file scope).site.answer s args look := by
  unfold Spot.symbolOpenings at h
  by_cases hopens : opensFor look s.decls = true
  · rw [if_pos hopens] at h
    have hcall := h _ (List.mem_singleton.mpr rfl)
    cases look with
    | properties => exact hcall
    | keys => exact hcall
    | text => exact hcall
  · -- what is not opened has nothing to tell on either side
    have hclosed : opensFor look s.decls = false := Bool.not_eq_true _ ▸ hopens
    have huncut := plain_uncutWith p maxDepth
    cases look with
    | properties => cases hclosed
    | keys =>
      have hkeys := (ho.keys inside s hclosed).trans (huncut.keys .none s hclosed).symm
      exact congrArg Answer.keys hkeys
    | text =>
      have htext := (ho.text inside s ⟨file, scope, args⟩ hclosed).trans
        (huncut.text .none s ⟨file, scope, args⟩ hclosed).symm
      exact congrArg Answer.text htext

/-- The type parameters of a scope answer the same if the opener does for all that their
arguments open. -/
def ScopeMatches (p : Program) (o : Opener) (inside : OpenSymbols) (scope : Scope) : Prop :=
  ∀ name,
    (meaningIn p (uncutWith p maxDepth) .none scope name = none →
      meaningIn p o inside scope name = none) ∧
    ∀ m, meaningIn p (uncutWith p maxDepth) .none scope name = some m →
      ∃ m', meaningIn p o inside scope name = some m' ∧
        ∀ look, (∀ x ∈ openingsIn p scope look name, o.Uncut p inside x.call) →
          m'.answer look = m.answer look

theorem ScopeMatches.matches {scope : Scope} (h : ScopeMatches p o inside scope) (ho : o.Plain)
    (file : Nat) :
    (spotAt p file scope).Matches (siteAt p o inside file scope) (o.Uncut p inside) where
  source := rfl
  lookup := rfl
  unbound name := (h name).1
  bound name := (h name).2
  symbol look s args := answer_siteAt ho file scope look s args
  declared _ _ htext := decls_eq_nil_of_text_uncutWith htext

theorem scopeMatches (ho : o.Plain) (scope : Scope) : ScopeMatches p o inside scope := by
  induction scope with
  | empty =>
    intro name
    exact ⟨fun _ => rfl, nofun⟩
  | bind param file type around rest iharound ihrest =>
    intro name
    by_cases hparam : (param == name) = true
    · -- the argument stands in the scope around it, and that is a smaller one
      have hspot := iharound.matches ho file
      unfold meaningIn
      rw [if_pos hparam, if_pos hparam]
      refine ⟨nofun, ?_⟩
      intro m hm
      cases hm
      refine ⟨_, rfl, ?_⟩
      intro look hgood
      unfold openingsIn at hgood
      rw [if_pos hparam] at hgood
      have hsame := answerOf_congr hspot type look fun x hx =>
        hgood x.asArgument (List.mem_map_of_mem hx)
      cases look with
      | properties => exact hsame
      | keys => exact hsame
      | text => exact hsame
    · unfold meaningIn openingsIn
      rw [if_neg hparam, if_neg hparam]
      simp only [if_neg hparam]
      exact ihrest name

theorem spotAt_matches (ho : o.Plain) (file : Nat) (scope : Scope) :
    (spotAt p file scope).Matches (siteAt p o inside file scope) (o.Uncut p inside) :=
  (scopeMatches ho scope).matches ho file

end

/-! ## Open symbols -/

/-- The opener that opens every symbol and leaves what is inside to another one. -/
def openWith (p : Program) (deeper : Opener) (inside : OpenSymbols) : Opener where
  properties _ symbol args := openProperties p deeper inside symbol args
  keys _ symbol := openKeys p deeper inside symbol
  text _ symbol args := openText p deeper inside symbol args

section

variable {p : Program} {o : Opener} {inside : OpenSymbols}

/-- The parents of an interface have the same properties at a site that matches. -/
theorem parentProperties_congr {a : Spot} {site : Site} {good : Call → Prop}
    (h : a.Matches site good) (parent : Heritage)
    (hgood : ∀ x ∈ parentOpenings a parent, good x.call) :
    parentProperties site parent = parentProperties a.site parent := by
  unfold parentOpenings at hgood
  unfold parentProperties namedProperties
  cases hname : parent.base.dottedName? with
  | none => rfl
  | some name =>
    rw [hname] at hgood
    dsimp only at hgood ⊢
    rw [h.lookup]
    cases hs : a.site.lookup name with
    | some s =>
      rw [hs] at hgood
      exact Answer.properties.inj (h.symbol .properties s parent.args hgood)
    | none =>
      rw [hs] at hgood
      exact utilityProperties_congr h name parent.args hgood

/-- A declaration has the same properties if all that it opens answers the same. -/
theorem declProperties_congr (ho : o.Plain) (file : Nat) (args : Arguments) (d : TypeDecl)
    (hgood : ∀ x ∈ declOpenings p file args d, o.Uncut p inside x.call) :
    declProperties p o inside file args d =
      declProperties p (uncutWith p maxDepth) .none file args d := by
  cases d with
  | interface d =>
    unfold declOpenings at hgood
    rw [List.forall_mem_append] at hgood
    have hspot : (bodySpot p file d.params args).Matches
        (bodySite p o inside file d.params args) (o.Uncut p inside) :=
      spotAt_matches ho file (bindParams file .empty d.params args)
    have hmembers := memberShapes_congr hspot d.members d.bodyStart hgood.1
    have hparents : ∀ parent ∈ d.parents,
        parentProperties (bodySite p o inside file d.params args) parent =
          parentProperties (bodySite p (uncutWith p maxDepth) .none file d.params args) parent := by
      intro parent hparent
      refine parentProperties_congr hspot parent ?_
      intro x hx
      exact hgood.2 x (List.mem_flatMap.mpr ⟨parent, hparent, hx⟩)
    show memberShapes _ d.bodyStart d.members ++ d.parents.flatMap _ = _
    rw [List.flatMap_congr hparents]
    exact congrArg (· ++ _) hmembers
  | typeAlias d => exact propertiesOf_congr (spotAt_matches ho file _) d.type hgood

theorem openProperties_congr (ho : o.Plain) (symbol : Symbol) (args : Arguments)
    (hgood : ∀ x ∈ symbol.decls.flatMap (declOpenings p symbol.file args),
      o.Uncut p inside x.call) :
    openProperties p o inside symbol args =
      openProperties p (uncutWith p maxDepth) .none symbol args := by
  have hdecls : ∀ d ∈ symbol.decls, declProperties p o inside symbol.file args d =
      declProperties p (uncutWith p maxDepth) .none symbol.file args d := by
    intro d hd
    refine declProperties_congr ho symbol.file args d ?_
    intro x hx
    exact hgood x (List.mem_flatMap.mpr ⟨d, hd, hx⟩)
  unfold openProperties
  rw [List.flatMap_congr hdecls]

/-- An open symbol answers the same if all that it opens does. -/
theorem answer_open_congr (ho : o.Plain) (c : Call)
    (hgood : ∀ x ∈ c.openings p, o.Uncut p inside x.call) :
    (openWith p o inside).answer .none c =
      (openWith p (uncutWith p maxDepth) .none).answer .none c := by
  obtain ⟨look, symbol, args⟩ := c
  unfold Call.openings at hgood
  cases look with
  | properties => exact congrArg Answer.properties (openProperties_congr ho symbol args hgood)
  | keys =>
    refine congrArg Answer.keys ?_
    unfold openWith openKeys
    dsimp only at hgood ⊢
    cases hdecls : symbol.decls with
    | nil => rfl
    | cons d ds =>
      rw [hdecls] at hgood
      cases d with
      | typeAlias d => exact keysOf_congr (spotAt_matches ho symbol.file .empty) d.type hgood
      | interface d => rfl
  | text =>
    refine congrArg Answer.text ?_
    unfold openWith openText
    dsimp only at hgood ⊢
    cases hdecls : symbol.decls with
    | nil => rfl
    | cons d ds =>
      rw [hdecls] at hgood
      cases d with
      | typeAlias d =>
        exact congrArg some (textOf_congr (spotAt_matches ho symbol.file _) d.type hgood)
      | interface d =>
        dsimp only at hgood ⊢
        rw [← hdecls] at hgood
        rw [openProperties_congr ho symbol args hgood]

end

end ElementManifest.Expansion

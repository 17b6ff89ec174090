import ElementManifest.Proofs.Openings

/-!
# The graph of declarations

A declaration mentions those that are named in its body, in its `extends` clauses and in
the arguments there. What an expansion opens while a declaration is open is mentioned by
that declaration, or stands in an argument:

> `mentions_of_written`: what a call opens, other than by way of an argument, is
> mentioned by the declarations that the call has opened.
-/

namespace ElementManifest.Expansion

open ElementManifest.TypeScript

/-! ## Names in types -/

mutual

/-- The dotted names in a type. What is only kept as a stretch of text has none. -/
def namesIn : TypeNode → List String
  | .reference _ name args => name.text :: namesInAll args
  | .object _ members => namesInMembers members
  | .array _ elem => namesIn elem
  | .tuple _ elems => namesInElems elems
  | .union _ branches => namesInAll branches
  | .intersection _ branches => namesInAll branches
  | .paren _ inner => namesIn inner
  | .operator _ _ inner => namesIn inner
  | .optional _ inner => namesIn inner
  | .rest _ inner => namesIn inner
  | .indexed _ object index => namesIn index ++ namesIn object
  | _ => []

/-- The dotted names in types. -/
def namesInAll : List TypeNode → List String
  | [] => []
  | t :: ts => namesIn t ++ namesInAll ts

/-- The dotted names in the elements of a tuple. -/
def namesInElems : List TupleElem → List String
  | [] => []
  | .mk _ type :: es => namesIn type ++ namesInElems es

/-- The dotted names in the types of properties. -/
def namesInMembers : List Member → List String
  | [] => []
  | .property (.mk _ _ _ _ type) :: ms => namesInOptional type ++ namesInMembers ms
  | .other _ _ :: ms => namesInMembers ms

/-- The dotted names in the type of a property. -/
def namesInOptional : Option TypeNode → List String
  | some type => namesIn type
  | none => []

end

/-- The dotted names of the parent of an interface, with those in its arguments. -/
def namesInParent (parent : Heritage) : List String :=
  parent.base.dottedName?.toList ++ namesInAll parent.args

/-- The dotted names in the body and the `extends` clauses of a declaration. -/
def namesInDecl : TypeDecl → List String
  | .interface d => namesInMembers d.members ++ d.parents.flatMap namesInParent
  | .typeAlias d => namesIn d.type

/-- A symbol mentions another one: one of its declarations names it. -/
def Mentions (p : Program) (s s' : Symbol) : Prop :=
  ∃ d ∈ s.decls, ∃ name ∈ namesInDecl d, p.lookup s.file name = some s'

/-! ## Written openings are names -/

/-- An opening that is written at a spot is among some names there. -/
def Spot.Names (a : Spot) (ns : List String) (o : Opening) : Prop :=
  o.way = .written → ∃ n ∈ ns, a.site.lookup n = some o.call.symbol

theorem Spot.Names.mono {a : Spot} {ns ns' : List String} {o : Opening} (h : a.Names ns o)
    (hsub : ns ⊆ ns') : a.Names ns' o := by
  intro hway
  obtain ⟨n, hn, hs⟩ := h hway
  exact ⟨n, hsub hn, hs⟩

theorem names_symbolOpenings {a : Spot} {look : Look} {s : Symbol} {args : List TypeNode}
    {n : String} (hs : a.site.lookup n = some s) :
    ∀ o ∈ a.symbolOpenings look s args, a.Names [n] o := by
  intro o ho _
  unfold Spot.symbolOpenings at ho
  split at ho
  next =>
    obtain rfl := List.mem_singleton.mp ho
    exact ⟨n, List.mem_singleton.mpr rfl, hs⟩
  next => cases ho

/-- The arguments of type parameters are no openings of the spot itself. -/
def Spot.ArgumentsApart (a : Spot) : Prop :=
  ∀ look name, ∀ o ∈ a.parameter look name, o.way = .argument

section

variable {a : Spot}

theorem Spot.ArgumentsApart.names (h : a.ArgumentsApart) (look : Look) (name : String)
    (ns : List String) : ∀ o ∈ a.parameter look name, a.Names ns o := by
  intro o ho hway
  rw [h look name o ho] at hway
  cases hway

/-- What holds of the openings of two parts holds of those of both. -/
theorem names_append {os os' : List Opening} {ns ns' : List String}
    (h : ∀ o ∈ os, a.Names ns o) (h' : ∀ o ∈ os', a.Names ns' o) :
    ∀ o ∈ os ++ os', a.Names (ns ++ ns') o := by
  intro o ho
  rcases List.mem_append.mp ho with ho | ho
  · exact (h o ho).mono (List.subset_append_left ns ns')
  · exact (h' o ho).mono (List.subset_append_right ns ns')

mutual

theorem names_keyOpenings (h : a.ArgumentsApart) : ∀ t : TypeNode,
    ∀ o ∈ keyOpenings a t, a.Names (namesIn t) o
  | .paren _ inner => by
    rw [keyOpenings, namesIn]
    exact names_keyOpenings h inner
  | .union _ branches => by
    rw [keyOpenings, namesIn]
    exact names_keyOpeningsAll h branches
  | .reference _ name args => by
    rw [keyOpenings, namesIn]
    cases a.site.parameter? name args with
    | some m => exact h.names .keys name.text _
    | none =>
      cases hs : a.site.lookup name.text with
      | none => exact nofun
      | some s =>
        intro o ho
        exact (names_symbolOpenings hs o ho).mono (by simp)
  | .text .. | .keyword .. | .truth .. | .object .. | .array .. | .tuple .. | .intersection ..
  | .operator .. | .optional .. | .rest .. | .indexed .. | .other .. => by
    rw [keyOpenings] <;> simp

theorem names_keyOpeningsAll (h : a.ArgumentsApart) : ∀ ts : List TypeNode,
    ∀ o ∈ keyOpeningsAll a ts, a.Names (namesInAll ts) o
  | [] => by
    rw [keyOpeningsAll]
    exact nofun
  | t :: ts => by
    rw [keyOpeningsAll, namesInAll]
    exact names_append (names_keyOpenings h t) (names_keyOpeningsAll h ts)

end

mutual

theorem names_propertyOpenings (h : a.ArgumentsApart) : ∀ t : TypeNode,
    ∀ o ∈ propertyOpenings a t, a.Names (namesIn t) o
  | .paren _ inner => by
    rw [propertyOpenings, namesIn]
    exact names_propertyOpenings h inner
  | .object _ members => by
    rw [propertyOpenings, namesIn]
    exact names_memberOpenings h members
  | .intersection _ branches => by
    rw [propertyOpenings, namesIn]
    exact names_propertyOpeningsAll h branches
  | .operator _ .readonly inner => by
    rw [propertyOpenings, namesIn]
    exact names_propertyOpenings h inner
  | .reference _ name args => by
    rw [propertyOpenings, namesIn]
    cases a.site.parameter? name args with
    | some m => exact h.names .properties name.text _
    | none =>
      cases hs : a.site.lookup name.text with
      | none =>
        intro o ho
        exact (names_utilityOpenings h name.text args o ho).mono (List.subset_cons_self _ _)
      | some s =>
        intro o ho
        exact (names_symbolOpenings hs o ho).mono (by simp)
  | .text .. | .keyword .. | .truth .. | .array .. | .tuple .. | .union .. | .operator _ .keyof _
  | .operator _ .unique _ | .optional .. | .rest .. | .indexed .. | .other .. => by
    rw [propertyOpenings] <;> simp

theorem names_propertyOpeningsAll (h : a.ArgumentsApart) : ∀ ts : List TypeNode,
    ∀ o ∈ propertyOpeningsAll a ts, a.Names (namesInAll ts) o
  | [] => by
    rw [propertyOpeningsAll]
    exact nofun
  | t :: ts => by
    rw [propertyOpeningsAll, namesInAll]
    exact names_append (names_propertyOpenings h t) (names_propertyOpeningsAll h ts)

theorem names_utilityOpenings (h : a.ArgumentsApart) (name : String) : ∀ ts : List TypeNode,
    ∀ o ∈ utilityOpenings a name ts, a.Names (namesInAll ts) o
  | [] => by
    rw [utilityOpenings]
    exact nofun
  | [target] => by
    rw [utilityOpenings, namesInAll, namesInAll, List.append_nil]
    cases Utility.ofName? name with
    | none => exact nofun
    | some u => exact names_propertyOpenings h target
  | target :: keys :: others => by
    rw [utilityOpenings, namesInAll, namesInAll]
    cases Utility.ofName? name with
    | none => exact nofun
    | some u =>
      refine names_append (names_propertyOpenings h target) ?_
      split
      next =>
        intro o ho
        exact (names_keyOpenings h keys o ho).mono (List.subset_append_left _ _)
      next => exact nofun

theorem names_memberOpenings (h : a.ArgumentsApart) : ∀ ms : List Member,
    ∀ o ∈ memberOpenings a ms, a.Names (namesInMembers ms) o
  | [] => by
    rw [memberOpenings]
    exact nofun
  | .property (.mk span key computed optional type) :: ms => by
    rw [memberOpenings, namesInMembers]
    refine names_append ?_ (names_memberOpenings h ms)
    split
    next => exact names_annotationOpenings h type
    next => exact nofun
  | .other _ _ :: ms => by
    rw [memberOpenings, namesInMembers]
    exact names_memberOpenings h ms

theorem names_annotationOpenings (h : a.ArgumentsApart) : ∀ type : Option TypeNode,
    ∀ o ∈ annotationOpenings a type, a.Names (namesInOptional type) o
  | none => by
    rw [annotationOpenings]
    exact nofun
  | some type => by
    rw [annotationOpenings, namesInOptional]
    exact names_textOpenings h type

theorem names_textOpenings (h : a.ArgumentsApart) : ∀ t : TypeNode,
    ∀ o ∈ textOpenings a t, a.Names (namesIn t) o
  | .reference _ name args => by
    rw [textOpenings, namesIn]
    cases a.site.parameter? name args with
    | some m => exact h.names .text name.text _
    | none =>
      cases hs : a.site.lookup name.text with
      | none =>
        intro o ho
        exact (names_textOpeningsAll h args o ho).mono (List.subset_cons_self _ _)
      | some s =>
        -- the arguments are opened only where the symbol has no text of its own
        have hname : ∀ o ∈ a.symbolOpenings .text s args, a.Names [name.text] o :=
          names_symbolOpenings hs
        refine names_append hname ?_
        split
        next => exact names_textOpeningsAll h args
        next => exact nofun
  | .object _ members => by
    rw [textOpenings, namesIn]
    exact names_memberOpenings h members
  | .array _ elem => by
    rw [textOpenings, namesIn]
    exact names_textOpenings h elem
  | .tuple _ elems => by
    rw [textOpenings, namesIn]
    exact names_elementOpenings h elems
  | .union _ branches => by
    rw [textOpenings, namesIn]
    exact names_textOpeningsAll h branches
  | .intersection _ branches => by
    rw [textOpenings, namesIn]
    exact names_textOpeningsAll h branches
  | .paren _ inner => by
    rw [textOpenings, namesIn]
    exact names_textOpenings h inner
  | .operator _ _ inner => by
    rw [textOpenings, namesIn]
    exact names_textOpenings h inner
  | .optional _ inner => by
    rw [textOpenings, namesIn]
    exact names_textOpenings h inner
  | .rest _ inner => by
    rw [textOpenings, namesIn]
    exact names_textOpenings h inner
  | .indexed _ object index => by
    rw [textOpenings, namesIn]
    refine names_append (names_keyOpenings h index) ?_
    split
    next => exact nofun
    next => exact names_propertyOpenings h object
  | .text .. | .keyword .. | .truth .. | .other .. => by
    rw [textOpenings] <;> simp

theorem names_textOpeningsAll (h : a.ArgumentsApart) : ∀ ts : List TypeNode,
    ∀ o ∈ textOpeningsAll a ts, a.Names (namesInAll ts) o
  | [] => by
    rw [textOpeningsAll]
    exact nofun
  | t :: ts => by
    rw [textOpeningsAll, namesInAll]
    exact names_append (names_textOpenings h t) (names_textOpeningsAll h ts)

theorem names_elementOpenings (h : a.ArgumentsApart) : ∀ es : List TupleElem,
    ∀ o ∈ elementOpenings a es, a.Names (namesInElems es) o
  | [] => by
    rw [elementOpenings]
    exact nofun
  | .mk _ type :: es => by
    rw [elementOpenings, namesInElems]
    exact names_append (names_textOpenings h type) (names_elementOpenings h es)

end

end

/-! ## Declarations and calls -/

section

variable (p : Program)

theorem argumentsApart_spotAt (file : Nat) (scope : Scope) :
    (spotAt p file scope).ArgumentsApart := by
  intro look name o ho
  change o ∈ openingsIn p scope look name at ho
  induction scope with
  | empty => cases ho
  | bind param argFile type around rest _ ihrest =>
    unfold openingsIn at ho
    split at ho
    next =>
      obtain ⟨x, _, rfl⟩ := List.mem_map.mp ho
      rfl
    next => exact ihrest ho

theorem names_parentOpenings {a : Spot} (h : a.ArgumentsApart) (parent : Heritage) :
    ∀ o ∈ parentOpenings a parent, a.Names (namesInParent parent) o := by
  unfold parentOpenings namesInParent
  cases parent.base.dottedName? with
  | none => exact nofun
  | some name =>
    dsimp only
    cases hs : a.site.lookup name with
    | none =>
      intro o ho
      exact (names_utilityOpenings h name parent.args o ho).mono (List.subset_append_right _ _)
    | some s =>
      intro o ho
      exact (names_symbolOpenings hs o ho).mono (List.subset_append_left _ _)

/-- What a declaration opens, other than by way of an argument, is named in it. -/
theorem names_declOpenings {file : Nat} {args : Arguments} {d : TypeDecl} {o : Opening}
    (ho : o ∈ declOpenings p file args d) (hway : o.way = .written) :
    ∃ name ∈ namesInDecl d, p.lookup file name = some o.call.symbol := by
  cases d with
  | typeAlias d =>
    exact names_propertyOpenings (argumentsApart_spotAt p file _) d.type o ho hway
  | interface d =>
    have happart := argumentsApart_spotAt p file (bindParams file .empty d.params args)
    have hparents : ∀ x ∈ d.parents.flatMap (parentOpenings (bodySpot p file d.params args)),
        (bodySpot p file d.params args).Names (d.parents.flatMap namesInParent) x := by
      intro x hx
      obtain ⟨parent, hparent, hx⟩ := List.mem_flatMap.mp hx
      refine (names_parentOpenings happart parent x hx).mono ?_
      intro n hn
      exact List.mem_flatMap.mpr ⟨parent, hparent, hn⟩
    exact names_append (names_memberOpenings happart d.members) hparents o ho hway

/-- What a call opens, other than by way of an argument, is mentioned by its symbol. -/
theorem mentions_of_written {c : Call} {o : Opening} (ho : o ∈ c.openings p)
    (hway : o.way = .written) : Mentions p c.symbol o.call.symbol := by
  have hdecls : o ∈ c.symbol.decls.flatMap (declOpenings p c.symbol.file c.args) →
      Mentions p c.symbol o.call.symbol := by
    intro hmem
    obtain ⟨d, hd, hx⟩ := List.mem_flatMap.mp hmem
    exact ⟨d, hd, names_declOpenings p hx hway⟩
  unfold Call.openings at ho
  split at ho
  next => exact hdecls ho
  next =>
    split at ho
    next d ds heq =>
      have hspot := argumentsApart_spotAt p c.symbol.file .empty
      exact ⟨.typeAlias d, by simp [heq], names_keyOpenings hspot d.type o ho hway⟩
    next => cases ho
  next =>
    split at ho
    next d ds heq =>
      have hspot := argumentsApart_spotAt p c.symbol.file
        (bindParams c.symbol.file .empty d.params c.args)
      exact ⟨.typeAlias d, by simp [heq], names_textOpenings hspot d.type o ho hway⟩
    next => exact hdecls ho
    next => cases ho

end

end ElementManifest.Expansion

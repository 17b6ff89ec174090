import ElementManifest.Proofs.GenericInstances
import ElementManifest.Proofs.Retellings
import ElementManifest.Proofs.Searches
import ElementManifest.Proofs.StackDiscipline

/-!
# Interfaces and aliases of object types

An interface without parents and an alias of the same object type are compared in two programs
that are otherwise the same, wherever their declarations stand in the files (`Interchanged`).

> `lookup_retold`: every name leads to the same symbol in both.

> `openers_agree`: symbols answer the same as far as the members that are no properties do
> not show: while the interface is open itself, or if it has no such members.

So the interface and the alias have the same properties. A reference to the interface does not
show its methods, signatures and accessors, and one to the alias does (`interface_or_alias`).
-/

namespace ElementManifest.Expansion

open ElementManifest.TypeScript

/-! ## Declarations that are told again -/

/-- Lists that are compared one by one are related one by one. -/
theorem forall₂_of_isEqv {α : Type} {r : α → α → Bool} : ∀ {xs ys : List α},
    xs.isEqv ys r = true → List.Forall₂ (fun x y => r x y = true) xs ys
  | [], [], _ => .nil
  | [], _ :: _, h => by cases h
  | _ :: _, [], h => by cases h
  | x :: xs, y :: ys, h => by
    rw [List.isEqv, Bool.and_eq_true] at h
    exact .cons h.1 (forall₂_of_isEqv h.2)

section

variable (s s' : Source)

/-- Whether a type parameter is another one told again. Bounds are not looked at. -/
def paramRetold (param param' : TypeParam) : Bool :=
  param'.name == param.name && optionRetold s s' param.default param'.default

/-- Whether a declaration is another one of the same kind told again. -/
def declRetold : TypeDecl → TypeDecl → Bool
  | .interface d, .interface d' =>
    d.params.isEqv d'.params (paramRetold s s') &&
      membersRetold s s' d.bodyStart d'.bodyStart d.members d'.members &&
      d.parents.isEqv d'.parents (parentRetold s s')
  | .typeAlias d, .typeAlias d' =>
    d.params.isEqv d'.params (paramRetold s s') && retold s s' d.type d'.type
  | _, _ => false

/-- Whether the first list is an interface without parents, and the second one an alias with
the same parameters whose type is an object with the same body. -/
def isAliasFor : List TypeDecl → List TypeDecl → Bool
  | [.interface d], [.typeAlias d'] =>
    d.params.isEqv d'.params (paramRetold s s') && d.parents.isEmpty &&
      match d'.type with
      | .object span members => membersRetold s s' d.bodyStart span.lo d.members members
      | _ => false
  | _, _ => false

/-- Whether the declarations of a name are others told again. If they are `turned`, an alias
stands for the interface. -/
def declsRetold (turned : Bool) (ds ds' : List TypeDecl) : Bool :=
  if turned then isAliasFor s s' ds ds' else ds.isEqv ds' (declRetold s s')

end

/-- Whether a file is another one told again, with the declarations of some names turned. -/
def fileRetold (turned : String → Bool) (f f' : SourceFile) : Bool :=
  f.groups.isEqv f'.groups (fun g g' => g'.name == g.name &&
      declsRetold f.source f'.source (turned g.name) g.decls g'.decls) &&
    f'.imports == f.imports && f'.namespaces == f.namespaces &&
    f'.localExports == f.localExports && f'.reexports == f.reexports &&
    f'.starExports == f.starExports

/-- The second program is the first one with an alias for the interface `key`, which is declared
once and has no parents. All other declarations are told again, perhaps at other places. -/
structure Interchanged (p q : Program) (key : Nat × String) : Prop where
  modules : q.modules = p.modules
  files : ∀ i, Option.Rel (fun f f' => fileRetold (fun name => (i, name) == key) f f' = true)
    p.files[i]? q.files[i]?

/-- The members of an interface that are no properties, as they are written. -/
def otherMembers (p : Program) (key : Nat × String) : List String :=
  match (p.files[key.1]?).bind (·.group? key.2) with
  | some ⟨_, _, [.interface d]⟩ => otherTexts (sourceOf p key.1) d.members
  | _ => []

/-! ## Symbols that are told again -/

section

variable (p q : Program) (key : Nat × String)

/-- A symbol of the first program is told again in the second one. -/
structure SymbolRetold (s t : Symbol) : Prop where
  key_eq : t.key = s.key
  decls : declsRetold (sourceOf p s.file) (sourceOf q s.file) (s.key == key) s.decls t.decls = true
  others : s.key = key → ∀ d, s.decls = [.interface d] →
    otherMembers p key = otherTexts (sourceOf p s.file) d.members

end

namespace Interchanged

variable {p q : Program} {key : Nat × String} (h : Interchanged p q key)

include h

theorem file_cases (i : Nat) : (p.files[i]? = none ∧ q.files[i]? = none) ∨
    ∃ f f', p.files[i]? = some f ∧ q.files[i]? = some f' ∧
      fileRetold (fun name => (i, name) == key) f f' = true := by
  have hrel := h.files i
  generalize p.files[i]? = o, q.files[i]? = o' at hrel ⊢
  cases hrel with
  | none => exact Or.inl ⟨rfl, rfl⟩
  | some hfile => exact Or.inr ⟨_, _, rfl, rfl, hfile⟩

theorem moduleFile?_eq (module : Path) : q.moduleFile? module = p.moduleFile? module := by
  unfold Program.moduleFile?
  rw [h.modules]

end Interchanged

theorem group?_retold {turned : String → Bool} {f f' : SourceFile}
    (h : fileRetold turned f f' = true) (name : String) :
    (f.group? name = none ∧ f'.group? name = none) ∨ ∃ g g', f.group? name = some g ∧
      f'.group? name = some g' ∧ g'.name = g.name ∧
      declsRetold f.source f'.source (turned g.name) g.decls g'.decls = true := by
  unfold fileRetold at h
  simp only [Bool.and_eq_true] at h
  have hgroups := forall₂_of_isEqv h.1.1.1.1.1
  unfold SourceFile.group?
  generalize f.groups = gs, f'.groups = gs' at hgroups ⊢
  induction hgroups with
  | nil => exact Or.inl ⟨rfl, rfl⟩
  | cons hg _ ih =>
    rw [Bool.and_eq_true, beq_iff_eq] at hg
    rw [List.find?_cons, List.find?_cons, hg.1]
    split
    next => exact Or.inr ⟨_, _, rfl, rfl, hg⟩
    next => exact ih

section

variable {p q : Program} {key : Nat × String}

theorem symbolRetold_of_group {i : Nat} {f f' : SourceFile} {name : String} {g g' : DeclGroup}
    (hf : p.files[i]? = some f) (hf' : q.files[i]? = some f') (hg : f.group? name = some g)
    (hname : g'.name = g.name)
    (hdecls : declsRetold f.source f'.source ((i, g.name) == key) g.decls g'.decls = true) :
    SymbolRetold p q key (g.symbol i) (g'.symbol i) where
  key_eq := congrArg (Prod.mk i) hname
  decls := by
    show declsRetold (sourceOf p i) (sourceOf q i) _ _ _ = true
    rw [sourceOf_of_file hf, sourceOf_of_file hf']
    exact hdecls
  others := by
    intro hkey d hd
    have hgname : g.name = name := by simpa using List.find?_some hg
    have hfound : (p.files[key.1]?).bind (·.group? key.2) =
        some ⟨g.name, g.exported, [.interface d]⟩ := by
      rw [← hkey]
      show (p.files[i]?).bind (·.group? g.name) = _
      rw [hf, hgname, Option.bind_some, hg, ← hgname, ← hd]
      rfl
    unfold otherMembers
    rw [hfound, ← hkey]
    rfl

variable (h : Interchanged p q key)

include h

theorem searchedAlike_of_interchanged :
    p.SearchedAlike (fun _ => True) (SymbolRetold p q key) q where
  modules := h.moduleFile?_eq
  stays _ _ _ := trivial
  files i _ := by
    rcases h.file_cases i with ⟨hf, hf'⟩ | ⟨f, f', hf, hf', hfile⟩
    · rw [hf, hf']
      exact .none
    · have htables := hfile
      unfold fileRetold at htables
      simp only [Bool.and_eq_true, beq_iff_eq] at htables
      obtain ⟨⟨⟨⟨⟨-, himports⟩, hnamespaces⟩, hlocal⟩, hreexports⟩, hstars⟩ := htables
      rw [hf, hf']
      refine .some ⟨himports, hnamespaces, hlocal, hreexports, hstars, fun name => ?_⟩
      rcases group?_retold hfile name with ⟨hg, hg'⟩ | ⟨g, g', hg, hg', hname, hdecls⟩
      · rw [hg, hg']
        exact .none
      · rw [hg, hg']
        exact .some (symbolRetold_of_group hf hf' hg hname hdecls)

/-- Every name leads to the same symbol in both programs. -/
theorem lookup_retold (i : Nat) (name : String) :
    Option.Rel (SymbolRetold p q key) (p.lookup i name) (q.lookup i name) :=
  (searchedAlike_of_interchanged h).lookup trivial name

end

/-! ## Places that are told again -/

/-- A scope is told again: the same parameters are bound, to types that are told again. -/
inductive ScopeRetold (p q : Program) : Scope → Scope → Prop
  | empty : ScopeRetold p q .empty .empty
  | bind (name : String) (file : Nat) {type type' : TypeNode} {around around' rest rest' : Scope}
    (htype : retold (sourceOf p file) (sourceOf q file) type type' = true)
    (haround : ScopeRetold p q around around') (hrest : ScopeRetold p q rest rest') :
    ScopeRetold p q (.bind name file type around rest) (.bind name file type' around' rest')

/-- Arguments are told again. -/
structure ArgumentsRetold (p q : Program) (args args' : Arguments) : Prop where
  file : args'.file = args.file
  scope : ScopeRetold p q args.scope args'.scope
  types : allRetold (sourceOf p args.file) (sourceOf q args.file) args.types args'.types = true

/-- No arguments are told again. -/
theorem argumentsRetold_none (p q : Program) : ArgumentsRetold p q .none .none where
  file := rfl
  scope := .empty
  types := by rw [Arguments.none, allRetold, List.isEmpty_nil]

/-- Symbols that are told again answer the same inside the same open symbols. -/
structure OpenersAgree (p q : Program) (key : Nat × String) (o o' : Opener)
    (inside : OpenSymbols) : Prop where
  properties : ∀ s t args args', SymbolRetold p q key s t → ArgumentsRetold p q args args' →
    o.properties inside s args = o'.properties inside t args'
  keys : ∀ s t, SymbolRetold p q key s t → o.keys inside s = o'.keys inside t
  text : ∀ s t args args', SymbolRetold p q key s t → ArgumentsRetold p q args args' →
    o.text inside s args = o'.text inside t args'

section

variable {p q : Program} {key : Nat × String} {o o' : Opener} {inside : OpenSymbols}

theorem siteWith_echoes (h : Interchanged p q key) (ho : OpenersAgree p q key o o' inside)
    (file : Nat) {scope scope' : Scope} (hscope : ScopeRetold p q scope scope')
    (meaning : String → Option Meaning) :
    (siteWith p o inside file scope meaning).Echoes (siteWith q o' inside file scope' meaning) where
  meaning := rfl
  keys name := by
    show (p.lookup file name).map (o.keys inside) = (q.lookup file name).map (o'.keys inside)
    have hlookup := lookup_retold h file name
    generalize p.lookup file name = s, q.lookup file name = t at hlookup ⊢
    cases hlookup with
    | none => rfl
    | some hs => exact congrArg some (ho.keys _ _ hs)
  properties name args args' hargs := by
    show (p.lookup file name).map (fun s => o.properties inside s ⟨file, scope, args⟩) =
      (q.lookup file name).map fun s => o'.properties inside s ⟨file, scope', args'⟩
    have hlookup := lookup_retold h file name
    generalize p.lookup file name = s, q.lookup file name = t at hlookup ⊢
    cases hlookup with
    | none => rfl
    | some hs => exact congrArg some (ho.properties _ _ _ _ hs ⟨rfl, hscope, hargs⟩)
  text name args args' hargs := by
    show (p.lookup file name).bind (fun s => o.text inside s ⟨file, scope, args⟩) =
      (q.lookup file name).bind fun s => o'.text inside s ⟨file, scope', args'⟩
    have hlookup := lookup_retold h file name
    generalize p.lookup file name = s, q.lookup file name = t at hlookup ⊢
    cases hlookup with
    | none => rfl
    | some hs => exact ho.text _ _ _ _ hs ⟨rfl, hscope, hargs⟩

/-- Parameters mean the same in scopes that are told again. -/
theorem meaningIn_retold (h : Interchanged p q key) (ho : OpenersAgree p q key o o' inside)
    {scope scope' : Scope} (hscope : ScopeRetold p q scope scope') :
    meaningIn p o inside scope = meaningIn q o' inside scope' := by
  induction hscope with
  | empty => rfl
  | @bind name file type type' around around' rest rest' htype haround _ iharound ihrest =>
    funext name'
    rw [meaningIn, meaningIn, ihrest]
    split
    next =>
      have hechoes := siteWith_echoes h ho file haround (meaningIn q o' inside around')
      have hsame := sameAnswers_of_retold hechoes type type' htype
      dsimp only
      rw [iharound, hsame.properties, hsame.keys, hsame.text]
    next => rfl

theorem siteAt_echoes (h : Interchanged p q key) (ho : OpenersAgree p q key o o' inside)
    (file : Nat) {scope scope' : Scope} (hscope : ScopeRetold p q scope scope') :
    (siteAt p o inside file scope).Echoes (siteAt q o' inside file scope') := by
  unfold siteAt
  rw [meaningIn_retold h ho hscope]
  exact siteWith_echoes h ho file hscope _

/-- Parameters are bound to types that are told again. -/
theorem bindParams_retold {file : Nat} {ps ps' : List TypeParam}
    (hps : List.Forall₂ (fun param param' =>
      paramRetold (sourceOf p file) (sourceOf q file) param param' = true) ps ps')
    {args args' : Arguments} (hargs : ArgumentsRetold p q args args')
    {scope scope' : Scope} (hscope : ScopeRetold p q scope scope') :
    ScopeRetold p q (bindParams file scope ps args) (bindParams file scope' ps' args') := by
  induction hps generalizing args args' scope scope' with
  | nil => exact hscope
  | @cons param param' ps ps' hparam _ ih =>
    unfold paramRetold at hparam
    rw [Bool.and_eq_true, beq_iff_eq] at hparam
    obtain ⟨hname, hdefault⟩ := hparam
    obtain ⟨argFile, around, types⟩ := args
    obtain ⟨argFile', around', types'⟩ := args'
    obtain ⟨hfile, haround, htypes⟩ := hargs
    dsimp only at hfile haround htypes
    subst hfile
    cases types with
    | cons arg types =>
      cases types' with
      | nil =>
        rw [allRetold] at htypes
        cases htypes
      | cons arg' types' =>
        rw [allRetold, Bool.and_eq_true] at htypes
        rw [bindParams, bindParams, hname]
        have hmore : ArgumentsRetold p q ⟨argFile', around, types⟩ ⟨argFile', around', types'⟩ :=
          ⟨rfl, haround, htypes.2⟩
        exact ih hmore (.bind _ _ htypes.1 haround hscope)
    | nil =>
      have hnone : types' = [] := by
        rw [allRetold, List.isEmpty_iff] at htypes
        exact htypes
      subst hnone
      have hmore : ArgumentsRetold p q ⟨argFile', around, []⟩ ⟨argFile', around', []⟩ :=
        ⟨rfl, haround, htypes⟩
      rw [bindParams, bindParams, hname]
      refine ih hmore ?_
      -- a default stands in the scope of the parameters before it
      cases hd : param.default with
      | none =>
        rw [hd, optionRetold, Option.isNone_iff_eq_none] at hdefault
        rw [hdefault]
        exact hscope
      | some type =>
        cases hd' : param'.default with
        | none =>
          rw [hd, hd', optionRetold] at hdefault
          cases hdefault
        | some type' =>
          rw [hd, hd', optionRetold] at hdefault
          exact .bind _ _ hdefault hscope hscope

end

/-! ## Symbols that are open -/

theorem of_isAliasFor {s s' : Source} {ds ds' : List TypeDecl} (h : isAliasFor s s' ds ds' = true) :
    ∃ d d' span members, ds = [.interface d] ∧ ds' = [.typeAlias d'] ∧ d.parents = [] ∧
      d'.type = .object span members ∧ d.params.isEqv d'.params (paramRetold s s') = true ∧
      membersRetold s s' d.bodyStart span.lo d.members members = true := by
  unfold isAliasFor at h
  split at h
  next d d' =>
    rw [Bool.and_eq_true, Bool.and_eq_true, List.isEmpty_iff] at h
    obtain ⟨⟨hparams, hparents⟩, htype⟩ := h
    split at htype
    next span members hobject =>
      exact ⟨d, d', span, members, rfl, rfl, hparents, hobject, hparams, htype⟩
    next => cases htype
  next => cases h

section

variable {p q : Program} {key : Nat × String} {o o' : Opener} {inside : OpenSymbols}
  (h : Interchanged p q key) (ho : OpenersAgree p q key o o' inside)

include h ho

theorem bodySite_echoes {file : Nat} {ps ps' : List TypeParam}
    (hps : ps.isEqv ps' (paramRetold (sourceOf p file) (sourceOf q file)) = true)
    {args args' : Arguments} (hargs : ArgumentsRetold p q args args') :
    (bodySite p o inside file ps args).Echoes (bodySite q o' inside file ps' args') :=
  siteAt_echoes h ho file (bindParams_retold (forall₂_of_isEqv hps) hargs .empty)

theorem declProperties_retold {file : Nat} {d d' : TypeDecl}
    (hd : declRetold (sourceOf p file) (sourceOf q file) d d' = true)
    {args args' : Arguments} (hargs : ArgumentsRetold p q args args') :
    declProperties p o inside file args d = declProperties q o' inside file args' d' := by
  cases d with
  | interface d =>
    cases d' with
    | typeAlias d' => cases hd
    | interface d' =>
      rw [declRetold, Bool.and_eq_true, Bool.and_eq_true] at hd
      obtain ⟨⟨hparams, hmembers⟩, hparents⟩ := hd
      have hsite := bodySite_echoes h ho hparams hargs
      rw [declProperties, declProperties, memberShapes_retold hsite _ _ _ _ hmembers]
      refine congrArg _ ?_
      have hparents := forall₂_of_isEqv hparents
      generalize d.parents = parents, d'.parents = parents' at hparents
      induction hparents with
      | nil => rfl
      | cons hparent _ ih =>
        rw [List.flatMap_cons, List.flatMap_cons, parentProperties_retold hsite hparent, ih]
  | typeAlias d =>
    cases d' with
    | interface d' => cases hd
    | typeAlias d' =>
      rw [declRetold, Bool.and_eq_true] at hd
      exact (sameAnswers_of_retold (bodySite_echoes h ho hd.1 hargs) _ _ hd.2).properties

/-- The interface and the alias have the same properties. -/
theorem openProperties_retold {s t : Symbol} (hs : SymbolRetold p q key s t)
    {args args' : Arguments} (hargs : ArgumentsRetold p q args args') :
    openProperties p o inside s args = openProperties q o' inside t args' := by
  obtain ⟨hkey, hdecls, -⟩ := hs
  have hfile : t.file = s.file := congrArg Prod.fst hkey
  unfold openProperties
  rw [hfile]
  unfold declsRetold at hdecls
  split at hdecls
  next =>
    obtain ⟨d, d', span, members, hd, hd', hparents, hobject, hparams, hmembers⟩ :=
      of_isAliasFor hdecls
    have hsite := bodySite_echoes h ho hparams hargs
    rw [hd, hd', List.flatMap_singleton, List.flatMap_singleton, declProperties, declProperties,
      hparents, hobject, propertiesOf, List.flatMap_nil, List.append_nil,
      memberShapes_retold hsite _ _ _ _ hmembers, addShapes_addShapes_nil]
  next =>
    have hdecls := forall₂_of_isEqv hdecls
    generalize s.decls = ds, t.decls = ds' at hdecls
    refine congrArg _ ?_
    induction hdecls with
    | nil => rfl
    | cons hd _ ih =>
      rw [List.flatMap_cons, List.flatMap_cons, declProperties_retold h ho hd hargs, ih]

theorem openKeys_retold {s t : Symbol} (hs : SymbolRetold p q key s t) :
    openKeys p o inside s = openKeys q o' inside t := by
  obtain ⟨hkey, hdecls, -⟩ := hs
  have hfile : t.file = s.file := congrArg Prod.fst hkey
  unfold openKeys
  rw [hfile]
  unfold declsRetold at hdecls
  split at hdecls
  next =>
    -- an interface has no keys, and neither has an object type
    obtain ⟨d, d', span, members, hd, hd', -, hobject, -⟩ := of_isAliasFor hdecls
    rw [hd, hd']
    dsimp only
    rw [hobject, keysOf]
    all_goals exact nofun
  next =>
    have hdecls := forall₂_of_isEqv hdecls
    generalize s.decls = ds, t.decls = ds' at hdecls
    cases hdecls with
    | nil => rfl
    | @cons d d' _ _ hd _ =>
      cases d with
      | interface d =>
        cases d' with
        | interface d' => rfl
        | typeAlias d' => cases hd
      | typeAlias d =>
        cases d' with
        | interface d' => cases hd
        | typeAlias d' =>
          rw [declRetold, Bool.and_eq_true] at hd
          exact (sameAnswers_of_retold (siteAt_echoes h ho s.file .empty) _ _ hd.2).keys

/-- A symbol that is not turned has the same text. -/
theorem openText_retold {s t : Symbol} (hs : SymbolRetold p q key s t) (hne : s.key ≠ key)
    {args args' : Arguments} (hargs : ArgumentsRetold p q args args') :
    openText p o inside s args = openText q o' inside t args' := by
  have hproperties := openProperties_retold h ho hs hargs
  obtain ⟨hkey, hdecls, -⟩ := hs
  have hfile : t.file = s.file := congrArg Prod.fst hkey
  rw [declsRetold, if_neg (by simpa using hne)] at hdecls
  have hdecls := forall₂_of_isEqv hdecls
  unfold openText
  rw [hproperties, hfile]
  generalize s.decls = ds, t.decls = ds' at hdecls
  cases hdecls with
  | nil => rfl
  | @cons d d' _ _ hd _ =>
    cases d with
    | interface d =>
      cases d' with
      | interface d' => rfl
      | typeAlias d' => cases hd
    | typeAlias d =>
      cases d' with
      | interface d' => cases hd
      | typeAlias d' =>
        rw [declRetold, Bool.and_eq_true] at hd
        have hsame := sameAnswers_of_retold (bodySite_echoes h ho hd.1 hargs) _ _ hd.2
        exact congrArg some hsame.text

/-- The text of the interface leaves the members out that are no properties, and that of the
alias has them behind the same properties. -/
theorem openText_turned {s t : Symbol} (hs : SymbolRetold p q key s t) (hkey : s.key = key)
    {args args' : Arguments} (hargs : ArgumentsRetold p q args args') :
    openText p o inside s args = some (objectText (openProperties p o inside s args) []) ∧
    openText q o' inside t args' =
      some (objectText (openProperties p o inside s args) (otherMembers p key)) := by
  have hproperties := openProperties_retold h ho hs hargs
  obtain ⟨hkeys, hdecls, hothers⟩ := hs
  have hfile : t.file = s.file := congrArg Prod.fst hkeys
  rw [declsRetold, if_pos (by simpa using hkey)] at hdecls
  obtain ⟨d, d', span, members, hd, hd', -, hobject, hparams, hmembers⟩ := of_isAliasFor hdecls
  constructor
  · unfold openText
    rw [hd]
  · have hshapes : openProperties q o' inside t args' =
        addShapes []
          (memberShapes (bodySite q o' inside s.file d'.params args') span.lo members) := by
      unfold openProperties
      rw [hfile, hd', List.flatMap_singleton, declProperties, hobject, propertiesOf,
        addShapes_addShapes_nil]
    have hsource : (bodySite q o' inside s.file d'.params args').source = sourceOf q s.file := rfl
    rw [hproperties, hshapes, hothers hkey d hd, otherTexts_retold hmembers]
    unfold openText
    rw [hfile, hd']
    dsimp only
    rw [hobject, textOf, hsource]

end

theorem enter?_of_key {s t : Symbol} (h : t.key = s.key) (inside : OpenSymbols) :
    inside.enter? t = inside.enter? s := by
  obtain ⟨file, name, decls⟩ := s
  obtain ⟨file', name', decls'⟩ := t
  obtain ⟨rfl, rfl⟩ := Prod.mk.inj h
  rfl

/-- While the interface is open, or if all its members are properties, symbols answer the same. -/
theorem openers_agree {p q : Program} {key : Nat × String} (h : Interchanged p q key) (room : Nat) :
    ∀ inside : OpenSymbols, key ∈ inside.keys ∨ otherMembers p key = [] →
      OpenersAgree p q key (openerWith p room) (openerWith q room) inside := by
  induction room with
  | zero => exact fun _ _ => ⟨fun _ _ _ _ _ _ => rfl, fun _ _ _ => rfl, fun _ _ _ _ _ _ => rfl⟩
  | succ room ih =>
    intro inside hinside
    -- a symbol is opened in both programs or in neither
    have hcases {s t : Symbol} (hs : SymbolRetold p q key s t) :
        (inside.enter? s = none ∧ inside.enter? t = none) ∨
        ∃ deeper, inside.enter? s = some deeper ∧ inside.enter? t = some deeper ∧
          OpenersAgree p q key (openerWith p room) (openerWith q room) deeper := by
      rw [enter?_of_key hs.key_eq]
      cases hopen : inside.enter? s with
      | none => exact Or.inl ⟨rfl, rfl⟩
      | some deeper =>
        refine Or.inr ⟨deeper, rfl, rfl, ih deeper (hinside.imp_left fun hkey => ?_)⟩
        rw [(of_enter?_eq_some hopen).2.2]
        exact List.mem_cons_of_mem _ hkey
    refine ⟨?_, ?_, ?_⟩
    · intro s t args args' hs hargs
      rcases hcases hs with ⟨hnone, hnone'⟩ | ⟨deeper, hopen, hopen', hagree⟩
      · rw [(Resolver.openerWith_of_enter?_eq_none _ hnone).1,
          (Resolver.openerWith_of_enter?_eq_none _ hnone').1]
      · rw [(Resolver.openerWith_of_enter?_eq_some _ hopen).1,
          (Resolver.openerWith_of_enter?_eq_some _ hopen').1]
        exact openProperties_retold h hagree hs hargs
    · intro s t hs
      rcases hcases hs with ⟨hnone, hnone'⟩ | ⟨deeper, hopen, hopen', hagree⟩
      · rw [(Resolver.openerWith_of_enter?_eq_none _ hnone).2.1,
          (Resolver.openerWith_of_enter?_eq_none _ hnone').2.1]
      · rw [(Resolver.openerWith_of_enter?_eq_some _ hopen).2.1,
          (Resolver.openerWith_of_enter?_eq_some _ hopen').2.1]
        exact openKeys_retold h hagree hs
    · intro s t args args' hs hargs
      rcases hcases hs with ⟨hnone, hnone'⟩ | ⟨deeper, hopen, hopen', hagree⟩
      · rw [(Resolver.openerWith_of_enter?_eq_none _ hnone).2.2,
          (Resolver.openerWith_of_enter?_eq_none _ hnone').2.2]
      · rw [(Resolver.openerWith_of_enter?_eq_some _ hopen).2.2,
          (Resolver.openerWith_of_enter?_eq_some _ hopen').2.2]
        by_cases hkey : s.key = key
        · -- the interface is not open yet, so all its members are properties
          have hothers : otherMembers p key = [] := by
            refine hinside.resolve_left fun hmem => (of_enter?_eq_some hopen).1 ?_
            rw [hkey]
            exact hmem
          obtain ⟨htext, htext'⟩ := openText_turned h hagree hs hkey hargs
          rw [hothers] at htext'
          exact htext.trans htext'.symm
        · exact openText_retold h hagree hs hkey hargs

/-! ## References -/

theorem length_intercalate_lt {ys : List String} (hne : ys ≠ []) (hys : ∀ y ∈ ys, y ≠ "")
    (xs : List String) : (" ".intercalate xs).length < (" ".intercalate (xs ++ ys)).length := by
  obtain ⟨y, ys, rfl⟩ := List.exists_cons_of_ne_nil hne
  have hy : 0 < y.length := by
    have := hys y List.mem_cons_self
    rw [Nat.pos_iff_ne_zero]
    exact fun h => this (String.length_eq_zero_iff.mp h)
  induction xs with
  | nil =>
    cases ys with
    | nil => simpa using hy
    | cons z ys =>
      rw [List.nil_append, String.intercalate_cons_cons]
      simp only [String.intercalate_nil, String.length_append, String.length_empty]
      omega
  | cons x xs ih =>
    cases xs with
    | nil =>
      rw [List.cons_append, List.nil_append, String.intercalate_singleton,
        String.intercalate_cons_cons]
      simp only [String.length_append]
      have : " ".length = 1 := rfl
      omega
    | cons x' xs =>
      rw [List.cons_append, List.cons_append, String.intercalate_cons_cons,
        String.intercalate_cons_cons]
      simp only [String.length_append] at ih ⊢
      exact Nat.add_lt_add_left ih _

/-- Other members show in the text of an object type. -/
theorem objectText_eq_iff (shapes : List Shape) (others : List String) :
    objectText shapes [] = objectText shapes others ↔ others = [] := by
  refine ⟨fun heq => ?_, fun h => by rw [h]⟩
  by_contra hne
  have hmap : others.map (· ++ ";") ≠ [] := by simpa using hne
  have hlong := length_intercalate_lt hmap (by simp) (shapes.map propertyText)
  have hthis : (objectText shapes []).length ≤
      (" ".intercalate (shapes.map propertyText)).length + 4 := by
    unfold objectText
    split
    next => exact Nat.le_add_left 2 _
    next =>
      rw [List.map_nil, List.append_nil, String.length_append, String.length_append,
        Nat.add_right_comm, Nat.add_comm]
      exact Nat.le_refl _
  have hthat : (objectText shapes others).length =
      (" ".intercalate (shapes.map propertyText ++ others.map (· ++ ";"))).length + 4 := by
    unfold objectText
    rw [List.isEmpty_eq_false_iff.mpr hne, Bool.and_false, if_neg Bool.false_ne_true,
      String.length_append, String.length_append, Nat.add_right_comm, Nat.add_comm]
    rfl
  rw [heq] at hthis
  omega

section

variable {p q : Program}

/-- The same parameters are bound in scopes that are told again. -/
theorem meaningIn_eq_none_iff {o o' : Opener} {inside : OpenSymbols} {scope scope' : Scope}
    (h : ScopeRetold p q scope scope') (name : String) :
    meaningIn p o inside scope name = none ↔ meaningIn q o' inside scope' name = none := by
  induction h with
  | empty => exact Iff.rfl
  | bind param file _ _ _ _ ih =>
    rw [meaningIn, meaningIn]
    split
    next => simp
    next => exact ih

theorem parameter?_eq_none_iff {o o' : Opener} {inside : OpenSymbols} {i : Nat}
    {scope scope' : Scope} (h : ScopeRetold p q scope scope') (name : EntityName)
    {args args' : List TypeNode}
    (hargs : allRetold (sourceOf p i) (sourceOf q i) args args' = true) :
    (siteAt p o inside i scope).parameter? name args = none ↔
      (siteAt q o' inside i scope').parameter? name args' = none := by
  cases name with
  | member left right => exact Iff.rfl
  | name text =>
    cases args with
    | nil =>
      rw [allRetold, List.isEmpty_iff] at hargs
      rw [hargs]
      exact meaningIn_eq_none_iff h text
    | cons arg args =>
      cases args' with
      | nil =>
        rw [allRetold] at hargs
        cases hargs
      | cons arg' args' => exact Iff.rfl

variable {key : Nat × String} (h : Interchanged p q key)

include h

/-- Opened symbols have the same properties, while the interface is open or if all its members
are properties. The interface and the alias always have. -/
theorem symbolProperties_retold {s t : Symbol} (hs : SymbolRetold p q key s t)
    (hkey : s.key = key ∨ otherMembers p key = []) :
    symbolProperties p s = symbolProperties q t := by
  obtain ⟨deeper, hopen, hkeys⟩ : ∃ deeper, OpenSymbols.none.enter? s = some deeper ∧
      deeper.keys = s.key :: OpenSymbols.none.keys :=
    exists_enter?_of_key List.not_mem_nil (by decide)
  have hopen' := (enter?_of_key hs.key_eq .none).trans hopen
  have hagree : OpenersAgree p q key (openerWith p 11) (openerWith q 11) deeper := by
    refine openers_agree h 11 deeper (hkey.imp_left fun hkey => ?_)
    rw [hkeys, hkey]
    exact List.mem_cons_self
  calc symbolProperties p s
      = openProperties p (openerWith p 11) deeper s .none :=
        (Resolver.openerWith_of_enter?_eq_some 11 hopen).1 .none
    _ = openProperties q (openerWith q 11) deeper t .none :=
        openProperties_retold h hagree hs (argumentsRetold_none p q)
    _ = symbolProperties q t :=
        ((Resolver.openerWith_of_enter?_eq_some 11 hopen').1 .none).symm

/-- Where the interface is opened, its text has its properties alone, and that of the alias
has the other members behind the same properties. -/
theorem texts_of_reference {i : Nat} {scope scope' : Scope} (hscope : ScopeRetold p q scope scope')
    {room : Nat} {inside deeper : OpenSymbols} {s : Symbol} (hkey : s.key = key)
    (hopen : inside.enter? s = some deeper) {name : EntityName}
    (hlookup : p.lookup i name.text = some s) {args args' : List TypeNode}
    (hargs : allRetold (sourceOf p i) (sourceOf q i) args args' = true)
    (hname : (siteAt p (openerWith p (room + 1)) inside i scope).parameter? name args = none)
    (span span' : Span) : ∃ shapes,
      textOf (siteAt p (openerWith p (room + 1)) inside i scope) (.reference span name args) =
        objectText shapes [] ∧
      textOf (siteAt q (openerWith q (room + 1)) inside i scope') (.reference span' name args') =
        objectText shapes (otherMembers p key) := by
  have hretold := lookup_retold h i name.text
  rw [hlookup] at hretold
  generalize hlookup' : q.lookup i name.text = t at hretold
  cases hretold with
  | @some _ t hs =>
    have hopen' := (enter?_of_key hs.key_eq inside).trans hopen
    -- while the interface is open, no text shows its other members
    have hagree : OpenersAgree p q key (openerWith p room) (openerWith q room) deeper := by
      refine openers_agree h room deeper (Or.inl ?_)
      rw [(of_enter?_eq_some hopen).2.2, hkey]
      exact List.mem_cons_self
    have hplaced : ArgumentsRetold p q ⟨i, scope, args⟩ ⟨i, scope', args'⟩ := ⟨rfl, hscope, hargs⟩
    obtain ⟨htext, htext'⟩ := openText_turned h hagree hs hkey hplaced
    have hname' :
        (siteAt q (openerWith q (room + 1)) inside i scope').parameter? name args' = none :=
      (parameter?_eq_none_iff hscope name hargs).mp hname
    refine ⟨openProperties p (openerWith p room) deeper s ⟨i, scope, args⟩, ?_, ?_⟩
    · exact textOf_reference span hname hlookup
        (((Resolver.openerWith_of_enter?_eq_some room hopen).2.2 _).trans htext)
    · exact textOf_reference span' hname' hlookup'
        (((Resolver.openerWith_of_enter?_eq_some room hopen').2.2 _).trans htext')

end

/-- **An interface and an alias of the same object type** have the same properties, whatever
members the body has. If all of them are properties, every symbol has the same properties and
every type at corresponding places the same text, keys and properties; so it is while the
interface is open itself. Else the texts of a reference that is opened differ, by just the
members that are no properties. -/
theorem interface_or_alias {p q : Program} {key : Nat × String} (h : Interchanged p q key) :
    (∀ i name s, p.lookup i name = some s → ∃ t, q.lookup i name = some t ∧ t.key = s.key ∧
      (s.key = key ∨ otherMembers p key = [] → symbolProperties p s = symbolProperties q t)) ∧
    ∀ i scope scope', ScopeRetold p q scope scope' → ∀ room inside,
      (key ∈ inside.keys ∨ otherMembers p key = [] →
        ∀ t t', retold (sourceOf p i) (sourceOf q i) t t' = true →
          SameAnswers (siteAt p (openerWith p room) inside i scope)
            (siteAt q (openerWith q room) inside i scope') t t') ∧
      ∀ name s args args', p.lookup i name.text = some s → s.key = key →
        (inside.enter? s).isSome = true →
        allRetold (sourceOf p i) (sourceOf q i) args args' = true →
        (siteAt p (openerWith p (room + 1)) inside i scope).parameter? name args = none →
        ∀ span span', ∃ text text' shapes,
          textOf (siteAt p (openerWith p (room + 1)) inside i scope)
            (.reference span name args) = text ∧
          textOf (siteAt q (openerWith q (room + 1)) inside i scope')
            (.reference span' name args') = text' ∧
          text = objectText shapes [] ∧ text' = objectText shapes (otherMembers p key) ∧
          (text = text' ↔ otherMembers p key = []) := by
  refine ⟨?_, ?_⟩
  · intro i name s hs
    have hretold := lookup_retold h i name
    rw [hs] at hretold
    generalize q.lookup i name = t at hretold ⊢
    cases hretold with
    | some hst => exact ⟨_, rfl, hst.key_eq, symbolProperties_retold h hst⟩
  · intro i scope scope' hscope room inside
    refine ⟨?_, ?_⟩
    · intro hinside t t' ht
      exact sameAnswers_of_retold (siteAt_echoes h (openers_agree h room inside hinside) i hscope)
        t t' ht
    · intro name s args args' hs hkey hopen hargs hname span span'
      obtain ⟨deeper, hdeeper⟩ := Option.isSome_iff_exists.mp hopen
      obtain ⟨shapes, htext, htext'⟩ :=
        texts_of_reference h hscope hkey hdeeper hs hargs hname span span'
      exact ⟨_, _, shapes, htext, htext', rfl, rfl, objectText_eq_iff shapes _⟩

/-! ## A generic type in both spellings -/

/-- Programs of one file each are interchanged if their files are. -/
theorem interchanged_ofRoot {f f' : SourceFile} {name : String}
    (h : fileRetold (fun name' => (rootFile, name') == (rootFile, name)) f f' = true) :
    Interchanged (.ofRoot f) (.ofRoot f') (rootFile, name) where
  modules := rfl
  files i := by
    cases i with
    | zero => exact .some h
    | succ i => exact .none

/-- Whether two lists of files are the same but for a declaration of the root. -/
def filesRetold (name : String) (fs fs' : List SourceFile) : Bool :=
  (fs.zip fs').all fun (f, f') =>
    fileRetold (fun name' => (rootFile, name') == (rootFile, name)) f f'

theorem interchanged_of_oneContext? {text text' name : String} {c c' : Context}
    (hc : oneContext? text = some c) (hc' : oneContext? text' = some c')
    (h : filesRetold name c.program.files c'.program.files = true) :
    Interchanged c.program c'.program (rootFile, name) := by
  obtain ⟨s, -, -, rfl⟩ := read_of_oneContext? hc
  obtain ⟨s', -, -, rfl⟩ := read_of_oneContext? hc'
  exact interchanged_ofRoot (List.all_eq_true.mp h _ List.mem_cons_self)

/-- A generic interface that refers to itself, and references to it. -/
def nodeInterface : String :=
  "interface Node<T = string> \x7b /** its value */ value: T; next?: Node<T>[] \x7d\n" ++
    "export type XConfigType = \x7b v: Node; w: [Node<Node<null>>, 'x'] | null \x7d;"

/-- The same with an alias. -/
def nodeAlias : String :=
  "type Node<T = string> =\n  \x7b /** its value */ value: T; next?: Node<T>[] \x7d;\n" ++
    "export type XConfigType = \x7b v: Node; w: [Node<Node<null>>, 'x'] | null \x7d;"

/-- The interface has properties only, so what refers to it has the same properties in both
programs. -/
theorem interface_or_alias_node :
    ∃ c c' s t, Context.build (oneFile nodeInterface) onePath nodeInterface = .ok c ∧
      Context.build (oneFile nodeAlias) onePath nodeAlias = .ok c' ∧
      c.program.lookup rootFile "XConfigType" = some s ∧
      c'.program.lookup rootFile "XConfigType" = some t ∧
      symbolProperties c.program s = symbolProperties c'.program t ∧
      symbolProperties c.program s =
        [⟨"v", "\x7b value: string; next?: Node<string>[]; \x7d", false, none⟩,
          ⟨"w", "[\x7b value: Node<null>; next?: Node<Node<null>>[]; \x7d, \"x\"] | null", false,
            none⟩] := by
  have hany : (oneContext? nodeInterface).any (fun c => (oneContext? nodeAlias).any fun c' =>
      filesRetold "Node" c.program.files c'.program.files &&
        decide (otherMembers c.program (rootFile, "Node") = []) &&
        (c.program.lookup rootFile "XConfigType").any fun s =>
          symbolProperties c.program s =
            [⟨"v", "\x7b value: string; next?: Node<string>[]; \x7d", false, none⟩,
              ⟨"w", "[\x7b value: Node<null>; next?: Node<Node<null>>[]; \x7d, \"x\"] | null",
                false, none⟩]) = true := by decide +kernel
  obtain ⟨c, hc, hany⟩ := Option.any_eq_true _ _ |>.mp hany
  obtain ⟨c', hc', hall⟩ := Option.any_eq_true _ _ |>.mp hany
  simp only [Bool.and_eq_true, decide_eq_true_eq] at hall
  obtain ⟨⟨hretold, hothers⟩, hfound⟩ := hall
  obtain ⟨symbol, hsymbol, hshapes⟩ := Option.any_eq_true _ _ |>.mp hfound
  obtain ⟨symbol', hsymbol', -, hsame⟩ :=
    (interface_or_alias (interchanged_of_oneContext? hc hc' hretold)).1 rootFile "XConfigType"
      symbol hsymbol
  exact ⟨c, c', symbol, symbol', build_of_oneContext? hc, build_of_oneContext? hc', hsymbol,
    hsymbol', hsame (Or.inr hothers), of_decide_eq_true hshapes⟩

/-! ## A method in both spellings -/

/-- An interface with a method, and a reference to it. -/
def methodInterface : String :=
  "interface N \x7b a: string; m(): void \x7d\nexport type XConfigType = \x7b v: N \x7d;"

/-- The same with an alias. -/
def methodAlias : String :=
  "type N = \x7b a: string; m(): void \x7d\nexport type XConfigType = \x7b v: N \x7d;"

/-- The reference does not show the method of the interface, and it shows that of the alias. -/
theorem interface_ne_alias :
    ∃ c c' s t, Context.build (oneFile methodInterface) onePath methodInterface = .ok c ∧
      Context.build (oneFile methodAlias) onePath methodAlias = .ok c' ∧
      c.program.lookup rootFile "XConfigType" = some s ∧
      c'.program.lookup rootFile "XConfigType" = some t ∧
      Interchanged c.program c'.program (rootFile, "N") ∧
      symbolProperties c.program s = [⟨"v", "\x7b a: string; \x7d", false, none⟩] ∧
      symbolProperties c'.program t = [⟨"v", "\x7b a: string; m(): void; \x7d", false, none⟩] := by
  have hany : (oneContext? methodInterface).any (fun c => (oneContext? methodAlias).any fun c' =>
      filesRetold "N" c.program.files c'.program.files &&
        (c.program.lookup rootFile "XConfigType").any (fun s =>
          symbolProperties c.program s = [⟨"v", "\x7b a: string; \x7d", false, none⟩]) &&
        (c'.program.lookup rootFile "XConfigType").any fun t =>
          symbolProperties c'.program t =
            [⟨"v", "\x7b a: string; m(): void; \x7d", false, none⟩]) = true := by
    decide +kernel
  obtain ⟨c, hc, hany⟩ := Option.any_eq_true _ _ |>.mp hany
  obtain ⟨c', hc', hall⟩ := Option.any_eq_true _ _ |>.mp hany
  simp only [Bool.and_eq_true] at hall
  obtain ⟨⟨hretold, hfound⟩, hfound'⟩ := hall
  obtain ⟨symbol, hsymbol, hshapes⟩ := Option.any_eq_true _ _ |>.mp hfound
  obtain ⟨symbol', hsymbol', hshapes'⟩ := Option.any_eq_true _ _ |>.mp hfound'
  exact ⟨c, c', symbol, symbol', build_of_oneContext? hc, build_of_oneContext? hc', hsymbol,
    hsymbol', interchanged_of_oneContext? hc hc' hretold, of_decide_eq_true hshapes,
    of_decide_eq_true hshapes'⟩

end ElementManifest.Expansion

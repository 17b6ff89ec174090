import ElementManifest.Proofs.Uncut
import ElementManifest.Proofs.WrittenOut

/-!
# Types where they stand

What a type answers depends on where it stands: on its file, on the scope of type parameters
around it, and on the symbols that are open. Two expansions are compared here that differ in
what they bind type parameters to, and in which symbols are open in them:

> `TypesAgree`: a type answers in the one expansion what it answers in the other with its
> parameters written out, if the scopes around the two agree.

> `CallsAgree`: a symbol that may be called answers the same with arguments that agree.

The two are shown together, with the room that is left (`agree`). What the expansions have to
do for it is to bind the parameters of a declaration to the same (`BindersAgree`).
-/

namespace ElementManifest.Expansion

open ElementManifest.TypeScript

/-! ## What a declaration leads to -/

/-- The type parameters of a declaration. -/
def params : TypeDecl → List TypeParam
  | .interface d => d.params
  | .typeAlias d => d.params

/-- The references in the body of a declaration. -/
def referencesInBody : TypeDecl → List (String × Nat)
  | .interface d => referencesInMembers d.members ++ d.parents.flatMap referencesInParent
  | .typeAlias d => referencesIn d.type

/-- The references in the defaults of type parameters. -/
def referencesInDefaults (ps : List TypeParam) : List (String × Nat) :=
  ps.flatMap fun param => referencesInOptional param.default

/-- The references in a declaration, those in the defaults of its parameters among them. -/
def referencesInDecl (d : TypeDecl) : List (String × Nat) :=
  referencesInBody d ++ referencesInDefaults (params d)

/-- A symbol leads to another one: one of its declarations refers to it, or the default of a
parameter does. The name of a parameter counts as well, because it is looked up where the
parameter is not bound. -/
def LeadsTo (p : Program) (s s' : Symbol) : Prop :=
  ∃ d ∈ s.decls, ∃ r ∈ referencesInDecl d, p.lookup s.file r.1 = some s'

/-- The symbols that a symbol leads to. -/
def leads (p : Program) (s : Symbol) : List Symbol :=
  s.decls.flatMap fun d => (referencesInDecl d).filterMap fun r => p.lookup s.file r.1

theorem leadsTo_iff {p : Program} {s s' : Symbol} : LeadsTo p s s' ↔ s' ∈ leads p s := by
  unfold LeadsTo leads
  simp only [List.mem_flatMap, List.mem_filterMap]

/-- What a name means in a file, if it means anything, may be called with so many arguments. -/
def Within (p : Program) (callable : Symbol → Nat → Prop) (file : Nat) (name : String)
    (count : Nat) : Prop :=
  ∀ s, p.lookup file name = some s → callable s count

/-- All that a symbol refers to may be called as it does it. -/
def LeadsWithin (p : Program) (callable : Symbol → Nat → Prop) (s : Symbol) : Prop :=
  ∀ d ∈ s.decls, ∀ r ∈ referencesInDecl d, Within p callable s.file r.1 r.2

/-! ## Open symbols that differ where nothing leads to -/

/-- Two lists of open symbols that cut the same among the symbols that may be called. -/
structure Alike (callable : Symbol → Nat → Prop) (inside inside' : OpenSymbols) : Prop where
  size : inside.keys.length = inside'.keys.length
  same : ∀ s k, callable s k → (s.key ∈ inside.keys ↔ s.key ∈ inside'.keys)

section

variable {p : Program} {callable : Symbol → Nat → Prop} {inside inside' : OpenSymbols}

theorem Alike.refl (inside : OpenSymbols) : Alike callable inside inside where
  size := rfl
  same _ _ _ := Iff.rfl

theorem of_enter?_eq_some {s : Symbol} {deeper : OpenSymbols}
    (h : inside.enter? s = some deeper) :
    s.key ∉ inside.keys ∧ inside.keys.length < maxDepth ∧ deeper.keys = s.key :: inside.keys := by
  unfold OpenSymbols.enter? at h
  split at h
  next hopen =>
    cases h
    exact ⟨hopen.1, hopen.2, rfl⟩
  next => cases h

theorem exists_enter?_of_key {s : Symbol} (hkey : s.key ∉ inside.keys)
    (hroom : inside.keys.length < maxDepth) :
    ∃ deeper, inside.enter? s = some deeper ∧ deeper.keys = s.key :: inside.keys :=
  exists_enter? (c := ⟨.text, s, .none⟩) hkey hroom

/-- A symbol that may be called is opened inside both or inside neither. -/
theorem Alike.enter? (h : Alike callable inside inside') {s : Symbol} {k : Nat}
    (hs : callable s k) : (inside.enter? s = none ∧ inside'.enter? s = none) ∨
      ∃ deeper deeper', inside.enter? s = some deeper ∧ inside'.enter? s = some deeper' ∧
        Alike callable deeper deeper' := by
  cases hopen : inside.enter? s with
  | none =>
    cases hopen' : inside'.enter? s with
    | none => exact Or.inl ⟨rfl, rfl⟩
    | some deeper' =>
      obtain ⟨hkey, hroom, -⟩ := of_enter?_eq_some hopen'
      rw [← h.same s k hs] at hkey
      rw [← h.size] at hroom
      obtain ⟨deeper, hdeeper, -⟩ := exists_enter?_of_key hkey hroom
      rw [hopen] at hdeeper
      cases hdeeper
  | some deeper =>
    obtain ⟨hkey, hroom, hkeys⟩ := of_enter?_eq_some hopen
    rw [h.same s k hs] at hkey
    rw [h.size] at hroom
    obtain ⟨deeper', hopen', hkeys'⟩ := exists_enter?_of_key hkey hroom
    refine Or.inr ⟨deeper, deeper', rfl, hopen', ?_, ?_⟩
    · rw [hkeys, hkeys', List.length_cons, List.length_cons, h.size]
    · intro s' k' hs'
      rw [hkeys, hkeys', List.mem_cons, List.mem_cons, h.same s' k' hs']

end

/-! ## Declarations and their bodies -/

/-- The properties of a declaration whose body stands at a site. -/
def bodyProperties (site : Site) : TypeDecl → List Shape
  | .interface d =>
    memberShapes site d.bodyStart d.members ++ d.parents.flatMap (parentProperties site)
  | .typeAlias d => propertiesOf site d.type

/-- The properties of declarations whose bodies stand at `sites`. -/
def bodiesProperties (sites : TypeDecl → Site) (ds : List TypeDecl) : List Shape :=
  addShapes [] (ds.flatMap fun d => bodyProperties (sites d) d)

/-- The text of a symbol with declarations whose bodies stand at `sites`. -/
def bodiesText (sites : TypeDecl → Site) : List TypeDecl → Option String
  | [] => none
  | .typeAlias d :: _ => some (textOf (sites (.typeAlias d)) d.type)
  | .interface d :: ds => some (objectText (bodiesProperties sites (.interface d :: ds)) [])

/-- The keys of a symbol with declarations whose bodies stand at `sites`. -/
def bodiesKeys (sites : TypeDecl → Site) : List TypeDecl → List String
  | .typeAlias d :: _ => keysOf (sites (.typeAlias d)) d.type
  | _ => []

/-- What an expansion binds the type parameters of the declarations in a file to, when they are
asked with arguments, and when they are asked for their keys. -/
structure Binder where
  withArguments : Nat → List TypeParam → Arguments → Scope
  forKeys : Nat → List TypeParam → Scope

/-- Parameters are bound to their arguments and defaults, but not for keys. -/
def Binder.plain : Binder where
  withArguments file := bindParams file .empty
  forKeys _ _ := .empty

section

variable (p : Program) (binder : Binder)

/-- Where the bodies of the declarations in a file stand with arguments. -/
def Binder.bodies (o : Opener) (inside : OpenSymbols) (file : Nat) (args : Arguments)
    (d : TypeDecl) : Site :=
  siteAt p o inside file (binder.withArguments file (params d) args)

/-- Where the bodies of the declarations in a file stand when they are asked for keys. -/
def Binder.keyBodies (o : Opener) (inside : OpenSymbols) (file : Nat) (d : TypeDecl) : Site :=
  siteAt p o inside file (binder.forKeys file (params d))

/-- What symbols have to tell in the expansion of a binder, when there is room for so many of
them. -/
def expandWith : Nat → Opener
  | 0 => .closed
  | room + 1 =>
    let deeper := expandWith room
    { properties := fun inside s args => (inside.enter? s).elim [] fun inside =>
        bodiesProperties (binder.bodies p deeper inside s.file args) s.decls
      keys := fun inside s => (inside.enter? s).elim [] fun inside =>
        bodiesKeys (binder.keyBodies p deeper inside s.file) s.decls
      text := fun inside s args => (inside.enter? s).bind fun inside =>
        bodiesText (binder.bodies p deeper inside s.file args) s.decls }

end

theorem declProperties_eq (p : Program) (o : Opener) (inside : OpenSymbols) (file : Nat)
    (args : Arguments) (d : TypeDecl) :
    declProperties p o inside file args d =
      bodyProperties (Binder.plain.bodies p o inside file args d) d := by
  cases d <;> rfl

theorem openProperties_eq (p : Program) (o : Opener) (inside : OpenSymbols) (s : Symbol)
    (args : Arguments) : openProperties p o inside s args =
      bodiesProperties (Binder.plain.bodies p o inside s.file args) s.decls := by
  unfold openProperties bodiesProperties
  rw [funext (declProperties_eq p o inside s.file args)]

theorem openText_eq (p : Program) (o : Opener) (inside : OpenSymbols) (s : Symbol)
    (args : Arguments) : openText p o inside s args =
      bodiesText (Binder.plain.bodies p o inside s.file args) s.decls := by
  unfold openText
  cases hdecls : s.decls with
  | nil => rfl
  | cons d ds =>
    cases d with
    | typeAlias d => rfl
    | interface d =>
      rw [openProperties_eq, hdecls]
      rfl

theorem openKeys_eq (p : Program) (o : Opener) (inside : OpenSymbols) (s : Symbol) :
    openKeys p o inside s = bodiesKeys (Binder.plain.keyBodies p o inside s.file) s.decls := by
  unfold openKeys
  cases s.decls with
  | nil => rfl
  | cons d ds => cases d <;> rfl

/-- The expansion binds parameters to their arguments and defaults. -/
theorem openerWith_eq_expandWith (p : Program) : openerWith p = expandWith p .plain := by
  funext room
  induction room with
  | zero => rfl
  | succ room ih =>
    unfold openerWith expandWith
    simp only [ih, openProperties_eq, openText_eq, openKeys_eq]

/-! ## Types and calls that agree -/

/-- A type where it stands. -/
structure Placed where
  file : Nat
  scope : Scope
  type : TypeNode

/-- Arguments, each where it stands. -/
def placed (args : Arguments) : List Placed :=
  args.types.map fun t => ⟨args.file, args.scope, t⟩

/-- What a type answers where it stands. -/
def Placed.answer (t : Placed) (p : Program) (binder : Binder) (room : Nat)
    (inside : OpenSymbols) (look : Look) : Answer :=
  answerOf (siteAt p (expandWith p binder room) inside t.file t.scope) t.type look

/-- A parameter that is only known by its name: it has no properties and lists no keys. -/
def Meaning.ownName (name : String) : Meaning where
  properties _ := []
  keys _ := []
  text _ := name

section

variable (p : Program) (slices : List String) (callable : Symbol → Nat → Prop)
  (binder binder' : Binder)

/-- Two types answer the same in the two expansions with less room than `room`. -/
def AgreeBelow (room : Nat) (t t' : Placed) : Prop :=
  ∀ m < room, ∀ inside inside', Alike callable inside inside' → ∀ look,
    AnswersAlike slices (t.answer p binder m inside look) (t'.answer p binder' m inside' look)

/-- How a name that is not written out is read in a scope in the file `f`, and in another scope
in the other expansion: it is no parameter in either, or the two answer the same, or it is no
parameter and no declaration in the first and only known by its name in the second. -/
inductive KeptIn (room : Nat) (inside inside' : OpenSymbols) (f : Nat) (scope scope' : Scope)
    (name : String) : Prop
  | free (h : meaningIn p (expandWith p binder room) inside scope name = none)
    (h' : meaningIn p (expandWith p binder' room) inside' scope' name = none)
  | bound {a a' : Meaning} (h : meaningIn p (expandWith p binder room) inside scope name = some a)
    (h' : meaningIn p (expandWith p binder' room) inside' scope' name = some a')
    (same : ∀ look, AnswersAlike slices (a.answer look) (a'.answer look))
  | hidden (h : meaningIn p (expandWith p binder room) inside scope name = none)
    (h' : meaningIn p (expandWith p binder' room) inside' scope' name = some (.ownName name))
    (hnone : p.lookup f name = none)

/-- With up to so much room, the parameters of a scope around types of the file `f` answer the
same as what stands for them in the file `g` and the scope `scope'`. The others are kept. -/
structure ScopesAgree (room f g : Nat) (σ : Spellings) (scope scope' : Scope) : Prop where
  spelled : ∀ m ≤ room, ∀ inside inside', Alike callable inside inside' →
    ∀ name stands t', σ name = some stands → stands t' = true →
      (∀ r ∈ referencesIn t', Within p callable g r.1 r.2) →
        ∃ a, meaningIn p (expandWith p binder m) inside scope name = some a ∧ ∀ look,
          AnswersAlike slices (a.answer look)
            (Placed.answer ⟨g, scope', t'⟩ p binder' m inside' look)
  kept : ∀ m ≤ room, ∀ inside inside', Alike callable inside inside' →
    ∀ name, σ name = none →
      KeptIn p slices binder binder' m inside inside' f scope scope' name

/-- A type answers what it does with its parameters written out. -/
def TypesAgree (room : Nat) : Prop :=
  ∀ f g σ scope scope' t t', writtenOut p slices f g σ t t' = true →
    (∀ r ∈ referencesIn t', Within p callable g r.1 r.2) →
    ScopesAgree p slices callable binder binder' room f g σ scope scope' →
      ∀ inside inside', Alike callable inside inside' → ∀ look,
        AnswersAlike slices (Placed.answer ⟨f, scope, t⟩ p binder room inside look)
          (Placed.answer ⟨g, scope', t'⟩ p binder' room inside' look)

/-- A symbol that may be called answers the same with arguments that do, and it lists the same
keys. -/
structure CallsAgree (room : Nat) : Prop where
  answer : ∀ s args args', callable s args'.types.length →
    List.Forall₂ (AgreeBelow p slices callable binder binder' room) (placed args) (placed args') →
      ∀ inside inside', Alike callable inside inside' → ∀ look,
        AnswersAlike slices ((expandWith p binder room).answer inside ⟨look, s, args⟩)
          ((expandWith p binder' room).answer inside' ⟨look, s, args'⟩)
  keys : ∀ s k, callable s k → ∀ inside inside', Alike callable inside inside' →
    (expandWith p binder room).keys inside s = (expandWith p binder' room).keys inside' s

/-- Two binders bind the parameters of what may be called to the same, as far as types and calls
agree inside it. -/
structure BindersAgree : Prop where
  leads : ∀ s k, callable s k → LeadsWithin p callable s
  scopes : ∀ room, (∀ m ≤ room, TypesAgree p slices callable binder binder' m) →
    ∀ s args args', callable s args'.types.length →
      List.Forall₂ (AgreeBelow p slices callable binder binder' (room + 1)) (placed args)
        (placed args') →
      ∀ d ∈ s.decls, ScopesAgree p slices callable binder binder' room s.file s.file .none
        (binder.withArguments s.file (params d) args)
        (binder'.withArguments s.file (params d) args')
  keys : ∀ room, CallsAgree p slices callable binder binder' room →
    (∀ m ≤ room, TypesAgree p slices callable binder binder' m) →
    ∀ s k, callable s k → ∀ inside inside', Alike callable inside inside' →
      bodiesKeys (binder.keyBodies p (expandWith p binder room) inside s.file) s.decls =
        bodiesKeys (binder'.keyBodies p (expandWith p binder' room) inside' s.file) s.decls

end

section

variable {p : Program} {slices : List String} {callable : Symbol → Nat → Prop}
  {binder binder' : Binder}

theorem ScopesAgree.mono {m n f g : Nat} {σ : Spellings} {scope scope' : Scope}
    (h : ScopesAgree p slices callable binder binder' n f g σ scope scope') (hmn : m ≤ n) :
    ScopesAgree p slices callable binder binder' m f g σ scope scope' where
  spelled k hk := h.spelled k (Nat.le_trans hk hmn)
  kept k hk := h.kept k (Nat.le_trans hk hmn)

theorem answer_siteAt_eq (p : Program) (o : Opener) (inside : OpenSymbols) (file : Nat)
    (scope : Scope) (look : Look) (s : Symbol) (args : List TypeNode) :
    (siteAt p o inside file scope).answer s args look =
      o.answer inside ⟨look, s, file, scope, args⟩ := by
  cases look <;> rfl

/-- A name without arguments that is no parameter and no declaration answers only its name. -/
theorem answerOf_of_hidden {site : Site} {name : String} (hmeaning : site.meaning name = none)
    (hlookup : site.lookup name = none) (span : Span) (look : Look) :
    answerOf site (.reference span (.name name) []) look = (Meaning.ownName name).answer look := by
  -- the name is that of no parameter and no symbol, so it stays as it is written
  have hparam : site.parameter? (.name name) [] = none := hmeaning
  have hsymbol : site.lookup (EntityName.name name).text = none := hlookup
  cases look with
  | properties =>
    show Answer.properties _ = _
    rw [propertiesOf, hparam]
    dsimp only
    rw [hsymbol]
    dsimp only
    rw [utilityProperties]
    rfl
  | keys =>
    show Answer.keys _ = _
    rw [keysOf, hparam]
    dsimp only
    rw [hsymbol]
    rfl
  | text =>
    show Answer.text (some _) = _
    rw [textOf, hparam]
    dsimp only
    rw [hsymbol, Option.bind_none]
    dsimp only
    rw [textsOf]
    rfl

theorem agreeBelow_placed {room f g : Nat}
    (hbelow : ∀ m < room, TypesAgree p slices callable binder binder' m) {σ : Spellings}
    {scope scope' : Scope}
    (hscopes : ScopesAgree p slices callable binder binder' room f g σ scope scope')
    {ts ts' : List TypeNode} (hout : allWrittenOut p slices f g σ ts ts' = true)
    (hgood : ∀ r ∈ referencesInAll ts', Within p callable g r.1 r.2) :
    List.Forall₂ (AgreeBelow p slices callable binder binder' room) (placed ⟨f, scope, ts⟩)
      (placed ⟨g, scope', ts'⟩) := by
  induction ts generalizing ts' with
  | nil =>
    rw [allWrittenOut, List.isEmpty_iff] at hout
    rw [hout]
    exact .nil
  | cons t ts ih =>
    cases ts' with
    | nil =>
      rw [allWrittenOut] at hout
      cases hout
    | cons t' ts' =>
      rw [allWrittenOut, Bool.and_eq_true] at hout
      rw [referencesInAll, List.forall_mem_append] at hgood
      refine .cons ?_ (ih hout.2 hgood.2)
      intro m hm
      exact hbelow m hm f g σ scope scope' t t' hout.1 hgood.1 (hscopes.mono (Nat.le_of_lt hm))

/-- Two sites read alike if what they call does. -/
theorem readsAs_of_scopes {room : Nat} (hcalls : CallsAgree p slices callable binder binder' room)
    (hbelow : ∀ m < room, TypesAgree p slices callable binder binder' m) {f g : Nat}
    {σ : Spellings} {scope scope' : Scope}
    (hscopes : ScopesAgree p slices callable binder binder' room f g σ scope scope')
    {inside inside' : OpenSymbols} (hinside : Alike callable inside inside') :
    (siteAt p (expandWith p binder room) inside f scope).ReadsAs p slices f g σ
      (siteAt p (expandWith p binder' room) inside' g scope') (Within p callable g) where
  source := ⟨rfl, rfl⟩
  lookup := ⟨rfl, rfl⟩
  spelled := hscopes.spelled room (Nat.le_refl _) inside inside' hinside
  kept name hname _ := by
    cases hscopes.kept room (Nat.le_refl _) inside inside' hinside name hname with
    | free h h' => exact Or.inl ⟨h, h'⟩
    | bound h h' same =>
      refine Or.inr ?_
      intro span span' look
      rw [answerOf_of_meaning h, answerOf_of_meaning h']
      exact same look
    | hidden h h' hnone =>
      refine Or.inr ?_
      intro span span' look
      rw [answerOf_of_hidden h hnone, answerOf_of_meaning h']
      exact .refl _
  symbol look name s args args' hs hgood hargs hnames := by
    rw [answer_siteAt_eq, answer_siteAt_eq]
    exact hcalls.answer s _ _ (hgood s hs) (agreeBelow_placed hbelow hscopes hargs hnames) inside
      inside' hinside look

theorem typesAgree_of_calls {room : Nat}
    (hcalls : CallsAgree p slices callable binder binder' room)
    (hbelow : ∀ m < room, TypesAgree p slices callable binder binder' m) :
    TypesAgree p slices callable binder binder' room := by
  intro f g σ scope scope' t t' hout hgood hscopes inside inside' hinside look
  exact answerOf_writtenOut (readsAs_of_scopes hcalls hbelow hscopes hinside) hout hgood look

/-! ### Parameters of a declaration -/

/-- What a parameter means that is bound to a type. -/
def placedMeaning (p : Program) (o : Opener) (inside : OpenSymbols) (t : Placed) : Meaning where
  properties _ := propertiesOf (siteAt p o inside t.file t.scope) t.type
  keys _ := keysOf (siteAt p o inside t.file t.scope) t.type
  text _ := textOf (siteAt p o inside t.file t.scope) t.type

theorem placedMeaning_answer (p : Program) (o : Opener) (inside : OpenSymbols) (t : Placed)
    (look : Look) : (placedMeaning p o inside t).answer look =
      answerOf (siteAt p o inside t.file t.scope) t.type look := by
  cases look <;> rfl

theorem meaningIn_bind_self (o : Opener) (inside : OpenSymbols) (name : String) (file : Nat)
    (type : TypeNode) (around rest : Scope) :
    meaningIn p o inside (.bind name file type around rest) name =
      some (placedMeaning p o inside ⟨file, around, type⟩) := by
  rw [meaningIn, if_pos BEq.rfl]
  rfl

theorem meaningIn_bind_of_ne {o : Opener} {inside : OpenSymbols} {param name : String}
    {file : Nat} {type : TypeNode} {around rest : Scope} (h : param ≠ name) :
    meaningIn p o inside (.bind param file type around rest) name =
      meaningIn p o inside rest name := by
  rw [meaningIn, if_neg fun hname => h (eq_of_beq hname)]

theorem KeptIn.congr {room f : Nat} {inside inside' : OpenSymbols}
    {scope scope' more more' : Scope} {name : String}
    (h : KeptIn p slices binder binder' room inside inside' f scope scope' name)
    (hmore : meaningIn p (expandWith p binder room) inside more name =
      meaningIn p (expandWith p binder room) inside scope name)
    (hmore' : meaningIn p (expandWith p binder' room) inside' more' name =
      meaningIn p (expandWith p binder' room) inside' scope' name) :
    KeptIn p slices binder binder' room inside inside' f more more' name := by
  cases h with
  | free h h' => exact .free (hmore.trans h) (hmore'.trans h')
  | bound h h' same => exact .bound (hmore.trans h) (hmore'.trans h') same
  | hidden h h' hnone => exact .hidden (hmore.trans h) (hmore'.trans h') hnone

theorem scopesAgree_empty (room f g : Nat) :
    ScopesAgree p slices callable binder binder' room f g .none .empty .empty where
  spelled := nofun
  kept _ _ _ _ _ _ _ := .free rfl rfl

/-- Scopes that agree still do with one parameter more. -/
theorem ScopesAgree.bind {room f g : Nat} {scope scope' : Scope}
    (h : ScopesAgree p slices callable binder binder' room f g .none scope scope')
    (name : String) {t t' : Placed}
    (ht : AgreeBelow p slices callable binder binder' (room + 1) t t') :
    ScopesAgree p slices callable binder binder' room f g .none
      (.bind name t.file t.type t.scope scope) (.bind name t'.file t'.type t'.scope scope') where
  spelled := nofun
  kept m hm inside inside' hinside n hn := by
    by_cases hname : name = n
    · subst hname
      refine .bound (meaningIn_bind_self ..) (meaningIn_bind_self ..) ?_
      intro look
      rw [placedMeaning_answer, placedMeaning_answer]
      exact ht m (Nat.lt_succ_of_le hm) inside inside' hinside look
    · exact (h.kept m hm inside inside' hinside n hn).congr (meaningIn_bind_of_ne hname)
        (meaningIn_bind_of_ne hname)

/-- The parameters of a declaration agree if the arguments do. -/
theorem scopesAgree_bindParams {room : Nat}
    (htypes : ∀ m ≤ room, TypesAgree p slices callable binder binder' m) (file : Nat)
    (ps : List TypeParam) (hgood : ∀ r ∈ referencesInDefaults ps, Within p callable file r.1 r.2)
    {args args' : Arguments}
    (hargs : List.Forall₂ (AgreeBelow p slices callable binder binder' (room + 1)) (placed args)
      (placed args'))
    {scope scope' : Scope}
    (hscopes : ScopesAgree p slices callable binder binder' room file file .none scope scope') :
    ScopesAgree p slices callable binder binder' room file file .none
      (bindParams file scope ps args) (bindParams file scope' ps args') := by
  induction ps generalizing args args' scope scope' with
  | nil => exact hscopes
  | cons param ps ih =>
    obtain ⟨argFile, around, types⟩ := args
    obtain ⟨argFile', around', types'⟩ := args'
    have hrest : ∀ r ∈ referencesInDefaults ps, Within p callable file r.1 r.2 :=
      fun r hr => hgood r (List.mem_append_right _ hr)
    cases types with
    | cons arg types =>
      cases types' with
      | nil => cases hargs
      | cons arg' types' =>
        cases hargs with
        | cons harg hargs =>
          have hplaced : List.Forall₂ (AgreeBelow p slices callable binder binder' (room + 1))
              (placed ⟨argFile, around, types⟩) (placed ⟨argFile', around', types'⟩) := hargs
          exact ih hrest hplaced (hscopes.bind param.name harg)
    | nil =>
      cases types' with
      | cons arg' types' => cases hargs
      | nil =>
        rw [bindParams, bindParams]
        refine ih hrest .nil ?_
        cases hdefault : param.default with
        | none => exact hscopes
        | some type =>
          -- a default stands in the scope of the parameters before it
          have hnames : ∀ r ∈ referencesIn type, Within p callable file r.1 r.2 := by
            intro r hr
            refine hgood r (List.mem_append_left _ ?_)
            show r ∈ referencesInOptional param.default
            rw [hdefault]
            exact hr
          have hagree : AgreeBelow p slices callable binder binder' (room + 1)
              ⟨file, scope, type⟩ ⟨file, scope', type⟩ := by
            intro m hm
            have hle := Nat.le_of_lt_succ hm
            exact htypes m hle file file .none scope scope' type type
              (writtenOut_self p slices file type) hnames (hscopes.mono hle)
          exact hscopes.bind param.name hagree

/-! ### Open declarations -/

/-- Whether the body of a declaration is that of another one with the parameters written out. -/
def bodyWrittenOut (p : Program) (slices : List String) (f g : Nat) (σ : Spellings) :
    TypeDecl → TypeDecl → Bool
  | .interface d, .interface d' =>
    membersWrittenOut p slices f g σ d.members d'.members &&
      parentsWrittenOut p slices f g σ d.parents d'.parents
  | .typeAlias d, .typeAlias d' => writtenOut p slices f g σ d.type d'.type
  | _, _ => false

theorem bodyWrittenOut_self (p : Program) (slices : List String) (f : Nat) (d : TypeDecl) :
    bodyWrittenOut p slices f f .none d d = true := by
  cases d with
  | interface d =>
    rw [bodyWrittenOut, membersWrittenOut_self, parentsWrittenOut_self, Bool.and_self]
  | typeAlias d => exact writtenOut_self p slices f d.type

theorem bodyProperties_writtenOut {f g : Nat} {σ : Spellings} {a b : Site}
    {good : String → Nat → Prop} (h : a.ReadsAs p slices f g σ b good) {d d' : TypeDecl}
    (hout : bodyWrittenOut p slices f g σ d d' = true)
    (hgood : ∀ r ∈ referencesInBody d', good r.1 r.2) :
    ShapesAlike slices (bodyProperties a d) (bodyProperties b d') := by
  cases d with
  | interface d =>
    cases d' with
    | typeAlias d' => cases hout
    | interface d' =>
      rw [bodyWrittenOut, Bool.and_eq_true] at hout
      rw [referencesInBody, List.forall_mem_append] at hgood
      rw [bodyProperties, bodyProperties]
      exact (memberShapes_writtenOut h d.members d'.members _ _ hout.1 hgood.1).append
        (parentsProperties_writtenOut h hout.2 hgood.2)
  | typeAlias d =>
    cases d' with
    | interface d' => cases hout
    | typeAlias d' => exact propertiesOf_writtenOut h d.type d'.type hout hgood

/-- Declarations have the same properties if their bodies stand at sites that read alike. -/
theorem bodiesProperties_alike {file : Nat} {good : String → Nat → Prop}
    {sites sites' : TypeDecl → Site} {ds : List TypeDecl}
    (hsites : ∀ d ∈ ds, (sites d).ReadsAs p slices file file .none (sites' d) good)
    (hgood : ∀ d ∈ ds, ∀ r ∈ referencesInBody d, good r.1 r.2) :
    ShapesAlike slices (bodiesProperties sites ds) (bodiesProperties sites' ds) := by
  have hall : ShapesAlike slices (ds.flatMap fun d => bodyProperties (sites d) d)
      (ds.flatMap fun d => bodyProperties (sites' d) d) := by
    induction ds with
    | nil => exact .nil
    | cons d ds ih =>
      rw [List.forall_mem_cons] at hsites hgood
      rw [List.flatMap_cons, List.flatMap_cons]
      exact ShapesAlike.append
        (bodyProperties_writtenOut hsites.1 (bodyWrittenOut_self p slices file d) hgood.1)
        (ih hsites.2 hgood.2)
  exact ShapesAlike.nil.addShapes hall

/-- Symbols have the same text if the bodies of their declarations stand at sites that read
alike. -/
theorem bodiesText_alike {file : Nat} {good : String → Nat → Prop}
    {sites sites' : TypeDecl → Site} {ds : List TypeDecl}
    (hsites : ∀ d ∈ ds, (sites d).ReadsAs p slices file file .none (sites' d) good)
    (hgood : ∀ d ∈ ds, ∀ r ∈ referencesInBody d, good r.1 r.2) :
    Option.Rel (TextsAlike slices) (bodiesText sites ds) (bodiesText sites' ds) := by
  cases ds with
  | nil => exact .none
  | cons d ds =>
    cases d with
    | interface d => exact .some ((bodiesProperties_alike hsites hgood).objectText .nil)
    | typeAlias d =>
      rw [List.forall_mem_cons] at hsites hgood
      exact .some (textOf_writtenOut hsites.1 d.type d.type (writtenOut_self p slices file d.type)
        hgood.1)

/-- What a symbol tells that is opened. -/
def Binder.openAnswer (p : Program) (binder : Binder) (o : Opener) (deeper : OpenSymbols)
    (s : Symbol) (args : Arguments) : Look → Answer
  | .properties => .properties (bodiesProperties (binder.bodies p o deeper s.file args) s.decls)
  | .keys => .keys (bodiesKeys (binder.keyBodies p o deeper s.file) s.decls)
  | .text => .text (bodiesText (binder.bodies p o deeper s.file args) s.decls)

theorem answer_expandWith_succ (binder : Binder) (n : Nat) (inside : OpenSymbols) (s : Symbol)
    (args : Arguments) (look : Look) :
    (expandWith p binder (n + 1)).answer inside ⟨look, s, args⟩ =
      (inside.enter? s).elim (Opener.closed.answer inside ⟨look, s, args⟩) fun deeper =>
        binder.openAnswer p (expandWith p binder n) deeper s args look := by
  cases look with
  | properties =>
    show Answer.properties ((inside.enter? s).elim [] _) = _
    cases inside.enter? s <;> rfl
  | keys =>
    show Answer.keys ((inside.enter? s).elim [] _) = _
    cases inside.enter? s <;> rfl
  | text =>
    show Answer.text ((inside.enter? s).bind _) = _
    cases inside.enter? s <;> rfl

/-- A symbol that cannot be opened has nothing to tell. -/
theorem answer_expandWith_of_none (binder : Binder) {n : Nat} {inside : OpenSymbols} {s : Symbol}
    (h : inside.enter? s = none) (args : Arguments) (look : Look) :
    (expandWith p binder (n + 1)).answer inside ⟨look, s, args⟩ =
      Opener.closed.answer inside ⟨look, s, args⟩ := by
  rw [answer_expandWith_succ, h, Option.elim_none]

theorem answer_expandWith_of_enter (binder : Binder) {n : Nat} {inside deeper : OpenSymbols}
    {s : Symbol} (h : inside.enter? s = some deeper) (args : Arguments) (look : Look) :
    (expandWith p binder (n + 1)).answer inside ⟨look, s, args⟩ =
      binder.openAnswer p (expandWith p binder n) deeper s args look := by
  rw [answer_expandWith_succ, h, Option.elim_some]

section

variable (hbinders : BindersAgree p slices callable binder binder')

include hbinders

theorem callsAgree_succ {room : Nat} (hcalls : CallsAgree p slices callable binder binder' room)
    (htypes : ∀ m ≤ room, TypesAgree p slices callable binder binder' m) :
    CallsAgree p slices callable binder binder' (room + 1) := by
  constructor
  · intro s args args' hs hargs inside inside' hinside look
    rcases hinside.enter? hs with ⟨hnone, hnone'⟩ | ⟨deeper, deeper', hopen, hopen', hdeeper⟩
    · rw [answer_expandWith_of_none binder hnone, answer_expandWith_of_none binder' hnone']
      cases look <;> exact .refl _
    · rw [answer_expandWith_of_enter binder hopen, answer_expandWith_of_enter binder' hopen']
      have hsites : ∀ d ∈ s.decls,
          (binder.bodies p (expandWith p binder room) deeper s.file args d).ReadsAs p slices s.file
            s.file .none (binder'.bodies p (expandWith p binder' room) deeper' s.file args' d)
            (Within p callable s.file) := fun d hd =>
        readsAs_of_scopes hcalls (fun m hm => htypes m (Nat.le_of_lt hm))
          (hbinders.scopes room htypes s args args' hs hargs d hd) hdeeper
      have hgood : ∀ d ∈ s.decls, ∀ r ∈ referencesInBody d, Within p callable s.file r.1 r.2 :=
        fun d hd r hr => hbinders.leads s _ hs d hd r (List.mem_append_left _ hr)
      cases look with
      | properties => exact .properties (bodiesProperties_alike hsites hgood)
      | keys =>
        unfold Binder.openAnswer
        rw [hbinders.keys room hcalls htypes s _ hs deeper deeper' hdeeper]
        exact .keys _
      | text => exact .text (bodiesText_alike hsites hgood)
  · intro s k hs inside inside' hinside
    refine Answer.keys.inj ?_
    show (expandWith p binder (room + 1)).answer inside ⟨.keys, s, .none⟩ =
      (expandWith p binder' (room + 1)).answer inside' ⟨.keys, s, .none⟩
    rcases hinside.enter? hs with ⟨hnone, hnone'⟩ | ⟨deeper, deeper', hopen, hopen', hdeeper⟩
    · rw [answer_expandWith_of_none binder hnone, answer_expandWith_of_none binder' hnone']
      rfl
    · rw [answer_expandWith_of_enter binder hopen, answer_expandWith_of_enter binder' hopen']
      exact congrArg Answer.keys (hbinders.keys room hcalls htypes s k hs deeper deeper' hdeeper)

/-- What may be called agrees, with any room, and so do types. -/
theorem agree (room : Nat) : CallsAgree p slices callable binder binder' room ∧
    TypesAgree p slices callable binder binder' room := by
  induction room using Nat.strong_induction_on with
  | _ room ih =>
    have hcalls : CallsAgree p slices callable binder binder' room := by
      cases room with
      | zero =>
        refine ⟨?_, fun _ _ _ _ _ _ => rfl⟩
        intro s args args' _ _ inside inside' _ look
        cases look <;> exact .refl _
      | succ room =>
        exact callsAgree_succ hbinders (ih room (Nat.lt_succ_self room)).1
          fun m hm => (ih m (Nat.lt_succ_of_le hm)).2
    exact ⟨hcalls, typesAgree_of_calls hcalls fun m hm => (ih m hm).2⟩

end

end

end ElementManifest.Expansion

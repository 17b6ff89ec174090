import ElementManifest.Proofs.PlacedTypes
import ElementManifest.Proofs.ScanOnce

/-!
# Instances of generics

A type parameter is bound to its argument as it is written, with the file and the scope
around it. To expand a generic with arguments then comes to the same as to expand a
declaration without parameters, in which the arguments are written out:

> `reference_eq_instance`: a reference to a generic has the properties and the text of the
> instance.

The two are expanded with different symbols open, the generic here and its instance there.
Neither of them may be reached from the instance, and then this makes no difference
(`bindersAgree_plain`). For one room with the scope follows that a type answers in a scope what
it answers with the scope written out (`scopesAgree_spellings`).
-/

namespace ElementManifest.Expansion

open ElementManifest.TypeScript Relation

/-- Parameters that are bound to their arguments agree as far as the arguments do. -/
theorem bindersAgree_plain {p : Program} {slices : List String} {callable : Symbol → Nat → Prop}
    (hleads : ∀ s k, callable s k → LeadsWithin p callable s) :
    BindersAgree p slices callable .plain .plain where
  leads := hleads
  scopes room htypes s args args' hs hargs d hd :=
    scopesAgree_bindParams htypes s.file (params d)
      (fun r hr => hleads s _ hs d hd r (List.mem_append_right _ hr)) hargs
      (scopesAgree_empty room s.file s.file)
  keys room hcalls htypes s k hs inside inside' hinside := by
    have hgood := hleads s k hs
    cases hdecls : s.decls with
    | nil => rfl
    | cons d ds =>
      cases d with
      | interface d => rfl
      | typeAlias d =>
        have hsite := readsAs_of_scopes hcalls (fun m hm => htypes m (Nat.le_of_lt hm))
          (scopesAgree_empty room s.file s.file) hinside
        refine keysOf_writtenOut hsite d.type d.type (writtenOut_self p slices s.file d.type) ?_
        intro r hr
        exact hgood (.typeAlias d) (by rw [hdecls]; exact List.mem_cons_self) r
          (List.mem_append_left _ hr)

/-! ## Scopes that are written out -/

section

variable (p : Program) (slices : List String) (g : Nat)

/-- What may stand for the parameters of a scope in the file `g`: their arguments, with the
parameters in those written out. -/
def Scope.spellings : Scope → Spellings
  | .empty => .none
  | .bind param f type around rest => fun name =>
    if param == name then some (writtenOut p slices f g around.spellings type)
    else rest.spellings name

/-- In a scope a type answers what it does with the scope written out. -/
theorem scopesAgree_spellings {callable : Symbol → Nat → Prop} {room : Nat}
    (htypes : ∀ m ≤ room, TypesAgree p slices callable .plain .plain m) (f : Nat)
    (scope : Scope) :
    ScopesAgree p slices callable .plain .plain room f g (scope.spellings p slices g) scope
      .empty := by
  induction scope generalizing f with
  | empty => exact scopesAgree_empty room f g
  | bind param file type around rest iharound ihrest =>
    have hspellings : ∀ name, (Scope.bind param file type around rest).spellings p slices g name =
        if param == name then some (writtenOut p slices file g (around.spellings p slices g) type)
        else rest.spellings p slices g name := fun _ => rfl
    constructor
    · intro m hm inside inside' hinside name stands t' hstands hout hgood
      rw [hspellings] at hstands
      -- a parameter is spelled as the argument that it is bound to, in the scope around that
      by_cases hname : param = name
      · subst hname
        rw [if_pos BEq.rfl] at hstands
        cases hstands
        refine ⟨_, meaningIn_bind_self .., ?_⟩
        intro look
        rw [placedMeaning_answer]
        exact htypes m hm file g _ around .empty type t' hout hgood ((iharound file).mono hm)
          inside inside' hinside look
      · rw [if_neg fun h => hname (eq_of_beq h)] at hstands
        rw [meaningIn_bind_of_ne hname]
        exact (ihrest f).spelled m hm inside inside' hinside name stands t' hstands hout hgood
    · intro m hm inside inside' hinside name hnone
      rw [hspellings] at hnone
      by_cases hname : param = name
      · subst hname
        rw [if_pos BEq.rfl] at hnone
        cases hnone
      · rw [if_neg fun h => hname (eq_of_beq h)] at hnone
        exact ((ihrest f).kept m hm inside inside' hinside name hnone).congr
          (meaningIn_bind_of_ne hname) rfl

/-- What may stand for the type parameters of a declaration in `file`, from left to right: for
those with an argument what `stands` for it, for the others their default with the
parameters before it written out. -/
def boundSpellings (file : Nat) : List TypeParam → List (TypeNode → Bool) → Spellings → Spellings
  | [], _, σ => σ
  | param :: ps, arg :: args, σ =>
    boundSpellings file ps args fun name => if param.name == name then some arg else σ name
  | param :: ps, [], σ =>
    boundSpellings file ps [] fun name =>
      match param.default with
      | some type => if param.name == name then some (writtenOut p slices file g σ type) else σ name
      | none => σ name

theorem spellings_bindParams (file : Nat) (ps : List TypeParam) (scope : Scope)
    (args : Arguments) :
    (bindParams file scope ps args).spellings p slices g =
      boundSpellings p slices g file ps
        (args.types.map (writtenOut p slices args.file g (args.scope.spellings p slices g)))
        (scope.spellings p slices g) := by
  induction ps generalizing scope args with
  | nil => rfl
  | cons param ps ih =>
    obtain ⟨argFile, around, types⟩ := args
    cases types with
    | cons arg types => exact ih _ ⟨argFile, around, types⟩
    | nil =>
      rw [bindParams]
      refine (ih _ ⟨argFile, around, []⟩).trans ?_
      show boundSpellings p slices g file ps [] _ = boundSpellings p slices g file ps [] _
      congr 1
      cases param.default with
      | none => rfl
      | some type => rfl

end

/-! ## The main statement -/

section

variable (p : Program) (slices : List String) (f g : Nat) (args : Arguments)

/-- What may stand in the file `g` for the parameters of a declaration of the file `f` with
arguments. In the arguments the parameters of the scope around them are written out. -/
def argumentSpellings (ps : List TypeParam) : Spellings :=
  boundSpellings p slices g f ps
    (args.types.map (writtenOut p slices args.file g (args.scope.spellings p slices g))) .none

/-- Whether `d'`, in the file `g`, is the instance of the declaration `d` of the file `f` for
some arguments: it has no parameters, and the body of `d` with all parameters written out. The
slices may be written out as well. -/
def isInstance (d d' : TypeDecl) : Bool :=
  (params d').isEmpty &&
    bodyWrittenOut p slices f g (argumentSpellings p slices f g args (params d)) d d'

end

section

variable {p : Program} {slices : List String} {G G' : Symbol} {d d' : TypeDecl} {args : Arguments}

/-- The open generic answers what its open instance does. -/
theorem answer_open_instance (hG : G.decls = [d]) (hG' : G'.decls = [d'])
    (hinst : isInstance p slices G.file G'.file args d d' = true)
    {callable : Symbol → Nat → Prop}
    (hcallable : ∀ r ∈ referencesInBody d', Within p callable G'.file r.1 r.2)
    (hleads : ∀ s k, callable s k → LeadsWithin p callable s) (room : Nat)
    {inside inside' : OpenSymbols} (hinside : Alike callable inside inside') :
    ShapesAlike slices (openProperties p (openerWith p room) inside G args)
        (openProperties p (openerWith p room) inside' G' .none) ∧
      Option.Rel (TextsAlike slices) (openText p (openerWith p room) inside G args)
        (openText p (openerWith p room) inside' G' .none) := by
  unfold isInstance at hinst
  rw [Bool.and_eq_true, List.isEmpty_iff] at hinst
  obtain ⟨hparams, hbody⟩ := hinst
  rw [openerWith_eq_expandWith]
  have hbinders : BindersAgree p slices callable .plain .plain := bindersAgree_plain hleads
  have hagree := agree hbinders
  have htypes : ∀ m ≤ room, TypesAgree p slices callable .plain .plain m :=
    fun m _ => (hagree m).2
  -- the parameters of the generic are spelled as the arguments that the instance writes out
  have hscope : ScopesAgree p slices callable .plain .plain room G.file G'.file
      (argumentSpellings p slices G.file G'.file args (params d))
      (bindParams G.file .empty (params d) args) .empty := by
    have hspelled := scopesAgree_spellings p slices G'.file htypes G.file
      (bindParams G.file .empty (params d) args)
    rw [spellings_bindParams] at hspelled
    exact hspelled
  have hsites : (bodySite p (expandWith p .plain room) inside G.file (params d) args).ReadsAs
      p slices G.file G'.file (argumentSpellings p slices G.file G'.file args (params d))
      (bodySite p (expandWith p .plain room) inside' G'.file (params d') .none)
      (Within p callable G'.file) := by
    rw [hparams]
    exact readsAs_of_scopes (hagree room).1 (fun m hm => htypes m (Nat.le_of_lt hm)) hscope hinside
  have hprops : ShapesAlike slices (openProperties p (expandWith p .plain room) inside G args)
      (openProperties p (expandWith p .plain room) inside' G' .none) := by
    unfold openProperties
    rw [hG, hG', List.flatMap_singleton, List.flatMap_singleton, declProperties_eq,
      declProperties_eq]
    exact ShapesAlike.nil.addShapes (bodyProperties_writtenOut hsites hbody hcallable)
  refine ⟨hprops, ?_⟩
  unfold openText
  rw [hG, hG']
  cases d with
  | interface d =>
    cases d' with
    | typeAlias d' => cases hbody
    | interface d' => exact .some (hprops.objectText .nil)
  | typeAlias d =>
    cases d' with
    | interface d' => cases hbody
    | typeAlias d' => exact .some (textOf_writtenOut hsites d.type d'.type hbody hcallable)

theorem propertiesOf_reference {site : Site} (span : Span) {name : EntityName}
    {types : List TypeNode} {s : Symbol} (hname : site.parameter? name types = none)
    (hs : site.lookup name.text = some s) :
    propertiesOf site (.reference span name types) = site.properties s types := by
  rw [propertiesOf, hname]
  dsimp only
  rw [hs]

theorem textOf_reference {site : Site} (span : Span) {name : EntityName} {types : List TypeNode}
    {s : Symbol} {text : String} (hname : site.parameter? name types = none)
    (hs : site.lookup name.text = some s) (htext : site.text s types = some text) :
    textOf site (.reference span name types) = text := by
  rw [textOf, hname]
  dsimp only
  rw [hs, Option.bind_some, htext]

/-- What an opener tells of a symbol that it opens. -/
theorem openerWith_of_enter {inside deeper : OpenSymbols} {s : Symbol}
    (h : inside.enter? s = some deeper) (room : Nat) (args : Arguments) :
    (openerWith p (room + 1)).properties inside s args =
        openProperties p (openerWith p room) deeper s args ∧
      (openerWith p (room + 1)).text inside s args =
        openText p (openerWith p room) deeper s args :=
  ⟨Answer.properties.inj (answer_openerWith_of_enter (c := ⟨.properties, s, args⟩) h),
    Answer.text.inj (answer_openerWith_of_enter (c := ⟨.text, s, args⟩) h)⟩

/-- **A generic is expanded like its instance.** A reference to a generic with arguments has the
properties and the text of a declaration without parameters whose body is that of the generic
with every parameter written out: as its argument, in which the parameters of the scope around
the reference are written out as their own arguments, or as its default with the parameters
before it written out. Neither the generic nor the instance may be reached from the instance.
The instance may write out slices of the source as well that are not printed. -/
theorem reference_eq_instance (hG : G.decls = [d]) (hG' : G'.decls = [d'])
    (hinst : isInstance p slices G.file G'.file args d d' = true)
    (hapart : ∀ s, TransGen (LeadsTo p) G' s → s.key ≠ G.key ∧ s.key ≠ G'.key)
    {inside : OpenSymbols} (hopen : G.key ∉ inside.keys ∧ G'.key ∉ inside.keys)
    (hdepth : inside.keys.length < maxDepth) {room : Nat} {site : Site}
    (hsite : site = siteAt p (openerWith p (room + 1)) inside args.file args.scope) {span : Span}
    {name : EntityName} (hlookup : p.lookup args.file name.text = some G)
    (hname : site.parameter? name args.types = none)
    (htext : ¬ Shows slices (textOf site (.reference span name args.types)))
    (hshapes : ∀ s ∈ propertiesOf site (.reference span name args.types), ¬ Shows slices s.type) :
    (propertiesOf site (.reference span name args.types)).map Shape.signature =
        ((openerWith p (room + 1)).properties inside G' .none).map Shape.signature ∧
      (openerWith p (room + 1)).text inside G' .none =
        some (textOf site (.reference span name args.types)) := by
  -- what the instance leads to may be called
  have hcallable : ∀ r ∈ referencesInBody d',
      Within p (fun s _ => TransGen (LeadsTo p) G' s) G'.file r.1 r.2 := by
    intro r hr s hs
    exact .single ⟨d', by rw [hG']; exact List.mem_singleton_self d', r,
      List.mem_append_left _ hr, hs⟩
  have hleads : ∀ s (_ : Nat), TransGen (LeadsTo p) G' s →
      LeadsWithin p (fun s _ => TransGen (LeadsTo p) G' s) s :=
    fun s _ hs e he r hr s' hs' => hs.tail ⟨e, he, r, hr, hs'⟩
  obtain ⟨deeper, hdeeper, hkeys⟩ := exists_enter?_of_key hopen.1 hdepth
  obtain ⟨deeper', hdeeper', hkeys'⟩ := exists_enter?_of_key hopen.2 hdepth
  have halike : Alike (fun s _ => TransGen (LeadsTo p) G' s) deeper deeper' := by
    constructor
    · rw [hkeys, hkeys', List.length_cons, List.length_cons]
    · intro s _ hs
      obtain ⟨hne, hne'⟩ := hapart s hs
      rw [hkeys, hkeys', List.mem_cons, List.mem_cons, or_iff_right hne, or_iff_right hne']
  obtain ⟨hprops, htexts⟩ := answer_open_instance hG hG' hinst hcallable hleads room halike
  obtain ⟨hopenProps, hopenText⟩ := openerWith_of_enter (p := p) hdeeper room args
  obtain ⟨hopenProps', hopenText'⟩ := openerWith_of_enter (p := p) hdeeper' room .none
  subst hsite
  have hproperties := (propertiesOf_reference span hname hlookup).trans hopenProps
  rw [hproperties] at hshapes ⊢
  rw [hopenProps', hopenText']
  refine ⟨hprops.signature hshapes, ?_⟩
  -- an open symbol with a declaration has a text
  obtain ⟨text, hsome⟩ : ∃ text, openText p (openerWith p room) deeper G args = some text := by
    unfold openText
    rw [hG]
    cases d <;> exact ⟨_, rfl⟩
  have hreference := textOf_reference span hname hlookup (hopenText.trans hsome)
  rw [hreference] at htext ⊢
  rw [hsome] at htexts
  generalize openText p (openerWith p room) deeper' G' .none = text' at htexts ⊢
  cases htexts with
  | some halike => rw [halike.resolve_right htext]

end

/-! ## Checking a program -/

section

variable (p : Program)

/-- Whether an instance leads neither to its generic nor to itself, along ways of at most
`maxDepth` steps. -/
def checkApart (G G' : Symbol) : Bool :=
  (leads p G').all fun s => endsWithin (leads p) maxDepth s &&
    (reachedWithin (leads p) maxDepth s).all fun s' => s'.key ≠ G.key && s'.key ≠ G'.key

variable {p}

theorem apart_of_check {G G' : Symbol} (h : checkApart p G G' = true) (s : Symbol)
    (hs : TransGen (LeadsTo p) G' s) : s.key ≠ G.key ∧ s.key ≠ G'.key := by
  obtain ⟨s₁, h₁, h₂⟩ := TransGen.head'_iff.mp hs
  unfold checkApart at h
  rw [List.all_eq_true] at h
  have hchecked := h s₁ (leadsTo_iff.mp h₁)
  rw [Bool.and_eq_true, List.all_eq_true] at hchecked
  have hmem := mem_reachedWithin hchecked.1
    (ReflTransGen.mono (fun _ _ => leadsTo_iff.mp) _ _ h₂)
  have hkeys := hchecked.2 s hmem
  rw [Bool.and_eq_true] at hkeys
  exact ⟨of_decide_eq_true hkeys.1, of_decide_eq_true hkeys.2⟩

end

/-- Whether a symbol with one declaration is the instance of a generic with one. -/
def isInstanceOf (p : Program) (slices : List String) (args : Arguments) (G G' : Symbol) : Bool :=
  match G.decls, G'.decls with
  | [d], [d'] => isInstance p slices G.file G'.file args d d'
  | _, _ => false

theorem exists_of_isInstanceOf {p : Program} {slices : List String} {args : Arguments}
    {G G' : Symbol} (h : isInstanceOf p slices args G G' = true) :
    ∃ d d', G.decls = [d] ∧ G'.decls = [d'] ∧
      isInstance p slices G.file G'.file args d d' = true := by
  unfold isInstanceOf at h
  split at h
  next d d' hdecls hdecls' => exact ⟨d, d', hdecls, hdecls', h⟩
  next => cases h

/-! ## A generic inside another one -/

/-- A generic, and its instance for `Base`. -/
def instanceText : String :=
  "type Base = \x7b b: string \x7d;\n" ++
    "type G<P, Q = P[]> = \x7b p: P; q?: Q; r: P['b'] \x7d & P;\n" ++
    "type H = \x7b p: Base; q?: Base[]; r: Base['b'] \x7d & Base;\n" ++
    "export type XConfigType = \x7b\x7d;"

/-- A parameter of a generic around the reference, with a name that the generic uses too. -/
def aroundP : Scope :=
  .bind "P" rootFile (.reference ⟨0, 0⟩ (.name "Base") []) .empty .empty

/-- The argument is that parameter. -/
def argsP : Arguments :=
  ⟨rootFile, aroundP, [.reference ⟨0, 0⟩ (.name "P") []]⟩

/-- The slice of the indexed access is written out in the instance and not printed. -/
def indexedSlice : List String :=
  ["P['b']"]

theorem reference_eq_instance_same_name :
    ∃ c G H, Context.build (oneFile instanceText) onePath instanceText = .ok c ∧
      c.program.lookup rootFile "G" = some G ∧ c.program.lookup rootFile "H" = some H ∧
      (propertiesOf (siteAt c.program (openerWith c.program maxDepth) .none rootFile aroundP)
          (.reference ⟨0, 0⟩ (.name "G") argsP.types)).map Shape.signature =
        ((openerWith c.program maxDepth).properties .none H .none).map Shape.signature ∧
      (openerWith c.program maxDepth).text .none H .none =
        some (textOf (siteAt c.program (openerWith c.program maxDepth) .none rootFile aroundP)
          (.reference ⟨0, 0⟩ (.name "G") argsP.types)) := by
  have hany : (oneContext? instanceText).any (fun c =>
      let p := c.program
      let site := siteAt p (openerWith p maxDepth) .none rootFile aroundP
      let reference := TypeNode.reference ⟨0, 0⟩ (.name "G") argsP.types
      (p.lookup rootFile "G").any fun G => (p.lookup rootFile "H").any fun H =>
        isInstanceOf p indexedSlice argsP G H &&
        (checkApart p G H && (decide (¬ Shows indexedSlice (textOf site reference)) &&
          (propertiesOf site reference).all fun s => ¬ Shows indexedSlice s.type))) = true := by
    decide +kernel
  obtain ⟨c, hc, hfound⟩ := Option.any_eq_true _ _ |>.mp hany
  obtain ⟨G, hG, hfound⟩ := Option.any_eq_true _ _ |>.mp hfound
  obtain ⟨H, hH, hcheck⟩ := Option.any_eq_true _ _ |>.mp hfound
  simp only [Bool.and_eq_true, List.all_eq_true, decide_eq_true_eq] at hcheck
  obtain ⟨hinst, hapart, htext, hshapes⟩ := hcheck
  obtain ⟨d, d', hdecls, hdecls', hinst⟩ := exists_of_isInstanceOf hinst
  exact ⟨c, G, H, build_of_oneContext? hc, hG, hH,
    reference_eq_instance hdecls hdecls' hinst (apart_of_check hapart)
      ⟨List.not_mem_nil, List.not_mem_nil⟩ (by decide) rfl hG rfl htext hshapes⟩

/-! ## A default that leads back -/

/-- A generic whose default applies it, and the instance without arguments. -/
def ownDefaultText : String :=
  "type G<P = G<string>> = \x7b a: P \x7d;\ntype H = \x7b a: G<string> \x7d;\n" ++
    "export type XConfigType = \x7b u: G; v: H \x7d;"

/-- A default is read while the generic is open. If it leads back to the generic it stays as it is
written there, and the instance writes it out, although neither the body of the generic nor
an argument leads to anything. -/
theorem reference_own_default_ne_instance :
    ∃ c G H d d', Context.build (oneFile ownDefaultText) onePath ownDefaultText = .ok c ∧
      c.program.lookup rootFile "G" = some G ∧ c.program.lookup rootFile "H" = some H ∧
      G.decls = [d] ∧ H.decls = [d'] ∧ isInstance c.program [] G.file H.file .none d d' = true ∧
      (∀ s, ¬ Mentions c.program G s) ∧
      textOf (siteAt c.program (openerWith c.program maxDepth) .none rootFile .empty)
        (.reference ⟨0, 0⟩ (.name "G") []) = "\x7b a: G<string>; \x7d" ∧
      (openerWith c.program maxDepth).text .none H .none =
        some "\x7b a: \x7b a: string; \x7d; \x7d" := by
  have hany : (oneContext? ownDefaultText).any (fun c =>
      let p := c.program
      let site := siteAt p (openerWith p maxDepth) .none rootFile .empty
      (p.lookup rootFile "G").any fun G => (p.lookup rootFile "H").any fun H =>
        isInstanceOf p [] .none G H &&
        ((mentioned p G).isEmpty &&
          (textOf site (.reference ⟨0, 0⟩ (.name "G") []) = "\x7b a: G<string>; \x7d" &&
            (openerWith p maxDepth).text .none H .none =
              some "\x7b a: \x7b a: string; \x7d; \x7d"))) = true := by
    decide +kernel
  obtain ⟨c, hc, hfound⟩ := Option.any_eq_true _ _ |>.mp hany
  obtain ⟨G, hG, hfound⟩ := Option.any_eq_true _ _ |>.mp hfound
  obtain ⟨H, hH, hcheck⟩ := Option.any_eq_true _ _ |>.mp hfound
  simp only [Bool.and_eq_true, List.isEmpty_iff, decide_eq_true_eq] at hcheck
  obtain ⟨hinst, hmentioned, htext, htext'⟩ := hcheck
  obtain ⟨d, d', hdecls, hdecls', hinst⟩ := exists_of_isInstanceOf hinst
  refine ⟨c, G, H, d, d', build_of_oneContext? hc, hG, hH, hdecls, hdecls', hinst, ?_, htext,
    htext'⟩
  intro t ht
  rw [mentions_iff, hmentioned] at ht
  cases ht

end ElementManifest.Expansion

import ElementManifest.Proofs.CallSites
import ElementManifest.Proofs.Discovery
import ElementManifest.Proofs.SameInference
import ElementManifest.Proofs.Searches

/-!
# Where properties are signed

Properties are signed in bodies, those of object types and of interfaces. From a declaration an
extraction gets to bodies through parentheses, branches, parents, names and arguments. All that it
looks at on the way stands in a source, so what it finds is signed in one:

> `AsWritten.signs_of_extract`: what an extraction as written finds is signed in its source.

> `Context.signs_of_extract`: what is found with names resolved is signed in a file of the
> program.

The second goes by an invariant of the places that an expansion gets to (`Site.Grounded`): the
arguments in scope stand in the files that they are taken from, and so do the declarations that
names lead to.
-/

namespace ElementManifest

open ElementManifest.TypeScript ElementManifest.Expansion

namespace TypeScript

/-! ## Bodies -/

/-- A body of members: where it opens, and what its owner consists of in front of it. -/
structure Body where
  opening : Nat
  front : List Node
  members : List Member

/-- The body that a part has, that of an object type or of an interface. -/
def Node.body? : Node → Option Body
  | .type (.object span members) => some ⟨span.lo, [], members⟩
  | .stmt (.interface d) =>
    some ⟨d.bodyStart, d.params.flatMap TypeParam.children ++ d.parents.flatMap Heritage.children,
      d.members⟩
  | _ => none

theorem Node.children_of_body? {n : Node} {b : Body} (h : n.body? = some b) :
    n.children = b.front ++ b.members.map .member := by
  unfold Node.body? at h
  split at h
  next =>
    cases h
    rfl
  next =>
    cases h
    rfl
  next => cases h

namespace Body

/-- The end of the last member in front of the one with the number `k`, or where the body opens. -/
def placeOf (b : Body) (k : Nat) : Nat :=
  ((b.members.take k).getLast?).elim b.opening (·.span.hi)

/-- The signature of the member with the number `k`, if it is a property. -/
def signature? (b : Body) (k : Nat) : Option Signature :=
  match b.members[k]? with
  | some (.property p) => some (p, b.placeOf k)
  | _ => none

theorem placeOf_cons (opening : Nat) (front : List Node) (m : Member) (ms : List Member)
    (k : Nat) :
    placeOf ⟨opening, front, m :: ms⟩ (k + 1) = placeOf ⟨m.span.hi, front, ms⟩ k := by
  unfold placeOf
  rw [List.take_succ_cons, List.getLast?_cons]
  cases (ms.take k).getLast? with
  | none => rfl
  | some last => rfl

theorem signature?_cons (opening : Nat) (front : List Node) (m : Member) (ms : List Member)
    (k : Nat) :
    signature? ⟨opening, front, m :: ms⟩ (k + 1) = signature? ⟨m.span.hi, front, ms⟩ k := by
  unfold signature?
  rw [placeOf_cons, List.getElem?_cons_succ]

/-- The signatures of a body are those of its members, each one with its place. -/
theorem exists_signature? {opening : Nat} (front : List Node) {ms : List Member} {sig : Signature}
    (h : sig ∈ documentedFrom opening ms) : ∃ k, signature? ⟨opening, front, ms⟩ k = some sig := by
  induction ms generalizing opening with
  | nil => cases h
  | cons m ms ih =>
    have hrest (h : sig ∈ documentedFrom m.span.hi ms) :
        ∃ k, signature? ⟨opening, front, m :: ms⟩ k = some sig := by
      obtain ⟨k, hk⟩ := ih h
      exact ⟨k + 1, by rw [signature?_cons, hk]⟩
    cases m with
    | property p =>
      rcases List.mem_cons.mp h with rfl | h
      · exact ⟨0, rfl⟩
      · exact hrest h
    | other span parts => exact hrest h

end Body

/-! ## What stands in a source -/

/-- What is in one part stands at the position of that part with one more number. -/
theorem Node.atPosition?_concat {ns : List Node} {pos : List Nat} {n : Node}
    (h : atPosition? ns pos = some n) (i : Nat) :
    atPosition? ns (pos ++ [i]) = n.children[i]? := by
  induction pos generalizing ns with
  | nil => cases h
  | cons j pos ih =>
    cases pos with
    | nil =>
      have hj : ns[j]? = some n := h
      show (ns[j]?).bind (fun n => n.children[i]?) = n.children[i]?
      rw [hj, Option.bind_some]
    | cons k pos =>
      obtain ⟨m, hm, hn⟩ := Option.bind_eq_some_iff.mp h
      show (ns[j]?).bind (fun n => atPosition? n.children (k :: pos ++ [i])) = n.children[i]?
      rw [hm, Option.bind_some]
      exact ih hn

namespace Source

variable {s : Source}

/-- Whether a part stands somewhere in a source. -/
def Holds (s : Source) (n : Node) : Prop :=
  ∃ pos, s.atPosition? pos = some n

theorem Holds.child {n m : Node} (h : s.Holds n) (hm : m ∈ n.children) : s.Holds m := by
  obtain ⟨pos, hpos⟩ := h
  obtain ⟨i, hi⟩ := List.mem_iff_getElem?.mp hm
  exact ⟨pos ++ [i], (Node.atPosition?_concat hpos i).trans hi⟩

theorem holds_of_mem_parts {item : Item} (hitem : item ∈ s.items) {n : Node}
    (hn : n ∈ item.parts) : s.Holds n := by
  obtain ⟨i, hi⟩ := List.mem_iff_getElem?.mp (List.mem_flatMap.mpr ⟨item, hitem, hn⟩)
  exact ⟨[i], hi⟩

/-- The signature of a property, by the position of its body and its number among the members. -/
def signatureAt? (s : Source) (pos : List Nat) (k : Nat) : Option Signature :=
  ((s.atPosition? pos).bind Node.body?).bind (·.signature? k)

theorem signatureAt?_eq_some_iff {pos : List Nat} {k : Nat} {sig : Signature} :
    s.signatureAt? pos k = some sig ↔
      ∃ n b, s.atPosition? pos = some n ∧ n.body? = some b ∧ b.signature? k = some sig := by
  unfold signatureAt?
  rw [Option.bind_eq_some_iff]
  constructor
  · rintro ⟨b, hb, hsig⟩
    obtain ⟨n, hn, hb⟩ := Option.bind_eq_some_iff.mp hb
    exact ⟨n, b, hn, hb, hsig⟩
  · rintro ⟨n, b, hn, hb, hsig⟩
    exact ⟨b, Option.bind_eq_some_iff.mpr ⟨n, hn, hb⟩, hsig⟩

/-- A property of this name, with this doc, is signed somewhere in a source. -/
def Signs (s : Source) (name : String) (doc : Option String) : Prop :=
  ∃ pos k sig, s.signatureAt? pos k = some sig ∧ sig.1.name? = some name ∧
    s.docOf sig.1 sig.2 = doc

theorem Holds.exists_signatureAt? {n : Node} (h : s.Holds n) {b : Body} (hb : n.body? = some b)
    {sig : Signature} (hsig : sig ∈ documentedFrom b.opening b.members) :
    ∃ pos k, s.signatureAt? pos k = some sig := by
  obtain ⟨pos, hpos⟩ := h
  obtain ⟨k, hk⟩ := Body.exists_signature? b.front hsig
  exact ⟨pos, k, signatureAt?_eq_some_iff.mpr ⟨n, b, hpos, hb, hk⟩⟩

theorem Holds.signs {n : Node} (h : s.Holds n) {b : Body} (hb : n.body? = some b)
    {sig : Signature} (hsig : sig ∈ documentedFrom b.opening b.members) {name : String}
    (hname : sig.1.name? = some name) : s.Signs name (s.docOf sig.1 sig.2) := by
  obtain ⟨pos, k, hk⟩ := h.exists_signatureAt? hb hsig
  exact ⟨pos, k, sig, hk, hname, rfl⟩

end Source

end TypeScript

/-! ## Declarations -/

/-- The statement of a declaration. -/
def TypeDecl.stmt : TypeDecl → Stmt
  | .interface d => .interface d
  | .typeAlias d => .typeAlias d

/-- The type parameters of a declaration. -/
def TypeDecl.params : TypeDecl → List TypeParam
  | .interface d => d.params
  | .typeAlias d => d.params

theorem TypeDecl.stmt_of_ofStmt? {stmt : Stmt} {d : TypeDecl} (h : ofStmt? stmt = some d) :
    d.stmt = stmt := by
  cases stmt with
  | interface i =>
    cases h
    rfl
  | typeAlias a =>
    cases h
    rfl
  | form parts => cases h

theorem TopLevelDecl.mem_parts_of_ofItem? {item : Item} {d : TopLevelDecl}
    (h : ofItem? item = some d) : Node.stmt d.decl.stmt ∈ item.parts := by
  unfold ofItem? at h
  split at h
  next stmt =>
    obtain ⟨decl, hdecl, rfl⟩ := Option.map_eq_some_iff.mp h
    rw [TypeDecl.stmt_of_ofStmt? hdecl]
    exact List.mem_singleton_self _
  next stmt =>
    obtain ⟨decl, hdecl, rfl⟩ := Option.map_eq_some_iff.mp h
    rw [TypeDecl.stmt_of_ofStmt? hdecl]
    exact List.mem_singleton_self _
  next =>
    cases h
    exact List.mem_singleton_self _
  next => cases h

theorem TypeScript.Source.holds_of_mem_typeDecls {s : Source} {d : TopLevelDecl}
    (h : d ∈ s.typeDecls) : s.Holds (.stmt d.decl.stmt) := by
  obtain ⟨item, hitem, hd⟩ := List.mem_filterMap.mp h
  exact Source.holds_of_mem_parts hitem (TopLevelDecl.mem_parts_of_ofItem? hd)

namespace TypeScript.Source.Holds

variable {s : Source}

theorem aliased {d : Alias} (h : s.Holds (.stmt (.typeAlias d))) : s.Holds (.type d.type) :=
  h.child (List.mem_append_right _ (List.mem_singleton_self _))

theorem parent {d : Interface} (h : s.Holds (.stmt (.interface d))) {parent : Heritage}
    (hparent : parent ∈ d.parents) {arg : TypeNode} (harg : arg ∈ parent.args) :
    s.Holds (.type arg) := by
  refine h.child (List.mem_append_left _ (List.mem_append_right _ ?_))
  exact List.mem_flatMap.mpr
    ⟨parent, hparent, List.mem_cons_of_mem _ (List.mem_map_of_mem harg)⟩

/-- What is taken for a missing argument stands in the declaration. -/
theorem default {d : TypeDecl} (h : s.Holds (.stmt d.stmt)) {param : TypeParam}
    (hparam : param ∈ d.params) {type : TypeNode} (htype : param.default = some type) :
    s.Holds (.type type) := by
  have hmem : Node.type type ∈ d.params.flatMap TypeParam.children := by
    refine List.mem_flatMap.mpr ⟨param, hparam, List.mem_append_right _ ?_⟩
    rw [htype]
    exact List.mem_singleton_self _
  cases d with
  | interface d => exact h.child (List.mem_append_left _ (List.mem_append_left _ hmem))
  | typeAlias d => exact h.child (List.mem_append_left _ hmem)

/-- The structure of a type is that of a type in its parentheses. -/
theorem body {t : TypeNode} (h : s.Holds (.type t)) :
    ∃ inner, s.Holds (.type inner) ∧ inner.body = t.body ∧ ∀ span t', inner ≠ .paren span t' := by
  cases t with
  | paren span inner =>
    have hinner : s.Holds (.type inner) := h.child (List.mem_singleton_self _)
    exact hinner.body
  | _ => exact ⟨_, h, rfl, fun _ _ heq => by cases heq⟩

theorem object {t : TypeNode} (h : s.Holds (.type t)) {span : Span} {members : List Member}
    (hbody : t.body = .object span members) : s.Holds (.type (.object span members)) := by
  obtain ⟨inner, hinner, heq, hbare⟩ := h.body
  rw [hbody] at heq
  cases inner with
  | paren span t' => exact absurd rfl (hbare span t')
  | object span' members' =>
    cases heq
    exact hinner
  | _ => cases heq

theorem branch {t : TypeNode} (h : s.Holds (.type t)) {branches : List TypeNode}
    (hbody : t.body = .intersection branches) {b : TypeNode} (hb : b ∈ branches) :
    s.Holds (.type b) := by
  obtain ⟨inner, hinner, heq, hbare⟩ := h.body
  rw [hbody] at heq
  cases inner with
  | paren span t' => exact absurd rfl (hbare span t')
  | intersection span branches' =>
    cases heq
    exact hinner.child (List.mem_map_of_mem hb)
  | _ => cases heq

end TypeScript.Source.Holds

/-! ## As written -/

namespace AsWritten

variable {s : Source}

theorem signs_addMembers {shapes : List Shape}
    (hshapes : ∀ shape ∈ shapes, s.Signs shape.name shape.doc) {n : Node} (hn : s.Holds n)
    {b : Body} (hb : n.body? = some b) :
    ∀ shape ∈ addMembers s shapes b.opening b.members, s.Signs shape.name shape.doc := by
  intro shape hshape
  rcases mem_addShapes hshape with hshape | hshape
  · exact hshapes shape hshape
  · obtain ⟨sig, hsig, hof⟩ := List.mem_filterMap.mp hshape
    obtain ⟨name, hname, heq⟩ := Option.bind_eq_some_iff.mp hof
    cases heq
    exact hn.signs hb hsig hname

theorem signs_addBranch {shapes : List Shape}
    (hshapes : ∀ shape ∈ shapes, s.Signs shape.name shape.doc) {branch : TypeNode}
    (hbranch : s.Holds (.type branch)) :
    ∀ shape ∈ addBranch s shapes branch, s.Signs shape.name shape.doc := by
  unfold addBranch
  split
  next span members hbody => exact signs_addMembers hshapes (hbranch.object hbody) rfl
  next => exact hshapes

theorem signs_foldl_addBranch {branches : List TypeNode} {shapes : List Shape}
    (hshapes : ∀ shape ∈ shapes, s.Signs shape.name shape.doc)
    (hbranches : ∀ branch ∈ branches, s.Holds (.type branch)) :
    ∀ shape ∈ branches.foldl (addBranch s) shapes, s.Signs shape.name shape.doc := by
  induction branches generalizing shapes with
  | nil => exact hshapes
  | cons branch branches ih =>
    rw [List.forall_mem_cons] at hbranches
    exact ih (signs_addBranch hshapes hbranches.1) hbranches.2

theorem signs_declShapes {d : TypeDecl} (h : s.Holds (.stmt d.stmt)) :
    ∀ shape ∈ declShapes s d, s.Signs shape.name shape.doc := by
  cases d with
  | interface d => exact signs_addMembers (fun _ hnil => by cases hnil) h rfl
  | typeAlias d =>
    unfold declShapes
    dsimp only
    split
    next span members hbody =>
      exact signs_addMembers (fun _ hnil => by cases hnil) (h.aliased.object hbody) rfl
    next branches hbody =>
      exact signs_foldl_addBranch (fun _ hnil => by cases hnil)
        fun branch hbranch => h.aliased.branch hbody hbranch
    next => exact fun _ hnil => by cases hnil

/-- What is found as written is signed in the source that is read. -/
theorem signs_of_extract {path : Path} {text : String} {name : Option String}
    {shapes : List Shape} (h : extract path text name = .found shapes) :
    ∃ s, Source.read path text = some s ∧ ∀ shape ∈ shapes, s.Signs shape.name shape.doc := by
  cases name with
  | some name =>
    obtain ⟨s, d, hs, hd, -, rfl, -⟩ := exists_decl_of_extract_some h
    exact ⟨s, hs, signs_declShapes (Source.holds_of_mem_typeDecls hd)⟩
  | none =>
    obtain ⟨s, d, hs, hd, -, rfl, -⟩ := exists_decl_of_extract_none h
    exact ⟨s, hs, signs_declShapes (Source.holds_of_mem_typeDecls hd)⟩

end AsWritten

/-! ## Names -/

/-- A property that is signed in a file of a program. -/
def Program.Signs (p : Program) (shape : Shape) : Prop :=
  ∃ f ∈ p.files, f.source.Signs shape.name shape.doc

/-- A symbol whose declarations stand in its file. -/
def Symbol.Grounded (p : Program) (symbol : Symbol) : Prop :=
  ∀ d ∈ symbol.decls, (sourceOf p symbol.file).Holds (.stmt d.stmt)

namespace Program

variable {p : Program} (hp : ∀ f ∈ p.files, f = .ofSource f.path f.source)

include hp

theorem grounded_of_group? {file : Nat} {f : SourceFile} (hf : p.files[file]? = some f)
    {name : String} {g : DeclGroup} (hg : f.group? name = some g) :
    (g.symbol file).Grounded p := by
  intro d hd
  have hfind := find?_declGroups f.source.typeDecls name
  rw [hp f (List.mem_of_getElem? hf)] at hg
  have hgroup := hfind.symm.trans hg
  split at hgroup
  next => cases hgroup
  next d' more hmore =>
    cases hgroup
    obtain ⟨top, htop, rfl⟩ := List.mem_map.mp hd
    rw [← hmore] at htop
    show (sourceOf p file).Holds _
    rw [sourceOf_of_file hf]
    exact Source.holds_of_mem_typeDecls (List.mem_filter.mp htop).1

end Program

/-- A symbol that is declared in a program stands in its file. -/
theorem Symbol.DeclaredIn.grounded {p : Program} {symbol : Symbol} (h : symbol.DeclaredIn p)
    (hp : ∀ f ∈ p.files, f = .ofSource f.path f.source) : symbol.Grounded p := by
  obtain ⟨f, hf, hgroup⟩ := h
  obtain ⟨g, hg, hsymbol⟩ := Option.map_eq_some_iff.mp hgroup
  rw [← hsymbol]
  exact Program.grounded_of_group? hp hf hg

/-! ## Types in a scope -/

namespace Expansion

/-- Types in scope stand in the files that they are taken from. -/
def Scope.Grounded (p : Program) : Scope → Prop
  | .empty => True
  | .bind _ file type around rest =>
    (sourceOf p file).Holds (.type type) ∧ around.Grounded p ∧ rest.Grounded p

/-- Arguments stand in the file that they are taken from, and so do the types in their scope. -/
structure Arguments.Grounded (p : Program) (args : Arguments) : Prop where
  types : ∀ t ∈ args.types, (sourceOf p args.file).Holds (.type t)
  scope : args.scope.Grounded p

theorem Arguments.grounded_none (p : Program) : Arguments.none.Grounded p where
  types := nofun
  scope := trivial

theorem Scope.Grounded.bindParams {p : Program} {file : Nat} {ps : List TypeParam}
    (hps : ∀ param ∈ ps, ∀ t, param.default = some t → (sourceOf p file).Holds (.type t))
    {scope : Scope} (hscope : scope.Grounded p) {args : Arguments} (hargs : args.Grounded p) :
    (Expansion.bindParams file scope ps args).Grounded p := by
  induction ps generalizing scope args with
  | nil => exact hscope
  | cons param ps ih =>
    rw [List.forall_mem_cons] at hps
    obtain ⟨argFile, around, types⟩ := args
    cases types with
    | cons arg types =>
      obtain ⟨harg, htypes⟩ := List.forall_mem_cons.mp hargs.types
      have hbound : (Scope.bind param.name argFile arg around scope).Grounded p :=
        ⟨harg, hargs.scope, hscope⟩
      rw [Expansion.bindParams]
      exact ih hps.2 hbound ⟨htypes, hargs.scope⟩
    | nil =>
      rw [Expansion.bindParams]
      refine ih hps.2 ?_ hargs
      cases hdefault : param.default with
      | none => exact hscope
      | some t => exact ⟨hps.1 t hdefault, hscope, hscope⟩

/-- What a place must give for the properties of the types in it to be signed: those of the
arguments of its parameters and of the symbols that names lead to are signed already. -/
structure Site.Grounded (p : Program) (site : Site) : Prop where
  file : ∀ n, site.source.Holds n → ∃ f ∈ p.files, f.source = site.source
  meaning : ∀ name meaning, site.meaning name = some meaning →
    ∀ shape ∈ meaning.properties (), p.Signs shape
  properties : ∀ name symbol args, site.lookup name = some symbol →
    (∀ t ∈ args, site.source.Holds (.type t)) → ∀ shape ∈ site.properties symbol args, p.Signs shape

/-- A built-in type keeps the names and the docs of the properties that it does not leave out. -/
theorem signs_apply {p : Program} {shapes : List Shape} (h : ∀ shape ∈ shapes, p.Signs shape)
    (u : Utility) (keys : Option (List String)) : ∀ shape ∈ u.apply shapes keys, p.Signs shape := by
  have hoptional (optional : Bool) :
      ∀ shape ∈ shapes.map ({ · with optional := optional }), p.Signs shape := by
    intro shape hshape
    obtain ⟨s, hs, rfl⟩ := List.mem_map.mp hshape
    exact h s hs
  cases u with
  | partialOf => exact hoptional true
  | requiredOf => exact hoptional false
  | readonlyOf => exact h
  | pick =>
    cases keys with
    | none => exact nofun
    | some keys => exact fun shape hshape => h shape (List.mem_filter.mp hshape).1
  | leaveOut =>
    cases keys with
    | none => exact nofun
    | some keys => exact fun shape hshape => h shape (List.mem_filter.mp hshape).1

namespace Site.Grounded

variable {p : Program} {site : Site}

theorem memberShapes (h : site.Grounded p) {n : Node} (hn : site.source.Holds n) {b : Body}
    (hb : n.body? = some b) :
    ∀ shape ∈ Expansion.memberShapes site b.opening b.members, p.Signs shape := by
  intro shape hshape
  obtain ⟨f, hf, hsource⟩ := h.file n hn
  rw [memberShapes_eq_filterMap] at hshape
  obtain ⟨sig, hsig, hof⟩ := List.mem_filterMap.mp hshape
  obtain ⟨name, hname, rfl⟩ := Option.map_eq_some_iff.mp hof
  refine ⟨f, hf, ?_⟩
  rw [hsource]
  exact hn.signs hb hsig hname

mutual

theorem propertiesOf (h : site.Grounded p) : ∀ t : TypeNode, site.source.Holds (.type t) →
    ∀ shape ∈ Expansion.propertiesOf site t, p.Signs shape
  | .paren _ inner, ht => by
    rw [Expansion.propertiesOf]
    exact h.propertiesOf inner (ht.child (List.mem_singleton_self _))
  | .object span members, ht => by
    rw [Expansion.propertiesOf]
    intro shape hshape
    rcases mem_addShapes hshape with hnil | hshape
    · cases hnil
    · exact h.memberShapes ht rfl shape hshape
  | .intersection _ branches, ht => by
    rw [Expansion.propertiesOf]
    exact h.branchProperties branches (fun t hmem => ht.child (List.mem_map_of_mem hmem))
      fun _ hnil => by cases hnil
  | .operator _ .readonly inner, ht => by
    rw [Expansion.propertiesOf]
    exact h.propertiesOf inner (ht.child (List.mem_singleton_self _))
  | .reference _ name args, ht => by
    rw [Expansion.propertiesOf]
    have hargs : ∀ t ∈ args, site.source.Holds (.type t) :=
      fun t hmem => ht.child (List.mem_map_of_mem hmem)
    cases hmeaning : site.parameter? name args with
    | some meaning => exact h.meaning _ meaning (Site.meaning_of_parameter? hmeaning)
    | none =>
      dsimp only
      cases hlookup : site.lookup name.text with
      | some symbol => exact h.properties name.text symbol args hlookup hargs
      | none => exact h.utilityProperties name.text args hargs
  | .text .., _ | .keyword .., _ | .truth .., _ | .array .., _ | .tuple .., _ | .union .., _
  | .operator _ .keyof _, _ | .operator _ .unique _, _ | .optional .., _ | .rest .., _
  | .indexed .., _ | .other .., _ => by
    rw [Expansion.propertiesOf] <;> simp

theorem branchProperties (h : site.Grounded p) : ∀ ts : List TypeNode,
    (∀ t ∈ ts, site.source.Holds (.type t)) → ∀ {shapes : List Shape},
      (∀ shape ∈ shapes, p.Signs shape) →
      ∀ shape ∈ Expansion.branchProperties site shapes ts, p.Signs shape
  | [], _, _, hshapes => by
    rw [Expansion.branchProperties]
    exact hshapes
  | t :: ts, hts, _, hshapes => by
    rw [Expansion.branchProperties]
    rw [List.forall_mem_cons] at hts
    refine h.branchProperties ts hts.2 fun shape hshape => ?_
    rcases mem_addShapes hshape with hshape | hshape
    · exact hshapes shape hshape
    · exact h.propertiesOf t hts.1 shape hshape

theorem utilityProperties (h : site.Grounded p) (name : String) : ∀ args : List TypeNode,
    (∀ t ∈ args, site.source.Holds (.type t)) →
      ∀ shape ∈ Expansion.utilityProperties site name args, p.Signs shape
  | [], _ => by
    rw [Expansion.utilityProperties]
    exact nofun
  | [target], hargs => by
    rw [Expansion.utilityProperties]
    cases Utility.ofName? name with
    | none => exact nofun
    | some u => exact signs_apply (h.propertiesOf target (hargs _ List.mem_cons_self)) u none
  | target :: index :: _, hargs => by
    rw [Expansion.utilityProperties]
    cases Utility.ofName? name with
    | none => exact nofun
    | some u => exact signs_apply (h.propertiesOf target (hargs _ List.mem_cons_self)) u _

end

theorem parentProperties (h : site.Grounded p) {parent : Heritage}
    (hparent : ∀ t ∈ parent.args, site.source.Holds (.type t)) :
    ∀ shape ∈ Expansion.parentProperties site parent, p.Signs shape := by
  unfold Expansion.parentProperties
  split
  next name _ =>
    unfold Expansion.namedProperties
    split
    next symbol hlookup => exact h.properties name symbol parent.args hlookup hparent
    next => exact h.utilityProperties name parent.args hparent
  next => exact nofun

end Site.Grounded

/-! ## Symbols -/

theorem exists_file_of_holds {p : Program} {file : Nat} {n : Node}
    (h : (sourceOf p file).Holds n) : ∃ f ∈ p.files, f.source = sourceOf p file := by
  unfold sourceOf at h ⊢
  cases hf : p.files[file]? with
  | none =>
    rw [hf] at h
    obtain ⟨pos, hpos⟩ := h
    exact absurd ((Node.atPosition?_nil pos).symm.trans hpos) nofun
  | some f => exact ⟨f, List.mem_of_getElem? hf, rfl⟩

section

variable {p : Program} (hp : ∀ f ∈ p.files, f = .ofSource f.path f.source) {opener : Opener}
  (hopener : ∀ inside symbol args, symbol.Grounded p → args.Grounded p →
    ∀ shape ∈ opener.properties inside symbol args, p.Signs shape)
  (inside : OpenSymbols)

include hp hopener

/-- A place is grounded with its scope: an argument stands in a smaller scope than the parameter
that is bound to it. -/
theorem grounded_siteAt (file : Nat) {scope : Scope} (hscope : scope.Grounded p) :
    (siteAt p opener inside file scope).Grounded p := by
  have hproperties (file : Nat) {scope : Scope} (hscope : scope.Grounded p) (name : String)
      (symbol : Symbol) (args : List TypeNode) (hlookup : p.lookup file name = some symbol)
      (hargs : ∀ t ∈ args, (sourceOf p file).Holds (.type t)) :
      ∀ shape ∈ opener.properties inside symbol ⟨file, scope, args⟩, p.Signs shape :=
    hopener inside symbol _ ((Program.declaredIn_of_lookup hlookup).grounded hp) ⟨hargs, hscope⟩
  suffices hmeaning : ∀ name meaning, meaningIn p opener inside scope name = some meaning →
      ∀ shape ∈ meaning.properties (), p.Signs shape from
    ⟨fun _ => exists_file_of_holds, hmeaning, hproperties file hscope⟩
  clear file
  induction scope with
  | empty =>
    intro name meaning h
    rw [meaningIn] at h
    cases h
  | bind param argFile type around rest ih_around ih_rest =>
    intro name meaning h
    rw [meaningIn] at h
    split at h
    next =>
      cases h
      exact Site.Grounded.propertiesOf ⟨fun _ => exists_file_of_holds, ih_around hscope.2.1,
        hproperties argFile hscope.2.1⟩ type hscope.1
    next => exact ih_rest hscope.2.2 name meaning h

theorem signs_declProperties {file : Nat} {args : Arguments} (hargs : args.Grounded p)
    {d : TypeDecl} (hd : (sourceOf p file).Holds (.stmt d.stmt)) :
    ∀ shape ∈ declProperties p opener inside file args d, p.Signs shape := by
  have hempty : Scope.empty.Grounded p := trivial
  have hsite : (bodySite p opener inside file d.params args).Grounded p :=
    grounded_siteAt hp hopener inside file
      (hempty.bindParams (fun _ hparam _ htype => hd.default hparam htype) hargs)
  intro shape hshape
  cases d with
  | interface d =>
    rcases List.mem_append.mp hshape with hshape | hshape
    · exact hsite.memberShapes hd rfl shape hshape
    · obtain ⟨parent, hparent, hshape⟩ := List.mem_flatMap.mp hshape
      exact hsite.parentProperties (fun _ harg => hd.parent hparent harg) shape hshape
  | typeAlias d => exact hsite.propertiesOf d.type hd.aliased shape hshape

theorem signs_openProperties {symbol : Symbol} (hsymbol : symbol.Grounded p) {args : Arguments}
    (hargs : args.Grounded p) :
    ∀ shape ∈ openProperties p opener inside symbol args, p.Signs shape := by
  intro shape hshape
  rcases mem_addShapes hshape with hnil | hshape
  · cases hnil
  · obtain ⟨d, hd, hshape⟩ := List.mem_flatMap.mp hshape
    exact signs_declProperties hp hopener inside hargs (hsymbol d hd) shape hshape

end

/-- Whatever room is left, and whatever is open: the properties of a symbol are signed. -/
theorem signs_openerWith {p : Program} (hp : ∀ f ∈ p.files, f = .ofSource f.path f.source)
    (room : Nat) (inside : OpenSymbols) {symbol : Symbol} (hsymbol : symbol.Grounded p)
    {args : Arguments} (hargs : args.Grounded p) :
    ∀ shape ∈ (openerWith p room).properties inside symbol args, p.Signs shape := by
  induction room generalizing inside symbol args with
  | zero => exact nofun
  | succ room ih =>
    show ∀ shape ∈ (inside.enter? symbol).elim [] fun inside =>
      openProperties p (openerWith p room) inside symbol args, p.Signs shape
    cases inside.enter? symbol with
    | none => exact nofun
    | some deeper =>
      exact signs_openProperties hp (fun inside _ _ hsymbol hargs => ih inside hsymbol hargs) deeper
        hsymbol hargs

theorem signs_symbolProperties {p : Program} (hp : ∀ f ∈ p.files, f = .ofSource f.path f.source)
    {symbol : Symbol} (hsymbol : symbol.Grounded p) :
    ∀ shape ∈ symbolProperties p symbol, p.Signs shape :=
  signs_openerWith hp maxDepth .none hsymbol (Arguments.grounded_none p)

end Expansion

/-! ## Programs -/

/-- The files of a program are read from texts, and each one is told by its source. -/
theorem Program.read_of_load {fs : FileSystem} {path : Path} {text : String} {p : Program}
    (h : load fs path text = some p) : ∀ f ∈ p.files,
      f = .ofSource f.path f.source ∧ ∃ text, Source.read f.path text = some f.source := by
  obtain ⟨s, done, rest, hs, hexplored, -, -⟩ := exists_explored_of_load h
  intro f hf
  refine ⟨hexplored.indexed f hf, ?_⟩
  rw [hexplored.files_eq] at hf
  obtain ⟨new, hnew, hsub⟩ :=
    prefix_foldl_addFile [SourceFile.ofSource path s] (done.filterMap (loadModule fs))
  unfold filesOf at hf
  rw [hnew, List.singleton_append, List.mem_cons] at hf
  rcases hf with rfl | hf
  · exact ⟨text, hs⟩
  · obtain ⟨m, -, hload⟩ := List.mem_filterMap.mp (hsub hf)
    obtain ⟨text, -, hread⟩ := (loadedFrom_of_loadModule hload).read
    exact ⟨text, hread⟩

namespace Context

/-- What is found with names resolved is signed in a file of the program. -/
theorem signs_of_extract {fs : FileSystem} {path : Path} {text : String} {c : Context}
    (hc : build fs path text = .ok c) {name : Option String} {shapes : List Shape}
    (h : c.extract name = .found shapes) : ∀ shape ∈ shapes, c.program.Signs shape := by
  obtain ⟨-, p, hload, rfl⟩ := build_eq_ok_iff.mp hc
  have hindexed := fun f hf => (Program.read_of_load hload f hf).1
  obtain ⟨rfl, hne⟩ := ofShapes_eq_found_iff.mp h
  cases name with
  | some name =>
    show ∀ shape ∈ ((p.findType rootFile name).map (symbolProperties p)).getD [], p.Signs shape
    cases hfind : p.findType rootFile name with
    | none => exact nofun
    | some symbol =>
      exact signs_symbolProperties hindexed
        ((Program.declaredIn_of_findType hfind).grounded hindexed)
  | none =>
    show ∀ shape ∈ ((firstConfigType ⟨path, text, p⟩).map Prod.snd).getD [], p.Signs shape
    cases hfirst : firstConfigType ⟨path, text, p⟩ with
    | none => exact nofun
    | some first =>
      obtain ⟨first, found⟩ := first
      obtain ⟨symbol, hlookup, heq, -⟩ := exists_symbol_of_firstConfigType hfirst
      show ∀ shape ∈ found, p.Signs shape
      rw [← heq]
      exact signs_symbolProperties hindexed
        ((Program.declaredIn_of_lookup hlookup).grounded hindexed)

end Context

end ElementManifest

import ElementManifest.Proofs.PlacedTypes
import ElementManifest.Proofs.ScanOnce

/-!
# Type parameters that only are their names

A type parameter without an argument and without a default is not bound, and where it is used
its name is looked up like any other. It should mean nothing but itself there. The expansion in
which it does binds it to its own name (`Binder.own`), and the two come to the same in a program
in which no declaration can be taken for such a parameter:

> `symbolProperties_eq_own`: then the properties of a symbol are those with every type parameter
> meaning its argument, its default or its own name, whatever else is declared.

Where a declaration can be taken for one, it is (`symbolProperties_ne_own`).
-/

namespace ElementManifest.Expansion

open ElementManifest.TypeScript Relation

/-! ## Own names -/

/-- The names of the parameters that have neither one of `count` arguments nor a default. -/
def unboundNames (ps : List TypeParam) (count : Nat) : List String :=
  ((ps.drop count).filter fun param => param.default.isNone).map (·.name)

/-- A scope in which names mean nothing but themselves: each is bound to a reference to itself
in a file that is not there. -/
def ownNames (p : Program) (names : List String) : Scope :=
  names.foldr (fun name rest =>
    .bind name p.files.length (.reference ⟨0, 0⟩ (.name name) []) .empty rest) .empty

/-- No type parameter is taken for a declaration: one that has neither an argument nor a default
is bound to its own name. Symbols are asked for their keys without arguments, so then all
parameters are. -/
def Binder.own (p : Program) : Binder where
  withArguments file ps args :=
    bindParams file (ownNames p (unboundNames ps args.types.length)) ps args
  forKeys _ ps := ownNames p (ps.map (·.name))

section

variable {p : Program}

theorem lookupInside_length (p : Program) (n : Nat) (name : String) :
    p.lookupInside n p.files.length name = none := by
  cases n with
  | zero => rw [Program.lookupInside]
  | succ n =>
    rw [Program.lookupInside, List.getElem?_eq_none (Nat.le_refl _), Option.bind_eq_bind,
      Option.bind_none]

/-- A reference in a file that is not there answers only its name. -/
theorem placedMeaning_ownName (o : Opener) (inside : OpenSymbols) (span : Span) (name : String) :
    placedMeaning p o inside ⟨p.files.length, .empty, .reference span (.name name) []⟩ =
      .ownName name := by
  have hanswer : ∀ look, answerOf (siteAt p o inside p.files.length .empty)
      (.reference span (.name name) []) look = (Meaning.ownName name).answer look :=
    answerOf_of_hidden rfl (lookupInside_length p Program.maxSteps name) span
  have hproperties := Answer.properties.inj (hanswer .properties)
  have hkeys := Answer.keys.inj (hanswer .keys)
  have htext := Option.some.inj (Answer.text.inj (hanswer .text))
  unfold placedMeaning
  rw [hproperties, hkeys, htext]

theorem meaningIn_ownNames (o : Opener) (inside : OpenSymbols) (names : List String)
    (name : String) : meaningIn p o inside (ownNames p names) name =
      if name ∈ names then some (.ownName name) else none := by
  induction names with
  | nil => rfl
  | cons n names ih =>
    by_cases hname : n = name
    · subst hname
      rw [if_pos List.mem_cons_self, ← placedMeaning_ownName o inside ⟨0, 0⟩ n]
      exact meaningIn_bind_self ..
    · refine (meaningIn_bind_of_ne hname).trans (ih.trans ?_)
      simp only [List.mem_cons, Ne.symm hname, false_or]

/-- Parameters keep what a name means that is none of one with an argument or a default. -/
theorem meaningIn_bindParams_of_ne (o : Opener) (inside : OpenSymbols) (file : Nat)
    (name : String) {ps : List TypeParam} {args : Arguments} {scope : Scope}
    (hargs : ∀ param ∈ ps.take args.types.length, param.name ≠ name)
    (hdefaults : ∀ param ∈ ps.drop args.types.length, param.default ≠ none → param.name ≠ name) :
    meaningIn p o inside (bindParams file scope ps args) name =
      meaningIn p o inside scope name := by
  induction ps generalizing args scope with
  | nil => rfl
  | cons param ps ih =>
    obtain ⟨argFile, around, types⟩ := args
    cases types with
    | cons arg types =>
      rw [List.length_cons, List.take_succ_cons, List.forall_mem_cons] at hargs
      rw [List.length_cons, List.drop_succ_cons] at hdefaults
      rw [bindParams, ih hargs.2 hdefaults]
      exact meaningIn_bind_of_ne hargs.1
    | nil =>
      rw [List.length_nil, List.drop_zero, List.forall_mem_cons] at hdefaults
      -- no arguments are left, so the other parameters are bound to defaults or not at all
      have hrest (scope : Scope) :
          meaningIn p o inside (bindParams file scope ps ⟨argFile, around, []⟩) name =
            meaningIn p o inside scope name :=
        ih (fun param hparam => by cases hparam) hdefaults.2
      rw [bindParams, hrest]
      cases hdefault : param.default with
      | none => rfl
      | some type =>
        refine meaningIn_bind_of_ne (hdefaults.1 ?_)
        rw [hdefault]
        exact Option.some_ne_none type

/-- A parameter that has neither an argument nor a default means its own name. -/
theorem meaningIn_own (o : Opener) (inside : OpenSymbols) (file : Nat) {ps : List TypeParam}
    (hnodup : (ps.map (·.name)).Nodup) (args : Arguments) {name : String}
    (hname : name ∈ unboundNames ps args.types.length) :
    meaningIn p o inside ((Binder.own p).withArguments file ps args) name =
      some (.ownName name) := by
  have hown : meaningIn p o inside (ownNames p (unboundNames ps args.types.length)) name =
      some (.ownName name) := by
    rw [meaningIn_ownNames, if_pos hname]
  obtain ⟨param, hparam, rfl⟩ := List.mem_map.mp hname
  obtain ⟨hdrop, hnone⟩ := List.mem_filter.mp hparam
  refine (meaningIn_bindParams_of_ne o inside file param.name ?_ ?_).trans hown
  · -- no parameter before it has its name
    intro other hother heq
    rw [← List.take_append_drop args.types.length ps, List.map_append] at hnodup
    exact (List.nodup_append.mp hnodup).2.2 other.name (List.mem_map_of_mem hother) param.name
      (List.mem_map_of_mem hdrop) heq
  · intro other hother hdefault heq
    obtain rfl := List.inj_on_of_nodup_map hnodup (List.mem_of_mem_drop hother)
      (List.mem_of_mem_drop hdrop) heq
    exact hdefault (Option.isNone_iff_eq_none.mp hnone)

/-! ## Keys -/

mutual

/-- The names without arguments that a type lists as keys. -/
def listedNames : TypeNode → List String
  | .paren _ inner => listedNames inner
  | .union _ branches => listedNamesAll branches
  | .reference _ (.name text) [] => [text]
  | _ => []

/-- The names without arguments that types list as keys. -/
def listedNamesAll : List TypeNode → List String
  | [] => []
  | t :: ts => listedNames t ++ listedNamesAll ts

end

/-- No name is a parameter at the site `a`, and the symbols that the `good` names lead to list the
same keys at the site `b`. -/
structure Site.ListsAs (a b : Site) (good : String → Nat → Prop) : Prop where
  free : ∀ name, a.meaning name = none
  lookup : a.lookup = b.lookup
  keys : ∀ name count s, good name count → b.lookup name = some s → a.keys s = b.keys s

/-- A name is no parameter at a site, or one that means nothing but itself and no declaration. -/
def Site.Hides (b : Site) (name : String) : Prop :=
  b.meaning name = none ∨ b.meaning name = some (.ownName name) ∧ b.lookup name = none

section

variable {a b : Site} {good : String → Nat → Prop}

mutual

/-- A type lists the same keys where no name is a parameter, and where parameters only mean
themselves that mean nothing else. -/
theorem keysOf_eq_of_hides (h : a.ListsAs b good) : ∀ t : TypeNode,
    (∀ name ∈ listedNames t, b.Hides name) → (∀ r ∈ referencesIn t, good r.1 r.2) →
      keysOf a t = keysOf b t
  | .paren _ inner, hhides, hgood => by
    rw [listedNames] at hhides
    rw [referencesIn] at hgood
    rw [keysOf, keysOf, keysOf_eq_of_hides h inner hhides hgood]
  | .union _ branches, hhides, hgood => by
    rw [listedNames] at hhides
    rw [referencesIn] at hgood
    rw [keysOf, keysOf, keysOfAll_eq_of_hides h branches hhides hgood]
  | .reference span name args, hhides, hgood => by
    rw [referencesIn, List.forall_mem_cons] at hgood
    have hfree : a.parameter? name args = none := by
      unfold Site.parameter?
      split
      next text => exact h.free text
      next => rfl
    have hsymbol : ((b.lookup name.text).map a.keys).getD [] =
        ((b.lookup name.text).map b.keys).getD [] := by
      cases hs : b.lookup name.text with
      | none => rfl
      | some s => exact h.keys name.text args.length s hgood.1 hs
    rw [keysOf, keysOf, hfree, h.lookup]
    refine hsymbol.trans ?_
    cases hparam : b.parameter? name args with
    | none => rfl
    | some m =>
      -- only a name without arguments is a parameter, and it lists no keys as a declaration
      unfold Site.parameter? at hparam
      split at hparam
      next text =>
        rcases hhides text (by rw [listedNames]; exact List.mem_singleton_self text) with
          hnone | ⟨hown, hlookup⟩
        · rw [hnone] at hparam
          cases hparam
        · rw [hown] at hparam
          cases hparam
          rw [EntityName.text, hlookup]
          rfl
      next => cases hparam
  | .object .., _, _ | .array .., _, _ | .tuple .., _, _ | .intersection .., _, _
  | .operator .., _, _ | .optional .., _, _ | .rest .., _, _ | .indexed .., _, _
  | .keyword .., _, _ | .text .., _, _ | .truth .., _, _ | .other .., _, _ => by
    simp only [keysOf]
termination_by structural t => t

theorem keysOfAll_eq_of_hides (h : a.ListsAs b good) : ∀ ts : List TypeNode,
    (∀ name ∈ listedNamesAll ts, b.Hides name) → (∀ r ∈ referencesInAll ts, good r.1 r.2) →
      keysOfAll a ts = keysOfAll b ts
  | [], _, _ => rfl
  | t :: ts, hhides, hgood => by
    rw [listedNamesAll, List.forall_mem_append] at hhides
    rw [referencesInAll, List.forall_mem_append] at hgood
    rw [keysOfAll, keysOfAll, keysOf_eq_of_hides h t hhides.1 hgood.1,
      keysOfAll_eq_of_hides h ts hhides.2 hgood.2]
termination_by structural ts => ts

end

end

end

/-! ## Programs in which no parameter is taken for a declaration -/

/-- The parameters of a symbol that have neither one of `count` arguments nor a default are no
names of declarations in its file, be it of its own or of others. -/
def LeavesHidden (p : Program) (s : Symbol) (count : Nat) : Prop :=
  ∀ d ∈ s.decls, ∀ name ∈ unboundNames (params d) count, p.lookup s.file name = none

/-- The parameters that a symbol lists as keys are no names of declarations in its file. -/
def KeysHidden (p : Program) (s : Symbol) : Prop :=
  ∀ d, .typeAlias d ∈ s.decls.head? → ∀ name ∈ listedNames d.type,
    name ∈ d.params.map (·.name) → p.lookup s.file name = none

/-- No type parameter that stays unbound in the expansion of a symbol can be taken for a
declaration. -/
structure Uncaptured (p : Program) (root : Symbol) : Prop where
  start : LeavesHidden p root 0
  references : ∀ s, ReflTransGen (LeadsTo p) root s → ∀ d ∈ s.decls, ∀ r ∈ referencesInDecl d,
    ∀ s', p.lookup s.file r.1 = some s' → LeavesHidden p s' r.2
  keys : ∀ s, ReflTransGen (LeadsTo p) root s → KeysHidden p s

section

variable {p : Program} {root : Symbol}

/-- Names that are hidden in a file are kept where they mean themselves. -/
theorem scopesAgree_ownNames {callable : Symbol → Nat → Prop} (room file : Nat)
    {names : List String} (hhidden : ∀ name ∈ names, p.lookup file name = none) :
    ScopesAgree p [] callable .plain (.own p) room file file .none .empty (ownNames p names) where
  spelled := nofun
  kept m _ inside inside' _ name _ := by
    have hmeaning := meaningIn_ownNames (p := p) (expandWith p (.own p) m) inside' names name
    by_cases hname : name ∈ names
    · exact .hidden rfl (hmeaning.trans (if_pos hname)) (hhidden name hname)
    · exact .free rfl (hmeaning.trans (if_neg hname))

/-- Where nothing is captured, parameters that are not bound agree with their own names. -/
theorem Uncaptured.bindersAgree (h : Uncaptured p root) :
    BindersAgree p [] (fun s k => ReflTransGen (LeadsTo p) root s ∧ LeavesHidden p s k) .plain
      (.own p) where
  leads s _ hs d hd r hr s' hs' :=
    ⟨hs.1.tail ⟨d, hd, r, hr, hs'⟩, h.references s hs.1 d hd r hr s' hs'⟩
  scopes room htypes s args args' hs hargs d hd :=
    scopesAgree_bindParams htypes s.file (params d)
      (fun r hr s' hs' => ⟨hs.1.tail ⟨d, hd, r, List.mem_append_right _ hr, hs'⟩,
        h.references s hs.1 d hd r (List.mem_append_right _ hr) s' hs'⟩) hargs
      (scopesAgree_ownNames room s.file (hs.2 d hd))
  keys room hcalls _ s k hs inside inside' hinside := by
    have hkeys := h.keys s hs.1
    have hrefs := h.references s hs.1
    unfold KeysHidden at hkeys
    cases hdecls : s.decls with
    | nil => rfl
    | cons d ds =>
      cases d with
      | interface d => rfl
      | typeAlias d =>
        have hd : .typeAlias d ∈ s.decls := by rw [hdecls]; exact List.mem_cons_self
        have hsites : Site.ListsAs
            (Binder.plain.keyBodies p (expandWith p .plain room) inside s.file (.typeAlias d))
            ((Binder.own p).keyBodies p (expandWith p (.own p) room) inside' s.file
            (.typeAlias d)) (Within p
              (fun s k => ReflTransGen (LeadsTo p) root s ∧ LeavesHidden p s k) s.file) :=
          ⟨fun _ => rfl, rfl, fun _ count s' hgood hs' =>
            hcalls.keys s' count (hgood s' hs') inside inside' hinside⟩
        refine keysOf_eq_of_hides hsites d.type ?_ ?_
        · intro name hname
          have hmeaning := meaningIn_ownNames (p := p) (expandWith p (.own p) room) inside'
            (d.params.map (·.name)) name
          -- a name is a parameter of the alias, whose keys are hidden, or it means nothing at
          -- either site
          by_cases hmem : name ∈ d.params.map (·.name)
          · have hread := hkeys d (by rw [hdecls]; rfl) name hname hmem
            exact Or.inr ⟨hmeaning.trans (if_pos hmem), hread⟩
          · exact Or.inl (hmeaning.trans (if_neg hmem))
        · intro r hr s' hs'
          have hmem : r ∈ referencesInDecl (.typeAlias d) := List.mem_append_left _ hr
          exact ⟨hs.1.tail ⟨_, hd, r, hmem, hs'⟩, hrefs _ hd r hmem s' hs'⟩

theorem Uncaptured.properties_eq (h : Uncaptured p root) (room : Nat) :
    ((expandWith p .plain room).properties .none root .none).map Shape.signature =
      ((expandWith p (.own p) room).properties .none root .none).map Shape.signature := by
  have halike := (agree h.bindersAgree room).1.answer root .none .none ⟨.refl, h.start⟩ .nil .none
    .none (.refl _) .properties
  refine halike.of_properties.signature ?_
  intro s _ hshows
  obtain ⟨slice, hslice, -⟩ := hshows
  cases hslice

/-- **Type parameters are not taken for declarations.** Where no declaration has the name of a
parameter that stays unbound, the properties of a symbol are those with every type parameter
meaning its argument, its default or nothing but its own name: there a parameter that has neither
an argument nor a default is printed as its name, has no properties and lists no keys. -/
theorem symbolProperties_eq_own (h : Uncaptured p root) :
    (symbolProperties p root).map Shape.signature =
        ((expandWith p (.own p) maxDepth).properties .none root .none).map Shape.signature ∧
      ∀ o inside file ps args name, (ps.map TypeParam.name).Nodup →
        name ∈ unboundNames ps args.types.length →
        meaningIn p o inside ((Binder.own p).withArguments file ps args) name =
          some (.ownName name) := by
  refine ⟨?_, fun o inside file ps args name hnodup hname =>
    meaningIn_own o inside file hnodup args hname⟩
  unfold symbolProperties
  rw [openerWith_eq_expandWith]
  exact h.properties_eq maxDepth

/-! ## Checking a program -/

instance (s : Symbol) (count : Nat) : Decidable (LeavesHidden p s count) :=
  inferInstanceAs (Decidable (∀ d ∈ s.decls, ∀ name ∈ unboundNames (params d) count,
    p.lookup s.file name = none))

/-- Whether the parameters that a symbol lists as keys are hidden. -/
def checkKeys (p : Program) (s : Symbol) : Bool :=
  match s.decls with
  | .typeAlias d :: _ => (listedNames d.type).all fun name =>
    name ∉ d.params.map (·.name) || (p.lookup s.file name).isNone
  | _ => true

/-- Whether no parameter can be taken for a declaration, if what a symbol leads to ends within
`maxDepth` steps. -/
def checkUncaptured (p : Program) (root : Symbol) : Bool :=
  endsWithin (leads p) maxDepth root && decide (LeavesHidden p root 0) &&
    (reachedWithin (leads p) maxDepth root).all fun s => checkKeys p s &&
      s.decls.all fun d => (referencesInDecl d).all fun r =>
        (p.lookup s.file r.1).all fun s' => decide (LeavesHidden p s' r.2)

theorem keysHidden_of_check {s : Symbol} (h : checkKeys p s = true) : KeysHidden p s := by
  intro d hd name hname hparam
  unfold checkKeys at h
  cases hdecls : s.decls with
  | nil =>
    rw [hdecls] at hd
    cases hd
  | cons e ds =>
    rw [hdecls] at hd h
    cases hd
    simp only [List.all_eq_true, Bool.or_eq_true, decide_eq_true_eq, Option.isNone_iff_eq_none]
      at h
    exact (h name hname).resolve_left fun hnot => hnot hparam

theorem uncaptured_of_check (h : checkUncaptured p root = true) : Uncaptured p root := by
  unfold checkUncaptured at h
  rw [Bool.and_eq_true, Bool.and_eq_true, List.all_eq_true] at h
  obtain ⟨⟨hends, hstart⟩, hall⟩ := h
  have hchecked : ∀ s, ReflTransGen (LeadsTo p) root s → _ := fun s hs =>
    hall s (mem_reachedWithin hends (ReflTransGen.mono (fun _ _ => leadsTo_iff.mp) _ _ hs))
  refine ⟨of_decide_eq_true hstart, ?_, ?_⟩
  · intro s hs d hd r hr s' hs'
    have hrefs := hchecked s hs
    simp only [Bool.and_eq_true, List.all_eq_true] at hrefs
    have hhidden := hrefs.2 d hd r hr
    rw [hs', Option.all_some] at hhidden
    exact of_decide_eq_true hhidden
  · intro s hs
    have hkeys := hchecked s hs
    rw [Bool.and_eq_true] at hkeys
    exact keysHidden_of_check hkeys.1

end

/-! ## A parameter with the name of a declaration -/

/-- The parameter of `Box` has the name of a declaration, and it has an argument everywhere. -/
def boxText : String :=
  "type T = \x7b a: string \x7d;\ntype Box<T> = \x7b v: T \x7d;\n" ++
    "export type XConfigType<U> = U & \x7b b: Box<U>; t: T \x7d;"

theorem symbolProperties_eq_own_box :
    ∃ c s, Context.build (oneFile boxText) onePath boxText = .ok c ∧
      c.program.lookup rootFile "XConfigType" = some s ∧
      (symbolProperties c.program s).map Shape.signature =
        ((expandWith c.program (.own c.program) maxDepth).properties .none s .none).map
          Shape.signature ∧
      (symbolProperties c.program s).map Shape.signature =
        [("b", "\x7b v: U; \x7d", false), ("t", "\x7b a: string; \x7d", false)] := by
  have hany : (oneContext? boxText).any (fun c =>
      (c.program.lookup rootFile "XConfigType").any fun root => checkUncaptured c.program root &&
        (symbolProperties c.program root).map Shape.signature =
          [("b", "\x7b v: U; \x7d", false), ("t", "\x7b a: string; \x7d", false)]) =
      true := by
    decide +kernel
  obtain ⟨c, hc, hfound⟩ := Option.any_eq_true _ _ |>.mp hany
  obtain ⟨root, hroot, hcheck⟩ := Option.any_eq_true _ _ |>.mp hfound
  rw [Bool.and_eq_true, decide_eq_true_eq] at hcheck
  exact ⟨c, root, build_of_oneContext? hc, hroot,
    (symbolProperties_eq_own (uncaptured_of_check hcheck.1)).1, hcheck.2⟩

/-- The parameter of the symbol itself has the name of a declaration, and no argument. -/
def capturedText : String :=
  "type T = \x7b a: string \x7d;\nexport type XConfigType<T> = T & \x7b v: T \x7d;"

/-- A parameter that stays unbound is taken for a declaration of its name: it has the properties
of the declaration, and is printed as that. -/
theorem symbolProperties_ne_own :
    ∃ c s, Context.build (oneFile capturedText) onePath capturedText = .ok c ∧
      c.program.lookup rootFile "XConfigType" = some s ∧
      (symbolProperties c.program s).map Shape.signature =
        [("a", "string", false), ("v", "\x7b a: string; \x7d", false)] ∧
      ((expandWith c.program (.own c.program) maxDepth).properties .none s .none).map
        Shape.signature = [("v", "T", false)] := by
  have hany : (oneContext? capturedText).any (fun c =>
      let p := c.program
      (p.lookup rootFile "XConfigType").any fun root =>
        (symbolProperties p root).map Shape.signature =
          [("a", "string", false), ("v", "\x7b a: string; \x7d", false)] &&
        ((expandWith p (.own p) maxDepth).properties .none root .none).map Shape.signature =
          [("v", "T", false)]) = true := by
    decide +kernel
  obtain ⟨c, hc, hfound⟩ := Option.any_eq_true _ _ |>.mp hany
  obtain ⟨root, hroot, hcheck⟩ := Option.any_eq_true _ _ |>.mp hfound
  rw [Bool.and_eq_true, decide_eq_true_eq, decide_eq_true_eq] at hcheck
  exact ⟨c, root, build_of_oneContext? hc, hroot, hcheck⟩

end ElementManifest.Expansion

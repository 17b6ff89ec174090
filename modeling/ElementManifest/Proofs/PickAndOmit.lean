import ElementManifest.Proofs.InterfaceOrAlias
import ElementManifest.Proofs.OwnMembers
import ElementManifest.Proofs.StackDiscipline
import ElementManifest.Proofs.WellFormedShapes

/-!
# Taking a type apart by keys

`Omit` and `Pick` with the same type and the same keys take the type apart: together they have
its properties again, each once. Which of the two has a property is decided by its name alone.

> `mem_keysOf_iff`: the keys that a resolver finds are those that a key type lists
> (`ListsKey`), whatever is open, as long as its aliases can be opened (`KeyType`).

> `propertiesOf_wrapped`: any nesting of `Partial`, `Required` and `Readonly` around a type
> changes its optional flags only, and the outermost one that says something about them decides.

> `leaveOut_and_pick_split`: so the properties of `Omit<T, K> & Pick<T, K>` are those of `T`
> that no key names, and behind them the others.

The type and the keys are written twice, at two places. Both places tell the same
(`placeIn_echoes`).
-/

namespace ElementManifest.Expansion

open ElementManifest.TypeScript

/-- A place in a file and a scope while some symbols are open, with the room that is left. -/
def placeIn (p : Program) (inside : OpenSymbols) (file : Nat) (scope : Scope) : Site :=
  siteAt p (openerWith p (Resolver.roomIn inside)) inside file scope

/-! ## Key types -/

/-- What a type parameter is bound to: the file of the argument, the scope around it, and the
type. -/
def Scope.argument? : Scope → String → Option (Nat × Scope × TypeNode)
  | .empty, _ => none
  | .bind param file type around rest, name =>
    if param == name then some (file, around, type) else rest.argument? name

/-- What a reference is bound to, if it is a type parameter. -/
def Scope.referent? (scope : Scope) : EntityName → List TypeNode → Option (Nat × Scope × TypeNode)
  | .name text, [] => scope.argument? text
  | _, _ => none

/-- A key type, read while the symbols `opened` are open: a string literal, a union or a
parenthesis of key types, a parameter that is bound to one, or an alias of one. An alias has no
parameters, it does not lead back to what is open, and it is met below the depth limit. -/
inductive KeyType (p : Program) : List (Nat × String) → Nat → Scope → TypeNode → Prop
  | text {opened file scope} (span : Span) (value : Option String) :
    KeyType p opened file scope (.text span value)
  | paren {opened file scope} (span : Span) {inner : TypeNode}
    (hinner : KeyType p opened file scope inner) : KeyType p opened file scope (.paren span inner)
  | union {opened file scope} (span : Span) {branches : List TypeNode}
    (hbranches : ∀ t ∈ branches, KeyType p opened file scope t) :
    KeyType p opened file scope (.union span branches)
  | parameter {opened file scope} (span : Span) {name : EntityName} {args : List TypeNode}
    {argFile : Nat} {around : Scope} {type : TypeNode}
    (hbound : scope.referent? name args = some (argFile, around, type))
    (htype : KeyType p opened argFile around type) :
    KeyType p opened file scope (.reference span name args)
  | named {opened file scope} (span : Span) {name : EntityName} {args : List TypeNode}
    {s : Symbol} {d : Alias} {more : List TypeDecl}
    (hfree : scope.referent? name args = none) (hlookup : p.lookup file name.text = some s)
    (hdecls : s.decls = .typeAlias d :: more) (hparams : d.params = [])
    (hfresh : (s.file, s.name) ∉ opened) (hdepth : opened.length < maxDepth)
    (htype : KeyType p ((s.file, s.name) :: opened) s.file .empty d.type) :
    KeyType p opened file scope (.reference span name args)

/-- A type lists a key: one of its string literals is the key, be it written in the type itself,
in the argument of a parameter, or in an alias. -/
inductive ListsKey (p : Program) : Nat → Scope → TypeNode → String → Prop
  | text {file scope} (span : Span) (key : String) :
    ListsKey p file scope (.text span (some key)) key
  | paren {file scope} (span : Span) {inner : TypeNode} {key : String}
    (hinner : ListsKey p file scope inner key) : ListsKey p file scope (.paren span inner) key
  | union {file scope} (span : Span) {branches : List TypeNode} {t : TypeNode} {key : String}
    (hmem : t ∈ branches) (ht : ListsKey p file scope t key) :
    ListsKey p file scope (.union span branches) key
  | parameter {file scope} (span : Span) {name : EntityName} {args : List TypeNode}
    {argFile : Nat} {around : Scope} {type : TypeNode} {key : String}
    (hbound : scope.referent? name args = some (argFile, around, type))
    (htype : ListsKey p argFile around type key) :
    ListsKey p file scope (.reference span name args) key
  | named {file scope} (span : Span) {name : EntityName} {args : List TypeNode}
    {s : Symbol} {d : Alias} {more : List TypeDecl} {key : String}
    (hfree : scope.referent? name args = none) (hlookup : p.lookup file name.text = some s)
    (hdecls : s.decls = .typeAlias d :: more)
    (htype : ListsKey p s.file .empty d.type key) :
    ListsKey p file scope (.reference span name args) key

/-! ### What a reference tells -/

section

variable (p : Program) (opener : Opener) (inside : OpenSymbols)

/-- A parameter lists the keys of its argument, where the argument is written. -/
theorem keys_meaningIn (scope : Scope) (name : String) :
    (meaningIn p opener inside scope name).map (·.keys ()) =
      (scope.argument? name).map fun a => keysOf (siteAt p opener inside a.1 a.2.1) a.2.2 := by
  induction scope with
  | empty => rfl
  | bind param file type around rest _ ihrest =>
    rw [meaningIn, Scope.argument?]
    split
    next => rfl
    next => exact ihrest

theorem keys_parameter? (file : Nat) (scope : Scope) (name : EntityName) (args : List TypeNode) :
    ((siteAt p opener inside file scope).parameter? name args).map (·.keys ()) =
      (scope.referent? name args).map fun a => keysOf (siteAt p opener inside a.1 a.2.1) a.2.2 := by
  cases name with
  | member left right => rfl
  | name text =>
    cases args with
    | nil => exact keys_meaningIn p opener inside scope text
    | cons arg args => rfl

variable {p opener inside} {file : Nat} {scope : Scope} {name : EntityName} {args : List TypeNode}

theorem keysOf_bound {argFile : Nat} {around : Scope} {type : TypeNode} (span : Span)
    (h : scope.referent? name args = some (argFile, around, type)) :
    keysOf (siteAt p opener inside file scope) (.reference span name args) =
      keysOf (siteAt p opener inside argFile around) type := by
  have hkeys := keys_parameter? p opener inside file scope name args
  rw [h, Option.map_some] at hkeys
  obtain ⟨meaning, hmeaning, heq⟩ := Option.map_eq_some_iff.mp hkeys
  rw [keysOf, hmeaning]
  exact heq

theorem keysOf_free {s : Symbol} (span : Span) (h : scope.referent? name args = none)
    (hlookup : p.lookup file name.text = some s) :
    keysOf (siteAt p opener inside file scope) (.reference span name args) =
      opener.keys inside s := by
  have hkeys := keys_parameter? p opener inside file scope name args
  rw [h, Option.map_none, Option.map_eq_none_iff] at hkeys
  have hsymbol : (siteAt p opener inside file scope).lookup name.text = some s := hlookup
  rw [keysOf, hkeys]
  dsimp only
  rw [hsymbol]
  rfl

end

theorem mem_keysOfAll_iff {site : Site} {ts : List TypeNode} {key : String} :
    key ∈ keysOfAll site ts ↔ ∃ t ∈ ts, key ∈ keysOf site t := by
  induction ts with
  | nil => simp [keysOfAll]
  | cons t ts ih => simp [keysOfAll, ih]

/-- The keys of a key type are those that it lists, whatever else is open. -/
theorem mem_keysOf_iff {p : Program} {opened : List (Nat × String)} {file : Nat} {scope : Scope}
    {t : TypeNode} (h : KeyType p opened file scope t) {inside : OpenSymbols}
    (hinside : inside.keys = opened) (key : String) :
    key ∈ keysOf (placeIn p inside file scope) t ↔ ListsKey p file scope t key := by
  induction h generalizing inside with
  | text span value =>
    rw [keysOf, Option.mem_toList]
    constructor
    · rintro rfl
      exact .text span key
    · rintro ⟨⟩
      rfl
  | paren span _ ih =>
    rw [keysOf, ih hinside]
    constructor
    · exact .paren span
    · intro hlists
      cases hlists with
      | paren _ hinner => exact hinner
  | union span _ ih =>
    rw [keysOf, mem_keysOfAll_iff]
    constructor
    · rintro ⟨t, hmem, hkey⟩
      exact .union span hmem ((ih t hmem hinside).mp hkey)
    · intro hlists
      cases hlists with
      | union _ hmem ht => exact ⟨_, hmem, (ih _ hmem hinside).mpr ht⟩
  | parameter span hbound _ ih =>
    unfold placeIn
    rw [keysOf_bound span hbound]
    refine (ih hinside).trans ⟨.parameter span hbound, ?_⟩
    intro hlists
    cases hlists with
    | parameter _ hbound' htype =>
      cases hbound'.symm.trans hbound
      exact htype
    | named _ hfree => cases hbound.symm.trans hfree
  | @named opened file scope span name args s d more hfree hlookup hdecls _ hfresh hdepth _ ih =>
    -- the alias is opened, and its type is read with one symbol more on the stack
    obtain ⟨deeper, henter⟩ : ∃ deeper, inside.enter? s = some deeper := by
      unfold OpenSymbols.enter?
      rw [dif_pos ⟨hinside ▸ hfresh, hinside ▸ hdepth⟩]
      exact ⟨_, rfl⟩
    have hdeeper : deeper.keys = (s.file, s.name) :: opened := by
      rw [Resolver.keys_of_enter? henter, hinside]
    have hkeys : keysOf (placeIn p inside file scope) (.reference span name args) =
        keysOf (placeIn p deeper s.file .empty) d.type := by
      unfold placeIn
      rw [keysOf_free span hfree hlookup, Resolver.roomIn_of_enter? henter,
        (Resolver.openerWith_of_enter?_eq_some _ henter).2.1, openKeys, hdecls]
    rw [hkeys, ih hdeeper]
    constructor
    · exact .named span hfree hlookup hdecls
    · intro hlists
      cases hlists with
      | parameter _ hbound => cases hbound.symm.trans hfree
      | named _ _ hlookup' hdecls' htype =>
        obtain rfl := Option.some.inj (hlookup'.symm.trans hlookup)
        obtain ⟨hd, -⟩ := List.cons.inj (hdecls'.symm.trans hdecls)
        obtain rfl := TypeDecl.typeAlias.inj hd
        exact htype

/-! ## Names of built-in types -/

/-- The names of the built-in types. -/
def utilityNames : List String :=
  ["Partial", "Required", "Readonly", "Pick", "Omit"]

/-- No file declares or imports the name of a built-in type. -/
def LeavesUtilities (p : Program) : Prop :=
  ∀ f ∈ p.files, ∀ name ∈ utilityNames, f.group? name = none ∧ f.imports.lookup name = none

theorem lookup_utility {p : Program} (hp : LeavesUtilities p) (file : Nat) {name : String}
    (h : name ∈ utilityNames) : p.lookup file name = none := by
  have hdot : ∀ name ∈ utilityNames, splitDot? name = none := by decide
  unfold Program.lookup Program.maxSteps
  cases hfile : p.files[file]? with
  | none =>
    rw [Program.lookupInside, hfile]
    rfl
  | some f =>
    obtain ⟨hgroup, himport⟩ := hp f (List.mem_of_getElem? hfile) name h
    rw [Program.lookupInside_succ hfile, hdot name h, hgroup, himport]
    rfl

section

variable {site : Site} (hsite : ∀ name ∈ utilityNames, site.lookup name = none) (span : Span)
  (target keys : TypeNode)

include hsite

/-- A reference to a built-in type with arguments is to the built-in type. -/
theorem propertiesOf_utility {name : String} (h : name ∈ utilityNames) (args : List TypeNode) :
    propertiesOf site (.reference span (.name name) (target :: args)) =
      utilityProperties site name (target :: args) := by
  have hparam : site.parameter? (.name name) (target :: args) = none := rfl
  rw [propertiesOf, hparam]
  dsimp only [EntityName.text]
  rw [hsite name h]

/-- `Omit` has the properties that no key names. -/
theorem propertiesOf_leaveOut :
    propertiesOf site (.reference span (.name "Omit") [target, keys]) =
      (propertiesOf site target).filter fun s => !(keysOf site keys).contains s.name := by
  rw [propertiesOf_utility hsite span target (by decide), utilityProperties]
  rfl

/-- `Pick` has the properties that a key names. -/
theorem propertiesOf_pick :
    propertiesOf site (.reference span (.name "Pick") [target, keys]) =
      (propertiesOf site target).filter fun s => (keysOf site keys).contains s.name := by
  rw [propertiesOf_utility hsite span target (by decide), utilityProperties]
  rfl

end

/-! ## The same type at another place -/

theorem isEqv_self {α : Type} {r : α → α → Bool} (h : ∀ x, r x x = true) (xs : List α) :
    xs.isEqv xs r = true := by
  induction xs with
  | nil => rfl
  | cons x xs ih => rw [List.isEqv, h x, ih, Bool.and_self]

theorem declRetold_self (s : Source) (d : TypeDecl) : declRetold s s d d = true := by
  have hparams (ps : List TypeParam) : ps.isEqv ps (paramRetold s s) = true :=
    isEqv_self (fun param => by rw [paramRetold, beq_self_eq_true, optionRetold_self,
      Bool.and_self]) ps
  have hparents (ps : List Heritage) : ps.isEqv ps (parentRetold s s) = true :=
    isEqv_self (fun parent => by rw [parentRetold, beq_self_eq_true, allRetold_self,
      Bool.and_self]) ps
  cases d with
  | interface d =>
    rw [declRetold, hparams, hparents, membersRetold_self, Bool.and_self, Bool.and_self]
  | typeAlias d => rw [declRetold, hparams, retold_self, Bool.and_self]

/-- A program is told again by itself; no name is turned, as there is no file of that number. -/
theorem interchanged_self (p : Program) : Interchanged p p (p.files.length, "") where
  modules := rfl
  files i := by
    cases hfile : p.files[i]? with
    | none => exact .none
    | some f =>
      have hlt : i < p.files.length := (List.getElem?_eq_some_iff.mp hfile).1
      refine .some ?_
      have hturned (name : String) : ((i, name) == (p.files.length, "")) = false :=
        beq_eq_false_iff_ne.mpr fun heq => hlt.ne (congrArg Prod.fst heq)
      have hgroups : f.groups.isEqv f.groups (fun g g' => g'.name == g.name &&
          declsRetold f.source f.source ((i, g.name) == (p.files.length, "")) g.decls g'.decls) =
            true := by
        refine isEqv_self (fun g => ?_) f.groups
        rw [hturned, declsRetold, if_neg Bool.false_ne_true, isEqv_self (declRetold_self f.source),
          beq_self_eq_true, Bool.and_self]
      unfold fileRetold
      rw [hgroups]
      simp only [beq_self_eq_true, Bool.and_self]

/-- A place answers the same to names with arguments that are told again. -/
theorem placeIn_echoes (p : Program) (inside : OpenSymbols) (file : Nat) (scope : Scope) :
    (placeIn p inside file scope).Echoes (placeIn p inside file scope) := by
  have hscope : ScopeRetold p p scope scope := by
    induction scope with
    | empty => exact .empty
    | bind name file type around rest iharound ihrest =>
      exact .bind name file (retold_self _ type) iharound ihrest
  have hothers : otherMembers p (p.files.length, "") = [] := by
    unfold otherMembers
    rw [List.getElem?_eq_none (Nat.le_refl _)]
    rfl
  have h := interchanged_self p
  exact siteAt_echoes h (openers_agree h _ inside (Or.inr hothers)) file hscope

/-- Two types that are written alike answer the same at a place. -/
theorem sameAnswers_at_place {p : Program} {file : Nat} {t t' : TypeNode}
    (h : retold (sourceOf p file) (sourceOf p file) t t' = true) (inside : OpenSymbols)
    (scope : Scope) :
    SameAnswers (placeIn p inside file scope) (placeIn p inside file scope) t t' :=
  sameAnswers_of_retold (placeIn_echoes p inside file scope) t t' h

/-! ## Nested modifiers -/

/-- A built-in type that keeps all properties of its argument. -/
inductive Modifier
  | partialOf
  | requiredOf
  | readonlyOf
  deriving DecidableEq, Repr

/-- The name of a modifier. -/
def Modifier.name : Modifier → String
  | partialOf => "Partial"
  | requiredOf => "Required"
  | readonlyOf => "Readonly"

/-- Whether a modifier makes properties optional or required; `none` if it does neither. -/
def Modifier.flag? : Modifier → Option Bool
  | partialOf => some true
  | requiredOf => some false
  | readonlyOf => none

/-- A type inside modifiers, the outermost first, each with the span that it is written at. -/
def wrapped : List (Span × Modifier) → TypeNode → TypeNode
  | [], t => t
  | (span, m) :: ms, t => .reference span (.name m.name) [wrapped ms t]

/-- What the outermost modifier says that says something about optional flags. -/
def outermostFlag? (ms : List (Span × Modifier)) : Option Bool :=
  ms.findSome? (·.2.flag?)

/-- A shape with the optional flag changed, if there is one to change it to. -/
def reflag (flag? : Option Bool) (s : Shape) : Shape :=
  { s with optional := flag?.getD s.optional }

@[simp] theorem reflag_name (flag? : Option Bool) (s : Shape) : (reflag flag? s).name = s.name :=
  rfl

/-- The flag that is set last counts. -/
theorem reflag_reflag (flag? flag?' : Option Bool) (s : Shape) :
    reflag flag? (reflag flag?' s) = reflag (flag?.or flag?') s := by
  cases flag? with
  | none => rfl
  | some flag => rfl

theorem names_map_reflag (flag? : Option Bool) (shapes : List Shape) :
    names (shapes.map (reflag flag?)) = names shapes := by
  unfold names
  rw [List.map_map]
  rfl

theorem outermostFlag?_cons (span : Span) (m : Modifier) (ms : List (Span × Modifier)) :
    outermostFlag? ((span, m) :: ms) = m.flag?.or (outermostFlag? ms) := by
  unfold outermostFlag?
  rw [List.findSome?_cons]
  cases m.flag? with
  | none => rfl
  | some flag => rfl

section

variable {site : Site} (hsite : ∀ name ∈ utilityNames, site.lookup name = none)

include hsite

theorem propertiesOf_modifier (span : Span) (m : Modifier) (t : TypeNode) :
    propertiesOf site (.reference span (.name m.name) [t]) =
      (propertiesOf site t).map (reflag m.flag?) := by
  cases m with
  | partialOf =>
    rw [Modifier.name, propertiesOf_utility hsite span t (by decide), utilityProperties]
    rfl
  | requiredOf =>
    rw [Modifier.name, propertiesOf_utility hsite span t (by decide), utilityProperties]
    rfl
  | readonlyOf =>
    rw [Modifier.name, propertiesOf_utility hsite span t (by decide), utilityProperties]
    exact (List.map_id _).symm

/-- Modifiers change optional flags only, and the outermost one that sets them decides. -/
theorem propertiesOf_wrapped (ms : List (Span × Modifier)) (t : TypeNode) :
    propertiesOf site (wrapped ms t) =
      (propertiesOf site t).map (reflag (outermostFlag? ms)) := by
  induction ms with
  | nil => exact (List.map_id _).symm
  | cons m ms ih =>
    obtain ⟨span, m⟩ := m
    rw [wrapped, propertiesOf_modifier hsite, ih, List.map_map, outermostFlag?_cons]
    exact List.map_congr_left fun s _ => reflag_reflag m.flag? (outermostFlag? ms) s

end

/-! ## The two parts of a type -/

/-- A type without some keys and the same type with only them, each inside modifiers. -/
def parted (span left right : Span) (ms ms' : List (Span × Modifier))
    (target keys target' keys' : TypeNode) : TypeNode :=
  .intersection span
    [wrapped ms (.reference left (.name "Omit") [target, keys]),
      wrapped ms' (.reference right (.name "Pick") [target', keys'])]

/-- The properties of the two parts: those that no key names, behind them the others. -/
def partedShapes (isKey : String → Bool) (ms ms' : List (Span × Modifier)) (shapes : List Shape) :
    List Shape :=
  (shapes.filter fun s => !isKey s.name).map (reflag (outermostFlag? ms)) ++
    (shapes.filter fun s => isKey s.name).map (reflag (outermostFlag? ms'))

/-- Without modifiers the two parts have the same shapes as the type. -/
theorem partedShapes_perm (isKey : String → Bool) (shapes : List Shape) :
    (partedShapes isKey [] [] shapes).Perm shapes := by
  have hperm := List.filter_append_perm (fun s : Shape => isKey s.name) shapes
  have hnone : reflag (outermostFlag? []) = id := rfl
  unfold partedShapes
  rw [hnone, List.map_id, List.map_id]
  exact List.perm_append_comm.trans hperm

theorem names_partedShapes (isKey : String → Bool) (ms ms' : List (Span × Modifier))
    (shapes : List Shape) :
    names (partedShapes isKey ms ms' shapes) = names (partedShapes isKey [] [] shapes) := by
  unfold partedShapes
  rw [ElementManifest.names_append, ElementManifest.names_append, names_map_reflag,
    names_map_reflag, names_map_reflag, names_map_reflag]

theorem nodup_names_partedShapes {shapes : List Shape} (h : (names shapes).Nodup)
    (isKey : String → Bool) (ms ms' : List (Span × Modifier)) :
    (names (partedShapes isKey ms ms' shapes)).Nodup := by
  rw [names_partedShapes]
  exact ((partedShapes_perm isKey shapes).map Shape.name).nodup_iff.mpr h

theorem propertiesOf_parted {site : Site} (hsite : ∀ name ∈ utilityNames, site.lookup name = none)
    {target target' keys keys' : TypeNode}
    (htarget : propertiesOf site target = propertiesOf site target')
    (hkeys : keysOf site keys = keysOf site keys')
    (hdistinct : (names (propertiesOf site target)).Nodup) (span left right : Span)
    (ms ms' : List (Span × Modifier)) :
    propertiesOf site (parted span left right ms ms' target keys target' keys') =
      partedShapes (keysOf site keys).contains ms ms' (propertiesOf site target) := by
  have hnodup := nodup_names_partedShapes hdistinct (keysOf site keys).contains ms ms'
  unfold parted
  rw [propertiesOf, branchProperties, branchProperties, branchProperties,
    propertiesOf_wrapped hsite, propertiesOf_wrapped hsite, propertiesOf_leaveOut hsite,
    propertiesOf_pick hsite, ← htarget, ← hkeys, ← addShapes_append]
  exact addShapes_nil_of_nodup hnodup

theorem yields_propertiesOf (p : Program) (extra : Nat) (inside : OpenSymbols) (file : Nat)
    (scope : Scope) (t : TypeNode) :
    Resolver.Yields inside
      (Resolver.propertiesOf (Resolver.siteAt p (Resolver.openerWith p (Resolver.enough + extra))
        file scope) t)
      (propertiesOf (placeIn p inside file scope) t) := by
  have hroom : Resolver.roomIn inside < Resolver.enough + extra := by
    unfold Resolver.roomIn Resolver.enough
    omega
  have hanswers := Resolver.answers_openerWith p (Resolver.enough + extra) inside hroom
  exact (Resolver.siteAt_follows hanswers file scope).propertiesOf t

/-- **`Pick` and `Omit` take a type apart without loss.** In a program that leaves the names of the
built-in types alone, wherever a type `target` and a key type `keys` stand and whatever symbols
are open: there is a test for the keys that `keys` lists, and the properties of
`Omit<target, keys> & Pick<target, keys>` are those of the type, each once and unchanged, first
the ones that the test rejects and then the others, both in the order of the type. Modifiers
around the two parts change the optional flags of the part as the outermost one says. A resolver
with these symbols on its stack comes to the same answer and leaves its stack as it was. -/
theorem leaveOut_and_pick_split {p : Program} (hp : LeavesUtilities p) (inside : OpenSymbols)
    (file : Nat) (scope : Scope) {target target' keys keys' : TypeNode}
    (htarget : retold (sourceOf p file) (sourceOf p file) target target' = true)
    (hsame : retold (sourceOf p file) (sourceOf p file) keys keys' = true)
    (hkeys : KeyType p inside.keys file scope keys) (span left right : Span) :
    ∃ isKey : String → Bool, (∀ name, isKey name = true ↔ ListsKey p file scope keys name) ∧
      ∀ shapes, propertiesOf (placeIn p inside file scope) target = shapes →
        (names shapes).Nodup ∧
        propertiesOf (placeIn p inside file scope)
            (parted span left right [] [] target keys target' keys') =
          (shapes.filter fun s => !isKey s.name) ++ shapes.filter (fun s => isKey s.name) ∧
        ∀ ms ms' : List (Span × Modifier),
          propertiesOf (placeIn p inside file scope)
              (parted span left right ms ms' target keys target' keys') =
            partedShapes isKey ms ms' shapes ∧
          ∀ extra, Resolver.Yields inside
            (Resolver.propertiesOf (Resolver.siteAt p
                (Resolver.openerWith p (Resolver.enough + extra)) file scope)
              (parted span left right ms ms' target keys target' keys'))
            (partedShapes isKey ms ms' shapes) := by
  have hsite : ∀ name ∈ utilityNames, (placeIn p inside file scope).lookup name = none :=
    fun name hname => lookup_utility hp file hname
  have hdistinct : (names (propertiesOf (placeIn p inside file scope) target)).Nodup :=
    (Site.Orderly.propertiesOf
      (orderly_siteAt p (wellFormed_openerWith p _) inside file scope) target).distinct
  have hparted (ms ms' : List (Span × Modifier)) :=
    propertiesOf_parted hsite (sameAnswers_at_place htarget inside scope).properties
      (sameAnswers_at_place hsame inside scope).keys hdistinct span left right ms ms'
  refine ⟨(keysOf (placeIn p inside file scope) keys).contains, ?_, ?_⟩
  · intro name
    rw [List.contains_iff_mem]
    exact mem_keysOf_iff hkeys rfl name
  · rintro shapes rfl
    refine ⟨hdistinct, ?_, ?_⟩
    · -- without modifiers no flag changes
      have hplain := hparted [] []
      have hnone : reflag (outermostFlag? []) = id := rfl
      rw [partedShapes, hnone, List.map_id, List.map_id] at hplain
      exact hplain
    · intro ms ms'
      refine ⟨hparted ms ms', fun extra => ?_⟩
      rw [← hparted ms ms']
      exact yields_propertiesOf p extra inside file scope _

/-! ## Parts of a type in a program -/

/-- Whether a type is a key type, as far as that is found in so many steps. -/
def isKeyType (p : Program) : Nat → List (Nat × String) → Nat → Scope → TypeNode → Bool
  | 0, _, _, _, _ => false
  | n + 1, opened, file, scope, t =>
    match t with
    | .text .. => true
    | .paren _ inner => isKeyType p n opened file scope inner
    | .union _ branches => branches.all (isKeyType p n opened file scope)
    | .reference _ name args =>
      match scope.referent? name args with
      | some (argFile, around, type) => isKeyType p n opened argFile around type
      | none =>
        match p.lookup file name.text with
        | some ⟨file, name, .typeAlias d :: _⟩ =>
          d.params.isEmpty && !opened.contains (file, name) && decide (opened.length < maxDepth) &&
            isKeyType p n ((file, name) :: opened) file .empty d.type
        | _ => false
    | _ => false

theorem keyType_of_isKeyType {p : Program} (n : Nat) : ∀ {opened : List (Nat × String)}
    {file : Nat} {scope : Scope} {t : TypeNode}, isKeyType p n opened file scope t = true →
      KeyType p opened file scope t := by
  induction n with
  | zero => exact fun h => nomatch h
  | succ n ih =>
    intro opened file scope t h
    unfold isKeyType at h
    split at h
    next => exact .text _ _
    next => exact .paren _ (ih h)
    next => exact .union _ fun t ht => ih (List.all_eq_true.mp h t ht)
    next =>
      split at h
      next hbound => exact .parameter _ hbound (ih h)
      next hfree =>
        split at h
        next hlookup =>
          simp only [Bool.and_eq_true, decide_eq_true_eq, List.isEmpty_iff,
            Bool.not_eq_true', List.contains_eq_mem, decide_eq_false_iff_not] at h
          obtain ⟨⟨⟨hparams, hfresh⟩, hdepth⟩, htype⟩ := h
          exact .named _ hfree hlookup rfl hparams hfresh hdepth (ih htype)
        next => cases h
    next => cases h

/-- A type taken apart by a parameter with a default and an alias. One of the keys names no
property, and the part that is picked stands in three modifiers. -/
def partedText : String :=
  "interface Shape \x7b /** the a */ a?: string; b: number; c: boolean \x7d\n" ++
    "type First = ('a' | 'z');\nexport type XConfigType<K = 'b'> =\n" ++
    "  Omit<Shape, K | First> & Readonly<Required<Partial<Pick<Shape, K | First>>>>;"

/-- Whether a type is taken apart, with the first part as it is and the other one in modifiers.
The parts are those of a type with the given shapes. -/
def isParted (p : Program) (inside : OpenSymbols) (scope : Scope) (shapes : List Shape) :
    TypeNode → Bool
  | .intersection _
      [.reference _ (.name "Omit") [target, keys],
        .reference _ (.name "Readonly") [.reference _ (.name "Required")
          [.reference _ (.name "Partial") [.reference _ (.name "Pick") [target', keys']]]]] =>
    retold (sourceOf p rootFile) (sourceOf p rootFile) target target' &&
      retold (sourceOf p rootFile) (sourceOf p rootFile) keys keys' &&
      isKeyType p 8 inside.keys rootFile scope keys &&
      propertiesOf (placeIn p inside rootFile scope) target = shapes
  | _ => false

/-- Whether a symbol is an alias of a type that is taken apart. The parts are those of a type
with the given shapes, and the symbol has the given properties. -/
def aliasIsParted (p : Program) (shapes properties : List Shape) (s : Symbol) : Bool :=
  match s.decls with
  | [.typeAlias d] =>
    isParted p (.only s) (bindParams rootFile .empty d.params .none) shapes d.type &&
      symbolProperties p s = properties
  | _ => false

/-- The key `z` names no property. `a` and `b` come behind `c`, and `a` is required now: the
outermost modifier that says so is `Required`. -/
theorem leaveOut_and_pick_split_shape :
    ∃ c s d keys isKey, Context.build (oneFile partedText) onePath partedText = .ok c ∧
      LeavesUtilities c.program ∧ c.program.lookup rootFile "XConfigType" = some s ∧
      s.decls = [.typeAlias d] ∧
      (∀ name, isKey name = true ↔
        ListsKey c.program rootFile (bindParams rootFile .empty d.params .none) keys name) ∧
      propertiesOf
          (placeIn c.program (.only s) rootFile (bindParams rootFile .empty d.params .none)) d.type =
        partedShapes isKey [] [(⟨0, 0⟩, .readonlyOf), (⟨0, 0⟩, .requiredOf), (⟨0, 0⟩, .partialOf)]
          [⟨"a", "string", true, some "the a"⟩, ⟨"b", "number", false, none⟩,
            ⟨"c", "boolean", false, none⟩] ∧
      symbolProperties c.program s =
        [⟨"c", "boolean", false, none⟩, ⟨"a", "string", false, some "the a"⟩,
          ⟨"b", "number", false, none⟩] := by
  have hany : (oneContext? partedText).any (fun c =>
      decide (∀ f ∈ c.program.files, ∀ name ∈ utilityNames,
          f.group? name = none ∧ f.imports.lookup name = none) &&
        (c.program.lookup rootFile "XConfigType").any (aliasIsParted c.program
          [⟨"a", "string", true, some "the a"⟩, ⟨"b", "number", false, none⟩,
            ⟨"c", "boolean", false, none⟩]
          [⟨"c", "boolean", false, none⟩, ⟨"a", "string", false, some "the a"⟩,
            ⟨"b", "number", false, none⟩])) = true := by decide +kernel
  obtain ⟨c, hc, hall⟩ := Option.any_eq_true _ _ |>.mp hany
  rw [Bool.and_eq_true, decide_eq_true_eq] at hall
  obtain ⟨hp, hfound⟩ := hall
  obtain ⟨s, hs, hparts⟩ := Option.any_eq_true _ _ |>.mp hfound
  unfold aliasIsParted at hparts
  split at hparts
  next d hdecls =>
    rw [Bool.and_eq_true, decide_eq_true_eq] at hparts
    obtain ⟨hparts, hsymbol⟩ := hparts
    unfold isParted at hparts
    split at hparts
    next span left target keys hreadonly hrequired hpartial right target' keys' htype =>
      simp only [Bool.and_eq_true, decide_eq_true_eq] at hparts
      obtain ⟨⟨⟨htarget, hsame⟩, hkeys⟩, hshapes⟩ := hparts
      obtain ⟨isKey, hisKey, hsplit⟩ := leaveOut_and_pick_split hp (.only s) rootFile
        (bindParams rootFile .empty d.params .none) htarget hsame (keyType_of_isKeyType 8 hkeys)
        span left right
      have hshape := ((hsplit _ hshapes).2.2 []
        [(hreadonly, .readonlyOf), (hrequired, .requiredOf), (hpartial, .partialOf)]).1
      refine ⟨c, s, d, keys, isKey, build_of_oneContext? hc, hp, hs, hdecls, hisKey, ?_, hsymbol⟩
      rw [htype]
      exact hshape
    next => cases hparts
  next => cases hparts

end ElementManifest.Expansion

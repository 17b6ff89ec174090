import ElementManifest.Proofs.Answers
import ElementManifest.Proofs.Coverage
import ElementManifest.Proofs.Resolver

/-!
# A resolver stays clean

A resolver answers every look, and when it does, its stack is the one that it had before.
The runs of a resolver are put together from smaller ones, so one statement about a run
carries all of them:

> `Yields`: inside the symbols that are open, the run comes to an end with this answer. It
> leaves the stack as it was, and meanwhile the stack only had more symbols on top, none of
> them twice and not too many.

The three looks at a type follow the type (`Site.Follows.propertiesOf` and its companions),
the arguments follow the scope that they are read in (`siteAt_follows`), and symbols follow
the room that is left: each one that is opened takes some of it (`answers_openerWith`).

> `expand_stays_clean`: so an expansion ends, whatever the program is, and what a resolver
> has done before makes no difference.
-/

namespace ElementManifest.Expansion

open ElementManifest.TypeScript

namespace Resolver

/-! ## Runs that leave the stack as it was -/

/-- A stack that some symbols are at the bottom of, with no symbol twice and not too many. -/
structure Proper (bottom stack : List (Nat × String)) : Prop where
  suffix : bottom <:+ stack
  nodup : stack.Nodup
  bounded : stack.length ≤ maxDepth

theorem Proper.of_suffix {bottom lower stack : List (Nat × String)} (h : Proper bottom stack)
    (hlower : lower <:+ bottom) : Proper lower stack :=
  ⟨hlower.trans h.suffix, h.nodup, h.bounded⟩

theorem proper_keys (s : OpenSymbols) : Proper s.keys s.keys :=
  ⟨List.suffix_rfl, s.nodup, s.bounded⟩

/-- A run comes to an end with an answer. It leaves the stack as it was, and every stack on
the way is a proper one above it. -/
def Yields {α : Type} (inside : OpenSymbols) (run : Run α) (a : α) : Prop :=
  ∀ past, ∃ moments, run ⟨inside.keys, past⟩ = some (a, ⟨inside.keys, past ++ moments⟩) ∧
    ∀ stack ∈ moments, Proper inside.keys stack

section

variable {α β : Type} {inside : OpenSymbols}

theorem yields_pure (a : α) : Yields inside (pure a) a := by
  intro past
  refine ⟨[], ?_, nofun⟩
  rw [List.append_nil]
  rfl

theorem Yields.bind {run : Run α} {next : α → Run β} {a : α} {b : β} (h : Yields inside run a)
    (hnext : Yields inside (next a) b) : Yields inside (run >>= next) b := by
  intro past
  obtain ⟨moments, hrun, hproper⟩ := h past
  obtain ⟨more, hmore, hproper'⟩ := hnext (past ++ moments)
  refine ⟨moments ++ more, ?_, ?_⟩
  · show (run ⟨inside.keys, past⟩).bind (fun x => next x.1 x.2) = _
    rw [hrun, Option.bind_some, hmore, List.append_assoc]
  · intro stack hstack
    rcases List.mem_append.mp hstack with hstack | hstack
    · exact hproper stack hstack
    · exact hproper' stack hstack

/-- What is made of the answer of a run. -/
theorem Yields.map {run : Run α} {a : α} (h : Yields inside run a) (f : α → β) :
    Yields inside (do let x ← run; return f x) (f a) :=
  h.bind (yields_pure (f a))

theorem yields_collect {ask : α → Run (List β)} {tell : α → List β} {as : List α}
    (h : ∀ a ∈ as, Yields inside (ask a) (tell a)) :
    Yields inside (collect ask as) (as.flatMap tell) := by
  induction as with
  | nil => exact yields_pure []
  | cons a as ih =>
    have hrest := ih fun b hb => h b (List.mem_cons_of_mem a hb)
    exact (h a List.mem_cons_self).bind (hrest.map (tell a ++ ·))

/-! ### Opening and closing -/

theorem mayEnter_run (symbol : Symbol) (past : List (List (Nat × String))) :
    mayEnter symbol ⟨inside.keys, past⟩ =
      some ((inside.enter? symbol).isSome, ⟨inside.keys, past⟩) := by
  have hmay : (!inside.keys.contains (symbol.file, symbol.name) &&
      inside.keys.length < maxDepth) = (inside.enter? symbol).isSome := by
    unfold OpenSymbols.enter?
    by_cases h : (symbol.file, symbol.name) ∉ inside.keys ∧ inside.keys.length < maxDepth
    · rw [dif_pos h]
      simpa using h
    · rw [dif_neg h]
      simpa using h
  exact congrArg (fun may => some (may, _)) hmay

theorem yields_mayEnter (symbol : Symbol) :
    Yields inside (mayEnter symbol) (inside.enter? symbol).isSome := by
  intro past
  refine ⟨[], ?_, nofun⟩
  rw [mayEnter_run, List.append_nil]

theorem keys_of_enter? {symbol : Symbol} {deeper : OpenSymbols}
    (h : inside.enter? symbol = some deeper) :
    deeper.keys = (symbol.file, symbol.name) :: inside.keys := by
  unfold OpenSymbols.enter? at h
  split at h
  next => exact Option.some.inj h ▸ rfl
  next => cases h

theorem push_run {symbol : Symbol} {deeper : OpenSymbols}
    (h : inside.enter? symbol = some deeper) (past : List (List (Nat × String))) :
    push symbol ⟨inside.keys, past⟩ = some ((), ⟨deeper.keys, past ++ [deeper.keys]⟩) := by
  rw [keys_of_enter? h]
  rfl

theorem enter_run {symbol : Symbol} {deeper : OpenSymbols}
    (h : inside.enter? symbol = some deeper) (past : List (List (Nat × String))) :
    enter symbol ⟨inside.keys, past⟩ = some (true, ⟨deeper.keys, past ++ [deeper.keys]⟩) := by
  show (mayEnter symbol ⟨inside.keys, past⟩).bind (fun x =>
    (if x.1 = true then (do push symbol; return true) else return false : Run Bool) x.2) = _
  rw [mayEnter_run, h, keys_of_enter? h]
  rfl

/-- A run between the opening of a symbol and its pop. The stack is higher there, and it is
back where it was behind the pop. -/
theorem Yields.between {γ : Type} {deeper : OpenSymbols} {symbol : Symbol}
    (hdeeper : inside.enter? symbol = some deeper) {opening : Run γ} {c : γ}
    (hopening : ∀ past, opening ⟨inside.keys, past⟩ =
      some (c, ⟨deeper.keys, past ++ [deeper.keys]⟩))
    {next : γ → Run β} {body : Run α} {a : α} (h : Yields deeper body a) (f : α → β)
    (hnext : next c = (do let x ← body; leave; return f x)) :
    Yields inside (opening >>= next) (f a) := by
  intro past
  have hkeys := keys_of_enter? hdeeper
  -- all stacks in between are on top of the one that the symbol was opened on
  have habove : inside.keys <:+ deeper.keys := hkeys ▸ List.suffix_cons _ _
  obtain ⟨moments, hbody, hproper⟩ := h (past ++ [deeper.keys])
  refine ⟨[deeper.keys] ++ moments ++ [inside.keys], ?_, ?_⟩
  · show (opening ⟨inside.keys, past⟩).bind (fun x => next x.1 x.2) = _
    rw [hopening, Option.bind_some, hnext]
    show (body ⟨deeper.keys, past ++ [deeper.keys]⟩).bind
      (fun x => some (f x.1, x.2.withStack x.2.stack.tail)) = _
    rw [hbody, Option.bind_some]
    unfold withStack
    dsimp only
    have htail : deeper.keys.tail = inside.keys := by rw [hkeys, List.tail_cons]
    rw [htail]
    simp only [List.append_assoc]
  · intro stack hstack
    rcases List.mem_append.mp hstack with hstack | hlast
    · rcases List.mem_append.mp hstack with hfirst | hstack
      · rw [List.mem_singleton.mp hfirst]
        exact (proper_keys deeper).of_suffix habove
      · exact (hproper stack hstack).of_suffix habove
    · rw [List.mem_singleton.mp hlast]
      exact proper_keys inside

/-- A symbol that may not be opened is left alone. -/
theorem yields_enter_none {symbol : Symbol} (h : inside.enter? symbol = none)
    {opened : Run α} {a : α} :
    Yields inside (do if ← enter symbol then opened else return a) a := by
  have hmay : Yields inside (mayEnter symbol) _ := yields_mayEnter symbol
  rw [h] at hmay
  have henter : Yields inside (enter symbol) false := hmay.bind (yields_pure false)
  exact henter.bind (yields_pure a)

/-- A symbol that may be opened is open during the run, and closed behind it. -/
theorem yields_enter_some {symbol : Symbol} {deeper : OpenSymbols} {body : Run α} {a : α}
    (hdeeper : inside.enter? symbol = some deeper) (h : Yields deeper body a) (f : α → β)
    (otherwise : β) :
    Yields inside (do
      if ← enter symbol then
        let x ← body
        leave
        return f x
      else return otherwise) (f a) := by
  exact Yields.between hdeeper (enter_run hdeeper) h f rfl

end

/-! ## Looks at a type -/

/-- An argument of a type parameter tells a resolver what it means. -/
structure Meaning.Follows (inside : OpenSymbols) (live : Meaning) (m : Expansion.Meaning) :
    Prop where
  properties : Yields inside live.properties (m.properties ())
  keys : Yields inside live.keys (m.keys ())
  text : Yields inside live.text (m.text ())

/-- A resolver gets the answers of a place there. -/
structure Site.Follows (inside : OpenSymbols) (live : Site) (site : Expansion.Site) : Prop where
  source : live.source = site.source
  lookup : live.lookup = site.lookup
  unbound : ∀ name, site.meaning name = none → live.meaning name = none
  bound : ∀ name m, site.meaning name = some m →
    ∃ m', live.meaning name = some m' ∧ m'.Follows inside m
  properties : ∀ s args, Yields inside (live.properties s args) (site.properties s args)
  keys : ∀ s, Yields inside (live.keys s) (site.keys s)
  text : ∀ s args, Yields inside (live.text s args) (site.text s args)

namespace Site.Follows

variable {inside : OpenSymbols} {live : Site} {site : Expansion.Site}

/-- A reference to a type parameter is one for the resolver too. -/
theorem parameter?_cases (h : live.Follows inside site) (name : EntityName)
    (args : List TypeNode) :
    (site.parameter? name args = none ∧ live.parameter? name args = none) ∨
    ∃ m m', site.parameter? name args = some m ∧ live.parameter? name args = some m' ∧
      m'.Follows inside m := by
  cases name with
  | member left right => exact Or.inl ⟨rfl, rfl⟩
  | name text =>
    cases args with
    | cons arg args => exact Or.inl ⟨rfl, rfl⟩
    | nil =>
      cases hm : site.meaning text with
      | none => exact Or.inl ⟨hm, h.unbound text hm⟩
      | some m =>
        obtain ⟨m', hm', hfollows⟩ := h.bound text m hm
        exact Or.inr ⟨m, m', hm, hm', hfollows⟩

/-! ### Keys -/

mutual

theorem keysOf (h : live.Follows inside site) : ∀ t : TypeNode,
    Yields inside (Resolver.keysOf live t) (Expansion.keysOf site t)
  | .text .. => by
    rw [Resolver.keysOf, Expansion.keysOf]
    exact yields_pure _
  | .paren _ inner => by
    rw [Resolver.keysOf, Expansion.keysOf]
    exact h.keysOf inner
  | .union _ branches => by
    rw [Resolver.keysOf, Expansion.keysOf]
    exact h.keysOfAll branches
  | .reference _ name args => by
    rw [Resolver.keysOf, Expansion.keysOf, h.lookup]
    rcases h.parameter?_cases name args with ⟨hnone, hnone'⟩ | ⟨m, m', hm, hm', hfollows⟩
    · rw [hnone, hnone']
      dsimp only
      cases site.lookup name.text with
      | none => exact yields_pure []
      | some s => exact h.keys s
    · rw [hm, hm']
      exact hfollows.keys
  | .keyword .. | .truth .. | .object .. | .array .. | .tuple .. | .intersection ..
  | .operator .. | .optional .. | .rest .. | .indexed .. | .other .. => by
    rw [Resolver.keysOf, Expansion.keysOf] <;> first | exact yields_pure [] | simp

theorem keysOfAll (h : live.Follows inside site) : ∀ ts : List TypeNode,
    Yields inside (Resolver.keysOfAll live ts) (Expansion.keysOfAll site ts)
  | [] => yields_pure []
  | t :: ts => by
    rw [Resolver.keysOfAll, Expansion.keysOfAll]
    exact (h.keysOf t).bind ((h.keysOfAll ts).map _)

end

/-! ### Properties and texts -/

mutual

theorem propertiesOf (h : live.Follows inside site) : ∀ t : TypeNode,
    Yields inside (Resolver.propertiesOf live t) (Expansion.propertiesOf site t)
  | .paren _ inner => by
    rw [Resolver.propertiesOf, Expansion.propertiesOf]
    exact h.propertiesOf inner
  | .object span members => by
    rw [Resolver.propertiesOf, Expansion.propertiesOf]
    exact (h.memberShapes members span.lo).map _
  | .intersection _ branches => by
    rw [Resolver.propertiesOf, Expansion.propertiesOf]
    exact h.branchProperties branches []
  | .operator _ .readonly inner => by
    rw [Resolver.propertiesOf, Expansion.propertiesOf]
    exact h.propertiesOf inner
  | .reference _ name args => by
    rw [Resolver.propertiesOf, Expansion.propertiesOf, h.lookup]
    rcases h.parameter?_cases name args with ⟨hnone, hnone'⟩ | ⟨m, m', hm, hm', hfollows⟩
    · rw [hnone, hnone']
      dsimp only
      cases site.lookup name.text with
      | none => exact h.utilityProperties name.text args
      | some s => exact h.properties s args
    · rw [hm, hm']
      exact hfollows.properties
  | .text .. | .keyword .. | .truth .. | .array .. | .tuple .. | .union ..
  | .operator _ .keyof _ | .operator _ .unique _ | .optional .. | .rest ..
  | .indexed .. | .other .. => by
    rw [Resolver.propertiesOf, Expansion.propertiesOf] <;> first | exact yields_pure [] | simp

theorem branchProperties (h : live.Follows inside site) :
    ∀ (ts : List TypeNode) (shapes : List Shape),
      Yields inside (Resolver.branchProperties live shapes ts)
        (Expansion.branchProperties site shapes ts)
  | [], shapes => by
    rw [Resolver.branchProperties, Expansion.branchProperties]
    exact yields_pure shapes
  | t :: ts, shapes => by
    rw [Resolver.branchProperties, Expansion.branchProperties]
    exact (h.propertiesOf t).bind (h.branchProperties ts _)

theorem utilityProperties (h : live.Follows inside site) (name : String) :
    ∀ ts : List TypeNode,
      Yields inside (Resolver.utilityProperties live name ts)
        (Expansion.utilityProperties site name ts)
  | [] => by
    rw [Resolver.utilityProperties, Expansion.utilityProperties]
    exact yields_pure []
  | [target] => by
    rw [Resolver.utilityProperties, Expansion.utilityProperties]
    cases Utility.ofName? name with
    | none => exact yields_pure []
    | some u => exact (h.propertiesOf target).map _
  | target :: index :: _ => by
    rw [Resolver.utilityProperties, Expansion.utilityProperties]
    cases Utility.ofName? name with
    | none => exact yields_pure []
    | some u =>
      dsimp only
      refine (h.propertiesOf target).bind ?_
      by_cases hreads : u.readsKeys = true
      · rw [if_pos hreads]
        exact (h.keysOf index).map _
      · -- keys that are not read are not asked for, and make no difference
        have hsame : u.apply (Expansion.propertiesOf site target)
            (some (Expansion.keysOf site index)) =
              u.apply (Expansion.propertiesOf site target) (some []) :=
          u.apply_congr _ fun hr => absurd hr hreads
        rw [if_neg hreads, hsame]
        exact yields_pure _

theorem memberShapes (h : live.Follows inside site) : ∀ (ms : List Member) (place : Nat),
    Yields inside (Resolver.memberShapes live place ms) (Expansion.memberShapes site place ms)
  | [], _ => by
    rw [Resolver.memberShapes, Expansion.memberShapes]
    exact yields_pure []
  | .property (.mk span key computed optional type) :: ms, place => by
    rw [Resolver.memberShapes, Expansion.memberShapes, h.source]
    cases (Property.mk span key computed optional type).name? with
    | none => exact h.memberShapes ms span.hi
    | some name => exact (h.annotationText type).bind ((h.memberShapes ms span.hi).map _)
  | .other span _ :: ms, place => by
    rw [Resolver.memberShapes, Expansion.memberShapes]
    exact h.memberShapes ms span.hi

theorem annotationText (h : live.Follows inside site) : ∀ type : Option TypeNode,
    Yields inside (Resolver.annotationText live type) (Expansion.annotationText site type)
  | none => by
    rw [Resolver.annotationText, Expansion.annotationText]
    exact yields_pure "any"
  | some type => by
    rw [Resolver.annotationText, Expansion.annotationText]
    exact h.textOf type

theorem textOf (h : live.Follows inside site) : ∀ t : TypeNode,
    Yields inside (Resolver.textOf live t) (Expansion.textOf site t)
  | .reference _ name args => by
    rw [Resolver.textOf, Expansion.textOf, h.lookup]
    have hwritten : Yields inside (do
        let texts ← Resolver.textsOf live args
        return appliedText name.text texts) (appliedText name.text (Expansion.textsOf site args)) :=
      (h.textsOf args).map _
    rcases h.parameter?_cases name args with ⟨hnone, hnone'⟩ | ⟨m, m', hm, hm', hfollows⟩
    · rw [hnone, hnone']
      dsimp only
      cases site.lookup name.text with
      | none => exact hwritten
      | some s =>
        rw [Option.bind_some]
        refine (h.text s args).bind ?_
        -- a symbol without a text of its own stays as it is written
        cases site.text s args with
        | some text => exact yields_pure text
        | none => exact hwritten
    · rw [hm, hm']
      exact hfollows.text
  | .object span members => by
    rw [Resolver.textOf, Expansion.textOf, h.source]
    exact (h.memberShapes members span.lo).map _
  | .array _ elem => by
    rw [Resolver.textOf, Expansion.textOf]
    exact (h.textOf elem).map _
  | .tuple _ elems => by
    rw [Resolver.textOf, Expansion.textOf]
    exact (h.elementTexts elems).map _
  | .union _ branches => by
    rw [Resolver.textOf, Expansion.textOf]
    exact (h.textsOf branches).map _
  | .intersection _ branches => by
    rw [Resolver.textOf, Expansion.textOf]
    exact (h.textsOf branches).map _
  | .paren _ inner => by
    rw [Resolver.textOf, Expansion.textOf]
    exact (h.textOf inner).map _
  | .operator _ op inner => by
    rw [Resolver.textOf, Expansion.textOf]
    exact (h.textOf inner).map _
  | .optional _ inner => by
    rw [Resolver.textOf, Expansion.textOf]
    exact (h.textOf inner).map _
  | .rest _ inner => by
    rw [Resolver.textOf, Expansion.textOf]
    exact (h.textOf inner).map _
  | .indexed span object index => by
    rw [Resolver.textOf, Expansion.textOf, h.source]
    refine (h.keysOf index).bind ?_
    by_cases hkeys : (Expansion.keysOf site index).isEmpty = true
    · rw [if_pos hkeys, if_pos hkeys]
      exact yields_pure _
    · rw [if_neg hkeys, if_neg hkeys]
      exact (h.propertiesOf object).map _
  | .text _ none | .text _ (some _) | .keyword .. | .truth .. | .other .. => by
    rw [Resolver.textOf, Expansion.textOf]
    first
      | exact yields_pure _
      | exact h.source ▸ yields_pure _

theorem textsOf (h : live.Follows inside site) : ∀ ts : List TypeNode,
    Yields inside (Resolver.textsOf live ts) (Expansion.textsOf site ts)
  | [] => by
    rw [Resolver.textsOf, Expansion.textsOf]
    exact yields_pure []
  | t :: ts => by
    rw [Resolver.textsOf, Expansion.textsOf]
    exact (h.textOf t).bind ((h.textsOf ts).map _)

theorem elementTexts (h : live.Follows inside site) : ∀ es : List TupleElem,
    Yields inside (Resolver.elementTexts live es) (Expansion.elementTexts site es)
  | [] => by
    rw [Resolver.elementTexts, Expansion.elementTexts]
    exact yields_pure []
  | .mk label type :: es => by
    cases label with
    | none =>
      rw [Resolver.elementTexts, Expansion.elementTexts]
      exact (h.textOf type).bind ((h.elementTexts es).map _)
    | some name =>
      rw [Resolver.elementTexts, Expansion.elementTexts]
      exact (h.textOf type).bind ((h.elementTexts es).map _)

end

end Site.Follows

/-! ## Looks at a symbol -/

/-- A resolver gets the answers of an opener when these symbols are open. -/
structure Opener.Answers (inside : OpenSymbols) (live : Opener) (opener : Expansion.Opener) :
    Prop where
  properties : ∀ s args, Yields inside (live.properties s args) (opener.properties inside s args)
  keys : ∀ s, Yields inside (live.keys s) (opener.keys inside s)
  text : ∀ s args, Yields inside (live.text s args) (opener.text inside s args)

section

variable {p : Program} {inside : OpenSymbols} {live : Opener} {opener : Expansion.Opener}

theorem siteWith_follows (h : live.Answers inside opener) (file : Nat) (scope : Scope)
    {meaning : String → Option Meaning} {meaning' : String → Option Expansion.Meaning}
    (hunbound : ∀ name, meaning' name = none → meaning name = none)
    (hbound : ∀ name m, meaning' name = some m →
      ∃ m', meaning name = some m' ∧ m'.Follows inside m) :
    (siteWith p live file scope meaning).Follows inside
      (Expansion.siteWith p opener inside file scope meaning') where
  source := rfl
  lookup := rfl
  unbound := hunbound
  bound := hbound
  properties s args := h.properties s ⟨file, scope, args⟩
  keys := h.keys
  text s args := h.text s ⟨file, scope, args⟩

/-- A resolver gets the answers of a place in a scope. The arguments in it are read in the
scopes around them, which are smaller. -/
theorem siteAt_follows (h : live.Answers inside opener) (file : Nat) (scope : Scope) :
    (siteAt p live file scope).Follows inside (Expansion.siteAt p opener inside file scope) := by
  have hmeanings : ∀ name,
      (Expansion.meaningIn p opener inside scope name = none →
        meaningIn p live scope name = none) ∧
      ∀ m, Expansion.meaningIn p opener inside scope name = some m →
        ∃ m', meaningIn p live scope name = some m' ∧ m'.Follows inside m := by
    induction scope with
    | empty =>
      intro name
      exact ⟨fun _ => rfl, fun m hm => absurd hm.symm (Option.some_ne_none m)⟩
    | bind param argFile type around rest iharound ihrest =>
      intro name
      unfold Expansion.meaningIn meaningIn
      by_cases hparam : (param == name) = true
      · rw [if_pos hparam, if_pos hparam]
        refine ⟨fun hnone => absurd hnone (Option.some_ne_none _), ?_⟩
        intro m hm
        cases hm
        have hsite := siteWith_follows (p := p) h argFile around (fun n => (iharound n).1)
          (fun n => (iharound n).2)
        exact ⟨_, rfl, hsite.propertiesOf type, hsite.keysOf type, hsite.textOf type⟩
      · rw [if_neg hparam, if_neg hparam]
        exact ihrest name
  exact siteWith_follows h file scope (fun n => (hmeanings n).1) (fun n => (hmeanings n).2)

theorem Site.Follows.parentProperties {live : Site} {site : Expansion.Site}
    (h : live.Follows inside site) (parent : Heritage) :
    Yields inside (Resolver.parentProperties live parent)
      (Expansion.parentProperties site parent) := by
  unfold Resolver.parentProperties Expansion.parentProperties namedProperties
  rw [h.lookup]
  cases parent.base.dottedName? with
  | none => exact yields_pure []
  | some name =>
    dsimp only
    cases site.lookup name with
    | some s => exact h.properties s parent.args
    | none => exact h.utilityProperties name parent.args

theorem yields_declProperties (h : live.Answers inside opener) (file : Nat) (args : Arguments)
    (d : TypeDecl) :
    Yields inside (declProperties p live file args d)
      (Expansion.declProperties p opener inside file args d) := by
  cases d with
  | interface d =>
    have hsite := siteAt_follows (p := p) h file (bindParams file .empty d.params args)
    have hparents := yields_collect fun parent (_ : parent ∈ d.parents) =>
      hsite.parentProperties parent
    exact (hsite.memberShapes d.members d.bodyStart).bind (hparents.map _)
  | typeAlias d => exact (siteAt_follows h file _).propertiesOf d.type

/-- The declarations of an open symbol tell a resolver its properties. -/
theorem yields_collect_decls (h : live.Answers inside opener) (symbol : Symbol)
    (args : Arguments) :
    Yields inside (collect (declProperties p live symbol.file args) symbol.decls)
      (symbol.decls.flatMap (Expansion.declProperties p opener inside symbol.file args)) :=
  yields_collect fun d _ => yields_declProperties h symbol.file args d

end

/-! ## Room -/

section

variable {p : Program} {inside deeper : OpenSymbols} {symbol : Symbol}

theorem openerWith_of_enter?_eq_none (room : Nat) (h : inside.enter? symbol = none) :
    (∀ args, (Expansion.openerWith p room).properties inside symbol args = []) ∧
      (Expansion.openerWith p room).keys inside symbol = [] ∧
      ∀ args, (Expansion.openerWith p room).text inside symbol args = none := by
  cases room with
  | zero => exact ⟨fun _ => rfl, rfl, fun _ => rfl⟩
  | succ room =>
    refine ⟨?_, ?_, ?_⟩
    · intro args
      show (inside.enter? symbol).elim [] _ = []
      rw [h]
      rfl
    · show (inside.enter? symbol).elim [] _ = []
      rw [h]
      rfl
    · intro args
      show (inside.enter? symbol).bind _ = none
      rw [h]
      rfl

theorem openerWith_of_enter?_eq_some (room : Nat) (h : inside.enter? symbol = some deeper) :
    (∀ args, (Expansion.openerWith p (room + 1)).properties inside symbol args =
        openProperties p (Expansion.openerWith p room) deeper symbol args) ∧
      (Expansion.openerWith p (room + 1)).keys inside symbol =
        openKeys p (Expansion.openerWith p room) deeper symbol ∧
      ∀ args, (Expansion.openerWith p (room + 1)).text inside symbol args =
        openText p (Expansion.openerWith p room) deeper symbol args := by
  refine ⟨?_, ?_, ?_⟩
  · intro args
    show (inside.enter? symbol).elim [] _ = _
    rw [h]
    rfl
  · show (inside.enter? symbol).elim [] _ = _
    rw [h]
    rfl
  · intro args
    show (inside.enter? symbol).bind _ = _
    rw [h]
    rfl

/-- The room that is left when so many symbols are open. -/
def roomIn (inside : OpenSymbols) : Nat :=
  maxDepth - inside.keys.length

theorem roomIn_of_enter? (h : inside.enter? symbol = some deeper) :
    roomIn inside = roomIn deeper + 1 := by
  have hlength : deeper.keys.length = inside.keys.length + 1 := by
    rw [keys_of_enter? h, List.length_cons]
  have hbounded := deeper.bounded
  unfold roomIn
  omega

variable {live : Opener}

/-- What a resolver gets from a symbol, when it gets the answers of what is inside. -/
theorem yields_symbolProperties (symbol : Symbol) (args : Arguments)
    (h : ∀ deeper, inside.enter? symbol = some deeper →
      live.Answers deeper (Expansion.openerWith p (roomIn deeper))) :
    Yields inside (symbolProperties p live symbol args)
      ((Expansion.openerWith p (roomIn inside)).properties inside symbol args) := by
  unfold symbolProperties
  cases henter : inside.enter? symbol with
  | none =>
    rw [(openerWith_of_enter?_eq_none _ henter).1 args]
    exact yields_enter_none henter
  | some deeper =>
    rw [roomIn_of_enter? henter, (openerWith_of_enter?_eq_some _ henter).1 args]
    exact yields_enter_some henter (yields_collect_decls (h deeper henter) symbol args)
      (addShapes []) []

theorem yields_symbolKeys (symbol : Symbol)
    (h : ∀ deeper, inside.enter? symbol = some deeper →
      live.Answers deeper (Expansion.openerWith p (roomIn deeper))) :
    Yields inside (symbolKeys p live symbol)
      ((Expansion.openerWith p (roomIn inside)).keys inside symbol) := by
  cases henter : inside.enter? symbol with
  | none =>
    rw [(openerWith_of_enter?_eq_none _ henter).2.1]
    unfold symbolKeys
    split
    next => exact yields_enter_none henter
    next => exact yields_pure []
  | some deeper =>
    rw [roomIn_of_enter? henter, (openerWith_of_enter?_eq_some _ henter).2.1]
    unfold symbolKeys openKeys
    rcases symbol.decls with _ | ⟨d | d, ds⟩
    · exact yields_pure []
    · exact yields_pure []
    · have hkeys := (siteAt_follows (p := p) (h deeper henter) symbol.file .empty).keysOf d.type
      exact yields_enter_some henter hkeys id []

theorem yields_symbolText (symbol : Symbol) (args : Arguments)
    (h : ∀ deeper, inside.enter? symbol = some deeper →
      live.Answers deeper (Expansion.openerWith p (roomIn deeper))) :
    Yields inside (symbolText p live symbol args)
      ((Expansion.openerWith p (roomIn inside)).text inside symbol args) := by
  have hmay : Yields inside (mayEnter symbol) _ := yields_mayEnter symbol
  have hproperties := yields_symbolProperties symbol args h
  unfold symbolText
  cases henter : inside.enter? symbol with
  | none =>
    rw [henter] at hmay
    rw [(openerWith_of_enter?_eq_none _ henter).2.2 args]
    exact hmay.bind (yields_pure none)
  | some deeper =>
    rw [henter] at hmay
    rw [roomIn_of_enter? henter, (openerWith_of_enter?_eq_some _ henter).1 args] at hproperties
    rw [roomIn_of_enter? henter, (openerWith_of_enter?_eq_some _ henter).2.2 args]
    refine hmay.bind ?_
    rw [Option.isSome_some, if_pos rfl]
    unfold openText
    rcases hdecls : symbol.decls with _ | ⟨d | d, ds⟩
    · exact yields_pure none
    · exact hproperties.map fun shapes => some (objectText shapes [])
    · have htext := (siteAt_follows (p := p) (h deeper henter) symbol.file
        (bindParams symbol.file .empty d.params args)).textOf d.type
      exact Yields.between henter (push_run henter) htext some rfl

/-- A resolver that may go deeper than there is room gets all answers: it never has to go as
deep as it may. -/
theorem answers_openerWith (p : Program) (fuel : Nat) :
    ∀ inside, roomIn inside < fuel →
      (openerWith p fuel).Answers inside (Expansion.openerWith p (roomIn inside)) := by
  induction fuel with
  | zero =>
    intro inside hroom
    exact absurd hroom (Nat.not_lt_zero _)
  | succ fuel ih =>
    intro inside hroom
    have hdeeper : ∀ symbol deeper, inside.enter? symbol = some deeper →
        (openerWith p fuel).Answers deeper (Expansion.openerWith p (roomIn deeper)) := by
      intro symbol deeper henter
      have hless := roomIn_of_enter? henter
      exact ih deeper (by omega)
    exact ⟨fun s args => yields_symbolProperties s args (hdeeper s),
      fun s => yields_symbolKeys s (hdeeper s),
      fun s args => yields_symbolText s args (hdeeper s)⟩

end

/-! ## Expansions with one resolver -/

/-- How deep a resolver may go so that it never has to: one more than there is room. -/
def enough : Nat := maxDepth + 1

section

variable (p : Program) (extra : Nat)

/-- An expansion comes to an end, whatever is open. -/
theorem yields_expand (inside : OpenSymbols) (symbol : Symbol) :
    Yields inside (expand p (enough + extra) symbol)
      ((Expansion.openerWith p (roomIn inside)).properties inside symbol .none) := by
  have hroom : roomIn inside < enough + extra := by
    unfold roomIn enough
    omega
  exact (answers_openerWith p (enough + extra) inside hroom).properties symbol .none

theorem yields_expandAll (symbols : List Symbol) :
    Yields .none (expandAll p (enough + extra) symbols)
      (symbols.map (Expansion.symbolProperties p)) := by
  induction symbols with
  | nil => exact yields_pure []
  | cons symbol symbols ih =>
    exact (yields_expand p extra .none symbol).bind
      (ih.map (Expansion.symbolProperties p symbol :: ·))

theorem yields_firstWithShapes (names : List String) :
    Yields .none (firstWithShapes p (enough + extra) names)
      (names.findSome? (Context.shapesIfAny p)) := by
  induction names with
  | nil => exact yields_pure none
  | cons name names ih =>
    rw [firstWithShapes, List.findSome?_cons]
    unfold Context.shapesIfAny at ih ⊢
    cases p.lookup rootFile name with
    | none => exact ih
    | some symbol =>
      refine (yields_expand p extra .none symbol).bind ?_
      show Yields .none (if (Expansion.symbolProperties p symbol).isEmpty = true then _ else _) _
      by_cases hempty : (Expansion.symbolProperties p symbol).isEmpty = true
      · simp only [Option.bind_eq_bind, Option.bind_some, if_pos hempty]
        exact ih
      · simp only [Option.bind_eq_bind, Option.bind_some, if_neg hempty]
        exact yields_pure _

end

/-- The first configuration type has the shapes that are found under its name. -/
theorem extract_of_firstConfigType {c : Context} {name : String} {shapes : List Shape}
    (h : c.firstConfigType = some (name, shapes)) : c.extract (some name) = .found shapes := by
  obtain ⟨symbol, hlookup, hshapes, hne⟩ := Context.exists_symbol_of_firstConfigType h
  refine ofShapes_eq_found_iff.mpr ⟨?_, hne⟩
  show ((c.program.findType rootFile name).map (Expansion.symbolProperties c.program)).getD [] = _
  unfold Program.findType
  rw [hlookup, ← hshapes]
  rfl

/-- **Expansion always ends and leaves the resolver clean.** Whatever the program is, and
whatever symbols a resolver has open: the expansion of a symbol comes to an end, it leaves the
stack as it was, and meanwhile no symbol was on the stack twice and there were never more than
`maxDepth`. So a resolver that expands any symbols one after the other finds for each of them
what a new one finds; and a resolver that looks for the first configuration type finds the
shapes that an extraction by its name finds. To let a resolver go deeper changes nothing. -/
theorem expand_stays_clean (p : Program) (extra : Nat) :
    (∀ (inside : OpenSymbols) past symbol, ∃ moments,
      expand p (enough + extra) symbol ⟨inside.keys, past⟩ =
        some ((Expansion.openerWith p (roomIn inside)).properties inside symbol .none,
          ⟨inside.keys, past ++ moments⟩) ∧
      ∀ stack ∈ moments, inside.keys <:+ stack ∧ stack.Nodup ∧ stack.length ≤ maxDepth) ∧
    (∀ symbols, ∃ moments,
      expandAll p (enough + extra) symbols .new =
        some (symbols.map (Expansion.symbolProperties p), ⟨[], moments⟩) ∧
      ∀ stack ∈ moments, stack.Nodup ∧ stack.length ≤ maxDepth) ∧
    ∀ c : Context, c.program = p →
      (∃ moments,
        firstWithShapes p (enough + extra) (Context.configNames p) .new =
          some (c.firstConfigType, ⟨[], moments⟩) ∧
        ∀ stack ∈ moments, stack.Nodup ∧ stack.length ≤ maxDepth) ∧
      ∀ name shapes, c.firstConfigType = some (name, shapes) →
        c.extract (some name) = .found shapes := by
  refine ⟨?_, ?_, ?_⟩
  · intro inside past symbol
    obtain ⟨moments, hrun, hproper⟩ := yields_expand p extra inside symbol past
    exact ⟨moments, hrun, fun stack hstack =>
      ⟨(hproper stack hstack).suffix, (hproper stack hstack).nodup, (hproper stack hstack).bounded⟩⟩
  · intro symbols
    obtain ⟨moments, hrun, hproper⟩ := yields_expandAll p extra symbols []
    exact ⟨moments, hrun, fun stack hstack =>
      ⟨(hproper stack hstack).nodup, (hproper stack hstack).bounded⟩⟩
  · rintro c rfl
    obtain ⟨moments, hrun, hproper⟩ :=
      yields_firstWithShapes c.program extra (Context.configNames c.program) []
    refine ⟨⟨moments, hrun, fun stack hstack =>
      ⟨(hproper stack hstack).nodup, (hproper stack hstack).bounded⟩⟩, ?_⟩
    intro name shapes hfirst
    exact extract_of_firstConfigType hfirst

/-- Types that lead back to themselves: a generic whose argument grows, an interface that
extends itself, and an alias that comes back through it. -/
def circularText : String :=
  "type A<T> = \x7b n: A<T[]> \x7d;\ninterface B extends B \x7b b: C \x7d\n" ++
    "type C = \x7b c: C | B \x7d;\nexport type NoneConfigType = C['x'];\n" ++
    "export type XConfigType = B & A<C>;"

/-- The resolver comes out of all of them, with the shapes of the type that has some. -/
theorem expand_stays_clean_circular_types :
    ∃ c shapes moments, Context.build (oneFile circularText) onePath circularText = .ok c ∧
      c.firstConfigType = some ("XConfigType", shapes) ∧ names shapes = ["b", "n"] ∧
      firstWithShapes c.program enough (Context.configNames c.program) .new =
        some (some ("XConfigType", shapes), ⟨[], moments⟩) ∧
      c.extract (some "XConfigType") = .found shapes := by
  have hany : (oneContext? circularText).any (fun c => c.firstConfigType.any
      fun found => found.1 = "XConfigType" && names found.2 = ["b", "n"]) = true := by
    decide +kernel
  obtain ⟨c, hc, hfirst⟩ := Option.any_eq_true _ _ |>.mp hany
  obtain ⟨⟨name, shapes⟩, hfirst, hfound⟩ := Option.any_eq_true _ _ |>.mp hfirst
  rw [Bool.and_eq_true] at hfound
  obtain rfl : name = "XConfigType" := of_decide_eq_true hfound.1
  obtain ⟨⟨moments, hrun, -⟩, hextract⟩ := (expand_stays_clean c.program 0).2.2 c rfl
  rw [hfirst] at hrun
  exact ⟨c, shapes, moments, build_of_oneContext? hc, hfirst, of_decide_eq_true hfound.2, hrun,
    hextract _ _ hfirst⟩

end Resolver

end ElementManifest.Expansion

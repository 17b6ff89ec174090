import ElementManifest.Proofs.Answers
import ElementManifest.Proofs.Mentions
import ElementManifest.Proofs.RootFile
import ElementManifest.Proofs.Shapes
import Mathlib.Logic.Relation

/-!
# Where nothing is cut

An expansion cuts a symbol that is open already, and what is nested too deeply. The
symbols that are open are not only the declarations that stand around a name: an argument
is read where its parameter is used, so the generic that it was handed to is still open
then. In a program whose graph of declarations has no cycle that is the only way to
come to an open symbol again:

> `opensArgument_or_mentions`: a way from a call to another one follows the graph of mentions,
> or it passes through an argument somewhere.

> `argumentsLeadOut_iff`: so a symbol is come to again exactly if an argument leads back.

The graph alone does not keep the expansion whole. It is whole if no argument leads back to
a symbol that is open around it:

> `symbolProperties_eq_uncut`: then the properties are those of the expansion that cuts
> nothing.

A generic in its own argument does lead back, and properties are lost:
`symbolProperties_nested_generic_ne_uncut`.
-/

namespace ElementManifest.Expansion

open ElementManifest.TypeScript Relation

/-! ## Conditions -/

section

variable (p : Program) (symbol : Symbol)

/-- The graph of mentions has no cycle through a symbol that the expansion opens. -/
def Acyclic : Prop :=
  ∀ c, ReflTransGen (Opens p) (rootCall symbol) c →
    ∀ s, TransGen (Mentions p) c.symbol s → (s.file, s.name) ≠ c.key

/-- No argument leads to a symbol that is open around it. -/
def ArgumentsLeadOut : Prop :=
  ∀ c c₁ c₂ c₃, ReflTransGen (Opens p) (rootCall symbol) c → ReflTransGen (Opens p) c c₁ →
    OpensArgument p c₁ c₂ → ReflTransGen (Opens p) c₂ c₃ → c₃.key ≠ c.key

end

section

variable {p : Program}

/-- The way to what a call opens passes through an argument, or it follows the graph. -/
theorem opensArgument_or_mentions {c c' : Call} (h : TransGen (Opens p) c c') :
    (∃ c₁ c₂, ReflTransGen (Opens p) c c₁ ∧ OpensArgument p c₁ c₂ ∧
      ReflTransGen (Opens p) c₂ c') ∨ TransGen (Mentions p) c.symbol c'.symbol := by
  have hstep : ∀ b b' : Call, Opens p b b' →
      OpensArgument p b b' ∨ Mentions p b.symbol b'.symbol := by
    rintro b b' ⟨⟨way, call⟩, ho, rfl⟩
    cases way with
    | argument => exact Or.inl ho
    | written => exact Or.inr (mentions_of_written p ho rfl)
  induction h with
  | single h =>
    -- one argument on the way is enough, wherever it is
    rcases hstep _ _ h with harg | hmentions
    · exact Or.inl ⟨_, _, .refl, harg, .refl⟩
    · exact Or.inr (.single hmentions)
  | tail hcb h ih =>
    rcases ih with ⟨c₁, c₂, h₁, harg, h₂⟩ | hgraph
    · exact Or.inl ⟨c₁, c₂, h₁, harg, h₂.tail h⟩
    · rcases hstep _ _ h with harg | hmentions
      · exact Or.inl ⟨_, _, hcb.to_reflTransGen, harg, .refl⟩
      · exact Or.inr (hgraph.tail hmentions)

/-- Without cycles, that no argument leads back is exactly that no symbol is come to again
while it is open. -/
theorem argumentsLeadOut_iff {symbol : Symbol} (hacyclic : Acyclic p symbol) :
    ArgumentsLeadOut p symbol ↔ ∀ c c', ReflTransGen (Opens p) (rootCall symbol) c →
      TransGen (Opens p) c c' → c'.key ≠ c.key := by
  constructor
  · intro hargs c c' hc h
    rcases opensArgument_or_mentions h with ⟨c₁, c₂, h₁, harg, h₂⟩ | hgraph
    · exact hargs c c₁ c₂ c' hc h₁ harg h₂
    · exact hacyclic c hc c'.symbol hgraph
  · intro hagain c c₁ c₂ c₃ hc h₁ harg h₂
    have hopens : Opens p c₁ c₂ := ⟨_, harg, rfl⟩
    exact hagain c c₃ hc (TransGen.trans_left (TransGen.tail' h₁ hopens) h₂)

/-! ## Room that is enough -/

/-- An expansion that cuts nothing needs no more room than its calls nest. -/
theorem uncut_uncutWith {n : Nat} (hn : n ≤ maxDepth) {c : Call} (h : NestsWithin p n c) :
    ∀ {room : Nat}, n ≤ room → (uncutWith p room).Uncut p .none c := by
  induction n generalizing c with
  | zero => exact absurd h id
  | succ n ih =>
    intro room hroom
    have hopen : ∀ k, n ≤ k → (uncutWith p (k + 1)).answer .none c =
        (openWith p (uncutWith p maxDepth) .none).answer .none c := by
      intro k hk
      refine answer_open_congr (plain_uncutWith p k) c ?_
      intro x hx
      exact ih (by omega) (h x hx) hk
    -- both this room and `maxDepth` are one more than what is left inside the call
    obtain ⟨k, rfl⟩ : ∃ k, room = k + 1 := ⟨room - 1, by omega⟩
    exact (hopen k (by omega)).trans (hopen 11 (by simp only [maxDepth] at hn; omega)).symm

theorem exists_enter? {inside : OpenSymbols} {c : Call} (houtside : c.key ∉ inside.keys)
    (hroom : inside.keys.length < maxDepth) :
    ∃ inside', inside.enter? c.symbol = some inside' ∧ inside'.keys = c.key :: inside.keys := by
  have henter : (c.symbol.file, c.symbol.name) ∉ inside.keys ∧
      inside.keys.length < maxDepth := ⟨houtside, hroom⟩
  unfold OpenSymbols.enter?
  rw [dif_pos henter]
  exact ⟨_, rfl, rfl⟩

theorem answer_openerWith_of_enter {n : Nat} {c : Call} {inside inside' : OpenSymbols}
    (h : inside.enter? c.symbol = some inside') :
    (openerWith p (n + 1)).answer inside c =
      (openWith p (openerWith p n) inside').answer .none c := by
  obtain ⟨look, s, args⟩ := c
  cases look with
  | properties =>
    show Answer.properties ((inside.enter? s).elim [] _) = _
    rw [h]
    rfl
  | keys =>
    show Answer.keys ((inside.enter? s).elim [] _) = _
    rw [h]
    rfl
  | text =>
    show Answer.text ((inside.enter? s).bind _) = _
    rw [h]
    rfl

/-- Inside symbols that it does not come to again, an expansion cuts nothing. -/
theorem uncut_openerWith {n : Nat} {c : Call} (h : NestsWithin p n c)
    (hagain : ∀ c₁ c₂, ReflTransGen (Opens p) c c₁ → TransGen (Opens p) c₁ c₂ →
      c₂.key ≠ c₁.key) :
    ∀ {inside : OpenSymbols}, inside.keys.length + n = maxDepth →
      (∀ c', ReflTransGen (Opens p) c c' → c'.key ∉ inside.keys) →
      (openerWith p n).Uncut p inside c := by
  induction n generalizing c with
  | zero => exact absurd h id
  | succ n ih =>
    intro inside hroom houtside
    -- what is opened from here on stays away from this symbol as well
    have hdeeper : ∀ inside' : OpenSymbols, inside'.keys = c.key :: inside.keys →
        (openWith p (openerWith p n) inside').answer .none c =
          (openWith p (uncutWith p maxDepth) .none).answer .none c := by
      intro inside' hkeys
      refine answer_open_congr (plain_openerWith p n) c ?_
      intro x hx
      have hopens : Opens p c x.call := ⟨x, hx, rfl⟩
      refine ih (h x hx) ?_ ?_ ?_
      · intro c₁ c₂ h₁ h₂
        exact hagain c₁ c₂ (.head hopens h₁) h₂
      · rw [hkeys, List.length_cons]
        omega
      · intro c' hc'
        rw [hkeys, List.mem_cons, not_or]
        exact ⟨hagain c c' .refl (.head' hopens hc'), houtside c' (.head hopens hc')⟩
    have huncut : (uncutWith p maxDepth).answer .none c =
        (openWith p (uncutWith p maxDepth) .none).answer .none c := by
      refine answer_open_congr (plain_uncutWith p 11) c ?_
      intro x hx
      exact uncut_uncutWith (by omega) (h x hx) (by simp only [maxDepth] at hroom; omega)
    obtain ⟨inside', hsome, hkeys⟩ := exists_enter? (houtside c .refl) (by omega)
    exact (answer_openerWith_of_enter hsome).trans ((hdeeper inside' hkeys).trans huncut.symm)

/-! ## The main statement -/

/-- **An expansion that no argument leads back into cuts nothing.** In a program without
cycles, nested no deeper than is allowed, the properties of a symbol are those of the
expansion that cuts nothing, if no type argument leads to a symbol that is open around
it. -/
theorem symbolProperties_eq_uncut {symbol : Symbol} (hacyclic : Acyclic p symbol)
    (hnest : NestsWithin p maxDepth (rootCall symbol)) (hargs : ArgumentsLeadOut p symbol)
    {room : Nat} (hroom : maxDepth ≤ room) :
    symbolProperties p symbol = uncutProperties p room symbol := by
  have hcut : (openerWith p maxDepth).Uncut p .none (rootCall symbol) := by
    refine uncut_openerWith hnest ?_ rfl ?_
    · intro c₁ c₂ h₁ h₂
      exact (argumentsLeadOut_iff hacyclic).mp hargs c₁ c₂ h₁ h₂
    · intro c' _
      exact List.not_mem_nil
  have huncut := uncut_uncutWith (Nat.le_refl _) hnest hroom
  exact Answer.properties.inj (hcut.trans huncut.symm)

end

/-! ## Checking a program -/

section

variable {α : Type} (next : α → List α)

/-- Whether no way from a point goes on for so many steps. -/
def endsWithin : Nat → α → Bool
  | 0, _ => false
  | n + 1, a => (next a).all (endsWithin n)

/-- All points on the ways from a point, as far as so many steps go. -/
def reachedWithin : Nat → α → List α
  | 0, _ => []
  | n + 1, a => a :: (next a).flatMap (reachedWithin n)

variable {next}

theorem endsWithin_succ {n : Nat} {a : α} (h : endsWithin next n a = true) :
    endsWithin next (n + 1) a = true := by
  induction n generalizing a with
  | zero => cases h
  | succ n ih =>
    rw [endsWithin, List.all_eq_true] at h ⊢
    intro b hb
    exact ih (h b hb)

theorem endsWithin_of_reflTransGen {n : Nat} {a b : α} (h : endsWithin next n a = true)
    (hab : ReflTransGen (fun a b => b ∈ next a) a b) : endsWithin next n b = true := by
  induction hab with
  | refl => exact h
  | tail _ hbc ih =>
    cases n with
    | zero => cases h
    | succ n =>
      rw [endsWithin, List.all_eq_true] at ih
      exact endsWithin_succ (ih _ hbc)

/-- When all ways end, every point on them is among those that are reached. -/
theorem mem_reachedWithin {n : Nat} {a b : α} (h : endsWithin next n a = true)
    (hab : ReflTransGen (fun a b => b ∈ next a) a b) : b ∈ reachedWithin next n a := by
  induction n generalizing a with
  | zero => cases h
  | succ n ih =>
    rw [endsWithin, List.all_eq_true] at h
    rw [reachedWithin, List.mem_cons, List.mem_flatMap]
    rcases ReflTransGen.cases_head hab with rfl | ⟨c, hac, hcb⟩
    · exact Or.inl rfl
    · exact Or.inr ⟨c, hac, ih (h c hac) hcb⟩

end

section

variable (p : Program)

/-- The calls that a call opens. -/
def Call.opened (c : Call) : List Call :=
  (c.openings p).map Opening.call

/-- The symbols that a symbol mentions. -/
def mentioned (s : Symbol) : List Symbol :=
  s.decls.flatMap fun d => (namesInDecl d).filterMap (p.lookup s.file)

/-- The calls of an expansion that nests no deeper than is allowed. -/
def callsFrom (c : Call) : List Call :=
  reachedWithin (Call.opened p) maxDepth c

/-- Whether no symbol of an expansion leads back to itself in the graph of mentions, along
ways of at most `maxDepth` steps. -/
def checkAcyclic (symbol : Symbol) : Bool :=
  (callsFrom p (rootCall symbol)).all fun c => (mentioned p c.symbol).all fun s =>
    endsWithin (mentioned p) maxDepth s &&
      (reachedWithin (mentioned p) maxDepth s).all fun s' => (s'.file, s'.name) ≠ c.key

/-- Whether no argument of an expansion leads back. -/
def checkArguments (symbol : Symbol) : Bool :=
  (callsFrom p (rootCall symbol)).all fun c => (callsFrom p c).all fun c₁ =>
    (c₁.openings p).all fun o =>
      o.way = .written || (callsFrom p o.call).all fun c₃ => c₃.key ≠ c.key

variable {p}

theorem opens_iff {c c' : Call} : Opens p c c' ↔ c' ∈ c.opened p :=
  List.mem_map.symm

theorem mentions_iff {s s' : Symbol} : Mentions p s s' ↔ s' ∈ mentioned p s := by
  unfold Mentions mentioned
  simp only [List.mem_flatMap, List.mem_filterMap]

theorem nestsWithin_of_endsWithin {n : Nat} {c : Call}
    (h : endsWithin (Call.opened p) n c = true) : NestsWithin p n c := by
  induction n generalizing c with
  | zero => cases h
  | succ n ih =>
    rw [endsWithin, List.all_eq_true] at h
    intro o ho
    exact ih (h o.call (List.mem_map_of_mem ho))

section

variable {symbol : Symbol} (hends : endsWithin (Call.opened p) maxDepth (rootCall symbol) = true)

include hends

theorem endsWithin_of_opens {c : Call} (hc : ReflTransGen (Opens p) (rootCall symbol) c) :
    endsWithin (Call.opened p) maxDepth c = true :=
  endsWithin_of_reflTransGen hends (ReflTransGen.mono (fun _ _ => opens_iff.mp) _ _ hc)

theorem mem_callsFrom {c c' : Call} (hc : ReflTransGen (Opens p) (rootCall symbol) c)
    (h : ReflTransGen (Opens p) c c') : c' ∈ callsFrom p c :=
  mem_reachedWithin (endsWithin_of_opens hends hc)
    (ReflTransGen.mono (fun _ _ => opens_iff.mp) _ _ h)

theorem acyclic_of_check (h : checkAcyclic p symbol = true) : Acyclic p symbol := by
  intro c hc s hs
  obtain ⟨s₁, h₁, h₂⟩ := TransGen.head'_iff.mp hs
  unfold checkAcyclic at h
  rw [List.all_eq_true] at h
  have hmentioned := h c (mem_callsFrom hends .refl hc)
  rw [List.all_eq_true] at hmentioned
  have hs₁ := hmentioned s₁ (mentions_iff.mp h₁)
  rw [Bool.and_eq_true, List.all_eq_true] at hs₁
  have hmem := mem_reachedWithin hs₁.1 (ReflTransGen.mono (fun _ _ => mentions_iff.mp) _ _ h₂)
  exact of_decide_eq_true (hs₁.2 s hmem)

theorem argumentsLeadOut_of_check (h : checkArguments p symbol = true) :
    ArgumentsLeadOut p symbol := by
  intro c c₁ c₂ c₃ hc h₁ harg h₃
  unfold checkArguments at h
  simp only [List.all_eq_true] at h
  have hopening := h c (mem_callsFrom hends .refl hc) c₁ (mem_callsFrom hends hc h₁) _ harg
  have hc₂ : ReflTransGen (Opens p) (rootCall symbol) c₂ :=
    (hc.trans h₁).tail ⟨_, harg, rfl⟩
  rw [Bool.or_eq_true, List.all_eq_true] at hopening
  rcases hopening with hway | hkeys
  · cases of_decide_eq_true hway
  · exact of_decide_eq_true (hkeys c₃ (mem_callsFrom hends hc₂ h₃))

end

end

/-! ## A generic in its own argument -/

/-- A generic that is applied to a type of its own. -/
def genericText : String :=
  "type Base = \x7b b: string \x7d;\ntype With<T> = T & \x7b w: string \x7d;\n" ++
    "export type XConfigType = With<Base>;"

theorem symbolProperties_generic_eq_uncut :
    ∃ c symbol, Context.build (oneFile genericText) onePath genericText = .ok c ∧
      c.program.findType rootFile "XConfigType" = some symbol ∧
      symbolProperties c.program symbol = uncutProperties c.program maxDepth symbol := by
  have hany : (oneContext? genericText).any (fun c =>
      (c.program.findType rootFile "XConfigType").any fun symbol =>
        endsWithin (Call.opened c.program) maxDepth (rootCall symbol) &&
          (checkAcyclic c.program symbol && checkArguments c.program symbol)) = true := by
    decide +kernel
  obtain ⟨c, hc, hfound⟩ := Option.any_eq_true _ _ |>.mp hany
  obtain ⟨symbol, hsymbol, hcheck⟩ := Option.any_eq_true _ _ |>.mp hfound
  rw [Bool.and_eq_true, Bool.and_eq_true] at hcheck
  obtain ⟨hends, hacyclic, hargs⟩ := hcheck
  exact ⟨c, symbol, build_of_oneContext? hc, hsymbol,
    symbolProperties_eq_uncut (acyclic_of_check hends hacyclic) (nestsWithin_of_endsWithin hends)
      (argumentsLeadOut_of_check hends hargs) (Nat.le_refl _)⟩

/-- A generic that is applied inside its own argument. -/
def nestedText : String :=
  "type Base = \x7b b: string \x7d;\ntype With<T> = T & \x7b w: string \x7d;\n" ++
    "export type XConfigType = With<With<Base>>;"

/-- A generic in its own argument is still open when the argument is read. It is cut
there, and what it was applied to is lost. -/
theorem symbolProperties_nested_generic_ne_uncut :
    ∃ c symbol, Context.build (oneFile nestedText) onePath nestedText = .ok c ∧
      c.program.findType rootFile "XConfigType" = some symbol ∧
      Acyclic c.program symbol ∧ NestsWithin c.program maxDepth (rootCall symbol) ∧
      names (symbolProperties c.program symbol) = ["w"] ∧
      ∀ room, maxDepth ≤ room → names (uncutProperties c.program room symbol) = ["b", "w"] := by
  have hany : (oneContext? nestedText).any (fun c =>
      (c.program.findType rootFile "XConfigType").any fun symbol =>
        endsWithin (Call.opened c.program) maxDepth (rootCall symbol) &&
          (checkAcyclic c.program symbol &&
            (names (symbolProperties c.program symbol) = ["w"] &&
              names (uncutProperties c.program maxDepth symbol) = ["b", "w"]))) = true := by
    decide +kernel
  obtain ⟨c, hc, hfound⟩ := Option.any_eq_true _ _ |>.mp hany
  obtain ⟨symbol, hsymbol, hcheck⟩ := Option.any_eq_true _ _ |>.mp hfound
  rw [Bool.and_eq_true, Bool.and_eq_true, Bool.and_eq_true] at hcheck
  obtain ⟨hends, hacyclic, hcut, huncut⟩ := hcheck
  refine ⟨c, symbol, build_of_oneContext? hc, hsymbol,
    acyclic_of_check hends hacyclic, nestsWithin_of_endsWithin hends,
    of_decide_eq_true hcut, ?_⟩
  intro room hroom
  have hsame := Answer.properties.inj
    (uncut_uncutWith (Nat.le_refl _) (nestsWithin_of_endsWithin hends) hroom)
  rw [show uncutProperties _ room symbol = uncutProperties _ maxDepth symbol from hsame]
  exact of_decide_eq_true huncut

end ElementManifest.Expansion

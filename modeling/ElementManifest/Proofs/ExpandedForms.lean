import ElementManifest.Proofs.FunctionTexts
import ElementManifest.Proofs.RootFile

/-!
# Types with their names replaced

The text of a type with the names in it written out is to mean the type in which every alias
and every parameter is replaced by what it stands for. That type is built here from the tree,
without a text (`expandedForm`). The text, read again, is compared with it.

> `spelledOut_textOf`: the text spells that type, wherever it stands.

> `readForm_textOf`: so it is read as that type, but for brackets behind an operator, which
> belong to its operand. It is read as it is meant exactly when no operator stands in an array
> without parentheses.
-/

namespace ElementManifest.Expansion

open ElementManifest.Text ElementManifest.TypeScript

/-! ## Names and what they stand for -/

/-- What names stand for at a place where types are written. -/
structure Glossary where
  source : Source
  /-- The argument of a type parameter; its form is none if it is not built of forms. -/
  argument : String → Option (Option TypeForm)
  lookup : String → Option Symbol
  /-- What a symbol with arguments stands for. -/
  definition : Symbol → List TypeNode → Option TypeForm

/-- The argument that a reference means, if it is a type parameter. -/
def Glossary.argument? (g : Glossary) : EntityName → List TypeNode → Option (Option TypeForm)
  | .name text, [] => g.argument text
  | _, _ => none

mutual

/-- A type in which all names that are declared are replaced by what they stand for. It is none
if there is something else in it than names, arrays, unions, intersections, operators,
parentheses, and what is kept as it is written. -/
def expandedForm (g : Glossary) : TypeNode → Option TypeForm
  | .keyword span _ => some (.name (g.source.textOf span))
  | .reference _ name args =>
    match g.argument? name args with
    | some form => form
    | none =>
      match g.lookup name.text with
      | some symbol => g.definition symbol args
      | none => if args.isEmpty then some (.name name.text) else none
  | .array _ elem => (expandedForm g elem).map .array
  | .union _ branches => expandedForms g .bar branches
  | .intersection _ branches => expandedForms g .ampersand branches
  | .paren _ inner => (expandedForm g inner).map .paren
  | .operator _ op inner => (expandedForm g inner).map (.operator op)
  | .other span _ => some (.written (g.source.textOf span))
  | _ => none

/-- The same for types that are joined. -/
def expandedForms (g : Glossary) (j : Joint) : List TypeNode → Option TypeForm
  | [] => none
  | [t] => expandedForm g t
  | t :: ts => (expandedForm g t).bind fun first => (expandedForms g j ts).map (.joined j first)

end

section

variable (p : Program) (definitions : OpenSymbols → Symbol → Arguments → Option TypeForm)
  (inside : OpenSymbols)

/-- What a type parameter stands for in a scope. -/
def argumentIn : Scope → String → Option (Option TypeForm)
  | .empty, _ => none
  | .bind param file type around rest, name =>
    if param == name then
      some (expandedForm
        { source := sourceOf p file
          argument := fun n => argumentIn around n
          lookup := p.lookup file
          definition := fun symbol args => definitions inside symbol ⟨file, around, args⟩ } type)
    else argumentIn rest name

/-- What names stand for in a file and a scope. -/
def glossaryAt (file : Nat) (scope : Scope) : Glossary where
  source := sourceOf p file
  argument := argumentIn p definitions inside scope
  lookup := p.lookup file
  definition symbol args := definitions inside symbol ⟨file, scope, args⟩

/-- What an alias stands for. -/
def aliasForm (symbol : Symbol) (args : Arguments) : Option TypeForm :=
  match symbol.decls with
  | .typeAlias d :: _ =>
    expandedForm (glossaryAt p definitions inside symbol.file
      (bindParams symbol.file .empty d.params args)) d.type
  | _ => none

end

/-- What aliases stand for when there is room to open so many of them inside each other. An
alias that is open already stands for nothing. -/
def definitionsWith (p : Program) : Nat → OpenSymbols → Symbol → Arguments → Option TypeForm
  | 0, _, _, _ => none
  | room + 1, inside, symbol, args =>
    (inside.enter? symbol).bind fun inside =>
      aliasForm p (definitionsWith p room) inside symbol args

/-! ## Types whose names and functions are read -/

/-- A name that is read by itself: words with dots between them, the first one of no other use
where a type starts. -/
def IsTypeName (name : List Char) : Prop :=
  ∃ w ws, Read.isPlainWord w = true ∧ (∀ v ∈ ws, isWordText v = true) ∧ name = w ++ Read.dotted ws

/-- A type all of whose names are read by themselves, and all of whose other texts are read as
functions. -/
def Legible : TypeForm → Prop
  | .name text => IsTypeName text.toList
  | .array elem => Legible elem
  | .joined _ first rest => Legible first ∧ Legible rest
  | .operator _ inner => Legible inner
  | .paren inner => Legible inner
  | .written text => FunctionText text.toList

/-! ## Texts of one form -/

theorem spells_name {text : String} (h : IsTypeName text.toList) :
    Spells text.toList (.name text) := by
  obtain ⟨w, ws, hw, hws, htext⟩ := h
  have hspelled := Spelled.name hw hws
  rw [← htext, String.ofList_toList] at hspelled
  exact ⟨_, hspelled, fun _ => rfl⟩

theorem spells_written {text : String} (h : FunctionText text.toList) :
    Spells text.toList (.written text) := by
  have hspelled := Spelled.written h
  rw [String.ofList_toList] at hspelled
  exact ⟨_, hspelled, fun _ => rfl⟩

theorem spells_array {text : String} {a : TypeForm} (h : Spells text.toList a) :
    Spells (operandText text ++ "[]").toList a.bracketed := by
  obtain ⟨b, hb, hrank, halike⟩ := h.guarded fun b hb hlt => hasTopToken_operand hb hlt
  rw [String.toList_append]
  exact ⟨b.bracketed, hb.brackets hrank, halike.bracketed⟩

theorem spells_operator {text : String} {a : TypeForm} (op : TypeOperator)
    (h : Spells text.toList a) :
    Spells (op.text ++ " " ++ operandText text).toList (.operator op a) := by
  obtain ⟨b, hb, hrank, halike⟩ := h.guarded fun b hb hlt => hasTopToken_operand hb hlt
  refine ⟨.operator op b, ?_, halike.operator op⟩
  simp only [String.toList_append, List.append_assoc]
  exact hb.operator op hrank

theorem spells_paren {text : String} {a : TypeForm} (h : Spells text.toList a) :
    Spells ("(" ++ text ++ ")").toList (.paren a) := by
  obtain ⟨b, hb, halike⟩ := h
  refine ⟨.paren b, ?_, alike_of_normal rfl rfl halike.normal_eq⟩
  simp only [String.toList_append]
  exact hb.paren

/-- How a joint is written between two texts. -/
def separator : Joint → String
  | .bar => " | "
  | .ampersand => " & "

/-- The tokens for which a branch gets parentheses. -/
def branchTokens : Joint → List TopToken
  | .bar => [.arrow]
  | .ampersand => [.bar, .ampersand, .arrow]

theorem spells_branch (j : Joint) {text : String} {a : TypeForm} (h : Spells text.toList a) :
    SpellsWithin j.rank (wrapIf (branchTokens j) text).toList a := by
  cases j with
  | bar => exact h.guarded fun b hb hlt => hasTopToken_branch hb hlt
  | ampersand => exact h.guarded fun b hb hlt => hasTopToken_operand hb (Nat.lt_of_succ_lt hlt)

theorem spells_joined (j : Joint) {text rest : String} {a b : TypeForm}
    (h : SpellsWithin j.rank text.toList a) (hrest : SpellsWithin j.rank rest.toList b) :
    SpellsWithin j.rank (text ++ separator j ++ rest).toList (.joined j a b) := by
  obtain ⟨a', ha, hrank, halike⟩ := h
  obtain ⟨b', hb, hrank', halike'⟩ := hrest
  have hnormal : (TypeForm.joined j a' b').normal = (TypeForm.joined j a b).normal := by
    rw [TypeForm.normal, TypeForm.normal, halike.normal_eq, halike'.normal_eq]
  refine ⟨.joined j a' b', ?_, Nat.le_refl _, alike_of_normal rfl rfl hnormal⟩
  have htext : (text ++ separator j ++ rest).toList =
      text.toList ++ ' ' :: j.char :: ' ' :: rest.toList := by
    cases j with
    | bar | ampersand => simp [separator, Joint.char]
  rw [htext]
  exact .joined j ha hb hrank hrank'

/-! ## One place -/

/-- The text spells what is read of a type, if the type is legible. -/
def SpelledOut (text : String) (a : TypeForm) : Prop :=
  Legible a → Spells text.toList a.asRead

/-- At a place the texts of names spell what these names stand for. -/
structure Site.SpellsOut (site : Site) (g : Glossary) : Prop where
  source : site.source = g.source
  lookup : site.lookup = g.lookup
  unbound : ∀ name, site.meaning name = none → g.argument name = none
  argument : ∀ name meaning, site.meaning name = some meaning →
    ∃ form, g.argument name = some form ∧ ∀ a, form = some a → SpelledOut (meaning.text ()) a
  definition : ∀ symbol args a, g.definition symbol args = some a →
    ∃ text, site.text symbol args = some text ∧ SpelledOut text a

section

variable {site : Site} {g : Glossary}

theorem Site.SpellsOut.argument?_of_none (hsite : site.SpellsOut g) {name : EntityName}
    {args : List TypeNode} (h : site.parameter? name args = none) :
    g.argument? name args = none := by
  cases name with
  | member => rfl
  | name text =>
    cases args with
    | cons => rfl
    | nil => exact hsite.unbound text h

theorem Site.SpellsOut.argument?_of_some (hsite : site.SpellsOut g) {name : EntityName}
    {args : List TypeNode} {meaning : Meaning} (h : site.parameter? name args = some meaning) :
    ∃ form, g.argument? name args = some form ∧
      ∀ a, form = some a → SpelledOut (meaning.text ()) a := by
  cases name with
  | member => cases h
  | name text =>
    cases args with
    | cons => cases h
    | nil => exact hsite.argument text meaning h

/-- The text of a name spells what the name stands for. -/
theorem Site.SpellsOut.reference (hsite : site.SpellsOut g) (span : Span) (name : EntityName)
    (args : List TypeNode) {a : TypeForm}
    (h : expandedForm g (.reference span name args) = some a) :
    SpelledOut (textOf site (.reference span name args)) a := by
  rw [expandedForm] at h
  rw [textOf]
  cases hparameter : site.parameter? name args with
  | some meaning =>
    obtain ⟨form, hform, hspells⟩ := hsite.argument?_of_some hparameter
    rw [hform] at h
    exact hspells a h
  | none =>
    rw [hsite.argument?_of_none hparameter, ← hsite.lookup] at h
    dsimp only at h ⊢
    cases hlookup : site.lookup name.text with
    | some symbol =>
      rw [hlookup] at h
      obtain ⟨text, htext, hspells⟩ := hsite.definition symbol args a h
      rw [Option.bind_some, htext]
      exact hspells
    | none =>
      rw [hlookup] at h
      cases args with
      | cons => cases h
      | nil =>
        cases h
        exact spells_name

mutual

/-- The text of a type spells the type with all names replaced. -/
theorem spelledOut_textOf (hsite : site.SpellsOut g) :
    ∀ (t : TypeNode) (a : TypeForm), expandedForm g t = some a → SpelledOut (textOf site t) a
  | .keyword span _, a, h => by
    rw [expandedForm, Option.some.injEq] at h
    subst h
    rw [textOf, hsite.source]
    exact spells_name
  | .reference span name args, _, h => hsite.reference span name args h
  | .array _ elem, a, h => by
    rw [expandedForm, Option.map_eq_some_iff] at h
    obtain ⟨inner, hinner, rfl⟩ := h
    rw [textOf]
    exact fun hlegible => spells_array (spelledOut_textOf hsite elem inner hinner hlegible)
  | .paren _ inner, a, h => by
    rw [expandedForm, Option.map_eq_some_iff] at h
    obtain ⟨b, hinner, rfl⟩ := h
    rw [textOf]
    exact fun hlegible => spells_paren (spelledOut_textOf hsite inner b hinner hlegible)
  | .operator _ op inner, a, h => by
    rw [expandedForm, Option.map_eq_some_iff] at h
    obtain ⟨b, hinner, rfl⟩ := h
    rw [textOf]
    exact fun hlegible => spells_operator op (spelledOut_textOf hsite inner b hinner hlegible)
  | .union _ branches, a, h => by
    rw [expandedForm] at h
    rw [textOf]
    intro hlegible
    obtain ⟨b, hb, _, halike⟩ := spelledOut_textsOf hsite .bar branches a h hlegible
    exact ⟨b, hb, halike⟩
  | .intersection _ branches, a, h => by
    rw [expandedForm] at h
    rw [textOf]
    intro hlegible
    obtain ⟨b, hb, _, halike⟩ := spelledOut_textsOf hsite .ampersand branches a h hlegible
    exact ⟨b, hb, halike⟩
  | .other span _, a, h => by
    rw [expandedForm, Option.some.injEq] at h
    subst h
    rw [textOf, hsite.source]
    exact spells_written
  | .text .., _, h | .truth .., _, h | .object .., _, h | .tuple .., _, h | .optional .., _, h
  | .rest .., _, h | .indexed .., _, h => by
    simp [expandedForm] at h

/-- The texts of types that are joined spell the joined type. -/
theorem spelledOut_textsOf (hsite : site.SpellsOut g) (j : Joint) :
    ∀ (ts : List TypeNode) (a : TypeForm), expandedForms g j ts = some a → Legible a →
      SpellsWithin j.rank ((separator j).intercalate
        ((textsOf site ts).map (wrapIf (branchTokens j)))).toList a.asRead
  | [], _, h => by cases h
  | [t], a, h => by
    rw [expandedForms] at h
    intro hlegible
    rw [textsOf, textsOf, List.map_cons, List.map_nil, String.intercalate_singleton]
    exact spells_branch j (spelledOut_textOf hsite t a h hlegible)
  | t :: u :: us, a, h => by
    rw [expandedForms, Option.bind_eq_some_iff] at h
    · obtain ⟨first, hfirst, h⟩ := h
      obtain ⟨rest, hrest, rfl⟩ := Option.map_eq_some_iff.mp h
      rintro ⟨hlegible, hlegible'⟩
      have hbranch := spells_branch j (spelledOut_textOf hsite t first hfirst hlegible)
      have hothers := spelledOut_textsOf hsite j (u :: us) rest hrest hlegible'
      rw [textsOf, textsOf, List.map_cons, List.map_cons, String.intercalate_cons_cons]
      rw [textsOf, List.map_cons] at hothers
      exact spells_joined j hbranch hothers
    · nofun

end

end

/-! ## All places -/

section

variable {p : Program} {opener : Opener}
  {definitions : OpenSymbols → Symbol → Arguments → Option TypeForm} {inside : OpenSymbols}

/-- A symbol that stands for something is opened, and its text spells what it stands for. -/
def OpensSpelled (opener : Opener)
    (definitions : OpenSymbols → Symbol → Arguments → Option TypeForm) : Prop :=
  ∀ inside symbol args a, definitions inside symbol args = some a →
    ∃ text, opener.text inside symbol args = some text ∧ SpelledOut text a

/-- The parameters of a scope are the same for the text and for the form, and the text of an
argument spells its form. -/
structure ArgumentsSpelled (meaning : String → Option Meaning)
    (argument : String → Option (Option TypeForm)) : Prop where
  unbound : ∀ name, meaning name = none → argument name = none
  bound : ∀ name m, meaning name = some m →
    ∃ form, argument name = some form ∧ ∀ a, form = some a → SpelledOut (m.text ()) a

theorem ArgumentsSpelled.spellsOut {meaning : String → Option Meaning}
    {argument : String → Option (Option TypeForm)} (h : ArgumentsSpelled meaning argument)
    (hopener : OpensSpelled opener definitions) (file : Nat) (scope : Scope) :
    (siteWith p opener inside file scope meaning).SpellsOut
      { source := sourceOf p file
        argument := argument
        lookup := p.lookup file
        definition := fun symbol args => definitions inside symbol ⟨file, scope, args⟩ } where
  source := rfl
  lookup := rfl
  unbound := h.unbound
  argument := h.bound
  definition symbol args a := hopener inside symbol ⟨file, scope, args⟩ a

theorem argumentsSpelled (hopener : OpensSpelled opener definitions) (scope : Scope) :
    ArgumentsSpelled (meaningIn p opener inside scope) (argumentIn p definitions inside scope) := by
  induction scope with
  | empty => exact ⟨fun _ _ => rfl, nofun⟩
  | bind param file type around rest ih ih' =>
    have hsite := @ArgumentsSpelled.spellsOut p opener definitions inside _ _ ih hopener file around
    constructor
    · intro name h
      rw [meaningIn] at h
      rw [argumentIn]
      split at h
      next => cases h
      next hne => rw [if_neg hne, ih'.unbound name h]
    · intro name m h
      rw [meaningIn] at h
      rw [argumentIn]
      split at h
      next heq =>
        cases h
        rw [if_pos heq]
        exact ⟨_, rfl, fun a ha => spelledOut_textOf hsite type a ha⟩
      next hne =>
        rw [if_neg hne]
        exact ih'.bound name m h

theorem spellsOut_siteAt (hopener : OpensSpelled opener definitions) (file : Nat) (scope : Scope) :
    (siteAt p opener inside file scope).SpellsOut (glossaryAt p definitions inside file scope) :=
  (argumentsSpelled hopener scope).spellsOut hopener file scope

/-- With room for so many symbols inside each other, each one that stands for something is
opened. -/
theorem opensSpelled (p : Program) (room : Nat) :
    OpensSpelled (openerWith p room) (definitionsWith p room) := by
  induction room with
  | zero => nofun
  | succ room ih =>
    intro inside symbol args a h
    obtain ⟨inside', henter, h⟩ := Option.bind_eq_some_iff.mp h
    have htext : (openerWith p (room + 1)).text inside symbol args =
        openText p (openerWith p room) inside' symbol args := by
      show (inside.enter? symbol).bind _ = _
      rw [henter]
      rfl
    rw [htext]
    unfold aliasForm at h
    unfold openText
    split at h
    next d _ hdecls =>
      rw [hdecls]
      exact ⟨_, rfl, spelledOut_textOf (spellsOut_siteAt ih _ _) d.type a h⟩
    next => cases h

end

/-- **The text of a type, read again,** is the type with all its names replaced, but that brackets
behind an operator belong to its operand. So it is the type that is meant exactly when no
operator stands in an array without parentheses. -/
theorem readForm_textOf (p : Program) (room : Nat) (inside : OpenSymbols) (file : Nat)
    (scope : Scope) (t : TypeNode) (a : TypeForm)
    (h : expandedForm (glossaryAt p (definitionsWith p room) inside file scope) t = some a)
    (hlegible : Legible a) :
    readForm (textOf (siteAt p (openerWith p room) inside file scope) t) = some a.asRead.normal ∧
      (readForm (textOf (siteAt p (openerWith p room) inside file scope) t) = some a.normal ↔
        a.closesArrays = true) := by
  have hspelled := spelledOut_textOf (spellsOut_siteAt (opensSpelled p room) file scope) t a h
  obtain ⟨b, hb, halike⟩ := hspelled hlegible
  have hread := hb.readForm_eq
  rw [halike.normal_eq] at hread
  refine ⟨hread, ?_⟩
  rw [hread, Option.some.injEq]
  exact a.asRead_normal_iff

/-! ## Unions, intersections and functions in an array -/

/-- Aliases and a generic, all of them put into arrays, and a function. -/
def nestedAliases : String :=
  "type N = a | b;\ntype F = (e: N) => x;\ntype B<T> = readonly (T | F)[];\n" ++
    "type W = (B<N & F>)[] | N[];"

/-- The function, which stays as it is written. -/
def handler : TypeForm :=
  .written "(e: N) => x"

/-- What `N` stands for. -/
def branches : TypeForm :=
  .joined .bar (.name "a") (.name "b")

/-- What `W` stands for. -/
def wholeForm : TypeForm :=
  .joined .bar
    (.array (.paren (.operator .readonly
      (.array (.paren (.joined .bar (.joined .ampersand branches handler) handler))))))
    (.array branches)

theorem legible_wholeForm : Legible wholeForm := by
  have hname {w : String} (h : Read.isPlainWord w.toList = true) : Legible (.name w) :=
    ⟨w.toList, [], h, nofun, (List.append_nil _).symm⟩
  have hbranches : Legible branches := ⟨hname (by decide +kernel), hname (by decide +kernel)⟩
  have hparam : ParamText ("e".toList ++ ':' :: ' ' :: ("N".toList ++ Read.dotted [])) :=
    .named (by decide +kernel) (.name (by decide +kernel) nofun)
  have hanswer : Read.IsAnswer ("x".toList ++ Read.dotted [])
      (.name (String.ofList ("x".toList ++ Read.dotted []))) := by
    refine ⟨.name (by decide +kernel) nofun, Nat.zero_le 3, fun op z => ?_⟩
    cases op with
    | keyof | unique | readonly => nofun
  have hhandler : Legible handler := functionText_of_param hparam hanswer
  exact ⟨⟨⟨hbranches, hhandler⟩, hhandler⟩, hbranches⟩

/-- The text of nested aliases keeps all of them apart. -/
theorem readForm_textOf_nested :
    ∃ c, Context.build (oneFile nestedAliases) onePath nestedAliases = .ok c ∧
      textOf (siteAt c.program (openerWith c.program maxDepth) .none rootFile .empty)
          (.reference ⟨0, 0⟩ (.name "W") []) =
        "(readonly ((a | b) & ((e: N) => x) | ((e: N) => x))[])[] | (a | b)[]" ∧
      readForm (textOf (siteAt c.program (openerWith c.program maxDepth) .none rootFile .empty)
        (.reference ⟨0, 0⟩ (.name "W") [])) = some wholeForm.normal := by
  have hany : (oneContext? nestedAliases).any (fun c =>
      let p := c.program
      decide (expandedForm (glossaryAt p (definitionsWith p maxDepth) .none rootFile .empty)
          (.reference ⟨0, 0⟩ (.name "W") []) = some wholeForm) &&
        textOf (siteAt p (openerWith p maxDepth) .none rootFile .empty)
          (.reference ⟨0, 0⟩ (.name "W") []) ==
            "(readonly ((a | b) & ((e: N) => x) | ((e: N) => x))[])[] | (a | b)[]") = true := by
    decide +kernel
  obtain ⟨c, hc, hall⟩ := Option.any_eq_true _ _ |>.mp hany
  simp only [Bool.and_eq_true, decide_eq_true_eq, beq_iff_eq] at hall
  obtain ⟨hform, htext⟩ := hall
  have hread := readForm_textOf _ maxDepth .none rootFile .empty _ wholeForm hform
    legible_wholeForm
  exact ⟨c, build_of_oneContext? hc, htext, hread.2.mpr (by decide)⟩

/-! ## An operator in an array -/

/-- An alias of an operator type as the element of an array. -/
def operatorElement : String :=
  "type K = keyof Y;\nexport type XConfigType = \x7b v: K[] \x7d;"

/-- An array of keys is meant, and the keys of an array are read. -/
theorem readForm_textOf_ne :
    ∃ c s, Context.build (oneFile operatorElement) onePath operatorElement = .ok c ∧
      c.program.lookup rootFile "XConfigType" = some s ∧
      symbolProperties c.program s = [⟨"v", "keyof Y[]", false, none⟩] ∧
      expandedForm (glossaryAt c.program (definitionsWith c.program maxDepth) .none rootFile .empty)
        (.array ⟨0, 0⟩ (.reference ⟨0, 0⟩ (.name "K") [])) =
          some (.array (.operator .keyof (.name "Y"))) ∧
      textOf (siteAt c.program (openerWith c.program maxDepth) .none rootFile .empty)
        (.array ⟨0, 0⟩ (.reference ⟨0, 0⟩ (.name "K") [])) = "keyof Y[]" ∧
      readForm "keyof Y[]" = some (.operator .keyof (.array (.name "Y"))) := by
  have hany : (oneContext? operatorElement).any (fun c =>
      let p := c.program
      (p.lookup rootFile "XConfigType").any (fun s =>
          symbolProperties p s = [⟨"v", "keyof Y[]", false, none⟩]) &&
        decide (expandedForm (glossaryAt p (definitionsWith p maxDepth) .none rootFile .empty)
          (.array ⟨0, 0⟩ (.reference ⟨0, 0⟩ (.name "K") [])) =
            some (.array (.operator .keyof (.name "Y")))) &&
        textOf (siteAt p (openerWith p maxDepth) .none rootFile .empty)
          (.array ⟨0, 0⟩ (.reference ⟨0, 0⟩ (.name "K") [])) == "keyof Y[]") = true := by
    decide +kernel
  obtain ⟨c, hc, hall⟩ := Option.any_eq_true _ _ |>.mp hany
  simp only [Bool.and_eq_true, decide_eq_true_eq, beq_iff_eq] at hall
  obtain ⟨⟨hfound, hform⟩, htext⟩ := hall
  obtain ⟨symbol, hsymbol, hshapes⟩ := Option.any_eq_true _ _ |>.mp hfound
  exact ⟨c, symbol, build_of_oneContext? hc, hsymbol, of_decide_eq_true hshapes,
    hform, htext, by decide +kernel⟩

end ElementManifest.Expansion

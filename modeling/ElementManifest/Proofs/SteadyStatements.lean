import ElementManifest.Proofs.SteadyTypes

/-!
# Steady readers of expressions, statements and items

The readers of expressions, statements and items are steady if those of the grammar are. The
grammar of a source is built up from the one that reads nothing, so its readers are steady all of
them, and the comments of a source are in their order:

> `steady_grammar`: however deeply readers nest, they are steady.

> `passed_of_parse`: in a source that has been read no comment is empty, and each one ends before
> the next one starts.
-/

namespace ElementManifest.TypeScript

-- a reader is one chain of steps, for which one instance is put together
set_option synthInstance.maxSize 4000

namespace Read

/-! ## Literals -/

section

variable {g : Grammar} [g.Steady]

instance steady_element : Steady (element g) := by
  unfold element
  infer_instance

instance steady_argument : Steady (argument g) := by
  unfold argument
  infer_instance

instance steady_arguments : Steady (arguments g) := by
  unfold arguments
  infer_instance

instance steady_arrayLiteral : Steady (arrayLiteral g) := by
  unfold arrayLiteral
  infer_instance

instance steady_markedEntry (w : String) : Steady (markedEntry g w) := by
  unfold markedEntry
  infer_instance

instance steady_entry : Steady (entry g) := by
  unfold entry
  repeat' first
    | infer_instance
    | with_reducible refine .bind ?_ fun _ => ?_
    | split

instance steady_objectLiteral : Steady (objectLiteral g) := by
  unfold objectLiteral
  infer_instance

instance steady_template : Steady (template g) := by
  unfold template
  infer_instance

end

/-! ## Elements -/

instance steady_hyphenWord : Steady hyphenWord :=
  steady_token_bind fun t => steadyAt_replace (t.replaces_rescan _) steady_anyWord

instance steady_elementName : Steady elementName := by
  unfold elementName
  infer_instance

instance steady_skipElementText : Steady skipElementText :=
  steady_token_bind fun _ => steadyAt_settings_bind fun s =>
    steadyAt_scan s.inType (Nat.le_add_right _ _) _

section

variable {g : Grammar} [g.Steady]

instance steady_elementHole : Steady (elementHole g) := by
  unfold elementHole
  infer_instance

instance steady_closedElement : Steady (closedElement g) := by
  unfold closedElement
  infer_instance

instance steady_attributeValue : Steady (attributeValue g) := by
  refine steady_token_bind fun t => ?_
  dsimp only
  split
  next => exact steadyAt_replace (t.replaces_rescan _) inferInstance
  next => exact Steady.at inferInstance t
  next => exact (steady_closedElement (g := g)).at t
  next => exact steady_fail.at t

instance steady_elementAttribute : Steady (elementAttribute g) := by
  unfold elementAttribute
  infer_instance

instance steady_elementChildren (name : Option String) : Steady (elementChildren g name) := by
  unfold elementChildren
  refine .bind inferInstance fun _ => ?_
  split
  all_goals infer_instance

instance steady_openElement : Steady (openElement g) := by
  unfold openElement
  infer_instance

end

/-! ## Expressions -/

instance steady_atBinaryMark : Steady atBinaryMark := by
  unfold atBinaryMark
  refine .bind inferInstance fun _ => ?_
  split
  all_goals infer_instance

instance steady_operatorHere : Steady operatorHere := by
  unfold operatorHere
  repeat' first
    | infer_instance
    | with_reducible refine .bind ?_ fun _ => ?_
    | split
    | dsimp only

/-- The operator that stands here is the next token. -/
theorem peeksAt_operatorHere (t : Token) : PeeksAt t
    (fun found => ∀ t' level toTheRight, found = some (t', level, toTheRight) → t' = t.asOperator)
    operatorHere := by
  refine peeksAt_token_bind ?_
  dsimp only
  split
  next =>
    refine peeksAt_pure fun t' level toTheRight heq => ?_
    obtain ⟨_, _, heq⟩ := Option.map_eq_some_iff.mp heq
    cases heq
    rfl
  next =>
    refine peeksAt_pure fun t' level toTheRight heq => ?_
    cases heq
    rfl
  next =>
    refine peeksAt_settings_bind fun s => peeksAt_pure fun t' level toTheRight heq => ?_
    split at heq
    next =>
      cases heq
      rfl
    next => cases heq
  next => exact peeksAt_pure nofun

instance steady_startsExpression : Steady startsExpression := by
  unfold startsExpression
  refine .bind inferInstance fun _ => ?_
  split
  all_goals infer_instance

instance steady_memberName : Steady memberName := by
  unfold memberName
  infer_instance

instance steady_startsGenericArrow : Steady startsGenericArrow := by
  unfold startsGenericArrow
  infer_instance

section

variable {g : Grammar} [g.Steady]

instance steady_arrowBody (isAsync : Bool) : Steady (arrowBody g isAsync) := by
  unfold arrowBody
  infer_instance

instance steady_arrowRest (isAsync : Bool) (params types answer : List Node) :
    Steady (arrowRest g isAsync params types answer) := by
  unfold arrowRest
  infer_instance

instance steady_genericAsyncArrow : Steady (genericAsyncArrow g) := by
  unfold genericAsyncArrow
  infer_instance

instance steady_typedOperand (e : Expr) : Steady (typedOperand g e) := by
  unfold typedOperand
  infer_instance

instance steady_operators (level : Nat) (left : Expr) : Steady (operators g level left) := by
  refine @steady_grow _ _ (fun left => ?_) left
  refine steady_token_bind fun t => ?_
  split
  next => exact Steady.at inferInstance t
  next =>
    refine steadyAt_bind (peeksAt_operatorHere t) fun found hfound => ?_
    split
    next t' itsLevel toTheRight =>
      split
      next => exact (steady_pure none).at t
      next =>
        rw [hfound t' itsLevel toTheRight rfl]
        exact steadyAt_replace t.replaces_asOperator inferInstance
    next => exact (steady_pure none).at t

instance steady_binary (level : Nat) : Steady (binary g level) := by
  unfold binary
  infer_instance

instance steady_binaryWhole : Steady (binaryWhole g) := by
  unfold binaryWhole
  infer_instance

instance steady_outcomes (test : Expr) : Steady (conditional.outcomes g test) := by
  unfold conditional.outcomes
  infer_instance

instance steady_conditional : Steady (conditional g) := by
  unfold conditional
  infer_instance

instance steady_finishAssignment (e : Expr) : Steady (finishAssignment g e) := by
  refine steady_token_bind fun t => ?_
  dsimp only
  split
  next op _ =>
    split
    next => exact (steady_pure e).at t
    next =>
      split
      next => exact steadyAt_replace t.replaces_asOperator inferInstance
      next => exact steady_fail.at t
  next => exact (steady_pure e).at t

instance steady_strayArrow (item : Cover) : Steady (strayArrow g item) := by
  unfold strayArrow
  repeat' first
    | infer_instance
    | with_reducible refine .bind ?_ fun _ => ?_
    | split

instance steady_coverItem : Steady (coverItem g) := by
  unfold coverItem
  repeat' first
    | infer_instance
    | with_reducible refine .bind ?_ fun _ => ?_
    | with_reducible refine @steady_ite _ _ _ _ _ ?_ ?_
    | split
    | dsimp only

instance steady_coverItems : Steady (coverItems g) := by
  unfold coverItems
  infer_instance

instance steady_arrowAfter (isAsync : Bool) (items : List Cover) (answer : List Node) :
    Steady (arrowAfter g isAsync items answer) := by
  unfold arrowAfter
  refine .bind inferInstance fun _ => ?_
  split
  all_goals infer_instance

instance steady_arrowInConditional (isAsync : Bool) (items : List Cover) :
    Steady (arrowInConditional g isAsync items) := by
  unfold arrowInConditional
  refine .bind inferInstance fun _ => ?_
  split
  all_goals infer_instance

instance steady_arrowAnswer : Steady (arrowAnswer g) := by
  unfold arrowAnswer
  infer_instance

instance steady_parenthesis (arrowAllowed isAsync : Bool) :
    Steady (parenthesis g arrowAllowed isAsync) := by
  unfold parenthesis
  repeat' first
    | infer_instance
    | with_reducible refine .bind ?_ fun _ => ?_
    | split
    | dsimp only

instance steady_nameOrArrow (arrowAllowed : Bool) : Steady (nameOrArrow g arrowAllowed) := by
  unfold nameOrArrow
  infer_instance

instance steady_primary : Steady (primary g) := by
  refine steady_token_bind fun t => ?_
  refine steadyAt_settings_bind fun s => ?_
  dsimp only
  split
  case h_5 | h_6 => exact steadyAt_replace (t.replaces_rescan _) inferInstance
  all_goals
    refine Steady.at ?_ t
    repeat' first
      | infer_instance
      | with_reducible refine .bind ?_ fun _ => ?_
      | split

instance steady_bareTypeArgs : Steady (bareTypeArgs g) := by
  unfold bareTypeArgs
  infer_instance

instance steady_taggedTemplate (e : Expr) (types : List TypeNode) :
    Steady (taggedTemplate g e types) := by
  unfold taggedTemplate
  infer_instance

instance steady_appliedOf (calls : Bool) (e : Expr) : Steady (appliedOf g calls e) := by
  unfold appliedOf
  repeat' first
    | infer_instance
    | with_reducible refine .bind ?_ fun _ => ?_
    | split

instance steady_indexExpr : Steady (indexExpr g) := by
  unfold indexExpr
  infer_instance

instance steady_chainLink (e : Expr) : Steady (chainLink g e) := by
  unfold chainLink
  infer_instance

instance steady_subscript (calls indexed : Bool) (e : Expr) :
    Steady (subscript g calls indexed e) := by
  unfold subscript
  repeat' first
    | infer_instance
    | with_reducible refine .bind ?_ fun _ => ?_
    | split
    | dsimp only

instance steady_subscripts (calls : Bool) (e : Expr) : Steady (subscripts g calls e) := by
  unfold subscripts
  infer_instance

instance steady_members (e : Expr) : Steady (members g e) := by
  unfold members
  infer_instance

instance steady_superExpr (calls : Bool) : Steady (superExpr g calls) := by
  unfold superExpr
  infer_instance

instance steady_importArguments : Steady (importArguments g) := by
  unfold importArguments
  infer_instance

instance steady_importExpr (calls : Bool) : Steady (importExpr g calls) := by
  unfold importExpr
  infer_instance

instance steady_newRest : Steady (newRest g) := by
  unfold newRest
  infer_instance

instance steady_construction : Steady (construction g) := by
  unfold construction
  repeat' first
    | infer_instance
    | with_reducible refine .bind ?_ fun _ => ?_
    | split
    | dsimp only

instance steady_leftSide : Steady (leftSide g) := by
  unfold leftSide
  infer_instance

instance steady_typeAssertion : Steady (typeAssertion g) := by
  unfold typeAssertion
  infer_instance

instance steady_unary : Steady (unary g) := by
  unfold unary
  infer_instance

instance steady_genericArrow : Steady (genericArrow g) := by
  unfold genericArrow
  repeat' first
    | infer_instance
    | with_reducible refine .bind ?_ fun _ => ?_
    | split

instance steady_yieldExpr : Steady (yieldExpr g) := by
  unfold yieldExpr
  infer_instance

instance steady_assignment : Steady (assignment g) := by
  unfold assignment
  repeat' first
    | infer_instance
    | with_reducible refine .bind ?_ fun _ => ?_
    | split
    | dsimp only

instance steady_expression : Steady (expression g) := by
  unfold expression
  refine .bind inferInstance fun _ => ?_
  split
  all_goals infer_instance

end

/-! ## Declarations -/

instance steady_startsVariables : Steady startsVariables := by
  unfold startsVariables
  infer_instance

instance steady_startsResource : Steady startsResource := by
  unfold startsResource
  infer_instance

section

variable {g : Grammar} [g.Steady]

instance steady_interfaceRest : Steady (interfaceRest g) := by
  unfold interfaceRest
  infer_instance

instance steady_aliasRest : Steady (aliasRest g) := by
  unfold aliasRest
  infer_instance

instance steady_enumName : Steady (enumName g) := by
  unfold enumName
  refine .bind inferInstance fun _ => ?_
  split
  all_goals infer_instance

instance steady_enumMember : Steady (enumMember g) := by
  unfold enumMember
  infer_instance

instance steady_enumRest : Steady (enumRest g) := by
  unfold enumRest
  infer_instance

instance steady_namespaceBody : Steady (namespaceBody g) := by
  unfold namespaceBody
  infer_instance

instance steady_namespaceRest : Steady (namespaceRest g) := by
  unfold namespaceRest
  infer_instance

instance steady_ambientModuleRest : Steady (ambientModuleRest g) := by
  unfold ambientModuleRest
  refine .bind inferInstance fun _ => ?_
  split
  all_goals infer_instance

instance steady_variableHere (kind : VariableKind) (inHead : Bool) :
    Steady (variableHere g kind inHead) := by
  unfold variableHere
  infer_instance

instance steady_declarators (kind : VariableKind) (inHead : Bool) :
    Steady (declarators g kind inHead) := by
  unfold declarators
  infer_instance

instance steady_resourceStatement : Steady (resourceStatement g) := by
  unfold resourceStatement
  infer_instance

instance steady_skipToStatementEnd : Steady (skipToStatementEnd g) := by
  unfold skipToStatementEnd
  infer_instance

instance steady_variableStatement (kind : VariableKind) : Steady (variableStatement g kind) := by
  unfold variableStatement
  infer_instance

instance steady_functionDecl : Steady (functionDecl g) := by
  unfold functionDecl
  infer_instance

instance steady_classDecl : Steady (classDecl g) := by
  unfold classDecl
  infer_instance

instance steady_declarationAfter (w : String) (certain : Bool) :
    Steady (declarationAfter g w certain) := by
  unfold declarationAfter
  repeat' first
    | infer_instance
    | with_reducible refine .bind ?_ fun _ => ?_
    | split

instance steady_wordDeclaration : Steady (wordDeclaration g) := by
  unfold wordDeclaration
  refine .bind inferInstance fun _ => ?_
  split
  all_goals infer_instance

instance steady_declared : Steady (declared g) := by
  unfold declared
  infer_instance

end

/-! ## Statements -/

instance steady_jumpRest : Steady jumpRest := by
  unfold jumpRest
  infer_instance

instance steady_startsAwaitedResource : Steady startsAwaitedResource := by
  unfold startsAwaitedResource
  infer_instance

section

variable {g : Grammar} [g.Steady]

instance steady_whole : Steady (whole g) := by
  unfold whole
  infer_instance

instance steady_condition : Steady (condition g) := by
  unfold condition
  infer_instance

instance steady_nested : Steady (nested g) := by
  unfold nested
  infer_instance

instance steady_ifRest : Steady (ifRest g) := by
  unfold ifRest
  infer_instance

instance steady_loopSteps (isAwait : Bool) (first : List Node) :
    Steady (loopSteps g isAwait first) := by
  unfold loopSteps
  infer_instance

instance steady_loopSource (isAwait : Bool) (first : List Node) :
    Steady (loopSource g isAwait first) := by
  unfold loopSource
  infer_instance

omit [g.Steady] in
instance steady_startsLoopSource : Steady (startsLoopSource g) := by
  unfold startsLoopSource
  infer_instance

instance steady_loopVariables (kind : VariableKind) : Steady (loopVariables g kind) := by
  unfold loopVariables
  refine .bind inferInstance fun _ => ?_
  split
  all_goals infer_instance

instance steady_loopHead (isAwait : Bool) : Steady (loopHead g isAwait) := by
  unfold loopHead
  repeat' first
    | infer_instance
    | with_reducible refine .bind ?_ fun _ => ?_
    | split

instance steady_forRest : Steady (forRest g) := by
  unfold forRest
  infer_instance

instance steady_doRest : Steady (doRest g) := by
  unfold doRest
  infer_instance

instance steady_switchCase : Steady (switchCase g) := by
  unfold switchCase
  infer_instance

instance steady_switchRest : Steady (switchRest g) := by
  unfold switchRest
  infer_instance

instance steady_returnRest : Steady (returnRest g) := by
  unfold returnRest
  infer_instance

instance steady_throwRest : Steady (throwRest g) := by
  unfold throwRest
  infer_instance

instance steady_catchClause : Steady (catchClause g) := by
  unfold catchClause
  infer_instance

instance steady_finallyClause : Steady (finallyClause g) := by
  unfold finallyClause
  infer_instance

instance steady_tryRest : Steady (tryRest g) := by
  unfold tryRest
  infer_instance

instance steady_strayHandler : Steady (strayHandler g) := by
  unfold strayHandler
  infer_instance

instance steady_expressionEnd (e : Expr) : Steady (expressionEnd g e) := by
  unfold expressionEnd
  infer_instance

instance steady_afterName (word : String) : Steady (afterName g word) := by
  unfold afterName
  repeat' first
    | infer_instance
    | with_reducible refine .bind ?_ fun _ => ?_
    | split

instance steady_expressionStatement : Steady (expressionStatement g) := by
  unfold expressionStatement
  repeat' first
    | infer_instance
    | with_reducible refine .bind ?_ fun _ => ?_
    | split

instance steady_importStatement : Steady (importStatement g) := by
  unfold importStatement
  infer_instance

instance steady_wordStatement (declares : Bool) (w : String) :
    Steady (wordStatement g declares w) := by
  unfold wordStatement
  repeat' first
    | infer_instance
    | with_reducible refine .bind ?_ fun _ => ?_
    | split

instance steady_statement (declares : Bool) : Steady (statement g declares) := by
  unfold statement
  refine @steady_withSettings _ _ _ (.bind inferInstance fun _ => ?_)
  split
  all_goals infer_instance

end

/-! ## Items -/

instance steady_sourceString : Steady sourceString := by
  unfold sourceString
  refine .bind inferInstance fun _ => ?_
  split
  all_goals infer_instance

instance steady_exportName : Steady exportName := by
  unfold exportName
  refine .bind inferInstance fun _ => ?_
  split
  all_goals infer_instance

instance steady_typeEntry {renamed : Read String} [Steady renamed] :
    Steady (typeEntry renamed) := by
  unfold typeEntry
  infer_instance

instance steady_isString : Steady isString := by
  unfold isString
  refine .bind inferInstance fun _ => ?_
  split
  all_goals infer_instance

instance steady_stringSpecifier (value : Option String) : Steady (stringSpecifier value) := by
  unfold stringSpecifier
  infer_instance

instance steady_importSpecifier : Steady importSpecifier := by
  unfold importSpecifier
  repeat' first
    | infer_instance
    | with_reducible refine .bind ?_ fun _ => ?_
    | split
    | dsimp only

instance steady_exportedAs (inner : Option String) : Steady (exportSpecifier.exportedAs inner) := by
  unfold exportSpecifier.exportedAs
  infer_instance

instance steady_exportSpecifier : Steady exportSpecifier := by
  unfold exportSpecifier
  repeat' first
    | infer_instance
    | with_reducible refine .bind ?_ fun _ => ?_
    | split
    | dsimp only

instance steady_importEquals : Steady importEquals := by
  unfold importEquals
  infer_instance

instance steady_importNames (phase : Phase) : Steady (importNames phase) := by
  unfold importNames
  infer_instance

instance steady_typeDefault : Steady typeDefault := by
  unfold typeDefault
  infer_instance

instance steady_sourceDefault : Steady sourceDefault := by
  unfold sourceDefault
  infer_instance

instance steady_importDefault : Steady importDefault := by
  unfold importDefault
  repeat' first
    | infer_instance
    | with_reducible refine .bind ?_ fun _ => ?_
    | split

section

variable {g : Grammar} [g.Steady]

instance steady_sourceAttributes : Steady (sourceAttributes g) := by
  unfold sourceAttributes
  infer_instance

instance steady_fromClause : Steady (fromClause g) := by
  unfold fromClause
  infer_instance

instance steady_importItem : Steady (importItem g) := by
  unfold importItem
  repeat' first
    | infer_instance
    | with_reducible refine .bind ?_ fun _ => ?_
    | split

instance steady_exportDefault : Steady (exportDefault g) := by
  unfold exportDefault
  infer_instance

instance steady_exportList : Steady (exportList g) := by
  unfold exportList
  infer_instance

instance steady_exportNames : Steady (exportNames g) := by
  unfold exportNames
  infer_instance

instance steady_exportDecl : Steady (exportDecl g) := by
  unfold exportDecl
  repeat' first
    | infer_instance
    | with_reducible refine .bind ?_ fun _ => ?_
    | split

instance steady_exportRest : Steady (exportRest g) := by
  unfold exportRest
  repeat' first
    | infer_instance
    | with_reducible refine .bind ?_ fun _ => ?_
    | split

instance steady_exportItem : Steady (exportItem g) := by
  unfold exportItem
  repeat' first
    | infer_instance
    | with_reducible refine .bind ?_ fun _ => ?_
    | split
    | dsimp only

instance steady_item : Steady (item g) := by
  unfold item
  infer_instance

end

end Read

/-! ## Sources -/

/-- However deeply the readers nest, they are steady. -/
instance steady_grammar (n : Nat) : (grammar n).Steady := by
  induction n with
  | zero =>
    exact ⟨Read.steady_fail, Read.steady_fail, Read.steady_fail, Read.steady_fail,
      Read.steady_fail, Read.steady_fail, fun _ => Read.steady_fail, Read.steady_fail,
      Read.steady_fail, Read.steady_fail, fun _ => Read.steady_fail, Read.steady_fail,
      Read.steady_fail, fun _ => Read.steady_fail, Read.steady_fail⟩
  | succ n ih =>
    exact
      { type := Read.steady_type
        plainType := Read.steady_plainType
        typeOperand := Read.steady_operandType
        binding := Read.steady_binding
        expression := Read.steady_expression
        assignment := Read.steady_assignment
        binary := Read.steady_binary
        unary := Read.steady_unary
        construction := Read.steady_construction
        leftSide := Read.steady_leftSide
        members := Read.steady_members
        object := Read.steady_objectLiteral
        element := Read.steady_openElement
        statement := Read.steady_statement
        item := Read.steady_item }

instance Read.steady_items {g : Grammar} [g.Steady] : Steady (items g) := by
  unfold items
  infer_instance

/-- The comments of a source are those that were passed when it had been read. -/
theorem passed_of_parse {kind : SourceKind} {text : String} {s : Source}
    (h : parse kind text = some s) : ∃ stop, Passed s.comments.reverse stop := by
  unfold parse at h
  extract_lets chars size first at h
  have hsteady := (Read.steady_items (g := grammar (32 * (size + 2)))).tidy (kind.settings size)
    ⟨first, first.span.lo, []⟩ (tidy_firstToken chars first.span.lo)
  split at h
  next items last heq =>
    rw [heq] at hsteady
    cases h
    rw [List.reverse_reverse]
    exact ⟨_, hsteady.passed⟩
  next => cases h

end ElementManifest.TypeScript

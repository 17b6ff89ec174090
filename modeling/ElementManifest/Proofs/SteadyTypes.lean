import ElementManifest.Proofs.CommentOrder
import ElementManifest.TypeScript.Source

/-!
# Steady readers of types, patterns and members

A reader takes tokens, and calls the readers of a grammar for what is nested in it. So it is
steady if those of the grammar are. There is one instance for each reader, which is put together
from those of its steps. Where a reader goes by what it has read, its steps are taken one by one
down to the branches. Only a few readers stand at a token that they have made themselves; for these
it is the token that keeps the cursor tidy.
-/

namespace ElementManifest.TypeScript

-- a reader is one chain of steps, for which one instance is put together
set_option synthInstance.maxSize 4000

/-- A grammar of steady readers. -/
class Grammar.Steady (g : Grammar) : Prop where
  type : Read.Steady g.type
  plainType : Read.Steady g.plainType
  typeOperand : Read.Steady g.typeOperand
  binding : Read.Steady g.binding
  expression : Read.Steady g.expression
  assignment : Read.Steady g.assignment
  binary : ∀ level, Read.Steady (g.binary level)
  unary : Read.Steady g.unary
  construction : Read.Steady g.construction
  leftSide : Read.Steady g.leftSide
  members : ∀ e, Read.Steady (g.members e)
  object : Read.Steady g.object
  element : Read.Steady g.element
  statement : ∀ declares, Read.Steady (g.statement declares)
  item : Read.Steady g.item

attribute [instance] Grammar.Steady.type Grammar.Steady.plainType Grammar.Steady.typeOperand
  Grammar.Steady.binding Grammar.Steady.expression Grammar.Steady.assignment Grammar.Steady.binary
  Grammar.Steady.unary Grammar.Steady.construction Grammar.Steady.leftSide Grammar.Steady.members
  Grammar.Steady.object Grammar.Steady.element Grammar.Steady.statement Grammar.Steady.item

namespace Read

variable {α : Type}

/-! ## Tokens -/

instance steady_isWord (w : String) : Steady (isWord w) := by
  unfold isWord
  infer_instance

instance steady_isName : Steady isName := by
  unfold isName
  infer_instance

instance steady_newline : Steady newline := by
  unfold newline
  infer_instance

instance steady_eat (m : String) : Steady (eat m) := by
  unfold eat
  infer_instance

instance steady_eatWord (w : String) : Steady (eatWord w) := by
  unfold eatWord
  infer_instance

instance steady_expect (m : String) : Steady (expect m) := by
  unfold expect
  infer_instance

instance steady_expectWord (w : String) : Steady (expectWord w) := by
  unfold expectWord
  infer_instance

instance steady_anyWord : Steady anyWord := by
  unfold anyWord
  refine .bind inferInstance fun _ => ?_
  split
  all_goals infer_instance

instance steady_name : Steady name := by
  unfold name
  infer_instance

instance steady_boundName : Steady boundName := by
  unfold boundName
  infer_instance

instance steady_closeAngle : Steady closeAngle := by
  unfold closeAngle
  infer_instance

instance steady_openAngle : Steady openAngle := by
  refine steady_token_bind fun t => ?_
  dsimp only
  split
  next => exact steadyAt_replace (t.replaces_rescan _) (steady_expect "<")
  next => exact (steady_expect "<").at t

instance steady_opensAngle : Steady opensAngle := by
  unfold opensAngle
  infer_instance

instance steady_atStatementEnd : Steady atStatementEnd := by
  unfold atStatementEnd
  infer_instance

instance steady_eatStatementEnd : Steady eatStatementEnd := by
  unfold eatStatementEnd
  infer_instance

instance steady_statementEnd : Steady statementEnd := by
  unfold statementEnd
  infer_instance

instance steady_listUntil (close : String) {item : Read α} [Steady item] :
    Steady (listUntil close item) := by
  unfold listUntil
  infer_instance

instance steady_separated (between : String) {item : Read α} [Steady item] :
    Steady (separated between item) := by
  unfold separated
  infer_instance

/-! ## Places -/

instance steady_inType {p : Read α} [Steady p] : Steady (inType p) := by
  unfold inType
  infer_instance

instance steady_enclosed {p : Read α} [Steady p] : Steady (enclosed p) := by
  unfold enclosed
  infer_instance

/-! ## Property keys -/

instance steady_privateName : Steady privateName := by
  unfold privateName
  infer_instance

instance steady_bracketed {e : Read Expr} [Steady e] : Steady (bracketed e) := by
  unfold bracketed
  infer_instance

instance steady_keyWith {e : Read Expr} [Steady e] : Steady (keyWith e) := by
  unfold keyWith
  refine .bind inferInstance fun _ => ?_
  split
  all_goals infer_instance

section

variable {g : Grammar} [g.Steady]

instance steady_key : Steady (key g) := by
  unfold key
  infer_instance

instance steady_signatureKey : Steady (signatureKey g) := by
  unfold signatureKey
  refine .bind inferInstance fun _ => ?_
  split
  all_goals infer_instance

end

/-! ## Types -/

instance steady_modifier (ws : List String) : Steady (modifier ws) := by
  unfold modifier
  refine .bind inferInstance fun _ => ?_
  split
  all_goals infer_instance

instance steady_parameterModifier : Steady parameterModifier := by
  unfold parameterModifier
  infer_instance

instance steady_memberEnd : Steady memberEnd := by
  unfold memberEnd
  infer_instance

instance steady_startsIndexSignature : Steady startsIndexSignature := by
  unfold startsIndexSignature
  infer_instance

instance steady_entityNameWith {part : Read String} [Steady part] :
    Steady (entityNameWith part) := by
  unfold entityNameWith
  infer_instance

instance steady_entityName : Steady entityName := by
  unfold entityName
  infer_instance

instance steady_moduleName : Steady moduleName := by
  unfold moduleName
  infer_instance

instance steady_growUpToEnd {hole : Read α} [Steady hole] {pieceHere : Read Piece}
    [Steady pieceHere] : Steady (templateParts.growUpToEnd hole pieceHere) := by
  unfold templateParts.growUpToEnd
  infer_instance

instance steady_templateParts {hole : Read α} [Steady hole] : Steady (templateParts hole) := by
  unfold templateParts
  extract_lets pieceHere
  have hpiece : Steady pieceHere := by
    refine steady_token_bind fun t => ?_
    split
    next piece _ =>
      have hstop : t.span.hi ≤ t.span.hi + byteCount (t.rest.take piece.count) :=
        Nat.le_add_right _ _
      dsimp only
      split
      next =>
        -- the backtick that ends the text becomes the next token
        exact steadyAt_replace ⟨rfl, rfl, fun h => Nat.le_trans h hstop⟩ inferInstance
      next => exact steadyAt_settings_bind fun s => steadyAt_scan s.inType hstop _
    next => exact steady_fail.at t
  clear_value pieceHere
  infer_instance

instance steady_importSource : Steady importSource := by
  unfold importSource
  infer_instance

instance steady_startsMappedType : Steady startsMappedType := by
  unfold startsMappedType
  infer_instance

instance steady_tupleLabel : Steady tupleLabel := by
  unfold tupleLabel
  infer_instance

instance steady_joinedTypes (op : String) (make : Span → List TypeNode → TypeNode)
    {p : Read TypeNode} [Steady p] :
    Steady (joinedTypes op make p) := by
  unfold joinedTypes
  repeat' first
    | infer_instance
    | with_reducible refine .bind ?_ fun _ => ?_
    | split

section

variable {g : Grammar} [g.Steady]

instance steady_typeArgs : Steady (typeArgs g) := by
  unfold typeArgs
  infer_instance

instance steady_optionalTypeArgs : Steady (optionalTypeArgs g) := by
  unfold optionalTypeArgs
  infer_instance

instance steady_typeParam : Steady (typeParam g) := by
  unfold typeParam
  infer_instance

instance steady_typeParams : Steady (typeParams g) := by
  unfold typeParams
  infer_instance

instance steady_optionalTypeParams : Steady (optionalTypeParams g) := by
  unfold optionalTypeParams
  infer_instance

instance steady_annotation : Steady ( annotation g) := by
  unfold annotation
  infer_instance

instance steady_annotationParts : Steady (annotationParts g) := by
  unfold annotationParts
  infer_instance

instance steady_returnType (m : String) : Steady (returnType g m) := by
  unfold returnType
  infer_instance

instance steady_optionalReturnType : Steady (optionalReturnType g) := by
  unfold optionalReturnType
  infer_instance

instance steady_defaultValue : Steady (defaultValue g) := by
  unfold defaultValue
  infer_instance

instance steady_singleParameter : Steady (singleParameter g) := by
  unfold singleParameter
  infer_instance

instance steady_parameter : Steady (parameter g) := by
  unfold parameter
  infer_instance

instance steady_signatureParams : Steady (signatureParams g) := by
  unfold signatureParams
  infer_instance

instance steady_callSignature (parts : List Node → List Node → List Node → List Node) :
    Steady (callSignature g parts) := by
  unfold callSignature
  infer_instance

instance steady_indexSignature : Steady (indexSignature g) := by
  unfold indexSignature
  infer_instance

instance steady_accessorSignature : Steady (accessorSignature g) := by
  unfold accessorSignature
  infer_instance

instance steady_namedSignature (lo : Nat) (readonly : Bool) :
    Steady (namedSignature g lo readonly) := by
  unfold namedSignature
  infer_instance

instance steady_typeMember : Steady (typeMember g) := by
  unfold typeMember
  repeat' first
    | infer_instance
    | with_reducible refine .bind ?_ fun _ => ?_
    | split
    | dsimp only

instance steady_typeMembers : Steady (typeMembers g) := by
  unfold typeMembers
  infer_instance

instance steady_typeReference : Steady (typeReference g) := by
  unfold typeReference
  infer_instance

instance steady_templateType : Steady (templateType g) := by
  unfold templateType
  infer_instance

instance steady_importOptions : Steady (importOptions g) := by
  unfold importOptions
  infer_instance

instance steady_importType : Steady (importType g) := by
  unfold importType
  infer_instance

instance steady_typeQuery : Steady (typeQuery g) := by
  unfold typeQuery
  infer_instance

instance steady_mappedType : Steady (mappedType g) := by
  unfold mappedType
  repeat' first
    | infer_instance
    | with_reducible refine .bind ?_ fun _ => ?_
    | split

instance steady_tupleElem : Steady (tupleElem g) := by
  unfold tupleElem
  infer_instance

instance steady_thisPredicate : Steady (thisPredicate g) := by
  unfold thisPredicate
  infer_instance

instance steady_simpleType : Steady (simpleType g) := by
  unfold simpleType
  repeat' first
    | infer_instance
    | with_reducible refine .bind ?_ fun _ => ?_
    | split

instance steady_postfixType : Steady (postfixType g) := by
  unfold postfixType
  infer_instance

instance steady_inferBound : Steady (inferBound g) := by
  unfold inferBound
  infer_instance

instance steady_operandType : Steady (operandType g) := by
  unfold operandType
  repeat' first
    | infer_instance
    | with_reducible refine .bind ?_ fun _ => ?_
    | split

instance steady_unionType : Steady (unionType g) := by
  unfold unionType
  infer_instance

omit [g.Steady] in
instance steady_startsParams : Steady (startsParams g) := by
  unfold startsParams
  infer_instance

instance steady_functionType : Steady (functionType g) := by
  unfold functionType
  infer_instance

instance steady_plainType : Steady (plainType g) := by
  unfold plainType
  infer_instance

instance steady_type : Steady (type g) := by
  unfold type
  infer_instance

end

/-! ## Patterns -/

section

variable {g : Grammar} [g.Steady]

instance steady_objectKey : Steady (objectKey g) := by
  unfold objectKey
  infer_instance

instance steady_bindingElement : Steady (bindingElement g) := by
  unfold bindingElement
  infer_instance

instance steady_arrayPattern : Steady (arrayPattern g) := by
  unfold arrayPattern
  infer_instance

instance steady_patternProperty : Steady (patternProperty g) := by
  unfold patternProperty
  infer_instance

instance steady_objectPattern : Steady (objectPattern g) := by
  unfold objectPattern
  infer_instance

instance steady_binding : Steady (binding g) := by
  unfold binding
  infer_instance

end

/-! ## Functions -/

instance steady_startsAsyncFunction : Steady startsAsyncFunction := by
  unfold startsAsyncFunction
  infer_instance

section

variable {g : Grammar} [g.Steady]

instance steady_block : Steady (block g) := by
  unfold block
  infer_instance

instance steady_functionBody (kind : FunctionKind) : Steady (functionBody g kind) := by
  unfold functionBody
  infer_instance

instance steady_paramList : Steady (paramList g) := by
  unfold paramList
  infer_instance

instance steady_params : Steady (params g) := by
  unfold params
  infer_instance

instance steady_functionRest (kind : FunctionKind) {params : Read (List Node)}
    [Steady params] :
    Steady (functionRest g kind params) := by
  unfold functionRest
  infer_instance

instance steady_function (named isAsync : Bool) : Steady (function g named isAsync) := by
  unfold function
  infer_instance

instance steady_asyncFunction (named : Bool) : Steady (asyncFunction g named) := by
  unfold asyncFunction
  infer_instance

end

/-! ## Classes -/

instance steady_startsMethod : Steady startsMethod := by
  unfold startsMethod
  infer_instance

instance steady_continuesProperty (lines : Bool) : Steady (continuesProperty lines) := by
  unfold continuesProperty
  infer_instance

section

variable {g : Grammar} [g.Steady]

instance steady_parentOf (base : Expr) : Steady (parentOf g base) := by
  unfold parentOf
  repeat' first
    | infer_instance
    | with_reducible refine .bind ?_ fun _ => ?_
    | split

instance steady_superclass : Steady (superclass g) := by
  unfold superclass
  infer_instance

instance steady_heritage : Steady (heritage g) := by
  unfold heritage
  infer_instance

instance steady_heritages : Steady (heritages g) := by
  unfold heritages
  infer_instance

instance steady_methodRest (key : Key) (kind : FunctionKind) : Steady (methodRest g key kind) := by
  unfold methodRest
  infer_instance

instance steady_propertyRest (key : Key) (optional : Bool) :
    Steady (propertyRest g key optional) := by
  unfold propertyRest
  infer_instance

instance steady_constructorParam : Steady (constructorParam g) := by
  unfold constructorParam
  infer_instance

instance steady_constructorRest (key : Key) : Steady (constructorRest g key) := by
  unfold constructorRest
  infer_instance

instance steady_wordMember (w : String) (lines : Bool) : Steady (wordMember g w lines) := by
  unfold wordMember
  infer_instance

instance steady_markedMember (w : String) : Steady (markedMember g w) := by
  unfold markedMember
  infer_instance

instance steady_plainMember (marks : MemberMarks) : Steady (plainMember g marks) := by
  unfold plainMember
  repeat' first
    | infer_instance
    | with_reducible refine .bind ?_ fun _ => ?_
    | split

instance steady_staticBlock : Steady (staticBlock g) := by
  unfold staticBlock
  infer_instance

instance steady_nameOrModifier (w : String) (lines : Bool) : Steady (nameOrModifier g w lines) := by
  unfold nameOrModifier
  repeat' first
    | infer_instance
    | with_reducible refine .bind ?_ fun _ => ?_
    | split

instance steady_memberRest (isStatic restricted hasAccessor : Bool) :
    Steady (memberRest g isStatic restricted hasAccessor) := by
  unfold memberRest
  infer_instance

omit [g.Steady] in
/-- A step that may have read a whole member, for which its word was the name. -/
theorem steady_bind_named {step : Read (Bool × Option (List Node))}
    {rest : Bool × Option (List Node) → Read (List Node)} (hstep : Steady step)
    (hwhole : ∀ marked parts, Steady (rest (marked, some parts)))
    (hrest : ∀ marked, Steady (rest (marked, none))) : Steady (step >>= rest) := by
  refine hstep.bind fun ⟨marked, whole⟩ => ?_
  cases whole with
  | some parts => exact hwhole marked parts
  | none => exact hrest marked

instance steady_classMember : Steady (classMember g) := by
  unfold classMember
  refine (steady_eat ";").bind fun _ => ?_
  split
  next => exact steady_pure []
  next =>
    repeat' first
      | infer_instance
      | refine steady_bind_named ?_ (fun _ parts => steady_pure parts) fun _ => ?_
      | with_reducible refine .bind ?_ fun _ => ?_
      | split
      | dsimp only

instance steady_classRest : Steady (classRest g) := by
  unfold classRest
  repeat' first
    | infer_instance
    | with_reducible refine .bind ?_ fun _ => ?_
    | split

instance steady_classWhole (named : Bool) : Steady (classWhole g named) := by
  unfold classWhole
  infer_instance

end

end Read

end ElementManifest.TypeScript

import ElementManifest.Proofs.SpelledScans

/-!
# Functions that are kept as they are written

A function type is kept as it is written, so its text has to be read in any place as what it is.
That is so for functions of one parameter or none, with any types for the parameter and for what
is answered:

> `functionText_of_param`: the text of such a function is read as a function type.
-/

namespace ElementManifest.TypeScript

open ElementManifest.Text ElementManifest.Inference

/-- A word that can name a parameter. -/
def isParamName (w : List Char) : Bool :=
  Read.isPlainWord w && !isKept (String.ofList w) && Read.isBindable false (String.ofList w)

/-- The text of at most one parameter, with its type. -/
inductive ParamText : List Char → Prop
  | none : ParamText []
  | named {w x : List Char} {a : TypeForm} (hw : isParamName w = true) (h : Spelled x a) :
    ParamText (w ++ ':' :: ' ' :: x)

/-- The text of a function type. -/
def functionText (param answer : List Char) : List Char :=
  '(' :: (param ++ ')' :: ' ' :: '=' :: '>' :: ' ' :: answer)

namespace Read

/-! ## The type of a parameter -/

section

variable {whole x y : List Char} {a : TypeForm} {l : Lexeme} {s : Settings} {c : Cursor} {n : Nat}

theorem isPlainWord_of_isParamName {w : List Char} (hw : isParamName w = true) :
    isPlainWord w = true := by
  simp only [isParamName, Bool.and_eq_true] at hw
  exact hw.1.1

theorem nextIs_param {w : List Char} (hw : isParamName w = true)
    (hc : Stands whole s c (w ++ ':' :: ' ' :: y)) :
    NextIs whole s c (.word (String.ofList w) false) w (':' :: ' ' :: y) := by
  have hplain := isPlainWord_of_isParamName hw
  have hends : EndsWord (':' :: ' ' :: y) := by
    intro d hd
    cases hd
    exact ⟨by decide, by decide⟩
  simp only [isPlainWord, Bool.and_eq_true] at hplain
  exact hc.word hplain.1.1 hends

theorem nextIs_colon (hc : Stands whole s c (':' :: ' ' :: y)) :
    NextIs whole s c (.mark ":") [':'] (' ' :: y) :=
  Stands.mark (m := []) hc rfl rfl (by decide) rfl

/-- A type in brackets is read in front of what follows a type. -/
theorem takes_enclosed_of_spelled (h : Spelled x a) (hn : 2 * x.length + 2 ≤ n) (hy : Follows y l)
    (hl : l ∈ typeEnds) (hc : Stands whole s c (x ++ y)) :
    Takes whole (enclosed (grammar n).type) s c a.normal y := by
  obtain ⟨n, rfl⟩ : ∃ k, n = k + 2 := ⟨n - 2, by omega⟩
  have hplain := h.reads whole (inBrackets s) c y l n hy hl (stands_inBrackets hc) (by omega)
  exact takes_enclosed hy hc hplain

theorem map_of_ok {α β : Type} {p : Read α} {b : α} {c' : Cursor} (h : p s c = .ok b c')
    (f : α → β) : (f <$> p) s c = .ok (f b) c' :=
  bind_of_ok h fun b => pure (f b)

/-- What is read behind a colon. -/
def behindColon (g : Grammar) : Read (Option TypeNode) := do
  if ← eat ":" then some <$> g.type else return none

theorem annotation_eq (g : Grammar) : annotation g = enclosed (behindColon g) := rfl

/-- The annotation of a type is taken as a whole. -/
theorem annotationParts_of_spelled (h : Spelled x a) (hn : 2 * x.length + 2 ≤ n) (hy : Follows y l)
    (hl : l ∈ typeEnds) (hc : Stands whole s c (':' :: ' ' :: (x ++ y))) :
    ∃ parts c', annotationParts (grammar n) s c = .ok parts c' ∧ Rests whole s c' y := by
  have hcolon := nextIs_colon (stands_inBrackets hc)
  obtain ⟨t, c', hread, _, hc'⟩ := takes_enclosed_of_spelled h hn hy hl hcolon.next.of_space
  have hannotation : annotation (grammar n) s c = .ok (some t) c' := by
    rw [annotation_eq, enclosed_eq]
    unfold behindColon
    rw [bind_of_ok (eat_of_mark hcolon.lexeme), if_pos rfl]
    exact map_of_ok hread some
  refine ⟨[.type t], c', ?_, rests_of_inBrackets hc' hc.inType⟩
  unfold annotationParts
  rw [bind_of_ok hannotation]
  rfl

theorem defaultValue_of_ne (g : Grammar) (h : c.token.lexeme ≠ .mark "=") :
    defaultValue g s c = .ok [] c := by
  unfold defaultValue
  rw [bind_of_ok (eat_of_ne h), if_neg Bool.false_ne_true]
  rfl

/-- A parameter is bound to its name. -/
theorem binding_of_name (g : Grammar) {w : List Char}
    (hword : NextIs whole s c (.word (String.ofList w) false) w y) (hw : isParamName w = true) :
    binding g s c = .ok [] (Cursor.advance s c) := by
  have hbindable : ∀ ambient, isBindable ambient (String.ofList w) = true := by
    simp only [isParamName, Bool.and_eq_true] at hw
    intro ambient
    have h := hw.2
    unfold isBindable at h ⊢
    split at h
    next => cases h
    next hne => rwa [if_neg hne]
  have hsuch : c.token.isWordSuch (isBindable s.ambient) = true := by
    rw [Token.isWordSuch_of_word hword.lexeme]
    exact hbindable s.ambient
  have hmark (m : String) : c.token.lexeme ≠ .mark m := by
    rw [hword.lexeme]
    nofun
  have hbound : boundName s c = .ok (String.ofList w) (Cursor.advance s c) := by
    unfold boundName
    rw [bind_of_ok settings_eq, bind_of_ok token_eq, hsuch]
    exact anyWord_of_word hword.lexeme
  unfold binding
  rw [bind_of_ok settings_eq, bind_of_ok (eat_of_ne (hmark "[")), if_neg Bool.false_ne_true,
    bind_of_ok (eat_of_ne (hmark "\x7b")), if_neg Bool.false_ne_true, bind_of_ok hbound]
  rfl

/-- How a parameter goes on behind its name. -/
def behindName (g : Grammar) (name default : List Node) : Read (List Node × Bool) := do
  let type ← annotationParts g
  let name := if default.isEmpty then name ++ type else name ++ default
  let late ← defaultValue g
  return (name ++ late, !default.isEmpty || !late.isEmpty)

theorem behindName_of_spelled (h : Spelled x a) (hn : 2 * x.length + 2 ≤ n) (hy : Follows y l)
    (hl : l ∈ typeEnds) (hc : Stands whole s c (':' :: ' ' :: (x ++ y))) :
    ∃ parts c', behindName (grammar n) [] [] s c = .ok (parts, false) c' ∧
      Rests whole s c' y := by
  obtain ⟨parts, c', hread, hc'⟩ := annotationParts_of_spelled h hn hy hl hc
  refine ⟨parts ++ [], c', ?_, hc'⟩
  unfold behindName
  rw [bind_of_ok hread]
  have hdefault := defaultValue_of_ne (s := s) (grammar n)
    (ne_mark_of_follows hy hc'.toStands (by decide))
  rw [bind_of_ok hdefault]
  rfl

theorem singleParameter_eq (g : Grammar) :
    singleParameter g = (do
      let name ← g.binding
      let default ← defaultValue g
      if ← eat "?" then
        let s ← settings
        guard (default.isEmpty || s.declarations || s.ambient)
      behindName g name default) := rfl

/-- A parameter with its type is read as one without a default value. -/
theorem parameter_of_spelled {w : List Char} (hw : isParamName w = true) (h : Spelled x a)
    (hn : 2 * x.length + 3 ≤ n) (hy : Follows y l) (hl : l ∈ typeEnds)
    (hc : Stands whole s c (w ++ ':' :: ' ' :: (x ++ y))) :
    ∃ parts c', parameter (grammar n) s c = .ok (parts, false) c' ∧ Rests whole s c' y := by
  obtain ⟨n, rfl⟩ : ∃ k, n = k + 1 := ⟨n - 1, by omega⟩
  have hword := nextIs_param hw hc
  have hcolon := nextIs_colon hword.next.toStands
  have hmark (m : String) (hm : ":" ≠ m) : (Cursor.advance s c).token.lexeme ≠ .mark m := by
    rw [hcolon.lexeme]
    intro heq
    injection heq with heq
    exact hm heq
  have hdots : c.token.lexeme ≠ .mark "..." := by
    rw [hword.lexeme]
    nofun
  have hbinding : (grammar (n + 1)).binding s c = .ok [] (Cursor.advance s c) :=
    binding_of_name (grammar n) hword hw
  obtain ⟨parts, c', hread, hc'⟩ :=
    behindName_of_spelled (n := n + 1) h (by omega) hy hl hword.next.toStands
  refine ⟨parts, c', ?_, hc'⟩
  unfold parameter
  rw [bind_of_ok (eat_of_ne hdots), if_neg Bool.false_ne_true,
    bind_of_ok (parameterModifier_of_word hword.lexeme
      (not_modifier_of_isPlainWord (isPlainWord_of_isParamName hw))),
    singleParameter_eq, bind_of_ok hbinding,
    bind_of_ok (defaultValue_of_ne _ (hmark "=" (by decide))),
    bind_of_ok (eat_of_ne (hmark "?" (by decide))), if_neg Bool.false_ne_true]
  exact hread

/-- One more item of a list up to a mark. -/
def moreItems {α : Type} (close : String) (item : Read α) : Read (Option α) := do
  if ← isMark close then return none
  let a ← item
  if ← isMark close then return some a
  expect ","
  return some a

theorem listUntil_eq {α : Type} (close : String) (item : Read α) :
    listUntil close item = (do
      let items ← many (moreItems close item)
      expect close
      return items) := rfl

theorem moreItems_of_close {α : Type} {close : String} (item : Read α)
    (h : c.token.lexeme = .mark close) : moreItems close item s c = .ok none c := by
  unfold moreItems
  rw [bind_of_ok (isMark_eq close), decide_eq_true h, if_pos rfl]
  rfl

theorem moreItems_of_last {α : Type} {close : String} {item : Read α} {b : α} {c' : Cursor}
    (hopen : c.token.lexeme ≠ .mark close) (h : item s c = .ok b c')
    (hclose : c'.token.lexeme = .mark close) : moreItems close item s c = .ok (some b) c' := by
  unfold moreItems
  rw [bind_of_ok (isMark_eq close), decide_eq_false hopen, if_neg Bool.false_ne_true,
    bind_of_ok h, bind_of_ok (isMark_eq close), decide_eq_true hclose, if_pos rfl]
  rfl

/-- The parameters of a function are read up to the parenthesis that closes them. -/
theorem signatureParams_of_paramText {param : List Char} (h : ParamText param)
    (hn : 2 * param.length ≤ n)
    (hc : Stands whole s c (param ++ ')' :: y)) :
    ∃ parts c', signatureParams (grammar n) s c = .ok parts c' ∧ Rests whole s c' y := by
  -- there are no parameters or one, and then the list is closed
  obtain ⟨params, c', hmany, hall, hclose⟩ : ∃ params c',
      many (moreItems ")" (enclosed (parameter (grammar n)))) s c = .ok params c' ∧
        params.all (fun p => !p.2) = true ∧ NextIs whole s c' (.mark ")") [')'] y := by
    cases h with
    | none =>
      have hclose : NextIs whole s c (.mark ")") [')'] y := hc.bracket (by decide)
      exact ⟨[], c, upTo_of_none (moreItems_of_close _ hclose.lexeme) _, rfl, hclose⟩
    | @named w x a hw hx =>
      simp only [List.length_append, List.length_cons] at hn
      rw [List.append_assoc] at hc
      have hopen : c.token.lexeme ≠ .mark ")" := by
        rw [(nextIs_param hw hc).lexeme]
        nofun
      obtain ⟨parts, c', hread, hc'⟩ := parameter_of_spelled (n := n) hw hx (by omega)
        (.close y) (by decide) (stands_inBrackets hc)
      have hclose : NextIs whole s c' (.mark ")") [')'] y :=
        (rests_of_inBrackets hc' hc.inType).bracket (by decide)
      exact ⟨[(parts, false)], c', upTo_of_some (moreItems_of_last hopen hread hclose.lexeme)
        (upTo_of_none (moreItems_of_close _ hclose.lexeme) _), rfl, hclose⟩
  refine ⟨params.flatMap Prod.fst, Cursor.advance s c', ?_, hclose.next⟩
  have hlist : listUntil ")" (enclosed (parameter (grammar n))) s c =
      .ok params (Cursor.advance s c') := by
    rw [listUntil_eq, bind_of_ok hmany, bind_of_ok (expect_of_mark hclose.lexeme)]
    rfl
  unfold signatureParams
  rw [bind_of_ok hlist, hall]
  rfl

/-! ## What a function answers -/

/-- An answer behind the word that may make it a statement about a parameter. -/
def behindAsserts (g : Grammar) (asserts : Bool) : Read (List Node) := do
  let next ← second
  let tells := (← isName) && next.isWord "is" && !next.newlineBefore
  if asserts || tells then
    let _ ← anyWord
    if tells then
      expectWord "is"
      return [.type (← g.type)]
    else return []
  else return [.type (← g.type)]

/-- What is read behind the arrow of a function. -/
def behindArrow (g : Grammar) : Read (List Node) := do
  let asserts := (← isWord "asserts") && (← second).isName
  if asserts then
    let _ ← take
  behindAsserts g asserts

theorem returnType_eq (g : Grammar) (m : String) :
    returnType g m = enclosed (do
      expect m
      behindArrow g) := rfl

/-- A type that is answered starts with no operator. -/
def IsAnswer (x : List Char) (a : TypeForm) : Prop :=
  Spelled x a ∧ a.rank ≤ 3 ∧ ∀ (op : TypeOperator) z, x ≠ op.text.toList ++ ' ' :: z

/-- An answer does not state something about a parameter. -/
theorem tellsNothing_of_isAnswer (h : IsAnswer x a) (hy : Follows y l)
    (hc : Stands whole s c (x ++ y)) :
    (c.token.isWord "asserts" && (Cursor.advance s c).token.isName) = false ∧
      (c.token.isName && (Cursor.advance s c).token.isWord "is" &&
        !(Cursor.advance s c).token.newlineBefore) = false := by
  obtain ⟨hx, hrank, hop⟩ := h
  obtain ⟨hd, z, hhead, rfl, hz⟩ := hx.exists_head hrank
  obtain ⟨l', hz'⟩ := hz.follows hy
  rw [List.append_assoc] at hc
  cases hhead with
  | name hw hws =>
    have hword := nextIs_name hw hz' hc
    have hname : (Cursor.advance s c).token.isName = false := by
      unfold Token.isName Token.isWordSuch
      split
      next heq => exact absurd heq (ne_word_dotted hws hz' hword.next.toStands _ _)
      next => rfl
    rw [hname, isWord_dotted hws hz' hword.next.toStands]
    exact ⟨Bool.and_false _, by rw [Bool.and_false, Bool.false_and]⟩
  | @operator x' _ op => exact absurd (List.append_assoc _ _ _) (hop op (x' ++ z))
  | paren =>
    have hopen := (nextIs_paren hc).lexeme
    rw [Token.isWord_of_mark hopen, Token.isName_of_mark hopen]
    exact ⟨rfl, rfl⟩

theorem behindArrow_of_isAnswer (h : IsAnswer x a) (hn : 2 * x.length + 2 ≤ n) (hy : Follows y l)
    (hl : l ∈ typeEnds) (hc : Stands whole (inBrackets s) c (x ++ y)) :
    ∃ parts c', behindArrow (grammar n) (inBrackets s) c = .ok parts c' ∧
      Rests whole (inBrackets s) c' y := by
  obtain ⟨hasserts, htells⟩ := tellsNothing_of_isAnswer h hy hc
  obtain ⟨t, c', hread, _, hc'⟩ := takes_enclosed_of_spelled h.1 hn hy hl hc
  have htype : (grammar n).type (inBrackets s) c = .ok t c' := hread
  refine ⟨[.type t], c', ?_, hc'⟩
  have hanswer : behindAsserts (grammar n) false (inBrackets s) c = .ok [.type t] c' := by
    unfold behindAsserts
    rw [bind_of_ok second_eq, bind_of_ok isName_eq, htells, Bool.or_false,
      if_neg Bool.false_ne_true, bind_of_ok htype]
    rfl
  unfold behindArrow
  rw [bind_of_ok (isWord_eq _), bind_of_ok second_eq, hasserts, if_neg Bool.false_ne_true]
  exact hanswer

/-! ## Functions -/

/-- A function is read up to the end of its answer. -/
theorem functionType_of_param {param : List Char} (hparam : ParamText param) (h : IsAnswer x a)
    (hn : 2 * (functionText param x).length ≤ n) (hy : Follows y l) (hl : l ∈ typeEnds)
    (hc : Stands whole s c (functionText param x ++ y)) :
    ∃ parts c', functionType (grammar n) s c = .ok parts c' ∧ Rests whole s c' y := by
  have hlength : (functionText param x).length = param.length + x.length + 6 := by
    simp only [functionText, List.length_cons, List.length_append]
    omega
  have htext : functionText param x ++ y =
      '(' :: (param ++ ')' :: (' ' :: '=' :: '>' :: ' ' :: (x ++ y))) := by
    simp [functionText]
  rw [htext] at hc
  have hopen : NextIs whole s c (.mark "(") ['('] _ := hc.bracket (by decide)
  obtain ⟨params, c₁, hparams, hc₁⟩ := signatureParams_of_paramText (n := n) hparam (by omega)
    hopen.next.toStands
  -- behind the parameters comes the arrow, and behind the arrow the answer
  have harrow : NextIs whole (inBrackets s) c₁ (.mark "=>") ['=', '>'] (' ' :: (x ++ y)) :=
    Stands.mark (m := ['>']) (stands_inBrackets hc₁.of_space) rfl rfl (by decide) rfl
  obtain ⟨answer, c₂, hanswer, hc₂⟩ := behindArrow_of_isAnswer (n := n) h (by omega) hy hl
    harrow.next.of_space
  have hreturn : returnType (grammar n) "=>" s c₁ = .ok answer c₂ := by
    rw [returnType_eq, enclosed_eq, bind_of_ok (expect_of_mark harrow.lexeme)]
    exact hanswer
  have htypes : optionalTypeParams (grammar n) s c = .ok [] c := by
    have hangle : c.token.isMarkIn ["<", "<<"] = false := by
      rw [Token.isMarkIn_of_mark hopen.lexeme]
      decide
    unfold optionalTypeParams
    rw [bind_of_ok opensAngle_eq, hangle, if_neg Bool.false_ne_true]
    rfl
  refine ⟨params ++ paramsParts [] ++ answer, c₂, ?_, rests_of_inBrackets hc₂ hc.inType⟩
  unfold functionType
  rw [bind_of_ok htypes, bind_of_ok (expect_of_mark hopen.lexeme), bind_of_ok hparams,
    bind_of_ok hreturn]
  rfl

/-- A parenthesis in front of parameters is known for one. -/
theorem startsParams_of_param (g : Grammar) {param : List Char} (hparam : ParamText param)
    (hopen : NextIs whole s c (.mark "(") ['('] (param ++ ')' :: y)) :
    startsParams g s c = .ok true c := by
  have hinside : ∃ c', insideParams g s (Cursor.advance s c) = .ok true c' := by
    cases hparam with
    | none =>
      have hclose : NextIs whole s _ (.mark ")") [')'] y := hopen.next.bracket (by decide)
      have hmark : (Cursor.advance s c).token.isMarkIn [")", "..."] = true := by
        rw [Token.isMarkIn_of_mark hclose.lexeme]
        decide
      refine ⟨Cursor.advance s c, ?_⟩
      unfold insideParams
      rw [bind_of_ok (isMarkIn_eq _), hmark, if_pos rfl]
      rfl
    | named hw hx =>
      have hstands := hopen.next.toStands
      rw [List.append_assoc] at hstands
      have hword := nextIs_param hw hstands
      have hcolon := nextIs_colon hword.next.toStands
      have hname : (Cursor.advance s c).token.isName = true := by
        simp only [isParamName, Bool.and_eq_true] at hw
        unfold Token.isName
        rw [Token.isWordSuch_of_word hword.lexeme]
        exact hw.1.2
      -- a colon behind the name tells a parameter
      have hgoes : goesOnAsParams s (Cursor.advance s (Cursor.advance s c)) =
          .ok true (Cursor.advance s (Cursor.advance s c)) := by
        have hin : (Cursor.advance s (Cursor.advance s c)).token.isMarkIn [":", ",", "?", "="] =
            true := by
          rw [Token.isMarkIn_of_mark hcolon.lexeme]
          decide
        unfold goesOnAsParams
        rw [bind_of_ok (isMarkIn_eq _), hin, if_pos rfl]
        rfl
      refine ⟨Cursor.advance s (Cursor.advance s c), ?_⟩
      unfold insideParams
      rw [bind_of_ok (isMarkIn_eq _), Token.isMarkIn_of_word hword.lexeme,
        if_neg Bool.false_ne_true, bind_of_ok (parameterModifier_of_word hword.lexeme
          (not_modifier_of_isPlainWord (isPlainWord_of_isParamName hw)))]
      unfold tellsParams
      rw [bind_of_ok isName_eq, bind_of_ok (isWord_eq _), hname, Bool.true_or, if_pos rfl,
        bind_of_ok (take_of_word hword.lexeme)]
      exact hgoes
  obtain ⟨c', hinside⟩ := hinside
  rw [startsParams_eq]
  unfold aheadTrue
  rw [bind_of_ok (expect_of_mark hopen.lexeme), hinside]

/-- A function is read as what it is, as it is written. -/
theorem reads_function {param : List Char} (hparam : ParamText param) (h : IsAnswer x a) :
    ReadsAs plainType typeEnds (functionText param x)
      (.written (String.ofList (functionText param x))) := by
  intro whole s c y l n hy hl hc hn
  have htext : functionText param x ++ y =
      ['('] ++ (param ++ ')' :: (' ' :: '=' :: '>' :: ' ' :: (x ++ y))) := by
    simp [functionText]
  have hopen : NextIs whole s c (.mark "(") ['(']
      (param ++ ')' :: (' ' :: '=' :: '>' :: ' ' :: (x ++ y))) := by
    rw [htext] at hc
    exact Stands.bracket hc (by decide)
  obtain ⟨parts, c', hread, hc'⟩ := functionType_of_param hparam h hn hy hl hc
  refine ⟨.other ⟨c.token.span.lo, c'.stop⟩ parts, c', ?_, ?_, hc'⟩
  · have hangle : c.token.isMarkIn ["<", "<<"] = false := by
      rw [Token.isMarkIn_of_mark hopen.lexeme]
      decide
    have hmark : c.token.isMark "(" = true := by
      rw [Token.isMark_of_mark hopen.lexeme]
      decide
    unfold plainType
    rw [bind_of_ok start_eq, bind_of_ok token_eq, bind_of_ok opensAngle_eq,
      bind_of_ok (startsParams_of_param _ hparam hopen), hangle, hmark, Bool.false_or,
      Bool.true_and, if_pos rfl, bind_of_ok hread, bind_of_ok (spanFrom_eq _)]
    rfl
  · -- the text starts at the parenthesis
    have hlo : c.token.span.lo = s.size - byteCount (functionText param x ++ y) := by
      have hstart := hopen.start
      rw [← htext] at hstart
      have hbytes := length_le_byteCount (functionText param x ++ y)
      rw [htext, List.length_append, List.length_singleton, ← htext] at hbytes
      omega
    rw [formOf, hlo, hc'.stop, hc.textOf]

end

end Read

/-! ## The arrow of a function -/

theorem level_paramText {param : List Char} (h : ParamText param) : Level 1 param := by
  cases h with
  | none => exact .nil 1
  | named hw hx =>
    have hplain := Read.isPlainWord_of_isParamName hw
    simp only [Read.isPlainWord, Bool.and_eq_true] at hplain
    have hcolon : Level 1 [':', ' '] := .of_plain (by decide) 1
    exact (Level.of_plain (not_isMark_of_isWordText hplain.1.1) 1).append
      (hcolon.append hx.level_one)

/-- The arrow of a function leaves a scan where it is, and it is found outside of brackets. -/
theorem step_arrow {d : Int} {n : Nesting} (hn : OutsideAt d n) (tokens : List TopToken) :
    OutsideAt d ([' ', '=', '>', ' '].foldl Nesting.step n) ∧
      hasTopTokenFrom tokens n [' ', '=', '>', ' '] =
        (decide (d = 0) && tokens.contains .arrow) := by
  have hspace := hn.step_of_plain (c := ' ') rfl rfl rfl
  have hequals := hspace.step_of_plain (c := '=') rfl rfl rfl
  have hprev := prev_step (n.step ' ') '='
  have harrow := hequals.step_of_plain (c := '>') rfl rfl (by rw [hprev]; rfl)
  have hend := harrow.step_of_plain (c := ' ') rfl rfl rfl
  refine ⟨hend, ?_⟩
  have htop := hequals.isTop_eq
  by_cases hd : d = 0
  · simp [hasTopTokenFrom, Nesting.topToken?, htop, hprev, hd]
  · simp [hasTopTokenFrom, Nesting.topToken?, htop, hd]

theorem functionText_eq (param x : List Char) :
    functionText param x = ('(' :: (param ++ [')'])) ++ ([' ', '=', '>', ' '] ++ x) := by
  simp [functionText]

/-- The text of a function of one parameter or none is read as a function type. -/
theorem functionText_of_param {param x : List Char} {a : TypeForm} (hparam : ParamText param)
    (h : Read.IsAnswer x a) : FunctionText (functionText param x) where
  reads := Read.reads_function hparam h
  opensNoParams := by
    intro g whole s c y l _ _ hc c'
    have hopen : NextIs whole s c (.mark "(") ['('] _ := Stands.bracket hc (by decide)
    have hmark : c.token.isMarkIn [")", "..."] = false := by
      rw [Token.isMarkIn_of_mark hopen.lexeme]
      decide
    unfold Read.insideParams
    rw [Read.bind_of_ok (Read.isMarkIn_eq _), hmark, if_neg Bool.false_ne_true,
      Read.bind_of_ok (Read.parameterModifier_of_mark hopen.lexeme)]
    exact Read.tellsParams_of_mark g hopen.lexeme c'
  arrow := by
    have hbracket : Level 0 ('(' :: (param ++ [')'])) :=
      Level.bracket (level_paramText hparam) rfl (by decide)
    obtain ⟨hn, _⟩ := hbracket 0 {} (Int.le_refl 0) outsideAt_start
    unfold hasTopToken
    rw [functionText_eq, hasTopTokenFrom_append, hasTopTokenFrom_append, (step_arrow hn _).2]
    simp
  level := by
    have hbracket : Level 1 ('(' :: (param ++ [')'])) :=
      (Level.bracket (level_paramText hparam) rfl (by decide)).mono (by decide)
    have harrow : Level 1 [' ', '=', '>', ' '] := by
      intro d n hd hn
      obtain ⟨hstep, htop⟩ := step_arrow hn topTokens
      have hne : ¬d = 0 := by omega
      rw [htop, decide_eq_false hne, Bool.false_and]
      exact ⟨hstep, rfl⟩
    rw [functionText_eq]
    exact hbracket.append (harrow.append h.1.level_one)

end ElementManifest.TypeScript

import ElementManifest.Proofs.TypeForms

/-!
# Reading types

What the readers make of names, and of simple types with brackets behind them or operators in
front of them. Each reader is followed token by token, from a cursor that is known to stand in
front of a text (`Takes`).

> `simpleType_name`: a name with dots is read as a reference, or as a keyword.

> `takes_postfixType`, `takes_operator`: brackets make arrays, and operators stand in front of
> operands.
-/

namespace ElementManifest.TypeScript

namespace Read

/-! ## One reading behind another -/

section

variable {α β : Type} {s : Settings} {c c' : Cursor}

theorem bind_of_ok {p : Read α} {a : α} (h : p s c = .ok a c') (f : α → Read β) :
    (p >>= f) s c = f a s c' := by
  show Read.bind p f s c = _
  unfold Read.bind
  rw [h]

theorem bind_of_failed {p : Read α} (h : p s c = .failed c') (f : α → Read β) :
    (p >>= f) s c = .failed c' := by
  show Read.bind p f s c = _
  unfold Read.bind
  rw [h]

theorem exists_aheadTrue (p : Read Bool) (s : Settings) (c : Cursor) :
    ∃ b, aheadTrue p s c = .ok b c := by
  unfold aheadTrue
  cases p s c with
  | ok b next => exact ⟨b, rfl⟩
  | failed place => exact ⟨false, rfl⟩

/-- A lookahead that is never answered yes says no. -/
theorem aheadTrue_eq_false {p : Read Bool} (h : ∀ c', p s c ≠ .ok true c') :
    aheadTrue p s c = .ok false c := by
  unfold aheadTrue
  cases hp : p s c with
  | failed place => rfl
  | ok b next =>
    cases b with
    | false => rfl
    | true => exact absurd hp (h next)

end

/-! ## Marks and words -/

section

variable {s : Settings} {c : Cursor} {m w : String}

theorem take_of_mark (h : c.token.lexeme = .mark m) :
    take s c = .ok c.token (Cursor.advance s c) := by
  unfold take
  rw [h, if_neg (by simp)]

theorem take_of_word {b : Bool} (h : c.token.lexeme = .word w b) :
    take s c = .ok c.token (Cursor.advance s c) := by
  unfold take
  rw [h, if_neg (by simp)]

theorem token_eq : token s c = .ok c.token c := rfl

theorem start_eq : start s c = .ok c.token.span.lo c := rfl

theorem spanFrom_eq (lo : Nat) : spanFrom lo s c = .ok ⟨lo, c.stop⟩ c := rfl

theorem second_eq : second s c = .ok (Cursor.advance s c).token c := rfl

theorem newline_eq : newline s c = .ok c.token.newlineBefore c := rfl

theorem settings_eq : settings s c = .ok s c := rfl

theorem isMark_eq (m : String) : isMark m s c = .ok (decide (c.token.lexeme = .mark m)) c := rfl

theorem eat_of_mark (h : c.token.lexeme = .mark m) :
    eat m s c = .ok true (Cursor.advance s c) := by
  unfold eat
  rw [bind_of_ok (isMark_eq m), decide_eq_true h, if_pos rfl, bind_of_ok (take_of_mark h)]
  rfl

theorem eat_of_ne (h : c.token.lexeme ≠ .mark m) : eat m s c = .ok false c := by
  unfold eat
  rw [bind_of_ok (isMark_eq m), decide_eq_false h, if_neg Bool.false_ne_true]
  rfl

theorem expect_of_mark (h : c.token.lexeme = .mark m) :
    expect m s c = .ok () (Cursor.advance s c) := by
  unfold expect
  rw [bind_of_ok (eat_of_mark h)]
  rfl

theorem expect_of_ne (h : c.token.lexeme ≠ .mark m) : expect m s c = .failed c := by
  unfold expect
  rw [bind_of_ok (eat_of_ne h)]
  rfl

theorem isWord_eq (w : String) : isWord w s c = .ok (c.token.isWord w) c := rfl

theorem eatWord_of_ne (h : c.token.isWord w = false) : eatWord w s c = .ok false c := by
  unfold eatWord
  rw [bind_of_ok (isWord_eq w), h, if_neg Bool.false_ne_true]
  rfl

theorem anyWord_of_word {b : Bool} (h : c.token.lexeme = .word w b) :
    anyWord s c = .ok w (Cursor.advance s c) := by
  have hword : c.token.word? = some w := by
    unfold Token.word?
    rw [h]
  unfold anyWord
  rw [bind_of_ok token_eq, hword]
  dsimp only
  rw [bind_of_ok (take_of_word h)]
  rfl

end

/-! ## Names -/

/-- Words that are read in another way where a type starts. -/
def leadingWords : List String :=
  ["keyof", "unique", "readonly", "infer", "public", "private", "protected"]

/-- Whether a word is read as a name of its own where a type starts. -/
def isPlainWord (w : List Char) : Bool :=
  isWordText w && isTypeName (String.ofList w) && !leadingWords.contains (String.ofList w)

theorem not_modifier_of_isPlainWord {w : List Char} (h : isPlainWord w = true) :
    String.ofList w ∉ ["public", "protected", "private", "readonly"] := by
  intro hmem
  have hsub : ∀ v ∈ ["public", "protected", "private", "readonly"], v ∈ leadingWords := by decide
  simp only [isPlainWord, Bool.and_eq_true, Bool.not_eq_true', Bool.eq_false_iff, ne_eq,
    List.contains_iff_mem] at h
  exact h.2 (hsub _ hmem)

/-- The text of names behind dots. -/
def dotted (ws : List (List Char)) : List Char :=
  ws.flatMap ('.' :: ·)

section

variable {whole y : List Char} {l : Lexeme} {s : Settings} {c : Cursor}

theorem isMarkIn_eq_false {ms : List String} (h : ∀ m ∈ ms, c.token.lexeme ≠ .mark m) :
    isMarkIn ms s c = .ok false c := by
  unfold isMarkIn
  cases hl : c.token.lexeme with
  | mark m =>
    have hm : ms.contains m = false := by
      rw [Bool.eq_false_iff, ne_eq, List.contains_iff_mem]
      exact fun hm => h m hm hl
    show Outcome.ok (ms.contains m) c = _
    rw [hm]
  | _ => rfl

/-- Only the marks that may follow a type are met behind it. -/
theorem ne_mark_of_follows (hy : Follows y l) (hc : Stands whole s c y) {m : String}
    (hm : m ∉ [")", "[", "|", "&"]) : c.token.lexeme ≠ .mark m := by
  rw [(hy.token hc).1]
  rintro rfl
  have := hy.lexeme_mem
  simp only [List.mem_cons, reduceCtorEq, Lexeme.mark.injEq, List.not_mem_nil, or_false,
    false_or] at this hm
  exact hm this

theorem isWord_of_follows (hy : Follows y l) (hc : Stands whole s c y) (w : String) :
    c.token.isWord w = false := by
  have hmem := hy.lexeme_mem
  unfold Token.isWord
  rw [(hy.token hc).1, decide_eq_false_iff_not]
  rintro rfl
  simp at hmem

theorem endsWord_dotted (hy : Follows y l) (ws : List (List Char)) : EndsWord (dotted ws ++ y) := by
  cases ws with
  | nil => exact hy.endsWord
  | cons w ws =>
    intro d hd
    cases hd
    exact ⟨by decide, by decide⟩

/-- One more name behind a dot. -/
def moreOfName (e : EntityName) : Read (Option EntityName) := do
  if (← eat ".") && (← token).word?.isSome then return some (.member e (← anyWord))
  else return none

theorem moreOfName_of_ne (h : c.token.lexeme ≠ .mark ".") (e : EntityName) :
    moreOfName e s c = .ok none c := by
  unfold moreOfName
  rw [bind_of_ok (eat_of_ne h), bind_of_ok token_eq, Bool.false_and, if_neg Bool.false_ne_true]
  rfl

theorem moreOfName_of_dot {w : String} (h : c.token.lexeme = .mark ".")
    (hw : (Cursor.advance s c).token.lexeme = .word w false) (e : EntityName) :
    moreOfName e s c = .ok (some (.member e w)) (Cursor.advance s (Cursor.advance s c)) := by
  have hsome : (Cursor.advance s c).token.word?.isSome = true := by
    unfold Token.word?
    rw [hw]
    rfl
  unfold moreOfName
  rw [bind_of_ok (eat_of_mark h), bind_of_ok token_eq, hsome, Bool.true_and, if_pos rfl,
    bind_of_ok (anyWord_of_word hw)]
  rfl

/-- The names behind dots are read up to the last one. -/
theorem growUpTo_dotted (hy : Follows y l) {ws : List (List Char)}
    (hws : ∀ w ∈ ws, isWordText w = true) (e : EntityName) {n : Nat} (hn : ws.length ≤ n)
    (hc : Rests whole s c (dotted ws ++ y)) :
    ∃ e' c', growUpTo moreOfName n e s c = .ok e' c' ∧
      e'.text = e.text ++ String.ofList (dotted ws) ∧ Rests whole s c' y := by
  induction ws generalizing e n c with
  | nil =>
    refine ⟨e, c, ?_, by simp [dotted], hc⟩
    cases n with
    | zero => rfl
    | succ n =>
      have hdot := ne_mark_of_follows hy hc.toStands (m := ".") (by decide)
      rw [growUpTo, bind_of_ok (moreOfName_of_ne hdot e)]
      rfl
  | cons w ws ih =>
    obtain ⟨n, rfl⟩ : ∃ k, n = k + 1 := ⟨n - 1, by rw [List.length_cons] at hn; omega⟩
    have hw := hws w List.mem_cons_self
    have hstands : Stands whole s c ('.' :: (w ++ (dotted ws ++ y))) := by
      have heq : dotted (w :: ws) ++ y = '.' :: (w ++ (dotted ws ++ y)) := by simp [dotted]
      rw [← heq]
      exact hc.toStands
    have hdot := hstands.dot hw
    have hword := hdot.next.word hw (endsWord_dotted hy ws)
    obtain ⟨e', c', hgrow, htext, hc'⟩ := ih (fun v hv => hws v (List.mem_cons_of_mem w hv))
      (.member e (String.ofList w)) (Nat.le_of_succ_le_succ hn) hword.next
    refine ⟨e', c', ?_, ?_, hc'⟩
    · rw [growUpTo, bind_of_ok (moreOfName_of_dot hdot.lexeme hword.lexeme e)]
      exact hgrow
    · rw [htext, EntityName.text]
      apply String.toList_inj.mp
      simp [dotted]

end

/-- Without angle brackets there are no type arguments. -/
theorem optionalTypeArgs_of_follows {whole y : List Char} {l : Lexeme} {s : Settings} {c : Cursor}
    (g : Grammar) (hy : Follows y l) (hc : Stands whole s c y) :
    optionalTypeArgs g s c = .ok [] c := by
  have hangle : opensAngle s c = .ok false c := by
    refine isMarkIn_eq_false ?_
    intro m hm
    refine ne_mark_of_follows hy hc ?_
    rcases List.mem_cons.mp hm with rfl | hm
    · decide
    · rw [List.mem_singleton.mp hm]
      decide
  unfold optionalTypeArgs
  rw [bind_of_ok newline_eq, bind_of_ok hangle, Bool.and_false, if_neg Bool.false_ne_true]
  rfl

/-- A token that is none of the words for it is no modifier. -/
theorem parameterModifier_of_not_word {s : Settings} {c : Cursor}
    (h : ∀ v ∈ ["public", "protected", "private", "readonly"], c.token.isWord v = false) :
    parameterModifier s c = .ok false c := by
  have hany : ["public", "protected", "private", "readonly"].any c.token.isWord = false :=
    List.any_eq_false.mpr fun v hv => Bool.eq_false_iff.mp (h v hv)
  unfold parameterModifier
  rw [bind_of_ok token_eq, bind_of_ok second_eq, hany, Bool.false_and, if_neg Bool.false_ne_true]
  rfl

/-- A word that is no modifier stays. -/
theorem parameterModifier_of_word {s : Settings} {c : Cursor} {w : String}
    (h : c.token.lexeme = .word w false)
    (hw : w ∉ ["public", "protected", "private", "readonly"]) :
    parameterModifier s c = .ok false c := by
  refine parameterModifier_of_not_word fun v hv => ?_
  rw [Token.isWord_of_word h]
  exact decide_eq_false fun heq => hw (heq ▸ hv)

/-- How a simple type goes on that starts with a word of no other use. -/
def wordType (g : Grammar) (t : Token) (w : String) (escaped : Bool) : Read TypeNode := do
  let next ← second
  if t.isWord "asserts" && next.isWord "this" then
    let _ ← take
    let _ ← take
    let parts ← thisPredicate g
    return .other (← spanFrom t.span.lo) parts
  else if !escaped && typeKeywords.contains w && !next.isMark "." then
    let _ ← take
    return .keyword t.span w
  else
    guard (t.isWordSuch isTypeName)
    typeReference g

theorem simpleType_of_word {g : Grammar} {s : Settings} {c : Cursor} {w : String}
    (h : c.token.lexeme = .word w false) (hname : isTypeName w = true) :
    simpleType g s c = wordType g c.token w false s c := by
  have hne (v : String) (hv : isTypeName v = false) : c.token.lexeme ≠ .word v false := by
    rw [h]
    intro heq
    injection heq with heq
    rw [heq, hv] at hname
    cases hname
  unfold simpleType
  rw [bind_of_ok start_eq, bind_of_ok token_eq]
  refine congrFun (congrFun ?_ s) c
  split
  next heq => exact absurd heq (hne "true" (by decide))
  next heq => exact absurd heq (hne "false" (by decide))
  next heq => exact absurd heq (hne "import" (by decide))
  next heq => exact absurd heq (hne "typeof" (by decide))
  next heq => exact absurd heq (hne "this" (by decide))
  next heq =>
    rw [h] at heq
    cases heq
    rfl
  all_goals simp_all

theorem length_le_dotted (ws : List (List Char)) : ws.length ≤ (dotted ws).length := by
  induction ws with
  | nil => exact Nat.le_refl 0
  | cons w ws ih =>
    simp only [dotted, List.flatMap_cons, List.length_append, List.length_cons] at ih ⊢
    omega

section

variable {whole y : List Char} {l : Lexeme} {s : Settings} {c : Cursor}

/-- A reading takes a type of the form `form` at the cursor, and leaves `y`. -/
def Takes (whole : List Char) (p : Read TypeNode) (s : Settings) (c : Cursor) (form : TypeForm)
    (y : List Char) : Prop :=
  ∃ t c', p s c = .ok t c' ∧ formOf ⟨whole, [], []⟩ t = some form ∧ Rests whole s c' y

/-- A name with dots is read as a whole. -/
theorem entityName_dotted (hy : Follows y l) {w : List Char} {ws : List (List Char)}
    (hws : ∀ w ∈ ws, isWordText w = true)
    (hword : NextIs whole s c (.word (String.ofList w) false) w (dotted ws ++ y)) :
    ∃ e c', entityName s c = .ok e c' ∧ e.text = String.ofList (w ++ dotted ws) ∧
      Rests whole s c' y := by
  have hroom : ws.length ≤ s.size - (Cursor.advance s c).token.span.lo + 2 := by
    cases ws with
    | nil => exact Nat.zero_le _
    | cons v vs =>
      have hdot : Stands whole s (Cursor.advance s c) ('.' :: (v ++ (dotted vs ++ y))) := by
        have heq : dotted (v :: vs) ++ y = '.' :: (v ++ (dotted vs ++ y)) := by simp [dotted]
        rw [← heq]
        exact hword.next.toStands
      have hstart := (hdot.dot (hws v List.mem_cons_self)).start
      have hbytes := length_le_byteCount (['.'] ++ (v ++ (dotted vs ++ y)))
      have hdotted := length_le_dotted vs
      simp only [List.length_append, List.length_cons, List.length_nil] at hbytes ⊢
      omega
  obtain ⟨e, c', hgrow, htext, hc'⟩ :=
    growUpTo_dotted hy hws (.name (String.ofList w)) hroom hword.next
  refine ⟨e, c', ?_, ?_, hc'⟩
  · unfold entityName entityNameWith
    rw [bind_of_ok (anyWord_of_word hword.lexeme)]
    exact hgrow
  · rw [htext, EntityName.text, ← String.ofList_append]

theorem typeReference_name (g : Grammar) (hy : Follows y l) {w : List Char}
    (hw : isPlainWord w = true) {ws : List (List Char)}
    (hws : ∀ w ∈ ws, isWordText w = true)
    (hword : NextIs whole s c (.word (String.ofList w) false) w (dotted ws ++ y)) :
    Takes whole (typeReference g) s c (.name (String.ofList (w ++ dotted ws))) y := by
  have hmodifier := not_modifier_of_isPlainWord hw
  obtain ⟨e, c', hname, htext, hc'⟩ := entityName_dotted hy hws hword
  refine ⟨.reference ⟨c.token.span.lo, c'.stop⟩ e [], c', ?_, ?_, hc'⟩
  · unfold typeReference
    rw [bind_of_ok start_eq, bind_of_ok (parameterModifier_of_word hword.lexeme hmodifier),
      bind_of_ok hname, bind_of_ok (optionalTypeArgs_of_follows g hy hc'.toStands),
      bind_of_ok (spanFrom_eq _)]
    rfl
  · rw [formOf, htext]

/-- A name is read as a simple type. -/
theorem simpleType_name (g : Grammar) (hy : Follows y l) {w : List Char}
    (hw : isPlainWord w = true) {ws : List (List Char)} (hws : ∀ w ∈ ws, isWordText w = true)
    (hc : Stands whole s c (w ++ (dotted ws ++ y))) :
    Takes whole (simpleType g) s c (.name (String.ofList (w ++ dotted ws))) y := by
  obtain ⟨htext, hname⟩ : isWordText w = true ∧ isTypeName (String.ofList w) = true := by
    simp only [isPlainWord, Bool.and_eq_true] at hw
    exact hw.1
  have hword := hc.word htext (endsWord_dotted hy ws)
  -- behind the first word there is a dot unless the name ends
  have hnext : (Cursor.advance s c).token.isWord "this" = false ∧
      ((Cursor.advance s c).token.isMark "." = false → ws = []) := by
    cases ws with
    | nil => exact ⟨isWord_of_follows hy hword.next.toStands "this", fun _ => rfl⟩
    | cons v vs =>
      have hdot : Stands whole s (Cursor.advance s c) ('.' :: (v ++ (dotted vs ++ y))) := by
        have heq : dotted (v :: vs) ++ y = '.' :: (v ++ (dotted vs ++ y)) := by simp [dotted]
        rw [← heq]
        exact hword.next.toStands
      have hlexeme := (hdot.dot (hws v List.mem_cons_self)).lexeme
      rw [Token.isWord_of_mark hlexeme, Token.isMark_of_mark hlexeme]
      exact ⟨rfl, fun h => absurd h (by decide)⟩
  unfold Takes
  rw [simpleType_of_word hword.lexeme hname]
  unfold wordType
  rw [bind_of_ok second_eq, hnext.1, Bool.and_false, if_neg Bool.false_ne_true, Bool.not_false,
    Bool.true_and]
  split
  next hkeyword =>
    rw [Bool.and_eq_true, Bool.not_eq_true'] at hkeyword
    obtain rfl := hnext.2 hkeyword.2
    rw [bind_of_ok (take_of_word hword.lexeme)]
    refine ⟨_, _, rfl, ?_, hword.next⟩
    rw [formOf, hword.text]
    simp [dotted]
  next =>
    have hsuch : c.token.isWordSuch isTypeName = true := by
      rw [Token.isWordSuch_of_word hword.lexeme]
      exact hname
    rw [hsuch]
    exact typeReference_name g hy hw hws hword

end

/-! ## Reading in front of what follows -/

/-- What may stand behind a type with operators before it and brackets behind it. -/
def operandEnds : List Lexeme := [.finish, .mark ")", .mark "|", .mark "&"]

/-- What may stand behind an intersection. -/
def intersectionEnds : List Lexeme := [.finish, .mark ")", .mark "|"]

/-- What may stand behind a whole type. -/
def typeEnds : List Lexeme := [.finish, .mark ")"]

/-- In front of one of `ends` the readers read a type of the form `form` from `x`. They may
nest in proportion to the length of `x`. -/
def ReadsAs (p : Grammar → Read TypeNode) (ends : List Lexeme) (x : List Char)
    (form : TypeForm) : Prop :=
  ∀ whole s c y l n, Follows y l → l ∈ ends → Stands whole s c (x ++ y) → 2 * x.length ≤ n →
    Takes whole (p (grammar n)) s c form y

/-! ### Arrays -/

/-- Brackets, `n` of them. -/
def brackets : Nat → List Char
  | 0 => []
  | n + 1 => '[' :: ']' :: brackets n

theorem follows_brackets {y : List Char} {l : Lexeme} (h : Follows y l) (n : Nat) :
    ∃ l', Follows (brackets n ++ y) l' := by
  cases n with
  | zero => exact ⟨l, h⟩
  | succ n => exact ⟨_, .brackets (brackets n ++ y)⟩

theorem length_brackets (n : Nat) : (brackets n).length = 2 * n := by
  induction n with
  | zero => rfl
  | succ n ih =>
    rw [brackets, List.length_cons, List.length_cons, ih]
    omega

/-- Brackets behind a type, with an index or without. -/
def moreOfType (g : Grammar) (lo : Nat) (ty : TypeNode) : Read (Option TypeNode) := do
  if ← newline then return none
  if !(← eat "[") then return none
  if ← eat "]" then return some (.array (← spanFrom lo) ty)
  let index ← enclosed g.type
  expect "]"
  return some (.indexed (← spanFrom lo) ty index)

section

variable {whole y : List Char} {l : Lexeme} {s : Settings} {c : Cursor} {k : Nat}

theorem moreOfType_of_ne {g : Grammar} (lo : Nat) (t : TypeNode)
    (hnewline : c.token.newlineBefore = false) (h : c.token.lexeme ≠ .mark "[") :
    moreOfType g lo t s c = .ok none c := by
  unfold moreOfType
  rw [bind_of_ok newline_eq, hnewline, if_neg Bool.false_ne_true, bind_of_ok (eat_of_ne h),
    Bool.not_false, if_pos rfl]
  rfl

/-- Each pair of brackets makes an array. -/
theorem growUpTo_brackets {g : Grammar} (lo : Nat) (hy : Follows y l) (hl : l ≠ .mark "[")
    {t : TypeNode} {form : TypeForm} (ht : formOf ⟨whole, [], []⟩ t = some form) {n : Nat}
    (hn : k ≤ n) (hc : Rests whole s c (brackets k ++ y)) :
    Takes whole (growUpTo (moreOfType g lo) n t) s c (form.arrays k) y := by
  induction k generalizing t form n c with
  | zero =>
    refine ⟨t, c, ?_, ht, hc⟩
    cases n with
    | zero => rfl
    | succ n =>
      obtain ⟨hlexeme, hnewline⟩ := hy.token hc.toStands
      rw [growUpTo, bind_of_ok (moreOfType_of_ne lo t hnewline (by rw [hlexeme]; exact hl))]
      rfl
  | succ k ih =>
    obtain ⟨n, rfl⟩ : ∃ m, n = m + 1 := ⟨n - 1, by omega⟩
    have hopen : NextIs whole s c (.mark "[") ['['] (']' :: (brackets k ++ y)) :=
      hc.bracket (by decide)
    have hclose : NextIs whole s _ (.mark "]") [']'] (brackets k ++ y) :=
      hopen.next.bracket (by decide)
    -- one turn takes a pair of brackets, and makes an array of what was read before
    have hstep : moreOfType g lo t s c = .ok
        (some (.array ⟨lo, (Cursor.advance s (Cursor.advance s c)).stop⟩ t))
        (Cursor.advance s (Cursor.advance s c)) := by
      unfold moreOfType
      rw [bind_of_ok newline_eq, hopen.newline, if_neg Bool.false_ne_true,
        bind_of_ok (eat_of_mark hopen.lexeme), Bool.not_true, if_neg Bool.false_ne_true,
        bind_of_ok (eat_of_mark hclose.lexeme), if_pos rfl, bind_of_ok (spanFrom_eq lo)]
      rfl
    have harray : formOf ⟨whole, [], []⟩
        (.array ⟨lo, (Cursor.advance s (Cursor.advance s c)).stop⟩ t) = some form.array := by
      rw [formOf, ht]
      rfl
    obtain ⟨t', c', hgrow, hform, hc'⟩ := ih harray (Nat.le_of_succ_le_succ hn) hclose.next
    refine ⟨t', c', ?_, ?_, hc'⟩
    · rw [growUpTo, bind_of_ok hstep]
      exact hgrow
    · rw [hform, TypeForm.arrays_array, TypeForm.arrays]

theorem room_brackets (hc : Stands whole s c (brackets k ++ y)) :
    k ≤ s.size - c.token.span.lo + 2 := by
  cases k with
  | zero => exact Nat.zero_le _
  | succ k =>
    have hopen : NextIs whole s c (.mark "[") ['['] (']' :: (brackets k ++ y)) :=
      Stands.bracket hc (by decide)
    have hbytes := length_le_byteCount (['['] ++ (']' :: (brackets k ++ y)))
    have hlength := length_brackets k
    rw [← hopen.start] at hbytes
    simp only [List.length_append, List.length_cons, List.length_nil] at hbytes
    omega

/-- A simple type with brackets behind it is an array. -/
theorem takes_postfixType {g : Grammar} (hy : Follows y l) (hl : l ≠ .mark "[") {form : TypeForm}
    (h : Takes whole (simpleType g) s c form (brackets k ++ y)) :
    Takes whole (postfixType g) s c (form.arrays k) y := by
  obtain ⟨t, c', hread, hform, hc'⟩ := h
  obtain ⟨t', c'', hgrow, hform', hc''⟩ := growUpTo_brackets (g := g) c.token.span.lo hy hl hform
    (room_brackets hc'.toStands) hc'
  refine ⟨t', c'', ?_, hform', hc''⟩
  unfold postfixType
  rw [bind_of_ok start_eq, bind_of_ok hread]
  exact hgrow

/-! ### Operators -/

/-- A word that is no operator starts no type with operators. -/
theorem operandType_eq_postfixType (g : Grammar)
    (h : ∀ w ∈ ["keyof", "unique", "readonly", "infer"], c.token.lexeme ≠ .word w false) :
    operandType g s c = postfixType g s c := by
  unfold operandType
  rw [bind_of_ok start_eq, bind_of_ok token_eq]
  refine congrFun (congrFun ?_ s) c
  split
  next heq => exact absurd heq (h "keyof" (by decide))
  next heq => exact absurd heq (h "unique" (by decide))
  next heq => exact absurd heq (h "readonly" (by decide))
  next heq => exact absurd heq (h "infer" (by decide))
  next => rfl

/-- An operator is read with the operand behind it. -/
theorem takes_operator {n : Nat} {op : TypeOperator} {form : TypeForm}
    (h : c.token.lexeme = .word op.text false)
    (hinner : Takes whole (operandType (grammar n)) s (Cursor.advance s c) form y) :
    Takes whole (operandType (grammar (n + 1))) s c (.operator op form) y := by
  obtain ⟨t, c', hread, hform, hc'⟩ := hinner
  have hread' : (grammar (n + 1)).typeOperand s (Cursor.advance s c) = .ok t c' := hread
  refine ⟨.operator ⟨c.token.span.lo, c'.stop⟩ op t, c', ?_, by rw [formOf, hform]; rfl, hc'⟩
  unfold operandType
  rw [bind_of_ok start_eq, bind_of_ok token_eq, h]
  cases op with
  | keyof | unique | readonly =>
    simp only [TypeOperator.text]
    rw [bind_of_ok (take_of_word h), bind_of_ok hread', bind_of_ok (spanFrom_eq _)]
    rfl

end

end Read

end ElementManifest.TypeScript

import ElementManifest.Proofs.Levels
import ElementManifest.Proofs.TypeReading

/-!
# Texts that spell a type

Parts of a type hold together more or less tightly (`TypeForm.rank`): brackets bind closer than
operators, these closer than intersections, then come unions, and last functions. A text spells
a type if whatever is looser than its place allows stands in parentheses (`Spelled`).

> `Spelled.exists_head`: how such a text starts.

> `plainType_of_spelled`: its start is not taken for that of a function.
-/

namespace ElementManifest.TypeScript

open ElementManifest.Text

/-! ## Ranks -/

/-- The rank of a joint, between those of operators and of functions. -/
def Joint.rank : Joint → Nat
  | ampersand => 2
  | bar => 3

namespace Joint

theorem two_le_rank (j : Joint) : 2 ≤ j.rank := by
  cases j with
  | bar | ampersand => decide

theorem rank_le (j : Joint) : j.rank ≤ 3 := by
  cases j with
  | bar | ampersand => decide

theorem rank_inj {j j' : Joint} (h : j.rank = j'.rank) : j = j' := by
  cases j <;> cases j' <;> first | rfl | cases h

theorem char_mem (j : Joint) : j.char ∈ ['|', '&'] := by
  cases j with
  | bar | ampersand => decide

end Joint

namespace TypeForm

/-- How loosely the text of a type holds together: what may not stand behind an operator, or as
a branch of an intersection, has a higher rank than what may. -/
def rank : TypeForm → Nat
  | name _ | array _ | paren _ => 0
  | operator _ _ => 1
  | joined j _ _ => j.rank
  | written _ => 4

end TypeForm

namespace Read

/-! ## Parameters and parentheses -/

section

variable (g : Grammar)

/-- What tells parameters from a type, behind the name of the first one. -/
def goesOnAsParams : Read Bool := do
  if ← isMarkIn [":", ",", "?", "="] then return true
  expect ")"
  isMark "=>"

/-- What tells parameters from a type, behind the modifiers of the first one. -/
def tellsParams : Read Bool := do
  if (← isName) || (← isWord "this") then
    let _ ← take
  else
    guard (← isMarkIn ["\x7b", "["])
    let _ ← g.binding
  goesOnAsParams

/-- What tells parameters from a type, behind the parenthesis. -/
def insideParams : Read Bool := do
  if ← isMarkIn [")", "..."] then return true
  let _ ← parameterModifier
  tellsParams g

theorem startsParams_eq : startsParams g = aheadTrue (do expect "("; insideParams g) := rfl

end

/-- A text that is not taken for parameters when it stands in parentheses. -/
def OpensNoParams (x : List Char) : Prop :=
  ∀ g whole s c y l, Follows y l → NoArrow y → Stands whole s c (x ++ y) →
    ∀ c', insideParams g s c ≠ .ok true c'

end Read

/-- A text that is read as a function type wherever a type may end behind it. Outside of its
brackets there is an arrow, and its brackets are closed. -/
structure FunctionText (f : List Char) : Prop where
  reads : Read.ReadsAs Read.plainType Read.typeEnds f (.written (String.ofList f))
  opensNoParams : Read.OpensNoParams f
  arrow : hasTopToken [.arrow] f = true
  level : Inference.Level 1 f

/-- The text `x` spells a type: what it is built of stands in it from left to right, and
whatever holds together more loosely than its place allows stands in parentheses. -/
inductive Spelled : List Char → TypeForm → Prop
  | name {w : List Char} {ws : List (List Char)} (hw : Read.isPlainWord w = true)
    (hws : ∀ w ∈ ws, isWordText w = true) :
    Spelled (w ++ Read.dotted ws) (.name (String.ofList (w ++ Read.dotted ws)))
  | array {x : List Char} {a : TypeForm} (h : Spelled x a) (hrank : a.rank = 0) :
    Spelled (x ++ ['[', ']']) (.array a)
  | joined {x y : List Char} {a b : TypeForm} (j : Joint) (ha : Spelled x a) (hb : Spelled y b)
    (hrank : a.rank ≤ j.rank) (hrank' : b.rank ≤ j.rank) :
    Spelled (x ++ ' ' :: j.char :: ' ' :: y) (.joined j a b)
  | operator {x : List Char} {a : TypeForm} (op : TypeOperator) (h : Spelled x a)
    (hrank : a.rank ≤ 1) : Spelled (op.text.toList ++ ' ' :: x) (.operator op a)
  | paren {x : List Char} {a : TypeForm} (h : Spelled x a) :
    Spelled ('(' :: (x ++ [')'])) (.paren a)
  | written {f : List Char} (h : FunctionText f) : Spelled f (.written (String.ofList f))

/-! ## How a text starts -/

/-- What a text starts with that spells a type other than a function. -/
inductive Head : List Char → Prop
  | name {w : List Char} {ws : List (List Char)} (hw : Read.isPlainWord w = true)
    (hws : ∀ w ∈ ws, isWordText w = true) : Head (w ++ Read.dotted ws)
  | operator {x : List Char} {a : TypeForm} (op : TypeOperator) (h : Spelled x a)
    (hrank : a.rank ≤ 1) : Head (op.text.toList ++ ' ' :: x)
  | paren {x : List Char} {a : TypeForm} (h : Spelled x a) : Head ('(' :: (x ++ [')']))

/-- What may stand behind a head, in front of what follows a type. -/
structure Tail (z : List Char) : Prop where
  follows : ∀ {y l}, Follows y l → ∃ l', Follows (z ++ y) l'
  noArrow : ∀ {y}, NoArrow y → NoArrow (z ++ y)

theorem Tail.nil : Tail [] where
  follows h := ⟨_, h⟩
  noArrow h := h

/-- A tail goes on with what is no parenthesis. -/
theorem Tail.append {z z' : List Char} (hz : Tail z) (hz' : ∀ y, ∃ l, Follows (z' ++ y) l)
    (hne : ∀ y y', z' ++ y ≠ ')' :: y') : Tail (z ++ z') where
  follows {y _} _ := by
    obtain ⟨l', hfollows⟩ := hz' y
    rw [List.append_assoc]
    exact hz.follows hfollows
  noArrow {y} _ := by
    rw [List.append_assoc]
    exact hz.noArrow fun y' heq => absurd heq (hne y y')

/-- A text starts with a head, and behind it stands what may follow a type. -/
theorem Spelled.exists_head {x : List Char} {a : TypeForm} (h : Spelled x a) (hrank : a.rank ≤ 3) :
    ∃ hd z, Head hd ∧ x = hd ++ z ∧ Tail z := by
  induction h with
  | name hw hws => exact ⟨_, [], .name hw hws, (List.append_nil _).symm, .nil⟩
  | operator op h hr => exact ⟨_, [], .operator op h hr, (List.append_nil _).symm, .nil⟩
  | paren h => exact ⟨_, [], .paren h, (List.append_nil _).symm, .nil⟩
  | written => exact absurd hrank (Nat.not_succ_le_self 3)
  | array h hr ih =>
    obtain ⟨hd, z, hhead, rfl, hz⟩ := ih (by rw [hr]; exact Nat.zero_le 3)
    refine ⟨hd, z ++ ['[', ']'], hhead, List.append_assoc _ _ _, ?_⟩
    exact hz.append (fun y => ⟨_, .brackets y⟩) nofun
  | @joined x y a b j _ _ hr _ ih =>
    obtain ⟨hd, z, hhead, rfl, hz⟩ := ih (Nat.le_trans hr j.rank_le)
    refine ⟨hd, z ++ ' ' :: j.char :: ' ' :: y, hhead, List.append_assoc _ _ _, ?_⟩
    exact hz.append (fun y' => ⟨_, .joint j.char_mem (y ++ y')⟩) nofun

namespace Read

section

variable {whole : List Char} {s : Settings} {c : Cursor}

/-- What stands at the cursor does not tell that a name in front of it is a parameter. -/
def TellsNone (s : Settings) (c : Cursor) : Prop :=
  c.token.isMarkIn [":", ",", "?", "="] = false ∧
    (c.token.lexeme = .mark ")" → (Cursor.advance s c).token.lexeme ≠ .mark "=>")

theorem guard_false : (guard false : Read Unit) s c = .failed c := rfl

theorem isMarkIn_eq (ms : List String) : isMarkIn ms s c = .ok (c.token.isMarkIn ms) c := rfl

theorem isName_eq : isName s c = .ok c.token.isName c := rfl

theorem goesOnAsParams_of_none (h : TellsNone s c) (c' : Cursor) :
    goesOnAsParams s c ≠ .ok true c' := by
  unfold goesOnAsParams
  rw [bind_of_ok (isMarkIn_eq _), h.1, if_neg Bool.false_ne_true]
  by_cases hclose : c.token.lexeme = .mark ")"
  · rw [bind_of_ok (expect_of_mark hclose), isMark_eq, decide_eq_false (h.2 hclose)]
    nofun
  · rw [bind_of_failed (expect_of_ne hclose)]
    nofun

/-- Behind what is no name, no parameters are told. -/
theorem tellsParams_of_mark (g : Grammar) (h : c.token.lexeme = .mark "(") (c' : Cursor) :
    tellsParams g s c ≠ .ok true c' := by
  have hmark : c.token.isMarkIn ["\x7b", "["] = false := by
    rw [Token.isMarkIn_of_mark h]
    decide
  unfold tellsParams
  rw [bind_of_ok isName_eq, bind_of_ok (isWord_eq _), Token.isName_of_mark h,
    Token.isWord_of_mark h, Bool.or_false, if_neg Bool.false_ne_true,
    bind_of_ok (isMarkIn_eq _), hmark, bind_of_failed guard_false]
  nofun

/-- No parameters are told by a word, if nothing behind it tells them. -/
theorem tellsParams_of_word (g : Grammar) {w : String} (h : c.token.lexeme = .word w false)
    (hnone : TellsNone s (Cursor.advance s c)) (c' : Cursor) :
    tellsParams g s c ≠ .ok true c' := by
  unfold tellsParams
  rw [bind_of_ok isName_eq, bind_of_ok (isWord_eq _)]
  split
  next =>
    rw [bind_of_ok (take_of_word h)]
    exact goesOnAsParams_of_none hnone c'
  next =>
    rw [bind_of_ok (isMarkIn_eq _), Token.isMarkIn_of_word h, bind_of_failed guard_false]
    nofun

end

/-! ### The first token -/

section

variable {whole x y : List Char} {a : TypeForm} {l : Lexeme} {s : Settings} {c : Cursor}

theorem nextIs_operator (op : TypeOperator)
    (hc : Stands whole s c ((op.text.toList ++ ' ' :: x) ++ y)) :
    NextIs whole s c (.word op.text false) op.text.toList (' ' :: (x ++ y)) := by
  rw [List.append_assoc, List.cons_append] at hc
  have hends : EndsWord (' ' :: (x ++ y)) := by
    intro d hd
    cases hd
    exact ⟨by decide, by decide⟩
  have hword := hc.word (by cases op <;> decide) hends
  rwa [String.ofList_toList] at hword

theorem nextIs_name {w : List Char} {ws : List (List Char)} (hw : isPlainWord w = true)
    (hy : Follows y l) (hc : Stands whole s c ((w ++ dotted ws) ++ y)) :
    NextIs whole s c (.word (String.ofList w) false) w (dotted ws ++ y) := by
  rw [List.append_assoc] at hc
  simp only [isPlainWord, Bool.and_eq_true] at hw
  exact hc.word hw.1.1 (endsWord_dotted hy ws)

theorem nextIs_paren (hc : Stands whole s c (('(' :: (x ++ [')'])) ++ y)) :
    NextIs whole s c (.mark "(") ['('] (x ++ (')' :: y)) := by
  have heq : ('(' :: (x ++ [')'])) ++ y = '(' :: (x ++ (')' :: y)) := by simp
  rw [heq] at hc
  exact hc.bracket (by decide)

/-- A type other than a function starts with a word or a parenthesis. -/
theorem first_token (h : Spelled x a) (hrank : a.rank ≤ 3) (hy : Follows y l)
    (hc : Stands whole s c (x ++ y)) :
    c.token.lexeme = .mark "(" ∨ ∃ w, c.token.lexeme = .word w false ∧ isTypeName w = true := by
  obtain ⟨hd, z, hhead, rfl, hz⟩ := h.exists_head hrank
  obtain ⟨l', hz'⟩ := hz.follows hy
  rw [List.append_assoc] at hc
  cases hhead with
  | name hw =>
    have hword := (nextIs_name hw hz' hc).lexeme
    simp only [isPlainWord, Bool.and_eq_true] at hw
    exact Or.inr ⟨_, hword, hw.1.2⟩
  | operator op => exact Or.inr ⟨_, (nextIs_operator op hc).lexeme, by cases op <;> decide⟩
  | paren => exact Or.inl (nextIs_paren hc).lexeme

theorem tellsNone_of_first (h : c.token.lexeme = .mark "(" ∨ ∃ w, c.token.lexeme = .word w false) :
    TellsNone s c := by
  unfold TellsNone Token.isMarkIn
  rcases h with h | ⟨w, h⟩
  · rw [h]
    exact ⟨by decide, by simp⟩
  · rw [h]
    exact ⟨rfl, nofun⟩

theorem tellsNone_of_follows (hy : Follows y l) (harrow : NoArrow y) (hc : Stands whole s c y) :
    TellsNone s c := by
  refine ⟨?_, fun hclose => ?_⟩
  · unfold Token.isMarkIn
    rw [(hy.token hc).1]
    have hmem := hy.lexeme_mem
    simp only [List.mem_cons, List.not_mem_nil, or_false] at hmem
    rcases hmem with rfl | rfl | rfl | rfl | rfl <;> decide
  · rw [(hy.token hc).1] at hclose
    cases hy with
    | finish | brackets => simp at hclose
    | joint hd =>
      simp only [List.mem_cons, List.not_mem_nil, or_false] at hd
      rcases hd with rfl | rfl <;> simp at hclose
    | close y =>
      obtain ⟨l', hy'⟩ := harrow y rfl
      exact ne_mark_of_follows hy' (hc.bracket (by decide)).next.toStands (by decide)

theorem tellsNone_dotted {ws : List (List Char)} (hws : ∀ w ∈ ws, isWordText w = true)
    (hy : Follows y l) (harrow : NoArrow y) (hc : Stands whole s c (dotted ws ++ y)) :
    TellsNone s c := by
  cases ws with
  | nil => exact tellsNone_of_follows hy harrow hc
  | cons w ws =>
    have heq : dotted (w :: ws) ++ y = '.' :: (w ++ (dotted ws ++ y)) := by simp [dotted]
    rw [heq] at hc
    have hdot := (hc.dot (hws w List.mem_cons_self)).lexeme
    unfold TellsNone Token.isMarkIn
    rw [hdot]
    exact ⟨by decide, by simp⟩

/-- A type is not taken for the first parameter. -/
theorem tellsParams_of_spelled (g : Grammar) (h : Spelled x a) (hrank : a.rank ≤ 3)
    (hy : Follows y l) (harrow : NoArrow y) (hc : Stands whole s c (x ++ y)) (c' : Cursor) :
    tellsParams g s c ≠ .ok true c' := by
  obtain ⟨hd, z, hhead, rfl, hz⟩ := h.exists_head hrank
  obtain ⟨l', hz'⟩ := hz.follows hy
  rw [List.append_assoc] at hc
  cases hhead with
  | name hw hws =>
    have hword := nextIs_name hw hz' hc
    have hnone := tellsNone_dotted hws hz' (hz.noArrow harrow) hword.next.toStands
    exact tellsParams_of_word g hword.lexeme hnone c'
  | operator op hx hr =>
    have hword := nextIs_operator op hc
    have hfirst := first_token hx (Nat.le_trans hr (by decide)) hz' hword.next.of_space
    refine tellsParams_of_word g hword.lexeme (tellsNone_of_first ?_) c'
    exact hfirst.imp id fun ⟨w, hw, _⟩ => ⟨w, hw⟩
  | paren => exact tellsParams_of_mark g (nextIs_paren hc).lexeme c'

theorem parameterModifier_of_mark (h : c.token.lexeme = .mark "(") :
    parameterModifier s c = .ok false c :=
  parameterModifier_of_not_word fun v _ => Token.isWord_of_mark h v

/-- A `readonly` in front of a word is a modifier, and in front of a parenthesis it is not. -/
theorem parameterModifier_of_readonly (h : c.token.lexeme = .word "readonly" false)
    (hnext : (Cursor.advance s c).token.lexeme = .mark "(" ∨
      ∃ w, (Cursor.advance s c).token.lexeme = .word w false) :
    parameterModifier s c = .ok false c ∨
      parameterModifier s c = .ok true (Cursor.advance s c) := by
  have hany : ["public", "protected", "private", "readonly"].any c.token.isWord = true := by
    rw [List.any_eq_true]
    exact ⟨"readonly", by decide, by rw [Token.isWord_of_word h]; decide⟩
  unfold parameterModifier
  rw [bind_of_ok token_eq, bind_of_ok second_eq, hany, Bool.true_and]
  rcases hnext with hnext | ⟨w, hnext⟩
  · left
    rw [if_neg]
    · rfl
    · simp [Token.word?, Token.isMarkIn, hnext]
  · right
    have hword : c.token.word? = some "readonly" := by
      unfold Token.word?
      rw [h]
    -- a word may follow a modifier, so `readonly` is taken
    have hfollows : followsModifier (Cursor.advance s c).token = true := by
      unfold followsModifier
      rw [hnext]
    have hmodifier : modifier ["public", "protected", "private", "readonly"] s c =
        .ok (some "readonly") (Cursor.advance s c) := by
      unfold modifier
      rw [bind_of_ok token_eq, hword]
      simp only
      rw [bind_of_ok second_eq, hfollows, if_pos (by decide), bind_of_ok (take_of_word h)]
      rfl
    rw [if_pos]
    · rw [bind_of_ok hmodifier]
      rfl
    · simp [Token.word?, hnext]

/-- In parentheses a type is not taken for parameters. -/
theorem opensNoParams_of_spelled (h : Spelled x a) : OpensNoParams x := by
  intro g whole s c y l hy harrow hc c'
  by_cases hrank : a.rank ≤ 3
  · have hfirst := first_token h hrank hy hc
    have hmark : c.token.isMarkIn [")", "..."] = false := by
      rcases hfirst with hfirst | ⟨w, hfirst, _⟩
      · rw [Token.isMarkIn_of_mark hfirst]
        decide
      · exact Token.isMarkIn_of_word hfirst _
    have hparams := tellsParams_of_spelled g h hrank hy harrow hc c'
    unfold insideParams
    rw [bind_of_ok (isMarkIn_eq _), hmark, if_neg Bool.false_ne_true]
    obtain ⟨hd, z, hhead, rfl, hz⟩ := h.exists_head hrank
    obtain ⟨l', hz'⟩ := hz.follows hy
    rw [List.append_assoc] at hc
    cases hhead with
    | name hw hws =>
      have hword := nextIs_name hw hz' hc
      rw [bind_of_ok (parameterModifier_of_word hword.lexeme (not_modifier_of_isPlainWord hw))]
      exact hparams
    | operator op hx hr =>
      have hword := nextIs_operator op hc
      have hr' := Nat.le_trans hr (by decide : 1 ≤ 3)
      have hnext : (Cursor.advance s c).token.lexeme = .mark "(" ∨
          ∃ w, (Cursor.advance s c).token.lexeme = .word w false :=
        (first_token hx hr' hz' hword.next.of_space).imp id fun ⟨w, hw, _⟩ => ⟨w, hw⟩
      -- only `readonly` may be taken for a modifier of a parameter
      cases op with
      | keyof | unique =>
        rw [bind_of_ok (parameterModifier_of_word hword.lexeme (by decide))]
        exact hparams
      | readonly =>
        rcases parameterModifier_of_readonly hword.lexeme hnext with hmodifier | hmodifier
        · rw [bind_of_ok hmodifier]
          exact hparams
        · rw [bind_of_ok hmodifier]
          exact tellsParams_of_spelled g hx hr' hz' (hz.noArrow harrow) hword.next.of_space c'
    | paren =>
      rw [bind_of_ok (parameterModifier_of_mark (nextIs_paren hc).lexeme)]
      exact hparams
  · cases h with
    | written h => exact h.opensNoParams g whole s c y l hy harrow hc c'
    | name | array | paren => exact absurd (Nat.zero_le 3) hrank
    | operator => exact absurd (by decide : 1 ≤ 3) hrank
    | joined j => exact absurd j.rank_le hrank

theorem opensAngle_eq : opensAngle s c = .ok (c.token.isMarkIn ["<", "<<"]) c := rfl

/-- No word stands behind a name. -/
theorem ne_word_dotted {ws : List (List Char)} (hws : ∀ w ∈ ws, isWordText w = true)
    (hy : Follows y l) (hc : Stands whole s c (dotted ws ++ y)) (w : String) (escaped : Bool) :
    c.token.lexeme ≠ .word w escaped := by
  cases ws with
  | nil =>
    have hmem := hy.lexeme_mem
    rw [(hy.token hc).1]
    rintro rfl
    simp at hmem
  | cons v ws =>
    have heq : dotted (v :: ws) ++ y = '.' :: (v ++ (dotted ws ++ y)) := by simp [dotted]
    rw [heq] at hc
    rw [(hc.dot (hws v List.mem_cons_self)).lexeme]
    simp

theorem isWord_dotted {ws : List (List Char)} (hws : ∀ w ∈ ws, isWordText w = true)
    (hy : Follows y l) (hc : Stands whole s c (dotted ws ++ y)) (w : String) :
    c.token.isWord w = false :=
  decide_eq_false (ne_word_dotted hws hy hc w false)

/-- A type in parentheses is no list of parameters. -/
theorem startsParams_of_spelled (g : Grammar) (h : Spelled x a)
    (hc : NextIs whole s c (.mark "(") ['('] (x ++ (')' :: y))) (hy : Follows y l) :
    startsParams g s c = .ok false c := by
  rw [startsParams_eq]
  refine aheadTrue_eq_false fun c' => ?_
  rw [bind_of_ok (expect_of_mark hc.lexeme)]
  refine opensNoParams_of_spelled h g whole s _ _ _ (.close y) (fun y' heq => ?_) hc.next.toStands
    c'
  obtain rfl : y = y' := List.cons_inj_right _ |>.mp heq
  exact ⟨l, hy⟩

/-- What starts a function type does not stand where another type is spelled. -/
theorem startsFunction_of_spelled (g : Grammar) (h : Spelled x a) (hrank : a.rank ≤ 3)
    (hy : Follows y l) (hc : Stands whole s c (x ++ y)) :
    (∃ b, startsParams g s c = .ok b c ∧ (c.token.isMark "(" && b) = false) ∧
      (c.token.isWord "abstract" && (Cursor.advance s c).token.isWord "new") = false := by
  obtain ⟨b, hb⟩ := exists_aheadTrue (do expect "("; insideParams g) s c
  rw [← startsParams_eq] at hb
  obtain ⟨hd, z, hhead, rfl, hz⟩ := h.exists_head hrank
  obtain ⟨l', hz'⟩ := hz.follows hy
  rw [List.append_assoc] at hc
  cases hhead with
  | name hw hws =>
    have hword := nextIs_name hw hz' hc
    refine ⟨⟨b, hb, ?_⟩, by rw [isWord_dotted hws hz' hword.next.toStands, Bool.and_false]⟩
    rw [Token.isMark_of_word hword.lexeme, Bool.false_and]
  | operator op hx hr =>
    have hlexeme := (nextIs_operator op hc).lexeme
    refine ⟨⟨b, hb, ?_⟩, ?_⟩
    · rw [Token.isMark_of_word hlexeme, Bool.false_and]
    · have habstract : c.token.isWord "abstract" = false := by
        rw [Token.isWord_of_word hlexeme]
        cases op <;> decide
      rw [habstract, Bool.false_and]
  | paren hx =>
    have hopen := nextIs_paren hc
    refine ⟨⟨false, startsParams_of_spelled g hx hopen hz', Bool.and_false _⟩, ?_⟩
    rw [Token.isWord_of_mark hopen.lexeme, Bool.false_and]

/-- What starts as a type other than a function is read as a union. -/
theorem plainType_of_spelled (g : Grammar) (h : Spelled x a) (hrank : a.rank ≤ 3)
    (hy : Follows y l) (hc : Stands whole s c (x ++ y)) : plainType g s c = unionType g s c := by
  have hangle : c.token.isMarkIn ["<", "<<"] = false ∧ c.token.isWord "new" = false := by
    rcases first_token h hrank hy hc with hfirst | ⟨w, hfirst, hw⟩
    · rw [Token.isMarkIn_of_mark hfirst, Token.isWord_of_mark hfirst]
      exact ⟨by decide, rfl⟩
    · rw [Token.isMarkIn_of_word hfirst, Token.isWord_of_word hfirst, decide_eq_false_iff_not]
      refine ⟨rfl, ?_⟩
      rintro rfl
      cases hw
  obtain ⟨⟨b, hparams, hmark⟩, habstract⟩ := startsFunction_of_spelled g h hrank hy hc
  unfold plainType
  rw [bind_of_ok start_eq, bind_of_ok token_eq, bind_of_ok opensAngle_eq, bind_of_ok hparams,
    hangle.1, hmark, Bool.false_or, if_neg Bool.false_ne_true, hangle.2, if_neg Bool.false_ne_true,
    bind_of_ok second_eq, habstract, if_neg Bool.false_ne_true]

end

end Read

end ElementManifest.TypeScript

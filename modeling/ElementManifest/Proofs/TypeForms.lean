import ElementManifest.Proofs.TypeTokens

/-!
# Forms of types

The form of a type is what it is built of: names, arrays, unions and intersections, operators,
and what is kept as it is written. Two types are the same up to parentheses that tell nothing
new, and up to unions in unions and intersections in intersections, if they have one normal
form (`TypeForm.normal`).

Brackets behind an operator belong to what the operator stands in front of. So an array of an
operator type that is written without parentheses is read in another way (`TypeForm.asRead`).
That happens to these arrays, and to nothing else (`TypeForm.asRead_normal_iff`).
-/

namespace ElementManifest.TypeScript

/-- What joins the branches of a union or an intersection. -/
inductive Joint
  | bar
  | ampersand
  deriving DecidableEq, Repr

/-- How a joint is written. -/
def Joint.char : Joint → Char
  | bar => '|'
  | ampersand => '&'

/-- What a type is built of. -/
inductive TypeForm
  | name (text : String)
  | array (elem : TypeForm)
  | joined (joint : Joint) (first rest : TypeForm)
  | operator (op : TypeOperator) (inner : TypeForm)
  | paren (inner : TypeForm)
  | written (text : String)
  deriving DecidableEq, Repr

namespace TypeForm

/-! ## Normal forms -/

/-- Two types joined. The branches of the first one become branches of the whole. -/
def join (j : Joint) : TypeForm → TypeForm → TypeForm
  | joined j' first rest, more =>
    if j' = j then joined j first (join j rest more) else joined j (joined j' first rest) more
  | form, more => joined j form more

/-- A form without parentheses, where no branch of a union is a union in front of others, and
no branch of an intersection is an intersection. -/
def normal : TypeForm → TypeForm
  | name text => name text
  | array elem => array elem.normal
  | joined j first rest => join j first.normal rest.normal
  | operator op inner => operator op inner.normal
  | paren inner => inner.normal
  | written text => written text

theorem join_joined (j : Joint) (first rest more : TypeForm) :
    join j (joined j first rest) more = joined j first (join j rest more) := by
  rw [join, if_pos rfl]

theorem join_assoc (j : Joint) (a b c : TypeForm) :
    join j (join j a b) c = join j a (join j b c) := by
  induction a with
  | name | array | operator | paren | written => exact join_joined j _ b c
  | joined j' first rest _ ih =>
    rw [join, join]
    split
    next => rw [join_joined, ih]
    next => rw [join_joined]

/-! ### Branches -/

/-- How many branches a form has that are joined by `j`. -/
def branchCount (j : Joint) : TypeForm → Nat
  | joined j' _ rest => if j' = j then branchCount j rest + 1 else 1
  | _ => 1

theorem branchCount_pos (j : Joint) (a : TypeForm) : 0 < a.branchCount j := by
  cases a with
  | name | array | operator | paren | written => exact Nat.one_pos
  | joined =>
    rw [branchCount]
    split
    · exact Nat.succ_pos _
    · exact Nat.one_pos

theorem branchCount_joined (j : Joint) (a b : TypeForm) :
    (joined j a b).branchCount j = b.branchCount j + 1 := by
  rw [branchCount, if_pos rfl]

theorem branchCount_joined_ne {j j' : Joint} (hne : j ≠ j') (a b : TypeForm) :
    (joined j a b).branchCount j' = 1 := by
  rw [branchCount, if_neg hne]

theorem branchCount_join (j : Joint) (a b : TypeForm) :
    (join j a b).branchCount j = a.branchCount j + b.branchCount j := by
  induction a with
  | name | array | operator | paren | written =>
    exact (branchCount_joined j _ b).trans (Nat.add_comm _ 1)
  | joined j' first rest _ ih =>
    rw [join, branchCount]
    split
    next => rw [branchCount_joined, ih, Nat.add_right_comm]
    next => rw [branchCount_joined, Nat.add_comm]

theorem branchCount_join_ne {j j' : Joint} (hne : j ≠ j') (a b : TypeForm) :
    (join j a b).branchCount j' = 1 := by
  cases a with
  | name | array | operator | paren | written => exact branchCount_joined_ne hne _ b
  | joined =>
    rw [join]
    split
    · exact branchCount_joined_ne hne _ _
    · exact branchCount_joined_ne hne _ _

/-- A form with branches is a joined one. -/
theorem exists_joined {j : Joint} {a : TypeForm} (h : 1 < a.branchCount j) :
    ∃ first rest, a = joined j first rest := by
  cases a with
  | name | array | operator | paren | written => exact absurd h (Nat.lt_irrefl 1)
  | joined j' first rest =>
    rw [branchCount] at h
    split at h
    next hj => exact ⟨first, rest, by rw [hj]⟩
    next => exact absurd h (Nat.lt_irrefl 1)

theorem join_of_branchCount {j : Joint} {a : TypeForm} (h : a.branchCount j = 1) (b : TypeForm) :
    join j a b = joined j a b := by
  cases a with
  | name | array | operator | paren | written => rfl
  | joined j' first rest =>
    rw [join, if_neg]
    rintro rfl
    have hpos := rest.branchCount_pos j'
    rw [branchCount_joined] at h
    omega

/-- Joined types of as many branches are the same only if their parts are. -/
theorem join_inj {j : Joint} {a a' b b' : TypeForm} (hcount : a.branchCount j = a'.branchCount j)
    (h : join j a b = join j a' b') : a = a' ∧ b = b' := by
  induction a generalizing a' with
  | name | array | operator | paren | written =>
    rw [join_of_branchCount rfl, join_of_branchCount hcount.symm] at h
    injection h with _ ha hb
    exact ⟨ha, hb⟩
  | joined j' first rest _ ih =>
    by_cases hj : j' = j
    · subst hj
      rw [branchCount_joined] at hcount
      have hmore : 1 < a'.branchCount j' := by
        have hpos := rest.branchCount_pos j'
        omega
      obtain ⟨first', rest', rfl⟩ := exists_joined hmore
      rw [branchCount_joined, Nat.add_right_cancel_iff] at hcount
      rw [join_joined, join_joined] at h
      injection h with _ hfirst hrest
      obtain ⟨hrest, hb⟩ := ih hcount hrest
      exact ⟨by rw [hfirst, hrest], hb⟩
    · rw [branchCount_joined_ne hj] at hcount
      rw [join_of_branchCount (branchCount_joined_ne hj _ _), join_of_branchCount hcount.symm] at h
      injection h with _ ha hb
      exact ⟨ha, hb⟩

/-! ## What is read from a text without parentheses -/

/-- A type with brackets behind it. They belong to what its operators stand in front of. -/
def bracketed : TypeForm → TypeForm
  | operator op inner => operator op inner.bracketed
  | form => array form

/-- What is read when no array has parentheses put around its element for an operator. -/
def asRead : TypeForm → TypeForm
  | name text => name text
  | array elem => elem.asRead.bracketed
  | joined j first rest => joined j first.asRead rest.asRead
  | operator op inner => operator op inner.asRead
  | paren inner => paren inner.asRead
  | written text => written text

/-- Whether a type is an operator in front of another one, without parentheses around. -/
def isOperator : TypeForm → Bool
  | operator _ _ => true
  | _ => false

/-- Whether operators stand in no array without parentheses. -/
def closesArrays : TypeForm → Bool
  | name _ => true
  | array elem => !elem.isOperator && elem.closesArrays
  | joined _ first rest => first.closesArrays && rest.closesArrays
  | operator _ inner => inner.closesArrays
  | paren inner => inner.closesArrays
  | written _ => true

theorem bracketed_of_not {a : TypeForm} (h : a.isOperator = false) : a.bracketed = array a := by
  cases a with
  | operator => cases h
  | name | array | joined | paren | written => rfl

theorem asRead_of_closesArrays {a : TypeForm} (h : a.closesArrays = true) : a.asRead = a := by
  induction a with
  | name | written => rfl
  | array elem ih =>
    rw [closesArrays, Bool.and_eq_true, Bool.not_eq_true'] at h
    rw [asRead, ih h.2, bracketed_of_not h.1]
  | joined j first rest ih ih' =>
    rw [closesArrays, Bool.and_eq_true] at h
    rw [asRead, ih h.1, ih' h.2]
  | operator op inner ih => rw [asRead, ih h]
  | paren inner ih => rw [asRead, ih h]

theorem branchCount_bracketed (j : Joint) (a : TypeForm) :
    a.bracketed.normal.branchCount j = 1 := by
  cases a with
  | name | array | joined | operator | paren | written => rfl

/-- A type is read with the branches that it has. -/
theorem branchCount_asRead (j : Joint) (a : TypeForm) :
    a.asRead.normal.branchCount j = a.normal.branchCount j := by
  induction a with
  | name | operator | written => rfl
  | array elem => exact branchCount_bracketed j elem.asRead
  | paren inner ih => exact ih
  | joined j' first rest ih ih' =>
    rw [asRead, normal, normal]
    by_cases hj : j' = j
    · subst hj
      rw [branchCount_join, branchCount_join, ih, ih']
    · rw [branchCount_join_ne hj, branchCount_join_ne hj]

/-- Exactly the types are read as they are meant that close their arrays. -/
theorem asRead_normal_iff (a : TypeForm) :
    a.asRead.normal = a.normal ↔ a.closesArrays = true := by
  refine ⟨fun h => ?_, fun h => by rw [asRead_of_closesArrays h]⟩
  induction a with
  | name | written => rfl
  | array elem ih =>
    rw [asRead, normal] at h
    have hread : elem.asRead.isOperator = false := by
      cases helem : elem.asRead with
      | operator =>
        -- then an operator is read where an array was meant
        rw [helem] at h
        cases h
      | name | array | joined | paren | written => rfl
    have hop : elem.isOperator = false := by
      cases elem with
      | operator => cases hread
      | name | array | joined | paren | written => rfl
    rw [bracketed_of_not hread, normal] at h
    injection h with h
    rw [closesArrays, hop, ih h]
    rfl
  | joined j first rest ih ih' =>
    obtain ⟨hfirst, hrest⟩ := join_inj (branchCount_asRead j first) h
    rw [closesArrays, ih hfirst, ih' hrest]
    rfl
  | operator op inner ih =>
    injection h with _ h
    exact ih h
  | paren inner ih => exact ih h

/-! ## Brackets -/

/-- A type with `n` pairs of brackets behind it. -/
def arrays (form : TypeForm) : Nat → TypeForm
  | 0 => form
  | n + 1 => array (form.arrays n)

theorem arrays_array (form : TypeForm) (n : Nat) : form.array.arrays n = array (form.arrays n) := by
  induction n with
  | zero => rfl
  | succ n ih => rw [arrays, ih, arrays]

end TypeForm

/-! ## Types that are read -/

mutual

/-- The normal form of a type that is read from a source, if it has one. A reference has no
arguments there. -/
def formOf (s : Source) : TypeNode → Option TypeForm
  | .keyword span _ => some (.name (s.textOf span))
  | .reference _ name [] => some (.name name.text)
  | .array _ elem => (formOf s elem).map .array
  | .union _ branches => formOfAll s .bar branches
  | .intersection _ branches => formOfAll s .ampersand branches
  | .paren _ inner => formOf s inner
  | .operator _ op inner => (formOf s inner).map (.operator op)
  | .other span _ => some (.written (s.textOf span))
  | _ => none

/-- The normal form of types that are joined. -/
def formOfAll (s : Source) (j : Joint) : List TypeNode → Option TypeForm
  | [] => none
  | [t] => formOf s t
  | t :: ts => (formOf s t).bind fun first => (formOfAll s j ts).map (first.join j)

end

/-- The place of a type that is a text of its own. -/
def typeSettings (size : Nat) : Settings :=
  { SourceKind.typescript.settings size with inType := true }

/-- A text read as a type of its own; `none` when it is malformed, or more than a type. -/
def readType (text : String) : Option TypeNode :=
  let chars := text.toList
  let size := byteCount chars
  match Read.type (grammar (32 * (size + 2))) (typeSettings size)
    ⟨scan true true 0 false chars, 0, []⟩ with
  | .ok t last => if last.token.lexeme = .finish then some t else none
  | .failed _ => none

/-- The normal form of the type that a text is. -/
def readForm (text : String) : Option TypeForm :=
  (readType text).bind (formOf ⟨text.toList, [], []⟩)

end ElementManifest.TypeScript

import ElementManifest.Proofs.SpelledTypes

/-!
# Reading what is spelled

The text of a type, read again, is the type that it spells, up to its normal form. The readers
nest like the ranks do: operands are read in intersections, these in unions, and in parentheses
all begins again with a shorter text.

> `Spelled.reads`: a text is read as what it spells, wherever a type may end behind it.

> `Spelled.readForm_eq`: a text that is read by itself has the form that it spells.
-/

namespace ElementManifest.TypeScript

namespace Read

open ElementManifest.Text

/-! ## Parentheses -/

section

variable {whole x y : List Char} {form : TypeForm} {l : Lexeme} {s : Settings} {c : Cursor}

/-- The place inside of brackets. -/
def inBrackets (s : Settings) : Settings :=
  { s with inType := true, conditionalTypes := true }

theorem enclosed_eq {α : Type} (p : Read α) : enclosed p s c = p (inBrackets s) c := rfl

theorem stands_inBrackets (h : Stands whole s c x) : Stands whole (inBrackets s) c x :=
  h.of_settings rfl rfl

theorem rests_of_inBrackets (h : Rests whole (inBrackets s) c x) (hs : s.inType = true) :
    Rests whole s c x :=
  h.of_settings rfl hs

/-- A type is no conditional one in front of what follows a type. -/
theorem takes_type {n : Nat} (hy : Follows y l) (hs : s.inType = true)
    (h : Takes whole (plainType (grammar n)) { s with inType := true } c form y) :
    Takes whole (type (grammar (n + 1))) s c form y := by
  obtain ⟨t, c', hread, hform, hc'⟩ := h
  refine ⟨t, c', ?_, hform, hc'.of_settings rfl hs⟩
  have hread' : (grammar (n + 1)).plainType { s with inType := true } c = .ok t c' := hread
  have hextends : eatWord "extends" { s with inType := true } c' = .ok false c' :=
    eatWord_of_ne (isWord_of_follows hy hc'.toStands "extends")
  unfold type inType withSettings
  rw [bind_of_ok start_eq, bind_of_ok hread', bind_of_ok newline_eq, (hy.token hc'.toStands).2,
    bind_of_ok settings_eq]
  split
  next => rfl
  next =>
    rw [bind_of_ok hextends]
    rfl

/-- In brackets a type is read that may be conditional. -/
theorem takes_enclosed {n : Nat} (hy : Follows y l) (hc : Stands whole s c (x ++ y))
    (h : Takes whole (plainType (grammar n)) (inBrackets s) c form y) :
    Takes whole (enclosed (grammar (n + 2)).type) s c form y := by
  obtain ⟨t, c', hread, hform, hc'⟩ := takes_type (s := inBrackets s) hy rfl h
  exact ⟨t, c', hread, hform, rests_of_inBrackets hc' hc.inType⟩

/-- How a type in parentheses is read. -/
def parenType (g : Grammar) : Read TypeNode := do
  let lo ← start
  let _ ← take
  let inner ← enclosed g.type
  expect ")"
  return .paren (← spanFrom lo) inner

theorem simpleType_of_open (g : Grammar) (h : c.token.lexeme = .mark "(") :
    simpleType g s c = parenType g s c := by
  unfold simpleType parenType
  rw [bind_of_ok start_eq, bind_of_ok token_eq, bind_of_ok start_eq, h]
  rfl

/-- In parentheses a whole type is read. -/
theorem takes_paren {g : Grammar} (hopen : NextIs whole s c (.mark "(") ['('] (x ++ (')' :: y)))
    (hinner : Takes whole (enclosed g.type) s (Cursor.advance s c) form (')' :: y)) :
    Takes whole (simpleType g) s c form y := by
  obtain ⟨t, c', hread, hform, hstands⟩ := hinner
  have hclose : NextIs whole s c' (.mark ")") [')'] y := hstands.bracket (by decide)
  refine ⟨.paren ⟨c.token.span.lo, (Cursor.advance s c').stop⟩ t, Cursor.advance s c', ?_,
    by rw [formOf, hform], hclose.next⟩
  rw [simpleType_of_open _ hopen.lexeme]
  unfold parenType
  rw [bind_of_ok start_eq, bind_of_ok (take_of_mark hopen.lexeme), bind_of_ok hread,
    bind_of_ok (expect_of_mark hclose.lexeme), bind_of_ok (spanFrom_eq _)]
  rfl

end

/-! ## Joined types -/

/-- The node of joined types. -/
def nodeOf : Joint → Span → List TypeNode → TypeNode
  | .bar => .union
  | .ampersand => .intersection

theorem formOf_nodeOf (src : Source) (j : Joint) (span : Span) (ts : List TypeNode) :
    formOf src (nodeOf j span ts) = formOfAll src j ts := by
  cases j with
  | bar | ampersand => rw [nodeOf, formOf]

/-- Texts with the joint `j` between them, where each one is a part. Their normal forms are
joined. -/
inductive Chain (j : Joint) (Part : List Char → TypeForm → Prop) : List Char → TypeForm → Prop
  | one {x : List Char} {a : TypeForm} (h : Part x a) : Chain j Part x a.normal
  | more {x y : List Char} {a form : TypeForm} (h : Part x a) (rest : Chain j Part y form) :
    Chain j Part (x ++ ' ' :: j.char :: ' ' :: y) (a.normal.join j form)

theorem Chain.append {j : Joint} {Part : List Char → TypeForm → Prop} {x y : List Char}
    {form form' : TypeForm} (hx : Chain j Part x form) (hy : Chain j Part y form') :
    Chain j Part (x ++ ' ' :: j.char :: ' ' :: y) (form.join j form') := by
  induction hx with
  | one h => exact .more h hy
  | @more x z a form h _ ih =>
    rw [TypeForm.join_assoc, List.append_assoc]
    exact .more h ih

/-- One more type behind a mark. -/
def moreJoined (m : String) (p : Read TypeNode) : Read (Option TypeNode) := do
  if ← eat m then return some (← p)
  return none

section

variable {whole x y : List Char} {form : TypeForm} {l : Lexeme} {s : Settings} {c : Cursor}

theorem moreJoined_of_ne {m : String} (p : Read TypeNode) (h : c.token.lexeme ≠ .mark m) :
    moreJoined m p s c = .ok none c := by
  unfold moreJoined
  rw [bind_of_ok (eat_of_ne h), if_neg Bool.false_ne_true]
  rfl

theorem moreJoined_of_mark {m : String} {p : Read TypeNode} {t : TypeNode} {c' : Cursor}
    (h : c.token.lexeme = .mark m) (hp : p s (Cursor.advance s c) = .ok t c') :
    moreJoined m p s c = .ok (some t) c' := by
  unfold moreJoined
  rw [bind_of_ok (eat_of_mark h), if_pos rfl, bind_of_ok hp]
  rfl

theorem formOfAll_cons {src : Source} {j : Joint} {t : TypeNode} {ts : List TypeNode}
    {first rest : TypeForm} (ht : formOf src t = some first)
    (hts : formOfAll src j ts = some rest) :
    formOfAll src j (t :: ts) = some (first.join j rest) := by
  cases ts with
  | nil => cases hts
  | cons u us =>
    rw [formOfAll, ht, hts]
    · rfl
    · nofun

theorem upTo_of_none {α : Type} {step : Read (Option α)} (h : step s c = .ok none c) (n : Nat) :
    upTo step n s c = .ok [] c := by
  cases n with
  | zero => rfl
  | succ n =>
    rw [upTo, bind_of_ok h]
    rfl

theorem upTo_of_some {α : Type} {step : Read (Option α)} {a : α} {as : List α} {c' c'' : Cursor}
    {n : Nat} (h : step s c = .ok (some a) c') (hrest : upTo step n s c' = .ok as c'') :
    upTo step (n + 1) s c = .ok (a :: as) c'' := by
  rw [upTo, bind_of_ok h]
  simp only
  rw [bind_of_ok hrest]
  rfl

/-- The parts of a chain are read one behind the other. -/
theorem upTo_chain {j : Joint} {Part : List Char → TypeForm → Prop} {p : Grammar → Read TypeNode}
    {ends : List Lexeme} {n m : Nat} (hchain : Chain j Part x form)
    (hparts : ∀ z a, Part z a → z.length ≤ x.length →
      ReadsAs p (.mark (String.singleton j.char) :: ends) z a.normal)
    (hy : Follows y l) (hl : l ∈ ends) (hne : .mark (String.singleton j.char) ∉ ends)
    (hn : 2 * x.length ≤ n) (hm : x.length ≤ m)
    (hc : Stands whole s c (' ' :: j.char :: ' ' :: (x ++ y))) :
    ∃ ts c', upTo (moreJoined (String.singleton j.char) (p (grammar n))) (m + 1) s c = .ok ts c' ∧
      formOfAll ⟨whole, [], []⟩ j ts = some form ∧ Rests whole s c' y := by
  induction hchain generalizing c m with
  | @one x a h =>
    have hmark := hc.of_space.joint j.char_mem
    obtain ⟨t, c', hread, hform, hc'⟩ := hparts x a h (Nat.le_refl _) whole s _ y l n hy
      (List.mem_cons_of_mem _ hl) hmark.next.of_space hn
    have hend : c'.token.lexeme ≠ .mark (String.singleton j.char) := by
      rw [(hy.token hc'.toStands).1]
      rintro rfl
      exact hne hl
    exact ⟨[t], c', upTo_of_some (moreJoined_of_mark hmark.lexeme hread)
      (upTo_of_none (moreJoined_of_ne _ hend) m), by rw [formOfAll, hform], hc'⟩
  | @more x z a form h _ ih =>
    simp only [List.length_append, List.length_cons] at hparts hn hm
    rw [List.append_assoc] at hc
    have hmark := hc.of_space.joint j.char_mem
    obtain ⟨t, c', hread, hform, hc'⟩ := hparts x a h (by omega) whole s _
      (' ' :: j.char :: ' ' :: (z ++ y)) _ n (.joint j.char_mem _) List.mem_cons_self
      hmark.next.of_space (by omega)
    obtain ⟨m, rfl⟩ : ∃ k, m = k + 1 := ⟨m - 1, by omega⟩
    obtain ⟨ts, c'', hrest, hforms, hc''⟩ := ih (m := m)
      (fun z' a' h' hlength => hparts z' a' h' (by omega)) (by omega) (by omega) hc'.toStands
    exact ⟨t :: ts, c'', upTo_of_some (moreJoined_of_mark hmark.lexeme hread) hrest,
      formOfAll_cons hform hforms, hc''⟩

theorem separated_of_many {m : String} {p : Read TypeNode} {t : TypeNode} {ts : List TypeNode}
    {c' c'' : Cursor} (h : p s c = .ok t c') (hmany : many (moreJoined m p) s c' = .ok ts c'') :
    separated m p s c = .ok (t :: ts) c'' := by
  have heq : separated m p = (do
      let first ← p
      let others ← many (moreJoined m p)
      return first :: others) := rfl
  rw [heq, bind_of_ok h, bind_of_ok hmany]
  rfl

/-- A chain of parts is read as joined types, or as its only part. -/
theorem readsAs_chain {j : Joint} {Part : List Char → TypeForm → Prop}
    {p : Grammar → Read TypeNode} {ends : List Lexeme} (hchain : Chain j Part x form)
    (hparts : ∀ z a, Part z a → z.length ≤ x.length →
      ReadsAs p (.mark (String.singleton j.char) :: ends) z a.normal)
    (hne : .mark (String.singleton j.char) ∉ ends)
    (hfirst : ∀ whole s c y l, Follows y l → Stands whole s c (x ++ y) →
      c.token.lexeme ≠ .mark (String.singleton j.char)) :
    ReadsAs (fun g => joinedTypes (String.singleton j.char) (nodeOf j) (p g)) ends x form := by
  intro whole s c y l n hy hl hc hn
  have heat := eat_of_ne (s := s) (hfirst whole s c y l hy hc)
  show Takes whole (joinedTypes (String.singleton j.char) (nodeOf j) (p (grammar n))) s c form y
  cases hchain with
  | one h =>
    obtain ⟨t, c', hread, hform, hc'⟩ := hparts x _ h (Nat.le_refl _) whole s c y l n hy
      (List.mem_cons_of_mem _ hl) hc hn
    have hend : c'.token.lexeme ≠ .mark (String.singleton j.char) := by
      rw [(hy.token hc'.toStands).1]
      rintro rfl
      exact hne hl
    have hmany : many (moreJoined (String.singleton j.char) (p (grammar n))) s c' = .ok [] c' :=
      upTo_of_none (moreJoined_of_ne _ hend) _
    refine ⟨t, c', ?_, hform, hc'⟩
    unfold joinedTypes
    rw [bind_of_ok start_eq, bind_of_ok heat, bind_of_ok (separated_of_many hread hmany)]
    rfl
  | @more x z a form h hrest =>
    simp only [List.length_append, List.length_cons] at hparts hn
    rw [List.append_assoc] at hc
    obtain ⟨t, c', hread, hform, hc'⟩ := hparts x a h (by omega) whole s c
      (' ' :: j.char :: ' ' :: (z ++ y)) _ n (.joint j.char_mem _) List.mem_cons_self hc
      (by omega)
    have hmark := hc'.of_space.joint j.char_mem
    -- each part takes bytes of the text, so the room is enough for all of them
    have hroom : z.length ≤ s.size - c'.token.span.lo + 1 := by
      have hbytes := length_le_byteCount ([j.char] ++ ' ' :: (z ++ y))
      rw [← hmark.start] at hbytes
      simp only [List.length_append, List.length_cons, List.length_nil] at hbytes
      omega
    have hn' : 2 * z.length ≤ n := by omega
    obtain ⟨ts, c'', hmany, hforms, hc''⟩ := upTo_chain hrest
      (fun z' a' h' hlength => hparts z' a' h' (by omega)) hy hl hne hn' hroom hc'.toStands
    refine ⟨nodeOf j ⟨c.token.span.lo, c''.stop⟩ (t :: ts), c'', ?_, ?_, hc''⟩
    · unfold joinedTypes
      rw [bind_of_ok start_eq, bind_of_ok heat, bind_of_ok (separated_of_many hread hmany)]
      cases ts with
      | nil => cases hforms
      | cons u us => rfl
    · rw [formOf_nodeOf]
      exact formOfAll_cons hform hforms

end

/-! ## Operands -/

theorem ne_leading_of_isPlainWord {w : List Char} (hw : isPlainWord w = true) :
    ∀ v ∈ ["keyof", "unique", "readonly", "infer"],
      Lexeme.word (String.ofList w) false ≠ .word v false := by
  intro v hv heq
  injection heq with heq
  have hsub : ∀ v ∈ ["keyof", "unique", "readonly", "infer"], v ∈ leadingWords := by decide
  have hleading := List.contains_iff_mem.mpr (hsub v hv)
  simp only [isPlainWord, Bool.and_eq_true, Bool.not_eq_true'] at hw
  rw [heq, hleading] at hw
  cases hw.2

/-- All shorter texts are read as types. -/
def ShorterRead (m : Nat) : Prop :=
  ∀ x a, x.length < m → Spelled x a → ReadsAs plainType typeEnds x a.normal

section

variable {whole x y : List Char} {a : TypeForm} {l : Lexeme} {s : Settings} {c : Cursor}
  {m n : Nat}

/-- In parentheses a shorter text is read. -/
theorem takes_parenthesized (hshort : ShorterRead m) (h : Spelled x a) (hm : x.length + 2 ≤ m)
    (hn : 2 * (x.length + 2) ≤ n)
    (hopen : NextIs whole s c (.mark "(") ['('] (x ++ (')' :: y))) :
    Takes whole (simpleType (grammar n)) s c a.normal y := by
  obtain ⟨n, rfl⟩ : ∃ k, n = k + 2 := ⟨n - 2, by omega⟩
  have hinner := hshort x a (by omega) h whole (inBrackets s) _ _ _ n (.close y) (by decide)
    (stands_inBrackets hopen.next.toStands) (by omega)
  exact takes_paren hopen (takes_enclosed (.close y) hopen.next.toStands hinner)

/-- A simple type is read with the brackets that go on behind it. -/
theorem takes_simple (hshort : ShorterRead m) (h : Spelled x a) (hrank : a.rank = 0)
    (hm : x.length ≤ m) (hn : 2 * x.length ≤ n) (hy : Follows y l) (hl : l ∈ operandEnds) (k : Nat)
    (hc : Stands whole s c (x ++ (brackets k ++ y))) :
    Takes whole (operandType (grammar n)) s c (a.normal.arrays k) y := by
  have hne : l ≠ .mark "[" := by
    rintro rfl
    exact absurd hl (by decide)
  obtain ⟨l', hy'⟩ := follows_brackets hy k
  -- pairs of brackets are counted on the way in, and read together behind the type
  induction h generalizing k l' with
  | @name w ws hw hws =>
    have hword := nextIs_name hw hy' hc
    have hfirst : ∀ v ∈ ["keyof", "unique", "readonly", "infer"],
        c.token.lexeme ≠ .word v false := by
      rw [hword.lexeme]
      exact ne_leading_of_isPlainWord hw
    rw [List.append_assoc] at hc
    have hsimple := simpleType_name (grammar n) hy' hw hws hc
    obtain ⟨t, c', hread, hform⟩ := takes_postfixType hy hne hsimple
    exact ⟨t, c', (operandType_eq_postfixType _ hfirst).trans hread, hform⟩
  | @array x a _ hrank' ih =>
    rw [List.length_append] at hm hn
    rw [List.append_assoc] at hc
    rw [TypeForm.normal, TypeForm.arrays_array]
    exact ih hrank' (by omega) (by omega) (k + 1) hc _ (.brackets _)
  | @paren x a h =>
    have hopen := nextIs_paren hc
    have hfirst : ∀ v ∈ ["keyof", "unique", "readonly", "infer"],
        c.token.lexeme ≠ .word v false := by
      rw [hopen.lexeme]
      simp
    simp only [List.length_append, List.length_cons, List.length_nil] at hm hn
    have hsimple := takes_parenthesized hshort h hm hn hopen
    obtain ⟨t, c', hread, hform⟩ := takes_postfixType hy hne hsimple
    exact ⟨t, c', (operandType_eq_postfixType _ hfirst).trans hread, hform⟩
  | operator | written => cases hrank
  | joined j => cases j <;> cases hrank

/-- A type with operators in front is read as an operand. -/
theorem reads_operand (hshort : ShorterRead m) (h : Spelled x a) (hrank : a.rank ≤ 1)
    (hm : x.length ≤ m) : ReadsAs operandType operandEnds x a.normal := by
  induction h with
  | name hw hws =>
    intro whole s c y l n hy hl hc hn
    exact takes_simple hshort (.name hw hws) rfl hm hn hy hl 0 hc
  | array h hr =>
    intro whole s c y l n hy hl hc hn
    exact takes_simple hshort (.array h hr) rfl hm hn hy hl 0 hc
  | paren h =>
    intro whole s c y l n hy hl hc hn
    exact takes_simple hshort (.paren h) rfl hm hn hy hl 0 hc
  | @operator x a op h hr ih =>
    intro whole s c y l n hy hl hc hn
    have hword := nextIs_operator op hc
    rw [List.length_append, List.length_cons] at hm hn
    obtain ⟨n, rfl⟩ : ∃ k, n = k + 1 := ⟨n - 1, by omega⟩
    have hinner := ih hr (by omega) whole s _ y l n hy hl hword.next.of_space (by omega)
    exact takes_operator hword.lexeme hinner
  | written => exact absurd hrank (by show ¬4 ≤ 1; decide)
  | joined j => exact absurd (Nat.le_trans j.two_le_rank hrank) (by decide)

end

/-! ## Intersections and unions -/

/-- What is no looser than a joint is a chain of what is tighter. -/
theorem chain_of_spelled {j : Joint} {x : List Char} {a : TypeForm} (h : Spelled x a)
    (hrank : a.rank ≤ j.rank) : Chain j (fun x a => Spelled x a ∧ a.rank < j.rank) x a.normal := by
  have hpos := j.two_le_rank
  induction h with
  | name hw hws => exact .one ⟨.name hw hws, Nat.lt_trans Nat.one_pos hpos⟩
  | array h hr => exact .one ⟨.array h hr, Nat.lt_trans Nat.one_pos hpos⟩
  | paren h => exact .one ⟨.paren h, Nat.lt_trans Nat.one_pos hpos⟩
  | operator op h hr => exact .one ⟨.operator op h hr, hpos⟩
  | written => exact absurd (Nat.le_trans hrank j.rank_le) (by show ¬4 ≤ 3; decide)
  | joined j' ha hb hr hr' ih ih' =>
    by_cases hj : j' = j
    · subst hj
      exact (ih hr).append (ih' hr')
    · have hlt := Nat.lt_of_le_of_ne hrank fun heq => hj (Joint.rank_inj heq)
      exact .one ⟨.joined j' ha hb hr hr', hlt⟩

theorem ReadsAs.mono {p : Grammar → Read TypeNode} {ends ends' : List Lexeme} {x : List Char}
    {form : TypeForm} (h : ReadsAs p ends x form) (hsub : ∀ l ∈ ends', l ∈ ends) :
    ReadsAs p ends' x form :=
  fun whole s c y l n hy hl => h whole s c y l n hy (hsub l hl)

theorem first_ne_joint {x : List Char} {a : TypeForm} (h : Spelled x a) (hrank : a.rank ≤ 3)
    (j : Joint) : ∀ whole s c y l, Follows y l → Stands whole s c (x ++ y) →
      c.token.lexeme ≠ .mark (String.singleton j.char) := by
  intro whole s c y l hy hc
  rcases first_token h hrank hy hc with hfirst | ⟨w, hfirst, _⟩
  · rw [hfirst]
    cases j with
    | bar | ampersand => decide
  · rw [hfirst]
    nofun

/-- The reader of intersections. -/
def intersectionType (g : Grammar) : Read TypeNode :=
  joinedTypes (String.singleton Joint.ampersand.char) (nodeOf .ampersand) (operandType g)

theorem unionType_eq (g : Grammar) :
    unionType g =
      joinedTypes (String.singleton Joint.bar.char) (nodeOf .bar) (intersectionType g) := rfl

section

variable {x : List Char} {a : TypeForm} {m : Nat}

theorem reads_intersection (hshort : ShorterRead m) (h : Spelled x a) (hrank : a.rank ≤ 2)
    (hm : x.length ≤ m) : ReadsAs intersectionType intersectionEnds x a.normal := by
  refine readsAs_chain (j := .ampersand) (chain_of_spelled h hrank) ?_ (by decide)
    (first_ne_joint h (Nat.le_trans hrank (by decide)) .ampersand)
  intro z b ⟨hz, hb⟩ hlength
  exact (reads_operand hshort hz (Nat.le_of_lt_succ hb) (by omega)).mono (by decide)

theorem reads_union (hshort : ShorterRead m) (h : Spelled x a) (hrank : a.rank ≤ 3)
    (hm : x.length ≤ m) : ReadsAs unionType typeEnds x a.normal := by
  have hunion : ReadsAs (fun g => joinedTypes (String.singleton Joint.bar.char) (nodeOf .bar)
      (intersectionType g)) typeEnds x a.normal := by
    refine readsAs_chain (j := .bar) (chain_of_spelled h hrank) ?_ (by decide)
      (first_ne_joint h hrank .bar)
    intro z b ⟨hz, hb⟩ hlength
    exact (reads_intersection hshort hz (Nat.le_of_lt_succ hb) (by omega)).mono (by decide)
  intro whole s c y l n hy hl hc hn
  rw [unionType_eq]
  exact hunion whole s c y l n hy hl hc hn

/-- A text of length `m` is read as a type, if all shorter ones are. -/
theorem reads_plainType (hshort : ShorterRead m) (h : Spelled x a) (hm : x.length ≤ m) :
    ReadsAs plainType typeEnds x a.normal := by
  by_cases hrank : a.rank ≤ 3
  · intro whole s c y l n hy hl hc hn
    obtain ⟨t, c', hread, hform⟩ := reads_union hshort h hrank hm whole s c y l n hy hl hc hn
    exact ⟨t, c', (plainType_of_spelled (grammar n) h hrank hy hc).trans hread, hform⟩
  · cases h with
    | written h => exact h.reads
    | name | array | paren => exact absurd (Nat.zero_le 3) hrank
    | operator => exact absurd (by decide : 1 ≤ 3) hrank
    | joined j => exact absurd j.rank_le hrank

theorem shorterRead (m : Nat) : ShorterRead m := by
  induction m with
  | zero => nofun
  | succ m ih => exact fun x a hm h => reads_plainType ih h (Nat.le_of_lt_succ hm)

end

end Read

/-! ## Texts by themselves -/

/-- A text that spells a type is read as that type, wherever a type may end behind it. -/
theorem Spelled.reads {x : List Char} {a : TypeForm} (h : Spelled x a) :
    Read.ReadsAs Read.plainType Read.typeEnds x a.normal :=
  Read.shorterRead _ x a (Nat.lt_succ_self _) h

/-- A text that is read by itself has the form that it spells. -/
theorem Spelled.readForm_eq {text : String} {a : TypeForm} (h : Spelled text.toList a) :
    readForm text = some a.normal := by
  have hstands : Stands text.toList (typeSettings (byteCount text.toList))
      ⟨scan true true 0 false text.toList, 0, []⟩ (text.toList ++ []) := by
    rw [List.append_nil]
    refine ⟨rfl, rfl, List.suffix_rfl, ?_⟩
    have hsize : (typeSettings (byteCount text.toList)).size = byteCount text.toList := rfl
    rw [tokenAt, hsize, Nat.sub_self]
  have hlength := length_le_byteCount text.toList
  obtain ⟨n, hn⟩ : ∃ n, 32 * (byteCount text.toList + 2) = n + 1 :=
    ⟨32 * (byteCount text.toList + 2) - 1, by omega⟩
  have hplain : Read.Takes text.toList (Read.plainType (grammar n))
      { typeSettings (byteCount text.toList) with inType := true } _ _ [] :=
    h.reads text.toList _ _ [] .finish n .finish (by decide) hstands (by omega)
  obtain ⟨t, c, hread, hform, hc⟩ := Read.takes_type .finish rfl hplain
  have hfinish := (Follows.finish.token hc.toStands).1
  have htype : readType text = some t := by
    unfold readType
    simp only [hn, hread, hfinish, if_true]
  rw [readForm, htype]
  exact hform

end ElementManifest.TypeScript

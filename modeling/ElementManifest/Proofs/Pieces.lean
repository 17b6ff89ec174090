import ElementManifest.Proofs.Spellings

/-!
# Pieces inside brackets

The inference looks for words and marks anywhere in a text. A piece of a text has a fold of its
own, and it neither starts nor ends with half of an empty pair of brackets. Behind such a piece
nothing that is looked for goes on, unless a letter follows a letter:

> `Inner.append`: what is found in two pieces is found in one of them.

So what is found in the text of a type can be told piece by piece (`Inner.enclose`).
-/

namespace ElementManifest.Inference

open ElementManifest.Text ElementManifest.TypeScript ElementManifest.Expansion


/-! ## Joining texts -/

theorem pattern_split {p a b : List Char} (hp : p ∈ patterns) (h : p = a ++ b) (ha : a ≠ [])
    (hb : b ≠ []) : ∃ c d, a.getLast? = some c ∧ b.head? = some d ∧
      ((c.isLower = true ∧ d.isLower = true) ∨ (c = '[' ∧ d = ']')) := by
  have hall : ∀ p ∈ patterns, ∀ i ∈ List.range (p.length + 1),
      p.take i = [] ∨ p.drop i = [] ∨
        ((p.take i).getLast?.any fun c => (p.drop i).head?.any fun d =>
          (c.isLower && d.isLower) || (c == '[' && d == ']')) = true := by decide
  have hi : a.length ∈ List.range (p.length + 1) := by
    rw [h, List.mem_range, List.length_append]
    omega
  have hcut := hall p hp a.length hi
  rw [h, List.take_left, List.drop_left] at hcut
  rcases hcut with hnil | hnil | hcut
  · exact absurd hnil ha
  · exact absurd hnil hb
  · obtain ⟨c, hc, hcut⟩ := Option.any_eq_true _ _ |>.mp hcut
    obtain ⟨d, hd, hcut⟩ := Option.any_eq_true _ _ |>.mp hcut
    rw [Bool.or_eq_true, Bool.and_eq_true, Bool.and_eq_true, beq_iff_eq, beq_iff_eq] at hcut
    exact ⟨c, d, hc, hd, hcut⟩

/-- What is looked for does not stand across two texts unless a word or an empty pair of
brackets may. -/
theorem infix_append {p x y : List Char} (hp : p ∈ patterns)
    (hword : ∀ c d, x.getLast? = some c → y.head? = some d → ¬(c.isLower = true ∧ d.isLower = true))
    (hpair : ¬(x.getLast? = some '[' ∧ y.head? = some ']')) :
    p <:+: x ++ y ↔ p <:+: x ∨ p <:+: y := by
  rw [List.infix_append_iff]
  constructor
  · rintro (hx | hy | ⟨a, b, heq, ha, hb⟩)
    · exact Or.inl hx
    · exact Or.inr hy
    · by_cases hnil : a = []
      · rw [heq, hnil]
        exact Or.inr hb.isInfix
      by_cases hnil' : b = []
      · rw [heq, hnil', List.append_nil]
        exact Or.inl ha.isInfix
      -- cut into two, a pattern is a word in two halves or a pair of brackets
      obtain ⟨c, d, hc, hd, hcut⟩ := pattern_split hp heq hnil hnil'
      have hlast : x.getLast? = some c := by
        obtain ⟨front, rfl⟩ := ha
        rw [List.getLast?_append, hc]
        rfl
      have hhead : y.head? = some d := by
        obtain ⟨behind, rfl⟩ := hb
        rw [List.head?_append, hd]
        rfl
      rcases hcut with hcut | ⟨rfl, rfl⟩
      · exact absurd hcut (hword c d hlast hhead)
      · exact absurd ⟨hlast, hhead⟩ hpair
  · rintro (hx | hy)
    · exact Or.inl hx
    · exact Or.inr (Or.inl hy)

/-! ## Silent texts -/

/-- A text between tokens, in which nothing is found. -/
def Silent (y : List Char) : Prop :=
  ∀ c ∈ y, lowerAlone c = [c] ∧ c.isLower = false ∧ isMark c = false

theorem silent_single {c : Char}
    (h : lowerAlone c = [c] ∧ c.isLower = false ∧ isMark c = false) : Silent [c] := by
  intro d hd
  obtain rfl := List.mem_singleton.mp hd
  exact h

theorem Silent.append {x y : List Char} (hx : Silent x) (hy : Silent y) : Silent (x ++ y) := by
  intro c hc
  rcases List.mem_append.mp hc with hc | hc
  · exact hx c hc
  · exact hy c hc

theorem isLower_of_isBlank {c : Char} (h : isBlank c = true) : c.isLower = false := by
  rw [Bool.eq_false_iff]
  intro hlower
  unfold Char.isLower at hlower
  rw [Bool.and_eq_true, decide_eq_true_eq, decide_eq_true_eq] at hlower
  have hlo : 97 ≤ c.toNat := hlower.1
  have hhi : c.toNat ≤ 122 := hlower.2
  unfold isBlank at h
  simp only [Bool.or_eq_true, Bool.and_eq_true, decide_eq_true_eq, beq_iff_eq] at h
  omega

theorem Blanks.silent {b : List Char} (h : Blanks b) : Silent b := by
  intro c hc
  have hblank := h c hc
  exact ⟨lowerAlone_of_isBlank hblank, isLower_of_isBlank hblank, isMark_of_isBlank hblank⟩

theorem Gap.silent {g : List Char} (h : Gap g) : Silent g := by
  intro c hc
  rcases h c hc with hblank | rfl | rfl
  · exact Blanks.silent (b := [c]) (by simpa [Blanks] using hblank) c List.mem_cons_self
  · exact ⟨rfl, rfl, rfl⟩
  · exact ⟨rfl, rfl, rfl⟩

theorem Mid.silent {o : List Char} (h : Mid o) : Silent o := by
  intro c hc
  rcases h c hc with hblank | rfl
  · exact Blanks.silent (b := [c]) (by simpa [Blanks] using hblank) c List.mem_cons_self
  · exact ⟨rfl, rfl, rfl⟩

theorem isQuote_of_isMark {c : Char} (h : isMark c = false) : Nesting.isQuote c = false := by
  rw [Bool.eq_false_iff]
  intro hquote
  rw [isMark_of_isQuote hquote] at h
  cases h

theorem Silent.plain {y : List Char} (h : Silent y) : ∀ c ∈ y, isMark c = false :=
  fun c hc => (h c hc).2.2

theorem Silent.level {y : List Char} (h : Silent y) (k : Int) : Level k y :=
  .of_plain h.plain k

theorem Silent.quoteFree {y : List Char} (h : Silent y) : QuoteFree y :=
  fun c hc => isQuote_of_isMark (h c hc).2.2

theorem Silent.flatMap {y : List Char} (h : Silent y) : y.flatMap lowerAlone = y := by
  induction y with
  | nil => rfl
  | cons c y ih =>
    rw [List.flatMap_cons, (h c List.mem_cons_self).1,
      ih fun d hd => h d (List.mem_cons_of_mem c hd)]
    rfl

theorem Silent.fold_append {y : List Char} (h : Silent y) (z : List Char) :
    fold (y ++ z) = y ++ fold z := by
  rw [fold_append_of_quoteFree h.quoteFree, h.flatMap]

theorem Silent.fold_eq {y : List Char} (h : Silent y) : fold y = y := by
  rw [fold_of_quoteFree h.quoteFree, h.flatMap]

theorem not_infix_of_silent {p y : List Char} (hp : p ∈ patterns) (h : Silent y) : ¬p <:+: y := by
  have hall : ∀ p ∈ patterns, ∃ c ∈ p, (c.isLower || isMark c) = true := by decide
  obtain ⟨c, hc, hfound⟩ := hall p hp
  intro hin
  obtain ⟨-, hlower, hmark⟩ := h c (hin.subset hc)
  rw [hlower, hmark] at hfound
  cases hfound

/-! ## Pieces -/

/-- Whether a text ends with no letter of a word. -/
def EndsQuiet (x : List Char) : Prop :=
  ∀ c, x.getLast? = some c → c.isLower = false

/-- Whether a text starts with no letter of a word. -/
def StartsQuiet (x : List Char) : Prop :=
  ∀ c, x.head? = some c → c.isLower = false

theorem Silent.startsQuiet {y : List Char} (h : Silent y) (hne : y ≠ []) (z : List Char) :
    StartsQuiet (fold (y ++ z)) := by
  obtain ⟨d, y, rfl⟩ := List.exists_cons_of_ne_nil hne
  intro c hc
  rw [h.fold_append] at hc
  cases hc
  exact (h _ List.mem_cons_self).2.1

theorem StartsQuiet.behind_silent {y z : List Char} (h : StartsQuiet (fold z)) (hy : Silent y) :
    StartsQuiet (fold (y ++ z)) := by
  cases y with
  | nil => exact h
  | cons d y => exact hy.startsQuiet (List.cons_ne_nil d y) z

/-- What is found in a piece inside brackets: just what satisfies `P`. -/
structure Inner (P : List Char → Prop) (x : List Char) : Prop where
  closed : Closed x
  has_iff : ∀ p ∈ patterns, p <:+: fold x ↔ P p
  calm : '<' ∉ fold x
  first : (fold x).head? ≠ some ']'
  last : (fold x).getLast? ≠ some '['
  level : Level 1 (fold x)

theorem quoteFree_of_plain {x : List Char} (h : ∀ c ∈ x, isMark c = false) : QuoteFree x :=
  fun c hc => isQuote_of_isMark (h c hc)

theorem plain_fold {x : List Char} (h : ∀ c ∈ x, isMark c = false) :
    ∀ c ∈ fold x, isMark c = false := by
  intro d hd
  rw [fold_of_quoteFree (quoteFree_of_plain h)] at hd
  obtain ⟨c, hc, hd⟩ := List.mem_flatMap.mp hd
  rw [Bool.eq_false_iff]
  intro hmark
  rw [eq_of_mem_lowerAlone hd hmark, h c hc] at hmark
  cases hmark

theorem emptied_calm {q : Char} (hq : Nesting.isQuote q = true) :
    '<' ∉ emptied q ∧ (emptied q).head? ≠ some ']' ∧ (emptied q).getLast? ≠ some '[' := by
  rcases isQuote_cases hq with rfl | rfl | rfl
  · decide
  · decide
  · decide

/-- The brackets that stand in types, each with what closes it. -/
def bracketPairs : List (Char × Char) :=
  [('(', ')'), ('[', ']'), ('\x7b', '\x7d')]

theorem bracketPairs_told {o c : Char} (h : (o, c) ∈ bracketPairs) :
    Nesting.opens o = true ∧ (o ≠ '<' ∧ c ≠ '<') ∧
      (c = ')' ∨ c = ']' ∨ c = '\x7d') ∧ (o.isLower = false ∧ c.isLower = false) ∧ o ≠ ']' ∧
      c ≠ '[' ∧ [c] ∉ patterns := by
  have hall : ∀ b ∈ bracketPairs, Nesting.opens b.1 = true ∧
      (b.1 ≠ '<' ∧ b.2 ≠ '<') ∧ (b.2 = ')' ∨ b.2 = ']' ∨ b.2 = '\x7d') ∧
      (b.1.isLower = false ∧ b.2.isLower = false) ∧ b.1 ≠ ']' ∧ b.2 ≠ '[' ∧
      [b.2] ∉ patterns := by decide
  exact hall (o, c) h

theorem quoteFree_brackets {o c : Char} (h : (o, c) ∈ bracketPairs) :
    QuoteFree [o] ∧ QuoteFree [c] := by
  have hall : ∀ b ∈ bracketPairs, (∀ d ∈ [b.1], Nesting.isQuote d = false) ∧
      ∀ d ∈ [b.2], Nesting.isQuote d = false := by decide
  exact hall (o, c) h

theorem closed_enclose {x : List Char} (h : Closed x) {o c : Char} (hpair : (o, c) ∈ bracketPairs) :
    Closed (o :: (x ++ [c])) := by
  obtain ⟨ho, hc⟩ := quoteFree_brackets hpair
  exact ho.closed.append (h.append hc.closed)

theorem fold_enclose {x : List Char} (h : Closed x) {o c : Char} (hpair : (o, c) ∈ bracketPairs) :
    fold (o :: (x ++ [c])) = o :: (fold x ++ [c]) := by
  have hall : ∀ b ∈ bracketPairs, fold [b.1] = [b.1] ∧ fold [b.2] = [b.2] := by decide
  obtain ⟨ho, hc⟩ := hall (o, c) hpair
  rw [← List.singleton_append, (quoteFree_brackets hpair).1.closed, h, ho, hc]
  rfl

theorem infix_singleton_iff {p : List Char} (hp : p ∈ patterns) {c : Char} :
    p <:+: [c] ↔ p = [c] := by
  have hne : ∀ p ∈ patterns, p ≠ [] := by decide
  constructor
  · intro h
    have hlength : 0 < p.length := List.length_pos_iff.mpr (hne p hp)
    exact h.eq_of_length_le hlength
  · rintro rfl
    exact List.infix_rfl

namespace Inner

variable {P Q : List Char → Prop} {x y : List Char}

theorem congr (h : Inner P x) (hiff : ∀ p ∈ patterns, P p ↔ Q p) : Inner Q x :=
  { h with has_iff := fun p hp => (h.has_iff p hp).trans (hiff p hp) }

theorem append (hx : Inner P x) (hy : Inner Q y) (h : EndsQuiet (fold x) ∨ StartsQuiet (fold y)) :
    Inner (fun p => P p ∨ Q p) (x ++ y) where
  closed := hx.closed.append hy.closed
  has_iff := by
    intro p hp
    rw [hx.closed, infix_append hp ?_ fun hpair => hx.last hpair.1, hx.has_iff p hp,
      hy.has_iff p hp]
    rintro c d hc hd ⟨hlower, hlower'⟩
    -- a word cannot stand across, as one of the two sides ends or starts with no letter
    rcases h with h | h
    · rw [h c hc] at hlower
      cases hlower
    · rw [h d hd] at hlower'
      cases hlower'
  calm := by
    rw [hx.closed]
    intro hmem
    rcases List.mem_append.mp hmem with hmem | hmem
    · exact hx.calm hmem
    · exact hy.calm hmem
  first := by
    rw [hx.closed, List.head?_append]
    cases hhead : (fold x).head? with
    | none =>
      rw [Option.none_or]
      exact hy.first
    | some c =>
      rw [Option.some_or, ← hhead]
      exact hx.first
  last := by
    rw [hx.closed, List.getLast?_append]
    cases hlast : (fold y).getLast? with
    | none =>
      rw [Option.none_or]
      exact hx.last
    | some c =>
      rw [Option.some_or, ← hlast]
      exact hy.last
  level := by
    rw [hx.closed]
    exact hx.level.append hy.level

theorem of_silent (h : Silent y) : Inner (fun _ => False) y where
  closed := h.quoteFree.closed
  has_iff := fun p hp => by
    rw [h.fold_eq]
    exact iff_of_false (not_infix_of_silent hp h) id
  calm := by
    rw [h.fold_eq]
    intro hmem
    have := (h '<' hmem).2.2
    cases this
  first := by
    rw [h.fold_eq]
    intro hhead
    have := (h ']' (List.mem_of_head? hhead)).2.2
    cases this
  last := by
    rw [h.fold_eq]
    intro hlast
    have := (h '[' (List.mem_of_getLast? hlast)).2.2
    cases this
  level := by
    rw [h.fold_eq]
    exact .of_plain (fun c hc => (h c hc).2.2) 1

theorem behind_silent (h : Inner P x) (hy : Silent y) : Inner P (y ++ x) := by
  refine ((of_silent hy).append h (Or.inl ?_)).congr fun p _ => by rw [false_or]
  rw [hy.fold_eq]
  exact fun c hc => (hy c (List.mem_of_getLast? hc)).2.1

theorem before_silent (h : Inner P x) (hy : Silent y) : Inner P (x ++ y) := by
  refine (h.append (of_silent hy) (Or.inr ?_)).congr fun p _ => by rw [or_false]
  rw [hy.fold_eq]
  exact fun c hc => (hy c (List.mem_of_head? hc)).2.1

/-! ### Pieces of tokens -/

theorem of_plain (h : ∀ c ∈ x, isMark c = false) : Inner (fun p => p <:+: fold x) x where
  closed := (quoteFree_of_plain h).closed
  has_iff := fun p _ => Iff.rfl
  calm := fun hmem => by
    have := plain_fold h '<' hmem
    cases this
  first := fun hhead => by
    have := plain_fold h ']' (List.mem_of_head? hhead)
    cases this
  last := fun hlast => by
    have := plain_fold h '[' (List.mem_of_getLast? hlast)
    cases this
  level := .of_plain (plain_fold h) 1

theorem of_emptied {q : Char} {body : List Char} (hq : Nesting.isQuote q = true)
    (h : staysInside q false body = true) :
    Inner (fun p => p <:+: emptied q) (q :: (body ++ [q])) where
  closed := closed_quoted hq h
  has_iff := fun p _ => by rw [fold_literal hq h]
  calm := by
    rw [fold_literal hq h]
    exact (emptied_calm hq).1
  first := by
    rw [fold_literal hq h]
    exact (emptied_calm hq).2.1
  last := by
    rw [fold_literal hq h]
    exact (emptied_calm hq).2.2
  level := by
    rw [fold_literal hq h]
    exact .emptied hq 1

theorem bar : Inner (· = ['|']) ['|'] where
  closed := QuoteFree.closed (by unfold QuoteFree; decide)
  has_iff := by decide
  calm := by decide
  first := by decide
  last := by decide
  level := .bar

theorem pair : Inner (· = "[]".toList) "[]".toList where
  closed := QuoteFree.closed (by unfold QuoteFree; decide)
  has_iff := by decide
  calm := by decide
  first := by decide
  last := by decide
  level := ((Level.nil 1).bracket rfl (by decide)).mono (by decide)

/-- Brackets around a piece. Square ones may not be put around nothing, as these are looked
for. -/
theorem enclose (h : Inner P x) {o c : Char} (hpair : (o, c) ∈ bracketPairs)
    (hne : o = '[' → fold x ≠ []) : Inner (fun p => p = [o] ∨ P p) (o :: (x ++ [c])) := by
  obtain ⟨hopens, hcalm, hcloses, hlower, hfirst, hlast, hcloser⟩ := bracketPairs_told hpair
  have hfold : fold (o :: (x ++ [c])) = o :: (fold x ++ [c]) := fold_enclose h.closed hpair
  refine ⟨closed_enclose h.closed hpair, fun p hp => ?_, ?_, ?_, ?_, ?_⟩
  · -- only the opening bracket is looked for, and the closing one is not
    have hbehind : p <:+: fold x ++ [c] ↔ P p := by
      rw [infix_append hp (fun _ d _ hd hboth => ?_) fun hpair => h.last hpair.1, h.has_iff p hp,
        infix_singleton_iff hp]
      · exact or_iff_left fun heq => hcloser (heq ▸ hp)
      · cases hd
        rw [hlower.2] at hboth
        cases hboth.2
    rw [hfold, ← List.singleton_append, infix_append hp ?_ ?_, infix_singleton_iff hp, hbehind]
    · intro d _ hd _ hboth
      obtain rfl : o = d := Option.some.inj hd
      rw [hlower.1] at hboth
      cases hboth.1
    · rintro ⟨hhead, hclose⟩
      cases hhead
      rw [List.head?_append_of_ne_nil _ (hne rfl)] at hclose
      exact h.first hclose
  · rw [hfold]
    simp only [List.mem_cons, List.mem_append, List.not_mem_nil, or_false, not_or]
    exact ⟨fun heq => hcalm.1 heq.symm, h.calm, fun heq => hcalm.2 heq.symm⟩
  · rw [hfold]
    exact fun hhead => hfirst (Option.some.inj hhead)
  · rw [hfold, ← List.cons_append, List.getLast?_concat]
    exact fun hclose => hlast (Option.some.inj hclose)
  · rw [hfold]
    exact (h.level.bracket hopens hcloses).mono (by decide)

end Inner

end ElementManifest.Inference

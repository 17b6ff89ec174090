import ElementManifest.Proofs.Levels
import ElementManifest.Proofs.TextParts

/-!
# The contents of literals

The inference is blind to what stands inside of quotes. A text whose quotes are all closed is put
together from characters outside of literals and from whole literals (`WellQuoted`), so each
statement about such texts has one case for a character and one for a literal:

> `fold_outside`: a type looks the same to the inference when the contents of its literals are
> taken out.

> `fold_trim`: it does not matter whether the blanks at the ends are taken off before the contents
> or after.

Both together give `infers_outside`: the kind and the way of writing of two types are the same
if the types differ only inside of quotes.
-/

namespace ElementManifest.Inference

open ElementManifest.Text

/-! ## Closed quotes -/

/-- Whether a scan through a text ends outside of all quotes. -/
def QuotesClosed (s : List Char) : Prop :=
  (s.foldl Nesting.step {}).quote = none

instance (s : List Char) : Decidable (QuotesClosed s) :=
  inferInstanceAs (Decidable (_ = _))

/-- A text of characters outside of literals, and of literals that end in it. -/
inductive WellQuoted : List Char → Prop
  | nil : WellQuoted []
  | char {c : Char} {s : List Char} (hc : Nesting.isQuote c = false) (hs : WellQuoted s) :
      WellQuoted (c :: s)
  | literal {q : Char} {body s : List Char} (hq : Nesting.isQuote q = true)
      (hbody : staysInside q false body = true) (hs : WellQuoted s) :
      WellQuoted (q :: (body ++ q :: s))

/-- What a scan that ends outside of quotes has read: from a place outside of them a well-quoted
text, from a place inside the rest of a literal and such a text behind it. -/
theorem wellQuoted_of_scan (s : List Char) {n : Nesting}
    (h : (s.foldl Nesting.step n).quote = none) :
    (∀ d, OutsideAt d n → WellQuoted s) ∧
      ∀ q, n.quote = some q → ∃ body rest,
        s = body ++ q :: rest ∧ staysInside q n.escaped body = true ∧ WellQuoted rest := by
  induction s generalizing n with
  | nil =>
    refine ⟨fun _ _ => .nil, fun q hq => ?_⟩
    rw [List.foldl_nil, hq] at h
    cases h
  | cons c s ih =>
    obtain ⟨houtside, hinside⟩ := ih h
    constructor
    · intro d hn
      cases hc : Nesting.isQuote c with
      | false =>
        obtain ⟨d', hn'⟩ := hn.exists_step hc
        exact .char hc (houtside d' hn')
      | true =>
        obtain ⟨hquote, hescaped, -⟩ := hn.step_of_quote hc
        obtain ⟨body, rest, rfl, hbody, hrest⟩ := hinside c hquote
        rw [hescaped] at hbody
        exact .literal hc hbody hrest
    · intro q hq
      -- an escaped character, a backslash and any other character than the quote stay inside
      by_cases hstays : n.escaped = true ∨ c = '\\' ∨ c ≠ q
      · obtain ⟨hquote, -, hbody'⟩ := step_staying hq hstays
        obtain ⟨body, rest, rfl, hbody, hrest⟩ := hinside q hquote
        exact ⟨c :: body, rest, rfl, by rw [hbody', hbody], hrest⟩
      · obtain ⟨hescaped, hslash, heq⟩ : n.escaped = false ∧ c ≠ '\\' ∧ c = q := by
          simpa [not_or] using hstays
        rw [heq] at hslash houtside
        refine ⟨[], s, by rw [heq]; rfl, by rw [hescaped]; rfl, ?_⟩
        exact houtside _ (step_closing hq hescaped hslash)

theorem QuotesClosed.wellQuoted {s : List Char} (h : QuotesClosed s) : WellQuoted s :=
  (wellQuoted_of_scan s h).1 0 outsideAt_start

namespace WellQuoted

variable {s t : List Char}

theorem append (hs : WellQuoted s) (ht : WellQuoted t) : WellQuoted (s ++ t) := by
  induction hs with
  | nil => exact ht
  | char hc _ ih => exact .char hc ih
  | literal hq hbody _ ih =>
    rw [List.cons_append, List.append_assoc, List.cons_append]
    exact .literal hq hbody ih

theorem of_quoteFree (h : QuoteFree s) : WellQuoted s := by
  induction s with
  | nil => exact .nil
  | cons c s ih =>
    exact .char (h c List.mem_cons_self) (ih fun d hd => h d (List.mem_cons_of_mem c hd))

end WellQuoted

/-! ## The fold of a well-quoted text -/

theorem fold_char {c : Char} (hc : Nesting.isQuote c = false) (s : List Char) :
    fold (c :: s) = lowerAlone c ++ fold s := by
  have hfree : QuoteFree [c] := fun d hd => by rw [List.mem_singleton.mp hd, hc]
  have happend := fold_append_of_quoteFree hfree s
  rw [List.flatMap_singleton] at happend
  exact happend

theorem WellQuoted.closed {s : List Char} (h : WellQuoted s) : Closed s := by
  intro t
  induction h with
  | nil => rfl
  | char hc _ ih => rw [List.cons_append, fold_char hc, fold_char hc, ih, List.append_assoc]
  | literal hq hbody _ ih =>
    rw [List.cons_append, List.append_assoc, List.cons_append, fold_quoted hq hbody,
      fold_quoted hq hbody, ih, List.append_assoc]

theorem lowerAlone_ne_nil (c : Char) : lowerAlone c ≠ [] := by
  rcases tame_lowerAlone c with heq | ⟨-, hne, -⟩
  · rw [heq]
    exact List.cons_ne_nil c []
  · exact hne

theorem isBlank_of_mem_lowerAlone {c d : Char} (hc : isBlank c = false) (h : d ∈ lowerAlone c) :
    isBlank d = false := by
  rcases tame_lowerAlone c with heq | ⟨-, -, hall⟩
  · rw [heq] at h
    rw [List.mem_singleton.mp h, hc]
  · exact (hall d h).2

theorem isBlank_of_isQuote {q : Char} (h : Nesting.isQuote q = true) : isBlank q = false := by
  rcases isQuote_cases h with rfl | rfl | rfl
  · decide
  · decide
  · decide

theorem isBlank_of_mem_emptied {q d : Char} (hq : Nesting.isQuote q = true) (h : d ∈ emptied q) :
    isBlank d = false := by
  have hall : ∀ p ∈ ['"', '\'', '\x60'], ∀ d ∈ emptied p, isBlank d = false := by decide
  exact hall q (by simpa using isQuote_cases hq) d h

theorem emptied_ne_nil (q : Char) : emptied q ≠ [] := by
  unfold emptied
  split
  · decide
  · exact List.cons_ne_nil q [q]

theorem fold_eq_nil_iff {s : List Char} : fold s = [] ↔ s = [] := by
  cases s with
  | nil => exact Iff.rfl
  | cons c s =>
    refine iff_of_false ?_ (List.cons_ne_nil c s)
    cases hc : Nesting.isQuote c with
    | false =>
      rw [fold_char hc, List.append_eq_nil_iff]
      exact fun hnil => lowerAlone_ne_nil c hnil.1
    | true =>
      -- an opening quote leaves itself or a word, whether the literal ends or not
      unfold fold
      rw [List.flatMap_cons, lowerAlone_of_isMark (isMark_of_isQuote hc), List.singleton_append,
        maskFrom]
      rcases isQuote_cases hc with rfl | rfl | rfl
      · exact List.cons_ne_nil _ _
      · exact List.cons_ne_nil _ _
      · exact List.append_ne_nil_of_left_ne_nil (by decide) _

/-! ## Blanks at the ends -/

theorem trimStart_append {x : List Char} (hne : x ≠ []) (hx : ∀ c ∈ x, isBlank c = false)
    (y : List Char) : trimStart (x ++ y) = x ++ y := by
  obtain ⟨c, x, rfl⟩ := List.exists_cons_of_ne_nil hne
  unfold trimStart
  rw [List.cons_append, List.dropWhile_cons_of_neg]
  rw [hx c List.mem_cons_self]
  exact Bool.false_ne_true

theorem trimEnd_of_not_blank {x : List Char} (hx : ∀ c ∈ x, isBlank c = false) : trimEnd x = x := by
  have hself : x.reverse.dropWhile isBlank = x.reverse := by
    cases hrev : x.reverse with
    | nil => rfl
    | cons c r =>
      have hc : c ∈ x := List.mem_reverse.mp (hrev ▸ List.mem_cons_self)
      rw [List.dropWhile_cons_of_neg (by rw [hx c hc]; exact Bool.false_ne_true)]
  unfold trimEnd
  rw [hself, List.reverse_reverse]

theorem trimStart_cons_of_blank {c : Char} (hc : isBlank c = true) (s : List Char) :
    trimStart (c :: s) = trimStart s :=
  List.dropWhile_cons_of_pos hc

theorem trimStart_cons_of_not_blank {c : Char} (hc : isBlank c = false) (s : List Char) :
    trimStart (c :: s) = c :: s :=
  List.dropWhile_cons_of_neg (by rw [hc]; exact Bool.false_ne_true)

namespace WellQuoted

variable {s : List Char}

theorem trimStart (h : WellQuoted s) : WellQuoted (trimStart s) := by
  induction h with
  | nil => exact .nil
  | @char c s hc hs ih =>
    cases hblank : isBlank c with
    | true =>
      rw [trimStart_cons_of_blank hblank]
      exact ih
    | false =>
      rw [trimStart_cons_of_not_blank hblank]
      exact .char hc hs
  | literal hq hbody hs _ =>
    rw [trimStart_cons_of_not_blank (isBlank_of_isQuote hq)]
    exact .literal hq hbody hs

theorem fold_trimStart (h : WellQuoted s) : fold (Text.trimStart s) = Text.trimStart (fold s) := by
  induction h with
  | nil => rfl
  | @char c s hc hs ih =>
    cases hblank : isBlank c with
    | true =>
      rw [trimStart_cons_of_blank hblank, fold_char hc, lowerAlone_of_isBlank hblank, ih]
      exact (trimStart_cons_of_blank hblank _).symm
    | false =>
      have hkept := trimStart_append (lowerAlone_ne_nil c)
        (fun _ hd => isBlank_of_mem_lowerAlone hblank hd) (fold s)
      rw [trimStart_cons_of_not_blank hblank, fold_char hc, hkept]
  | @literal q body s hq hbody hs ih =>
    have hkept := trimStart_append (emptied_ne_nil q)
      (fun _ hd => isBlank_of_mem_emptied hq hd) (fold s)
    rw [trimStart_cons_of_not_blank (isBlank_of_isQuote hq), fold_quoted hq hbody, hkept]

theorem fold_trimEnd (h : WellQuoted s) : fold (trimEnd s) = trimEnd (fold s) := by
  induction h with
  | nil => rfl
  | @char c s hc hs ih =>
    have hsplit : trimEnd (c :: s) = if trimEnd s = [] then trimEnd [c] else c :: trimEnd s :=
      trimEnd_append [c] s
    rw [hsplit, fold_char hc, trimEnd_append, ← ih]
    by_cases hempty : trimEnd s = []
    · rw [if_pos hempty, if_pos (fold_eq_nil_iff.mpr hempty)]
      cases hblank : isBlank c with
      | true =>
        rw [lowerAlone_of_isBlank hblank, show trimEnd [c] = [] by simp [trimEnd, hblank]]
        rfl
      | false =>
        rw [trimEnd_of_not_blank fun _ hd => isBlank_of_mem_lowerAlone hblank hd,
          trimEnd_of_not_blank fun d hd => by rw [List.mem_singleton.mp hd, hblank], fold_char hc]
        exact List.append_nil _
    · rw [if_neg hempty, if_neg (mt fold_eq_nil_iff.mp hempty), fold_char hc]
  | @literal q body s hq hbody hs ih =>
    -- the closing quote is no blank, so nothing in front of it is trimmed
    have hclosing : trimEnd (q :: s) = q :: trimEnd s := by
      rw [← List.singleton_append, trimEnd_append]
      have hself : trimEnd [q] = [q] := trimEnd_of_not_blank fun d hd => by
        rw [List.mem_singleton.mp hd, isBlank_of_isQuote hq]
      split
      next hempty => rw [hself, hempty]
      next => rfl
    have hsplit : trimEnd (q :: (body ++ q :: s)) = q :: (body ++ q :: trimEnd s) := by
      rw [← List.cons_append, trimEnd_append, hclosing, if_neg (List.cons_ne_nil q _)]
      rfl
    rw [hsplit, fold_quoted hq hbody, fold_quoted hq hbody, trimEnd_append, ← ih]
    split
    next hempty =>
      rw [hempty, List.append_nil,
        trimEnd_of_not_blank fun _ hd => isBlank_of_mem_emptied hq hd]
    next => rfl

/-- Taking the blanks off the ends and taking the contents out of the literals do not get into each
other's way. -/
theorem fold_trim (h : WellQuoted s) : fold (trim s) = trim (fold s) := by
  unfold trim
  rw [h.trimStart.fold_trimEnd, h.fold_trimStart]

end WellQuoted

/-! ## Texts without the contents of their literals -/

/-- What a text has outside of quotes, with the quotes themselves. -/
def outsideFrom (n : Nesting) : List Char → List Char
  | [] => []
  | c :: s =>
    if n.quote = none ∨ (n.step c).quote = none then c :: outsideFrom (n.step c) s
    else outsideFrom (n.step c) s

/-- A text without the contents of its literals. -/
def outside (s : List Char) : List Char :=
  outsideFrom {} s

/-- Of the rest of a literal only the closing quote is kept. -/
theorem outsideFrom_inside {n : Nesting} {q : Char} (hq : Nesting.isQuote q = true)
    (hquote : n.quote = some q) {body : List Char} (hbody : staysInside q n.escaped body = true)
    (s : List Char) :
    outsideFrom n (body ++ q :: s) =
      q :: outsideFrom ((body ++ [q]).foldl Nesting.step n) s := by
  induction body generalizing n with
  | nil =>
    have hescaped : n.escaped = false := by simpa [staysInside] using hbody
    have hclosed := step_closing hquote hescaped (ne_slash_of_isQuote hq)
    exact if_pos (Or.inr hclosed.quote)
  | cons c body ih =>
    obtain ⟨hquote', -, hbody'⟩ := step_staying hquote (stays_of_staysInside hbody)
    have hinside : ¬(n.quote = none ∨ (n.step c).quote = none) := by
      rw [hquote, hquote']
      simp
    rw [List.cons_append, outsideFrom, if_neg hinside, ih hquote' (hbody' body ▸ hbody)]
    rfl

theorem fold_outsideFrom {s : List Char} (h : WellQuoted s) {d : Int} {n : Nesting}
    (hn : OutsideAt d n) : fold (outsideFrom n s) = fold s := by
  induction h generalizing d n with
  | nil => rfl
  | char hc _ ih =>
    obtain ⟨d', hn'⟩ := hn.exists_step hc
    rw [outsideFrom, if_pos (Or.inl hn.quote), fold_char hc, fold_char hc, ih hn']
  | @literal q body s hq hbody _ ih =>
    obtain ⟨hquote, hescaped, hdepth⟩ := hn.step_of_quote hq
    rw [← hescaped] at hbody
    obtain ⟨hn', -⟩ := foldl_step_inside hq hquote hdepth hbody
    have hempty (y : List Char) : fold (q :: q :: y) = emptied q ++ fold y :=
      @fold_quoted q hq [] rfl y
    rw [outsideFrom, if_pos (Or.inl hn.quote), outsideFrom_inside hq hquote hbody, hempty, ih hn',
      fold_quoted hq (hescaped ▸ hbody)]

/-- The inference sees of a type what it sees of it without the contents of its literals. -/
theorem fold_outside {s : List Char} (h : QuotesClosed s) : fold (outside s) = fold s :=
  fold_outsideFrom h.wellQuoted outsideAt_start

theorem fold_trim_of_outside_eq {s t : List Char} (hs : QuotesClosed s) (ht : QuotesClosed t)
    (h : outside s = outside t) : fold (trim s) = fold (trim t) := by
  rw [hs.wellQuoted.fold_trim, ht.wellQuoted.fold_trim, ← fold_outside hs, ← fold_outside ht, h]

/-- **The inference is blind to the contents of literals.** Two types have the same kind and the
same way of writing if they differ only inside of closed quotes. -/
theorem infers_outside {s t : String} (hs : QuotesClosed s.toList) (ht : QuotesClosed t.toList)
    (h : outside s.toList = outside t.toList) :
    summary s = summary t ∧ serialization s = serialization t := by
  have hfold := fold_trim_of_outside_eq hs ht h
  rw [summary_eq, summary_eq, serialization_eq, serialization_eq, hfold]
  exact ⟨rfl, rfl⟩

/-- A type with literals of all three kinds. -/
def plainLiterals : String :=
  "'a' | \"b\" | Map<\x60c\x60>"

/-- The same type with bars, brackets, words and quotes in its literals. -/
def wildLiterals : String :=
  "'string | \\'[]\"' | \"array<'\\\\\" | Map<\x60\x7b | '\x60>"

theorem infers_outside_wild :
    QuotesClosed plainLiterals.toList ∧ QuotesClosed wildLiterals.toList ∧
      outside plainLiterals.toList = outside wildLiterals.toList ∧
      summary plainLiterals = summary wildLiterals ∧
      serialization plainLiterals = serialization wildLiterals :=
  ⟨by decide, by decide, by decide, infers_outside (by decide) (by decide) (by decide)⟩

end ElementManifest.Inference

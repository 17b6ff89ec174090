import ElementManifest.Proofs.ByteScans
import ElementManifest.Proofs.Folding

/-!
# Level pieces

A union is split at its bars outside all brackets and quotes, and what stands outside of them
tells whether a type needs parentheses. A piece is level if a scan through it comes back to the
depth where it has started, and meets nothing at the depths that count on the way that would
part it. Level pieces stay whole:

> `Level.splitUnionFrom_bar`: a union is split behind a level piece and nowhere in it.

> `Level.wrapIf_eq`: no parentheses are put around a level piece.

Inside brackets bars do not count, so there a piece may have some of its own
(`Level.bracket`).
-/

namespace ElementManifest.Inference

open ElementManifest.Text


/-- Whether a scan is outside all quotes and inside of `d` brackets. -/
structure OutsideAt (d : Int) (n : Nesting) : Prop where
  quote : n.quote = none
  escaped : n.escaped = false
  depth : n.depth = d

theorem outsideAt_start : OutsideAt 0 {} := ⟨rfl, rfl, rfl⟩

/-- All that parts a type outside of brackets and quotes. -/
def topTokens : List TopToken :=
  [.bar, .ampersand, .arrow]

theorem prev_step (n : Nesting) (c : Char) : (n.step c).prev = c := by
  unfold Nesting.step
  split
  · split
    · rfl
    · split
      · rfl
      · split <;> rfl
  · split
    · rfl
    · split
      · rfl
      · split <;> rfl

/-- A piece that a scan leaves at the depth where it has entered it, and that has nothing in it
that parts a type, if that is depth `k` or more. -/
def Level (k : Int) (x : List Char) : Prop :=
  ∀ d n, k ≤ d → OutsideAt d n →
    OutsideAt d (x.foldl Nesting.step n) ∧ hasTopTokenFrom topTokens n x = false

theorem hasTopTokenFrom_of_topTokens {tokens : List TopToken} {n : Nesting} {x : List Char}
    (h : hasTopTokenFrom topTokens n x = false) : hasTopTokenFrom tokens n x = false := by
  induction x generalizing n with
  | nil => rfl
  | cons c x ih =>
    rw [hasTopTokenFrom, Bool.or_eq_false_iff] at h ⊢
    refine ⟨?_, ih h.2⟩
    cases htoken : n.topToken? c with
    | none => rfl
    | some token =>
      rw [htoken] at h
      cases token with
      | bar | ampersand | arrow => exact absurd h.1 (by decide)

theorem hasTopTokenFrom_append (tokens : List TopToken) (n : Nesting) (x y : List Char) :
    hasTopTokenFrom tokens n (x ++ y) =
      (hasTopTokenFrom tokens n x || hasTopTokenFrom tokens (x.foldl Nesting.step n) y) := by
  induction x generalizing n with
  | nil => rfl
  | cons c x ih =>
    rw [List.cons_append, hasTopTokenFrom, hasTopTokenFrom, ih, Bool.or_assoc]
    rfl

namespace Level

variable {k : Int} {x y : List Char}

theorem mono {k' : Int} (h : Level k x) (hk : k ≤ k') : Level k' x :=
  fun d n hd => h d n (Int.le_trans hk hd)

theorem nil (k : Int) : Level k [] :=
  fun _ _ _ hn => ⟨hn, rfl⟩

theorem append (hx : Level k x) (hy : Level k y) : Level k (x ++ y) := by
  intro d n hd hn
  obtain ⟨hn', hfree⟩ := hx d n hd hn
  obtain ⟨hn'', hfree'⟩ := hy d _ hd hn'
  rw [List.foldl_append, hasTopTokenFrom_append, hfree, hfree']
  exact ⟨hn'', rfl⟩

end Level

/-! ## Single characters -/

namespace OutsideAt

variable {d : Int} {n : Nesting}

theorem step_of_plain (h : OutsideAt d n) {c : Char} (hquote : Nesting.isQuote c = false)
    (hopens : Nesting.opens c = false) (hcloses : Nesting.closes n.prev c = false) :
    OutsideAt d (n.step c) := by
  obtain ⟨hn, hescaped, hdepth⟩ := h
  unfold Nesting.step
  rw [hn]
  simp only [hquote, hopens, hcloses, Bool.false_eq_true, if_false]
  exact ⟨rfl, hescaped, hdepth⟩

theorem step_of_opens (h : OutsideAt d n) {c : Char} (hopens : Nesting.opens c = true) :
    OutsideAt (d + 1) (n.step c) := by
  have hquote : Nesting.isQuote c = false := by
    unfold Nesting.opens at hopens
    simp only [Bool.or_eq_true, decide_eq_true_eq] at hopens
    rcases hopens with ((rfl | rfl) | rfl) | rfl
    · rfl
    · rfl
    · rfl
    · rfl
  obtain ⟨hn, hescaped, hdepth⟩ := h
  unfold Nesting.step
  rw [hn]
  simp only [hquote, hopens, Bool.false_eq_true, if_false, if_true]
  exact ⟨rfl, hescaped, by rw [hdepth]⟩

theorem step_of_closes (h : OutsideAt d n) {c : Char} (hc : c = ')' ∨ c = ']' ∨ c = '\x7d') :
    OutsideAt (d - 1) (n.step c) := by
  obtain ⟨hquote, hopens, hcloses⟩ : Nesting.isQuote c = false ∧ Nesting.opens c = false ∧
      Nesting.closes n.prev c = true := by
    rcases hc with rfl | rfl | rfl
    · exact ⟨rfl, rfl, rfl⟩
    · exact ⟨rfl, rfl, rfl⟩
    · exact ⟨rfl, rfl, rfl⟩
  obtain ⟨hn, hescaped, hdepth⟩ := h
  unfold Nesting.step
  rw [hn]
  simp only [hquote, hopens, hcloses, Bool.false_eq_true, if_false, if_true]
  exact ⟨rfl, hescaped, by rw [hdepth]⟩

/-- A character that is no quote leaves a scan outside of quotes. -/
theorem exists_step (h : OutsideAt d n) {c : Char} (hc : Nesting.isQuote c = false) :
    ∃ d', OutsideAt d' (n.step c) := by
  unfold Nesting.step
  rw [h.quote]
  simp only [hc, Bool.false_eq_true, if_false]
  split
  · exact ⟨_, rfl, h.escaped, rfl⟩
  · split
    · exact ⟨_, rfl, h.escaped, rfl⟩
    · exact ⟨_, rfl, h.escaped, rfl⟩

theorem step_of_quote (h : OutsideAt d n) {q : Char} (hq : Nesting.isQuote q = true) :
    (n.step q).quote = some q ∧ (n.step q).escaped = false ∧ (n.step q).depth = d := by
  unfold Nesting.step
  rw [h.quote]
  simp only [hq, if_true]
  exact ⟨trivial, h.escaped, h.depth⟩

theorem step_bar (h : OutsideAt d n) : OutsideAt d (n.step '|') :=
  h.step_of_plain rfl rfl rfl

theorem isTop_eq (h : OutsideAt d n) : n.isTop = decide (d = 0) := by
  unfold Nesting.isTop
  rw [h.quote, h.depth]
  rfl

end OutsideAt

namespace Level

variable {k : Int} {x y : List Char}

/-- A character that is no mark leaves a scan where it is. -/
theorem char {c : Char} (h : isMark c = false) (k : Int) : Level k [c] := by
  have hne : ∀ d ∈ marks, c ≠ d := by
    rintro d hd rfl
    rw [show isMark c = true from List.contains_iff_mem.mpr hd] at h
    cases h
  intro d n _ hn
  refine ⟨hn.step_of_plain ?_ ?_ ?_, ?_⟩
  · simp [Nesting.isQuote, hne _ (by decide : '"' ∈ marks), hne _ (by decide : '\'' ∈ marks),
      hne _ (by decide : '\x60' ∈ marks)]
  · simp [Nesting.opens, hne _ (by decide : '(' ∈ marks), hne _ (by decide : '[' ∈ marks),
      hne _ (by decide : '\x7b' ∈ marks), hne _ (by decide : '<' ∈ marks)]
  · simp [Nesting.closes, hne _ (by decide : ')' ∈ marks), hne _ (by decide : ']' ∈ marks),
      hne _ (by decide : '\x7d' ∈ marks), hne _ (by decide : '>' ∈ marks)]
  · simp [hasTopTokenFrom, Nesting.topToken?, hne _ (by decide : '|' ∈ marks),
      hne _ (by decide : '&' ∈ marks), hne _ (by decide : '>' ∈ marks)]

theorem of_plain (h : ∀ c ∈ x, isMark c = false) (k : Int) : Level k x := by
  induction x with
  | nil => exact nil k
  | cons c x ih =>
    have hc := char (h c List.mem_cons_self) k
    exact hc.append (ih fun d hd => h d (List.mem_cons_of_mem c hd))

/-- Inside brackets a bar parts nothing. -/
theorem bar : Level 1 ['|'] := by
  intro d n hd hn
  have htop : n.isTop = false := by
    rw [hn.isTop_eq, decide_eq_false_iff_not]
    omega
  refine ⟨hn.step_bar, ?_⟩
  simp [hasTopTokenFrom, Nesting.topToken?, htop]

/-- Brackets make a piece level at all depths. -/
theorem bracket (h : Level 1 x) {o c : Char} (ho : Nesting.opens o = true)
    (hc : c = ')' ∨ c = ']' ∨ c = '\x7d') : Level 0 (o :: (x ++ [c])) := by
  intro d n hd hn
  obtain ⟨hn', hfree⟩ := h (d + 1) (n.step o) (by omega) (hn.step_of_opens ho)
  have hopen : n.topToken? o = none := by
    unfold Nesting.opens at ho
    simp only [Bool.or_eq_true, decide_eq_true_eq] at ho
    rcases ho with ((rfl | rfl) | rfl) | rfl <;> simp [Nesting.topToken?]
  have hclose : ∀ m : Nesting, m.topToken? c = none := by
    intro m
    rcases hc with rfl | rfl | rfl <;> simp [Nesting.topToken?]
  rw [List.foldl_cons, List.foldl_append, hasTopTokenFrom, hasTopTokenFrom_append, hfree, hopen]
  refine ⟨?_, ?_⟩
  · have hclosed := hn'.step_of_closes hc
    rw [Int.add_sub_cancel] at hclosed
    exact hclosed
  · simp [hasTopTokenFrom, hclose]

end Level

/-! ## Quotes -/

section

variable {n : Nesting} {q c : Char}

/-- The quote that has opened a literal ends it, unless a backslash stands before it. -/
theorem step_closing (hquote : n.quote = some q) (hescaped : n.escaped = false)
    (hslash : q ≠ '\\') : OutsideAt n.depth (n.step q) := by
  unfold Nesting.step
  rw [hquote]
  simp only [hescaped, Bool.false_eq_true, if_false, if_neg hslash, if_true]
  exact ⟨rfl, rfl, rfl⟩

/-- Any other character leaves a scan inside of the literal. -/
theorem step_staying (hquote : n.quote = some q) (h : n.escaped = true ∨ c = '\\' ∨ c ≠ q) :
    (n.step c).quote = some q ∧ (n.step c).depth = n.depth ∧
      ∀ body, staysInside q n.escaped (c :: body) = staysInside q (n.step c).escaped body := by
  unfold Nesting.step
  rw [hquote]
  cases hescaped : n.escaped with
  | true => exact ⟨rfl, rfl, fun _ => rfl⟩
  | false =>
    dsimp only
    rw [if_neg Bool.false_ne_true]
    by_cases hslash : c = '\\'
    · rw [if_pos hslash]
      exact ⟨rfl, rfl, fun body => by rw [staysInside, if_pos hslash]⟩
    · have hne : c ≠ q := by
        rcases h with h | h | h
        · rw [hescaped] at h
          cases h
        · exact absurd h hslash
        · exact h
      rw [if_neg hslash, if_neg hne]
      refine ⟨rfl, rfl, fun body => ?_⟩
      rw [staysInside, if_neg hslash, decide_eq_true hne, Bool.true_and]

theorem stays_of_staysInside {escaped : Bool} {body : List Char}
    (h : staysInside q escaped (c :: body) = true) : escaped = true ∨ c = '\\' ∨ c ≠ q := by
  cases escaped with
  | true => exact Or.inl rfl
  | false =>
    by_cases hslash : c = '\\'
    · exact Or.inr (Or.inl hslash)
    · rw [staysInside, if_neg hslash, Bool.and_eq_true, decide_eq_true_eq] at h
      exact Or.inr (Or.inr h.1)

end

theorem ne_slash_of_isQuote {q : Char} (hq : Nesting.isQuote q = true) : q ≠ '\\' := by
  rintro rfl
  cases hq

/-- A scan that is inside of quotes stays there until they end, and meets nothing. -/
theorem foldl_step_inside {d : Int} {q : Char} (hq : Nesting.isQuote q = true) {body : List Char}
    {n : Nesting} (hquote : n.quote = some q) (hdepth : n.depth = d)
    (h : staysInside q n.escaped body = true) :
    OutsideAt d ((body ++ [q]).foldl Nesting.step n) ∧
      hasTopTokenFrom topTokens n (body ++ [q]) = false := by
  induction body generalizing n with
  | nil =>
    have hescaped : n.escaped = false := by simpa [staysInside] using h
    refine ⟨hdepth ▸ step_closing hquote hescaped (ne_slash_of_isQuote hq), ?_⟩
    simp [hasTopTokenFrom, topToken?_of_quote hquote]
  | cons c body ih =>
    obtain ⟨hquote', hdepth', hinside⟩ := step_staying hquote (stays_of_staysInside h)
    obtain ⟨houtside, hfree⟩ := ih hquote' (hdepth'.trans hdepth) (hinside body ▸ h)
    rw [List.cons_append, List.foldl_cons, hasTopTokenFrom, topToken?_of_quote hquote, hfree]
    exact ⟨houtside, rfl⟩

namespace Level

/-- A literal is level. -/
theorem quoted {q : Char} (hq : Nesting.isQuote q = true) {body : List Char}
    (h : staysInside q false body = true) (k : Int) : Level k (q :: (body ++ [q])) := by
  intro d n _ hn
  have htoken : n.topToken? q = none := by
    rcases isQuote_cases hq with rfl | rfl | rfl <;> simp [Nesting.topToken?]
  obtain ⟨hquote, hescaped, hdepth⟩ := hn.step_of_quote hq
  obtain ⟨houtside, hfree⟩ := foldl_step_inside hq hquote hdepth (by rw [hescaped]; exact h)
  rw [List.foldl_cons, hasTopTokenFrom, htoken, hfree]
  exact ⟨houtside, rfl⟩

theorem emptied {q : Char} (hq : Nesting.isQuote q = true) (k : Int) :
    Level k (emptied q) := by
  unfold Inference.emptied
  split
  · exact of_plain (by decide) k
  · exact @quoted q hq [] rfl k

end Level

/-! ## Splitting -/

/-- A text in front of the first of some parts. -/
def glue (x : List Char) : List (List Char) → List (List Char)
  | [] => [x]
  | part :: parts => (x ++ part) :: parts

theorem splitUnionFrom_ne_nil (n : Nesting) (s : List Char) : splitUnionFrom n s ≠ [] := by
  induction s generalizing n with
  | nil => exact List.cons_ne_nil _ _
  | cons c s ih =>
    unfold splitUnionFrom
    split
    · exact List.cons_ne_nil _ _
    · split
      · exact List.cons_ne_nil _ _
      · exact List.cons_ne_nil _ _

/-- A union is not split in a piece that has no bar outside of brackets and quotes. -/
theorem splitUnionFrom_append {n : Nesting} {x : List Char}
    (h : hasTopTokenFrom [.bar] n x = false) (rest : List Char) :
    splitUnionFrom n (x ++ rest) = glue x (splitUnionFrom (x.foldl Nesting.step n) rest) := by
  induction x generalizing n with
  | nil =>
    obtain ⟨part, parts, heq⟩ := List.exists_cons_of_ne_nil (splitUnionFrom_ne_nil n rest)
    rw [List.nil_append, List.foldl_nil, heq]
    rfl
  | cons c x ih =>
    rw [hasTopTokenFrom, Bool.or_eq_false_iff] at h
    have hbar : ¬(c = '|' ∧ n.isTop = true) := by
      rintro ⟨rfl, htop⟩
      simp [Nesting.topToken?, htop] at h
    rw [List.cons_append, splitUnionFrom, if_neg hbar, ih h.2, List.foldl_cons]
    cases splitUnionFrom (x.foldl Nesting.step (n.step c)) rest with
    | nil => rfl
    | cons part parts => rfl

/-- A text without such a bar is one part. -/
theorem splitUnionFrom_whole {n : Nesting} {x : List Char}
    (h : hasTopTokenFrom [.bar] n x = false) : splitUnionFrom n x = [x] := by
  have hall := splitUnionFrom_append h []
  rw [List.append_nil] at hall
  rw [hall]
  exact congrArg (fun part => [part]) (List.append_nil x)

/-- A union is split at the first bar outside of brackets and quotes. -/
theorem splitUnionFrom_append_bar {n : Nesting} {x : List Char}
    (h : hasTopTokenFrom [.bar] n x = false) (hends : OutsideAt 0 (x.foldl Nesting.step n))
    (rest : List Char) :
    splitUnionFrom n (x ++ '|' :: rest) =
      x :: splitUnionFrom ((x.foldl Nesting.step n).step '|') rest := by
  have htop : (x.foldl Nesting.step n).isTop = true := by
    rw [hends.isTop_eq]
    rfl
  rw [splitUnionFrom_append h, splitUnionFrom, if_pos ⟨rfl, htop⟩]
  exact congrArg (· :: _) (List.append_nil x)

namespace Level

variable {x : List Char}

theorem splitUnionFrom_eq (h : Level 0 x) {n : Nesting} (hn : OutsideAt 0 n) :
    splitUnionFrom n x = [x] :=
  splitUnionFrom_whole (hasTopTokenFrom_of_topTokens (h 0 n (Int.le_refl 0) hn).2)

theorem splitUnionFrom_bar (h : Level 0 x) {n : Nesting} (hn : OutsideAt 0 n) :
    ∃ n', OutsideAt 0 n' ∧
      ∀ rest, splitUnionFrom n (x ++ '|' :: rest) = x :: splitUnionFrom n' rest := by
  obtain ⟨hn', hfree⟩ := h 0 n (Int.le_refl 0) hn
  exact ⟨_, hn'.step_bar, splitUnionFrom_append_bar (hasTopTokenFrom_of_topTokens hfree) hn'⟩

/-! ## Parentheses -/

/-- A level piece has no parentheses put around it. -/
theorem wrapIf_eq (tokens : List TopToken) {text : String} (h : Level 0 text.toList) :
    wrapIf tokens text = text := by
  have hfree := (h 0 {} (Int.le_refl 0) outsideAt_start).2
  rw [wrapIf, needsParentheses_eq, hasTopToken, hasTopTokenFrom_of_topTokens hfree,
    if_neg Bool.false_ne_true]

end Level

end ElementManifest.Inference

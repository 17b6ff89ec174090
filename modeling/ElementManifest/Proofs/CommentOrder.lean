import ElementManifest.Proofs.TypeTokens

/-!
# Comments in their order

The comments of a source are collected while it is read: each token brings those that stand
before it, and a cursor keeps the ones that it has passed, the newest first. However a reading
goes, forwards, back to where it began, or to a token that is scanned again, no comment is empty
and each one ends before the next one starts:

> `passed_trivia`: what is skipped before a token adds comments behind those that were passed.

> `tidy_advance`: a tidy cursor stays tidy when it goes on.

> `Steady`: a reading that leaves tidy cursors tidy, wherever it ends. The ways to put readings
> together keep this, so an instance for a reader is found from those of its parts.
-/

namespace ElementManifest.TypeScript

open ElementManifest.Text

/-! ## Comments that were passed -/

/-- Comments that were passed at the byte `pos`, the newest first. -/
structure Passed (comments : List Comment) (pos : Nat) : Prop where
  ordered : comments.Pairwise fun newer older => older.span.hi ≤ newer.span.lo
  filled : ∀ k ∈ comments, k.span.lo < k.span.hi
  past : ∀ k ∈ comments, k.span.hi ≤ pos

namespace Passed

variable {comments : List Comment} {pos pos' : Nat}

theorem nil (pos : Nat) : Passed [] pos where
  ordered := .nil
  filled := nofun
  past := nofun

theorem mono (h : Passed comments pos) (hle : pos ≤ pos') : Passed comments pos' where
  ordered := h.ordered
  filled := h.filled
  past k hk := Nat.le_trans (h.past k hk) hle

theorem cons (h : Passed comments pos) {k : Comment} (hlo : pos ≤ k.span.lo)
    (hfilled : k.span.lo < k.span.hi) (hhi : k.span.hi ≤ pos') : Passed (k :: comments) pos' where
  ordered := List.pairwise_cons.mpr
    ⟨fun older holder => Nat.le_trans (h.past older holder) hlo, h.ordered⟩
  filled := List.forall_mem_cons.mpr ⟨hfilled, h.filled⟩
  past := List.forall_mem_cons.mpr
    ⟨hhi, fun older holder => by
      have hpast := h.past older holder
      omega⟩

theorem of_append_right {newer : List Comment} (h : Passed (newer ++ comments) pos) :
    Passed comments pos where
  ordered := (List.pairwise_append.mp h.ordered).2.1
  filled k hk := h.filled k (List.mem_append_right newer hk)
  past k hk := h.past k (List.mem_append_right newer hk)

end Passed

/-! ## Between tokens -/

/-- What is known while blanks and comments are skipped: inside of a block comment, what was
passed ends before it; elsewhere, before the characters that are still to be skipped. -/
def Between.Clear (comments : List Comment) (skip pos : Nat) (s : List Char) : Between → Prop
  | .block lo _ => Passed comments lo ∧ lo ≤ pos
  | .blank | .line => Passed comments (pos + byteCount (s.take skip))

theorem byteCount_take_cons (c : Char) (s : List Char) (n : Nat) :
    byteCount ((c :: s).take (n + 1)) = c.utf8Size + byteCount (s.take n) := by
  rw [List.take_succ_cons, byteCount_cons]

/-- The comments before a token stand behind those that were passed, and before the token. -/
theorem passed_trivia (inType : Bool) (passed : List Comment) (s : List Char) :
    ∀ (mode : Between) (skip pos : Nat) (newline : Bool) (start : Option Nat)
      (comments : List Comment), mode.Clear (comments ++ passed) skip pos s →
      Passed ((trivia inType mode skip pos newline start comments s).comments.reverse ++ passed)
        (trivia inType mode skip pos newline start comments s).pos := by
  induction s with
  | nil =>
    intro mode skip pos newline start comments h
    rw [trivia, List.reverse_reverse]
    cases mode with
    | blank => exact h.mono (Nat.le_of_eq (by rw [List.take_nil]; rfl))
    | line => exact h.mono (Nat.le_of_eq (by rw [List.take_nil]; rfl))
    | block lo text => exact h.1.mono h.2
  | cons c s ih =>
    intro mode skip pos newline start comments h
    cases skip with
    | succ skip =>
      rw [trivia]
      refine ih _ _ _ _ _ _ ?_
      cases mode with
      | block lo text => exact ⟨h.1, Nat.le_trans h.2 (Nat.le_add_right _ _)⟩
      | blank | line =>
        have hreach := h
        unfold Between.Clear at hreach ⊢
        rw [byteCount_take_cons, ← Nat.add_assoc] at hreach
        exact hreach
    | zero =>
      cases mode with
      | line =>
        have hpast : Passed (comments ++ passed) pos := h
        rw [trivia]
        split
        next => exact ih _ _ _ _ _ _ (hpast.mono (by omega))
        next => exact ih _ _ _ _ _ _ (hpast.mono (by omega))
      | block lo text =>
        rw [trivia]
        split
        next hclose =>
          -- the slash that is still to be skipped is the last byte of the comment
          obtain ⟨rest, rfl⟩ : ∃ rest, s = '/' :: rest := by
            cases s with
            | nil => cases hclose.2
            | cons d rest => exact ⟨rest, by rw [Option.some.inj hclose.2]⟩
          refine ih _ _ _ _ _ _ ?_
          have hslash : byteCount (('/' :: rest).take 1) = 1 := rfl
          have hlo := h.2
          unfold Between.Clear
          rw [hslash]
          exact h.1.cons (Nat.le_refl lo) (by dsimp only; omega) (Nat.le_refl _)
        next => exact ih _ _ _ _ _ _ ⟨h.1, Nat.le_trans h.2 (Nat.le_add_right _ _)⟩
      | blank =>
        have hpast : Passed (comments ++ passed) pos := h
        rw [trivia]
        split
        next => exact ih _ _ _ _ _ _ (hpast.mono (by omega))
        split
        next => exact ih _ _ _ _ _ _ (hpast.mono (by omega))
        split
        next => exact ih _ _ _ _ _ _ (hpast.mono (by omega))
        split
        next => exact ih _ _ _ _ _ _ ⟨hpast, Nat.le_add_right _ _⟩
        split
        next => exact ih _ _ _ _ _ _ (hpast.mono (by omega))
        next =>
          rw [List.reverse_reverse]
          exact hpast

/-! ## Cursors -/

/-- A cursor that has passed comments before its token. -/
structure Cursor.Tidy (c : Cursor) : Prop where
  passed : Passed (c.token.comments.reverse ++ c.comments) c.token.lexemeStart
  forward : c.token.lexemeStart ≤ c.token.span.hi

/-- A token that is scanned behind all that was passed. -/
theorem tidy_scan (strict inType : Bool) {comments : List Comment} {pos : Nat} (stop : Nat)
    (newline : Bool) (s : List Char) (h : Passed comments pos) :
    Cursor.Tidy ⟨scan strict inType pos newline s, stop, comments⟩ where
  passed := passed_trivia inType comments s .blank 0 pos newline none [] h
  forward := Nat.le_add_right _ _

theorem tidy_advance (s : Settings) {c : Cursor} (h : c.Tidy) : (Read.Cursor.advance s c).Tidy :=
  tidy_scan true s.inType _ false c.token.rest (h.passed.mono h.forward)

/-- The cursor at which a source is read. -/
theorem tidy_firstToken (s : List Char) (stop : Nat) : Cursor.Tidy ⟨firstToken s, stop, []⟩ :=
  tidy_scan false false stop true _ (.nil _)

/-- A token in the same place as another one, as far as comments go. -/
structure Token.Replaces (t' t : Token) : Prop where
  comments : t'.comments = t.comments
  lexemeStart : t'.lexemeStart = t.lexemeStart
  forward : t.lexemeStart ≤ t.span.hi → t'.lexemeStart ≤ t'.span.hi

theorem Token.replaces_rescan (t : Token) (scanner : List Char → Lexeme × Nat) :
    (t.rescan scanner).Replaces t where
  comments := rfl
  lexemeStart := rfl
  forward _ := Nat.le_add_right _ _

theorem Token.replaces_asOperator (t : Token) : t.asOperator.Replaces t := by
  unfold Token.asOperator
  split
  next => exact t.replaces_rescan _
  next => exact ⟨rfl, rfl, id⟩

/-! ## Steady readings -/

/-- Where a reading ends. -/
def Outcome.cursor {α : Type} : Outcome α → Cursor
  | .ok _ next => next
  | .failed place => place

namespace Read

/-- A reading that leaves a tidy cursor tidy, whether it succeeds or fails. -/
class Steady {α : Type} (p : Read α) : Prop where
  tidy : ∀ s c, c.Tidy → (p s c).cursor.Tidy

variable {α β : Type} {p : Read α}

/-! ### Readings put together -/

instance steady_bind {f : α → Read β} [Steady p] [∀ a, Steady (f a)] : Steady (p >>= f) := by
  refine ⟨fun s c hc => ?_⟩
  have hfirst := Steady.tidy (p := p) s c hc
  show (match p s c with
    | .ok a next => f a s next
    | .failed place => .failed place).cursor.Tidy
  generalize p s c = outcome at hfirst
  cases outcome with
  | ok a next => exact Steady.tidy s next hfirst
  | failed place => exact hfirst

/-- One step of a reader behind which the branches have to be taken one by one. -/
theorem Steady.bind {f : α → Read β} (_ : Steady p) (_ : ∀ a, Steady (f a)) : Steady (p >>= f) :=
  steady_bind

instance steady_pure (a : α) : Steady (pure a : Read α) :=
  ⟨fun _ _ hc => hc⟩

instance steady_map (f : α → β) [Steady p] : Steady (f <$> p) :=
  inferInstanceAs (Steady (p >>= fun a => pure (f a)))

instance steady_fail : Steady (fail : Read α) :=
  ⟨fun _ _ hc => hc⟩

instance steady_ite {c : Prop} [Decidable c] {q : Read α} [Steady p] [Steady q] :
    Steady (if c then p else q) := by
  split
  next => infer_instance
  next => infer_instance

instance steady_guard (b : Bool) : Steady (guard b) := by
  unfold guard
  infer_instance

instance steady_withSettings (f : Settings → Settings) [Steady p] : Steady (withSettings f p) :=
  ⟨fun s c hc => Steady.tidy (p := p) (f s) c hc⟩

instance steady_ahead (p : Read α) : Steady (ahead p) := by
  refine ⟨fun s c hc => ?_⟩
  unfold ahead
  split
  next => exact hc
  next => exact hc

instance steady_aheadTrue (p : Read Bool) : Steady (aheadTrue p) := by
  refine ⟨fun s c hc => ?_⟩
  unfold aheadTrue
  split
  next => exact hc
  next => exact hc

instance steady_attempt {p : Read (Option α)} [Steady p] : Steady (attempt p) := by
  refine ⟨fun s c hc => ?_⟩
  have hread := Steady.tidy (p := p) s c hc
  unfold attempt
  split
  next heq =>
    rw [heq] at hread
    exact hread
  next => exact hc
  next => exact hc

instance steady_attempt? [Steady p] : Steady (attempt? p) := by
  unfold attempt?
  infer_instance

instance steady_orElseAt {recover : Read α} [Steady p] [Steady recover] :
    Steady (orElseAt p recover) := by
  refine ⟨fun s c hc => ?_⟩
  have hread := Steady.tidy (p := p) s c hc
  unfold orElseAt
  split
  next heq =>
    rw [heq] at hread
    exact hread
  next heq =>
    rw [heq] at hread
    exact Steady.tidy (p := recover) s _ hread

/-! ### Repeated readings -/

instance steady_upTo {step : Read (Option α)} [Steady step] (n : Nat) : Steady (upTo step n) := by
  induction n with
  | zero => exact steady_pure []
  | succ n ih =>
    unfold upTo
    refine @steady_bind _ _ _ _ inferInstance fun found => ?_
    split
    all_goals infer_instance

instance steady_many {step : Read (Option α)} [Steady step] : Steady (many step) :=
  ⟨fun s c hc => (@steady_upTo _ step _ _).tidy s c hc⟩

instance steady_growUpTo {step : α → Read (Option α)} [∀ a, Steady (step a)] (n : Nat) (a : α) :
    Steady (growUpTo step n a) := by
  induction n generalizing a with
  | zero => exact steady_pure a
  | succ n ih =>
    unfold growUpTo
    refine @steady_bind _ _ _ _ inferInstance fun found => ?_
    split
    all_goals infer_instance

instance steady_grow {step : α → Read (Option α)} [∀ a, Steady (step a)] (a : α) :
    Steady (grow step a) :=
  ⟨fun s c hc => (@steady_growUpTo _ step _ _ a).tidy s c hc⟩

/-! ### Tokens -/

instance steady_settings : Steady settings :=
  ⟨fun _ _ hc => hc⟩

instance steady_token : Steady token :=
  ⟨fun _ _ hc => hc⟩

instance steady_start : Steady start :=
  ⟨fun _ _ hc => hc⟩

instance steady_spanFrom (lo : Nat) : Steady (spanFrom lo) :=
  ⟨fun _ _ hc => hc⟩

instance steady_second : Steady second :=
  ⟨fun _ _ hc => hc⟩

instance steady_isMark (m : String) : Steady (isMark m) :=
  ⟨fun _ _ hc => hc⟩

instance steady_isMarkIn (ms : List String) : Steady (isMarkIn ms) :=
  ⟨fun _ _ hc => hc⟩

instance steady_failBehind : Steady (failBehind : Read α) :=
  ⟨fun s _ hc => tidy_advance s hc⟩

instance steady_take : Steady take := by
  refine ⟨fun s c hc => ?_⟩
  unfold take
  split
  next => exact hc
  next => exact tidy_advance s hc

instance steady_skip : Steady skip := by
  refine ⟨fun s c hc => ?_⟩
  unfold skip
  split
  next => exact hc
  next => exact tidy_advance s hc

/-! ### Readings that go by the next token -/

/-- A reading that leaves a cursor tidy which is tidy at the token `t`. -/
def SteadyAt (t : Token) (p : Read α) : Prop :=
  ∀ s c, c.Tidy → c.token = t → (p s c).cursor.Tidy

variable {t : Token}

theorem Steady.at (hp : Steady p) (t : Token) : SteadyAt t p :=
  fun s c hc _ => hp.tidy s c hc

theorem steady_token_bind {f : Token → Read α} (h : ∀ t, SteadyAt t (f t)) :
    Steady (token >>= f) :=
  ⟨fun s c hc => h c.token s c hc rfl⟩

theorem steadyAt_settings_bind {f : Settings → Read α} (h : ∀ s, SteadyAt t (f s)) :
    SteadyAt t (settings >>= f) :=
  fun s c hc ht => h s s c hc ht

/-- A reading that takes nothing when the token `t` is next, and finds what has the property
`P`. -/
def PeeksAt (t : Token) (P : α → Prop) (p : Read α) : Prop :=
  ∀ s c, c.token = t → ∃ a, p s c = .ok a c ∧ P a

theorem peeksAt_pure {P : α → Prop} {a : α} (h : P a) : PeeksAt t P (pure a) :=
  fun _ _ _ => ⟨a, rfl, h⟩

theorem peeksAt_token_bind {P : α → Prop} {f : Token → Read α} (h : PeeksAt t P (f t)) :
    PeeksAt t P (token >>= f) := by
  rintro s c rfl
  exact h s c rfl

theorem peeksAt_settings_bind {P : α → Prop} {f : Settings → Read α}
    (h : ∀ s, PeeksAt t P (f s)) : PeeksAt t P (settings >>= f) :=
  fun s c hc => h s s c hc

theorem steadyAt_bind {P : α → Prop} {f : α → Read β} (hp : PeeksAt t P p)
    (hf : ∀ a, P a → SteadyAt t (f a)) : SteadyAt t (p >>= f) := by
  intro s c hc ht
  obtain ⟨a, heq, ha⟩ := hp s c ht
  show (match p s c with
    | .ok a next => f a s next
    | .failed place => .failed place).cursor.Tidy
  rw [heq]
  exact hf a ha s c hc ht

/-- To stand at the next token scanned in another way, and go on from there. -/
theorem steadyAt_replace {t' : Token} (ht : t'.Replaces t) (hp : Steady p) :
    SteadyAt t (standAt t' >>= fun _ => p) := by
  rintro s c hc rfl
  refine hp.tidy s _ ⟨?_, ht.forward hc.forward⟩
  show Passed (t'.comments.reverse ++ c.comments) t'.lexemeStart
  rw [ht.comments, ht.lexemeStart]
  exact hc.passed

/-- To stand at a token that is scanned behind the next one, which is passed over with its
comments. -/
theorem steadyAt_scan (inType : Bool) {pos : Nat} (hpos : t.span.hi ≤ pos) (rest : List Char) :
    SteadyAt t (standAt (scan true inType pos false rest)) := by
  rintro s c hc rfl
  exact tidy_scan true inType c.stop false rest
    (hc.passed.of_append_right.mono (Nat.le_trans hc.forward hpos))

end Read

end ElementManifest.TypeScript

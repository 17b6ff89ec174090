import ElementManifest.Inference
import Mathlib.Data.List.Infix

/-!
# Types in lower case, without the contents of literals

The inference looks at a type in lower case, and with the contents of its literals left out.
Both can be done piece by piece, but for one letter: the lower case of a sigma depends on the
letters around it. No rule of the inference tells one sigma from the other, so it sees the
same if every sigma is written alike:

> `summary_eq`, `serialization_eq`: the inference only looks at the `fold` of a type.

A piece is closed if all its literals are, and the fold of closed pieces is put together from
the folds of the pieces (`Closed.fold_append`).
-/

namespace ElementManifest.Inference

open ElementManifest.Text ElementManifest.Decimal


/-! ## Marks -/

/-- A statement about all characters of a list is decided along the list, not over all that
there are. -/
scoped instance decidableForallMem (s : List Char) (P : Char → Prop) [DecidablePred P] :
    Decidable (∀ c ∈ s, P c) :=
  List.decidableBAll P s

/-- A statement about some character of a list is decided along the list. -/
scoped instance decidableExistsMem (s : List Char) (P : Char → Prop) [DecidablePred P] :
    Decidable (∃ c ∈ s, P c) :=
  List.decidableBEx P s

/-- The characters by which a scan through the text of a type finds its way. -/
def marks : List Char :=
  ['"', '\'', '\x60', '(', ')', '[', ']', '\x7b', '\x7d', '<', '>', '|', '&', '\\', '=']

/-- Whether `c` is one of the marks. -/
def isMark (c : Char) : Bool :=
  marks.contains c

theorem lt_of_isMark {c : Char} (h : isMark c = true) : c.toNat < 0x80 := by
  have hall : ∀ d ∈ marks, d.toNat < 0x80 := by decide
  exact hall c (List.contains_iff_mem.mp h)

/-- The blanks, as ranges of code points. -/
def blankRanges : List (Nat × Nat) :=
  [(0x09, 0x0D), (0x20, 0x20), (0x85, 0x85), (0xA0, 0xA0), (0x1680, 0x1680), (0x2000, 0x200A),
   (0x2028, 0x2029), (0x202F, 0x202F), (0x205F, 0x205F), (0x3000, 0x3000)]

theorem isBlank_iff {c : Char} :
    isBlank c = true ↔ ∃ r ∈ blankRanges, r.1 ≤ c.toNat ∧ c.toNat ≤ r.2 := by
  unfold isBlank blankRanges
  simp only [Bool.or_eq_true, Bool.and_eq_true, decide_eq_true_eq, beq_iff_eq, List.mem_cons,
    List.not_mem_nil, or_false, exists_eq_or_imp, exists_eq_left]
  omega

theorem isMark_of_isBlank {c : Char} (h : isBlank c = true) : isMark c = false := by
  have hall : ∀ d ∈ marks, isBlank d = false := by decide
  rw [Bool.eq_false_iff]
  intro hmark
  rw [hall c (List.contains_iff_mem.mp hmark)] at h
  cases h

/-! ## Single characters -/

/-- Whether a run of the table neither starts nor ends with blanks, and leads to letters. -/
def runKeeps : Nat × Nat × Nat × Nat → Bool
  | (first, last, _, target) =>
    last < 0x80 ||
      ((0x80 ≤ target || (first = last && 0x61 ≤ target && target ≤ 0x7A)) &&
        blankRanges.all fun r =>
          (last < r.1 || r.2 < first) && (target + (last - first) < r.1 || r.2 < target))

theorem runKeeps_of_mem : ∀ run ∈ lowerRuns.runs, runKeeps run = true := by
  have hall : lowerRuns.runs.all runKeeps = true := by decide +kernel
  exact Array.all_eq_true'.mp hall

theorem lowerRuns_find? {n k : Nat} (hn : 0x80 ≤ n) (h : lowerRuns.find? n = some k) :
    (0x80 ≤ k ∨ 0x61 ≤ k ∧ k ≤ 0x7A) ∧
      ∀ r ∈ blankRanges, ¬(r.1 ≤ n ∧ n ≤ r.2) ∧ ¬(r.1 ≤ k ∧ k ≤ r.2) := by
  obtain ⟨⟨first, last, step, target⟩, hmem, hrun⟩ := Array.exists_of_findSome?_eq_some h
  have hkeeps := runKeeps_of_mem _ hmem
  dsimp only at hrun
  split at hrun
  next hin =>
    obtain rfl : target + (n - first) = k := Option.some.inj hrun
    unfold runKeeps at hkeeps
    simp only [Bool.or_eq_true, Bool.and_eq_true, decide_eq_true_eq, List.all_eq_true] at hkeeps
    rcases hkeeps with hlow | ⟨htarget, hblanks⟩
    · omega
    · refine ⟨?_, fun r hr => ?_⟩
      · omega
      · have hr := hblanks r hr
        omega
  next => cases hrun

@[elab_as_elim]
theorem of_ascii {P : Char → Prop} {c : Char} (hc : c.toNat < 0x80)
    (h : ∀ n : Fin 0x80, P (Char.ofNat n)) : P c := by
  have hself : Char.ofNat (⟨c.toNat, hc⟩ : Fin 0x80).val = c := Char.ofNat_toNat c
  exact hself ▸ h ⟨c.toNat, hc⟩

/-- What a character may become: itself, or something that is neither a mark nor blank. -/
def Tame (c : Char) (cs : List Char) : Prop :=
  cs = [c] ∨ (isMark c = false ∧ isBlank c = false) ∧ cs ≠ [] ∧
    ∀ d ∈ cs, isMark d = false ∧ isBlank d = false

theorem tame_lowerChar (c : Char) : Tame c (lowerChar c) := by
  unfold lowerChar
  by_cases hascii : c.toNat < 0x80
  · rw [if_pos hascii]
    have hc : c.toLower = c ∨ (isMark c = false ∧ isBlank c = false) ∧
        isMark c.toLower = false ∧ isBlank c.toLower = false := by
      refine of_ascii hascii ?_
      decide
    rcases hc with heq | ⟨hfree, hmark, hblank⟩
    · exact Or.inl (congrArg (fun d => [d]) heq)
    · refine Or.inr ⟨hfree, List.cons_ne_nil _ _, fun d hd => ?_⟩
      obtain rfl := List.mem_singleton.mp hd
      exact ⟨hmark, hblank⟩
  · rw [if_neg hascii]
    by_cases hdotted : c = '\u0130'
    · rw [if_pos hdotted, hdotted]
      exact Or.inr (by decide)
    · rw [if_neg hdotted]
      cases hfind : lowerRuns.find? c.toNat with
      | none => exact Or.inl rfl
      | some k =>
        obtain ⟨hk, hblanks⟩ := lowerRuns_find? (by omega) hfind
        -- a number that is no character gives the character zero, which is no mark either
        have htoNat : (Char.ofNat k).toNat = k ∨ (Char.ofNat k).toNat = 0 := by
          unfold Char.ofNat
          by_cases hvalid : k.isValidChar
          · rw [dif_pos hvalid]
            exact Or.inl rfl
          · rw [dif_neg hvalid]
            exact Or.inr rfl
        have hmark : ∀ d ∈ marks, d.toNat ≠ 0 ∧ ¬(0x61 ≤ d.toNat ∧ d.toNat ≤ 0x7A) ∧
            d.toNat < 0x80 := by decide
        refine Or.inr ⟨⟨?_, ?_⟩, List.cons_ne_nil _ _, fun d hd => ?_⟩
        · rw [Bool.eq_false_iff]
          exact fun h => hascii (lt_of_isMark h)
        · rw [Bool.eq_false_iff, Ne, isBlank_iff]
          rintro ⟨r, hr, hin⟩
          exact (hblanks r hr).1 hin
        · obtain rfl := List.mem_singleton.mp hd
          constructor
          · rw [Bool.eq_false_iff]
            intro h
            have := hmark _ (List.contains_iff_mem.mp h)
            dsimp only [Option.elim] at this
            omega
          · rw [Bool.eq_false_iff, Ne, isBlank_iff]
            rintro ⟨r, hr, hin⟩
            have hzero : ∀ r ∈ blankRanges, 0 < r.1 := by decide
            have := hzero r hr
            have := (hblanks r hr).2
            dsimp only [Option.elim] at hin
            omega

/-! ## One sigma for both -/

/-- A character, with one form of sigma for both. -/
def oneSigma (c : Char) : Char :=
  if c = 'ς' then 'σ' else c

/-- The lower case of a character, with one form of sigma for both. -/
def lowerAlone (c : Char) : List Char :=
  if c = 'Σ' then ['σ'] else (lowerChar c).map oneSigma

theorem tame_lowerAlone (c : Char) : Tame c (lowerAlone c) := by
  have hone : ∀ d, isMark d = false ∧ isBlank d = false →
      isMark (oneSigma d) = false ∧ isBlank (oneSigma d) = false := by
    intro d hd
    unfold oneSigma
    split
    · exact by decide
    · exact hd
  unfold lowerAlone
  split
  next heq =>
    rw [heq]
    exact Or.inr (by decide)
  next =>
    rcases tame_lowerChar c with heq | ⟨hfree, hne, hall⟩
    · rw [heq, List.map_singleton]
      by_cases hfinal : c = 'ς'
      · rw [hfinal]
        exact Or.inr (by decide)
      · exact Or.inl (congrArg (fun d => [d]) (if_neg hfinal))
    · refine Or.inr ⟨hfree, fun hnil => hne (List.map_eq_nil_iff.mp hnil), fun d hd => ?_⟩
      obtain ⟨e, he, rfl⟩ := List.mem_map.mp hd
      exact hone e (hall e he)

theorem map_oneSigma_lowerAfter (before s : List Char) :
    (lowerAfter before s).map oneSigma = s.flatMap lowerAlone := by
  induction s generalizing before with
  | nil => rfl
  | cons c s ih =>
    rw [lowerAfter, List.map_append, ih, List.flatMap_cons]
    congr 1
    unfold lowerAlone
    split
    · unfold lowerSigma
      split
      · rfl
      · rfl
    · rfl

theorem oneSigma_eq_iff {c d : Char} (h : d ≠ 'σ' ∧ d ≠ 'ς') : oneSigma c = d ↔ c = d := by
  unfold oneSigma
  split
  next heq =>
    rw [heq]
    exact ⟨fun hd => absurd hd.symm h.1, fun hd => absurd hd.symm h.2⟩
  next => rfl

theorem isBlank_oneSigma (c : Char) : isBlank (oneSigma c) = isBlank c := by
  unfold oneSigma
  split
  next heq => rw [heq]; decide
  next => rfl

theorem isWordChar_oneSigma (c : Char) : isWordChar (oneSigma c) = isWordChar c := by
  unfold oneSigma
  split
  next heq => rw [heq]; decide +kernel
  next => rfl

theorem ne_sigma_of_isMark {c : Char} (h : isMark c = true) : c ≠ 'σ' ∧ c ≠ 'ς' := by
  have hall : ∀ d ∈ marks, d ≠ 'σ' ∧ d ≠ 'ς' := by decide
  exact hall c (List.contains_iff_mem.mp h)

/-! ## Masking -/

/-- Whether a masking scan is inside of a literal that a mark has opened, if it is inside. -/
def MaskState.IsMarked : MaskState → Prop
  | .outside => True
  | .inside q _ => isMark q = true

theorem isMarked_outside : MaskState.outside.IsMarked := trivial

theorem isMarked_inside {q : Char} (h : isMark q = true) (escaped : Bool) :
    (MaskState.inside q escaped).IsMarked := h

theorem map_oneSigma_maskFrom (s : List Char) {state : MaskState} (h : state.IsMarked) :
    (maskFrom state s).map oneSigma = maskFrom state (s.map oneSigma) := by
  have hone : ∀ {d : Char}, isMark d = true → ∀ c, oneSigma c = d ↔ c = d :=
    fun hd _ => oneSigma_eq_iff (ne_sigma_of_isMark hd)
  induction s generalizing state with
  | nil => cases state <;> rfl
  | cons c s ih =>
    cases state with
    | outside =>
      simp only [List.map_cons, maskFrom, hone (by decide : isMark '\x60' = true),
        hone (by decide : isMark '"' = true), hone (by decide : isMark '\'' = true)]
      split
      next heq =>
        rw [heq, List.map_append, ih (isMarked_inside (by decide) false)]
        rfl
      next =>
        split
        next hquote =>
          have hmark : isMark c = true := by
            rcases hquote with rfl | rfl
            · decide
            · decide
          rw [List.map_cons, ih (isMarked_inside hmark false), (hone hmark c).mpr rfl]
        next => rw [List.map_cons, ih isMarked_outside]
    | inside q escaped =>
      -- an escaped character is only left out; else the quote that opened is looked for
      cases escaped with
      | true =>
        simp only [List.map_cons, maskFrom]
        exact ih h
      | false =>
        simp only [List.map_cons, maskFrom, hone (by decide : isMark '\\' = true), hone h]
        split
        next => exact ih h
        next =>
          split
          next heq =>
            split
            next => exact ih isMarked_outside
            next => rw [List.map_cons, ih isMarked_outside, (hone h c).mpr heq]
          next => exact ih h

/-- A text in lower case, without the contents of its literals, and with one form of sigma for
both. -/
def fold (s : List Char) : List Char :=
  maskFrom .outside (s.flatMap lowerAlone)

theorem map_oneSigma_masked (type : String) :
    (masked type).map oneSigma = fold (trim type.toList) := by
  unfold masked fold lower
  rw [map_oneSigma_maskFrom _ isMarked_outside, map_oneSigma_lowerAfter]

/-! ## The inference does not tell one sigma from the other -/

/-- A word that has no sigma. -/
def SigmaFree (w : List Char) : Prop :=
  ∀ c ∈ w, c ≠ 'σ' ∧ c ≠ 'ς'

instance (w : List Char) : Decidable (SigmaFree w) :=
  inferInstanceAs (Decidable (∀ c ∈ w, c ≠ 'σ' ∧ c ≠ 'ς'))

section

variable {w : List Char} (hw : SigmaFree w) (m : List Char)

include hw

theorem map_oneSigma_eq_iff : m.map oneSigma = w ↔ m = w := by
  induction m generalizing w with
  | nil => rfl
  | cons c m ih =>
    cases w with
    | nil => exact ⟨nofun, nofun⟩
    | cons d w =>
      rw [List.map_cons, List.cons.injEq, List.cons.injEq,
        oneSigma_eq_iff (hw d List.mem_cons_self),
        ih fun e he => hw e (List.mem_cons_of_mem d he)]

theorem isPrefixOf_map_oneSigma : w.isPrefixOf (m.map oneSigma) = w.isPrefixOf m := by
  rw [Bool.eq_iff_iff, List.isPrefixOf_iff_prefix, List.isPrefixOf_iff_prefix,
    List.prefix_iff_eq_take, List.prefix_iff_eq_take, ← List.map_take, eq_comm,
    map_oneSigma_eq_iff hw, eq_comm]

theorem endsWith_map_oneSigma : endsWith w (m.map oneSigma) = endsWith w m := by
  unfold endsWith
  rw [Bool.eq_iff_iff, List.isSuffixOf_iff_suffix, List.isSuffixOf_iff_suffix,
    List.suffix_iff_eq_drop, List.suffix_iff_eq_drop, ← List.map_drop, List.length_map, eq_comm,
    map_oneSigma_eq_iff hw, eq_comm]

theorem hasInfix_map_oneSigma : hasInfix w (m.map oneSigma) = hasInfix w m := by
  induction m with
  | nil => rfl
  | cons c m ih =>
    rw [List.map_cons, hasInfix, hasInfix, ih, ← List.map_cons, isPrefixOf_map_oneSigma hw]

end

theorem contains_map_oneSigma {d : Char} (h : isMark d = true) (m : List Char) :
    (m.map oneSigma).contains d = m.contains d := by
  rw [Bool.eq_iff_iff, List.contains_iff_mem, List.contains_iff_mem, List.mem_map]
  simp only [oneSigma_eq_iff (ne_sigma_of_isMark h), exists_eq_right]

theorem head?_map_oneSigma {d : Char} (h : isMark d = true) (m : List Char) :
    (m.map oneSigma).head? = some d ↔ m.head? = some d := by
  rw [List.head?_map, Option.map_eq_some_iff]
  simp only [oneSigma_eq_iff (ne_sigma_of_isMark h), exists_eq_right]

theorem getLast?_map_oneSigma {d : Char} (h : isMark d = true) (m : List Char) :
    (m.map oneSigma).getLast? = some d ↔ m.getLast? = some d := by
  rw [List.getLast?_map, Option.map_eq_some_iff]
  simp only [oneSigma_eq_iff (ne_sigma_of_isMark h), exists_eq_right]

theorem dropWhile_map_oneSigma (m : List Char) :
    (m.map oneSigma).dropWhile isBlank = (m.dropWhile isBlank).map oneSigma := by
  have hblank : isBlank ∘ oneSigma = isBlank := funext isBlank_oneSigma
  rw [List.dropWhile_map, hblank]

theorem trim_map_oneSigma (m : List Char) : trim (m.map oneSigma) = (trim m).map oneSigma := by
  unfold trim trimEnd trimStart
  rw [dropWhile_map_oneSigma, ← List.map_reverse, dropWhile_map_oneSigma, List.map_reverse]

/-- What a scan knows, with one form of sigma for both. -/
def oneSigmaIn (n : Nesting) : Nesting :=
  { n with prev := oneSigma n.prev }

theorem decide_oneSigma_eq {d : Char} (h : isMark d = true) (c : Char) :
    decide (oneSigma c = d) = decide (c = d) :=
  decide_eq_decide.mpr (oneSigma_eq_iff (ne_sigma_of_isMark h))

theorem isQuote_oneSigma (c : Char) : Nesting.isQuote (oneSigma c) = Nesting.isQuote c := by
  unfold Nesting.isQuote
  rw [decide_oneSigma_eq (by decide), decide_oneSigma_eq (by decide),
    decide_oneSigma_eq (by decide)]

theorem opens_oneSigma (c : Char) : Nesting.opens (oneSigma c) = Nesting.opens c := by
  unfold Nesting.opens
  rw [decide_oneSigma_eq (by decide), decide_oneSigma_eq (by decide),
    decide_oneSigma_eq (by decide), decide_oneSigma_eq (by decide)]

theorem closes_oneSigma (prev c : Char) :
    Nesting.closes (oneSigma prev) (oneSigma c) = Nesting.closes prev c := by
  have harrow : (oneSigma prev != '=') = (prev != '=') := by
    rw [Bool.eq_iff_iff, bne_iff_ne, bne_iff_ne, Ne, oneSigma_eq_iff (by decide)]
  unfold Nesting.closes
  rw [decide_oneSigma_eq (by decide), decide_oneSigma_eq (by decide),
    decide_oneSigma_eq (by decide), decide_oneSigma_eq (by decide), harrow]

theorem isQuote_cases {c : Char} (h : Nesting.isQuote c = true) :
    c = '"' ∨ c = '\'' ∨ c = '\x60' := by
  unfold Nesting.isQuote at h
  simpa [or_assoc] using h

theorem isMark_of_isQuote {c : Char} (h : Nesting.isQuote c = true) : isMark c = true := by
  rcases isQuote_cases h with rfl | rfl | rfl
  · decide
  · decide
  · decide

theorem oneSigmaIn_step {n : Nesting} (h : ∀ q, n.quote = some q → isMark q = true) (c : Char) :
    oneSigmaIn (n.step c) = (oneSigmaIn n).step (oneSigma c) ∧
      ∀ q, (n.step c).quote = some q → isMark q = true := by
  obtain ⟨quote, escaped, depth, prev⟩ := n
  cases quote with
  | none =>
    simp only [Nesting.step, oneSigmaIn, isQuote_oneSigma, opens_oneSigma, closes_oneSigma]
    split
    next hquote =>
      have hmark := isMark_of_isQuote hquote
      have hself : oneSigma c = c := (oneSigma_eq_iff (ne_sigma_of_isMark hmark)).mpr rfl
      refine ⟨by rw [hself], fun q hq => ?_⟩
      cases hq
      exact hmark
    next =>
      split
      next => exact ⟨rfl, nofun⟩
      next =>
        split
        next => exact ⟨rfl, nofun⟩
        next => exact ⟨rfl, nofun⟩
  | some q =>
    -- no sigma closes a quote, since a quote is a mark
    have hq : ∀ c, oneSigma c = q ↔ c = q :=
      fun _ => oneSigma_eq_iff (ne_sigma_of_isMark (h q rfl))
    simp only [Nesting.step, oneSigmaIn, hq, oneSigma_eq_iff (by decide : '\\' ≠ 'σ' ∧ '\\' ≠ 'ς')]
    split
    next => exact ⟨rfl, h⟩
    next =>
      split
      next => exact ⟨rfl, h⟩
      next =>
        split
        next => exact ⟨rfl, nofun⟩
        next => exact ⟨rfl, h⟩

theorem splitUnionFrom_map_oneSigma (m : List Char) {n : Nesting}
    (h : ∀ q, n.quote = some q → isMark q = true) :
    splitUnionFrom (oneSigmaIn n) (m.map oneSigma) =
      (splitUnionFrom n m).map (List.map oneSigma) := by
  induction m generalizing n with
  | nil => rfl
  | cons c m ih =>
    obtain ⟨hstep, hquote⟩ := oneSigmaIn_step h c
    have hsplit := ih hquote
    have htop : (oneSigmaIn n).isTop = n.isTop := rfl
    simp only [List.map_cons, splitUnionFrom, ← hstep, hsplit, htop,
      oneSigma_eq_iff (by decide : '|' ≠ 'σ' ∧ '|' ≠ 'ς')]
    split
    next => rfl
    next =>
      cases splitUnionFrom (n.step c) m with
      | nil => rfl
      | cons part parts => rfl

theorem splitUnion_map_oneSigma (m : List Char) :
    splitUnion (m.map oneSigma) = (splitUnion m).map (List.map oneSigma) :=
  @splitUnionFrom_map_oneSigma m {} nofun

/-! ## What the inference looks at -/

theorem isNullish_map_oneSigma (m : List Char) : isNullish (m.map oneSigma) = isNullish m := by
  unfold isNullish
  rw [decide_eq_decide.mpr (map_oneSigma_eq_iff (by decide) m),
    decide_eq_decide.mpr (map_oneSigma_eq_iff (by decide) m)]

theorem isBoolean_map_oneSigma (m : List Char) : isBoolean (m.map oneSigma) = isBoolean m := by
  unfold isBoolean
  rw [decide_eq_decide.mpr (map_oneSigma_eq_iff (by decide) m),
    decide_eq_decide.mpr (map_oneSigma_eq_iff (by decide) m),
    decide_eq_decide.mpr (map_oneSigma_eq_iff (by decide) m)]

theorem isTuple_map_oneSigma (m : List Char) : isTuple (m.map oneSigma) = isTuple m := by
  unfold isTuple
  rw [decide_eq_decide.mpr (head?_map_oneSigma (by decide) m),
    decide_eq_decide.mpr (getLast?_map_oneSigma (by decide) m)]

theorem isArraySyntax_map_oneSigma (m : List Char) :
    isArraySyntax (m.map oneSigma) = isArraySyntax m := by
  unfold isArraySyntax
  rw [endsWith_map_oneSigma (by decide), isPrefixOf_map_oneSigma (by decide),
    isPrefixOf_map_oneSigma (by decide), isPrefixOf_map_oneSigma (by decide),
    isTuple_map_oneSigma]

theorem members_map_oneSigma (m : List Char) :
    members (m.map oneSigma) = (members m).map (List.map oneSigma) := by
  have htrim : (splitUnion (m.map oneSigma)).map trim =
      ((splitUnion m).map trim).map (List.map oneSigma) := by
    rw [splitUnion_map_oneSigma, List.map_map, List.map_map]
    exact List.map_congr_left fun part _ => trim_map_oneSigma part
  have hkept : ((fun m => !m.isEmpty && !isNullish m) ∘ List.map oneSigma) =
      fun m => !m.isEmpty && !isNullish m := by
    funext part
    rw [Function.comp_apply, isNullish_map_oneSigma, List.isEmpty_map]
  unfold members
  rw [htrim, List.filter_map, hkept]

/-! ### Numbers -/

/-- Whether a character may stand in the text of a number. -/
def isNumberChar (c : Char) : Bool :=
  c.isAlphanum || c = '+' || c = '-' || c = '.'

theorem mem_skipSign {s : List Char} {c : Char} (h : c ∈ s) :
    isNumberChar c = true ∨ c ∈ skipSign s := by
  unfold skipSign
  split
  next =>
    rcases List.mem_cons.mp h with rfl | h
    · exact Or.inl (by decide)
    · exact Or.inr h
  next =>
    rcases List.mem_cons.mp h with rfl | h
    · exact Or.inl (by decide)
    · exact Or.inr h
  next => exact Or.inr h

theorem isNumberChar_of_isDigit {c : Char} (h : c.isDigit = true) : isNumberChar c = true := by
  unfold isNumberChar Char.isAlphanum
  rw [h, Bool.or_true, Bool.true_or, Bool.true_or, Bool.true_or]

theorem isNumberChar_of_isExponent {s : List Char} (h : isExponent s = true) :
    ∀ c ∈ s, isNumberChar c = true := by
  intro c hc
  cases s with
  | nil => cases hc
  | cons e s =>
    unfold isExponent at h
    simp only [Bool.and_eq_true, Bool.or_eq_true, decide_eq_true_eq, List.all_eq_true] at h
    obtain ⟨⟨he, -⟩, hdigits⟩ := h
    rcases List.mem_cons.mp hc with rfl | hc
    · rcases he with rfl | rfl
      · decide
      · decide
    · rcases mem_skipSign hc with hc | hc
      · exact hc
      · exact isNumberChar_of_isDigit (hdigits c hc)

theorem isNumberChar_of_drop {s : List Char}
    (h : ∀ c ∈ s.drop (s.takeWhile Char.isDigit).length, isNumberChar c = true) :
    ∀ c ∈ s, isNumberChar c = true := by
  intro c hc
  have hwhole := List.prefix_iff_eq_take.mp (List.takeWhile_prefix Char.isDigit (l := s))
  have hdigits : (s.takeWhile Char.isDigit).all Char.isDigit = true := List.all_takeWhile
  rw [← List.take_append_drop (s.takeWhile Char.isDigit).length s, ← hwhole] at hc
  rcases List.mem_append.mp hc with hc | hc
  · exact isNumberChar_of_isDigit (List.all_eq_true.mp hdigits c hc)
  · exact h c hc

theorem isNumberChar_of_isPlainDecimal {s : List Char} (h : isPlainDecimal s = true) :
    ∀ c ∈ s, isNumberChar c = true := by
  unfold isPlainDecimal at h
  dsimp only at h
  refine isNumberChar_of_drop ?_
  split at h
  next rest hrest =>
    rw [hrest]
    rw [Bool.and_eq_true] at h
    intro c hc
    rcases List.mem_cons.mp hc with rfl | hc
    · decide
    · exact isNumberChar_of_drop (isNumberChar_of_isExponent h.2) c hc
  next =>
    rw [Bool.and_eq_true] at h
    exact isNumberChar_of_isExponent h.2

theorem isNumberChar_of_word {s : List Char} {word : String}
    (hletters : word.toList.all Char.isLower = true)
    (h : (String.ofList (s.map Char.toLower) == word) = true) :
    ∀ c ∈ s, isNumberChar c = true := by
  intro c hc
  have hword : s.map Char.toLower = word.toList := by
    rw [← eq_of_beq h, String.toList_ofList]
  have hlower : c.toLower.isLower = true :=
    List.all_eq_true.mp hletters _ (hword ▸ List.mem_map_of_mem hc)
  unfold isNumberChar Char.isAlphanum Char.isAlpha
  unfold Char.toLower at hlower
  split at hlower
  next hupper =>
    rw [show c.isUpper = true from decide_eq_true hupper]
    rfl
  next =>
    rw [hlower]
    simp

/-- A text that is a number has no other characters. -/
theorem isNumberChar_of_isNumberText {s : List Char} (h : isNumberText s = true) :
    ∀ c ∈ s, isNumberChar c = true := by
  intro c hc
  rcases mem_skipSign hc with hc | hc
  · exact hc
  · unfold isNumberText at h
    simp only [Bool.or_eq_true] at h
    rcases h with ((h | h) | h) | h
    · exact isNumberChar_of_word (by decide) h c hc
    · exact isNumberChar_of_word (by decide) h c hc
    · exact isNumberChar_of_word (by decide) h c hc
    · exact isNumberChar_of_isPlainDecimal h c hc

theorem isMark_of_isNumberChar {c : Char} (h : isNumberChar c = true) : isMark c = false := by
  have hall : ∀ d ∈ marks, isNumberChar d = false := by decide
  rw [Bool.eq_false_iff]
  intro hmark
  rw [hall c (List.contains_iff_mem.mp hmark)] at h
  cases h

theorem isNumberText_map_oneSigma (m : List Char) :
    isNumberText (m.map oneSigma) = isNumberText m := by
  have hchar : isNumberChar 'ς' = false ∧ isNumberChar 'σ' = false := by decide
  have hself : (∀ c ∈ m.map oneSigma, isNumberChar c = true) ∨ (∀ c ∈ m, isNumberChar c = true) →
      m.map oneSigma = m := by
    intro h
    refine (List.map_congr_left fun c hc => ?_).trans (List.map_id m)
    refine if_neg ?_
    rintro rfl
    rcases h with h | h
    · have := h _ (List.mem_map_of_mem hc)
      rw [show oneSigma 'ς' = 'σ' from rfl, hchar.2] at this
      cases this
    · have := h _ hc
      rw [hchar.1] at this
      cases this
  rw [Bool.eq_iff_iff]
  constructor
  · intro h
    rw [hself (Or.inl (isNumberChar_of_isNumberText h))] at h
    exact h
  · intro h
    rw [hself (Or.inr (isNumberChar_of_isNumberText h))]
    exact h

theorem isNumber_map_oneSigma (m : List Char) : isNumber (m.map oneSigma) = isNumber m := by
  unfold isNumber
  rw [decide_eq_decide.mpr (map_oneSigma_eq_iff (by decide) m), isNumberText_map_oneSigma]

/-! ### The rules -/

theorem startsCollection_map_oneSigma (m : List Char) :
    startsCollection (m.map oneSigma) = startsCollection m := by
  have hwords : ∀ word ∈ collections, SigmaFree word := by decide
  unfold startsCollection
  rw [Bool.eq_iff_iff, List.any_eq_true, List.any_eq_true]
  refine exists_congr fun word => and_congr_right fun hmem => ?_
  rw [isPrefixOf_map_oneSigma (hwords word hmem), ← List.map_drop, dropWhile_map_oneSigma,
    decide_eq_decide.mpr (head?_map_oneSigma (by decide) _)]

theorem hasStructureFrom_map_oneSigma (m : List Char) (prev : Option Char) :
    hasStructureFrom (prev.map oneSigma) (m.map oneSigma) = hasStructureFrom prev m := by
  induction m generalizing prev with
  | nil => rfl
  | cons c m ih =>
    have hprev : (prev.map oneSigma).any isWordChar = prev.any isWordChar := by
      cases prev with
      | none => rfl
      | some p => exact isWordChar_oneSigma p
    rw [List.map_cons, hasStructureFrom, hasStructureFrom, ← List.map_cons, hprev,
      isPrefixOf_map_oneSigma (by decide), startsCollection_map_oneSigma,
      decide_oneSigma_eq (by decide)]
    exact congrArg _ (ih (some c))

theorem summaryByWords_map_oneSigma (m : List Char) :
    summaryByWords (m.map oneSigma) = summaryByWords m := by
  unfold summaryByWords
  simp only [hasInfix_map_oneSigma (by decide : SigmaFree "string".toList),
    hasInfix_map_oneSigma (by decide : SigmaFree "number".toList),
    hasInfix_map_oneSigma (by decide : SigmaFree "boolean".toList),
    hasInfix_map_oneSigma (by decide : SigmaFree "array".toList),
    hasInfix_map_oneSigma (by decide : SigmaFree "readonly".toList),
    hasInfix_map_oneSigma (by decide : SigmaFree "object".toList),
    hasInfix_map_oneSigma (by decide : SigmaFree "record".toList),
    endsWith_map_oneSigma (by decide : SigmaFree "[]".toList),
    contains_map_oneSigma (by decide : isMark '\x7b' = true)]

theorem summaryOf_map_oneSigma (m : List Char) : summaryOf (m.map oneSigma) = summaryOf m := by
  unfold summaryOf
  rw [members_map_oneSigma, summaryByWords_map_oneSigma]
  match members m with
  | [] => rfl
  | [single] =>
    show (if isArraySyntax (single.map oneSigma) then Summary.array else _) = _
    rw [isArraySyntax_map_oneSigma]
  | _ :: _ :: _ => rfl

theorem serializationOf_map_oneSigma (m : List Char) :
    serializationOf (m.map oneSigma) = serializationOf m := by
  have htuple : isTuple ∘ List.map oneSigma = isTuple := funext isTuple_map_oneSigma
  have hboolean : isBoolean ∘ List.map oneSigma = isBoolean := funext isBoolean_map_oneSigma
  have hnumber : isNumber ∘ List.map oneSigma = isNumber := funext isNumber_map_oneSigma
  have hstructure : hasStructure (m.map oneSigma) = hasStructure m :=
    hasStructureFrom_map_oneSigma m none
  unfold serializationOf
  simp only [members_map_oneSigma, hstructure, List.any_map, List.all_map, List.isEmpty_map,
    htuple, hboolean, hnumber,
    hasInfix_map_oneSigma (by decide : SigmaFree "object".toList),
    hasInfix_map_oneSigma (by decide : SigmaFree "string".toList),
    hasInfix_map_oneSigma (by decide : SigmaFree "null".toList),
    hasInfix_map_oneSigma (by decide : SigmaFree "undefined".toList),
    contains_map_oneSigma (by decide : isMark '|' = true)]

/-- What the inference looks at. -/
theorem summary_eq (type : String) : summary type = summaryOf (fold (trim type.toList)) := by
  rw [← map_oneSigma_masked, summaryOf_map_oneSigma]
  rfl

theorem serialization_eq (type : String) :
    serialization type = serializationOf (fold (trim type.toList)) := by
  rw [← map_oneSigma_masked, serializationOf_map_oneSigma]
  rfl

/-! ## Closed pieces -/

/-- Whether all literals of a piece end in it, so that it has a fold of its own. -/
def Closed (x : List Char) : Prop :=
  ∀ y, fold (x ++ y) = fold x ++ fold y

theorem Closed.append {x y : List Char} (hx : Closed x) (hy : Closed y) : Closed (x ++ y) := by
  intro z
  rw [List.append_assoc, hx, hy, hx, List.append_assoc]

theorem eq_of_mem_lowerAlone {c d : Char} (h : d ∈ lowerAlone c) (hmark : isMark d = true) :
    d = c := by
  rcases tame_lowerAlone c with heq | ⟨-, -, hall⟩
  · rw [heq] at h
    exact List.mem_singleton.mp h
  · rw [(hall d h).1] at hmark
    cases hmark

theorem lowerAlone_of_isMark {c : Char} (h : isMark c = true) : lowerAlone c = [c] := by
  rcases tame_lowerAlone c with heq | ⟨⟨hfree, -⟩, -, -⟩
  · exact heq
  · rw [hfree] at h
    cases h

theorem lowerAlone_of_isBlank {c : Char} (h : isBlank c = true) : lowerAlone c = [c] := by
  rcases tame_lowerAlone c with heq | ⟨⟨-, hfree⟩, -, -⟩
  · exact heq
  · rw [hfree] at h
    cases h

/-! ### Pieces without literals -/

/-- Whether no literal starts in a piece. -/
def QuoteFree (x : List Char) : Prop :=
  ∀ c ∈ x, Nesting.isQuote c = false

theorem maskFrom_outside_of_quoteFree {x : List Char} (h : QuoteFree x) (y : List Char) :
    maskFrom .outside (x ++ y) = x ++ maskFrom .outside y := by
  induction x with
  | nil => rfl
  | cons c x ih =>
    have hc := h c List.mem_cons_self
    unfold Nesting.isQuote at hc
    simp only [Bool.or_eq_false_iff, decide_eq_false_iff_not] at hc
    obtain ⟨⟨hdouble, hsingle⟩, htemplate⟩ := hc
    simp only [List.cons_append, maskFrom, if_neg htemplate,
      if_neg (not_or.mpr ⟨hdouble, hsingle⟩)]
    rw [ih fun d hd => h d (List.mem_cons_of_mem c hd)]

theorem QuoteFree.flatMap {x : List Char} (h : QuoteFree x) :
    QuoteFree (x.flatMap lowerAlone) := by
  intro d hd
  obtain ⟨c, hc, hd⟩ := List.mem_flatMap.mp hd
  rw [Bool.eq_false_iff]
  intro hquote
  rw [eq_of_mem_lowerAlone hd (isMark_of_isQuote hquote), h c hc] at hquote
  cases hquote

theorem fold_append_of_quoteFree {x : List Char} (h : QuoteFree x) (y : List Char) :
    fold (x ++ y) = x.flatMap lowerAlone ++ fold y := by
  unfold fold
  rw [List.flatMap_append, maskFrom_outside_of_quoteFree h.flatMap]

theorem fold_of_quoteFree {x : List Char} (h : QuoteFree x) : fold x = x.flatMap lowerAlone := by
  have happend := fold_append_of_quoteFree h []
  rw [List.append_nil] at happend
  exact happend.trans (List.append_nil _)

theorem QuoteFree.closed {x : List Char} (h : QuoteFree x) : Closed x := by
  intro y
  rw [fold_append_of_quoteFree h, fold_of_quoteFree h]

/-! ### Literals -/

/-- Whether a scan that is inside of a literal is still inside behind a text, and the next
character counts. -/
def staysInside (q : Char) : Bool → List Char → Bool
  | escaped, [] => !escaped
  | true, _ :: s => staysInside q false s
  | false, c :: s => if c = '\\' then staysInside q true s else c ≠ q && staysInside q false s

/-- What is left of a literal. -/
def emptied (q : Char) : List Char :=
  if q = '\x60' then "string".toList else [q, q]

theorem maskFrom_inside_skip {q : Char} {x : List Char} (h : ∀ c ∈ x, c ≠ '\\' ∧ c ≠ q)
    (y : List Char) : maskFrom (.inside q false) (x ++ y) = maskFrom (.inside q false) y := by
  induction x with
  | nil => rfl
  | cons c x ih =>
    obtain ⟨hescape, hquote⟩ := h c List.mem_cons_self
    simp only [List.cons_append, maskFrom, if_neg hescape, if_neg hquote]
    exact ih fun d hd => h d (List.mem_cons_of_mem c hd)

theorem maskFrom_inside {q : Char} (hq : Nesting.isQuote q = true) {body : List Char}
    {escaped : Bool} (h : staysInside q escaped body = true) (y : List Char) :
    maskFrom (.inside q escaped) (body.flatMap lowerAlone ++ q :: y) =
      (if q = '\x60' then [] else [q]) ++ maskFrom .outside y := by
  have hmark := isMark_of_isQuote hq
  have hslash : q ≠ '\\' := by
    rintro rfl
    cases hq
  induction body generalizing escaped with
  | nil =>
    cases escaped with
    | true => cases h
    | false =>
      simp only [List.flatMap_nil, List.nil_append, maskFrom, if_neg hslash, if_pos]
      split
      · rfl
      · rfl
  | cons c body ih =>
    rw [List.flatMap_cons, List.append_assoc]
    cases escaped with
    | true =>
      -- the escaped character may become two, of which only the first is escaped
      rw [← ih h]
      rcases tame_lowerAlone c with heq | ⟨-, hne, hall⟩
      · rw [heq]
        rfl
      · obtain ⟨d, ds, hcons⟩ := List.exists_cons_of_ne_nil hne
        rw [hcons, List.cons_append, maskFrom]
        refine maskFrom_inside_skip (fun e he => ?_) _
        have hfree := (hall e (hcons ▸ List.mem_cons_of_mem d he)).1
        constructor
        · rintro rfl
          cases hfree
        · rintro rfl
          rw [hmark] at hfree
          cases hfree
    | false =>
      unfold staysInside at h
      split at h
      next heq =>
        rw [heq, lowerAlone_of_isMark (by decide), ← ih h]
        rfl
      next hescape =>
        rw [Bool.and_eq_true, decide_eq_true_eq] at h
        rw [← ih h.2]
        refine maskFrom_inside_skip (fun d hd => ?_) _
        constructor
        · rintro rfl
          exact hescape (eq_of_mem_lowerAlone hd (by decide)).symm
        · rintro rfl
          exact h.1 (eq_of_mem_lowerAlone hd hmark).symm

/-- A text in quotes that no quote ends early is emptied. -/
theorem fold_quoted {q : Char} (hq : Nesting.isQuote q = true) {body : List Char}
    (h : staysInside q false body = true) (y : List Char) :
    fold (q :: (body ++ q :: y)) = emptied q ++ fold y := by
  have hlow := lowerAlone_of_isMark (isMark_of_isQuote hq)
  have hinside := maskFrom_inside hq h (y.flatMap lowerAlone)
  have hdouble : q ≠ '\x60' → q = '"' ∨ q = '\'' := by
    intro htemplate
    simpa [htemplate] using isQuote_cases hq
  unfold fold emptied
  rw [List.flatMap_cons, List.flatMap_append, List.flatMap_cons, hlow]
  simp only [List.singleton_append, maskFrom, hinside]
  by_cases htemplate : q = '\x60'
  · rw [if_pos htemplate, if_pos htemplate, if_pos htemplate]
    rfl
  · rw [if_neg htemplate, if_pos (hdouble htemplate), if_neg htemplate, if_neg htemplate]
    rfl

theorem fold_literal {q : Char} (hq : Nesting.isQuote q = true) {body : List Char}
    (h : staysInside q false body = true) : fold (q :: (body ++ [q])) = emptied q :=
  (fold_quoted hq h []).trans (List.append_nil _)

theorem closed_quoted {q : Char} (hq : Nesting.isQuote q = true) {body : List Char}
    (h : staysInside q false body = true) : Closed (q :: (body ++ [q])) := by
  intro y
  rw [fold_literal hq h, List.cons_append, List.append_assoc, List.singleton_append,
    fold_quoted hq h]

end ElementManifest.Inference

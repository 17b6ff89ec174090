import ElementManifest.Proofs.MemberRules
import Mathlib.Data.List.DropRight

/-!
# The order of the members of a union

A union is written by joining its members with bars. Each member can be anything whose brackets
and quotes are balanced and that no bar parts. Taking the members apart again gives them back as
the inference sees them (`members_unionOf`), since a scan through what is seen of a member goes in
step with a scan through the member. So what the inference tells of a union it tells by the members:

> `serialization_unionOf`: the way of writing does not depend on the order of the members, and a
> union is written as JSON if and only if one of its members is.

> `summary_unionOf_eq_iff`: the kind does not depend on members for absent values, and it depends on
> the order of the others just where nothing settles it before the end of the union is looked at.
-/

namespace ElementManifest.Inference

open ElementManifest.Text

/-! ## Scans in step -/

/-- Whether two scans go on alike. Of the character before it only counts whether it may start an
arrow. -/
structure InStep (n n' : Nesting) : Prop where
  quote : n.quote = n'.quote
  escaped : n.escaped = n'.escaped
  depth : n.depth = n'.depth
  arrow : n.prev = '=' ↔ n'.prev = '='

namespace InStep

variable {n n' : Nesting}

theorem of_outsideAt {d : Int} (hn : OutsideAt d n) (hn' : OutsideAt d n')
    (harrow : n.prev = '=' ↔ n'.prev = '=') : InStep n n' where
  quote := hn.quote.trans hn'.quote.symm
  escaped := hn.escaped.trans hn'.escaped.symm
  depth := hn.depth.trans hn'.depth.symm
  arrow := harrow

theorem outsideAt (h : InStep n n') {d : Int} (hn : OutsideAt d n) : OutsideAt d n' :=
  ⟨h.quote ▸ hn.quote, h.escaped ▸ hn.escaped, h.depth ▸ hn.depth⟩

theorem isTop_eq (h : InStep n n') : n.isTop = n'.isTop := by
  unfold Nesting.isTop
  rw [h.quote, h.depth]

/-- Behind the next character both know the same. -/
theorem step_eq (h : InStep n n') (c : Char) : n.step c = n'.step c := by
  obtain ⟨quote, escaped, depth, prev⟩ := n
  obtain ⟨quote', escaped', depth', prev'⟩ := n'
  obtain ⟨rfl, rfl, rfl, harrow⟩ := h
  have harrow' : (prev != '=') = (prev' != '=') := by
    rw [Bool.eq_iff_iff, bne_iff_ne, bne_iff_ne, Ne, harrow]
  have hcloses : Nesting.closes prev c = Nesting.closes prev' c := by
    unfold Nesting.closes
    rw [harrow']
  unfold Nesting.step
  dsimp only
  rw [hcloses]

theorem step (h : InStep n n') (c : Char) : InStep (n.step c) (n'.step c) := by
  rw [h.step_eq c]
  exact ⟨rfl, rfl, rfl, Iff.rfl⟩

theorem topToken?_eq (h : InStep n n') (c : Char) : n.topToken? c = n'.topToken? c := by
  unfold Nesting.topToken?
  rw [h.isTop_eq]
  simp only [h.arrow]

theorem splitUnionFrom_eq (h : InStep n n') (s : List Char) :
    splitUnionFrom n s = splitUnionFrom n' s := by
  cases s with
  | nil => rfl
  | cons c s => rw [splitUnionFrom, splitUnionFrom, h.isTop_eq, h.step_eq]

theorem hasTopTokenFrom_eq (h : InStep n n') (tokens : List TopToken) (s : List Char) :
    hasTopTokenFrom tokens n s = hasTopTokenFrom tokens n' s := by
  cases s with
  | nil => rfl
  | cons c s => rw [hasTopTokenFrom, hasTopTokenFrom, h.topToken?_eq, h.step_eq]

end InStep

/-- A piece that leaves a scan where it is, and does not end with the start of an arrow. -/
structure Still (x : List Char) : Prop where
  level : ∀ k, Level k x
  last : ∃ y c, x = y ++ [c] ∧ c ≠ '='

namespace Still

variable {x x' : List Char}

theorem of_plain (hne : x ≠ []) (h : ∀ c ∈ x, isMark c = false) : Still x := by
  refine ⟨Level.of_plain h, ?_⟩
  rcases List.eq_nil_or_concat x with rfl | ⟨y, c, rfl⟩
  · exact absurd rfl hne
  · rw [List.concat_eq_append] at h ⊢
    refine ⟨y, c, rfl, ?_⟩
    rintro rfl
    exact absurd (h '=' (by simp)) (by decide)

theorem quoted {q : Char} (hq : Nesting.isQuote q = true) {body : List Char}
    (h : staysInside q false body = true) : Still (q :: (body ++ [q])) := by
  refine ⟨Level.quoted hq h, q :: body, q, rfl, ?_⟩
  rintro rfl
  cases hq

theorem emptied {q : Char} (hq : Nesting.isQuote q = true) : Still (emptied q) := by
  unfold Inference.emptied
  split
  · exact of_plain (by decide) (by decide)
  · exact @quoted q hq [] rfl

/-- Scans from one depth are in step behind pieces that leave them there. -/
theorem scan (hx : Still x) (hx' : Still x') {d : Int} {n n' : Nesting} (hn : OutsideAt d n)
    (hn' : OutsideAt d n') (tokens : List TopToken) :
    OutsideAt d (x.foldl Nesting.step n) ∧
      InStep (x.foldl Nesting.step n) (x'.foldl Nesting.step n') ∧
        hasTopTokenFrom tokens n x = false ∧ hasTopTokenFrom tokens n' x' = false := by
  have hprev : ∀ {x}, Still x → ∀ n, (x.foldl Nesting.step n).prev ≠ '=' := by
    rintro x ⟨-, y, c, rfl, hc⟩ n
    rw [List.foldl_append, List.foldl_cons, List.foldl_nil, prev_step]
    exact hc
  obtain ⟨hends, hfree⟩ := hx.level d d n (Int.le_refl d) hn
  obtain ⟨hends', hfree'⟩ := hx'.level d d n' (Int.le_refl d) hn'
  exact ⟨hends, .of_outsideAt hends hends' (iff_of_false (hprev hx n) (hprev hx' n')),
    hasTopTokenFrom_of_topTokens hfree, hasTopTokenFrom_of_topTokens hfree'⟩

end Still

/-- **A scan through what the inference sees of a text goes in step with one through the text.** -/
theorem WellQuoted.scan_fold {s : List Char} (h : WellQuoted s) {d : Int} {n n' : Nesting}
    (hn : OutsideAt d n) (hstep : InStep n n') (tokens : List TopToken) :
    (∃ d', OutsideAt d' (s.foldl Nesting.step n)) ∧
      InStep (s.foldl Nesting.step n) ((fold s).foldl Nesting.step n') ∧
        hasTopTokenFrom tokens n' (fold s) = hasTopTokenFrom tokens n s := by
  induction h generalizing d n n' with
  | nil => exact ⟨⟨d, hn⟩, hstep, rfl⟩
  | @char c s hc _ ih =>
    rw [fold_char hc]
    rcases tame_lowerAlone c with heq | ⟨hplain, hne, hall⟩
    · -- the same character takes both scans to the same place
      obtain ⟨d', hn'⟩ := hn.exists_step hc
      obtain ⟨hends, hin, htokens⟩ := ih hn' (hstep.step c)
      rw [heq, List.singleton_append, hasTopTokenFrom, hasTopTokenFrom, htokens, hstep.topToken?_eq]
      exact ⟨hends, hin, rfl⟩
    · -- what changes in lower case is no mark, and becomes none
      have hc' : Still [c] := .of_plain (List.cons_ne_nil c []) (by simpa using hplain.1)
      have hlower : Still (lowerAlone c) := .of_plain hne fun d hd => (hall d hd).1
      obtain ⟨hn', hin, hfree, hfree'⟩ := hc'.scan hlower hn (hstep.outsideAt hn) tokens
      obtain ⟨hends, hin', htokens⟩ := ih hn' hin
      rw [← List.singleton_append, hasTopTokenFrom_append, hasTopTokenFrom_append, hfree, hfree',
        List.foldl_append, List.foldl_append, htokens]
      exact ⟨hends, hin', rfl⟩
  | @literal q body s hq hbody _ ih =>
    -- a literal and what is left of it have nothing in them that counts
    obtain ⟨hn', hin, hfree, hfree'⟩ :=
      (Still.quoted hq hbody).scan (.emptied hq) hn (hstep.outsideAt hn) tokens
    obtain ⟨hends, hin', htokens⟩ := ih hn' hin
    have hsplit : q :: (body ++ q :: s) = (q :: (body ++ [q])) ++ s := by simp
    rw [fold_quoted hq hbody, hsplit, hasTopTokenFrom_append, hasTopTokenFrom_append, hfree,
      hfree', List.foldl_append, List.foldl_append, htokens]
    exact ⟨hends, hin', rfl⟩

/-! ## Members -/

/-- What can be a member of a union: its brackets and quotes are balanced, and no bar parts it. -/
structure IsMember (m : String) : Prop where
  balanced : (m.toList.foldl Nesting.step {}).isTop = true
  whole : hasTopToken [.bar] m.toList = false

instance (m : String) : Decidable (IsMember m) :=
  decidable_of_iff ((m.toList.foldl Nesting.step {}).isTop = true ∧
    hasTopToken [.bar] m.toList = false) ⟨fun h => ⟨h.1, h.2⟩, fun h => ⟨h.balanced, h.whole⟩⟩

/-- A piece that a scan leaves outside of brackets and quotes, without a bar on the way. -/
def Whole (x : List Char) : Prop :=
  ∀ n, OutsideAt 0 n → n.prev ≠ '=' →
    OutsideAt 0 (x.foldl Nesting.step n) ∧ hasTopTokenFrom [.bar] n x = false

namespace IsMember

variable {m : String}

theorem wellQuoted (h : IsMember m) : WellQuoted m.toList := by
  have hbalanced := h.balanced
  unfold Nesting.isTop at hbalanced
  rw [Bool.and_eq_true, Option.isNone_iff_eq_none] at hbalanced
  exact QuotesClosed.wellQuoted hbalanced.1

/-- What the inference sees of a member is whole wherever it stands in a union. -/
theorem whole_fold (h : IsMember m) : Whole (fold m.toList) := by
  intro n hn hprev
  have hin : InStep {} n := .of_outsideAt outsideAt_start hn (iff_of_false (by decide) hprev)
  obtain ⟨⟨d, hends⟩, hin', htokens⟩ := h.wellQuoted.scan_fold outsideAt_start hin [.bar]
  have hdepth : d = 0 := by
    have hbalanced := h.balanced
    rwa [hends.isTop_eq, decide_eq_true_eq] at hbalanced
  exact ⟨hin'.outsideAt (hdepth ▸ hends), htokens.trans h.whole⟩

end IsMember

/-! ## Taking a union apart -/

theorem map_trim_glue {b : List Char} (hb : Blanks b) {ps : List (List Char)} (hne : ps ≠ []) :
    (glue b ps).map trim = ps.map trim := by
  obtain ⟨p, ps, rfl⟩ := List.exists_cons_of_ne_nil hne
  exact congrArg (· :: _) (trim_blanks_append hb p)

/-- Blanks leave a scan outside of brackets and quotes where it is. -/
theorem scan_blanks {b : List Char} (hb : Blanks b) {n : Nesting} (hn : OutsideAt 0 n)
    (hprev : n.prev ≠ '=') :
    OutsideAt 0 (b.foldl Nesting.step n) ∧ (b.foldl Nesting.step n).prev ≠ '=' := by
  induction b generalizing n with
  | nil => exact ⟨hn, hprev⟩
  | cons c b ih =>
    have hmark := isMark_of_isBlank (hb c List.mem_cons_self)
    refine ih (fun d hd => hb d (List.mem_cons_of_mem c hd)) ?_ ?_
    · exact (Level.char hmark 0 0 n (Int.le_refl 0) hn).1
    · rw [prev_step]
      rintro rfl
      exact absurd hmark (by decide)

theorem hasTopTokenFrom_of_not_mem {x : List Char} (h : '|' ∉ x) (n : Nesting) :
    hasTopTokenFrom [.bar] n x = false := by
  induction x generalizing n with
  | nil => rfl
  | cons c x ih =>
    rw [List.mem_cons, not_or] at h
    have hc : (n.topToken? c).any [TopToken.bar].contains = false := by
      unfold Nesting.topToken?
      rw [if_neg (Ne.symm h.1)]
      split
      · rfl
      · split
        · rfl
        · split
          · rfl
          · rfl
    rw [hasTopTokenFrom, hc, ih h.2]
    rfl

/-- Blanks at the end of a text stand at the end of its last part. -/
theorem splitUnionFrom_append_blanks {b : List Char} (hb : Blanks b) (s : List Char) (n : Nesting) :
    ∃ ps p, splitUnionFrom n s = ps ++ [p] ∧ splitUnionFrom n (s ++ b) = ps ++ [p ++ b] := by
  induction s generalizing n with
  | nil =>
    exact ⟨[], [], rfl, splitUnionFrom_whole (hasTopTokenFrom_of_not_mem (bar_notMem_blanks hb) n)⟩
  | cons c s ih =>
    obtain ⟨ps, p, hs, hs'⟩ := ih (n.step c)
    rw [List.cons_append, splitUnionFrom, splitUnionFrom, hs, hs']
    split
    next => exact ⟨[] :: ps, p, rfl, rfl⟩
    next =>
      cases ps with
      | nil => exact ⟨[], c :: p, rfl, rfl⟩
      | cons q ps => exact ⟨(c :: q) :: ps, p, rfl, rfl⟩

/-- The blanks around a text make no difference to its parts. -/
theorem parts_trim (s : List Char) : parts (trim s) = parts s := by
  obtain ⟨b, b', hb, hb', hs⟩ := exists_trim s
  obtain ⟨ps, p, hparts, hparts'⟩ := splitUnionFrom_append_blanks hb' (trim s) {}
  -- a scan behind the first blanks goes on as one that starts there
  obtain ⟨hends, hprev⟩ := scan_blanks hb outsideAt_start (by decide)
  have hfree := hasTopTokenFrom_of_not_mem (bar_notMem_blanks hb) {}
  have hin : InStep (b.foldl Nesting.step {}) {} :=
    .of_outsideAt hends outsideAt_start (iff_of_false hprev (by decide))
  unfold parts splitUnion
  conv_rhs => rw [hs]
  rw [splitUnionFrom_append hfree, map_trim_glue hb (splitUnionFrom_ne_nil _ _),
    hin.splitUnionFrom_eq, hparts, hparts', List.map_append, List.map_append, List.map_singleton,
    List.map_singleton, trim_append_blanks hb']

/-- What stands between two members of a union. -/
def unionBar : List Char :=
  " | ".toList

/-- The first of two pieces with a bar between them is the first part, if it is whole. -/
theorem map_trim_splitUnionFrom_bar {f : List Char} (h : Whole f) {n : Nesting}
    (hn : OutsideAt 0 n) (hprev : n.prev ≠ '=') :
    ∃ n', OutsideAt 0 n' ∧ n'.prev ≠ '=' ∧ ∀ rest,
      (splitUnionFrom n (f ++ (unionBar ++ rest))).map trim =
        trim f :: (splitUnionFrom n' rest).map trim := by
  have hblank : Blanks [' '] := by
    unfold Blanks
    decide
  have hspace (n : Nesting) : hasTopTokenFrom [.bar] n [' '] = false :=
    hasTopTokenFrom_of_not_mem (by decide) n
  obtain ⟨hends, hfree⟩ := h n hn hprev
  have hends' : OutsideAt 0 ((f ++ [' ']).foldl Nesting.step n) := by
    rw [List.foldl_append]
    exact hends.step_of_plain rfl rfl rfl
  have hfree' : hasTopTokenFrom [.bar] n (f ++ [' ']) = false := by
    rw [hasTopTokenFrom_append, hfree, hspace]
    rfl
  have hnext : OutsideAt 0 ((((f ++ [' ']).foldl Nesting.step n).step '|').step ' ') :=
    hends'.step_bar.step_of_plain rfl rfl rfl
  refine ⟨_, hnext, ?_, fun rest => ?_⟩
  · rw [prev_step]
    decide
  · -- of the blanks around the bar one goes to each side, where it is taken off
    have htext : f ++ (unionBar ++ rest) = f ++ [' '] ++ '|' :: ([' '] ++ rest) := by
      rw [unionBar]
      simp
    rw [htext, splitUnionFrom_append_bar hfree' hends', splitUnionFrom_append (hspace _),
      List.map_cons, map_trim_glue hblank (splitUnionFrom_ne_nil _ _), trim_append_blanks hblank]
    rfl

/-- Whole pieces with bars between them are taken apart as they were put together. -/
theorem map_trim_splitUnionFrom_intercalate {fs : List (List Char)} (hne : fs ≠ [])
    (h : ∀ f ∈ fs, Whole f) {n : Nesting} (hn : OutsideAt 0 n) (hprev : n.prev ≠ '=') :
    (splitUnionFrom n (unionBar.intercalate fs)).map trim = fs.map trim := by
  induction fs generalizing n with
  | nil => exact absurd rfl hne
  | cons f fs ih =>
    have hf := h f List.mem_cons_self
    cases fs with
    | nil =>
      rw [List.intercalate_singleton, splitUnionFrom_whole (hf n hn hprev).2]
    | cons g fs =>
      obtain ⟨n', hn', hprev', hsplit⟩ := map_trim_splitUnionFrom_bar hf hn hprev
      have hrest :=
        ih (List.cons_ne_nil g fs) (fun x hx => h x (List.mem_cons_of_mem f hx)) hn' hprev'
      rw [List.intercalate_cons_cons, List.append_assoc, hsplit, hrest, ← List.map_cons]

/-- The text of a union. -/
def unionOf (ms : List String) : String :=
  " | ".intercalate ms

/-- What the inference sees of a type. -/
def reading (type : String) : List Char :=
  fold (trim type.toList)

theorem wellQuoted_intercalate {ys : List (List Char)} (h : ∀ y ∈ ys, WellQuoted y) :
    WellQuoted (unionBar.intercalate ys) ∧
      fold (unionBar.intercalate ys) = unionBar.intercalate (ys.map fold) := by
  have hfree : QuoteFree unionBar := by
    unfold QuoteFree
    decide
  induction ys with
  | nil => exact ⟨.nil, rfl⟩
  | cons y ys ih =>
    have hy := h y List.mem_cons_self
    cases ys with
    | nil =>
      rw [List.map_singleton, List.intercalate_singleton, List.intercalate_singleton]
      exact ⟨hy, rfl⟩
    | cons z ys =>
      obtain ⟨hrest, hfold⟩ := ih fun y hy => h y (List.mem_cons_of_mem _ hy)
      rw [List.intercalate_cons_cons, List.append_assoc]
      refine ⟨hy.append (.append (.of_quoteFree hfree) hrest), ?_⟩
      have hbar : unionBar.flatMap lowerAlone = unionBar := by decide
      rw [hy.closed, fold_append_of_quoteFree hfree, hbar, hfold, List.map_cons, List.map_cons,
        List.map_cons, List.intercalate_cons_cons, List.append_assoc]

section

variable {ms : List String} (h : ∀ m ∈ ms, IsMember m)

include h

theorem wellQuoted_unionOf :
    WellQuoted (unionOf ms).toList ∧
      fold (unionOf ms).toList = unionBar.intercalate (ms.map fun m => fold m.toList) := by
  have hquoted : ∀ y ∈ ms.map String.toList, WellQuoted y := by
    rw [List.forall_mem_map]
    exact fun m hm => (h m hm).wellQuoted
  have htext : (unionOf ms).toList = unionBar.intercalate (ms.map String.toList) :=
    String.toList_intercalate
  have hboth := wellQuoted_intercalate hquoted
  rw [← htext, List.map_map] at hboth
  exact hboth

theorem reading_unionOf :
    reading (unionOf ms) = trim (unionBar.intercalate (ms.map fun m => fold m.toList)) := by
  obtain ⟨hwell, hfold⟩ := wellQuoted_unionOf h
  rw [reading, hwell.fold_trim, hfold]

/-- **The parts of a union are its members**, as the inference sees them. -/
theorem parts_unionOf (hne : ms ≠ []) : parts (reading (unionOf ms)) = ms.map reading := by
  have hwhole : ∀ f ∈ ms.map fun m => fold m.toList, Whole f := by
    rw [List.forall_mem_map]
    exact fun m hm => (h m hm).whole_fold
  rw [reading_unionOf h, parts_trim, parts, splitUnion,
    map_trim_splitUnionFrom_intercalate (by simpa using hne) hwhole outsideAt_start (by decide),
    List.map_map]
  exact List.map_congr_left fun m hm => (h m hm).wellQuoted.fold_trim.symm

end

/-! ## Members that count -/

/-- Whether a member is empty or stands for an absent value. -/
def isAbsent (m : String) : Bool :=
  (masked m).isEmpty || isNullish (masked m)

/-- The members of a union that do not stand for absent values. -/
def present (ms : List String) : List String :=
  ms.filter fun m => !isAbsent m

theorem isAbsent_eq (m : String) : isAbsent m = ((reading m).isEmpty || isNullish (reading m)) := by
  rw [isAbsent, reading, ← map_oneSigma_masked, List.isEmpty_map, isNullish_map_oneSigma]

theorem infix_reading_iff {w : List Char} (hw : SigmaFree w) (m : String) :
    w <:+: reading m ↔ w <:+: masked m := by
  rw [reading, ← map_oneSigma_masked, ← hasInfix_iff, hasInfix_map_oneSigma hw, hasInfix_iff]

theorem suffix_reading_iff {w : List Char} (hw : SigmaFree w) (m : String) :
    w <:+ reading m ↔ w <:+ masked m := by
  have hends := endsWith_map_oneSigma hw (masked m)
  unfold endsWith at hends
  rw [Bool.eq_iff_iff, List.isSuffixOf_iff_suffix, List.isSuffixOf_iff_suffix] at hends
  rw [reading, ← map_oneSigma_masked, hends]

theorem members_unionOf {ms : List String} (h : ∀ m ∈ ms, IsMember m) :
    members (reading (unionOf ms)) = (present ms).map reading := by
  by_cases hne : ms = []
  · rw [hne]
    decide
  · have hkept : (fun m => !m.isEmpty && !isNullish m) ∘ reading = fun m => !isAbsent m := by
      funext m
      rw [Function.comp_apply, isAbsent_eq, Bool.not_or]
    rw [members_eq, parts_unionOf h hne, List.filter_map, hkept, present]

/-! ## The way of writing -/

theorem serialization_unionOf_eq_json_iff {ms : List String} (h : ∀ m ∈ ms, IsMember m) :
    serialization (unionOf ms) = .json ↔
      ∃ m ∈ present ms, hasStructure (reading m) = true ∨ isTuple (reading m) = true := by
  have hrule := serializationOf_eq_json_iff (reading (unionOf ms))
  rw [members_unionOf h] at hrule
  rw [serialization_eq, ← reading, hrule]
  simp only [List.mem_map, exists_exists_and_eq_and]

/-- **The way of writing of a union does not depend on the order of its members**, and a union is
written as JSON if and only if one of its members is. -/
theorem serialization_unionOf {ms : List String} (h : ∀ m ∈ ms, IsMember m) :
    (∀ ms', ms'.Perm ms → serialization (unionOf ms') = serialization (unionOf ms)) ∧
      (serialization (unionOf ms) = .json ↔ ∃ m ∈ ms, serialization m = .json) := by
  constructor
  · intro ms' hperm
    by_cases hne : ms = []
    · subst hne
      rw [List.perm_nil.mp hperm]
    · have hne' : ms' ≠ [] := fun hnil => hne (List.nil_perm.mp (hnil ▸ hperm))
      have h' : ∀ m ∈ ms', IsMember m := fun m hm => h m (hperm.mem_iff.mp hm)
      have hparts : (parts (reading (unionOf ms'))).Perm (parts (reading (unionOf ms))) := by
        rw [parts_unionOf h hne, parts_unionOf h' hne']
        exact hperm.map reading
      rw [serialization_eq, serialization_eq]
      exact serializationOf_eq_of_perm hparts
  · -- a member by itself is a union of one
    have halone : ∀ m ∈ ms, serialization m = .json ↔
        isAbsent m = false ∧ (hasStructure (reading m) = true ∨ isTuple (reading m) = true) := by
      intro m hm
      have hself : unionOf [m] = m := rfl
      have hrule := @serialization_unionOf_eq_json_iff [m] (by simpa using h m hm)
      rw [hself] at hrule
      rw [hrule]
      simp [present]
    rw [serialization_unionOf_eq_json_iff h]
    refine exists_congr fun m => ?_
    rw [present, List.mem_filter, Bool.not_eq_true', and_assoc]
    exact and_congr_right fun hm => (halone m hm).symm

/-- A function, a literal and an array, with a member for an absent value at the end. -/
def mixedMembers : List String :=
  ["(x: Bar | null) => void", "'a | b[]'", "Foo[]", " Null "]

theorem serialization_unionOf_mixed :
    (∀ m ∈ mixedMembers, IsMember m) ∧
      (∀ ms', ms'.Perm mixedMembers →
        serialization (unionOf ms') = serialization (unionOf mixedMembers)) ∧
      (serialization (unionOf mixedMembers) = .json ↔
        ∃ m ∈ mixedMembers, serialization m = .json) :=
  have hall : ∀ m ∈ mixedMembers, IsMember m := by decide
  ⟨hall, serialization_unionOf hall⟩

/-! ## The kind -/

/-- Whether a union has one member at the most that counts, or one with a word in it that settles
the kind. -/
def Settled (ms : List String) : Prop :=
  (present ms).length ≤ 1 ∨ ∃ m ∈ present ms, ∃ w ∈ settlingWords, w <:+: masked m

/-- Whether the last member of a union ends with an empty pair of brackets. -/
def EndsInPair (ms : List String) : Prop :=
  ∃ m ∈ ms.getLast?, "[]".toList <:+ masked m

section

variable {ms : List String} (h : ∀ m ∈ ms, IsMember m)

include h

theorem settled_iff :
    (members (reading (unionOf ms))).length ≤ 1 ∨
        (∃ w ∈ settlingWords, w <:+: reading (unionOf ms)) ↔ Settled ms := by
  have hword : ∀ w ∈ settlingWords,
      w <:+: reading (unionOf ms) ↔ ∃ m ∈ present ms, w <:+: masked m := by
    intro w hw
    have hfree : ∀ w ∈ settlingWords, SigmaFree w := by decide
    rw [infix_iff_members (List.mem_append_left _ hw), members_unionOf h]
    simp only [List.mem_map, exists_exists_and_eq_and, infix_reading_iff (hfree w hw)]
  rw [Settled, members_unionOf h, List.length_map]
  refine or_congr_right ?_
  constructor
  · rintro ⟨w, hw, hin⟩
    obtain ⟨m, hm, hin⟩ := (hword w hw).mp hin
    exact ⟨m, hm, w, hw, hin⟩
  · rintro ⟨m, hm, w, hw, hin⟩
    exact ⟨w, hw, (hword w hw).mpr ⟨m, hm, hin⟩⟩

theorem trimEnd_reading_unionOf : trimEnd (reading (unionOf ms)) = reading (unionOf ms) := by
  rw [reading_unionOf h, trim]
  unfold trimEnd
  rw [List.reverse_reverse, List.dropWhile_idempotent]

theorem endsInPair_iff : "[]".toList <:+ reading (unionOf ms) ↔ EndsInPair ms := by
  rw [suffix_iff_parts (by decide) (trimEnd_reading_unionOf h), EndsInPair]
  by_cases hne : ms = []
  · rw [hne]
    decide
  · rw [parts_unionOf h hne, List.getLast?_map]
    simp only [Option.map_eq_some_iff, Option.mem_def, exists_exists_and_eq_and,
      suffix_reading_iff (by decide : SigmaFree "[]".toList)]

end

/-- **The kind of a union depends on the members that count.** It depends on their order, or on a
member for an absent value at the end, just where they do not settle it and only one of the two
unions ends with an empty pair of brackets. -/
theorem summary_unionOf_eq_iff {ms ms' : List String} (h : ∀ m ∈ ms, IsMember m)
    (h' : ∀ m ∈ ms', IsMember m) (hpresent : (present ms).Perm (present ms')) :
    summary (unionOf ms) = summary (unionOf ms') ↔
      Settled ms ∨ (EndsInPair ms ↔ EndsInPair ms') := by
  have hmembers : (members (reading (unionOf ms))).Perm (members (reading (unionOf ms'))) := by
    rw [members_unionOf h, members_unionOf h']
    exact hpresent.map reading
  rw [summary_eq, summary_eq, ← reading, ← reading,
    summaryOf_eq_iff hmembers (trimEnd_reading_unionOf h) (trimEnd_reading_unionOf h'),
    settled_iff h, endsInPair_iff h, endsInPair_iff h']

/-- The same members without the absent value and with the array in front. -/
def turnedMembers : List String :=
  ["Foo[]", "'a | b[]'", "(x: Bar | null) => void"]

theorem summary_unionOf_turned :
    (∀ m ∈ mixedMembers, IsMember m) ∧ (∀ m ∈ turnedMembers, IsMember m) ∧
      (present mixedMembers).Perm (present turnedMembers) ∧
      (summary (unionOf mixedMembers) = summary (unionOf turnedMembers) ↔
        Settled mixedMembers ∨ (EndsInPair mixedMembers ↔ EndsInPair turnedMembers)) :=
  have hmixed : ∀ m ∈ mixedMembers, IsMember m := by decide
  have hturned : ∀ m ∈ turnedMembers, IsMember m := by decide
  have hpresent : (present mixedMembers).Perm (present turnedMembers) := by decide
  ⟨hmixed, hturned, hpresent, summary_unionOf_eq_iff hmixed hturned hpresent⟩

/-- An array counts at the end of a union only, and not with an absent value behind it. -/
theorem summary_array_last_ne_first :
    (∀ m ∈ ["Foo", "Bar[]", "null"], IsMember m) ∧ ["Bar[]", "Foo"].Perm ["Foo", "Bar[]"] ∧
      present ["Foo", "Bar[]"] = ["Foo", "Bar[]"] ∧ isAbsent "null" = true ∧
      summary (unionOf ["Foo", "Bar[]"]) = .array ∧
      summary (unionOf ["Bar[]", "Foo"]) = .unknown ∧
      summary (unionOf ["Foo", "Bar[]", "null"]) = .unknown := by
  decide

end ElementManifest.Inference

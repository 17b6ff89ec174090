import ElementManifest.Proofs.GlobSpelling

/-!
# What patterns stand for

Matching leaves out more and more of a text, and stops for good when the text runs out. What a
pattern stands for can be said without that:

> `Stands`: each piece stands for a piece of the text, `**` for whole parts or for the rest.

Stopping early loses nothing as long as every `**` is a part of its own (`PartsAlone`): then a
text that is too short has no ending that the pattern stands for (`not_stands_of_tooShort`), and

> `matchTokens_holds_iff`: a match holds iff the pattern stands for the text.

Two shapes of patterns are told by what they stand for: `**/name/**` stands for the paths with
such a directory (`isMatch_below_iff`), and `**/*ending` for those with this ending
(`isMatch_ending_iff`). The patterns for test files are all of these shapes.
-/

namespace ElementManifest.Glob

open ElementManifest.Text

/-! ## Meaning -/

/-- Whether `**` can stand for `left` in front of `rest`: for nothing, for whole parts, or for
all that is left. -/
def IsParts (left rest : List Char) : Prop :=
  left = [] ∨ left.getLast? = some '/' ∨ rest = []

/-- What pieces stand for. -/
inductive Stands : List Token → List Char → Prop
  | nil : Stands [] []
  | one {t : Token} {ts : List Token} {c : Char} {s : List Char} (haccepts : t.accepts c = true)
      (h : Stands ts s) : Stands (t :: ts) (c :: s)
  | text {ts : List Token} (left : List Char) {s : List Char} (h : Stands ts s) :
      Stands (.anyText :: ts) (left ++ s)
  | parts {ts : List Token} {left s : List Char} (hleft : IsParts left s) (h : Stands ts s) :
      Stands (.anyParts :: ts) (left ++ s)

/-- Whether each `**` is at the start of a part, if the first piece is (`free`) or is not. -/
def partsAlone (free : Bool) : List Token → Bool
  | [] => true
  | .anyParts :: ts => free && partsAlone true ts
  | t :: ts => partsAlone (t = .literal '/') ts

/-! ## Endings of a text -/

/-- An ending of a text: any one, or one with whole parts in front of it. -/
def Behind (whole : Bool) (u s : List Char) : Prop :=
  ∃ left, s = left ++ u ∧ (whole = true → IsParts left u)

namespace Behind

variable {whole : Bool} {u v s : List Char}

theorem refl (s : List Char) : Behind whole s s :=
  ⟨[], rfl, fun _ => Or.inl rfl⟩

theorem suffix (h : Behind whole u s) : u <:+ s := by
  obtain ⟨left, rfl, -⟩ := h
  exact List.suffix_append left u

theorem of_suffix (h : u <:+ s) : Behind false u s := by
  obtain ⟨left, rfl⟩ := h
  exact ⟨left, rfl, nofun⟩

theorem length_le (h : Behind whole u s) : u.length ≤ s.length :=
  h.suffix.length_le

/-- An ending of a text is one behind one more character as well, unless it is all of the text
and a part of its own does not start there. -/
theorem cons {c : Char} (h : Behind whole u s)
    (hc : whole = true → c = '/' ∨ u.length < s.length ∨ u = []) : Behind whole u (c :: s) := by
  obtain ⟨left, rfl, hleft⟩ := h
  refine ⟨c :: left, rfl, fun hwhole => ?_⟩
  rcases hleft hwhole with rfl | hlast | hnil
  · rcases hc hwhole with rfl | hlt | hnil
    · exact Or.inr (Or.inl rfl)
    · exact absurd hlt (Nat.lt_irrefl _)
    · exact Or.inr (Or.inr hnil)
  · refine Or.inr (Or.inl ?_)
    rw [List.getLast?_cons, hlast]
    rfl
  · exact Or.inr (Or.inr hnil)

/-- An ending of a text behind one more character is all of it, or the text, or an ending of
that. -/
theorem cons_cases {c : Char} (h : Behind whole u (c :: s)) :
    u = c :: s ∨ (u = s ∧ (whole = true → c = '/' ∨ u = [])) ∨
      (Behind whole u s ∧ u.length < s.length) := by
  obtain ⟨left, heq, hleft⟩ := h
  cases left with
  | nil => exact Or.inl heq.symm
  | cons d left =>
    obtain ⟨rfl, rfl⟩ := List.cons.inj heq
    refine Or.inr ?_
    cases left with
    | nil =>
      refine Or.inl ⟨rfl, fun hwhole => ?_⟩
      rcases hleft hwhole with hnil | hlast | hnil
      · cases hnil
      · exact Or.inl (Option.some.inj hlast)
      · exact Or.inr hnil
    | cons e left =>
      refine Or.inr ⟨⟨e :: left, rfl, fun hwhole => ?_⟩, ?_⟩
      · rcases hleft hwhole with hnil | hlast | hnil
        · cases hnil
        · exact Or.inr (Or.inl (by rw [← hlast, List.getLast?_cons_cons]))
        · exact Or.inr (Or.inr hnil)
      · change u.length < (e :: left ++ u).length
        rw [List.length_append, List.length_cons]
        omega

theorem trans (h : Behind whole u v) (h' : Behind whole v s) : Behind whole u s := by
  obtain ⟨left, rfl, hleft⟩ := h
  obtain ⟨left', rfl, hleft'⟩ := h'
  refine ⟨left' ++ left, (List.append_assoc _ _ _).symm, fun hwhole => ?_⟩
  rcases hleft hwhole with rfl | hlast | hnil
  · rw [List.append_nil]
    exact hleft' hwhole
  · refine Or.inr (Or.inl ?_)
    rw [List.getLast?_append, hlast]
    rfl
  · exact Or.inr (Or.inr hnil)

/-- Of two endings the shorter one is an ending of the other. -/
theorem of_length_le (hu : Behind whole u s) (hv : Behind whole v s) (hle : u.length ≤ v.length) :
    Behind whole u v := by
  obtain ⟨left, hsplit⟩ := List.suffix_of_suffix_length_le hu.suffix hv.suffix hle
  refine ⟨left, hsplit.symm, fun hwhole => ?_⟩
  obtain ⟨before, heq, hbefore⟩ := hu
  obtain ⟨before', heq', -⟩ := hv
  have hjoin : before = before' ++ left := by
    rw [heq', ← hsplit, ← List.append_assoc] at heq
    exact (List.append_cancel_right heq).symm
  rcases hbefore hwhole with hnil | hlast | hnil
  · rw [hjoin] at hnil
    exact Or.inl (List.append_eq_nil_iff.mp hnil).2
  · by_cases hleft : left = []
    · exact Or.inl hleft
    · rw [hjoin, List.getLast?_append_of_ne_nil _ hleft] at hlast
      exact Or.inr (Or.inl hlast)
  · exact Or.inr (Or.inr hnil)

end Behind

/-! ## Leaving out -/

/-- What an outcome tells of a match that is tried with some endings, the longest first: it
holds for one, it fails for all, or it runs out of text with one and fails for all before. -/
def Outcome.Tells (tried : List Char → Prop) (rest : List Char → Outcome) : Outcome → Prop
  | holds => ∃ u, tried u ∧ rest u = holds
  | fails => ∀ u, tried u → rest u = fails
  | tooShort => ∃ v, tried v ∧ rest v = tooShort ∧
      ∀ u, tried u → v.length < u.length → rest u = fails

theorem Outcome.Tells.congr {tried tried' : List Char → Prop} {rest : List Char → Outcome}
    {outcome : Outcome} (h : outcome.Tells tried rest) (hsame : ∀ u, tried u ↔ tried' u) :
    outcome.Tells tried' rest := by
  rwa [show tried' = tried from funext fun u => propext (hsame u).symm]

/-- One ending is tried before the others. -/
theorem tells_first {tried tried' : List Char → Prop} {rest : List Char → Outcome}
    {s : List Char} {later : Outcome} (hlater : later.Tells tried rest)
    (hshorter : ∀ u, tried u → u.length ≤ s.length)
    (hsame : ∀ u, tried' u ↔ u = s ∨ tried u) :
    Outcome.Tells tried' rest (match rest s with | .fails => later | outcome => outcome) := by
  have hs : tried' s := (hsame s).mpr (Or.inl rfl)
  -- the later endings count only if the first one fails
  cases hrest : rest s with
  | holds => exact ⟨s, hs, hrest⟩
  | tooShort =>
    refine ⟨s, hs, hrest, fun u hu hlonger => ?_⟩
    rcases (hsame u).mp hu with rfl | hu
    · exact absurd hlonger (Nat.lt_irrefl _)
    · exact absurd hlonger (Nat.not_lt.mpr (hshorter u hu))
  | fails =>
    have hfails : ∀ u, tried' u → (tried u → rest u = .fails) → rest u = .fails := by
      intro u hu hmore
      rcases (hsame u).mp hu with rfl | hu
      · exact hrest
      · exact hmore hu
    cases later with
    | holds =>
      obtain ⟨u, hu, hholds⟩ := hlater
      exact ⟨u, (hsame u).mpr (Or.inr hu), hholds⟩
    | fails => exact fun u hu => hfails u hu (hlater u)
    | tooShort =>
      obtain ⟨v, hv, hshort, hbefore⟩ := hlater
      exact ⟨v, (hsame v).mpr (Or.inr hv), hshort,
        fun u hu hlonger => hfails u hu fun h => hbefore u h hlonger⟩

theorem leaveOut_tells (whole : Bool) (rest : List Char → Outcome) (s : List Char) :
    (leaveOut whole rest s).Tells
      (fun u => Behind whole u s ∧ (u.length < s.length ∨ u = [])) rest := by
  induction s with
  | nil =>
    have htried : ∀ u : List Char,
        Behind whole u [] ∧ (u.length < ([] : List Char).length ∨ u = []) ↔
          u = [] ∨ False := by
      intro u
      constructor
      · exact fun h => Or.inl (List.suffix_nil.mp h.1.suffix)
      · rintro (rfl | h)
        · exact ⟨.refl _, Or.inr rfl⟩
        · exact h.elim
    have hfirst := @tells_first (fun _ => False) _ rest [] .fails (fun _ h => h.elim)
      (fun _ h => h.elim) htried
    unfold leaveOut
    cases hrest : rest [] <;> rw [hrest] at hfirst <;> exact hfirst
  | cons c s ih =>
    have hlonger : ∀ u, Behind whole u s → u.length < (c :: s).length := by
      intro u hu
      have hle := hu.length_le
      rw [List.length_cons]
      omega
    unfold leaveOut
    split
    next hskip =>
      -- nothing that starts right behind `c` is tried, unless it is empty
      rw [Bool.and_eq_true, decide_eq_true_eq] at hskip
      refine ih.congr fun u => ⟨?_, ?_⟩
      · rintro ⟨hu, hproper⟩
        exact ⟨hu.cons fun _ => Or.inr hproper, Or.inl (hlonger u hu)⟩
      · rintro ⟨hu, hproper⟩
        rcases hu.cons_cases with rfl | ⟨rfl, hstart⟩ | ⟨hu, hlt⟩
        · rcases hproper with hlt | hnil
          · exact absurd hlt (Nat.lt_irrefl _)
          · cases hnil
        · rcases hstart hskip.1 with hslash | hnil
          · exact absurd hslash hskip.2
          · exact ⟨.refl _, Or.inr hnil⟩
        · exact ⟨hu, Or.inl hlt⟩
    next hstop =>
      have hstart : whole = true → c = '/' := by
        intro hwhole
        rw [hwhole] at hstop
        simpa using hstop
      refine tells_first ih (fun u hu => hu.1.length_le) fun u => ⟨?_, ?_⟩
      · rintro ⟨hu, hproper⟩
        rcases hu.cons_cases with rfl | ⟨rfl, -⟩ | ⟨hu, hlt⟩
        · rcases hproper with hlt | hnil
          · exact absurd hlt (Nat.lt_irrefl _)
          · cases hnil
        · exact Or.inl rfl
        · exact Or.inr ⟨hu, Or.inl hlt⟩
      · rintro (rfl | ⟨hu, -⟩)
        · exact ⟨(Behind.refl u).cons fun hwhole => Or.inl (hstart hwhole),
            Or.inl (hlonger u (.refl u))⟩
        · exact ⟨hu.cons fun hwhole => Or.inl (hstart hwhole), Or.inl (hlonger u hu)⟩

theorem leaveOutAny_tells (whole : Bool) (rest : List Char → Outcome) (s : List Char) :
    (leaveOutAny whole rest s).Tells (Behind whole · s) rest := by
  unfold leaveOutAny
  refine tells_first (leaveOut_tells whole rest s) (fun u hu => hu.1.length_le) fun u => ⟨?_, ?_⟩
  · intro hu
    by_cases hlt : u.length < s.length
    · exact Or.inr ⟨hu, Or.inl hlt⟩
    · have hle := hu.length_le
      exact Or.inl (hu.suffix.eq_of_length (by omega))
  · rintro (rfl | ⟨hu, -⟩)
    · exact .refl _
    · exact hu

/-! ## Matching -/

/-- What an outcome of a match tells: whether the pattern stands for the text, or that it stands
for no ending of it. -/
def Outcome.Decides (free : Bool) (ts : List Token) (s : List Char) : Outcome → Prop
  | holds => Stands ts s
  | fails => ¬Stands ts s
  | tooShort => ∀ u, Behind free u s → ¬Stands ts u

/-- Endings behind a piece for any text or for parts are tried one by one, so the outcome for
them decides the match if each of them is decided. -/
theorem decides_of_tells {whole free : Bool} {t : Token} {ts : List Token} {s : List Char}
    {outcome : Outcome} (htells : outcome.Tells (Behind whole · s) (matchTokens ts))
    (hrest : ∀ u, (matchTokens ts u).Decides whole ts u)
    (hstands : ∀ u, Stands (t :: ts) u ↔ ∃ v, Behind whole v u ∧ Stands ts v)
    (hfree : free = false → whole = false) : outcome.Decides free (t :: ts) s := by
  cases outcome with
  | holds =>
    obtain ⟨u, hu, hholds⟩ := htells
    have hstand := hrest u
    rw [hholds] at hstand
    exact (hstands s).mpr ⟨u, hu, hstand⟩
  | fails =>
    intro h
    obtain ⟨u, hu, hstand⟩ := (hstands s).mp h
    have hnot := hrest u
    rw [htells u hu] at hnot
    exact hnot hstand
  | tooShort =>
    obtain ⟨v, hv, hshort, hbefore⟩ := htells
    intro u hu h
    obtain ⟨w, hw, hstand⟩ := (hstands u).mp h
    have hnot := hrest v
    rw [hshort] at hnot
    have hws : Behind whole w s := by
      refine hw.trans ?_
      cases whole with
      | false => exact .of_suffix hu.suffix
      | true =>
        cases free with
        | true => exact hu
        | false => cases hfree rfl
    -- a longer ending fails itself, and any other one is behind `v`, where the text is too short
    by_cases hlonger : v.length < w.length
    · have hfails := hrest w
      rw [hbefore w hws hlonger] at hfails
      exact hfails hstand
    · exact hnot w (hws.of_length_le hv (Nat.not_lt.mp hlonger)) hstand

theorem stands_anyText_iff {ts : List Token} {s : List Char} :
    Stands (.anyText :: ts) s ↔ ∃ v, Behind false v s ∧ Stands ts v := by
  constructor
  · intro h
    cases h with
    | one haccepts => cases haccepts
    | text left h => exact ⟨_, ⟨left, rfl, nofun⟩, h⟩
  · rintro ⟨v, ⟨left, rfl, -⟩, h⟩
    exact .text left h

theorem stands_anyParts_iff {ts : List Token} {s : List Char} :
    Stands (.anyParts :: ts) s ↔ ∃ v, Behind true v s ∧ Stands ts v := by
  constructor
  · intro h
    cases h with
    | one haccepts => cases haccepts
    | parts hleft h => exact ⟨_, ⟨_, rfl, fun _ => hleft⟩, h⟩
  · rintro ⟨v, ⟨left, rfl, hleft⟩, h⟩
    exact .parts (hleft rfl) h

section

variable {t : Token} (htext : t ≠ .anyText) (hparts : t ≠ .anyParts) {ts : List Token}

include htext hparts

theorem stands_one_iff {s : List Char} :
    Stands (t :: ts) s ↔ ∃ c u, s = c :: u ∧ t.accepts c = true ∧ Stands ts u := by
  constructor
  · intro h
    cases h with
    | one haccepts h => exact ⟨_, _, rfl, haccepts, h⟩
    | text => exact absurd rfl htext
    | parts => exact absurd rfl hparts
  · rintro ⟨c, u, rfl, haccepts, h⟩
    exact .one haccepts h

theorem matchTokens_one_nil : matchTokens (t :: ts) [] = .tooShort := by
  cases t with
  | anyText => exact absurd rfl htext
  | anyParts => exact absurd rfl hparts
  | _ => rfl

theorem matchTokens_one_cons (c : Char) (s : List Char) :
    matchTokens (t :: ts) (c :: s) = if t.accepts c then matchTokens ts s else .fails := by
  cases t with
  | anyText => exact absurd rfl htext
  | anyParts => exact absurd rfl hparts
  | _ => rfl

/-- A piece for one character. Where only endings with whole parts in front of them matter for the
pieces behind it, it is a slash, so that these endings do not start elsewhere. -/
theorem decides_one {free : Bool}
    (hrest : ∀ s, (matchTokens ts s).Decides (t = .literal '/') ts s) (s : List Char) :
    (matchTokens (t :: ts) s).Decides free (t :: ts) s := by
  cases s with
  | nil =>
    rw [matchTokens_one_nil htext hparts]
    intro u hu h
    obtain ⟨c, v, rfl, -⟩ := (stands_one_iff htext hparts).mp h
    cases List.suffix_nil.mp hu.suffix
  | cons c s =>
    rw [matchTokens_one_cons htext hparts]
    have hstep := hrest s
    by_cases haccepts : t.accepts c = true
    · rw [if_pos haccepts]
      cases houtcome : matchTokens ts s with
      | holds =>
        rw [houtcome] at hstep
        exact .one haccepts hstep
      | fails =>
        rw [houtcome] at hstep
        intro h
        obtain ⟨_, _, heq, -, h⟩ := (stands_one_iff htext hparts).mp h
        cases heq
        exact hstep h
      | tooShort =>
        rw [houtcome] at hstep
        intro u hu h
        obtain ⟨d, v, rfl, hd, h⟩ := (stands_one_iff htext hparts).mp h
        refine hstep v ?_ h
        -- `v` is an ending of `s`, and of its own behind a slash if that is what `t` is
        obtain ⟨left, heq, -⟩ := hu
        cases left with
        | nil =>
          cases heq
          exact .refl _
        | cons e left =>
          obtain ⟨-, rfl⟩ := List.cons.inj heq
          refine ⟨left ++ [d], (List.append_assoc left [d] v).symm, fun hslash => ?_⟩
          rw [of_decide_eq_true hslash] at hd
          obtain rfl : d = '/' := of_decide_eq_true hd
          exact Or.inr (Or.inl (List.getLast?_concat ..))
    · rw [if_neg haccepts]
      intro h
      obtain ⟨_, _, heq, hd, -⟩ := (stands_one_iff htext hparts).mp h
      cases heq
      exact haccepts hd

end

/-- Matching decides what a pattern stands for. The induction carries more than that: a match that
runs out of text tells that the pattern stands for no ending of the text, so that there is no
need to leave out more. -/
theorem decides_matchTokens {free : Bool} {ts : List Token} (halone : partsAlone free ts = true)
    (s : List Char) : (matchTokens ts s).Decides free ts s := by
  induction ts generalizing free s with
  | nil =>
    cases s with
    | nil => exact .nil
    | cons c s => exact nofun
  | cons t ts ih =>
    by_cases htext : t = .anyText
    · subst htext
      rw [matchTokens]
      exact decides_of_tells (leaveOutAny_tells false _ s) (fun u => ih halone u)
        (fun u => stands_anyText_iff) (fun _ => rfl)
    by_cases hparts : t = .anyParts
    · subst hparts
      unfold partsAlone at halone
      rw [Bool.and_eq_true] at halone
      rw [matchTokens]
      refine decides_of_tells (leaveOutAny_tells true _ s) (fun u => ih halone.2 u)
        (fun u => stands_anyParts_iff) fun hfree => ?_
      rw [hfree] at halone
      cases halone.1
    have hrest : partsAlone (t = .literal '/') ts = true := by
      cases t with
      | anyParts => exact absurd rfl hparts
      | _ => exact halone
    exact decides_one htext hparts (fun u => ih hrest u) s

/-- **A match holds iff the pattern stands for the text.** -/
theorem matchTokens_holds_iff {ts : List Token} (halone : partsAlone true ts = true)
    (s : List Char) : matchTokens ts s = .holds ↔ Stands ts s := by
  have hdecides := decides_matchTokens halone s
  cases houtcome : matchTokens ts s with
  | holds =>
    rw [houtcome] at hdecides
    exact iff_of_true rfl hdecides
  | fails =>
    rw [houtcome] at hdecides
    exact iff_of_false nofun hdecides
  | tooShort =>
    rw [houtcome] at hdecides
    exact iff_of_false nofun (hdecides s (.refl s))

theorem isMatch_iff {p : Pattern} (halone : partsAlone true p.tokens = true) (text : String) :
    p.isMatch text = true ↔ Stands p.tokens text.toList := by
  unfold Pattern.isMatch
  rw [decide_eq_true_eq]
  exact matchTokens_holds_iff halone _

/-! ## Directories and endings -/

theorem stands_literals_iff {cs : List Char} {ts : List Token} {s : List Char} :
    Stands (cs.map .literal ++ ts) s ↔ ∃ u, s = cs ++ u ∧ Stands ts u := by
  induction cs generalizing s with
  | nil => simp
  | cons c cs ih =>
    rw [List.map_cons, List.cons_append, stands_one_iff (t := .literal c) nofun nofun]
    constructor
    · rintro ⟨d, v, rfl, haccepts, h⟩
      obtain ⟨u, rfl, hu⟩ := ih.mp h
      exact ⟨u, by rw [of_decide_eq_true haccepts, List.cons_append], hu⟩
    · rintro ⟨u, rfl, hu⟩
      exact ⟨c, cs ++ u, rfl, decide_eq_true rfl, ih.mpr ⟨u, rfl, hu⟩⟩

theorem partsAlone_literals {cs : List Char} {free : Bool} {ts : List Token} (hne : cs ≠ [])
    (h : partsAlone (cs.getLast? = some '/') ts = true) :
    partsAlone free (cs.map .literal ++ ts) = true := by
  induction cs generalizing free with
  | nil => exact absurd rfl hne
  | cons c cs ih =>
    rw [List.map_cons, List.cons_append]
    unfold partsAlone
    cases cs with
    | nil =>
      rw [List.getLast?_singleton] at h
      simpa using h
    | cons d cs =>
      rw [List.getLast?_cons_cons] at h
      exact ih (List.cons_ne_nil _ _) h

/-- The pattern for everything in directories of a name. -/
def belowPattern (name : String) : String :=
  "**/" ++ name ++ "/**"

/-- The pattern for everything with an ending. -/
def endingPattern (ending : String) : String :=
  "**/*" ++ ending

namespace Pattern

/-- Plain characters at the start are read one by one. -/
theorem parseFrom_append {s : List Char} (h : isPlainText s = true) (position : Nat)
    (prev : Option Char) (tokens : List Token) (rest : List Char) :
    parseFrom 0 position prev tokens (s ++ rest) =
      parseFrom 0 (position + s.length) ((s.getLast?).or prev)
        ((s.map .literal).reverse ++ tokens) rest := by
  induction s generalizing position prev tokens with
  | nil => rfl
  | cons c s ih =>
    unfold isPlainText at h
    rw [List.all_cons, Bool.and_eq_true] at h
    have hc : c ≠ '*' ∧ c ≠ '?' ∧ c ≠ '[' := by
      simpa [isPlain, and_assoc] using h.1
    have hprev : (s.getLast?).or (some c) = ((c :: s).getLast?).or prev := by
      rw [List.getLast?_cons]
      cases s.getLast? <;> rfl
    rw [List.cons_append, parseFrom]
    dsimp only
    rw [if_neg (Nat.lt_irrefl 0), if_neg hc.2.1, if_neg hc.1, if_neg hc.2.2, ih h.2, hprev,
      List.map_cons, List.reverse_cons, List.append_assoc, List.length_cons]
    congr 1
    omega

/-- The two stars and the slash at the start stand for parts. -/
theorem parseFrom_anyParts (rest : List Char) :
    parseFrom 0 0 none [] ('*' :: '*' :: '/' :: rest) =
      parseFrom 0 3 (some '/') [.anyParts] rest := by
  have hslash : '/' ≠ '*' := by decide
  simp [parseFrom, partsAt, pushParts, hslash]
  rfl

theorem parse_endingPattern {ending : String} (h : isPlainText ending.toList = true) :
    parse (endingPattern ending) =
      .ok ⟨.anyParts :: .anyText :: ending.toList.map .literal⟩ := by
  have hlist : (endingPattern ending).toList = '*' :: '*' :: '/' :: '*' :: ending.toList := by
    unfold endingPattern
    rw [String.toList_append]
    rfl
  have hstars : ending.toList.takeWhile (· = '*') = [] := by
    cases hlist : ending.toList with
    | nil => rfl
    | cons c s =>
      rw [hlist] at h
      unfold isPlainText isPlain at h
      simp at h
      simp [h.1]
  unfold parse
  rw [hlist, parseFrom_anyParts, parseFrom]
  simp [hstars, parseFrom_of_plain h]
  rfl

theorem parse_belowPattern {name : String} (h : isPlainText name.toList = true) :
    parse (belowPattern name) =
      .ok ⟨.anyParts :: (name.toList ++ ['/']).map .literal ++ [.anyParts]⟩ := by
  have hlist : (belowPattern name).toList =
      '*' :: '*' :: '/' :: ((name.toList ++ ['/']) ++ ['*', '*']) := by
    unfold belowPattern
    rw [String.toList_append, String.toList_append]
    simp
  have hplain : isPlainText (name.toList ++ ['/']) = true := by
    unfold isPlainText at h ⊢
    rw [List.all_append, h]
    rfl
  unfold parse
  rw [hlist, parseFrom_anyParts, parseFrom_append hplain]
  simp [parseFrom, partsAt, pushParts]
  rfl

end Pattern

/-- The parts of a text with the separators between them are the text. -/
theorem joinWith_splitOn (s : List Char) : joinWith ['/'] (splitOn (· = '/') s) = s := by
  induction s with
  | nil => rfl
  | cons c s ih =>
    by_cases hc : c = '/'
    · rw [splitOn, if_pos (decide_eq_true hc),
        show [] :: splitOn (· = '/') s = [[]] ++ splitOn (· = '/') s from rfl,
        joinWith_append (List.cons_ne_nil _ _) (splitOn_ne_nil _ _), ih, hc]
      rfl
    · rw [splitOn, if_neg (by simpa using hc)]
      cases hs : splitOn (· = '/') s with
      | nil => exact absurd hs (splitOn_ne_nil _ s)
      | cons first rest =>
        rw [hs] at ih
        cases rest with
        | nil => exact congrArg (c :: ·) ih
        | cons next rest => exact congrArg (c :: ·) ih

/-- The parts of a text before the last one have a slash behind them, and one in front of them
unless they are the first. -/
theorem mem_dropLast_splitOn_iff {part s : List Char} (hfree : ∀ x ∈ part, x ≠ '/') :
    part ∈ (splitOn (· = '/') s).dropLast ↔
      ∃ left right, s = left ++ (part ++ '/' :: right) ∧
        (left = [] ∨ left.getLast? = some '/') := by
  have hpart : splitOn (· = '/') part = [part] :=
    splitOn_of_free fun x hx => decide_eq_false (hfree x hx)
  constructor
  · intro hmem
    obtain ⟨init, last, hsplit⟩ : ∃ init last, splitOn (· = '/') s = init ++ [last] :=
      ⟨_, _, (List.dropLast_append_getLast (splitOn_ne_nil _ s)).symm⟩
    rw [hsplit, List.dropLast_concat] at hmem
    obtain ⟨before, more, rfl⟩ := List.append_of_mem hmem
    have hs := joinWith_splitOn s
    rw [hsplit, List.append_assoc, List.cons_append,
      show part :: (more ++ [last]) = [part] ++ (more ++ [last]) from rfl] at hs
    -- behind what comes before the part a slash is put back, unless nothing does
    by_cases hnil : before = []
    · rw [hnil, List.nil_append, joinWith_append (by simp) (by simp)] at hs
      exact ⟨[], _, hs.symm, Or.inl rfl⟩
    · rw [joinWith_append hnil (by simp), joinWith_append (by simp) (by simp)] at hs
      refine ⟨joinWith ['/'] before ++ ['/'], joinWith ['/'] (more ++ [last]), ?_,
        Or.inr (List.getLast?_concat ..)⟩
      rw [← hs, List.append_assoc]
      rfl
  · rintro ⟨left, right, rfl, hleft⟩
    have hbehind : part ∈ (splitOn (· = '/') (part ++ '/' :: right)).dropLast := by
      rw [splitOn_append_cons (by decide), hpart,
        List.dropLast_append_of_ne_nil (splitOn_ne_nil _ _)]
      exact List.mem_append_left _ List.mem_cons_self
    rcases hleft with rfl | hslash
    · exact hbehind
    · obtain ⟨before, rfl⟩ := List.getLast?_eq_some_iff.mp hslash
      rw [List.append_assoc, List.singleton_append, splitOn_append_cons (by decide),
        List.dropLast_append_of_ne_nil (splitOn_ne_nil _ _)]
      exact List.mem_append_right _ hbehind

/-- **Directories**: `**/name/**` stands for the paths with such a part before the last one. -/
theorem isMatch_below_iff {name : String} (hplain : isPlainText name.toList = true)
    (hfree : ∀ x ∈ name.toList, x ≠ '/') {p : Pattern}
    (hp : Pattern.parse (belowPattern name) = .ok p) (path : Path) :
    p.isMatch path.text = true ↔ name.toList ∈ path.parts.dropLast := by
  rw [Pattern.parse_belowPattern hplain] at hp
  cases hp
  have hlast : (name.toList ++ ['/']).getLast? = some '/' := List.getLast?_concat ..
  have halone : partsAlone true
      (.anyParts :: (name.toList ++ ['/']).map .literal ++ [.anyParts]) = true := by
    refine partsAlone_literals (by simp) ?_
    rw [hlast]
    rfl
  rw [isMatch_iff halone, List.cons_append, stands_anyParts_iff]
  unfold Path.parts
  rw [mem_dropLast_splitOn_iff hfree]
  constructor
  · rintro ⟨v, ⟨left, heq, hleft⟩, hv⟩
    obtain ⟨right, rfl, -⟩ := stands_literals_iff.mp hv
    rw [List.append_assoc name.toList, List.singleton_append] at heq
    refine ⟨left, right, heq, ?_⟩
    -- what the first `**/` stands for is empty or ends with a slash
    rcases hleft rfl with hnil | hslash | hnil
    · exact Or.inl hnil
    · exact Or.inr hslash
    · simp at hnil
  · rintro ⟨left, right, heq, hleft⟩
    refine ⟨name.toList ++ '/' :: right, ⟨left, heq, fun _ => ?_⟩, ?_⟩
    · rcases hleft with hnil | hslash
      · exact Or.inl hnil
      · exact Or.inr (Or.inl hslash)
    · refine stands_literals_iff.mpr ⟨right, ?_, ?_⟩
      · rw [List.append_assoc, List.singleton_append]
      · exact stands_anyParts_iff.mpr ⟨[], ⟨right, (List.append_nil _).symm,
          fun _ => Or.inr (Or.inr rfl)⟩, .nil⟩

/-- **Endings**: `**/*ending` stands for the texts with this ending. -/
theorem isMatch_ending_iff {ending : String} (hplain : isPlainText ending.toList = true)
    {p : Pattern} (hp : Pattern.parse (endingPattern ending) = .ok p) (text : String) :
    p.isMatch text = true ↔ ending.toList <:+ text.toList := by
  rw [Pattern.parse_endingPattern hplain] at hp
  cases hp
  have halone : partsAlone true (.anyParts :: .anyText :: ending.toList.map .literal) = true := by
    unfold partsAlone
    cases hlist : ending.toList with
    | nil => rfl
    | cons c s =>
      have h := @partsAlone_literals (c :: s) false [] (by simp) rfl
      rw [List.append_nil] at h
      exact h
  rw [isMatch_iff halone, stands_anyParts_iff]
  have hliterals : ∀ v, Stands (ending.toList.map .literal) v ↔ v = ending.toList := by
    intro v
    have h := @stands_literals_iff ending.toList [] v
    rw [List.append_nil] at h
    rw [h]
    constructor
    · rintro ⟨u, rfl, hu⟩
      cases hu
      exact List.append_nil _
    · rintro rfl
      exact ⟨[], (List.append_nil _).symm, .nil⟩
  constructor
  · rintro ⟨v, hv, hstands⟩
    obtain ⟨u, hu, hstands⟩ := stands_anyText_iff.mp hstands
    rw [← (hliterals u).mp hstands]
    exact hu.suffix.trans hv.suffix
  · intro h
    exact ⟨text.toList, .refl _, stands_anyText_iff.mpr
      ⟨ending.toList, .of_suffix h, (hliterals _).mpr rfl⟩⟩

end ElementManifest.Glob

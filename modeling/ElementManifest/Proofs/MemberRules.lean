import ElementManifest.Proofs.UnionParts

/-!
# What the members of a text decide

The members of a text are its parts but for the empty ones and those that stand for an absent
value. What is found in a text is found in one of its members, so they decide, and their order
matters in one place only:

> `serializationOf_eq_json_iff`, `serializationOf_eq_of_perm`: the way of writing does not depend
> on the order of the parts.

> `summaryOf_eq_iff`: the kind depends on the order of the members just where nothing else settles
> whether it is an array, since the rule looks for an empty pair of brackets at the end of the
> text.

Where there is only one member and it is written as an array, it is written as JSON, unless
`readonly` is all that tells the array (`serialization_eq_json_iff_of_array`).
-/

namespace ElementManifest.Inference

open ElementManifest.Text

/-! ## Finding in members -/

/-- The words that settle the kind of a text before objects are looked for. -/
def settlingWords : List (List Char) :=
  ["string", "number", "boolean", "array", "readonly"].map String.toList

/-- The words that tell an object. -/
def objectWords : List (List Char) :=
  ["object", "\x7b", "record"].map String.toList

section

variable {text : List Char} {m : List Char}

theorem members_eq (text : List Char) :
    members text = (parts text).filter fun m => !m.isEmpty && !isNullish m :=
  rfl

theorem mem_members_iff : m ∈ members text ↔ m ∈ parts text ∧ m ≠ [] ∧ isNullish m = false := by
  rw [members_eq, List.mem_filter, Bool.and_eq_true, Bool.not_eq_true', Bool.not_eq_true',
    List.isEmpty_eq_false_iff]

/-- A part is a member if it has something that neither an empty part has nor one that stands for
an absent value. -/
theorem mem_members_of {P : List Char → Prop} (hm : m ∈ parts text) (h : P m)
    (hfree : ∀ x ∈ [[], "null".toList, "undefined".toList], ¬P x) : m ∈ members text := by
  have hne : ∀ x ∈ [[], "null".toList, "undefined".toList], m ≠ x := by
    rintro x hx rfl
    exact hfree m hx h
  refine mem_members_iff.mpr ⟨hm, hne [] (by simp), ?_⟩
  unfold isNullish
  rw [decide_eq_false (hne _ (by simp)), decide_eq_false (hne _ (by simp))]
  rfl

theorem exists_members_iff {P : List Char → Prop}
    (hfree : ∀ x ∈ [[], "null".toList, "undefined".toList], ¬P x) :
    (∃ m ∈ parts text, P m) ↔ ∃ m ∈ members text, P m := by
  constructor
  · rintro ⟨m, hm, h⟩
    exact ⟨m, mem_members_of hm h hfree, h⟩
  · rintro ⟨m, hm, h⟩
    exact ⟨m, (mem_members_iff.mp hm).1, h⟩

theorem infix_iff_members {w : List Char} (hw : w ∈ settlingWords ++ objectWords)
    (text : List Char) : w <:+: text ↔ ∃ m ∈ members text, w <:+: m := by
  have hall : ∀ w ∈ settlingWords ++ objectWords, Unbroken w ∧
      ∀ x ∈ [[], "null".toList, "undefined".toList], ¬w <:+: x := by decide
  obtain ⟨hunbroken, hfree⟩ := hall w hw
  rw [infix_iff_parts hunbroken, exists_members_iff hfree]

/-- A text that ends with an empty pair of brackets ends with a member that is an array. -/
theorem exists_array_of_pair (htext : trimEnd text = text) (h : "[]".toList <:+ text) :
    ∃ m ∈ members text, isArraySyntax m = true := by
  obtain ⟨p, hlast, hp⟩ := (suffix_iff_parts (by decide) htext).mp h
  refine ⟨p, mem_members_of (List.mem_of_getLast? hlast) hp (by decide), ?_⟩
  unfold isArraySyntax endsWith
  rw [List.isSuffixOf_iff_suffix.mpr hp]
  rfl

end

/-! ## The way of writing -/

section

variable {f g : List Char}

theorem hasInfix_congr {w : List Char} (h : w <:+: f ↔ w <:+: g) : hasInfix w f = hasInfix w g := by
  rw [Bool.eq_iff_iff, hasInfix_iff, hasInfix_iff, h]

theorem contains_congr {c : Char} (h : [c] <:+: f ↔ [c] <:+: g) : f.contains c = g.contains c := by
  rw [Bool.eq_iff_iff, List.contains_iff_mem, List.contains_iff_mem, ← List.singleton_infix_iff,
    ← List.singleton_infix_iff, h]

theorem endsWith_eq_iff {w : List Char} :
    endsWith w f = endsWith w g ↔ (w <:+ f ↔ w <:+ g) := by
  unfold endsWith
  rw [Bool.eq_iff_iff, List.isSuffixOf_iff_suffix, List.isSuffixOf_iff_suffix]

/-- The words that the way of writing depends on. -/
def writingWords : List (List Char) :=
  ["object", "string", "null", "undefined", "|"].map String.toList

/-- What the way of writing depends on. -/
theorem serializationOf_congr (hstructure : hasStructure f = hasStructure g)
    (hwords : ∀ w ∈ writingWords, w <:+: f ↔ w <:+: g)
    (hempty : (members f).isEmpty = (members g).isEmpty)
    (htuple : (members f).any isTuple = (members g).any isTuple)
    (hboolean : (members f).all isBoolean = (members g).all isBoolean)
    (hnumber : (members f).all isNumber = (members g).all isNumber) :
    serializationOf f = serializationOf g := by
  unfold serializationOf
  simp only [hstructure, hempty, htuple, hboolean, hnumber,
    hasInfix_congr (hwords "object".toList (by decide)),
    hasInfix_congr (hwords "string".toList (by decide)),
    hasInfix_congr (hwords "null".toList (by decide)),
    hasInfix_congr (hwords "undefined".toList (by decide)),
    contains_congr (hwords ['|'] (by decide))]

/-- A text is written as JSON if and only if one of its members has structure or is a tuple. -/
theorem serializationOf_eq_json_iff (text : List Char) :
    serializationOf text = .json ↔
      ∃ m ∈ members text, hasStructure m = true ∨ isTuple m = true := by
  have hfree : ∀ x ∈ [[], "null".toList, "undefined".toList], ¬hasStructure x = true := by decide
  have hrule : (hasStructure text || (members text).any isTuple) = true ↔
      ∃ m ∈ members text, hasStructure m = true ∨ isTuple m = true := by
    rw [Bool.or_eq_true, hasStructure_eq_parts, List.any_eq_true, exists_members_iff hfree,
      List.any_eq_true, ← exists_or]
    simp only [and_or_left]
  rw [← hrule]
  unfold serializationOf
  dsimp only
  split
  next hjson => exact iff_of_true rfl hjson
  next hjson =>
    refine iff_of_false ?_ hjson
    split
    · exact nofun
    · split
      · exact nofun
      · split
        · exact nofun
        · exact nofun

/-- **The way of writing does not depend on the order of the parts.** -/
theorem serializationOf_eq_of_perm (h : (parts f).Perm (parts g)) :
    serializationOf f = serializationOf g := by
  have hmembers : (members f).Perm (members g) := h.filter _
  have hword : ∀ w, Unbroken w → (w <:+: f ↔ w <:+: g) := by
    intro w hw
    rw [infix_iff_parts hw, infix_iff_parts hw]
    exact exists_congr fun p => and_congr_left fun _ => h.mem_iff
  have hbar : ['|'] <:+: f ↔ ['|'] <:+: g := by
    rw [List.singleton_infix_iff, List.singleton_infix_iff, bar_mem_iff_parts, bar_mem_iff_parts,
      h.length_eq]
    exact or_congr_right (exists_congr fun p => and_congr_left fun _ => h.mem_iff)
  refine serializationOf_congr ?_ (fun w hw => ?_) ?_ hmembers.any_eq hmembers.all_eq
    hmembers.all_eq
  · rw [hasStructure_eq_parts, hasStructure_eq_parts, h.any_eq]
  · have hall : ∀ w ∈ writingWords, Unbroken w ∨ w = ['|'] := by decide
    rcases hall w hw with hunbroken | rfl
    · exact hword w hunbroken
    · exact hbar
  · rw [Bool.eq_iff_iff, List.isEmpty_iff, List.isEmpty_iff, ← List.length_eq_zero_iff,
      ← List.length_eq_zero_iff, hmembers.length_eq]

end

/-! ## The kind -/

section

variable {f g : List Char}

theorem settled_iff_hasInfix : (∃ w ∈ settlingWords, w <:+: f) ↔
    hasInfix "string".toList f = true ∨ hasInfix "number".toList f = true ∨
      hasInfix "boolean".toList f = true ∨ hasInfix "array".toList f = true ∨
        hasInfix "readonly".toList f = true := by
  simp [settlingWords, hasInfix_iff]

theorem summaryByWords_eq_of_settled (h : ∀ w ∈ settlingWords, w <:+: f ↔ w <:+: g)
    (hsettled : ∃ w ∈ settlingWords, w <:+: f) : summaryByWords f = summaryByWords g := by
  have hfound (w : List Char) (hw : w ∈ settlingWords) : hasInfix w f = hasInfix w g :=
    hasInfix_congr (h w hw)
  unfold summaryByWords
  dsimp only
  rw [settled_iff_hasInfix] at hsettled
  simp only [hfound "string".toList (by decide), hfound "number".toList (by decide),
    hfound "boolean".toList (by decide), hfound "array".toList (by decide),
    hfound "readonly".toList (by decide)] at hsettled ⊢
  rcases hsettled with hw | hw | hw | hw | hw
  · simp only [hw, if_true]
  · simp only [hw, if_true]
  · simp only [hw, if_true]
  · simp only [hw, Bool.true_or, if_true]
  · simp only [hw, Bool.or_true, if_true]

/-- Where no word settles the kind, an array is told by the end of the text alone. -/
theorem summaryByWords_of_unsettled (hunsettled : ¬∃ w ∈ settlingWords, w <:+: f) :
    summaryByWords f =
      if endsWith "[]".toList f then .array
      else if hasInfix "object".toList f || f.contains '\x7b' || hasInfix "record".toList f then
        .object
      else .unknown := by
  rw [settled_iff_hasInfix] at hunsettled
  simp only [not_or, Bool.not_eq_true] at hunsettled
  obtain ⟨hstring, hnumber, hboolean, harray, hreadonly⟩ := hunsettled
  unfold summaryByWords
  simp only [hstring, hnumber, hboolean, harray, hreadonly, Bool.false_or, Bool.or_false,
    Bool.false_eq_true, if_false]

/-- Where the same words are found, only an array at the end can make a difference, and it does
unless one of the words before has settled the kind. -/
theorem summaryByWords_eq_iff (h : ∀ w ∈ settlingWords ++ objectWords, w <:+: f ↔ w <:+: g) :
    summaryByWords f = summaryByWords g ↔
      (∃ w ∈ settlingWords, w <:+: f) ∨ ("[]".toList <:+ f ↔ "[]".toList <:+ g) := by
  have hsettling (w : List Char) (hw : w ∈ settlingWords) : w <:+: f ↔ w <:+: g :=
    h w (List.mem_append_left _ hw)
  by_cases hsettled : ∃ w ∈ settlingWords, w <:+: f
  · exact iff_of_true (summaryByWords_eq_of_settled hsettling hsettled) (Or.inl hsettled)
  · have hsettled' : ¬∃ w ∈ settlingWords, w <:+: g := by
      rintro ⟨w, hw, hin⟩
      exact hsettled ⟨w, hw, (hsettling w hw).mpr hin⟩
    have hobject : hasInfix "object".toList f = hasInfix "object".toList g :=
      hasInfix_congr (h _ (by decide))
    have hbrace : f.contains '\x7b' = g.contains '\x7b' := contains_congr (h ['\x7b'] (by decide))
    have hrecord : hasInfix "record".toList f = hasInfix "record".toList g :=
      hasInfix_congr (h _ (by decide))
    rw [or_iff_right hsettled, ← endsWith_eq_iff, summaryByWords_of_unsettled hsettled,
      summaryByWords_of_unsettled hsettled']
    simp only [hobject, hbrace, hrecord]
    -- without an array at its end a text tells an object or nothing
    have hrest : ∀ b : Bool, (if b = true then Summary.object else Summary.unknown) ≠ .array := by
      decide
    cases endsWith "[]".toList f with
    | true =>
      cases endsWith "[]".toList g with
      | true => exact iff_of_true rfl rfl
      | false => exact iff_of_false (hrest _).symm nofun
    | false =>
      cases endsWith "[]".toList g with
      | true => exact iff_of_false (hrest _) nofun
      | false => exact iff_of_true rfl rfl

theorem summaryOf_eq_summaryByWords (h : ∀ m, members f = [m] → isArraySyntax m = false) :
    summaryOf f = summaryByWords f := by
  unfold summaryOf
  split
  next single hsingle => rw [if_neg (by rw [h single hsingle]; exact Bool.false_ne_true)]
  next => rfl

theorem summaryOf_of_array {m : List Char} (hm : members f = [m]) (ha : isArraySyntax m = true) :
    summaryOf f = .array := by
  unfold summaryOf
  rw [hm]
  exact if_pos ha

/-- **The order of the members matters for the kind just where nothing settles it before.** -/
theorem summaryOf_eq_iff (hmembers : (members f).Perm (members g)) (hf : trimEnd f = f)
    (hg : trimEnd g = g) :
    summaryOf f = summaryOf g ↔
      ((members f).length ≤ 1 ∨ ∃ w ∈ settlingWords, w <:+: f) ∨
        ("[]".toList <:+ f ↔ "[]".toList <:+ g) := by
  have hwords : ∀ w ∈ settlingWords ++ objectWords, w <:+: f ↔ w <:+: g := by
    intro w hw
    rw [infix_iff_members hw, infix_iff_members hw]
    exact exists_congr fun m => and_congr_left fun _ => hmembers.mem_iff
  by_cases harray : ∃ m, members f = [m] ∧ isArraySyntax m = true
  · obtain ⟨m, hm, ha⟩ := harray
    have hm' : members g = [m] := List.perm_singleton.mp (hm ▸ hmembers).symm
    rw [summaryOf_of_array hm ha, summaryOf_of_array hm' ha]
    exact iff_of_true rfl (Or.inl (Or.inl (by rw [hm]; exact Nat.le_refl 1)))
  · have hnone : ∀ m, members f = [m] → isArraySyntax m = false := by
      intro m hm
      rw [Bool.eq_false_iff]
      exact fun ha => harray ⟨m, hm, ha⟩
    have hnone' : ∀ m, members g = [m] → isArraySyntax m = false :=
      fun m hm => hnone m (List.perm_singleton.mp (hm ▸ hmembers))
    rw [summaryOf_eq_summaryByWords hnone, summaryOf_eq_summaryByWords hnone',
      summaryByWords_eq_iff hwords]
    by_cases hlength : (members f).length ≤ 1
    · -- with one member at the most, an array at the end would be the only one
      have hfree : ∀ m ∈ members f, isArraySyntax m = false := by
        intro m hm
        refine hnone m ?_
        obtain ⟨n, hn⟩ := List.length_eq_one_iff.mp
          (Nat.le_antisymm hlength (List.length_pos_of_mem hm))
        rw [hn, List.mem_singleton] at hm
        rw [hn, hm]
      refine iff_of_true (Or.inr (iff_of_false ?_ ?_)) (Or.inl (Or.inl hlength))
      · intro hpair
        obtain ⟨m, hm, ha⟩ := exists_array_of_pair hf hpair
        rw [hfree m hm] at ha
        cases ha
      · intro hpair
        obtain ⟨m, hm, ha⟩ := exists_array_of_pair hg hpair
        rw [hfree m (hmembers.mem_iff.mpr hm)] at ha
        cases ha
    · rw [or_iff_right hlength]

end

/-! ## Arrays -/

theorem hasStructureFrom_of_pair {s : List Char} (h : "[]".toList <:+: s) (prev : Option Char) :
    hasStructureFrom prev s = true := by
  induction s generalizing prev with
  | nil => exact absurd h (by decide)
  | cons c s ih =>
    rw [hasStructureFrom, Bool.or_eq_true]
    rcases List.infix_cons_iff.mp h with hprefix | hbehind
    · rw [List.isPrefixOf_iff_prefix.mpr hprefix]
      exact Or.inl rfl
    · exact Or.inr (ih hbehind (some c))

theorem hasStructure_of_collection {w s : List Char} (hw : w ∈ collections) (h : w ++ ['<'] <+: s) :
    hasStructure s = true := by
  obtain ⟨rest, rfl⟩ := h
  have hstarts : startsCollection (w ++ ['<'] ++ rest) = true := by
    refine List.any_eq_true.mpr ⟨w, hw, ?_⟩
    rw [List.append_assoc, List.drop_left, List.isPrefixOf_iff_prefix.mpr (List.prefix_append w _)]
    rfl
  unfold hasStructure
  cases hs : w ++ ['<'] ++ rest with
  | nil => simp at hs
  | cons c s =>
    rw [hs] at hstarts
    rw [hasStructureFrom, hstarts]
    simp

/-- What is written as an array has structure or is a tuple, or `readonly` is all that tells it. -/
theorem hasStructure_or_isTuple_of_array {m : List Char} (h : isArraySyntax m = true)
    (hreadonly : ¬"readonly ".toList <+: m) : hasStructure m = true ∨ isTuple m = true := by
  unfold isArraySyntax endsWith at h
  simp only [Bool.or_eq_true, List.isSuffixOf_iff_suffix, List.isPrefixOf_iff_prefix] at h
  rcases h with (((hpair | harray) | hreadonlyArray) | hword) | htuple
  · exact Or.inl (hasStructureFrom_of_pair hpair.isInfix none)
  · exact Or.inl (@hasStructure_of_collection "array".toList m (by decide) harray)
  · exact Or.inl (@hasStructure_of_collection "readonlyarray".toList m (by decide) hreadonlyArray)
  · exact absurd hword hreadonly
  · exact Or.inr htuple

theorem isTuple_of_readonly {m : List Char} (h : "readonly ".toList <+: m) : isTuple m = false := by
  obtain ⟨rest, rfl⟩ := h
  rfl

/-- **A single member that is written as an array is written as JSON**, but for one behind
`readonly` that has no structure. -/
theorem serialization_eq_json_iff_of_array {type : String} {m : List Char}
    (hm : members (masked type) = [m]) (ha : isArraySyntax m = true) :
    serialization type = .json ↔ ("readonly ".toList <+: m → hasStructure m = true) := by
  have hrule : serialization type = .json ↔ hasStructure m = true ∨ isTuple m = true := by
    rw [serialization, serializationOf_eq_json_iff, hm]
    simp
  rw [hrule]
  by_cases hreadonly : "readonly ".toList <+: m
  · rw [isTuple_of_readonly hreadonly, or_iff_left Bool.false_ne_true]
    exact ⟨fun h _ => h, fun h => h hreadonly⟩
  · exact iff_of_true (hasStructure_or_isTuple_of_array ha hreadonly) fun h => absurd h hreadonly

theorem serialization_eq_json_iff_of_readonly_array :
    members (masked "Readonly String[] | null") = ["readonly string[]".toList] ∧
      isArraySyntax "readonly string[]".toList = true ∧
      (serialization "Readonly String[] | null" = .json ↔
        ("readonly ".toList <+: "readonly string[]".toList →
          hasStructure "readonly string[]".toList = true)) :=
  ⟨by decide, by decide, serialization_eq_json_iff_of_array (by decide) (by decide)⟩

/-- A tuple behind `readonly` is an array that is not written as JSON. -/
theorem serialization_of_readonly_tuple :
    members (masked "readonly [number, number]") = ["readonly [number, number]".toList] ∧
      isArraySyntax "readonly [number, number]".toList = true ∧
      summary "readonly [number, number]" = .array ∧
      serialization "[number, number]" = .json ∧
      serialization "readonly [number, number]" = .propertyOnly := by
  decide

end ElementManifest.Inference

import ElementManifest.Json.Reader
import ElementManifest.Json.Writer
import Mathlib.Data.List.Basic

/-!
# Written JSON is read back

The indented form of a value is read as that value, whatever stands behind it. Numbers are
left out: the written form does not keep those that are no naturals, and no document holds
any.

> `stringUnits_quoteChar`: a character that is written in quotes is read as itself.

> `readValue_valueChars`: so is a value, with as much fuel as its text is long.

> `parse_pretty`: the text of a value is read as that value, with any blanks behind it.
-/

namespace ElementManifest.Json

open ElementManifest.Text (hexNumber charsOfUnits)

/-! ## Blanks -/

/-- Blanks that stand before a text are passed over. -/
theorem skipGap_append {g : List Char} (hg : ∀ c ∈ g, isGap c = true) (s : List Char) :
    skipGap (g ++ s) = skipGap s :=
  List.dropWhile_append_of_pos hg

theorem skipGap_cons {c : Char} (hc : isGap c = false) (s : List Char) :
    skipGap (c :: s) = c :: s :=
  List.dropWhile_cons_of_neg (Bool.eq_false_iff.mp hc)

theorem isGap_of_mem_indentation {depth : Nat} {c : Char} (h : c ∈ (indentation depth).toList) :
    isGap c = true := by
  unfold indentation at h
  rw [String.toList_ofList, List.mem_cons] at h
  rcases h with rfl | h
  · rfl
  · rw [List.eq_of_mem_replicate h]
    rfl

/-! ## Strings -/

/-- The characters of an escape are passed over. -/
theorem stringUnits_skip (units : List Nat) (skipped s : List Char) :
    stringUnits skipped.length units (skipped ++ s) = stringUnits 0 units s := by
  induction skipped with
  | nil => rfl
  | cons c skipped ih =>
    rw [List.length_cons, List.cons_append, stringUnits]
    exact ih

theorem stringUnits_escape {e : List Char} {n : Nat} (units : List Nat) (s : List Char)
    (h : escapeUnit (e ++ s) = some (n, e.length)) :
    stringUnits 0 units ('\\' :: e ++ s) = stringUnits 0 (n :: units) s := by
  rw [List.cons_append, stringUnits, if_neg (by decide), if_pos rfl, h]
  exact stringUnits_skip (n :: units) e s

/-- The digits of a control character tell its code. -/
theorem hexNumber_control : ∀ n < 0x20,
    hexNumber ['0', '0', hexDigit (n / 16), hexDigit (n % 16)] = some n := by
  decide

/-- A character that is written in quotes is read as itself. -/
theorem stringUnits_quoteChar (c : Char) (units : List Nat) (s : List Char) :
    stringUnits 0 units (quoteChar c ++ s) = stringUnits 0 (c.toNat :: units) s := by
  unfold quoteChar
  by_cases hquote : c = '"'
  · rw [if_pos hquote]
    exact hquote ▸ stringUnits_escape (e := ['"']) units s rfl
  rw [if_neg hquote]
  by_cases hback : c = '\\'
  · rw [if_pos hback]
    exact hback ▸ stringUnits_escape (e := ['\\']) units s rfl
  rw [if_neg hback]
  by_cases hline : c = '\n'
  · rw [if_pos hline]
    exact hline ▸ stringUnits_escape units s rfl
  rw [if_neg hline]
  by_cases hreturn : c = '\r'
  · rw [if_pos hreturn]
    exact hreturn ▸ stringUnits_escape units s rfl
  rw [if_neg hreturn]
  by_cases htab : c = '\t'
  · rw [if_pos htab]
    exact htab ▸ stringUnits_escape units s rfl
  rw [if_neg htab]
  by_cases hbell : c = '\x08'
  · rw [if_pos hbell]
    exact hbell ▸ stringUnits_escape units s rfl
  rw [if_neg hbell]
  by_cases hfeed : c = '\x0c'
  · rw [if_pos hfeed]
    exact hfeed ▸ stringUnits_escape units s rfl
  rw [if_neg hfeed]
  by_cases hcontrol : c.toNat < 0x20
  · -- the other control characters are named by their codes
    rw [if_pos hcontrol]
    refine stringUnits_escape (e := ['u', '0', '0', _, _]) units s ?_
    show (hexNumber _).map (·, 5) = _
    rw [hexNumber_control c.toNat hcontrol]
    rfl
  · rw [if_neg hcontrol, List.singleton_append, stringUnits, if_neg hquote, if_neg hback,
      if_neg hcontrol]

theorem stringUnits_quoteChars (cs : List Char) (units : List Nat) (rest : List Char) :
    stringUnits 0 units (cs.flatMap quoteChar ++ '"' :: rest) =
      some (units.reverse ++ cs.map Char.toNat, rest) := by
  induction cs generalizing units with
  | nil => rw [List.flatMap_nil, List.nil_append, stringUnits, if_pos rfl]; simp
  | cons c cs ih =>
    rw [List.flatMap_cons, List.append_assoc, stringUnits_quoteChar, ih]
    simp

/-- No character has the code of half a pair. -/
theorem not_surrogate (c : Char) : ¬(0xD800 ≤ c.toNat ∧ c.toNat ≤ 0xDFFF) := by
  have hvalid : c.toNat < 0xD800 ∨ 0xDFFF < c.toNat ∧ c.toNat < 0x110000 := c.valid
  omega

/-- The codes of characters stand for these characters. -/
theorem charsOfUnits_map_toNat (cs : List Char) : charsOfUnits (cs.map Char.toNat) = some cs := by
  induction cs with
  | nil => rfl
  | cons c cs ih =>
    have hc := not_surrogate c
    cases cs with
    | nil =>
      rw [List.map_cons, List.map_nil, charsOfUnits, if_neg hc, Char.ofNat_toNat]
    | cons d cs =>
      rw [List.map_cons] at ih ⊢
      rw [List.map_cons, charsOfUnits, if_neg (by omega), if_neg (by omega), ih, Char.ofNat_toNat]
      rfl

theorem toList_quote (s : String) :
    (quote s).toList = '"' :: (s.toList.flatMap quoteChar ++ ['"']) :=
  String.toList_ofList

/-! ## Values -/

mutual

/-- Whether a value can be told from its text: it has no number in it, and no string
without a text. -/
def hasText : Json → Bool
  | null | bool _ | string _ => true
  | natural _ | number | broken => false
  | array items => itemsHaveText items
  | object fields => fieldsHaveText fields

/-- Whether all items can be told from their texts. -/
def itemsHaveText : List Json → Bool
  | [] => true
  | v :: vs => hasText v && itemsHaveText vs

/-- Whether the values of all fields can be told from their texts. -/
def fieldsHaveText : List (String × Json) → Bool
  | [] => true
  | (_, v) :: fs => hasText v && fieldsHaveText fs

end

/-- The text of a value. -/
@[irreducible] def valueChars (depth : Nat) (v : Json) : List Char :=
  (prettyAt depth v).toList

/-- What stands between two parts of a written value. -/
def separator (depth : Nat) : List Char :=
  ',' :: (indentation depth).toList

/-- The texts of items with separators between them. -/
@[irreducible] def joinedItems (depth : Nat) (items : List Json) : List Char :=
  (separator depth).intercalate ((prettyItems depth items).map String.toList)

/-- The texts of fields with separators between them. -/
@[irreducible] def joinedFields (depth : Nat) (fields : List (String × Json)) : List Char :=
  (separator depth).intercalate ((prettyFields depth fields).map String.toList)

/-- Parts in brackets: there are blanks before them and behind them. -/
theorem toList_bracketLines {parts : List String} (hparts : parts ≠ []) (opening closing : String)
    (depth : Nat) :
    (bracketLines opening closing depth parts).toList =
      opening.toList ++ ((indentation (depth + 1)).toList ++
        ((separator (depth + 1)).intercalate (parts.map String.toList) ++
          ((indentation depth).toList ++ closing.toList))) := by
  unfold bracketLines
  rw [if_neg (by simpa using hparts)]
  simp only [String.toList_append, String.toList_intercalate, List.append_assoc]
  rfl

section

variable (depth : Nat)

theorem valueChars_null : valueChars depth null = "null".toList := by
  rw [valueChars, prettyAt] <;> simp [scalarText]

theorem valueChars_bool (b : Bool) :
    valueChars depth (bool b) = (if b then "true" else "false").toList := by
  rw [valueChars, prettyAt]
  · cases b <;> rfl
  all_goals simp

theorem valueChars_string (s : String) :
    valueChars depth (string s) = '"' :: (s.toList.flatMap quoteChar ++ ['"']) := by
  rw [valueChars, prettyAt]
  · exact toList_quote s
  all_goals simp

theorem valueChars_array_nil : valueChars depth (array []) = ['[', ']'] := by
  rw [valueChars, prettyAt, prettyItems, bracketLines, if_pos List.isEmpty_nil]
  rfl

theorem valueChars_array_cons (v : Json) (vs : List Json) :
    valueChars depth (array (v :: vs)) =
      '[' :: ((indentation (depth + 1)).toList ++
        (joinedItems (depth + 1) (v :: vs) ++ ((indentation depth).toList ++ [']']))) := by
  rw [valueChars, prettyAt, joinedItems]
  exact toList_bracketLines (by simp [prettyItems]) "[" "]" depth

theorem valueChars_object_nil : valueChars depth (object []) = ['\x7b', '\x7d'] := by
  rw [valueChars, prettyAt, prettyFields, bracketLines, if_pos List.isEmpty_nil]
  rfl

theorem valueChars_object_cons (f : String × Json) (fs : List (String × Json)) :
    valueChars depth (object (f :: fs)) =
      '\x7b' :: ((indentation (depth + 1)).toList ++
        (joinedFields (depth + 1) (f :: fs) ++ ((indentation depth).toList ++ ['\x7d']))) := by
  rw [valueChars, prettyAt, joinedFields]
  exact toList_bracketLines (by simp [prettyFields]) "\x7b" "\x7d" depth

theorem joinedItems_singleton (v : Json) : joinedItems depth [v] = valueChars depth v := by
  rw [joinedItems, prettyItems, prettyItems, valueChars]
  exact List.intercalate_singleton

theorem joinedItems_cons_cons (v w : Json) (ws : List Json) :
    joinedItems depth (v :: w :: ws) =
      valueChars depth v ++ (separator depth ++ joinedItems depth (w :: ws)) := by
  rw [joinedItems, joinedItems, valueChars, prettyItems, prettyItems, List.map_cons, List.map_cons,
    List.intercalate_cons_cons, List.append_assoc]

/-- The text of a field. -/
def fieldChars (depth : Nat) (name : String) (v : Json) : List Char :=
  '"' :: (name.toList.flatMap quoteChar ++ '"' :: ':' :: ' ' :: valueChars depth v)

theorem toList_field (name : String) (v : Json) :
    (quote name ++ ": " ++ prettyAt depth v).toList = fieldChars depth name v := by
  rw [String.toList_append, String.toList_append, toList_quote, fieldChars, valueChars]
  simp

theorem joinedFields_singleton (name : String) (v : Json) :
    joinedFields depth [(name, v)] = fieldChars depth name v := by
  rw [joinedFields, prettyFields, prettyFields, ← toList_field]
  exact List.intercalate_singleton

theorem joinedFields_cons_cons (name : String) (v : Json) (g : String × Json)
    (gs : List (String × Json)) :
    joinedFields depth ((name, v) :: g :: gs) =
      fieldChars depth name v ++ (separator depth ++ joinedFields depth (g :: gs)) := by
  obtain ⟨name', w⟩ := g
  rw [joinedFields, joinedFields, prettyFields, prettyFields, List.map_cons, List.map_cons,
    List.intercalate_cons_cons, List.append_assoc, ← toList_field]

/-- How the text of a value starts: it is no blank, and it closes nothing. -/
theorem valueChars_head {v : Json} (h : hasText v = true) :
    ∃ c s, valueChars depth v = c :: s ∧ isGap c = false ∧ c ≠ ']' := by
  cases v with
  | null => exact ⟨'n', _, valueChars_null depth, rfl, by decide⟩
  | bool b =>
    cases b with
    | false => exact ⟨'f', _, valueChars_bool depth false, rfl, by decide⟩
    | true => exact ⟨'t', _, valueChars_bool depth true, rfl, by decide⟩
  | natural n => cases h
  | number => cases h
  | broken => cases h
  | string s => exact ⟨'"', _, valueChars_string depth s, rfl, by decide⟩
  | array items =>
    cases items with
    | nil => exact ⟨'[', _, valueChars_array_nil depth, rfl, by decide⟩
    | cons v vs => exact ⟨'[', _, valueChars_array_cons depth v vs, rfl, by decide⟩
  | object fields =>
    cases fields with
    | nil => exact ⟨'\x7b', _, valueChars_object_nil depth, rfl, by decide⟩
    | cons f fs => exact ⟨'\x7b', _, valueChars_object_cons depth f fs, rfl, by decide⟩

/-- The joined texts of items start like the first item. -/
theorem joinedItems_head {v : Json} (vs : List Json) (h : hasText v = true) :
    ∃ c s, joinedItems depth (v :: vs) = c :: s ∧ isGap c = false ∧ c ≠ ']' := by
  obtain ⟨c, s, htext, hc⟩ := valueChars_head depth h
  cases vs with
  | nil => exact ⟨c, s, by rw [joinedItems_singleton, htext], hc⟩
  | cons w ws => exact ⟨c, _, by rw [joinedItems_cons_cons, htext]; rfl, hc⟩

theorem joinedFields_head (f : String × Json) (fs : List (String × Json)) :
    ∃ s, joinedFields depth (f :: fs) = '"' :: s := by
  cases fs with
  | nil => exact ⟨_, joinedFields_singleton depth f.1 f.2⟩
  | cons g gs => exact ⟨_, joinedFields_cons_cons depth f.1 f.2 g gs⟩

end

/-! ## One turn of the reader -/

section

variable {n : Nat} {s r t rest : List Char}

theorem readValue_open {c : Char} (hs : skipGap s = c :: t) (hc : c ≠ ']') :
    readValue (n + 1) ('[' :: s) = (readItems n (c :: t)).map fun r => (array r.1, r.2) := by
  rw [readValue, hs]
  split
  next heq => exact absurd (List.cons.inj heq).1 hc
  next => cases readItems n (c :: t) <;> rfl

theorem readItems_last {v : Json} (h : readValue n s = some (v, r))
    (hr : skipGap r = ']' :: rest) : readItems (n + 1) s = some ([v], rest) := by
  rw [readItems, h]
  simp only [Option.bind_eq_bind, Option.bind_some, hr]

theorem readItems_next {v : Json} {vs : List Json} (h : readValue n s = some (v, r))
    (hr : skipGap r = ',' :: t) (ht : readItems n (skipGap t) = some (vs, rest)) :
    readItems (n + 1) s = some (v :: vs, rest) := by
  rw [readItems, h]
  simp only [Option.bind_eq_bind, Option.bind_some, hr, ht]

theorem readValue_openFields {c : Char} (hs : skipGap s = c :: t) (hc : c ≠ '\x7d') :
    readValue (n + 1) ('\x7b' :: s) =
      (readFields n (c :: t)).map fun r => (ofFields r.1, r.2) := by
  rw [readValue, hs]
  split
  next heq => exact absurd (List.cons.inj heq).1 hc
  next => cases readFields n (c :: t) <;> rfl

/-- What a reader of fields takes first: a name in quotes, a colon and a value. -/
def TakesField (n : Nat) (s : List Char) (name : String) (v : Json) (r : List Char) : Prop :=
  ∃ s' units t, s = '"' :: s' ∧ stringUnits 0 [] s' = some (units, ':' :: t) ∧
    charsOfUnits units = some name.toList ∧ readValue n (skipGap t) = some (v, r)

theorem takesField_of_readValue (depth : Nat) (name : String) {v : Json} (hv : hasText v = true)
    (h : readValue n (valueChars depth v ++ r) = some (v, r)) :
    TakesField n (fieldChars depth name v ++ r) name v r := by
  obtain ⟨c, s, htext, hc, -⟩ := valueChars_head depth hv
  refine ⟨_, _, ' ' :: valueChars depth v ++ r, rfl, ?_, charsOfUnits_map_toNat _, ?_⟩
  · show stringUnits 0 [] ((_ ++ _) ++ r) = _
    rw [List.append_assoc]
    exact stringUnits_quoteChars name.toList [] _
  · rw [← h, htext]
    have hblank : ∀ c ∈ [' '], isGap c = true := List.forall_mem_singleton.mpr rfl
    exact congrArg (readValue n) ((skipGap_append hblank _).trans (skipGap_cons hc _))

theorem readFields_last {name : String} {v : Json} (h : TakesField n s name v r)
    (hr : skipGap r = '\x7d' :: rest) : readFields (n + 1) s = some ([(some name, v)], rest) := by
  obtain ⟨s', units, t, rfl, hunits, hname, hv⟩ := h
  rw [readFields, hunits]
  simp only [Option.bind_eq_bind, Option.bind_some, skipGap_cons (show isGap ':' = false from rfl),
    hv, hr, hname, Option.map_some, String.ofList_toList]

theorem readFields_next {name : String} {v : Json} {fs : List (Option String × Json)}
    (h : TakesField n s name v r) (hr : skipGap r = ',' :: t)
    (ht : readFields n (skipGap t) = some (fs, rest)) :
    readFields (n + 1) s = some ((some name, v) :: fs, rest) := by
  obtain ⟨s', units, t', rfl, hunits, hname, hv⟩ := h
  rw [readFields, hunits]
  simp only [Option.bind_eq_bind, Option.bind_some, skipGap_cons (show isGap ':' = false from rfl),
    hv, hr, ht, hname, Option.map_some, String.ofList_toList]

theorem ofFields_named (fs : List (String × Json)) :
    ofFields (fs.map fun f => (some f.1, f.2)) = object fs := by
  have hnames : (fs.map fun f => (some f.1, f.2)).mapM
      (fun f : Option String × Json => f.1.map (·, f.2)) = some fs := by
    rw [List.mapM_map]
    induction fs with
    | nil => rfl
    | cons f fs ih => rw [List.mapM_cons, ih]; rfl
  rw [ofFields, hnames]

end

/-! ## Written values are read back -/

theorem skipGap_indentation (depth : Nat) (s : List Char) :
    skipGap ((indentation depth).toList ++ s) = skipGap s :=
  skipGap_append (fun _ => isGap_of_mem_indentation) s

theorem skipGap_separator (depth : Nat) (s : List Char) :
    skipGap (separator depth ++ s) = ',' :: ((indentation depth).toList ++ s) :=
  skipGap_cons rfl _

mutual

/-- The text of a value is read as that value, whatever stands behind it. -/
theorem readValue_valueChars (depth : Nat) : ∀ (v : Json) {n : Nat} (rest : List Char),
    hasText v = true → (valueChars depth v).length ≤ n →
      readValue n (valueChars depth v ++ rest) = some (v, rest)
  | .null, n, rest, _, hn => by
    rw [valueChars_null] at hn ⊢
    obtain ⟨n, rfl⟩ : ∃ m, n = m + 1 := ⟨n - 1, by simp at hn; omega⟩
    rfl
  | .bool b, n, rest, _, hn => by
    rw [valueChars_bool] at hn ⊢
    obtain ⟨n, rfl⟩ : ∃ m, n = m + 1 := ⟨n - 1, by cases b <;> simp at hn <;> omega⟩
    cases b <;> rfl
  | .string s, n, rest, _, hn => by
    rw [valueChars_string] at hn ⊢
    obtain ⟨n, rfl⟩ : ∃ m, n = m + 1 := ⟨n - 1, by simp at hn; omega⟩
    rw [List.cons_append, List.append_assoc, List.singleton_append, readValue,
      stringUnits_quoteChars]
    simp only [Option.bind_eq_bind, Option.bind_some, List.reverse_nil, List.nil_append,
      charsOfUnits_map_toNat, String.ofList_toList]
  | .array [], n, rest, _, hn => by
    rw [valueChars_array_nil] at hn ⊢
    obtain ⟨n, rfl⟩ : ∃ m, n = m + 1 := ⟨n - 1, by simp at hn; omega⟩
    rfl
  | .array (v :: vs), n, rest, h, hn => by
    rw [hasText] at h
    rw [valueChars_array_cons] at hn ⊢
    obtain ⟨n, rfl⟩ : ∃ m, n = m + 1 := ⟨n - 1, by simp at hn; omega⟩
    have hitems := readItems_joinedItems (depth + 1) depth (v :: vs) rest (List.cons_ne_nil v vs) h
      (show (joinedItems (depth + 1) (v :: vs)).length < n by simp at hn; omega)
    rw [itemsHaveText, Bool.and_eq_true] at h
    -- the first item starts behind the gap, and tells that the list is not empty
    obtain ⟨c, s, hjoined, hgap, hc⟩ := joinedItems_head (depth + 1) vs h.1
    rw [hjoined] at hitems ⊢
    simp only [List.append_assoc, List.cons_append, List.nil_append] at hitems ⊢
    rw [readValue_open (by rw [skipGap_indentation, skipGap_cons hgap]) hc, hitems]
    rfl
  | .object [], n, rest, _, hn => by
    rw [valueChars_object_nil] at hn ⊢
    obtain ⟨n, rfl⟩ : ∃ m, n = m + 1 := ⟨n - 1, by simp at hn; omega⟩
    rfl
  | .object (f :: fs), n, rest, h, hn => by
    rw [hasText] at h
    rw [valueChars_object_cons] at hn ⊢
    obtain ⟨n, rfl⟩ : ∃ m, n = m + 1 := ⟨n - 1, by simp at hn; omega⟩
    obtain ⟨s, hjoined⟩ := joinedFields_head (depth + 1) f fs
    have hfields := readFields_joinedFields (depth + 1) depth (f :: fs) rest
      (List.cons_ne_nil f fs) h
      (show (joinedFields (depth + 1) (f :: fs)).length < n by simp at hn; omega)
    rw [hjoined] at hfields ⊢
    simp only [List.append_assoc, List.cons_append, List.nil_append] at hfields ⊢
    rw [readValue_openFields (by rw [skipGap_indentation, skipGap_cons rfl]) (by decide), hfields]
    exact congrArg (fun o => some (o, rest)) (ofFields_named (f :: fs))
  | .natural _, _, _, h, _ | .number, _, _, h, _ | .broken, _, _, h, _ => nomatch h

/-- The joined texts of items are read as these items, up to the bracket behind them. -/
theorem readItems_joinedItems (depth gap : Nat) : ∀ (items : List Json) {n : Nat}
    (rest : List Char), items ≠ [] → itemsHaveText items = true →
    (joinedItems depth items).length < n →
      readItems n (joinedItems depth items ++ ((indentation gap).toList ++ ']' :: rest)) =
        some (items, rest)
  | [], _, _, hne, _, _ => absurd rfl hne
  | [v], n, rest, _, h, hn => by
    rw [itemsHaveText, Bool.and_eq_true] at h
    rw [joinedItems_singleton] at hn ⊢
    obtain ⟨n, rfl⟩ : ∃ m, n = m + 1 := ⟨n - 1, by omega⟩
    refine readItems_last (readValue_valueChars depth v _ h.1 (by omega)) ?_
    rw [skipGap_indentation, skipGap_cons rfl]
  | v :: w :: ws, n, rest, _, h, hn => by
    rw [itemsHaveText, Bool.and_eq_true] at h
    rw [joinedItems_cons_cons] at hn ⊢
    simp only [List.length_append, separator, List.length_cons] at hn
    obtain ⟨n, rfl⟩ : ∃ m, n = m + 1 := ⟨n - 1, by omega⟩
    have hitems := readItems_joinedItems depth gap (w :: ws) rest (List.cons_ne_nil w ws) h.2
      (show (joinedItems depth (w :: ws)).length < n by omega)
    rw [itemsHaveText, Bool.and_eq_true] at h
    obtain ⟨c, s, hjoined, hgap, -⟩ := joinedItems_head depth ws h.2.1
    rw [List.append_assoc, List.append_assoc]
    refine readItems_next (readValue_valueChars depth v _ h.1 (by omega))
      (skipGap_separator depth _) ?_
    rw [skipGap_indentation]
    rw [hjoined, List.cons_append] at hitems ⊢
    rwa [skipGap_cons hgap]

/-- The joined texts of fields are read as these fields, up to the brace behind them. -/
theorem readFields_joinedFields (depth gap : Nat) (fields : List (String × Json)) {n : Nat}
    (rest : List Char) (hne : fields ≠ []) (h : fieldsHaveText fields = true)
    (hn : (joinedFields depth fields).length < n) :
    readFields n (joinedFields depth fields ++ ((indentation gap).toList ++ '\x7d' :: rest)) =
      some (fields.map fun f => (some f.1, f.2), rest) := by
  match fields with
  | [] => exact absurd rfl hne
  | [(name, v)] =>
    rw [fieldsHaveText, Bool.and_eq_true] at h
    rw [joinedFields_singleton] at hn ⊢
    obtain ⟨n, rfl⟩ : ∃ m, n = m + 1 := ⟨n - 1, by omega⟩
    refine readFields_last (takesField_of_readValue depth name h.1
      (readValue_valueChars depth v _ h.1 ?_)) ?_
    · simp [fieldChars] at hn
      omega
    · rw [skipGap_indentation, skipGap_cons rfl]
  | (name, v) :: g :: gs =>
    rw [fieldsHaveText, Bool.and_eq_true] at h
    rw [joinedFields_cons_cons] at hn ⊢
    simp only [List.length_append, separator, List.length_cons] at hn
    obtain ⟨n, rfl⟩ : ∃ m, n = m + 1 := ⟨n - 1, by omega⟩
    have hfields := readFields_joinedFields depth gap (g :: gs) rest (List.cons_ne_nil g gs) h.2
      (show (joinedFields depth (g :: gs)).length < n by omega)
    obtain ⟨s, hjoined⟩ := joinedFields_head depth g gs
    rw [List.append_assoc, List.append_assoc]
    refine readFields_next (takesField_of_readValue depth name h.1
      (readValue_valueChars depth v _ h.1 ?_)) (skipGap_separator depth _) ?_
    · simp [fieldChars] at hn
      omega
    · rw [skipGap_indentation]
      rw [hjoined, List.cons_append] at hfields ⊢
      rwa [skipGap_cons rfl]

end

/-- The text of a value is read as that value, with any blanks behind it. -/
theorem parse_pretty {v : Json} (h : hasText v = true) {g : String}
    (hg : ∀ c ∈ g.toList, isGap c = true) : parse (v.pretty ++ g) = some v := by
  obtain ⟨c, s, htext, hc, -⟩ := valueChars_head 0 h
  have hstart : skipGap (v.pretty ++ g).toList = valueChars 0 v ++ g.toList := by
    have htoList : (prettyAt 0 v).toList = c :: s := by rw [← htext, valueChars]
    rw [pretty, String.toList_append, htoList, htext, List.cons_append, skipGap_cons hc]
  have hend : skipGap g.toList = [] := by
    have hskip := skipGap_append hg []
    rwa [List.append_nil] at hskip
  have hread := readValue_valueChars 0 v (n := 2 * (valueChars 0 v ++ g.toList).length + 2)
    g.toList h (by rw [List.length_append]; omega)
  simp only [parse, hstart, hread, Option.bind_eq_bind, Option.bind_some, hend, List.isEmpty_nil,
    if_true]

end ElementManifest.Json

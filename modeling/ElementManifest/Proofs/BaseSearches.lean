import ElementManifest.Proofs.PathLookups
import ElementManifest.Proofs.PatternMeaning
import ElementManifest.Proofs.ScanOnce

/-!
# Searches behind a base

The pattern of an include is looked for behind the base, and the base is read as a part of the
pattern. That does no harm if it has no pattern characters: its parts are followed one by one
(`exists_searchFrom_append`), as they are when the base is looked up itself. So

> `search_join`: a search behind a base is a search with the include alone, from a path that
> leads where the base does.

Whether the pattern can be read does not depend on such a base (`exists_parse_join`).
-/

namespace ElementManifest

open ElementManifest.Text ElementManifest.Glob

/-! ## Searching behind a base -/

/-- The parts of a base that a search follows first. -/
def searchedParts (b : Path) : List (List Char) :=
  if b.isAbsolute then (partsOf b.text.toList).tail else partsOf b.text.toList

theorem partsOf_append_cons (s rest : List Char) :
    partsOf (s ++ '/' :: rest) = splitOn (· = '/') s ++ partsOf rest := by
  unfold partsOf
  dsimp only
  rw [splitOn_append_cons (by decide),
    List.getLast?_append_of_ne_nil _ (splitOn_ne_nil _ rest)]
  split
  next => exact List.dropLast_append_of_ne_nil (splitOn_ne_nil _ rest)
  next => rfl

theorem partsOf_subset {s part : List Char} (h : part ∈ partsOf s) :
    part ∈ splitOn (· = '/') s := by
  unfold partsOf at h
  dsimp only at h
  split at h
  next => exact List.dropLast_subset _ h
  next => exact h

theorem partsOf_ne_nil {s : List Char} (h : s ≠ []) : partsOf s ≠ [] := by
  intro hnil
  unfold partsOf at hnil
  dsimp only at hnil
  split at hnil
  next hlast =>
    obtain ⟨init, hinit⟩ := List.getLast?_eq_some_iff.mp hlast
    rw [hinit, List.dropLast_concat] at hnil
    have hs := joinWith_splitOn s
    rw [hinit, hnil] at hs
    exact h hs.symm
  next => exact splitOn_ne_nil _ s hnil

theorem partsOf_of_getLast? {s : List Char} (hne : s ≠ []) (hlast : s.getLast? ≠ some '/') :
    partsOf s = splitOn (· = '/') s := by
  unfold partsOf
  dsimp only
  refine if_neg fun hempty => ?_
  obtain ⟨init, hinit⟩ := List.getLast?_eq_some_iff.mp hempty
  have hs := joinWith_splitOn s
  rw [hinit] at hs
  by_cases hnil : init = []
  · rw [hnil] at hs
    exact hne hs.symm
  · rw [joinWith_append hnil (List.cons_ne_nil _ _)] at hs
    rw [← hs] at hlast
    exact hlast (by simp [joinWith])

/-- The text of a path behind another one. -/
theorem exists_text_join {b : Path} (hb : b.text ≠ "") {included : String}
    (hrelative : Path.isAbsolute ⟨included⟩ = false) :
    ∃ s, (b.join ⟨included⟩).text.toList = s ++ '/' :: included.toList ∧
      partsOf b.text.toList = splitOn (· = '/') s ∧
      (b.isAbsolute = true ↔ (s ++ ['/']).head? = some '/') ∧ (∀ c ∈ s, c ∈ b.text.toList) := by
  have hchars : b.text.toList ≠ [] := by simpa using hb
  have habs : b.isAbsolute = true ↔ b.text.toList.head? = some '/' := decide_eq_true_iff
  unfold Path.join
  rw [if_neg (by simp [hrelative, hb])]
  by_cases hlast : b.text.toList.getLast? = some '/'
  · obtain ⟨s, hs⟩ := List.getLast?_eq_some_iff.mp hlast
    rw [if_pos hlast, String.toList_append, habs, hs]
    refine ⟨s, List.append_assoc _ _ _, ?_, Iff.rfl, fun c hc => List.mem_append_left _ hc⟩
    rw [partsOf_append_cons]
    exact List.append_nil _
  · rw [if_neg hlast, String.toList_append, String.toList_append, habs]
    refine ⟨b.text.toList, List.append_assoc _ _ _, partsOf_of_getLast? hchars hlast, ?_,
      fun c hc => hc⟩
    rw [List.head?_append_of_ne_nil _ hchars]

/-- A search behind a base follows the parts of the base first. -/
theorem searchStart_join {b : Path} (hb : b.text ≠ "") {included : String}
    (hrelative : Path.isAbsolute ⟨included⟩ = false) (hne : included ≠ "") :
    searchStart (b.join ⟨included⟩).text.toList =
      (if b.isAbsolute then ⟨"/"⟩ else ⟨"."⟩, searchedParts b ++ partsOf included.toList) := by
  obtain ⟨s, htext, hparts, habs, -⟩ := exists_text_join hb hrelative
  have hchars : included.toList ≠ [] := by simpa using hne
  unfold searchedParts
  rw [htext, hparts]
  -- the base is the root alone, or there is a character in front of the slash that joins the two
  cases s with
  | nil =>
    rw [if_pos (habs.mpr rfl), if_pos (habs.mpr rfl)]
    cases hlist : included.toList with
    | nil => exact absurd hlist hchars
    | cons c rest => rfl
  | cons c s =>
    by_cases hc : c = '/'
    · subst hc
      have hroot : b.isAbsolute = true := habs.mpr rfl
      have hstart : searchStart ('/' :: s ++ '/' :: included.toList) =
          (⟨"/"⟩, partsOf (s ++ '/' :: included.toList)) := by
        cases s <;> rfl
      rw [if_pos hroot, if_pos hroot, hstart, partsOf_append_cons, splitOn, if_pos (by decide)]
      rfl
    · have hroot : ¬b.isAbsolute = true := fun h => hc (Option.some.inj (habs.mp h))
      rw [if_neg hroot, if_neg hroot, ← partsOf_append_cons]
      unfold searchStart
      split
      next heq => exact absurd (List.cons.inj heq).1 hc
      next heq => exact absurd (List.cons.inj heq).1 hc
      next => rfl

theorem mapM_parse_of_plain {parts : List (List Char)}
    (h : ∀ part ∈ parts, isPlainText part = true) :
    parts.mapM (fun part => Pattern.parse (String.ofList part)) =
      .ok (parts.map fun part => ⟨part.map .literal⟩) := by
  induction parts with
  | nil => rfl
  | cons part parts ih =>
    have hpart : Pattern.parse (String.ofList part) = .ok ⟨part.map .literal⟩ := by
      unfold Pattern.parse
      rw [String.toList_ofList, Pattern.parseFrom_of_plain (h part List.mem_cons_self)]
      rfl
    rw [List.mapM_cons, hpart, ih fun p hp => h p (List.mem_cons_of_mem _ hp)]
    rfl

theorem partsAt_ok {position : Nat} {prev : Option Char} {rest : List Char} {slash : Bool}
    (h : Pattern.partsAt position prev rest = .ok slash) (position' : Nat) :
    Pattern.partsAt position' prev rest = .ok slash := by
  unfold Pattern.partsAt at h ⊢
  split at h
  next => cases h
  next hprev =>
    rw [if_neg hprev]
    split at h
    next => exact h
    next =>
      split at h
      next hslash =>
        rw [if_pos hslash]
        exact h
      next => cases h

/-- Whether a text can be read depends on what is in front of it only by the last character
before it. -/
theorem exists_parseFrom_ok {s : List Char} {skip position : Nat} {prev : Option Char}
    {tokens ts : List Token} (h : Pattern.parseFrom skip position prev tokens s = .ok ts)
    (position' : Nat) (tokens' : List Token) :
    ∃ ts', Pattern.parseFrom skip position' prev tokens' s = .ok ts' := by
  induction s generalizing skip position prev tokens position' tokens' with
  | nil => exact ⟨_, rfl⟩
  | cons c s ih =>
    unfold Pattern.parseFrom at h ⊢
    dsimp only at h ⊢
    split at h
    next hskip =>
      rw [if_pos hskip]
      exact ih h _ _
    next hskip =>
      rw [if_neg hskip]
      split at h
      next hany =>
        rw [if_pos hany]
        exact ih h _ _
      next hany =>
        rw [if_neg hany]
        split at h
        next hstar =>
          rw [if_pos hstar]
          split at h
          next => exact ih h _ _
          next =>
            obtain ⟨slash, hparts, h⟩ := bind_eq_ok_iff.mp h
            rw [partsAt_ok hparts position']
            exact ih h _ _
          next => cases h
        next hstar =>
          rw [if_neg hstar]
          split at h
          next hbracket =>
            rw [if_pos hbracket]
            split at h
            next => exact ih h _ _
            next => cases h
          next hbracket =>
            rw [if_neg hbracket]
            exact ih h _ _

/-- A pattern behind one plain base can be read if it can behind another one. -/
theorem exists_parse_join {b b' : Path} (hb : b.text ≠ "") (hb' : b'.text ≠ "")
    (hplain : isPlainText b.text.toList = true) (hplain' : isPlainText b'.text.toList = true)
    {included : String} (hrelative : Path.isAbsolute ⟨included⟩ = false) {p : Pattern}
    (h : Pattern.parse (b.join ⟨included⟩).text = .ok p) :
    ∃ p', Pattern.parse (b'.join ⟨included⟩).text = .ok p' := by
  -- either base is taken over character by character, up to the slash behind it
  have hread : ∀ {b : Path}, b.text ≠ "" → isPlainText b.text.toList = true →
      ∃ position tokens, Pattern.parse (b.join ⟨included⟩).text =
        (Pattern.parseFrom 0 position (some '/') tokens included.toList).map Pattern.mk := by
    intro b hb hplain
    obtain ⟨s, htext, -, -, hsub⟩ := exists_text_join hb hrelative
    have hfront : isPlainText (s ++ ['/']) = true := by
      unfold isPlainText at hplain ⊢
      rw [List.all_eq_true] at hplain ⊢
      intro c hc
      rcases List.mem_append.mp hc with hc | hc
      · exact hplain c (hsub c hc)
      · rw [List.mem_singleton.mp hc]
        decide
    have hlast : (s ++ ['/']).getLast?.or none = some '/' := by
      rw [List.getLast?_concat]
      rfl
    unfold Pattern.parse
    rw [htext, List.append_cons, Pattern.parseFrom_append hfront, hlast]
    exact ⟨_, _, rfl⟩
  obtain ⟨position, tokens, hparse⟩ := hread hb hplain
  obtain ⟨position', tokens', hparse'⟩ := hread hb' hplain'
  rw [hparse] at h
  cases hts : Pattern.parseFrom 0 position (some '/') tokens included.toList with
  | error e =>
    rw [hts] at h
    cases h
  | ok ts =>
    obtain ⟨ts', hts'⟩ := exists_parseFrom_ok hts position' tokens'
    rw [hparse', hts']
    exact ⟨_, rfl⟩

section

variable {fs : FileSystem}

/-- What a way leads through is there if its end is: each part but the first starts from a
directory. -/
theorem isSome_at?_of_foldlM_step {parts : List (List Char)} {place last : Place}
    (hway : parts.foldlM fs.step place = some last)
    (hlast : (fs.root.at? last).isSome = true) : (fs.root.at? place).isSome = true := by
  cases parts with
  | nil =>
    cases hway
    exact hlast
  | cons part parts =>
    rw [List.foldlM_cons] at hway
    obtain ⟨next, hnext, -⟩ := Option.bind_eq_some_iff.mp hway
    have hdirectory := (Option.ite_none_right_eq_some.mp hnext).1
    unfold FileSystem.isDirectoryAt at hdirectory
    cases hat : fs.root.at? place with
    | none =>
      rw [hat] at hdirectory
      cases hdirectory
    | some t => rfl

theorem followName_of_step {part : List Char} (hpart : part ≠ []) (hfree : ∀ x ∈ part, x ≠ '/')
    {path : Path} {place next : Place} (hplace : fs.place? path = some place)
    (hnext : fs.step place part = some next) (hexists : (fs.root.at? next).isSome = true) :
    followName fs path (String.ofList part) =
      some ((namingBase path).join ⟨String.ofList part⟩) := by
  unfold followName
  refine if_pos ?_
  split
  next =>
    unfold FileSystem.isDirectory FileSystem.find?
    rw [hplace]
    exact (Option.ite_none_right_eq_some.mp hnext).1
  next =>
    unfold FileSystem.pathExists FileSystem.find?
    rw [(FileSystem.place?_namingBase_join hpart hfree hplace).trans hnext]
    exact hexists

/-- Plain parts that exist are followed to their end. -/
theorem exists_searchFrom_append {parts : List (List Char)} {ps : List Pattern}
    (hread : List.Forall₂ ReadFrom parts ps) (hplain : ∀ part ∈ parts, isPlainText part = true)
    (hne : [] ∉ parts) {path : Path} {place last : Place} (hplace : fs.place? path = some place)
    (hway : parts.foldlM fs.step place = some last) (hexists : (fs.root.at? last).isSome = true) :
    ∃ path', fs.place? path' = some last ∧
      path'.steps = path.steps ++ parts.filterMap Path.componentOf ∧
      ∀ onlyDirectories rest, searchFrom fs onlyDirectories (ps ++ rest) path =
        searchFrom fs onlyDirectories rest path' := by
  induction hread generalizing path place with
  | nil =>
    cases hway
    exact ⟨path, hplace, (List.append_nil _).symm, fun _ _ => rfl⟩
  | @cons part p parts ps hp hread ih =>
    obtain ⟨hfirst, hplain⟩ := List.forall_mem_cons.mp hplain
    obtain ⟨hnil, hne⟩ := List.ne_and_not_mem_of_not_mem_cons hne
    have hpart : part ≠ [] := Ne.symm hnil
    rw [List.foldlM_cons] at hway
    obtain ⟨next, hnext, hrest⟩ := Option.bind_eq_some_iff.mp hway
    have hplace' := (FileSystem.place?_namingBase_join hpart hp.free hplace).trans hnext
    have hsome := isSome_at?_of_foldlM_step hrest hexists
    obtain ⟨path', hplace'', hsteps, hsearch⟩ := ih hplain hne hplace' hrest
    refine ⟨path', hplace'', ?_, ?_⟩
    · rw [hsteps, FileSystem.steps_namingBase_join hp.free (Path.text_ne_of_place hplace),
        List.append_assoc, List.filterMap_cons]
      cases Path.componentOf part <;> rfl
    · intro onlyDirectories rest
      have hliteral := hp.literal?_of_isPlainText hfirst
      rw [List.cons_append, searchFrom_of_literal hliteral,
        followName_of_step hpart hp.free hplace hnext hsome]
      exact hsearch onlyDirectories rest

/-- Nothing but empty parts is left out of a base. -/
theorem parts_eq_searchedParts {b : Path} (hb : b.text ≠ "") :
    ∃ slash, (slash = [] ∨ slash = [[]]) ∧
      b.parts = (if b.isAbsolute then [[]] else []) ++ searchedParts b ++ slash := by
  obtain ⟨slash, hslash, hall⟩ : ∃ slash, (slash = [] ∨ slash = [[]]) ∧
      b.parts = partsOf b.text.toList ++ slash := by
    unfold partsOf Path.parts
    dsimp only
    split
    next hlast =>
      refine ⟨[[]], Or.inr rfl, ?_⟩
      obtain ⟨init, hinit⟩ := List.getLast?_eq_some_iff.mp hlast
      rw [hinit, List.dropLast_concat]
    next => exact ⟨[], Or.inl rfl, (List.append_nil _).symm⟩
  refine ⟨slash, hslash, ?_⟩
  unfold searchedParts
  by_cases habs : b.isAbsolute = true
  · rw [if_pos habs, if_pos habs, hall]
    have hhead := Path.head?_parts_of_isAbsolute habs
    have hchars : b.text.toList ≠ [] := by simpa using hb
    cases hparts : partsOf b.text.toList with
    | cons first rest =>
      rw [hall, hparts] at hhead
      rw [Option.some.inj hhead]
      rfl
    | nil =>
      -- an absolute path has a part in front of its slash and one behind it
      rw [hparts, List.nil_append] at hall
      have hs := joinWith_splitOn b.text.toList
      change joinWith ['/'] b.parts = _ at hs
      rw [hall] at hs
      rcases hslash with rfl | rfl
      · exact absurd hs.symm hchars
      · exact absurd hs.symm hchars
  · rw [if_neg habs, if_neg habs]
    exact hall

theorem step_eq_some_of_slash {place next : Place} (h : fs.step place [] = some next) :
    next = place :=
  (Option.some.inj (Option.ite_none_right_eq_some.mp h).2).symm

/-- The way of a base is followed from where a search starts. -/
theorem foldlM_searchedParts {b : Path} {place : Place} (h : fs.place? b = some place) :
    ∃ start, fs.place? (if b.isAbsolute then ⟨"/"⟩ else ⟨"."⟩) = some start ∧
      (searchedParts b).foldlM fs.step start = some place := by
  have hb := Path.text_ne_of_place h
  obtain ⟨slash, hslash, hparts⟩ := parts_eq_searchedParts hb
  unfold FileSystem.place? at h
  rw [if_neg hb] at h
  have hstart : fs.isDirectoryAt (fs.start b) = true := by
    obtain ⟨part, rest, hcons⟩ :=
      List.exists_cons_of_ne_nil (splitOn_ne_nil (· = '/') b.text.toList)
    change b.parts = _ at hcons
    rw [hcons, List.foldlM_cons] at h
    obtain ⟨next, hnext, -⟩ := Option.bind_eq_some_iff.mp h
    exact (Option.ite_none_right_eq_some.mp hnext).1
  -- an empty part and a `.` lead back to where the search starts
  have hstay : ∀ part, part = [] ∨ part = ['.'] →
      fs.step (fs.start b) part = some (fs.start b) := by
    intro part hpart
    unfold FileSystem.step FileSystem.placeBehind
    rw [if_pos hstart, if_pos hpart]
  have hway : (searchedParts b).foldlM fs.step (fs.start b) = some place := by
    rw [hparts, List.foldlM_append, List.foldlM_append] at h
    obtain ⟨next, hnext, hlast⟩ := Option.bind_eq_some_iff.mp h
    obtain ⟨root, hroot, hsearched⟩ := Option.bind_eq_some_iff.mp hnext
    have hat : root = fs.start b := by
      split at hroot
      next => exact step_eq_some_of_slash ((Option.bind_fun_some _).symm.trans hroot)
      next => exact (Option.some.inj hroot).symm
    rw [hat] at hsearched
    rw [hsearched]
    rcases hslash with rfl | rfl
    · exact hlast
    · exact congrArg some (step_eq_some_of_slash ((Option.bind_fun_some _).symm.trans hlast)).symm
  refine ⟨fs.start b, ?_, hway⟩
  unfold FileSystem.start at hstay ⊢
  split
  next habs =>
    rw [if_pos habs] at hstay
    show (fs.step [] []).bind (fun next => (fs.step next []).bind some) = some []
    rw [hstay [] (Or.inl rfl), Option.bind_some, hstay [] (Or.inl rfl)]
    rfl
  next habs =>
    rw [if_neg habs] at hstay
    show (fs.step fs.workPlace ['.']).bind some = some fs.workPlace
    rw [hstay ['.'] (Or.inr rfl)]
    rfl

/-- **A search behind a base** follows the patterns of the include from a path that leads where
the base does. -/
theorem search_join {b : Path} {t : FileTree} (hb : fs.find? b = some t)
    (hplain : isPlainText b.text.toList = true) (hne : [] ∉ searchedParts b) {included : String}
    (hrelative : Path.isAbsolute ⟨included⟩ = false) (hincluded : included ≠ "") :
    ∃ path, path.text ≠ "" ∧ fs.find? path = some t ∧ path.steps = b.steps ∧
      search fs (b.join ⟨included⟩).text =
        (Pattern.parse (b.join ⟨included⟩).text).bind fun _ =>
          ((partsOf included.toList).mapM fun part => Pattern.parse (String.ofList part)).bind
            fun ps =>
              .ok (searchFrom fs (decide (included.toList.getLast? = some '/')) ps path) := by
  obtain ⟨place, hplace, hat⟩ := Option.bind_eq_some_iff.mp hb
  have htext := Path.text_ne_of_place hplace
  obtain ⟨slash, hslash, hparts⟩ := parts_eq_searchedParts htext
  obtain ⟨start, hstart, hway⟩ := foldlM_searchedParts hplace
  have hsub : ∀ part ∈ searchedParts b, part ∈ b.parts := by
    intro part hpart
    rw [hparts]
    exact List.mem_append_left _ (List.mem_append_right _ hpart)
  have hplains : ∀ part ∈ searchedParts b, isPlainText part = true :=
    fun part hpart => plain_of_mem_parts hplain (hsub part hpart)
  have hmapM := mapM_parse_of_plain hplains
  have hread := forall₂_of_mapM (fun part hpart => Path.free_of_mem_parts (hsub part hpart)) hmapM
  obtain ⟨path, hpath, hsteps, hsearch⟩ := exists_searchFrom_append hread hplains hne hstart hway
    (by rw [hat]; rfl)
  refine ⟨path, Path.text_ne_of_place hpath, ?_, ?_, ?_⟩
  · unfold FileSystem.find?
    rw [hpath]
    exact hat
  · -- the slash at the end of a base is no step
    have hslash' : slash.filterMap Path.componentOf = [] := by
      rcases hslash with rfl | rfl <;> rfl
    rw [hsteps, b.steps_eq, hparts, List.filterMap_append, List.filterMap_append, hslash',
      List.append_nil]
    split
    next => rfl
    next => rfl
  · have hchars : included.toList ≠ [] := by simpa using hincluded
    have hlast : (b.join ⟨included⟩).text.toList.getLast? = included.toList.getLast? := by
      obtain ⟨s, hs, -⟩ := exists_text_join htext hrelative
      rw [hs, List.getLast?_append_cons, List.getLast?_cons]
      cases hlist : included.toList.getLast? with
      | none => exact absurd (List.getLast?_eq_none_iff.mp hlist) hchars
      | some c => rfl
    rw [search_eq, searchStart_join htext hrelative hincluded, hlast]
    refine congrArg _ (funext fun _ => ?_)
    rw [List.mapM_append, hmapM]
    cases hps : (partsOf included.toList).mapM fun part => Pattern.parse (String.ofList part) with
    | error e => rfl
    | ok ps =>
      -- an include that is not empty has a part, so there is something to search for
      have hsome : ps ≠ [] := by
        have hfree : ∀ part ∈ partsOf included.toList, ∀ x ∈ part, x ≠ '/' := by
          intro part hpart
          exact Path.free_of_mem_parts (p := ⟨included⟩) (partsOf_subset hpart)
        rintro rfl
        have hnil := (forall₂_of_mapM hfree hps).length_eq
        exact partsOf_ne_nil hchars (List.length_eq_zero_iff.mp hnil)
      show Except.ok _ = Except.ok _
      rw [if_neg (by simpa using fun _ => hsome)]
      exact congrArg Except.ok (hsearch _ ps)

end

end ElementManifest

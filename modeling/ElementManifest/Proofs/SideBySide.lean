import ElementManifest.Proofs.GlobSpelling
import ElementManifest.Proofs.PathLookups

/-!
# Paths side by side

What is below a directory does not tell where the directory lies. So two paths, behind two bases
by the same names, are followed side by side:

> `Beside`: two paths that are behind the bases by the same names.

> `Mirrored`: two such paths that lead to the same.

Each step of a walk (`exists_mem_descendants`) and of a search (`exists_found_beside`)
keeps the two side by side.
-/

namespace ElementManifest

open ElementManifest.Text ElementManifest.Glob

/-! ## Paths behind two bases -/

section

variable (b b' : Path)

/-- Two paths that are behind two bases by the same names. -/
structure Beside (p p' : Path) : Prop where
  text_ne : p.text ≠ ""
  text_ne' : p'.text ≠ ""
  names : ∃ names, (∀ c ∈ names, c.isName = true) ∧ p.steps = b.steps ++ names ∧
    p'.steps = b'.steps ++ names

/-- Two paths behind two bases that lead to the same. -/
structure Mirrored (fs fs' : FileSystem) (p p' : Path) : Prop extends Beside b b' p p' where
  find?_eq : fs.find? p = fs'.find? p'

end

section

variable {b b' : Path}

theorem Beside.symm {p p' : Path} (h : Beside b b' p p') : Beside b' b p' p := by
  obtain ⟨names, hnames, hsteps, hsteps'⟩ := h.names
  exact ⟨h.text_ne', h.text_ne, names, hnames, hsteps', hsteps⟩

theorem Beside.names_append {p p' q q' : Path} (h : Beside b b' p p') {more : List Component}
    (hmore : ∀ c ∈ more, c.isName = true) (hq : q.steps = p.steps ++ more)
    (hq' : q'.steps = p'.steps ++ more) :
    ∃ names, (∀ c ∈ names, c.isName = true) ∧ q.steps = b.steps ++ names ∧
      q'.steps = b'.steps ++ names := by
  obtain ⟨names, hnames, hsteps, hsteps'⟩ := h.names
  refine ⟨names ++ more, ?_, ?_, ?_⟩
  · intro c hc
    exact (List.mem_append.mp hc).elim (hnames c) (hmore c)
  · rw [hq, hsteps, List.append_assoc]
  · rw [hq', hsteps', List.append_assoc]

/-- Names behind two such paths keep them side by side. -/
theorem Beside.join {p p' q : Path} (h : Beside b b' p p') (hq : q.isAbsolute = false)
    (hup : ['.', '.'] ∉ q.parts) : Beside b b' (p.join q) (p'.join q) where
  text_ne := join_text_ne h.text_ne hq
  text_ne' := join_text_ne h.text_ne' hq
  names := by
    refine h.names_append ?_ (FileSystem.steps_join h.text_ne hq)
      (FileSystem.steps_join h.text_ne' hq)
    intro c hc
    obtain ⟨part, hpart, hcomponent⟩ := List.mem_filterMap.mp hc
    refine Path.isName_of_componentOf ?_ hcomponent
    rintro rfl
    exact hup hpart

theorem Beside.joinPart {p p' : Path} (h : Beside b b' p p') {part : List Char} (hne : part ≠ [])
    (hfree : ∀ x ∈ part, x ≠ '/') (hup : part ≠ ['.', '.']) :
    Beside b b' ((namingBase p).join ⟨String.ofList part⟩)
      ((namingBase p').join ⟨String.ofList part⟩) where
  text_ne := FileSystem.namingBase_join_text_ne hne hfree h.text_ne
  text_ne' := FileSystem.namingBase_join_text_ne hne hfree h.text_ne'
  names := h.names_append
    (fun _ hc => Path.isName_of_componentOf hup (Option.mem_toList.mp hc))
    (FileSystem.steps_namingBase_join hfree h.text_ne)
    (FileSystem.steps_namingBase_join hfree h.text_ne')

variable {fs fs' : FileSystem}

/-- The parts of a name in a directory. -/
theorem parts_of_isEntryName {name : String} (h : isEntryName name = true) :
    name.toList ≠ [] ∧ (∀ x ∈ name.toList, x ≠ '/') ∧ name.toList ≠ ['.', '.'] := by
  obtain ⟨hfree, hcomponent⟩ := inner_of_isEntryName h
  refine ⟨?_, hfree, ?_⟩
  · intro hnil
    change Path.componentOf name.toList = _ at hcomponent
    rw [hnil] at hcomponent
    cases hcomponent
  · intro hdots
    change Path.componentOf name.toList = _ at hcomponent
    rw [hdots] at hcomponent
    cases hcomponent

theorem Mirrored.join {p p' q : Path} (h : Mirrored b b' fs fs' p p') (hq : q.isAbsolute = false)
    (hup : ['.', '.'] ∉ q.parts) : Mirrored b b' fs fs' (p.join q) (p'.join q) where
  toBeside := h.toBeside.join hq hup
  find?_eq := by
    rw [FileSystem.find?_join h.text_ne hq hup, FileSystem.find?_join h.text_ne' hq hup,
      h.find?_eq]

theorem Mirrored.joinPart {p p' : Path} (h : Mirrored b b' fs fs' p p') {part : List Char}
    (hne : part ≠ []) (hfree : ∀ x ∈ part, x ≠ '/') (hup : part ≠ ['.', '.']) :
    Mirrored b b' fs fs' ((namingBase p).join ⟨String.ofList part⟩)
      ((namingBase p').join ⟨String.ofList part⟩) where
  toBeside := h.toBeside.joinPart hne hfree hup
  find?_eq := by
    rw [FileSystem.find?_namingBase_join hne hfree h.text_ne hup,
      FileSystem.find?_namingBase_join hne hfree h.text_ne' hup, h.find?_eq]

theorem Mirrored.joinEntry {p p' : Path} (h : Mirrored b b' fs fs' p p') {name : String}
    (hname : isEntryName name = true) :
    Mirrored b b' fs fs' (p.join ⟨name⟩) (p'.join ⟨name⟩) := by
  obtain ⟨-, hfree, hup⟩ := parts_of_isEntryName hname
  refine h.join (isAbsolute_of_free hfree) ?_
  rw [parts_of_free hfree, List.mem_singleton]
  exact fun hdots => hup hdots.symm

theorem Mirrored.joinFound {p p' : Path} (h : Mirrored b b' fs fs' p p') {name : String}
    (hname : isEntryName name = true) :
    Mirrored b b' fs fs' ((namingBase p).join ⟨name⟩) ((namingBase p').join ⟨name⟩) := by
  obtain ⟨hne, hfree, hup⟩ := parts_of_isEntryName hname
  have hjoin := h.joinPart hne hfree hup
  rwa [String.ofList_toList] at hjoin

/-! ## Walking side by side -/

mutual

/-- What is below one of two paths is found below the other one as well, under a path that is
related as each entry of a directory is. -/
theorem exists_mem_descendants {onWay found : Path → Path → Prop}
    (hentry : ∀ {p p' name}, onWay p p' → isEntryName name = true →
      found (p.join ⟨name⟩) (p'.join ⟨name⟩))
    (hdir : ∀ {p p'}, found p p' → onWay p p') {path path' q : Path} {u : FileTree} :
    ∀ {t : FileTree}, t.isNamed = true → onWay path path' → (q, u) ∈ t.descendants path →
      ∃ q', (q', u) ∈ t.descendants path' ∧ found q q'
  | .file _, _, _, hq => by
    rw [FileTree.descendants] at hq
    cases hq
  | .directory es, h, hway, hq => by
    rw [FileTree.descendants] at hq ⊢
    exact exists_mem_entriesBelow hentry hdir h hway hq

theorem exists_mem_entriesBelow {onWay found : Path → Path → Prop}
    (hentry : ∀ {p p' name}, onWay p p' → isEntryName name = true →
      found (p.join ⟨name⟩) (p'.join ⟨name⟩))
    (hdir : ∀ {p p'}, found p p' → onWay p p') {path path' q : Path} {u : FileTree} :
    ∀ {es : List (String × FileTree)}, FileTree.areNamed es = true → onWay path path' →
      (q, u) ∈ FileTree.entriesBelow path es →
        ∃ q', (q', u) ∈ FileTree.entriesBelow path' es ∧ found q q'
  | [], _, _, hq => by
    rw [FileTree.entriesBelow] at hq
    cases hq
  | (name, t) :: es, h, hway, hq => by
    rw [FileTree.areNamed, Bool.and_eq_true, Bool.and_eq_true] at h
    have hfirst := hentry hway h.1.1
    simp only [FileTree.entriesBelow, List.mem_cons, List.mem_append] at hq ⊢
    rcases hq with heq | hbelow | hrest
    · cases heq
      exact ⟨_, Or.inl rfl, hfirst⟩
    · obtain ⟨q', hq', hfound⟩ := exists_mem_descendants hentry hdir h.1.2 (hdir hfirst) hbelow
      exact ⟨q', Or.inr (Or.inl hq'), hfound⟩
    · obtain ⟨q', hq', hfound⟩ := exists_mem_entriesBelow hentry hdir h.2 hway hrest
      exact ⟨q', Or.inr (Or.inr hq'), hfound⟩

end

/-! ## Searching side by side -/

theorem fileName?_join_name (p : Path) {name : String} (h : isEntryName name = true) :
    (p.join ⟨name⟩).fileName? = some name := by
  unfold Path.fileName?
  rw [components_join_name p h, List.getLast?_concat]

theorem exists_mem_allBelow (hnamed : fs.root.isNamed = true) {p p' : Path}
    (h : Mirrored b b' fs fs' p p') {e : Path × FileTree} (he : e ∈ allBelow fs p) :
    ∃ q', (q', e.2) ∈ allBelow fs' p' ∧ Mirrored b b' fs fs' e.1 q' ∧
      e.1.fileName? = q'.fileName? := by
  unfold allBelow at he ⊢
  rw [← h.find?_eq]
  cases hfind : fs.find? p with
  | none =>
    rw [hfind] at he
    cases he
  | some t =>
    rw [hfind] at he
    -- the first names stand behind a directory without its `.`, and the others behind these
    refine @exists_mem_descendants
      (fun p p' => ∀ name, isEntryName name = true →
        Mirrored b b' fs fs' (p.join ⟨name⟩) (p'.join ⟨name⟩))
      (fun p p' => Mirrored b b' fs fs' p p' ∧ p.fileName? = p'.fileName?)
      ?_ ?_ _ _ _ _ _ (isNamed_find? hnamed hfind) ?_ he
    · intro p p' name hway hname
      exact ⟨hway name hname, by rw [fileName?_join_name p hname, fileName?_join_name p' hname]⟩
    · intro p p' hfound name hname
      exact hfound.1.joinEntry hname
    · intro name hname
      exact h.joinFound hname

theorem exists_mem_matchesIn (hnamed : fs.root.isNamed = true) {p p' : Path}
    (h : Mirrored b b' fs fs' p p') {pattern : Pattern} (hbelow : pattern.staysBelow = true)
    (hpattern : pattern.literal? = none) {r : Path} (hr : r ∈ matchesIn fs pattern p) :
    ∃ r' ∈ matchesIn fs' pattern p', Mirrored b b' fs fs' r r' := by
  unfold matchesIn at hr ⊢
  rw [← h.find?_eq]
  split at hr
  next es hes =>
    have hentries : FileTree.areNamed es = true := by
      have hdirectory := isNamed_find? hnamed hes
      rw [FileTree.isNamed] at hdirectory
      exact hdirectory
    rcases List.mem_append.mp hr with hr | hr
    · obtain ⟨name, hname, rfl⟩ := List.mem_map.mp hr
      obtain ⟨⟨name', t⟩, he, rfl⟩ := List.mem_map.mp (List.mem_filter.mp hname).1
      refine ⟨_, List.mem_append_left _ (List.mem_map_of_mem hname), ?_⟩
      exact h.joinFound (isNamed_of_mem hentries he).1
    · rw [filter_special_eq_nil hbelow hpattern] at hr
      cases hr
  next => cases hr

theorem exists_followName {p p' : Path} (h : Mirrored b b' fs fs' p p') {part : List Char}
    (hne : part ≠ []) (hfree : ∀ x ∈ part, x ≠ '/') (hup : part ≠ ['.', '.']) {next : Path}
    (hnext : followName fs p (String.ofList part) = some next) :
    ∃ next', followName fs' p' (String.ofList part) = some next' ∧
      Mirrored b b' fs fs' next next' := by
  have hjoin := h.joinPart hne hfree hup
  unfold followName at hnext ⊢
  dsimp only at hnext ⊢
  obtain ⟨hfound, heq⟩ := Option.ite_none_right_eq_some.mp hnext
  rw [← Option.some.inj heq]
  refine ⟨_, if_pos ?_, hjoin⟩
  unfold FileSystem.isDirectory FileSystem.pathExists at hfound ⊢
  rw [← h.find?_eq, ← hjoin.find?_eq]
  exact hfound

theorem ne_up_of_partStaysBelow {part : List Char} (h : partStaysBelow part = true) :
    part ≠ ['.', '.'] := by
  rintro rfl
  cases isName_of_partStaysBelow h (c := .up) rfl

/-- **A search goes side by side**: parts that stay below lead from two paths to the same. -/
theorem exists_found_beside (hnamed : fs.root.isNamed = true) {onlyDirectories : Bool}
    {parts : List (List Char)} {ps : List Pattern} (hread : List.Forall₂ ReadFrom parts ps)
    (hbelow : ∀ part ∈ parts, partStaysBelow part = true) (hne : [] ∉ parts) {p p' : Path}
    (h : Mirrored b b' fs fs' p p') {r : Path} (hr : Found fs onlyDirectories ps p r) :
    ∃ r', Found fs' onlyDirectories ps p' r' ∧ Mirrored b b' fs fs' r r' := by
  -- By the steps of the search on the one side, each of which the other side can take as well.
  induction hr generalizing parts p' with
  | here hsearched =>
    refine ⟨p', .here ?_, h⟩
    unfold FileSystem.isDirectory at hsearched ⊢
    rw [← h.find?_eq]
    exact hsearched
  | @named _ _ _ _ _ name hname hnext _ ih =>
    cases hread with
    | @cons part _ parts _ hp hread =>
      obtain ⟨hpart, hbelow⟩ := List.forall_mem_cons.mp hbelow
      obtain ⟨hnonempty, hne⟩ := List.ne_and_not_mem_of_not_mem_cons hne
      obtain ⟨-, rfl⟩ := hp.eq_of_literal? hname
      obtain ⟨next', hnext', hmirrored⟩ :=
        exists_followName h (Ne.symm hnonempty) hp.free (ne_up_of_partStaysBelow hpart) hnext
      obtain ⟨r', hr', hfound⟩ := ih hread hbelow hne hmirrored
      exact ⟨r', .named hname hnext' hr', hfound⟩
  | anywhere hp he hdirectory =>
    obtain ⟨q', hq', hmirrored, -⟩ := exists_mem_allBelow hnamed h he
    exact ⟨q', .anywhere hp hq' hdirectory, hmirrored⟩
  | again hp hq _ ih =>
    cases hread with
    | cons _ hread =>
      obtain ⟨r', hr', hfound⟩ := ih hread (List.forall_mem_cons.mp hbelow).2
        (List.ne_and_not_mem_of_not_mem_cons hne).2 h
      exact ⟨r', .again hp hq hr', hfound⟩
  | behind hp hq he hmatch _ ih =>
    cases hread with
    | cons _ hread =>
      cases hread with
      | cons _ hread =>
        obtain ⟨q', hq', hmirrored, hsame⟩ := exists_mem_allBelow hnamed h he
        obtain ⟨r', hr', hfound⟩ := ih hread
          (List.forall_mem_cons.mp (List.forall_mem_cons.mp hbelow).2).2
          (fun hmem => hne (List.mem_cons_of_mem _ (List.mem_cons_of_mem _ hmem))) hmirrored
        rw [hsame] at hmatch
        exact ⟨r', .behind hp hq hq' hmatch hr', hfound⟩
  | matched hname hp hnext _ ih =>
    cases hread with
    | cons hpattern hread =>
      obtain ⟨hpart, hbelow⟩ := List.forall_mem_cons.mp hbelow
      obtain ⟨next', hnext', hmirrored⟩ := exists_mem_matchesIn hnamed h
        (partStaysBelow_of_ok hpart hpattern.parse_eq) hname hnext
      obtain ⟨r', hr', hfound⟩ := ih hread hbelow
        (List.ne_and_not_mem_of_not_mem_cons hne).2 hmirrored
      exact ⟨r', .matched hname hp hnext' hr', hfound⟩

end

end ElementManifest

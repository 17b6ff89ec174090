import ElementManifest.Program.File
import ElementManifest.Proofs.TextParts

/-!
# Spellings of a path

Two paths are the same when they have the same components. What a program makes of a
path does not depend on its spelling, because each step can be said in components:

> `components_parent`: the parent has all components but the last.

> `components_join`: a path behind another adds its components.

So a text is read alike under all spellings of its path (`read_of_same`), and its modules
are the same ones (`ofSource_of_same`).
-/

namespace ElementManifest

open ElementManifest.Text ElementManifest.TypeScript

namespace Path

theorem same_iff (p q : Path) : p.same q = true ↔ p.components = q.components :=
  decide_eq_true_iff

theorem same_left {p q : Path} (h : p.same q = true) (r : Path) : p.same r = q.same r := by
  unfold same
  rw [(same_iff p q).mp h]

theorem fileName?_of_same {p q : Path} (h : p.same q = true) : p.fileName? = q.fileName? := by
  unfold fileName?
  rw [(same_iff p q).mp h]

/-! ## Components of parts -/

/-- The components that parts stand for. -/
def componentsOf (absolute : Bool) : List (List Char) → List Component
  | [] => if absolute then [.root] else []
  | first :: rest =>
    (if absolute then [Component.root]
      else if first = ['.'] then [Component.here] else (componentOf first).toList) ++
      rest.filterMap componentOf

theorem components_eq (p : Path) : p.components = componentsOf p.isAbsolute p.parts := by
  unfold components
  cases hparts : p.parts with
  | nil => exact absurd hparts (splitOn_ne_nil _ _)
  | cons first rest => rfl

theorem componentsOf_append {absolute : Bool} {parts : List (List Char)} (h : parts ≠ [])
    (more : List (List Char)) :
    componentsOf absolute (parts ++ more) =
      componentsOf absolute parts ++ more.filterMap componentOf := by
  cases parts with
  | nil => exact absurd rfl h
  | cons first rest =>
    show _ ++ (rest ++ more).filterMap componentOf = (_ ++ rest.filterMap componentOf) ++ _
    rw [List.filterMap_append, List.append_assoc]

theorem componentOf_eq_none_iff {part : List Char} :
    componentOf part = none ↔ part = [] ∨ part = ['.'] := by
  unfold componentOf
  split
  next h => exact iff_of_true rfl h
  next h =>
    refine iff_of_false ?_ h
    split
    next => exact nofun
    next => exact nofun

/-- A part that is a component is the step up or a name. -/
theorem componentOf_cases {part : List Char} {c : Component} (h : componentOf part = some c) :
    (part = ['.', '.'] ∧ c = .up) ∨
      (part ≠ ['.', '.'] ∧ c = .name (String.ofList part)) := by
  unfold componentOf at h
  split at h
  next => cases h
  next =>
    split at h
    next hup => exact Or.inl ⟨hup, (Option.some.inj h).symm⟩
    next hup => exact Or.inr ⟨hup, (Option.some.inj h).symm⟩

theorem componentOf_of_ne {part : List Char} (hempty : part ≠ []) (hdot : part ≠ ['.'])
    (hup : part ≠ ['.', '.']) : componentOf part = some (.name (String.ofList part)) := by
  unfold componentOf
  rw [if_neg (not_or.mpr ⟨hempty, hdot⟩), if_neg hup]

/-- A part that does not count is none of the components. -/
theorem componentOf_of_not_counts {part : List Char} {before : List (List Char)}
    (h : counts part before = false) : componentOf part = none ∧ (before = [] → part = []) := by
  unfold counts at h
  rw [componentOf_eq_none_iff]
  by_cases hempty : part = []
  · exact ⟨Or.inl hempty, fun _ => hempty⟩
  · have hdot : part = ['.'] ∧ before ≠ [] := by simpa [hempty] using h
    exact ⟨Or.inr hdot.1, fun hnil => absurd hnil hdot.2⟩

theorem exists_componentOf {part : List Char} (h : part ≠ []) (hdot : part ≠ ['.']) :
    ∃ c, componentOf part = some c := by
  refine Option.ne_none_iff_exists'.mp ?_
  rw [Ne, componentOf_eq_none_iff]
  exact not_or.mpr ⟨h, hdot⟩

theorem componentOf_ne_root (part : List Char) : componentOf part ≠ some .root := by
  intro h
  rcases componentOf_cases h with ⟨-, hc⟩ | ⟨-, hc⟩
  · cases hc
  · cases hc

/-- A part that counts is a component, and it is the last one. -/
theorem componentsOf_of_counts {absolute : Bool} {part : List Char} {before : List (List Char)}
    (h : counts part before = true) (hroot : before = [] → absolute = false) :
    ∃ c, c ≠ .root ∧ componentsOf absolute (part :: before).reverse =
      componentsOf absolute before.reverse ++ [c] := by
  have hcounts : part ≠ [] ∧ (part = ['.'] → before = []) := by
    simpa [counts, Decidable.imp_iff_not_or] using h
  rw [List.reverse_cons]
  by_cases hdot : part = ['.']
  · have hbefore := hcounts.2 hdot
    rw [hdot, hbefore, hroot hbefore]
    exact ⟨.here, nofun, rfl⟩
  · obtain ⟨c, hc⟩ := exists_componentOf hcounts.1 hdot
    refine ⟨c, ?_, ?_⟩
    · rintro rfl
      exact componentOf_ne_root part hc
    · by_cases hbefore : before = []
      · rw [hbefore, hroot hbefore]
        show (if part = ['.'] then [Component.here] else (componentOf part).toList) ++ [] = [c]
        rw [if_neg hdot, hc]
        rfl
      · rw [componentsOf_append (by simpa using hbefore), List.filterMap_cons, hc]
        rfl

/-- To leave out the parts at the end that do not count leaves the components. -/
theorem componentsOf_dropUncounted (absolute : Bool) (parts : List (List Char)) :
    componentsOf absolute (dropUncounted parts).reverse = componentsOf absolute parts.reverse := by
  induction parts with
  | nil => rfl
  | cons part before ih =>
    unfold dropUncounted
    split
    next => rfl
    next h =>
      obtain ⟨hnone, hempty⟩ := componentOf_of_not_counts (Bool.not_eq_true _ ▸ h)
      rw [ih, List.reverse_cons]
      -- the very first part is empty here, which is the start of an absolute path
      by_cases hbefore : before = []
      · rw [hbefore, hempty hbefore]
        cases absolute with
        | false => rfl
        | true => rfl
      · rw [componentsOf_append (by simpa using hbefore), List.filterMap_cons, hnone,
          List.filterMap_nil, List.append_nil]

/-! ## Parents -/

theorem dropUncounted_suffix (parts : List (List Char)) : dropUncounted parts <:+ parts := by
  induction parts with
  | nil => exact List.suffix_rfl
  | cons part before ih =>
    unfold dropUncounted
    split
    next => exact List.suffix_rfl
    next => exact ih.trans (List.suffix_cons part before)

theorem counts_of_dropUncounted {parts before : List (List Char)} {part : List Char}
    (h : dropUncounted parts = part :: before) : counts part before = true := by
  induction parts with
  | nil => cases h
  | cons first rest ih =>
    unfold dropUncounted at h
    split at h
    next hcounts =>
      cases h
      exact hcounts
    next => exact ih h

/-- A path is absolute when its first part is empty, unless it is the empty path. -/
theorem head?_parts (p : Path) : p.isAbsolute = true ↔ p.text ≠ "" ∧ p.parts.head? = some [] := by
  unfold isAbsolute parts
  have htext : p.text ≠ "" ↔ p.text.toList ≠ [] := by simp
  rw [htext]
  cases hchars : p.text.toList with
  | nil => simp
  | cons c s =>
    by_cases hc : c = '/'
    · simp [splitOn, hc]
    · unfold splitOn
      rw [if_neg (by simpa using hc)]
      cases hs : splitOn (· = '/') s with
      | nil => exact absurd hs (splitOn_ne_nil _ s)
      | cons part parts => simp [hc]

/-- The path of parts that stand at the start of another one. -/
theorem components_ofParts {p : Path} {parts : List (List Char)} (hpre : parts <+: p.parts)
    (hne : parts ≠ []) (hcount : parts ≠ [[]]) :
    Path.components ⟨String.ofList (joinWith ['/'] parts)⟩ =
      componentsOf p.isAbsolute parts := by
  have hfree : ∀ part ∈ parts, ∀ c ∈ part, decide (c = '/') = false :=
    fun part hpart => free_of_mem_splitOn (hpre.subset hpart)
  have hparts : Path.parts ⟨String.ofList (joinWith ['/'] parts)⟩ = parts := by
    unfold Path.parts
    rw [String.toList_ofList]
    exact splitOn_joinWith (by decide) hne hfree
  have hhead : parts.head? = p.parts.head? := by
    obtain ⟨more, hmore⟩ := hpre
    rw [← hmore]
    cases parts with
    | nil => exact absurd rfl hne
    | cons first rest => rfl
  -- neither path is empty, so a slash at the start is told by an empty first part
  have hempty : (String.ofList (joinWith ['/'] parts) ≠ "") ∧ p.text ≠ "" := by
    constructor
    · intro h
      apply hcount
      rw [← hparts]
      show splitOn _ (String.ofList (joinWith ['/'] parts)).toList = [[]]
      rw [h]
      rfl
    · intro h
      have hp : p.parts = [[]] := by
        unfold Path.parts
        rw [h]
        rfl
      rw [hp] at hpre
      rcases List.prefix_cons_iff.mp hpre with rfl | ⟨rest, rfl, hrest⟩
      · exact hne rfl
      · rw [List.prefix_nil.mp hrest] at hcount
        exact hcount rfl
  have habs : Path.isAbsolute ⟨String.ofList (joinWith ['/'] parts)⟩ = p.isAbsolute := by
    rw [Bool.eq_iff_iff, head?_parts, head?_parts, hparts, hhead]
    simp [hempty.1, hempty.2]
  rw [components_eq, habs, hparts]

/-- A path with a parent has one component more. -/
theorem components_of_parent? {p q : Path} (h : p.parent? = some q) :
    ∃ c, c ≠ .root ∧ p.components = q.components ++ [c] := by
  have hkept := componentsOf_dropUncounted p.isAbsolute p.parts.reverse
  rw [List.reverse_reverse, ← components_eq] at hkept
  unfold parent? at h
  cases hdrop : dropUncounted p.parts.reverse with
  | nil =>
    rw [hdrop] at h
    cases h
  | cons part before =>
    rw [hdrop] at hkept h
    have hsuffix : before <:+ p.parts.reverse :=
      (List.suffix_cons part before).trans (hdrop ▸ dropUncounted_suffix _)
    have hroot : before = [] → p.isAbsolute = false := by
      intro hnil
      -- the only part that is left counts, so it is not the empty one before a slash
      have hcounts := counts_of_dropUncounted hdrop
      rw [Bool.eq_false_iff]
      intro habs
      have hlast : [part] <:+ p.parts.reverse := hnil ▸ hdrop ▸ dropUncounted_suffix _
      have hfirst := (head?_parts p).mp habs
      obtain ⟨rest, hrest⟩ := hlast
      rw [← List.reverse_reverse p.parts, ← hrest] at hfirst
      have hpart : part = [] := by simpa using hfirst.2
      rw [hpart] at hcounts
      exact absurd hcounts (by simp [counts])
    obtain ⟨c, hne, hc⟩ := componentsOf_of_counts (counts_of_dropUncounted hdrop) hroot
    refine ⟨c, hne, ?_⟩
    rw [← hkept, hc, ← componentsOf_dropUncounted]
    refine congrArg (· ++ [c]) ?_
    dsimp only at h
    cases hbefore : dropUncounted before with
    | nil =>
      rw [hbefore] at h
      obtain rfl := Option.some.inj h
      cases p.isAbsolute with
      | false => rfl
      | true => rfl
    | cons last kept =>
      rw [hbefore] at h
      obtain rfl := Option.some.inj h
      have hpre : (last :: kept).reverse <+: p.parts := by
        have hsub := (hbefore ▸ dropUncounted_suffix before).trans hsuffix
        simpa using List.reverse_prefix.mpr hsub
      refine (components_ofParts hpre (by simp) ?_).symm
      intro hempty
      have hlast : last = [] ∧ kept = [] := by
        have := congrArg List.reverse hempty
        simpa using this
      have hcounts := counts_of_dropUncounted hbefore
      rw [hlast.1] at hcounts
      exact absurd hcounts (by simp [counts])

/-- Only the root and the empty path have no parent. -/
theorem components_of_parent?_eq_none {p : Path} (h : p.parent? = none) :
    p.components = if p.isAbsolute then [.root] else [] := by
  have hkept := componentsOf_dropUncounted p.isAbsolute p.parts.reverse
  rw [List.reverse_reverse, ← components_eq] at hkept
  unfold parent? at h
  cases hdrop : dropUncounted p.parts.reverse with
  | nil =>
    rw [← hkept, hdrop]
    rfl
  | cons part before =>
    rw [hdrop] at h
    dsimp only at h
    split at h
    next => cases h
    next => cases h

/-- The components of the parent are all but the last one. -/
theorem components_parent (p : Path) : p.parent.components = p.components.dropLast := by
  unfold parent
  cases hparent : p.parent? with
  | none =>
    rw [components_of_parent?_eq_none hparent]
    cases p.isAbsolute with
    | false => rfl
    | true => rfl
  | some q =>
    obtain ⟨c, -, hc⟩ := components_of_parent? hparent
    rw [hc, List.dropLast_concat]
    rfl

theorem same_parent {p q : Path} (h : p.same q = true) : p.parent.same q.parent = true := by
  rw [same_iff, components_parent, components_parent, (same_iff p q).mp h]

/-! ## Paths behind others -/

/-- Only the empty path has no components. -/
theorem components_eq_nil_iff (p : Path) : p.components = [] ↔ p.text = "" := by
  constructor
  · intro h
    by_cases hne : p.text = ""
    · exact hne
    exfalso
    rw [components_eq] at h
    have hparts := head?_parts p
    cases habs : p.isAbsolute with
    | true =>
      rw [habs] at h
      cases hp : p.parts with
      | nil => exact absurd hp (splitOn_ne_nil _ _)
      | cons first rest =>
        rw [hp] at h
        cases h
    | false =>
      rw [habs] at h hparts
      cases hp : p.parts with
      | nil => exact absurd hp (splitOn_ne_nil _ _)
      | cons first rest =>
        -- the first part of a relative path with text is not empty, so it is a component
        have hfirst : first ≠ [] := by
          intro hnil
          rw [hp, hnil] at hparts
          exact absurd (hparts.mpr ⟨hne, rfl⟩) (by simp)
        rw [hp] at h
        have hstart := (List.append_eq_nil_iff.mp h).1
        by_cases hdot : first = ['.']
        · rw [hdot] at hstart
          cases hstart
        · obtain ⟨c, hc⟩ := exists_componentOf hfirst hdot
          simp [hdot, hc] at hstart
  · intro h
    unfold components parts isAbsolute
    rw [h]
    rfl

theorem join_of_isAbsolute (p : Path) {q : Path} (h : q.isAbsolute = true) : p.join q = q :=
  if_pos (Or.inl h)

theorem join_of_empty {p : Path} (h : p.text = "") (q : Path) : p.join q = q :=
  if_pos (Or.inr h)

/-- A relative path behind another one adds its parts. An empty part behind a slash at the
end of the other one is left out. -/
theorem parts_join {p q : Path} (hp : p.text ≠ "") (hq : q.isAbsolute = false) :
    ∃ front, front ≠ [] ∧ (p.parts = front ∨ p.parts = front ++ [[]]) ∧
      (p.join q).parts = front ++ q.parts ∧ (p.join q).isAbsolute = p.isAbsolute := by
  have hhead : ∀ front more : List Char, front ≠ [] →
      ((front ++ more).head? = some '/' ↔ front.head? = some '/') := by
    intro front more hfront
    cases front with
    | nil => exact absurd rfl hfront
    | cons c front => exact Iff.rfl
  have hchars : p.text.toList ≠ [] := by simpa using hp
  unfold join
  rw [if_neg (by simp [hq, hp])]
  -- a slash is put between the two unless the first one ends with it
  by_cases hlast : p.text.toList.getLast? = some '/'
  · rw [if_pos hlast]
    obtain ⟨front, hfront⟩ := List.getLast?_eq_some_iff.mp hlast
    refine ⟨splitOn (· = '/') front, splitOn_ne_nil _ _, Or.inr ?_, ?_, ?_⟩
    · unfold parts
      rw [hfront, splitOn_append_cons (by decide)]
      rfl
    · unfold parts
      rw [String.toList_append, hfront, List.append_assoc, List.singleton_append,
        splitOn_append_cons (by decide)]
    · unfold isAbsolute
      rw [String.toList_append, decide_eq_decide]
      exact hhead _ _ hchars
  · rw [if_neg hlast]
    refine ⟨p.parts, splitOn_ne_nil _ _, Or.inl rfl, ?_, ?_⟩
    · unfold parts
      rw [String.toList_append, String.toList_append, List.append_assoc]
      exact splitOn_append_cons (by decide) _ _
    · unfold isAbsolute
      rw [String.toList_append, String.toList_append, List.append_assoc, decide_eq_decide]
      exact hhead _ _ hchars

/-- A relative path behind another one adds its components, but for a `.` at its start. -/
theorem components_join {p q : Path} (hp : p.text ≠ "") (hq : q.isAbsolute = false) :
    (p.join q).components = p.components ++ q.parts.filterMap componentOf := by
  obtain ⟨front, hfront, hparts, hjoin, habs⟩ := parts_join hp hq
  rw [components_eq, hjoin, habs, componentsOf_append hfront, components_eq]
  rcases hparts with hparts | hparts
  · rw [hparts]
  · rw [hparts, componentsOf_append hfront]
    rw [show List.filterMap componentOf [[]] = [] from rfl, List.append_nil]

/-- A path of one part adds the component that it is. -/
theorem components_join_part (p : Path) {q : Path} {part : List Char} {c : Component}
    (hparts : q.parts = [part]) (hq : q.isAbsolute = false) (hc : componentOf part = some c) :
    (p.join q).components = p.components ++ [c] := by
  by_cases hp : p.text = ""
  · have hdot : part ≠ ['.'] := by
      intro hdot
      rw [hdot] at hc
      cases hc
    rw [join_of_empty hp, (components_eq_nil_iff p).mpr hp, components_eq, hq, hparts, componentsOf,
      if_neg Bool.false_ne_true, if_neg hdot, hc]
    rfl
  · rw [components_join hp hq, hparts, List.filterMap_cons, hc]
    rfl

/-- A path stands behind another one wherever that is spelled in another way. -/
theorem components_join_of_same {p p' : Path} (h : p.same p' = true) (q : Path) :
    (p.join q).components = (p'.join q).components := by
  have hcomponents := (same_iff p p').mp h
  cases hq : q.isAbsolute with
  | true =>
    rw [join_of_isAbsolute p hq, join_of_isAbsolute p' hq]
  | false =>
    by_cases hp : p.text = ""
    · have hp' : p'.text = "" := by
        rw [← components_eq_nil_iff, ← hcomponents]
        exact (components_eq_nil_iff p).mpr hp
      rw [join_of_empty hp, join_of_empty hp']
    · have hp' : p'.text ≠ "" := by
        rw [Ne, ← components_eq_nil_iff, ← hcomponents, components_eq_nil_iff]
        exact hp
      rw [components_join hp hq, components_join hp' hq, hcomponents]

end Path

/-! ## Sources under other spellings -/

/-- How a text is read depends on the path only, not on its spelling. -/
theorem read_of_same {p q : Path} (h : p.same q = true) (text : String) :
    Source.read p text = Source.read q text := by
  unfold Source.read SourceKind.ofPath
  rw [Path.fileName?_of_same h]

theorem moduleOf?_of_same {dir dir' : Path} (h : dir.same dir' = true) (specifier : Option String) :
    moduleOf? dir specifier = moduleOf? dir' specifier := by
  cases specifier with
  | none => rfl
  | some text =>
    unfold moduleOf? Path.normalize
    dsimp only [Option.bind_some]
    rw [Path.components_join_of_same h]

/-- A file under another spelling of its path differs in the spelling only. -/
theorem ofSource_of_same {p q : Path} (h : p.same q = true) (s : Source) :
    SourceFile.ofSource p s = { SourceFile.ofSource q s with path := p } := by
  have hmodule : moduleOf? p.parent = moduleOf? q.parent := by
    funext specifier
    exact moduleOf?_of_same (Path.same_parent h) specifier
  have himports : Item.importsFrom p.parent = Item.importsFrom q.parent := by
    unfold Item.importsFrom
    rw [hmodule]
  have hnamespaces : Item.namespacesFrom p.parent = Item.namespacesFrom q.parent := by
    unfold Item.namespacesFrom
    rw [hmodule]
  have hreexports : Item.reexportsFrom p.parent = Item.reexportsFrom q.parent := by
    unfold Item.reexportsFrom
    rw [hmodule]
  have hstars : Item.starExportFrom p.parent = Item.starExportFrom q.parent := by
    unfold Item.starExportFrom
    rw [hmodule]
  unfold SourceFile.ofSource
  dsimp only
  rw [himports, hnamespaces, hreexports, hstars]

end ElementManifest

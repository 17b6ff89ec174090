import ElementManifest.Glob.Search
import ElementManifest.Proofs.PathPlaces
import Mathlib.Data.List.Forall2

/-!
# How search results are spelled

A path pattern is followed part by part. A part without pattern characters is taken over as
it is, and any other one stands for names, as long as it `staysBelow`: a pattern that starts
with a dot may also stand for `.` and `..`, and these lead somewhere else.

> `literal?_eq_some_iff`: which parts are taken over can be told from their texts.

> `down_of_found`: what parts that stay below lead to is behind the start by names.

So the spelling of a result starts as the pattern does, without a `.` at the start, and goes
on with names (`down_of_mem_search`).
-/

namespace ElementManifest.Glob

open ElementManifest.Text

theorem bind_eq_ok_iff {ε α β : Type} {x : Except ε α} {f : α → Except ε β} {b : β} :
    x.bind f = .ok b ↔ ∃ a, x = .ok a ∧ f a = .ok b := by
  cases x with
  | error e => exact iff_of_false nofun (fun ⟨_, h, _⟩ => nomatch h)
  | ok a =>
    constructor
    · exact fun h => ⟨a, rfl, h⟩
    · rintro ⟨_, heq, h⟩
      cases heq
      exact h

/-! ## Patterns that are plain texts -/

/-- Whether a character stands for itself in every pattern. -/
def isPlain (c : Char) : Bool :=
  c ≠ '*' && c ≠ '?' && c ≠ '['

/-- Whether a text stands for itself as a pattern. -/
def isPlainText (s : List Char) : Bool :=
  s.all isPlain

namespace Pattern

theorem parseFrom_of_plain {s : List Char} (h : isPlainText s = true) (position : Nat)
    (prev : Option Char) (tokens : List Token) :
    parseFrom 0 position prev tokens s = .ok (tokens.reverse ++ s.map .literal) := by
  induction s generalizing position prev tokens with
  | nil => exact congrArg Except.ok (List.append_nil _).symm
  | cons c s ih =>
    unfold isPlainText at h
    rw [List.all_cons, Bool.and_eq_true] at h
    have hc : c ≠ '*' ∧ c ≠ '?' ∧ c ≠ '[' := by
      simpa [isPlain, and_assoc] using h.1
    unfold parseFrom
    dsimp only
    rw [if_neg (Nat.lt_irrefl 0), if_neg hc.2.1, if_neg hc.1, if_neg hc.2.2, ih h.2,
      List.reverse_cons, List.append_assoc]
    rfl

theorem mem_pushParts (tokens : List Token) :
    .anyParts ∈ pushParts tokens ∧ ∀ t ∈ tokens, t ∈ pushParts tokens := by
  unfold pushParts
  split
  next h =>
    rw [Bool.and_eq_true] at h
    exact ⟨List.mem_of_head? (of_decide_eq_true h.2), fun t ht => ht⟩
  next => exact ⟨List.mem_cons_self, fun t ht => List.mem_cons_of_mem _ ht⟩

/-- No piece is lost on the way. -/
theorem mem_of_parseFrom {s : List Char} {skip position : Nat} {prev : Option Char}
    {tokens ts : List Token} (h : parseFrom skip position prev tokens s = .ok ts) :
    ∀ t ∈ tokens, t ∈ ts := by
  induction s generalizing skip position prev tokens with
  | nil =>
    unfold parseFrom at h
    cases h
    intro t ht
    exact List.mem_reverse.mpr ht
  | cons c s ih =>
    intro t ht
    unfold parseFrom at h
    dsimp only at h
    split at h
    next => exact ih h t ht
    next =>
      split at h
      next => exact ih h t (List.mem_cons_of_mem _ ht)
      next =>
        split at h
        next =>
          split at h
          next => exact ih h t (List.mem_cons_of_mem _ ht)
          next =>
            obtain ⟨slash, -, h⟩ := bind_eq_ok_iff.mp h
            exact ih h t ((mem_pushParts tokens).2 t ht)
          next => cases h
        next =>
          split at h
          next =>
            split at h
            next => exact ih h t (List.mem_cons_of_mem _ ht)
            next => cases h
          next => exact ih h t (List.mem_cons_of_mem _ ht)

theorem literal?_classOf? {s : List Char} {token : Token} {size : Nat}
    (h : classOf? s = some (token, size)) : token.literal? = none := by
  unfold classOf? at h
  split at h
  next =>
    obtain ⟨n, -, heq⟩ := Option.map_eq_some_iff.mp h
    cases heq
    rfl
  next =>
    obtain ⟨n, -, heq⟩ := Option.map_eq_some_iff.mp h
    cases heq
    rfl
  next => cases h

/-- Every pattern character leaves a piece that does not stand for itself. -/
theorem plain_of_parseFrom {s : List Char} {position : Nat} {prev : Option Char}
    {tokens ts : List Token} (h : parseFrom 0 position prev tokens s = .ok ts)
    (hliteral : ∀ t ∈ ts, t.literal? ≠ none) : isPlainText s = true := by
  induction s generalizing position prev tokens with
  | nil => rfl
  | cons c s ih =>
    unfold parseFrom at h
    dsimp only at h
    rw [if_neg (Nat.lt_irrefl 0)] at h
    split at h
    next => exact absurd rfl (hliteral _ (mem_of_parseFrom h _ List.mem_cons_self))
    next hquestion =>
      -- a piece that is no character would stay in the pattern to its end
      split at h
      next =>
        split at h
        next => exact absurd rfl (hliteral _ (mem_of_parseFrom h _ List.mem_cons_self))
        next =>
          obtain ⟨slash, -, h⟩ := bind_eq_ok_iff.mp h
          exact absurd rfl (hliteral _ (mem_of_parseFrom h _ (mem_pushParts tokens).1))
        next => cases h
      next hstar =>
        split at h
        next =>
          split at h
          next token size hclass =>
            exact absurd (literal?_classOf? hclass)
              (hliteral _ (mem_of_parseFrom h _ List.mem_cons_self))
          next => cases h
        next hbracket =>
          unfold isPlainText
          rw [List.all_cons, Bool.and_eq_true]
          exact ⟨by simp [isPlain, hquestion, hstar, hbracket], ih h⟩

theorem mapM_literal? (s : List Char) : (s.map Token.literal).mapM Token.literal? = some s := by
  induction s with
  | nil => rfl
  | cons c s ih =>
    rw [List.map_cons, List.mapM_cons, ih]
    rfl

theorem eq_map_literal {tokens : List Token} {cs : List Char}
    (h : tokens.mapM Token.literal? = some cs) : tokens = cs.map .literal := by
  induction tokens generalizing cs with
  | nil =>
    cases h
    rfl
  | cons t tokens ih =>
    rw [List.mapM_cons] at h
    obtain ⟨c, hc, hmore⟩ := Option.bind_eq_some_iff.mp h
    obtain ⟨rest, hrest, heq⟩ := Option.bind_eq_some_iff.mp hmore
    cases heq
    rw [ih hrest]
    unfold Token.literal? at hc
    split at hc
    next =>
      cases hc
      rfl
    next => cases hc

theorem exists_parseFrom {text : String} {p : Pattern} (h : parse text = .ok p) :
    parseFrom 0 0 none [] text.toList = .ok p.tokens := by
  unfold parse at h
  cases hts : parseFrom 0 0 none [] text.toList with
  | error e =>
    rw [hts] at h
    cases h
  | ok ts =>
    rw [hts] at h
    cases h
    rfl

theorem tokens_of_plain {text : String} {p : Pattern} (h : isPlainText text.toList = true)
    (hp : parse text = .ok p) : p.tokens = text.toList.map .literal := by
  have hts := exists_parseFrom hp
  rw [parseFrom_of_plain h] at hts
  exact (Except.ok.inj hts).symm

/-- A pattern stands for one text alone when its text has no pattern characters, and then
for that text. -/
theorem literal?_eq_some_iff {text name : String} {p : Pattern} (hp : parse text = .ok p) :
    p.literal? = some name ↔ isPlainText text.toList = true ∧ name = text := by
  have hplain : isPlainText text.toList = true → p.literal? = some text := by
    intro h
    unfold literal?
    rw [tokens_of_plain h hp, mapM_literal?, Option.map_some, String.ofList_toList]
  constructor
  · intro h
    obtain ⟨cs, hcs, -⟩ := Option.map_eq_some_iff.mp h
    have hliteral : ∀ t ∈ p.tokens, t.literal? ≠ none := by
      rw [eq_map_literal hcs]
      intro t ht
      obtain ⟨c, -, rfl⟩ := List.mem_map.mp ht
      exact Option.some_ne_none c
    have htext := plain_of_parseFrom (exists_parseFrom hp) hliteral
    exact ⟨htext, Option.some.inj (h.symm.trans (hplain htext))⟩
  · rintro ⟨h, rfl⟩
    exact hplain h

theorem literal?_of_isRecursive {p : Pattern} (h : p.isRecursive = true) : p.literal? = none := by
  rw [Option.eq_none_iff_forall_ne_some]
  intro name hname
  obtain ⟨cs, hcs, -⟩ := Option.map_eq_some_iff.mp hname
  have hmem : Token.anyParts ∈ p.tokens := by
    unfold isRecursive at h
    exact List.contains_iff_mem.mp h
  rw [eq_map_literal hcs] at hmem
  obtain ⟨c, -, heq⟩ := List.mem_map.mp hmem
  cases heq

/-! ## Patterns that stay below -/

/-- Whether a pattern for one part leads nowhere but to names, or to where it is followed
from if it is a `.` itself. -/
def staysBelow (p : Pattern) : Bool :=
  p.literal? = some "." || !(startsWithDot p && (p.isMatch "." || p.isMatch ".."))

end Pattern

/-- Whether a part of a path pattern stays below, as far as it can be read. -/
def partStaysBelow (part : List Char) : Bool :=
  match Pattern.parse (String.ofList part) with
  | .ok p => p.staysBelow
  | .error _ => true

theorem partStaysBelow_of_ok {part : List Char} {p : Pattern}
    (h : partStaysBelow part = true) (hp : Pattern.parse (String.ofList part) = .ok p) :
    p.staysBelow = true := by
  unfold partStaysBelow at h
  rw [hp] at h
  exact h

/-- A part that stays below is no `..`. -/
theorem isName_of_partStaysBelow {part : List Char} {c : Component}
    (h : partStaysBelow part = true) (hc : Path.componentOf part = some c) : c.isName = true := by
  refine Path.isName_of_componentOf ?_ hc
  rintro rfl
  exact absurd h (by decide)

/-! ## Directories on the way -/

theorem components_namingBase_ne (path : Path) : (namingBase path).components ≠ [.here] := by
  unfold namingBase
  split
  next => decide
  next h => exact h

theorem namingBase_of_ne {path : Path} (h : path.components ≠ [.here]) :
    namingBase path = path := by
  unfold namingBase
  rw [if_neg h]

theorem namingBase_of_length {path : Path} {cs : List Component}
    (h : Path.Down cs path.components) (hlength : cs.length < path.components.length) :
    namingBase path = path := by
  refine namingBase_of_ne ?_
  obtain ⟨names, hnames, heq⟩ := h
  intro hhere
  rw [heq] at hhere hlength
  have hmem : Component.here ∈ names := by
    cases cs with
    | nil =>
      rw [List.nil_append] at hhere
      rw [hhere]
      exact List.mem_cons_self
    | cons c cs =>
      rw [hhere, List.length_singleton, List.length_cons] at hlength
      omega
  cases hnames _ hmem

section

variable {fs : FileSystem} {path next : Path}

/-- A plain part adds the component that it is. -/
theorem components_followName {part : List Char} (hfree : ∀ x ∈ part, x ≠ '/')
    (h : followName fs path (String.ofList part) = some next) :
    (namingBase next).components =
      (namingBase path).components ++ (Path.componentOf part).toList := by
  have hnext : next = (namingBase path).join ⟨String.ofList part⟩ := by
    unfold followName at h
    exact (Option.some.inj (Option.ite_none_right_eq_some.mp h).2).symm
  have hfree' : ∀ x ∈ (String.ofList part).toList, x ≠ '/' := by
    rw [String.toList_ofList]
    exact hfree
  have hparts : Path.parts ⟨String.ofList part⟩ = [part] := by
    rw [parts_of_free hfree', String.toList_ofList]
  have hbase := components_namingBase_ne path
  rw [hnext]
  -- with nothing in front of it, a part may be a `.` of its own, which is left out again
  by_cases hempty : (namingBase path).text = ""
  · have hcomponents : Path.components ⟨String.ofList part⟩ =
        if part = ['.'] then [.here] else (Path.componentOf part).toList := by
      rw [Path.components_eq, isAbsolute_of_free hfree', hparts, Path.componentsOf,
        if_neg Bool.false_ne_true]
      exact List.append_nil _
    rw [Path.join_of_empty hempty, (Path.components_eq_nil_iff _).mpr hempty, List.nil_append]
    by_cases hdot : part = ['.']
    · rw [if_pos hdot] at hcomponents
      unfold namingBase
      rw [if_pos hcomponents, hdot]
      rfl
    · rw [if_neg hdot] at hcomponents
      have hne : Path.components ⟨String.ofList part⟩ ≠ [.here] := by
        rw [hcomponents]
        intro heq
        have hmem : Component.here ∈ (Path.componentOf part).toList := by
          rw [heq]
          exact List.mem_cons_self
        exact Path.componentOf_ne_here part (Option.mem_toList.mp hmem)
      rw [namingBase_of_ne hne, hcomponents]
  · have hcomponents : ((namingBase path).join ⟨String.ofList part⟩).components =
        (namingBase path).components ++ (Path.componentOf part).toList := by
      rw [Path.components_join hempty (isAbsolute_of_free hfree'), hparts, List.filterMap_cons]
      cases Path.componentOf part with
      | none => rfl
      | some c => rfl
    have hne : ((namingBase path).join ⟨String.ofList part⟩).components ≠ [.here] := by
      rw [hcomponents]
      intro heq
      cases hcs : (namingBase path).components with
      | nil => exact hempty ((Path.components_eq_nil_iff _).mp hcs)
      | cons c cs =>
        rw [hcs, List.cons_append] at heq
        obtain ⟨rfl, hrest⟩ := List.cons.inj heq
        rw [(List.append_eq_nil_iff.mp hrest).1] at hcs
        exact hbase hcs
    rw [namingBase_of_ne hne, hcomponents]

/-- A pattern that stays below stands for neither of a directory's own names. -/
theorem filter_special_eq_nil {p : Pattern} (hbelow : p.staysBelow = true)
    (hpattern : p.literal? = none) :
    (if startsWithDot p then [".", ".."] else []).filter p.isMatch = [] := by
  unfold Pattern.staysBelow at hbelow
  rw [hpattern] at hbelow
  refine List.filter_eq_nil_iff.mpr ?_
  intro name hspecial hmatch
  split at hspecial
  next hdot =>
    rcases List.mem_cons.mp hspecial with rfl | hspecial
    · simp [hdot, hmatch] at hbelow
    · rw [List.mem_singleton.mp hspecial] at hmatch
      simp [hdot, hmatch] at hbelow
  next => cases hspecial

/-- What a pattern stands for in a directory is a name there, if the pattern stays below. -/
theorem down_of_mem_matchesIn {p : Pattern} (hnamed : fs.root.isNamed = true)
    (hbelow : p.staysBelow = true) (hpattern : p.literal? = none)
    (h : next ∈ matchesIn fs p path) :
    Path.Down (namingBase path).components (namingBase next).components ∧
      (namingBase path).components.length < (namingBase next).components.length := by
  unfold matchesIn at h
  split at h
  next es hes =>
    have hentries : FileTree.areNamed es = true := by
      have hdirectory := isNamed_find? hnamed hes
      rw [FileTree.isNamed] at hdirectory
      exact hdirectory
    rcases List.mem_append.mp h with h | h
    · obtain ⟨name, hname, rfl⟩ := List.mem_map.mp h
      obtain ⟨⟨name', t⟩, he, rfl⟩ := List.mem_map.mp (List.mem_filter.mp hname).1
      have hjoin := components_join_name (namingBase path) (isNamed_of_mem hentries he).1
      have hdown : Path.Down (namingBase path).components
          ((namingBase path).join ⟨name'⟩).components := hjoin ▸ Path.Down.name _ _
      have hlength : (namingBase path).components.length <
          ((namingBase path).join ⟨name'⟩).components.length := by
        rw [hjoin, List.length_append, List.length_singleton]
        omega
      rw [namingBase_of_length hdown hlength]
      exact ⟨hdown, hlength⟩
    · rw [filter_special_eq_nil hbelow hpattern] at h
      cases h
  next => cases h

theorem down_of_mem_allBelow {e : Path × FileTree} (hnamed : fs.root.isNamed = true)
    (h : e ∈ allBelow fs path) :
    Path.Down (namingBase path).components (namingBase e.1).components ∧
      (namingBase path).components.length < (namingBase e.1).components.length := by
  unfold allBelow at h
  cases hfind : fs.find? path with
  | none =>
    rw [hfind] at h
    cases h
  | some t =>
    rw [hfind] at h
    obtain ⟨hdown, hlength⟩ := down_of_mem_descendants (isNamed_find? hnamed hfind) h
    rw [namingBase_of_length hdown hlength]
    exact ⟨hdown, hlength⟩

end

/-! ## Searches -/

/-- What is known of the patterns for the parts of a search. -/
structure ReadFrom (part : List Char) (p : Pattern) : Prop where
  parse_eq : Pattern.parse (String.ofList part) = .ok p
  free : ∀ x ∈ part, x ≠ '/'

theorem ReadFrom.literal?_cases {part : List Char} {p : Pattern} (h : ReadFrom part p) :
    (isPlainText part = true ∧ p.literal? = some (String.ofList part)) ∨
      (isPlainText part = false ∧ p.literal? = none) := by
  cases hliteral : p.literal? with
  | some name =>
    obtain ⟨hplain, rfl⟩ := (Pattern.literal?_eq_some_iff h.parse_eq).mp hliteral
    rw [String.toList_ofList] at hplain
    exact Or.inl ⟨hplain, rfl⟩
  | none =>
    refine Or.inr ⟨?_, rfl⟩
    rw [Bool.eq_false_iff]
    intro hplain
    have hsome := (Pattern.literal?_eq_some_iff h.parse_eq).mpr
      ⟨by rw [String.toList_ofList]; exact hplain, rfl⟩
    rw [hliteral] at hsome
    cases hsome

theorem ReadFrom.eq_of_literal? {part : List Char} {p : Pattern} (h : ReadFrom part p)
    {name : String} (hname : p.literal? = some name) :
    isPlainText part = true ∧ name = String.ofList part := by
  rcases h.literal?_cases with ⟨hplain, hsome⟩ | ⟨-, hnone⟩
  · exact ⟨hplain, Option.some.inj (hname.symm.trans hsome)⟩
  · rw [hnone] at hname
    cases hname

theorem ReadFrom.literal?_of_isPlainText {part : List Char} {p : Pattern} (h : ReadFrom part p)
    (hplain : isPlainText part = true) : p.literal? = some (String.ofList part) := by
  rcases h.literal?_cases with ⟨-, hsome⟩ | ⟨hpattern, -⟩
  · exact hsome
  · rw [hplain] at hpattern
    cases hpattern

theorem ReadFrom.isPlainText_of_literal? {part : List Char} {p : Pattern} (h : ReadFrom part p)
    (hname : p.literal? = none) : isPlainText part = false := by
  rcases h.literal?_cases with ⟨-, hsome⟩ | ⟨hpattern, -⟩
  · rw [hsome] at hname
    cases hname
  · exact hpattern

theorem searchFrom_of_literal {fs : FileSystem} {onlyDirectories : Bool} {p : Pattern}
    {name : String} (h : p.literal? = some name) (ps : List Pattern) (path : Path) :
    searchFrom fs onlyDirectories (p :: ps) path =
      ((followName fs path name).map fun next =>
        searchFrom fs onlyDirectories ps next).getD [] := by
  rw [searchFrom.eq_def]
  dsimp only
  rw [h]

theorem mem_searchFrom_of_literal {fs : FileSystem} {onlyDirectories : Bool} {p : Pattern}
    {name : String} (h : p.literal? = some name) {ps : List Pattern} {path r : Path} :
    r ∈ searchFrom fs onlyDirectories (p :: ps) path ↔
      ∃ next, followName fs path name = some next ∧ r ∈ searchFrom fs onlyDirectories ps next := by
  rw [searchFrom_of_literal h]
  cases hnext : followName fs path name with
  | none =>
    constructor
    · intro hr
      cases hr
    · rintro ⟨next, hnone, -⟩
      cases hnone
  | some next =>
    constructor
    · exact fun hr => ⟨next, rfl, hr⟩
    · rintro ⟨_, heq, hr⟩
      cases heq
      exact hr

/-- What a search finds, told by its steps. -/
inductive Found (fs : FileSystem) (onlyDirectories : Bool) : List Pattern → Path → Path → Prop
  | here {path : Path} (h : (onlyDirectories && !fs.isDirectory path) = false) :
    Found fs onlyDirectories [] path path
  /-- A plain name is followed. -/
  | named {p : Pattern} {ps : List Pattern} {path next r : Path} {name : String}
    (hname : p.literal? = some name) (hnext : followName fs path name = some next)
    (h : Found fs onlyDirectories ps next r) : Found fs onlyDirectories (p :: ps) path r
  /-- A recursive part at the end stands for all directories below. -/
  | anywhere {p : Pattern} {path : Path} {e : Path × FileTree} (hp : p.isRecursive = true)
    (he : e ∈ allBelow fs path) (hdirectory : e.2.isDirectory = true) :
    Found fs onlyDirectories [p] path e.1
  /-- Two recursive parts are like one. -/
  | again {p q : Pattern} {ps : List Pattern} {path r : Path} (hp : p.isRecursive = true)
    (hq : q.isRecursive = true) (h : Found fs onlyDirectories (q :: ps) path r) :
    Found fs onlyDirectories (p :: q :: ps) path r
  /-- A recursive part takes the next one along. -/
  | behind {p q : Pattern} {ps : List Pattern} {path r : Path} {e : Path × FileTree}
    (hp : p.isRecursive = true) (hq : q.isRecursive = false) (he : e ∈ allBelow fs path)
    (hmatch : (e.1.fileName?).any q.isMatch = true) (h : Found fs onlyDirectories ps e.1 r) :
    Found fs onlyDirectories (p :: q :: ps) path r
  | matched {p : Pattern} {ps : List Pattern} {path next r : Path} (hname : p.literal? = none)
    (hp : p.isRecursive = false) (hnext : next ∈ matchesIn fs p path)
    (h : Found fs onlyDirectories ps next r) : Found fs onlyDirectories (p :: ps) path r

section

variable {fs : FileSystem} {onlyDirectories : Bool} {ps : List Pattern} {path r : Path}

theorem found_of_mem_searchFrom (h : r ∈ searchFrom fs onlyDirectories ps path) :
    Found fs onlyDirectories ps path r := by
  fun_induction searchFrom fs onlyDirectories ps path with
  | case1 => cases h
  | case2 path hsearched =>
    rw [List.mem_singleton.mp h]
    exact .here (Bool.eq_false_iff.mpr hsearched)
  | case3 p ps path name hname ih =>
    rw [← searchFrom_of_literal hname, mem_searchFrom_of_literal hname] at h
    obtain ⟨next, hnext, h⟩ := h
    exact .named hname hnext (ih next h)
  | case4 p path hname hp =>
    obtain ⟨e, he, rfl⟩ := List.mem_map.mp h
    obtain ⟨he, hdirectory⟩ := List.mem_filter.mp he
    exact .anywhere hp he hdirectory
  | case5 p path hname hp q qs hq ih => exact .again hp hq (ih h)
  | case6 p path hname hp q qs hq ih =>
    obtain ⟨e, he, h⟩ := List.mem_flatMap.mp h
    obtain ⟨he, hmatch⟩ := List.mem_filter.mp he
    exact .behind hp (Bool.eq_false_iff.mpr hq) he hmatch (ih e h)
  | case7 p ps path hname hp ih =>
    obtain ⟨next, hnext, h⟩ := List.mem_flatMap.mp h
    exact .matched hname (Bool.eq_false_iff.mpr hp) hnext (ih next h)

theorem Found.mem_searchFrom (h : Found fs onlyDirectories ps path r) :
    r ∈ searchFrom fs onlyDirectories ps path := by
  induction h with
  | here h =>
    rw [searchFrom, h]
    exact List.mem_singleton_self _
  | named hname hnext _ ih => exact (mem_searchFrom_of_literal hname).mpr ⟨_, hnext, ih⟩
  | anywhere hp he hdirectory =>
    rw [searchFrom.eq_def]
    simp only [Pattern.literal?_of_isRecursive hp, hp, if_true]
    exact List.mem_map_of_mem (List.mem_filter.mpr ⟨he, hdirectory⟩)
  | again hp hq _ ih =>
    rw [searchFrom.eq_def]
    simp only [Pattern.literal?_of_isRecursive hp, hp, hq, if_true]
    exact ih
  | behind hp hq he hmatch _ ih =>
    rw [searchFrom.eq_def]
    simp only [Pattern.literal?_of_isRecursive hp, hp, hq, if_true, Bool.false_eq_true, if_false]
    exact List.mem_flatMap.mpr ⟨_, List.mem_filter.mpr ⟨he, hmatch⟩, ih⟩
  | matched hname hp hnext _ ih =>
    rw [searchFrom.eq_def]
    simp only [hname, hp, Bool.false_eq_true, if_false]
    exact List.mem_flatMap.mpr ⟨_, hnext, ih⟩

end

section

variable {fs : FileSystem} (hnamed : fs.root.isNamed = true) {onlyDirectories : Bool}

include hnamed

/-- Parts that stay below lead to what is behind the start by names. A part with pattern
characters stands for one name at least. -/
theorem down_of_found {parts : List (List Char)} {ps : List Pattern}
    (hread : List.Forall₂ ReadFrom parts ps)
    (hbelow : ∀ part ∈ parts, partStaysBelow part = true) {path r : Path}
    (hr : Found fs onlyDirectories ps path r) :
    Path.Down (namingBase path).components (namingBase r).components ∧
      ((∃ part ∈ parts, isPlainText part = false) →
        (namingBase path).components.length < (namingBase r).components.length) := by
  induction hr generalizing parts with
  | here =>
    cases hread
    exact ⟨.refl _, nofun⟩
  | @named p ps path next r name hname hnext _ ih =>
    cases hread with
    | @cons part _ parts _ hp hread =>
      obtain ⟨hpart, hbelow⟩ := List.forall_mem_cons.mp hbelow
      obtain ⟨hplain, rfl⟩ := hp.eq_of_literal? hname
      obtain ⟨hdown, hlonger⟩ := ih hread hbelow
      have hfirst : Path.Down (namingBase path).components (namingBase next).components := by
        rw [components_followName hp.free hnext]
        refine ⟨_, ?_, rfl⟩
        intro c hc
        exact isName_of_partStaysBelow hpart (Option.mem_toList.mp hc)
      refine ⟨hfirst.trans hdown, ?_⟩
      rintro ⟨wild, hwild, hpattern⟩
      have hle := hfirst.length_le
      rcases List.mem_cons.mp hwild with rfl | hwild
      · rw [hplain] at hpattern
        cases hpattern
      · have hlt := hlonger ⟨wild, hwild, hpattern⟩
        omega
  | anywhere _ he =>
    obtain ⟨hdown, hlt⟩ := down_of_mem_allBelow hnamed he
    exact ⟨hdown, fun _ => hlt⟩
  | again _ hq _ ih =>
    -- the second part stands for a name at least, whatever the others are
    cases hread with
    | cons hp hread =>
      obtain ⟨hdown, hlonger⟩ := ih hread (List.forall_mem_cons.mp hbelow).2
      refine ⟨hdown, fun _ => hlonger ?_⟩
      cases hread with
      | @cons next _ _ _ hnext _ =>
        exact ⟨next, List.mem_cons_self,
          hnext.isPlainText_of_literal? (Pattern.literal?_of_isRecursive hq)⟩
  | behind _ _ he _ _ ih =>
    cases hread with
    | cons hp hread =>
      cases hread with
      | cons hq hread =>
        obtain ⟨hfirst, hlt⟩ := down_of_mem_allBelow hnamed he
        obtain ⟨hdown, -⟩ :=
          ih hread (List.forall_mem_cons.mp (List.forall_mem_cons.mp hbelow).2).2
        have hle := hdown.length_le
        exact ⟨hfirst.trans hdown, fun _ => by omega⟩
  | matched hname _ hnext _ ih =>
    cases hread with
    | cons hp hread =>
      obtain ⟨hpart, hbelow⟩ := List.forall_mem_cons.mp hbelow
      obtain ⟨hfirst, hlt⟩ :=
        down_of_mem_matchesIn hnamed (partStaysBelow_of_ok hpart hp.parse_eq) hname hnext
      obtain ⟨hdown, -⟩ := ih hread hbelow
      have hle := hdown.length_le
      exact ⟨hfirst.trans hdown, fun _ => by omega⟩

/-- Plain parts in front are taken over, as the components that they are. -/
theorem down_of_mem_searchFrom_append {front rest : List (List Char)} {ps : List Pattern}
    (hread : List.Forall₂ ReadFrom (front ++ rest) ps)
    (hfront : ∀ part ∈ front, isPlainText part = true)
    (hbelow : ∀ part ∈ rest, partStaysBelow part = true)
    (hwild : ∃ part ∈ rest, isPlainText part = false) {path r : Path}
    (hr : r ∈ searchFrom fs onlyDirectories ps path) :
    Path.Down ((namingBase path).components ++ front.filterMap Path.componentOf)
        (namingBase r).components ∧
      ((namingBase path).components ++ front.filterMap Path.componentOf).length <
        (namingBase r).components.length := by
  induction front generalizing ps path with
  | nil =>
    obtain ⟨hdown, hlonger⟩ := down_of_found hnamed hread hbelow (found_of_mem_searchFrom hr)
    rw [List.filterMap_nil, List.append_nil]
    exact ⟨hdown, hlonger hwild⟩
  | cons part front ih =>
    cases hread with
    | @cons _ p _ ps hp hread =>
      obtain ⟨hplain, hfront⟩ := List.forall_mem_cons.mp hfront
      obtain ⟨next, hnext, hr⟩ :=
        (mem_searchFrom_of_literal (hp.literal?_of_isPlainText hplain)).mp hr
      have hrest := ih hread hfront hr
      rw [components_followName hp.free hnext, List.append_assoc] at hrest
      rw [List.filterMap_cons]
      cases hc : Path.componentOf part with
      | none =>
        rw [hc] at hrest
        exact hrest
      | some c =>
        rw [hc] at hrest
        exact hrest

/-! ## Path patterns -/

omit hnamed in
theorem forall₂_of_mapM {parts : List (List Char)} {ps : List Pattern}
    (hfree : ∀ part ∈ parts, ∀ x ∈ part, x ≠ '/')
    (h : parts.mapM (fun part => Pattern.parse (String.ofList part)) = .ok ps) :
    List.Forall₂ ReadFrom parts ps := by
  induction parts generalizing ps with
  | nil =>
    cases h
    exact .nil
  | cons part parts ih =>
    rw [List.mapM_cons] at h
    obtain ⟨p, hp, h⟩ := bind_eq_ok_iff.mp h
    obtain ⟨rest, hrest, h⟩ := bind_eq_ok_iff.mp h
    obtain rfl : p :: rest = ps := Except.ok.inj h
    obtain ⟨hpart, hfree⟩ := List.forall_mem_cons.mp hfree
    exact .cons ⟨hp, hpart⟩ (ih hfree hrest)

omit hnamed in
/-- Only an empty part is left out at the end. -/
theorem partsOf_eq {text : List Char} {front rest : List (List Char)}
    (hparts : splitOn (· = '/') text = front ++ rest)
    (hwild : ∃ part ∈ rest, isPlainText part = false) :
    ∃ kept, partsOf text = front ++ kept ∧ (∀ part ∈ kept, part ∈ rest) ∧
      ∃ part ∈ kept, isPlainText part = false := by
  obtain ⟨wild, hmem, hpattern⟩ := hwild
  unfold partsOf
  dsimp only
  split
  next hlast =>
    have hrest : rest ≠ [] := List.ne_nil_of_mem hmem
    refine ⟨rest.dropLast, ?_, fun part hpart => List.dropLast_subset _ hpart, wild, ?_, hpattern⟩
    · rw [hparts, List.dropLast_append_of_ne_nil hrest]
    · rw [hparts, List.getLast?_append_of_ne_nil _ hrest] at hlast
      obtain ⟨init, heq⟩ := List.getLast?_eq_some_iff.mp hlast
      rw [heq, List.dropLast_concat]
      rw [heq] at hmem
      rcases List.mem_append.mp hmem with hinit | hempty
      · exact hinit
      · rw [List.mem_singleton.mp hempty] at hpattern
        cases hpattern
  next => exact ⟨rest, hparts, fun part hpart => hpart, wild, hmem, hpattern⟩

/-- Where a search starts, and the parts that are followed from there. -/
def searchStart (text : List Char) : Path × List (List Char) :=
  match text with
  | ['/'] => (⟨"/"⟩, [[]])
  | '/' :: s => (⟨"/"⟩, partsOf s)
  | s => (⟨"."⟩, partsOf s)

omit hnamed in
theorem search_eq (fs : FileSystem) (text : String) :
    search fs text = (Pattern.parse text).bind fun _ =>
      ((searchStart text.toList).2.mapM fun part => Pattern.parse (String.ofList part)).bind
        fun ps => .ok (if ps.isEmpty then [] else
          searchFrom fs (text.toList.getLast? = some '/') ps (searchStart text.toList).1) :=
  rfl

omit hnamed in
theorem exists_mem_searchFrom {text : String} {found : List Path} {r : Path}
    (h : search fs text = .ok found) (hr : r ∈ found) :
    ∃ onlyDirectories ps,
      (searchStart text.toList).2.mapM (fun part => Pattern.parse (String.ofList part)) = .ok ps ∧
        r ∈ searchFrom fs onlyDirectories ps (searchStart text.toList).1 := by
  rw [search_eq] at h
  obtain ⟨p, -, h⟩ := bind_eq_ok_iff.mp h
  obtain ⟨ps, hps, h⟩ := bind_eq_ok_iff.mp h
  refine ⟨decide (text.toList.getLast? = some '/'), ps, hps, ?_⟩
  rw [← Except.ok.inj h] at hr
  split at hr
  next => cases hr
  next => exact hr

omit hnamed in
/-- The plain parts at the start of a pattern are followed first, from the root or from the
working directory. -/
theorem searchStart_spec {path : Path} {front rest : List (List Char)}
    (hparts : path.parts = front ++ rest) (hwild : ∃ part ∈ rest, isPlainText part = false) :
    ∃ front' kept, (searchStart path.text.toList).2 = front' ++ kept ∧
      (∀ part ∈ front', part ∈ front) ∧ (∀ part ∈ kept, part ∈ rest) ∧
      (∃ part ∈ kept, isPlainText part = false) ∧
      (namingBase (searchStart path.text.toList).1).components ++
          front'.filterMap Path.componentOf =
        (if path.isAbsolute then [.root] else []) ++ front.filterMap Path.componentOf := by
  obtain ⟨wild, hmem, hpattern⟩ := hwild
  have hroot : (namingBase ⟨"/"⟩).components = [.root] := by decide
  have hhere : (namingBase ⟨"."⟩).components = [] := by decide
  unfold Path.parts at hparts
  have habs : path.isAbsolute = decide (path.text.toList.head? = some '/') := rfl
  rw [habs]
  generalize path.text.toList = text at hparts
  unfold searchStart
  split
  next =>
    -- the root alone has no parts with pattern characters
    have hall : ∀ part ∈ front ++ rest, part = [] := by
      rw [← hparts]
      decide
    rw [hall wild (List.mem_append_right _ hmem)] at hpattern
    cases hpattern
  next s _ =>
    have hslash : decide (('/' :: s).head? = some '/') = true := decide_eq_true rfl
    have hsplit : splitOn (· = '/') ('/' :: s) = [] :: splitOn (· = '/') s := by
      rw [splitOn, if_pos (decide_eq_true rfl)]
    rw [hsplit] at hparts
    cases front with
    | nil =>
      rw [List.nil_append] at hparts
      have hbody : wild ∈ splitOn (· = '/') s := by
        rw [← hparts] at hmem
        rcases List.mem_cons.mp hmem with rfl | hmem
        · cases hpattern
        · exact hmem
      have hsplit' : splitOn (· = '/') s = [] ++ splitOn (· = '/') s := rfl
      obtain ⟨kept, hkept, hsub, hstill⟩ := partsOf_eq hsplit' ⟨wild, hbody, hpattern⟩
      refine ⟨[], kept, hkept, fun _ hpart => hpart, ?_, hstill, ?_⟩
      · intro part hpart
        rw [← hparts]
        exact List.mem_cons_of_mem _ (hsub part hpart)
      · rw [hroot, if_pos hslash]
    | cons first front =>
      rw [List.cons_append] at hparts
      obtain ⟨rfl, hbody⟩ := List.cons.inj hparts
      obtain ⟨kept, hkept, hsub, hstill⟩ := partsOf_eq hbody ⟨wild, hmem, hpattern⟩
      refine ⟨front, kept, hkept, fun part hpart => List.mem_cons_of_mem _ hpart, hsub, hstill, ?_⟩
      rw [hroot, if_pos hslash]
      rfl
  next hnone =>
    have hhead : text.head? ≠ some '/' := by
      intro hhead
      obtain ⟨s, rfl⟩ := List.head?_eq_some_iff.mp hhead
      exact hnone s rfl
    obtain ⟨kept, hkept, hsub, hstill⟩ := partsOf_eq hparts ⟨wild, hmem, hpattern⟩
    refine ⟨front, kept, hkept, fun part hpart => hpart, hsub, hstill, ?_⟩
    rw [hhere, if_neg (by simpa using hhead)]

/-- A result is spelled as the plain parts at the start of the pattern are, but for a `.` at
the very start, and goes on with names. -/
theorem down_of_mem_search {path r : Path} {front rest : List (List Char)}
    (hparts : path.parts = front ++ rest)
    (hfront : ∀ part ∈ front, isPlainText part = true)
    (hbelow : ∀ part ∈ rest, partStaysBelow part = true)
    (hwild : ∃ part ∈ rest, isPlainText part = false) {found : List Path}
    (hsearch : search fs path.text = .ok found) (hr : r ∈ found) :
    Path.Down ((if path.isAbsolute then [.root] else []) ++ front.filterMap Path.componentOf)
      r.components := by
  obtain ⟨onlyDirectories, ps, hps, hr⟩ := exists_mem_searchFrom hsearch hr
  obtain ⟨front', kept, hstart, hsubfront, hsubrest, hstill, hcomponents⟩ :=
    searchStart_spec hparts hwild
  have hfree : ∀ part ∈ front' ++ kept, ∀ x ∈ part, x ≠ '/' := by
    intro part hpart
    refine Path.free_of_mem_parts (p := path) ?_
    rw [hparts]
    rcases List.mem_append.mp hpart with hpart | hpart
    · exact List.mem_append_left _ (hsubfront part hpart)
    · exact List.mem_append_right _ (hsubrest part hpart)
  rw [hstart] at hps
  obtain ⟨hdown, hlonger⟩ := down_of_mem_searchFrom_append hnamed (forall₂_of_mapM hfree hps)
    (fun part hpart => hfront part (hsubfront part hpart))
    (fun part hpart => hbelow part (hsubrest part hpart)) hstill hr
  rw [hcomponents] at hdown hlonger
  -- a result that is `.` alone would be no longer than where the search starts
  have hbase : namingBase r = r := by
    refine namingBase_of_ne ?_
    intro hhere
    have hempty : (namingBase r).components = [] := by
      unfold namingBase
      rw [if_pos hhere]
      rfl
    rw [hempty] at hlonger
    cases hlonger
  rw [hbase] at hdown
  exact hdown

end

end ElementManifest.Glob

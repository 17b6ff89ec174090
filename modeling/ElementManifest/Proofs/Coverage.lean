import ElementManifest.Proofs.MemberShapes
import ElementManifest.Proofs.RootFile

/-!
# Resolved extraction covers extraction as written

Both extractions walk the same members, one with the names in them resolved, one
without. A declared name is the first thing that a search opens, so neither a cut
nor the bound on depth keeps its own members out:

> `names_declShapes_subset`: what a declaration writes is among its resolved
> properties.

> `outline_declShapes`: a declaration that writes all of its properties has the same
> ones with names resolved, but for the texts of their types.

The main statement is `extract_covers_as_written`. A dotted name of the root may
mean something else than the declaration that is called so; it is left out there,
and `firstConfigType_dotted_eq_none` shows why it has to be.
-/

namespace ElementManifest

open ElementManifest.TypeScript ElementManifest.Expansion

/-! ## Members -/

/-- The properties among members, resolved or as written, differ in the texts of types only. -/
theorem outline_memberShapes (site : Site) (place : Nat) (ms : List Member) :
    (memberShapes site place ms).map Shape.outline =
      ((documentedFrom place ms).filterMap (writtenShape site.source)).map Shape.outline := by
  rw [memberShapes_eq_filterMap, List.map_filterMap, List.map_filterMap,
    funext (outline_resolvedShape site)]

theorem outline_addMembers (site : Site) {shapes shapes' : List Shape} (place : Nat)
    (ms : List Member) (h : shapes.map Shape.outline = shapes'.map Shape.outline) :
    (addShapes shapes (memberShapes site place ms)).map Shape.outline =
      (AsWritten.addMembers site.source shapes' place ms).map Shape.outline :=
  outline_addShapes h (outline_memberShapes site place ms)

/-! ## Bodies of types -/

theorem propertiesOf_of_body_object (site : Site) {t : TypeNode} {span : Span}
    {members : List Member} (h : t.body = .object span members) :
    propertiesOf site t = addShapes [] (memberShapes site span.lo members) := by
  fun_induction TypeNode.body t with
  | case1 _ inner ih =>
    rw [propertiesOf]
    exact ih h
  | case2 =>
    cases h
    rw [propertiesOf]
  | _ => cases h

theorem propertiesOf_of_body_intersection (site : Site) {t : TypeNode}
    {branches : List TypeNode} (h : t.body = .intersection branches) :
    propertiesOf site t = branchProperties site [] branches := by
  fun_induction TypeNode.body t with
  | case1 _ inner ih =>
    rw [propertiesOf]
    exact ih h
  | case3 =>
    cases h
    rw [propertiesOf]
  | _ => cases h

theorem nodup_names_branchProperties (site : Site) (branches : List TypeNode)
    {shapes : List Shape} (h : (names shapes).Nodup) :
    (names (branchProperties site shapes branches)).Nodup := by
  induction branches generalizing shapes with
  | nil =>
    rw [branchProperties]
    exact h
  | cons t ts ih =>
    rw [branchProperties]
    exact ih (nodup_names_addShapes _ h)

/-- Every branch that is written out is among the properties of the intersection. -/
theorem names_addBranches_subset (site : Site) (branches : List TypeNode) :
    ∀ shapes shapes' : List Shape, (∀ n ∈ names shapes, n ∈ names shapes') →
      ∀ n ∈ names (branches.foldl (AsWritten.addBranch site.source) shapes),
        n ∈ names (branchProperties site shapes' branches) := by
  induction branches with
  | nil =>
    intro shapes shapes' h n hn
    rw [branchProperties]
    exact h n hn
  | cons t ts ih =>
    intro shapes shapes' h
    rw [branchProperties]
    refine ih _ _ ?_
    intro n hn
    rw [mem_names_addShapes]
    unfold AsWritten.addBranch at hn
    split at hn
    next span members hbody =>
      have hout := names_eq_of_outline (outline_addMembers site span.lo members
        (rfl : shapes.map Shape.outline = _))
      rw [← hout, mem_names_addShapes] at hn
      rcases hn with hn | hn
      · exact Or.inl (h n hn)
      · refine Or.inr ?_
        rw [propertiesOf_of_body_object site hbody, mem_names_addShapes]
        exact Or.inr hn
    next => exact Or.inl (h n hn)

/-- Branches that are all written out have the same properties either way. -/
theorem outline_addBranches (site : Site) (branches : List TypeNode)
    (hall : ∀ t ∈ branches, ∃ span members, t.body = .object span members) :
    ∀ shapes shapes' : List Shape, shapes.map Shape.outline = shapes'.map Shape.outline →
      (branchProperties site shapes branches).map Shape.outline =
        (branches.foldl (AsWritten.addBranch site.source) shapes').map Shape.outline := by
  induction branches with
  | nil =>
    intro shapes shapes' h
    rw [branchProperties]
    exact h
  | cons t ts ih =>
    intro shapes shapes' h
    obtain ⟨span, members, hbody⟩ := hall t (List.mem_cons_self ..)
    have hstep : AsWritten.addBranch site.source shapes' t
        = AsWritten.addMembers site.source shapes' span.lo members := by
      unfold AsWritten.addBranch
      rw [hbody]
    rw [branchProperties, List.foldl_cons, hstep]
    refine ih (fun t' ht' => hall t' (List.mem_cons_of_mem _ ht')) _ _ ?_
    rw [propertiesOf_of_body_object site hbody, addShapes_addShapes_nil]
    exact outline_addMembers site span.lo members h

/-! ## Declarations -/

/-- Whether a declaration writes all of its properties: an interface without parents,
an object type, or an intersection of object types. -/
def TypeDecl.WritesAll : TypeDecl → Prop
  | .interface d => d.parents = []
  | .typeAlias d =>
    match d.type.body with
    | .object _ _ => True
    | .intersection branches => ∀ t ∈ branches, ∃ span members, t.body = .object span members
    | _ => False

section

variable (p : Program) (opener : Opener) (inside : OpenSymbols)

/-- What a declaration writes is among its resolved properties. -/
theorem names_declShapes_subset (file : Nat) (args : Arguments) (d : TypeDecl) :
    ∀ n ∈ names (AsWritten.declShapes (sourceOf p file) d),
      n ∈ names (declProperties p opener inside file args d) := by
  intro n hn
  cases d with
  | interface d =>
    -- the members are collected in the same order either way, only their texts differ
    have hout := names_eq_of_outline (outline_addMembers
      (bodySite p opener inside file d.params args) d.bodyStart d.members
      (rfl : ([] : List Shape).map Shape.outline = _))
    change n ∈ names (AsWritten.addMembers (sourceOf p file) [] d.bodyStart d.members) at hn
    rw [show sourceOf p file = (bodySite p opener inside file d.params args).source from rfl,
      ← hout, mem_names_addShapes] at hn
    rcases hn with hn | hn
    · exact absurd hn (by simp [names])
    · unfold declProperties
      rw [names_append, List.mem_append]
      exact Or.inl hn
  | typeAlias d =>
    have hsource : sourceOf p file = (bodySite p opener inside file d.params args).source := rfl
    unfold AsWritten.declShapes at hn
    unfold declProperties
    dsimp only at hn ⊢
    split at hn
    next span members hbody =>
      rw [hsource, ← names_eq_of_outline (outline_addMembers _ span.lo members rfl)] at hn
      rw [propertiesOf_of_body_object _ hbody]
      exact hn
    next branches hbody =>
      rw [hsource] at hn
      rw [propertiesOf_of_body_intersection _ hbody]
      exact names_addBranches_subset _ branches [] [] (fun _ h => h) n hn
    next => exact absurd hn (by simp [names])

/-- A declaration that writes all of its properties has the same ones with names
resolved, but for the texts of their types. -/
theorem outline_declShapes (file : Nat) (args : Arguments) {d : TypeDecl} (h : d.WritesAll) :
    (addShapes [] (declProperties p opener inside file args d)).map Shape.outline =
      (AsWritten.declShapes (sourceOf p file) d).map Shape.outline := by
  cases d with
  | interface d =>
    have hnil : d.parents = [] := h
    unfold declProperties
    dsimp only
    rw [hnil, List.flatMap_nil, List.append_nil]
    exact outline_addMembers (bodySite p opener inside file d.params args) _ _ rfl
  | typeAlias d =>
    unfold TypeDecl.WritesAll at h
    unfold declProperties AsWritten.declShapes
    dsimp only at h ⊢
    cases hbody : d.type.body with
    | object span members =>
      rw [propertiesOf_of_body_object _ hbody, addShapes_addShapes_nil]
      exact outline_addMembers (bodySite p opener inside file d.params args) _ _ rfl
    | intersection branches =>
      rw [hbody] at h
      rw [propertiesOf_of_body_intersection _ hbody,
        addShapes_nil_of_nodup (nodup_names_branchProperties _ _ (by simp [names]))]
      exact outline_addBranches (bodySite p opener inside file d.params args) branches h [] [] rfl
    | array | reference | other =>
      rw [hbody] at h
      exact h.elim

/-! ## Symbols -/

theorem mem_names_openProperties {symbol : Symbol} {d : TypeDecl} (args : Arguments)
    (hd : d ∈ symbol.decls) {n : String}
    (hn : n ∈ names (declProperties p opener inside symbol.file args d)) :
    n ∈ names (openProperties p opener inside symbol args) := by
  unfold openProperties
  rw [mem_names_addShapes]
  refine Or.inr ?_
  obtain ⟨shape, hshape, hname⟩ := List.mem_map.mp hn
  exact List.mem_map.mpr ⟨shape, List.mem_flatMap.mpr ⟨d, hd, hshape⟩, hname⟩

end

/-- The first symbol is always opened: nothing is open yet, and there is room. -/
theorem symbolProperties_eq (p : Program) (symbol : Symbol) :
    ∃ opener inside, symbolProperties p symbol = openProperties p opener inside symbol .none := by
  have hopen : (symbol.file, symbol.name) ∉ OpenSymbols.none.keys ∧
      OpenSymbols.none.keys.length < maxDepth := ⟨by simp [OpenSymbols.none], by decide⟩
  refine ⟨openerWith p 11, ⟨_, List.nodup_cons.mpr ⟨hopen.1, .nil⟩, hopen.2⟩, ?_⟩
  show (OpenSymbols.none.enter? symbol).elim []
    (fun inside => openProperties p (openerWith p 11) inside symbol .none) = _
  unfold OpenSymbols.enter?
  rw [dif_pos hopen]
  rfl

theorem names_declShapes_subset_symbolProperties (p : Program) {symbol : Symbol} {d : TypeDecl}
    (hd : d ∈ symbol.decls) :
    ∀ n ∈ names (AsWritten.declShapes (sourceOf p symbol.file) d),
      n ∈ names (symbolProperties p symbol) := by
  intro n hn
  obtain ⟨opener, inside, heq⟩ := symbolProperties_eq p symbol
  rw [heq]
  exact mem_names_openProperties p opener inside .none hd
    (names_declShapes_subset p opener inside symbol.file .none d n hn)

theorem outline_symbolProperties (p : Program) {symbol : Symbol} {d : TypeDecl}
    (hd : symbol.decls = [d]) (hall : d.WritesAll) :
    (symbolProperties p symbol).map Shape.outline =
      (AsWritten.declShapes (sourceOf p symbol.file) d).map Shape.outline := by
  obtain ⟨opener, inside, heq⟩ := symbolProperties_eq p symbol
  rw [heq]
  unfold openProperties
  rw [hd, List.flatMap_singleton]
  exact outline_declShapes p opener inside symbol.file .none hall

/-! ## Contexts -/

theorem ofShapes_eq_found_iff {shapes found : List Shape} :
    Extraction.ofShapes shapes = .found found ↔ shapes = found ∧ found ≠ [] := by
  unfold Extraction.ofShapes
  cases shapes with
  | nil =>
    constructor
    · intro h
      cases h
    · rintro ⟨rfl, h⟩
      exact absurd rfl h
  | cons s shapes =>
    constructor
    · intro h
      cases h
      exact ⟨rfl, by simp⟩
    · rintro ⟨rfl, -⟩
      rfl

/-- The first configuration type is a symbol of the root file that has properties. -/
theorem Context.exists_symbol_of_firstConfigType {c : Context} {name : String}
    {shapes : List Shape} (h : c.firstConfigType = some (name, shapes)) :
    ∃ symbol, c.program.lookup rootFile name = some symbol ∧
      symbolProperties c.program symbol = shapes ∧ shapes ≠ [] := by
  obtain ⟨n, -, hn⟩ := List.exists_of_findSome?_eq_some h
  unfold shapesIfAny at hn
  obtain ⟨symbol, hlookup, hshapes⟩ := Option.bind_eq_some_iff.mp hn
  dsimp only at hshapes
  split at hshapes
  next => cases hshapes
  next hnonempty =>
    cases hshapes
    exact ⟨symbol, hlookup, rfl, fun hnil => hnonempty (List.isEmpty_iff.mpr hnil)⟩

theorem exists_found_of_mem_shapes {e : Extraction} {shape : Shape} (h : shape ∈ e.shapes) :
    ∃ shapes, e = .found shapes ∧ shape ∈ shapes := by
  cases e with
  | found shapes => exact ⟨shapes, rfl, h⟩
  | empty => cases h
  | failed error => cases h

theorem shapes_ofShapes (shapes : List Shape) : (Extraction.ofShapes shapes).shapes = shapes := by
  cases shapes with
  | nil => rfl
  | cons s shapes => rfl

section

variable {c : Context} {path : Path} {s : Source}
  (hroot : c.program.files[rootFile]? = some (.ofSource path s))

include hroot

theorem sourceOf_root : sourceOf c.program rootFile = s :=
  sourceOf_of_file hroot

/-- What a declaration of a name writes is among the properties of that name. -/
theorem names_declShapes_subset_namedShapes {d : TopLevelDecl} (hd : d ∈ s.typeDecls)
    (hdiv : ¬ c.program.Diverts d.name) :
    ∀ n ∈ names (AsWritten.declShapes s d.decl), n ∈ names (c.namedShapes d.name) := by
  intro n hn
  obtain ⟨g, hg, -, -, hdecls⟩ := exists_group_of_mem path hd
  unfold Context.namedShapes
  rw [Program.findType_of_group hroot hdiv hg]
  have hmem : d.decl ∈ (g.symbol rootFile).decls := by
    show d.decl ∈ g.decls
    rw [hdecls]
    exact List.mem_map.mpr ⟨d, List.mem_filter.mpr ⟨hd, beq_self_eq_true _⟩, rfl⟩
  have hsub := names_declShapes_subset_symbolProperties c.program hmem n
  rw [show (g.symbol rootFile).file = rootFile from rfl, sourceOf_root hroot] at hsub
  exact hsub hn

/-- A name with one declaration, which writes all of its properties, has these. -/
theorem outline_namedShapes {d : TopLevelDecl} {name : String}
    (hd : s.typeDecls.filter (·.name == name) = [d]) (hall : d.decl.WritesAll)
    (hdiv : ¬ c.program.Diverts name) :
    (c.namedShapes name).map Shape.outline =
      (AsWritten.declShapes s d.decl).map Shape.outline := by
  have hmem : d ∈ s.typeDecls.filter (·.name == name) := hd ▸ List.mem_singleton_self d
  obtain ⟨hdecl, hname⟩ := List.mem_filter.mp hmem
  have hname : d.name = name := beq_iff_eq.mp hname
  subst hname
  obtain ⟨g, hg, -, -, hdecls⟩ := exists_group_of_mem path hdecl
  unfold Context.namedShapes
  rw [Program.findType_of_group hroot hdiv hg]
  have hsingle : (g.symbol rootFile).decls = [d.decl] := by
    show g.decls = [d.decl]
    rw [hdecls, hd]
    rfl
  have hout := outline_symbolProperties c.program hsingle hall
  rw [show (g.symbol rootFile).file = rootFile from rfl, sourceOf_root hroot] at hout
  exact hout

/-- An exported configuration type with properties as written is found with names
resolved, unless its name has a dot. -/
theorem isSome_firstConfigType {d : TopLevelDecl} (hd : d ∈ s.typeDecls)
    (hconfig : AsWritten.isConfigDecl d = true) (hdot : '.' ∉ d.name.toList)
    (hshapes : AsWritten.declShapes s d.decl ≠ []) : c.firstConfigType.isSome := by
  unfold AsWritten.isConfigDecl at hconfig
  rw [Bool.and_eq_true] at hconfig
  have hname : d.name ∈ Context.configNames c.program := by
    unfold Context.configNames
    rw [List.head?_eq_getElem?]
    rw [show c.program.files[0]? = some (.ofSource path s) from hroot]
    refine List.mem_map.mpr ⟨(d.name, true), List.mem_filter.mpr ⟨?_, ?_⟩, rfl⟩
    · exact mem_declaredNames_of_exported hd hconfig.1
    · exact hconfig.2
  obtain ⟨g, hg, -, -, -⟩ := exists_group_of_mem path hd
  have hnamed := names_declShapes_subset_namedShapes hroot hd (fun h => hdot h.1)
  obtain ⟨shape, hshape⟩ := List.exists_mem_of_ne_nil _ hshapes
  -- what is written stays among the names, so there is something to find
  have hne : c.namedShapes d.name ≠ [] := by
    intro hnil
    have := hnamed shape.name (List.mem_map.mpr ⟨shape, hshape, rfl⟩)
    rw [hnil] at this
    exact absurd this (by simp [names])
  unfold Context.namedShapes at hne
  rw [Program.findType_of_group hroot (fun h => hdot h.1) hg] at hne
  have hsome : (Context.shapesIfAny c.program d.name).isSome := by
    unfold Context.shapesIfAny
    rw [Program.lookup_of_group hroot hdot hg]
    simp only [Option.bind_eq_bind, Option.bind_some]
    rw [if_neg (by simpa using hne)]
    rfl
  unfold Context.firstConfigType
  rw [List.findSome?_isSome_iff]
  exact ⟨d.name, hname, hsome⟩

end

/-! ## Texts -/

/-- What is extracted as written for a name is the shapes of its first declaration. -/
theorem exists_decl_of_extract_some {path : Path} {text name : String} {shapes : List Shape}
    (h : AsWritten.extract path text (some name) = .found shapes) :
    ∃ s d, Source.read path text = some s ∧ d ∈ s.typeDecls ∧ d.name = name ∧
      AsWritten.declShapes s d.decl = shapes ∧ shapes ≠ [] := by
  unfold AsWritten.extract at h
  split at h
  next s hs =>
    obtain ⟨hshapes, hne⟩ := ofShapes_eq_found_iff.mp h
    change AsWritten.namedShapes s name = shapes at hshapes
    unfold AsWritten.namedShapes at hshapes
    split at hshapes
    next d hd =>
      have hname : d.name = name := by simpa using List.find?_some hd
      exact ⟨s, d, hs, List.mem_of_find?_eq_some hd, hname, hshapes, hne⟩
    next => exact absurd hshapes.symm hne
  next => cases h

/-- What is extracted as written without a name is the shapes of an exported
configuration type. -/
theorem exists_decl_of_extract_none {path : Path} {text : String} {shapes : List Shape}
    (h : AsWritten.extract path text none = .found shapes) :
    ∃ s d, Source.read path text = some s ∧ d ∈ s.typeDecls ∧
      AsWritten.isConfigDecl d = true ∧ AsWritten.declShapes s d.decl = shapes ∧
      shapes ≠ [] := by
  unfold AsWritten.extract at h
  split at h
  next s hs =>
    obtain ⟨hshapes, hne⟩ := ofShapes_eq_found_iff.mp h
    change AsWritten.firstShapes s = shapes at hshapes
    unfold AsWritten.firstShapes at hshapes
    cases hfind : ((s.typeDecls.filter AsWritten.isConfigDecl).map fun d =>
        AsWritten.declShapes s d.decl).find? fun shapes => !shapes.isEmpty with
    | none =>
      rw [hfind] at hshapes
      exact absurd hshapes.symm hne
    | some found =>
      rw [hfind] at hshapes
      obtain ⟨d, hd, hfound⟩ := List.mem_map.mp (List.mem_of_find?_eq_some hfind)
      obtain ⟨hmem, hconfig⟩ := List.mem_filter.mp hd
      exact ⟨s, d, hs, hmem, hconfig, hfound.trans hshapes, hne⟩
  next => cases h

theorem shapes_extract_of_filter_eq {path : Path} {text name : String} {s : Source}
    {d : TopLevelDecl} (hs : Source.read path text = some s)
    (hd : s.typeDecls.filter (·.name == name) = [d]) :
    (AsWritten.extract path text (some name)).shapes = AsWritten.declShapes s d.decl := by
  rw [AsWritten.extract_of_read hs, shapes_ofShapes]
  show AsWritten.namedShapes s name = _
  unfold AsWritten.namedShapes
  rw [← List.head?_filter, hd]
  rfl

/-! ## The main statement -/

/-- **Extraction with names resolved covers extraction as written.** A type that has
properties as written has all of them with names resolved; a type that writes all of
its properties has the same ones either way, but for the texts of their types; and the
first configuration type is found with names resolved when it is found as written.
A dotted name counts only if it leads to the declaration that is called so. -/
theorem extract_covers_as_written {fs : FileSystem} {path : Path} {text : String} {c : Context}
    (h : Context.build fs path text = .ok c) :
    (∀ name shapes, ¬ c.program.Diverts name →
      AsWritten.extract path text (some name) = .found shapes →
      ∃ resolved, c.extract (some name) = .found resolved ∧
        ∀ n ∈ names shapes, n ∈ names resolved) ∧
    (∀ s name d, Source.read path text = some s →
      s.typeDecls.filter (·.name == name) = [d] → d.decl.WritesAll →
      ¬ c.program.Diverts name →
      (c.extract (some name)).shapes.map Shape.outline =
        (AsWritten.extract path text (some name)).shapes.map Shape.outline) ∧
    (∀ shapes, AsWritten.extract path text none = .found shapes →
      ∃ s d, Source.read path text = some s ∧ d ∈ s.typeDecls ∧
        AsWritten.isConfigDecl d = true ∧ AsWritten.declShapes s d.decl = shapes ∧
        ('.' ∉ d.name.toList → c.firstConfigType.isSome)) := by
  obtain ⟨s, hs, hroot⟩ := exists_root_of_build h
  refine ⟨?_, ?_, ?_⟩
  · intro name shapes hdiv hfound
    obtain ⟨s', d, hs', hd, hname, hshapes, hne⟩ := exists_decl_of_extract_some hfound
    obtain rfl : s = s' := Option.some.inj (hs.symm.trans hs')
    subst hname
    have hsub := names_declShapes_subset_namedShapes hroot hd hdiv
    rw [hshapes] at hsub
    refine ⟨c.namedShapes d.name, ofShapes_eq_found_iff.mpr ⟨rfl, ?_⟩, hsub⟩
    -- nothing written is lost, so with something written something is found
    intro hnil
    obtain ⟨shape, hshape⟩ := List.exists_mem_of_ne_nil _ hne
    have hmem := hsub shape.name (List.mem_map.mpr ⟨shape, hshape, rfl⟩)
    rw [hnil] at hmem
    exact absurd hmem (by simp [names])
  · intro s' name d hs' hd hall hdiv
    obtain rfl : s = s' := Option.some.inj (hs.symm.trans hs')
    rw [shapes_extract_of_filter_eq hs hd]
    unfold Context.extract
    rw [shapes_ofShapes]
    exact outline_namedShapes hroot hd hall hdiv
  · intro shapes hfound
    obtain ⟨s', d, hs', hd, hconfig, hshapes, hne⟩ := exists_decl_of_extract_none hfound
    obtain rfl : s = s' := Option.some.inj (hs.symm.trans hs')
    refine ⟨s, d, hs, hd, hconfig, hshapes, ?_⟩
    intro hdot
    exact isSome_firstConfigType hroot hd hconfig hdot (hshapes ▸ hne)

/-- Whether a declaration is an interface without parents. -/
def TypeDecl.isParentless : TypeDecl → Bool
  | .interface d => d.parents.isEmpty
  | .typeAlias _ => false

theorem writesAll_of_isParentless {d : TypeDecl} (h : d.isParentless = true) : d.WritesAll := by
  cases d with
  | interface d => exact List.isEmpty_iff.mp h
  | typeAlias d => cases h

/-- An intersection with a branch that is written out and one that is a name. -/
def inlineText : String :=
  "export type XConfigType = \x7b a: 1 \x7d & B;\ninterface B \x7b b: 2 \x7d"

theorem extract_covers_inline_branch :
    ∃ c, Context.build (oneFile inlineText) onePath inlineText = .ok c ∧
      (∃ resolved, c.extract (some "XConfigType") = .found resolved ∧ "a" ∈ names resolved) ∧
      (c.extract (some "B")).shapes.map Shape.outline = [("b", false, none)] ∧
      c.firstConfigType.isSome := by
  have hany : (oneContext? inlineText).any (fun c =>
      (c.program.files.map SourceFile.source).all fun s =>
        s.typeDecls.all (fun d => !d.name.toList.contains '.') &&
          (s.typeDecls.filter (·.name == "B")).length = 1 &&
          (s.typeDecls.filter (·.name == "B")).all (·.decl.isParentless) &&
          decide ((AsWritten.shapes s (some "B")).map Shape.outline = [("b", false, none)]) &&
          decide (AsWritten.shapes s (some "XConfigType") = [⟨"a", "1", false, none⟩]) &&
          decide (AsWritten.shapes s none = [⟨"a", "1", false, none⟩])) = true := by
    decide +kernel
  obtain ⟨c, hc, hall⟩ := Option.any_eq_true _ _ |>.mp hany
  obtain ⟨s, hs, hall⟩ := exists_source_of_oneContext? hc hall
  simp only [Bool.and_eq_true, decide_eq_true_eq] at hall
  obtain ⟨⟨⟨⟨⟨hdots, hlength⟩, hparents⟩, hb⟩, hnamed⟩, hnone⟩ := hall
  have hbuild := build_of_oneContext? hc
  obtain ⟨hcovers, hagrees, hfirst⟩ := extract_covers_as_written hbuild
  refine ⟨_, hbuild, ?_, ?_, ?_⟩
  · obtain ⟨resolved, hfound, hsub⟩ := hcovers "XConfigType" [⟨"a", "1", false, none⟩]
      (fun h => absurd h.1 (by decide))
      (by rw [AsWritten.extract_of_read hs]; exact congrArg _ hnamed)
    exact ⟨resolved, hfound, hsub "a" (by decide)⟩
  · obtain ⟨d, hd⟩ := List.length_eq_one_iff.mp hlength
    rw [hd, List.all_cons, List.all_nil, Bool.and_true] at hparents
    rw [hagrees s "B" d hs hd (writesAll_of_isParentless hparents)
      (fun h => absurd h.1 (by decide)), AsWritten.extract_of_read hs, shapes_ofShapes]
    exact hb
  · obtain ⟨s', d, hs', hd, -, -, hsome⟩ := hfirst [⟨"a", "1", false, none⟩]
      (by rw [AsWritten.extract_of_read hs]; exact congrArg _ hnone)
    obtain rfl : s = s' := Option.some.inj (hs.symm.trans hs')
    have hdot := List.all_eq_true.mp hdots d hd
    exact hsome (by simpa using hdot)

/-- A configuration type whose name has a dot, written with an escape. -/
def dottedText : String :=
  "export type A\\u002eConfigType = \x7b a: string \x7d"

/-- A dotted name is looked up in a namespace, even if a declaration is called so. -/
theorem firstConfigType_dotted_eq_none :
    ∃ c, Context.build (oneFile dottedText) onePath dottedText = .ok c ∧
      AsWritten.extract onePath dottedText none = .found [⟨"a", "string", false, none⟩] ∧
      c.firstConfigType = none := by
  have hany : (oneContext? dottedText).any (fun c => c.firstConfigType.isNone &&
      (c.program.files.map SourceFile.source).all fun s =>
        AsWritten.shapes s none = [⟨"a", "string", false, none⟩]) = true := by
    decide +kernel
  obtain ⟨c, hc, hall⟩ := Option.any_eq_true _ _ |>.mp hany
  rw [Bool.and_eq_true] at hall
  obtain ⟨s, hs, hwritten⟩ := exists_source_of_oneContext? hc hall.2
  refine ⟨c, build_of_oneContext? hc, ?_, Option.isNone_iff_eq_none.mp hall.1⟩
  rw [AsWritten.extract_of_read hs]
  exact congrArg _ (of_decide_eq_true hwritten)

end ElementManifest

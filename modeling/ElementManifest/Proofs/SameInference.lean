import ElementManifest.Proofs.Coverage
import ElementManifest.Proofs.PrintedTypes
import ElementManifest.Proofs.WellFormedShapes

/-!
# The same inference from both extractions

An extraction as written takes the text of a type from the source; one with names resolved prints
the type. Where no name stands in the type, the two texts are spellings of one type. So the
attributes that they lead to are the same, but for the text:

> `infers_alike`: a property that both extractions find has the same name and the same flag either
> way, and the same kind and way of writing if its type has no names in it.

A type whose strings cannot stand in double quotes is not printed as it is written, and
`infers_otherwise` shows what comes of it.
-/

namespace ElementManifest

open ElementManifest.TypeScript ElementManifest.Expansion ElementManifest.Inference


/-! ## Signatures and their shapes -/

/-- The first signature of a name. -/
def signatureOf (name : String) (sigs : List Signature) : Option Signature :=
  sigs.find? (·.1.name? == some name)

/-- The first shape of a name comes from the first signature of that name. -/
theorem called_filterMap {f : Signature → Option Shape} (hf : Names f) {name : String}
    {sigs : List Signature} {sig : Signature} (h : signatureOf name sigs = some sig) :
    ∃ shape, f sig = some shape ∧ called name (sigs.filterMap f) = some shape := by
  have hsame : (fun sig => (f sig).any (·.name == name)) =
      fun sig : Signature => sig.1.name? == some name := by
    funext sig
    rw [← hf sig]
    cases f sig with
    | none => rfl
    | some shape => rfl
  unfold signatureOf at h
  have hname := List.find?_some h
  rw [← hf sig] at hname
  cases hshape : f sig with
  | none =>
    rw [hshape] at hname
    cases hname
  | some shape =>
    refine ⟨shape, rfl, ?_⟩
    unfold called
    rw [List.find?_filterMap, hsame, h]
    exact hshape

/-! ## The properties that a declaration starts with -/

/-- The signatures of a type that is written out. -/
def signatures (t : TypeNode) : List Signature :=
  match t.body with
  | .object span ms => documentedFrom span.lo ms
  | _ => []

/-- Whether a type is written out as an object type. -/
def isWrittenOut (t : TypeNode) : Bool :=
  match t.body with
  | .object _ _ => true
  | _ => false

/-- The signatures that a declaration starts with: in an intersection, those in front of the
first branch that is not written out. -/
def TypeDecl.leading : TypeDecl → List Signature
  | .interface d => documentedFrom d.bodyStart d.members
  | .typeAlias d =>
    match d.type.body with
    | .object span ms => documentedFrom span.lo ms
    | .intersection branches => (branches.takeWhile isWrittenOut).flatMap signatures
    | _ => []

/-- Whether the first shapes of some names are kept in a list. -/
def Leads (front shapes : List Shape) : Prop :=
  ∀ name shape, called name front = some shape → called name shapes = some shape

theorem Leads.append {front shapes : List Shape} (h : Leads front shapes) (more : List Shape) :
    Leads front (shapes ++ more) := by
  intro name shape hfront
  rw [called_append, h name shape hfront]
  rfl

theorem Leads.addShapes_nil {front shapes : List Shape} (h : Leads front shapes) :
    Leads front (addShapes [] shapes) := by
  intro name shape hfront
  rw [called_addShapes]
  exact h name shape hfront

theorem leads_rfl (shapes : List Shape) : Leads shapes shapes := fun _ _ h => h

theorem addBranch_eq (s : Source) (shapes : List Shape) (t : TypeNode) :
    AsWritten.addBranch s shapes t =
      addShapes shapes ((signatures t).filterMap (writtenShape s)) := by
  unfold AsWritten.addBranch signatures
  cases t.body with
  | object span members => rfl
  | _ => rfl

theorem called_foldl_addBranch (name : String) (s : Source) (branches : List TypeNode)
    (shapes : List Shape) :
    called name (branches.foldl (AsWritten.addBranch s) shapes) =
      (called name shapes).or
        (called name ((branches.flatMap signatures).filterMap (writtenShape s))) := by
  induction branches generalizing shapes with
  | nil => exact Option.or_none.symm
  | cons t ts ih =>
    rw [List.foldl_cons, ih, addBranch_eq, called_addShapes, List.flatMap_cons,
      List.filterMap_append, called_append, Option.or_assoc]

theorem leads_declShapes (s : Source) (d : TypeDecl) :
    Leads (d.leading.filterMap (writtenShape s)) (AsWritten.declShapes s d) := by
  cases d with
  | interface d => exact (leads_rfl _).addShapes_nil
  | typeAlias d =>
    unfold TypeDecl.leading AsWritten.declShapes
    dsimp only
    cases d.type.body with
    | object span ms => exact (leads_rfl _).addShapes_nil
    | intersection branches =>
      intro name shape hfront
      dsimp only at hfront ⊢
      rw [called_foldl_addBranch,
        ← List.takeWhile_append_dropWhile (p := isWrittenOut) (l := branches),
        List.flatMap_append, List.filterMap_append, called_append, hfront]
      rfl
    | _ => nofun

theorem called_propertiesOf {site : Site} {t : TypeNode} (h : isWrittenOut t = true)
    (name : String) : called name (propertiesOf site t) =
      called name ((signatures t).filterMap (resolvedShape site)) := by
  unfold isWrittenOut at h
  split at h
  next span ms hbody =>
    unfold signatures
    rw [propertiesOf_of_body_object site hbody, called_addShapes, hbody,
      memberShapes_eq_filterMap]
    rfl
  next => cases h

theorem called_flatMap_propertiesOf {site : Site} {ts : List TypeNode}
    (h : ∀ t ∈ ts, isWrittenOut t = true) (name : String) :
    called name (ts.flatMap (propertiesOf site)) =
      called name ((ts.flatMap signatures).filterMap (resolvedShape site)) := by
  induction ts with
  | nil => rfl
  | cons t ts ih =>
    rw [List.flatMap_cons, List.flatMap_cons, List.filterMap_append, called_append, called_append,
      called_propertiesOf (h t List.mem_cons_self),
      ih fun u hu => h u (List.mem_cons_of_mem t hu)]

theorem called_branchProperties (name : String) (site : Site) (branches : List TypeNode)
    (shapes : List Shape) :
    called name (branchProperties site shapes branches) =
      (called name shapes).or (called name (branches.flatMap (propertiesOf site))) := by
  induction branches generalizing shapes with
  | nil =>
    rw [branchProperties]
    exact Option.or_none.symm
  | cons t ts ih =>
    rw [branchProperties, ih, called_addShapes, List.flatMap_cons, called_append, Option.or_assoc]

theorem leads_propertiesOf (site : Site) (d : Alias) :
    Leads ((TypeDecl.typeAlias d).leading.filterMap (resolvedShape site))
      (propertiesOf site d.type) := by
  unfold TypeDecl.leading
  dsimp only
  cases hbody : d.type.body with
  | object span ms =>
    rw [propertiesOf_of_body_object site hbody, memberShapes_eq_filterMap]
    exact (leads_rfl _).addShapes_nil
  | intersection branches =>
    intro name shape hfront
    dsimp only at hfront
    have hall : ∀ t ∈ branches.takeWhile isWrittenOut, isWrittenOut t = true :=
      fun t ht => List.mem_takeWhile_imp ht
    rw [← called_flatMap_propertiesOf hall] at hfront
    rw [propertiesOf_of_body_intersection site hbody, called_branchProperties,
      ← List.takeWhile_append_dropWhile (p := isWrittenOut) (l := branches), List.flatMap_append,
      called_append, hfront]
    rfl
  | _ => nofun

/-- A declaration has the resolved shapes of the signatures that it starts with. -/
theorem exists_leads_declProperties (p : Program) (opener : Opener) (inside : OpenSymbols)
    (file : Nat) (args : Arguments) (d : TypeDecl) :
    ∃ site : Site, site.source = sourceOf p file ∧
      Leads (d.leading.filterMap (resolvedShape site))
        (declProperties p opener inside file args d) := by
  cases d with
  | interface d =>
    refine ⟨bodySite p opener inside file d.params args, rfl, ?_⟩
    unfold declProperties
    dsimp only
    rw [memberShapes_eq_filterMap]
    exact (leads_rfl _).append _
  | typeAlias d =>
    exact ⟨bodySite p opener inside file d.params args, rfl, leads_propertiesOf _ d⟩

/-- So has a symbol of which it is the first declaration. -/
theorem exists_leads_symbolProperties (p : Program) {symbol : Symbol} {d : TypeDecl}
    {ds : List TypeDecl} (h : symbol.decls = d :: ds) :
    ∃ site : Site, site.source = sourceOf p symbol.file ∧
      Leads (d.leading.filterMap (resolvedShape site)) (symbolProperties p symbol) := by
  obtain ⟨opener, inside, heq⟩ := symbolProperties_eq p symbol
  obtain ⟨site, hsource, hleads⟩ :=
    exists_leads_declProperties p opener inside symbol.file .none d
  refine ⟨site, hsource, ?_⟩
  rw [heq]
  unfold openProperties
  rw [h, List.flatMap_cons]
  exact (hleads.append _).addShapes_nil

/-! ## Both extractions -/

/-- Whether both extractions look at the declaration `d` when they are asked for a name, or for
the first configuration type if they are asked for none. -/
def BothLookAt (c : Context) (s : Source) (d : TopLevelDecl) : Option String → Prop
  | some name => s.typeDecls.find? (·.name == name) = some d ∧ ¬c.program.Diverts name
  | none =>
    (s.typeDecls.filter AsWritten.isConfigDecl).find?
        (fun d => !(AsWritten.declShapes s d.decl).isEmpty) = some d ∧
      s.typeDecls.find? (·.name == d.name) = some d ∧ '.' ∉ d.name.toList ∧
      c.firstConfigType.map Prod.fst = some d.name

section

variable {c : Context} {path : Path} {text : String} {s : Source} {d : TopLevelDecl}
  {n : Option String}

theorem shapes_extract_of_looks (hs : Source.read path text = some s) (h : BothLookAt c s d n) :
    (AsWritten.extract path text n).shapes = AsWritten.declShapes s d.decl := by
  rw [AsWritten.extract_of_read hs, shapes_ofShapes]
  cases n with
  | some name =>
    show AsWritten.namedShapes s name = _
    unfold AsWritten.namedShapes
    rw [h.1]
  | none =>
    show AsWritten.firstShapes s = _
    unfold AsWritten.firstShapes
    rw [List.find?_map]
    have hfirst := h.1
    change (List.find? ((fun shapes : List Shape => !shapes.isEmpty) ∘
      fun d : TopLevelDecl => AsWritten.declShapes s d.decl) _) = some d at hfirst
    rw [hfirst]
    rfl

theorem exists_group_of_first (path : Path) {name : String}
    (hd : s.typeDecls.find? (·.name == name) = some d) :
    ∃ g ds, (SourceFile.ofSource path s).group? name = some g ∧
      (g.symbol rootFile).decls = d.decl :: ds := by
  have hname : d.name = name := by simpa using List.find?_some hd
  subst hname
  obtain ⟨g, hg, -, -, hdecls⟩ := exists_group_of_mem path (List.mem_of_find?_eq_some hd)
  rw [← List.head?_filter] at hd
  obtain ⟨ds, hds⟩ := List.head?_eq_some_iff.mp hd
  rw [hds] at hdecls
  exact ⟨g, _, hg, hdecls⟩

/-- What is extracted with names resolved is the properties of a symbol that starts with the
declaration. -/
theorem exists_symbol_of_looks (hroot : c.program.files[rootFile]? = some (.ofSource path s))
    (h : BothLookAt c s d n) :
    ∃ symbol ds, symbol.file = rootFile ∧ symbol.decls = d.decl :: ds ∧
      (c.extract n).shapes = symbolProperties c.program symbol := by
  unfold Context.extract
  rw [shapes_ofShapes]
  cases n with
  | some name =>
    obtain ⟨hd, hdiv⟩ := h
    obtain ⟨g, ds, hg, hdecls⟩ := exists_group_of_first path hd
    refine ⟨g.symbol rootFile, ds, rfl, hdecls, ?_⟩
    show c.namedShapes name = _
    unfold Context.namedShapes
    rw [Program.findType_of_group hroot hdiv hg]
    rfl
  | none =>
    obtain ⟨-, hd, hdot, hfirst⟩ := h
    obtain ⟨g, ds, hg, hdecls⟩ := exists_group_of_first path hd
    refine ⟨g.symbol rootFile, ds, rfl, hdecls, ?_⟩
    obtain ⟨⟨name, shapes⟩, hfound, hname⟩ := Option.map_eq_some_iff.mp hfirst
    obtain rfl : name = d.name := hname
    obtain ⟨symbol, hlookup, hshapes, -⟩ := c.exists_symbol_of_firstConfigType hfound
    rw [Program.lookup_of_group hroot hdot hg] at hlookup
    cases hlookup
    show (c.firstConfigType.map Prod.snd).getD [] = _
    rw [hfound, hshapes]
    rfl

end

/-! ## The main statement -/

/-- The two shapes of a signature lead to attributes that agree, if its type has no names in it
and stays what it is when it is printed. -/
theorem attributes_agree {s : Source} {site : Site} (hsource : site.source = s) {sig : Signature}
    {w r : Shape} (hw : writtenShape s sig = some w) (hr : resolvedShape site sig = some r) :
    (attributeOf r).name = (attributeOf w).name ∧
      (attributeOf r).optional = (attributeOf w).optional ∧
      ((∀ t, sig.1.type = some t → Spells s t (s.slice t.span) ∧ Printable t) →
        (attributeOf r).summary = (attributeOf w).summary ∧
          (attributeOf r).serializedAs = (attributeOf w).serializedAs) := by
  subst hsource
  obtain ⟨p, lo⟩ := sig
  unfold resolvedShape at hr
  unfold writtenShape AsWritten.shapeOf at hw
  obtain ⟨name, hname, rfl⟩ := Option.map_eq_some_iff.mp hr
  dsimp only at hname hw ⊢
  rw [hname] at hw
  cases hw
  refine ⟨rfl, rfl, fun hplain => ?_⟩
  unfold attributeOf
  dsimp only
  cases htype : p.type with
  | none =>
    rw [annotationText]
    exact ⟨rfl, rfl⟩
  | some t =>
    obtain ⟨hspells, hprintable⟩ := hplain t htype
    rw [annotationText]
    exact inference_printed hspells hprintable

/-- **Both extractions infer the same.** -/
theorem infers_alike {fs : FileSystem} {path : Path} {text : String} {c : Context} {s : Source}
    {n : Option String} {d : TopLevelDecl} {name : String} {sig : Signature}
    (hbuild : Context.build fs path text = .ok c) (hs : Source.read path text = some s)
    (hlook : BothLookAt c s d n) (hsig : signatureOf name d.decl.leading = some sig) :
    ∃ w r, (AsWritten.extract path text n).shapes.filter (·.name == name) = [w] ∧
      (c.extract n).shapes.filter (·.name == name) = [r] ∧
      (attributeOf r).name = (attributeOf w).name ∧
      (attributeOf r).optional = (attributeOf w).optional ∧
      ((∀ t, sig.1.type = some t → Spells s t (s.slice t.span) ∧ Printable t) →
        (attributeOf r).summary = (attributeOf w).summary ∧
          (attributeOf r).serializedAs = (attributeOf w).serializedAs) := by
  obtain ⟨s', hs', hroot⟩ := exists_root_of_build hbuild
  obtain rfl : s = s' := Option.some.inj (hs.symm.trans hs')
  obtain ⟨symbol, ds, hfile, hdecls, hshapes⟩ := exists_symbol_of_looks hroot hlook
  obtain ⟨site, hsource, hleads⟩ := exists_leads_symbolProperties c.program hdecls
  rw [hfile, sourceOf_root hroot] at hsource
  obtain ⟨w, hw, hcalled⟩ := called_filterMap (names_writtenShape s) hsig
  obtain ⟨r, hr, hcalled'⟩ := called_filterMap (names_resolvedShape site) hsig
  refine ⟨w, r, ?_, ?_, attributes_agree hsource hw hr⟩
  · rw [shapes_extract_of_looks hs hlook]
    exact filter_name_of_called (AsWritten.wellFormed_declShapes s d.decl).distinct
      (leads_declShapes s d.decl name w hcalled)
  · rw [hshapes]
    exact filter_name_of_called (wellFormed_symbolProperties c.program symbol).distinct
      (hleads name r hcalled')

/-- A property with a union of a string and an array of strings. -/
def pickText : String :=
  "export type XConfigType = \x7b a?: 'x' | \"y\"[] \x7d"

/-- Whether the type of a signature is the union of `pickText`. -/
def isPick (s : Source) (sig : Signature) : Bool :=
  match sig.1.type with
  | some (.union span [.text _ (some "x"), .array _ (.text _ (some "y"))]) =>
    s.slice span == "'x' | \"y\"[]".toList
  | _ => false

theorem spells_of_isPick {s : Source} {sig : Signature} (h : isPick s sig = true) :
    ∀ t, sig.1.type = some t → Spells s t (s.slice t.span) ∧ Printable t := by
  intro t ht
  unfold isPick at h
  rw [ht] at h
  split at h
  next span first second third heq =>
    cases heq
    have hslice : s.slice span = ('\'' :: ("x".toList ++ ['\''])) ++ [' '] ++
        '|' :: ([' '] ++ (('"' :: ("y".toList ++ ['"'])) ++ ([] ++ "[]".toList))) := beq_iff_eq.mp h
    have hblank : Blanks [' '] := by unfold Blanks; decide
    refine ⟨?_, ?_⟩
    · show Spells s _ (s.slice span)
      rw [hslice]
      exact .union (.cons (.literal (Or.inr rfl) (by decide)) rfl hblank hblank
        (.last (.array (.literal (Or.inl rfl) (by decide)) rfl blanks_nil) rfl))
    · have hx : isQuotable "x" = true := by decide
      have hy : isQuotable "y" = true := by decide
      exact ⟨hx, hy, trivial⟩
  next => cases h

theorem infers_alike_pick :
    ∃ c w r, Context.build (oneFile pickText) onePath pickText = .ok c ∧
      (AsWritten.extract onePath pickText (some "XConfigType")).shapes = [w] ∧
      (c.extract (some "XConfigType")).shapes = [r] ∧
      w = ⟨"a", "'x' | \"y\"[]", true, none⟩ ∧ r = ⟨"a", "\"x\" | \"y\"[]", true, none⟩ ∧
      (attributeOf r).summary = (attributeOf w).summary ∧
      (attributeOf r).serializedAs = (attributeOf w).serializedAs := by
  have hany : (oneContext? pickText).any (fun c =>
      decide ((c.extract (some "XConfigType")).shapes = [⟨"a", "\"x\" | \"y\"[]", true, none⟩]) &&
        (c.program.files.map SourceFile.source).all fun s =>
          ((s.typeDecls.find? (·.name == "XConfigType")).any fun d =>
            (signatureOf "a" d.decl.leading).any (isPick s)) &&
          decide (AsWritten.shapes s (some "XConfigType") =
            [⟨"a", "'x' | \"y\"[]", true, none⟩])) = true := by
    decide +kernel
  obtain ⟨c, hc, hall⟩ := (Option.any_eq_true _ _).mp hany
  rw [Bool.and_eq_true, decide_eq_true_eq] at hall
  obtain ⟨hresolved, hall⟩ := hall
  obtain ⟨s, hs, hall⟩ := exists_source_of_oneContext? hc hall
  rw [Bool.and_eq_true, decide_eq_true_eq] at hall
  obtain ⟨hpick, hshapes⟩ := hall
  obtain ⟨d, hd, hpick⟩ := (Option.any_eq_true _ _).mp hpick
  obtain ⟨sig, hsig, hpick⟩ := (Option.any_eq_true _ _).mp hpick
  have hbuild := build_of_oneContext? hc
  have hwritten : (AsWritten.extract onePath pickText (some "XConfigType")).shapes =
      [⟨"a", "'x' | \"y\"[]", true, none⟩] := by
    rw [AsWritten.extract_of_read hs, shapes_ofShapes]
    exact hshapes
  have hlook : BothLookAt c s d (some "XConfigType") := ⟨hd, fun h => absurd h.1 (by decide)⟩
  obtain ⟨w, r, hw, hr, -, -, hagree⟩ := infers_alike hbuild hs hlook hsig
  rw [hwritten] at hw
  rw [hresolved] at hr
  obtain rfl := (List.cons.inj hw).1
  obtain rfl := (List.cons.inj hr).1
  exact ⟨_, _, _, hbuild, hwritten, hresolved, rfl, rfl, hagree (spells_of_isPick hpick)⟩

/-- A string that cannot stand in double quotes. -/
def quoteText : String :=
  "export type XConfigType = \x7b a: 'x\"string' \x7d"

/-- A quote in a string ends it where the type is printed, and the rest of the string is taken for
the text of the type. -/
theorem infers_otherwise :
    ∃ c w r, Context.build (oneFile quoteText) onePath quoteText = .ok c ∧
      (AsWritten.extract onePath quoteText (some "XConfigType")).shapes = [w] ∧
      (c.extract (some "XConfigType")).shapes = [r] ∧ w.name = "a" ∧ r.name = "a" ∧
      w.type = "'x\"string'" ∧ r.type = "\"x\"string\"" ∧
      (attributeOf w).summary = .unknown ∧ (attributeOf r).summary = .string ∧
      (attributeOf w).serializedAs = .propertyOnly ∧ (attributeOf r).serializedAs = .string := by
  have hany : (oneContext? quoteText).any (fun c =>
      decide ((c.extract (some "XConfigType")).shapes = [⟨"a", "\"x\"string\"", false, none⟩]) &&
        (c.program.files.map SourceFile.source).all fun s =>
          AsWritten.shapes s (some "XConfigType") = [⟨"a", "'x\"string'", false, none⟩]) = true := by
    decide +kernel
  obtain ⟨c, hc, hall⟩ := (Option.any_eq_true _ _).mp hany
  rw [Bool.and_eq_true, decide_eq_true_eq] at hall
  obtain ⟨hresolved, hall⟩ := hall
  obtain ⟨s, hs, hall⟩ := exists_source_of_oneContext? hc hall
  have hwritten : (AsWritten.extract onePath quoteText (some "XConfigType")).shapes =
      [⟨"a", "'x\"string'", false, none⟩] := by
    rw [AsWritten.extract_of_read hs, shapes_ofShapes]
    exact of_decide_eq_true hall
  exact ⟨_, _, _, build_of_oneContext? hc, hwritten, hresolved,
    rfl, rfl, rfl, rfl, by decide +kernel, by decide +kernel, by decide +kernel,
    by decide +kernel⟩

end ElementManifest

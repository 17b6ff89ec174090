import ElementManifest.Analysis
import ElementManifest.Proofs.CacheSteps
import ElementManifest.Proofs.Coverage
import ElementManifest.Proofs.Paths

/-!
# What is left to extraction as written

With names resolved, extraction as written is only tried when nothing has been found.
The text is read in the same way then, so it finds something only through a
declaration that the resolved search cannot reach:

> `isSome_findResolved_of_findWritten`: what is found as written is found with names
> resolved, in any context of the same text, unless the name of the declaration has a
> dot.

> `findProperties_as_written_dotted`: so the last two rows never decide, except
> for such a declaration, and to resolve names never loses all properties.
-/

namespace ElementManifest

open ElementManifest.TypeScript

namespace Analysis

/-! ## Found as written -/

/-- A declaration that decides a row of the search as written. -/
structure WrittenBy (companion : Path) (text : String) (candidates : List String)
    (name? : Option String) (shapes : List Shape) (s : Source) (d : TopLevelDecl) : Prop where
  read : Source.read companion text = some s
  mem : d ∈ s.typeDecls
  shapes_eq : AsWritten.declShapes s d.decl = shapes
  shapes_ne : shapes ≠ []
  named : name? = some d.name ∧ d.name ∈ candidates ∨
    name? = none ∧ AsWritten.isConfigDecl d = true

theorem writtenCandidate_eq_some {companion : Path} {text : String} {name? : Option String}
    {f : Finding} (h : writtenCandidate companion text name? = some f) :
    f.1 = .asWritten name? ∧ AsWritten.extract companion text name? = .found f.2 := by
  unfold writtenCandidate at h
  split at h
  next shapes hfound =>
    cases h
    exact ⟨rfl, hfound⟩
  next => cases h

theorem exists_writtenBy_of_findWritten {companion : Path} {text : String}
    {candidates : List String} {f : Finding}
    (h : findWritten companion text candidates = some f) :
    ∃ name? s d, f.1 = .asWritten name? ∧
      WrittenBy companion text candidates name? f.2 s d := by
  unfold findWritten at h
  obtain ⟨name?, hmem, hsome⟩ := List.exists_of_findSome?_eq_some h
  obtain ⟨hprov, hfound⟩ := writtenCandidate_eq_some hsome
  rcases List.mem_append.mp hmem with hcand | hlast
  · obtain ⟨name, hname, rfl⟩ := List.mem_map.mp hcand
    obtain ⟨s, d, hs, hd, rfl, hshapes, hne⟩ := exists_decl_of_extract_some hfound
    exact ⟨some d.name, s, d, hprov, hs, hd, hshapes, hne, Or.inl ⟨rfl, hname⟩⟩
  · obtain rfl := List.mem_singleton.mp hlast
    obtain ⟨s, d, hs, hd, hconfig, hshapes, hne⟩ := exists_decl_of_extract_none hfound
    exact ⟨none, s, d, hprov, hs, hd, hshapes, hne, Or.inr ⟨rfl, hconfig⟩⟩

/-! ## Found with names resolved -/

theorem isSome_resolvedCandidate {c : Context} {name : String} (h : c.namedShapes name ≠ []) :
    (resolvedCandidate c name).isSome := by
  have hfound : c.extract (some name) = .found (c.namedShapes name) :=
    ofShapes_eq_found_iff.mpr ⟨rfl, h⟩
  unfold resolvedCandidate
  rw [hfound]
  rfl

theorem isSome_findResolved_of_candidate {c : Context} {candidates : List String}
    {name : String} (hname : name ∈ candidates) (h : c.namedShapes name ≠ []) :
    (findResolved c candidates).isSome := by
  have hsome : (candidates.findSome? (resolvedCandidate c)).isSome :=
    List.findSome?_isSome_iff.mpr ⟨name, hname, isSome_resolvedCandidate h⟩
  unfold findResolved
  obtain ⟨f, hf⟩ := Option.isSome_iff_exists.mp hsome
  rw [hf]
  rfl

theorem isSome_findResolved_of_first {c : Context} {candidates : List String}
    (h : c.firstConfigType.isSome) : (findResolved c candidates).isSome := by
  unfold findResolved
  obtain ⟨f, hf⟩ := Option.isSome_iff_exists.mp h
  rw [hf]
  cases candidates.findSome? (resolvedCandidate c) with
  | none => rfl
  | some found => rfl

theorem findResolved_ne_nothing {c : Context} {candidates : List String} {f : Finding}
    (h : findResolved c candidates = some f) : ∃ name, f.1 = .resolved name := by
  unfold findResolved at h
  cases hcand : candidates.findSome? (resolvedCandidate c) with
  | none =>
    rw [hcand] at h
    obtain ⟨first, -, rfl⟩ := Option.map_eq_some_iff.mp h
    exact ⟨first.1, rfl⟩
  | some found =>
    rw [hcand] at h
    obtain ⟨name, -, hsome⟩ := List.exists_of_findSome?_eq_some hcand
    obtain rfl : found = f := Option.some.inj h
    unfold resolvedCandidate at hsome
    split at hsome
    next shapes _ =>
      cases hsome
      exact ⟨name, rfl⟩
    next => cases hsome

/-- What is found as written is found with names resolved, unless the name of the
declaration has a dot. -/
theorem isSome_findResolved_of_findWritten {c : Context} {companion : Path} {text : String}
    {candidates : List String} {name? : Option String} {shapes : List Shape} {s : Source}
    {d : TopLevelDecl} {root : Path}
    (hroot : c.program.files[rootFile]? = some (.ofSource root s))
    (hd : WrittenBy companion text candidates name? shapes s d) (hdot : '.' ∉ d.name.toList) :
    (findResolved c candidates).isSome := by
  have hne : AsWritten.declShapes s d.decl ≠ [] := hd.shapes_eq ▸ hd.shapes_ne
  rcases hd.named with ⟨-, hname⟩ | ⟨-, hconfig⟩
  · refine isSome_findResolved_of_candidate hname ?_
    intro hnil
    obtain ⟨shape, hshape⟩ := List.exists_mem_of_ne_nil _ hne
    have hmem := names_declShapes_subset_namedShapes hroot hd.mem (fun h => hdot h.1)
      shape.name (List.mem_map.mpr ⟨shape, hshape, rfl⟩)
    rw [hnil] at hmem
    exact absurd hmem (by simp [names])
  · exact isSome_findResolved_of_first (isSome_firstConfigType hroot hd.mem hconfig hdot hne)

/-! ## The main statement -/

/-- A file that is there and has no context is malformed. -/
theorem read_eq_none_of_build_error {fs : FileSystem} {path : Path} {text : String}
    {error : ExtractError} (hfile : fs.isFile path = true)
    (h : Context.build fs path text = .error error) : Source.read path text = none := by
  cases hs : Source.read path text with
  | none => rfl
  | some s =>
    have hload : Program.load fs path text = some (Program.loadAll fs
        (.ofRoot (.ofSource path s)) (SourceFile.ofSource path s).linkedModules) := by
      unfold Program.load
      rw [hs]
      rfl
    rw [build_eq_ok_iff.mpr ⟨hfile, _, hload, rfl⟩] at h
    cases h

/-- Whatever the cache hands out, a declaration that is only found as written has a
dotted name. -/
theorem dot_mem_of_findCached_eq_none {fs : FileSystem} {cache : Cache} {companion : Path}
    {text : String} {candidates : List String} {name? : Option String} {shapes : List Shape}
    {s : Source} {d : TopLevelDecl} (hcache : cache.Reachable)
    (hfile : fs.isFile companion = true)
    (hnone : (findCached fs cache companion text candidates).1 = none)
    (hd : WrittenBy companion text candidates name? shapes s d) : '.' ∈ d.name.toList := by
  have hbuilt := fun e => @Cache.exists_build_of_request fs cache companion text e hcache
  have hcases := Cache.request_cases fs cache companion text
  unfold findCached at hnone
  generalize cache.request fs companion text = result at hbuilt hcases hnone
  obtain ⟨error | e, cache'⟩ := result
  · cases hcases with
    | failed _ _ build_eq =>
      cases (read_eq_none_of_build_error hfile build_eq).symm.trans hd.read
  · -- what is handed out was built from this text, whatever files there were then
    obtain ⟨hsame, -, fs', hbuild⟩ := hbuilt e rfl
    obtain ⟨s', hs', hroot⟩ := exists_root_of_build hbuild
    rw [read_of_same hsame, hd.read] at hs'
    obtain rfl : s = s' := Option.some.inj hs'
    by_contra hdot
    have hsome := isSome_findResolved_of_findWritten hroot hd hdot
    rw [show findResolved e.context candidates = none from hnone] at hsome
    cases hsome

/-- **Resolving names leaves nothing to extraction as written.** For a file that is
there and a cache that requests have made, the properties are found with names resolved
or not at all; as written only through a declaration with a dot in its name. And if
nothing is found, nothing would be found without resolving names. -/
theorem findProperties_as_written_dotted {fs : FileSystem} {options : AnalysisOptions}
    {cache : Cache} {companion : Path} {text : String} {candidates : List String}
    (hsemantic : options.semantic = true) (hcache : cache.Reachable)
    (hfile : fs.isFile companion = true) :
    (∀ name?, (findProperties fs options cache companion text candidates).1.1 =
        .asWritten name? →
      ∃ s d, WrittenBy companion text candidates name?
        (findProperties fs options cache companion text candidates).1.2 s d ∧
          '.' ∈ d.name.toList) ∧
    ((findProperties fs options cache companion text candidates).1.1 = .nothing →
      (findProperties fs { options with semantic := false } cache companion text
        candidates).1.1 = .nothing) := by
  have hres : (findProperties fs options cache companion text candidates).1 =
      ((findCached fs cache companion text candidates).1.orElse fun _ =>
        findWritten companion text candidates).getD (.nothing, []) := by
    unfold findProperties
    rw [if_pos hsemantic]
  have hoff : (findProperties fs { options with semantic := false } cache companion text
      candidates).1 = (findWritten companion text candidates).getD (.nothing, []) := rfl
  have hcached : ∀ f, (findCached fs cache companion text candidates).1 = some f →
      ∃ name, f.1 = .resolved name := by
    intro f hf
    unfold findCached at hf
    split at hf
    next => exact findResolved_ne_nothing hf
    next => cases hf
  rw [hres, hoff]
  -- Names are asked for first: what is found that way is resolved, and only behind it is text
  -- read.
  cases hfirst : (findCached fs cache companion text candidates).1 with
  | some f =>
    obtain ⟨name, hname⟩ := hcached f hfirst
    constructor
    · intro name? h
      cases hname.symm.trans h
    · intro h
      cases hname.symm.trans h
  | none =>
    cases hwritten : findWritten companion text candidates with
    | none =>
      constructor
      · intro name? h
        cases h
      · intro _
        rfl
    | some f =>
      obtain ⟨name?, s, d, hprov, hd⟩ := exists_writtenBy_of_findWritten hwritten
      -- A declaration that the text has and the program misses can only be one with a dot.
      have hdot := dot_mem_of_findCached_eq_none hcache hfile hfirst hd
      constructor
      · intro name?' h
        obtain rfl : name? = name?' := by
          cases hprov.symm.trans h
          rfl
        exact ⟨s, d, hd, hdot⟩
      · intro h
        cases hprov.symm.trans h

theorem findCached_ofCapacity {fs : FileSystem} {companion : Path} {text : String} {c : Context}
    (h : Context.build fs companion text = .ok c) (capacity : Nat) (candidates : List String) :
    (findCached fs (.ofCapacity capacity) companion text candidates).1 =
      findResolved c candidates := by
  unfold findCached Cache.request Cache.lookup Cache.ofCapacity
  simp only [List.find?_nil, h]
  rfl

theorem findProperties_inline_resolved :
    (findProperties (oneFile inlineText) {} (.ofCapacity Cache.defaultCapacity) onePath inlineText
      ["YConfigType"]).1.1 ≠ .asWritten none := by
  intro h
  have hfile : (oneFile inlineText).isFile onePath = true := by decide
  obtain ⟨s, d, hd, hdot⟩ :=
    (findProperties_as_written_dotted rfl (.empty _) hfile).1 none h
  have hdots : (Source.read onePath inlineText).all (fun s =>
      s.typeDecls.all (fun d => !d.name.toList.contains '.')) = true := by decide +kernel
  rw [hd.read, Option.all_some, List.all_eq_true] at hdots
  exact absurd hdot (by simpa using hdots d hd.mem)

/-- A configuration type whose name has a dot is found as written only. -/
theorem findProperties_dotted_as_written :
    (findProperties (oneFile dottedText) {} (.ofCapacity Cache.defaultCapacity) onePath
      dottedText ["XConfigType"]).1 =
        (.asWritten none, [⟨"a", "string", false, none⟩]) := by
  have hany : (oneContext? dottedText).any (fun c =>
      (findResolved c ["XConfigType"]).isNone) = true := by decide +kernel
  obtain ⟨c, hc, hresolved⟩ := Option.any_eq_true _ _ |>.mp hany
  have hnone : (findCached (oneFile dottedText) (.ofCapacity Cache.defaultCapacity) onePath
      dottedText ["XConfigType"]).1 = none := by
    rw [findCached_ofCapacity (build_of_oneContext? hc)]
    exact Option.isNone_iff_eq_none.mp hresolved
  have hwritten : findWritten onePath dottedText ["XConfigType"] =
      some (.asWritten none, [⟨"a", "string", false, none⟩]) := by decide +kernel
  unfold findProperties
  rw [if_pos rfl]
  dsimp only
  rw [hnone, hwritten]
  rfl

end Analysis

end ElementManifest

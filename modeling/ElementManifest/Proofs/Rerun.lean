import ElementManifest.Analysis
import ElementManifest.Proofs.CacheSteps
import ElementManifest.Proofs.Growth
import Mathlib.Data.List.Induction

/-!
# Running again

A module that is analyzed once more, into the document that it was analyzed into, is
registered and merged once more. The declarations are all there by then, but their tags are
not those of the first time: a class has the tag of its last registration. What holds of
the second run is that it takes the tags the same way:

> `enter_again`: if the document has at some point the tags that it had there in the first
> run, the next registration finds the same declaration, adds no attributes to it, and
> leaves the tags that it left then.

> `foldl_enter_again`: so only the tags without a class are declared once more, at the end.

The attributes are the same in both runs, because a request that is made again is answered
with an equal context (`request_again`), whatever the cache has kept.

> `analyzeModule_again`: the document of a second analysis.
-/

namespace ElementManifest

/-! ## Requests again -/

namespace Cache

/-- A request that is made again is answered with an equal context, or fails again. -/
theorem request_again (fs : FileSystem) (c : Cache) (path : Path) (text : String) :
    ((c.request fs path text).2.request fs path text).1.map (·.context) =
      (c.request fs path text).1.map (·.context) := by
  have hfirst := served fs c path text
  generalize c.request fs path text = first at hfirst
  have hsecond := served fs first.2 path text
  generalize first.2.request fs path text = second at hsecond
  cases hfirst with
  | hit e found text_eq =>
    have hagain := find?_touch c (List.find?_some found)
    cases hsecond with
    | hit e' found' _ =>
      obtain rfl : e' = e := Option.some.inj (found'.symm.trans hagain)
      rfl
    | built _ lacks _ => exact absurd text_eq (lacks e hagain)
    | failed _ lacks _ => exact absurd text_eq (lacks e hagain)
  | built context _ build_eq =>
    cases hsecond with
    | hit e' found' _ =>
      -- everything else that is kept for the path was removed
      rcases mem_entries_store (List.mem_of_find?_eq_some found') with hold | rfl
      · exact absurd (List.find?_some found') (not_isFor_of_mem_without hold)
      · rfl
    | built context' _ build_eq' =>
      obtain rfl : context = context' := Except.ok.inj (build_eq.symm.trans build_eq')
      rfl
    | failed _ _ build_eq' => cases build_eq.symm.trans build_eq'
  | failed error _ build_eq =>
    cases hsecond with
    | hit e' found' _ =>
      have hmem := List.mem_of_find?_eq_some found'
      exact absurd (List.find?_some found') (not_isFor_of_mem_without hmem)
    | built _ _ build_eq' => cases build_eq.symm.trans build_eq'
    | failed error' _ build_eq' =>
      obtain rfl : error = error' := Except.error.inj (build_eq.symm.trans build_eq')
      rfl

end Cache

namespace ModuleDocument

/-! ## Tags of an earlier time -/

/-- The tags of declarations. -/
def tags (ds : List Declaration) : List (Option String) :=
  ds.map (·.tagName)

/-- Declarations with the tags of an earlier time, as far as there were any. -/
def retag : List (Option String) → List Declaration → List Declaration
  | [], fs => fs
  | _ :: _, [] => []
  | t :: ts, f :: fs => { f with tagName := t } :: retag ts fs

theorem retag_tags (fs : List Declaration) : retag (tags fs) fs = fs := by
  induction fs with
  | nil => rfl
  | cons f fs ih => exact congrArg (f :: ·) ih

section

variable {ds fs : List Declaration}

/-- A class gets its tag in the grown declarations where it gets it in the ones before. -/
theorem setTag_retag {name tag : String} (h : GrowsTo (setTag name tag ds) fs)
    (more : List Declaration) :
    setTag name tag (retag (tags ds) fs ++ more) =
      retag (tags (setTag name tag ds)) fs ++ more := by
  induction ds generalizing fs with
  | nil =>
    -- the class was new then, and now it is declared at the same place
    cases h with
    | @cons _ f _ fs head _ =>
      have hname : (f.name == some name) = true := beq_iff_eq.mpr head.name_eq
      show setTag name tag (f :: (fs ++ more)) = _
      unfold setTag
      rw [if_pos hname]
      rfl
  | cons d ds ih =>
    unfold setTag at h ⊢
    by_cases hname : (d.name == some name) = true
    · rw [if_pos hname] at h ⊢
      cases h with
      | @cons _ f _ fs head _ =>
        have hf : (f.name == some name) = true := by
          rw [head.name_eq]
          exact hname
        show (if (f.name == some name) = true then _ else _) = _
        rw [if_pos hf]
        rfl
    · rw [if_neg hname] at h ⊢
      cases h with
      | @cons _ f _ fs head tail =>
        have hf : ¬(f.name == some name) = true := by
          rw [head.name_eq]
          exact hname
        show (if (f.name == some name) = true then _ else _) = _
        rw [if_neg hf]
        exact congrArg (_ :: ·) (ih tail)

/-- A declaration without a class keeps its tag. -/
theorem retag_concat {tag : String} (h : GrowsTo (ds ++ [.ofTag tag]) fs) :
    retag (tags (ds ++ [.ofTag tag])) fs = retag (tags ds) fs := by
  induction ds generalizing fs with
  | nil =>
    cases h with
    | @cons _ f _ fs head _ =>
      have htag : some tag = f.tagName := (head.tag_eq rfl).symm
      show { f with tagName := some tag } :: fs = f :: fs
      rw [htag]
  | cons d ds ih =>
    cases h with
    | @cons _ f _ fs _ tail => exact congrArg (_ :: ·) (ih tail)

theorem getElem?_retag (h : GrowsTo ds fs) {n : Nat} {d f : Declaration} (hd : ds[n]? = some d)
    (hf : fs[n]? = some f) (more : List Declaration) :
    (retag (tags ds) fs ++ more)[n]? = some { f with tagName := d.tagName } := by
  induction h generalizing n with
  | nil => cases hd
  | @cons d' f' ds fs head tail ih =>
    cases n with
    | zero =>
      obtain rfl : d' = d := Option.some.inj hd
      obtain rfl : f' = f := Option.some.inj hf
      rfl
    | succ n => exact ih hd hf

theorem owns_retag {d f : Declaration} (h : d.Grows f) (r : Registration) :
    owns r { f with tagName := d.tagName } = owns r d := by
  unfold owns
  rw [h.name_eq]

/-- A registration owns the same declaration as at the earlier time. -/
theorem findIdx?_retag (h : GrowsTo ds fs) {r : Registration} {n : Nat}
    (hn : ds.findIdx? (owns r) = some n) (more : List Declaration) :
    (retag (tags ds) fs ++ more).findIdx? (owns r) = some n := by
  induction h generalizing n with
  | nil => cases hn
  | @cons d f ds fs head tail ih =>
    show ({ f with tagName := d.tagName } :: (retag (tags ds) fs ++ more)).findIdx? _ = some n
    rw [List.findIdx?_cons] at hn ⊢
    rw [owns_retag head]
    by_cases howns : owns r d = true
    · rw [if_pos howns] at hn ⊢
      exact hn
    · rw [if_neg howns] at hn ⊢
      obtain ⟨m, hm, rfl⟩ := Option.map_eq_some_iff.mp hn
      rw [ih hm]
      rfl

end

/-! ## One registration again -/

/-- The declarations of the registrations without a class. -/
def anonymous (rs : List Registration) : List Declaration :=
  (rs.filter (·.className.isNone)).map fun r => .ofTag r.tag

theorem anonymous_eq_nil {rs : List Registration} (h : ∀ r ∈ rs, r.className ≠ none) :
    anonymous rs = [] := by
  have hfilter : rs.filter (·.className.isNone) = [] := by
    refine List.filter_eq_nil_iff.mpr ?_
    intro r hr hnone
    exact h r hr (Option.isNone_iff_eq_none.mp hnone)
  unfold anonymous
  rw [hfilter]
  rfl

theorem anonymous_append (rs more : List Registration) :
    anonymous (rs ++ more) = anonymous rs ++ anonymous more := by
  unfold anonymous
  rw [List.filter_append, List.map_append]

section

variable {first second : ModuleDocument} {r : Registration} {fs more : List Declaration}

theorem register_again (hgrows : GrowsTo (first.register r).declarations fs)
    (h : second.declarations = retag (tags first.declarations) fs ++ more) :
    (second.register r).declarations =
      retag (tags (first.register r).declarations) fs ++ (more ++ anonymous [r]) := by
  unfold register anonymous at *
  cases hname : r.className with
  | some name =>
    rw [hname] at hgrows
    dsimp only at hgrows ⊢
    rw [h, setTag_retag hgrows]
    simp [hname]
  | none =>
    rw [hname] at hgrows
    dsimp only at hgrows ⊢
    rw [h, retag_concat hgrows, List.append_assoc]
    simp [hname]

/-- When a registration is made again, in a document that has grown from the one it was made
in, it only gives its tag to the class again, or declares its tag once more. -/
theorem enter_again {attributes : Option String → List Attribute}
    (hgrows : GrowsTo (first.enter attributes r).declarations fs)
    (h : second.declarations = retag (tags first.declarations) fs ++ more) :
    (second.enter attributes r).declarations =
      retag (tags (first.enter attributes r).declarations) fs ++ (more ++ anonymous [r]) := by
  have hregister : GrowsTo (first.register r).declarations fs :=
    (growsTo_merge _ _ _ _).trans hgrows
  have hsecond := register_again hregister h
  -- its declaration had all the attributes after the first time, and still has them
  obtain ⟨n, d, hn, hd, hnames⟩ := exists_owned_enter attributes first r
  obtain ⟨f, hf, hdf⟩ := hgrows.getElem? hd
  have hknown : ∀ a ∈ attributes r.className, a.name ∈ f.attributes.map (·.name) := by
    intro a ha
    exact (hdf.attributes_prefix.map _).subset (hnames a ha)
  -- and with the tags of that time it is the one that is found again
  have hfound := findIdx?_retag hregister hn (more ++ anonymous [r])
  obtain ⟨hlt, -⟩ := List.findIdx?_eq_some_iff_getElem.mp hn
  have hthere := getElem?_retag hregister (List.getElem?_eq_getElem hlt) hf
    (more ++ anonymous [r])
  rw [← hsecond] at hfound hthere
  rw [enter_of_known hfound hthere hknown, hsecond]
  unfold tags
  rw [tags_enter]

end

/-! ## All registrations again -/

/-- Where the second run has come to after some of the registrations: the declarations are
all there, with the tags that the first run had left by then. -/
theorem declarations_again (attributes : Option String → List Attribute) (path : String)
    (done todo : List Registration) :
    (done.foldl (enter attributes)
        ((done ++ todo).foldl (enter attributes) (.ofPath path))).declarations =
      retag (tags (done.foldl (enter attributes) (.ofPath path)).declarations)
        ((done ++ todo).foldl (enter attributes) (.ofPath path)).declarations ++
          anonymous done := by
  induction done using List.reverseRecOn generalizing todo with
  | nil => exact (List.append_nil _).symm
  | append_singleton done r ih =>
    have hdone := ih (r :: todo)
    have hgrows : GrowsTo
        ((done.foldl (enter attributes) (.ofPath path)).enter attributes r).declarations
        ((done ++ [r] ++ todo).foldl (enter attributes) (.ofPath path)).declarations := by
      rw [List.foldl_append, List.foldl_append]
      exact growsTo_foldl_enter attributes _ todo
    rw [List.append_cons] at hdone
    rw [List.foldl_append (l := done), List.foldl_append (l := done), anonymous_append]
    exact enter_again hgrows hdone

/-- A second run over the registrations changes nothing in the document that the first one
has made; it only declares the tags without a class once more. -/
theorem foldl_enter_again (attributes : Option String → List Attribute) (path : String)
    (rs : List Registration) :
    rs.foldl (enter attributes) (rs.foldl (enter attributes) (.ofPath path)) =
      { rs.foldl (enter attributes) (.ofPath path) with
        declarations := (rs.foldl (enter attributes) (.ofPath path)).declarations ++
          anonymous rs } := by
  have hagain := declarations_again attributes path rs []
  rw [List.append_nil, retag_tags] at hagain
  rw [foldl_enter_eq, hagain]

end ModuleDocument

/-! ## Modules again -/

namespace Analysis

section

variable (fs : FileSystem) (options : AnalysisOptions)

theorem findCached_eq (cache : Cache) (companion : Path) (text : String)
    (candidates : List String) :
    findCached fs cache companion text candidates =
      (((cache.request fs companion text).1.map (·.context)).toOption.bind
        (findResolved · candidates), (cache.request fs companion text).2) := by
  unfold findCached
  generalize cache.request fs companion text = result
  obtain ⟨error | e, cache'⟩ := result
  · rfl
  · rfl

/-- The properties in a companion file are the same after they were looked for, for
whatever names. -/
theorem findProperties_again (cache : Cache) (companion : Path) (text : String)
    (candidates before : List String) :
    (findProperties fs options (findProperties fs options cache companion text before).2
        companion text candidates).1 =
      (findProperties fs options cache companion text candidates).1 := by
  unfold findProperties
  by_cases hsemantic : options.semantic = true
  · simp only [if_pos hsemantic, findCached_eq, Cache.request_again]
  · simp only [if_neg hsemantic]

/-- The attributes that a registration of a module gets, by the name of its class. -/
def foundAttributes (module : Path) (cache : Cache) (className : Option String) :
    List Attribute :=
  match Companion.locate? fs module with
  | none => []
  | some companion =>
    match fs.read companion with
    | .error _ => []
    | .ok text =>
      let candidates := Companion.typeNames className (Companion.baseName? module)
      (findProperties fs options cache companion text candidates).1.2.map Inference.attributeOf

theorem doc_analyzeRegistration (module : Path) (st : State) (r : Registration) :
    (analyzeRegistration fs options module st r).2.doc =
      st.doc.enter (foundAttributes fs options module st.cache) r := by
  unfold analyzeRegistration ModuleDocument.enter foundAttributes
  cases Companion.locate? fs module with
  | none => exact (ModuleDocument.merge_nil _ _ _).symm
  | some companion =>
    dsimp only
    cases fs.read companion with
    | error error => exact (ModuleDocument.merge_nil _ _ _).symm
    | ok text => rfl

/-- Later registrations get the attributes that they would have got before. -/
theorem foundAttributes_analyzeRegistration (module : Path) (st : State) (r : Registration) :
    foundAttributes fs options module (analyzeRegistration fs options module st r).2.cache =
      foundAttributes fs options module st.cache := by
  funext className
  unfold analyzeRegistration foundAttributes
  cases Companion.locate? fs module with
  | none => rfl
  | some companion =>
    dsimp only
    cases fs.read companion with
    | error error => rfl
    | ok text =>
      have hagain := findProperties_again fs options st.cache companion text
        (Companion.typeNames className (Companion.baseName? module))
        (Companion.typeNames r.className (Companion.baseName? module))
      exact congrArg (fun finding => finding.2.map Inference.attributeOf) hagain

theorem doc_analyzeAll (module : Path) (st : State) (rs : List Registration) :
    (analyzeAll fs options module st rs).2.doc =
        rs.foldl (ModuleDocument.enter (foundAttributes fs options module st.cache)) st.doc ∧
      foundAttributes fs options module (analyzeAll fs options module st rs).2.cache =
        foundAttributes fs options module st.cache := by
  induction rs generalizing st with
  | nil => exact ⟨rfl, rfl⟩
  | cons r rs ih =>
    obtain ⟨hdoc, hattributes⟩ := ih (analyzeRegistration fs options module st r).2
    have hsame := foundAttributes_analyzeRegistration fs options module st r
    rw [doc_analyzeRegistration, hsame] at hdoc
    exact ⟨hdoc, hattributes.trans hsame⟩

end

/-- **Analyzing a module again changes nothing**, apart from registrations without a class.
Whatever the cache has kept: the document of the second analysis is that of the first one
with a declaration for each registration without a class behind it, in order; so it is the
same document if every registration names its class. -/
theorem analyzeModule_again {module : Path} {text : String} {source : TypeScript.Source}
    (hread : TypeScript.Source.read module text = some source) (fs : FileSystem)
    (options : AnalysisOptions) (path : String) (cache : Cache) :
    ∃ outcomes st outcomes' st',
      analyzeModule fs options module text ⟨.ofPath path, cache⟩ = some (outcomes, st) ∧
      analyzeModule fs options module text st = some (outcomes', st') ∧
      st'.doc = { st.doc with
        declarations := st.doc.declarations ++
          ModuleDocument.anonymous (source.registrations options.registerFunctions) } ∧
      ((∀ r ∈ source.registrations options.registerFunctions, r.className ≠ none) →
        st'.doc = st.doc) := by
  have hanalyze : ∀ st, analyzeModule fs options module text st = some
      (analyzeAll fs options module st (source.registrations options.registerFunctions)) := by
    intro st
    unfold analyzeModule
    rw [hread]
    rfl
  -- Both analyses read the same registrations, whatever the first one has left behind.
  generalize source.registrations options.registerFunctions = rs at hanalyze ⊢
  obtain ⟨hdoc, hattributes⟩ := doc_analyzeAll fs options module ⟨.ofPath path, cache⟩ rs
  have hfirst := hanalyze ⟨.ofPath path, cache⟩
  generalize analyzeAll fs options module ⟨.ofPath path, cache⟩ rs = first at *
  obtain ⟨outcomes, st⟩ := first
  obtain ⟨hdoc', -⟩ := doc_analyzeAll fs options module st rs
  have hagain : (analyzeAll fs options module st rs).2.doc = { st.doc with
      declarations := st.doc.declarations ++ ModuleDocument.anonymous rs } := by
    rw [hdoc', hattributes, hdoc]
    exact ModuleDocument.foldl_enter_again _ path rs
  refine ⟨outcomes, st, _, _, hfirst, hanalyze st, hagain, ?_⟩
  intro hnamed
  rw [hagain, ModuleDocument.anonymous_eq_nil hnamed, List.append_nil]

/-- A module that registers a class twice, and both of its tags without a class too. -/
def sharedTags : String :=
  "customElements.define('x-a', class \x7b\x7d); customElements.define('x-a', A); " ++
    "customElements.define('x-b', A); customElements.define('x-b', class \x7b\x7d);"

/-- The module with a companion. -/
def sharedTagFiles : FileSystem :=
  ⟨.directory [("a.ts", .file (some sharedTags)),
    ("a.types.ts", .file (some "export type AConfigType = \x7b open: boolean \x7d;"))], []⟩

/-- The class is not declared again. -/
theorem analyzeModule_again_shared_tags :
    ∃ outcomes st outcomes' st',
      analyzeModule sharedTagFiles {} ⟨"a.ts"⟩ sharedTags ⟨.ofPath "a.ts", .ofCapacity 1⟩ =
        some (outcomes, st) ∧
      analyzeModule sharedTagFiles {} ⟨"a.ts"⟩ sharedTags st = some (outcomes', st') ∧
      st'.doc.declarations = st.doc.declarations ++ [.ofTag "x-a", .ofTag "x-b"] := by
  have hregistrations : (TypeScript.Source.read ⟨"a.ts"⟩ sharedTags).map
      (·.registrations defaultRegisterFunctions) =
        some [⟨"x-a", none⟩, ⟨"x-a", some "A"⟩, ⟨"x-b", some "A"⟩, ⟨"x-b", none⟩] := by
    decide +kernel
  obtain ⟨source, hread, hsource⟩ := Option.map_eq_some_iff.mp hregistrations
  obtain ⟨outcomes, st, outcomes', st', hfirst, hsecond, hdoc, -⟩ :=
    analyzeModule_again hread sharedTagFiles {} "a.ts" (.ofCapacity 1)
  refine ⟨outcomes, st, outcomes', st', hfirst, hsecond, ?_⟩
  rw [hdoc]
  show st.doc.declarations ++ ModuleDocument.anonymous
    (source.registrations defaultRegisterFunctions) = _
  rw [hsource]
  rfl

end Analysis

end ElementManifest

import ElementManifest.Proofs.CompanionNames
import ElementManifest.Proofs.Fallback
import ElementManifest.Proofs.FirstWrite
import ElementManifest.Proofs.Rerun
import ElementManifest.Proofs.Schedules
import ElementManifest.Proofs.WellFormedShapes

/-!
# What an inspection shows

A companion file is looked into in two ways: when its module is analyzed, and when it is
inspected by itself. One starts from the name of the module and the other from that of the
file, and both come to the same name of a type (`namesInFile_of_mem_candidates`), and so to the
same properties. A registration takes the first attribute of each name into
its declaration:

> `firstOfEach_newAttributes`: what is added is the first of each name, in order.

An inspection shows them all (`inspect_shows_first_of_each`). The two lists are the same one
only if no two properties have the same attribute name, and they may
(`inspect_shows_name_twice`).
-/

namespace ElementManifest

/-! ## The first attribute of each name -/

/-- Some attributes are the first ones of their names among others, in their order. -/
structure FirstOfEach (all kept : List Attribute) : Prop where
  sublist : kept.Sublist all
  nodup : (kept.map (·.name)).Nodup
  find?_eq : ∀ name, kept.find? (·.name == name) = all.find? (·.name == name)

namespace ModuleDocument

theorem sublist_newAttributes (known more : List Attribute) :
    (newAttributes known more).Sublist more := by
  induction more generalizing known with
  | nil => exact .slnil
  | cons a more ih =>
    unfold newAttributes
    split
    next => exact (ih known).cons a
    next => exact (ih (known ++ [a])).cons_cons a

theorem newAttributes_eq_self {known more : List Attribute}
    (h : ((known ++ more).map (·.name)).Nodup) : newAttributes known more = more := by
  induction more generalizing known with
  | nil => rfl
  | cons a more ih =>
    have hfresh : ¬known.any (·.name == a.name) = true := by
      intro hany
      obtain ⟨b, hb, hname⟩ := List.any_eq_true.mp hany
      rw [List.map_append, List.map_cons] at h
      exact (List.nodup_append.mp h).2.2 b.name (List.mem_map_of_mem hb) a.name
        List.mem_cons_self (eq_of_beq hname)
    unfold newAttributes
    rw [if_neg hfresh, ih (by rwa [← List.append_cons])]

theorem firstOfEach_newAttributes (more : List Attribute) :
    FirstOfEach more (newAttributes [] more) where
  sublist := sublist_newAttributes [] more
  nodup := @nodup_names_newAttributes [] more List.nodup_nil
  find?_eq := find?_newAttributes [] more

/-- Nothing is dropped if the names are distinct. -/
theorem newAttributes_nil_eq_self_iff (more : List Attribute) :
    newAttributes [] more = more ↔ (more.map (·.name)).Nodup := by
  constructor
  · intro h
    have hnodup := (firstOfEach_newAttributes more).nodup
    rwa [h] at hnodup
  · intro h
    exact @newAttributes_eq_self [] more h

/-- The attributes of an element without a class go to its own declaration. -/
theorem merge_register_ofPath (path tag : String) (more : List Attribute) :
    ((ofPath path).register ⟨tag, none⟩).merge none (some tag) more =
      (⟨"javascript-module", path,
        [⟨.customElement, none, some tag, newAttributes [] more⟩]⟩,
        (newAttributes [] more).length) := by
  have hposition : ((ofPath path).register ⟨tag, none⟩).position? none (some tag) = some 0 := by
    simp [position?, register, ofPath, Declaration.ofTag]
  exact merge_eq hposition rfl more

end ModuleDocument

/-! ## Properties that are found -/

namespace Analysis

variable {fs : FileSystem} {options : AnalysisOptions} {companion : Path} {text : String}

theorem wellFormed_of_findResolved {c : Context} {candidates : List String} {f : Finding}
    (h : findResolved c candidates = some f) : WellFormed f.2 := by
  unfold findResolved at h
  rcases Option.or_eq_some_iff.mp (Option.orElse_eq_or.symm.trans h) with hcandidate | ⟨-, hfirst⟩
  · obtain ⟨name, -, hfound⟩ := List.exists_of_findSome?_eq_some hcandidate
    unfold resolvedCandidate at hfound
    split at hfound
    next shapes hextract =>
      cases hfound
      exact (c.wellFormed_of_extract hextract).2
    next => cases hfound
  · obtain ⟨⟨name, shapes⟩, hfound, rfl⟩ := Option.map_eq_some_iff.mp hfirst
    exact (c.wellFormed_of_firstConfigType hfound).2

theorem wellFormed_of_findWritten {candidates : List String} {f : Finding}
    (h : findWritten companion text candidates = some f) : WellFormed f.2 := by
  obtain ⟨name, -, hfound⟩ := List.exists_of_findSome?_eq_some h
  exact (AsWritten.wellFormed_of_extract (writtenCandidate_eq_some hfound).2).2

/-- Whatever decides, the properties that are found have different names. -/
theorem wellFormed_findProperties (cache : Cache) (candidates : List String) :
    WellFormed (findProperties fs options cache companion text candidates).1.2 := by
  have hcached : ∀ f, (findCached fs cache companion text candidates).1 = some f →
      WellFormed f.2 := by
    intro f hf
    rw [findCached_eq] at hf
    obtain ⟨c, -, hfound⟩ := Option.bind_eq_some_iff.mp hf
    exact wellFormed_of_findResolved hfound
  unfold findProperties
  generalize hsource : (if options.semantic = true
    then findCached fs cache companion text candidates else (none, cache)) = found
  have hfound : ∀ f, found.1 = some f → WellFormed f.2 := by
    intro f hf
    rw [← hsource] at hf
    split at hf
    next => exact hcached f hf
    next => cases hf
  obtain ⟨finding, rest⟩ := found
  show WellFormed ((finding.orElse fun _ => findWritten companion text candidates).getD _).2
  cases finding with
  | some f => exact hfound f rfl
  | none =>
    cases hwritten : findWritten companion text candidates with
    | none => exact .nil
    | some f => exact wellFormed_of_findWritten hwritten

/-! ## The main statement -/

/-- **An inspection shows what a registration merges**, but for attributes that come second
under their name. Take a module whose companion can be read, and any caches of the files: the
inspection of the companion tells the same provenance as the registration of an element without
a class, and of its attributes the first of each name are the ones that a new document gets,
in the same order. The two lists are equal if and only if no two properties have the same
attribute name. -/
theorem inspect_shows_first_of_each {cache cache' : Cache} (h : cache.BuiltIn fs)
    (h' : cache'.BuiltIn fs) {module : Path} (hlocate : Companion.locate? fs module = some companion)
    (hread : fs.read companion = .ok text) (tag path : String) :
    ∃ i kept outcome st properties,
      (inspect fs options cache companion none).1 = .ok i ∧ i.typesFile = companion ∧
      analyzeRegistration fs options module ⟨.ofPath path, cache'⟩ ⟨tag, none⟩ = (outcome, st) ∧
      outcome = .merged tag companion i.provenance kept.length ∧
      st.doc.declarations = [⟨.customElement, none, some tag, kept⟩] ∧
      FirstOfEach i.attributes kept ∧
      WellFormed properties ∧ i.attributes = properties.map Inference.attributeOf ∧
      (kept = i.attributes ↔ (properties.map (Naming.attributeName ·.name)).Nodup) := by
  have hfile : fs.isFile companion = true := List.find?_some hlocate
  have hnames : Companion.typeNames none (Companion.baseName? module) =
      inspectedNames companion none :=
    (Companion.namesInFile_of_mem_candidates (List.mem_of_find?_eq_some hlocate)).symm
  -- whatever the two caches keep, both find the properties that the files tell
  have hsame := findProperties_builtIn options h h' hfile text (inspectedNames companion none)
  have hwell : WellFormed
      (findProperties fs options cache' companion text (inspectedNames companion none)).1.2 :=
    wellFormed_findProperties cache' _
  unfold inspect analyzeRegistration
  rw [hfile, hlocate]
  dsimp only
  rw [hread]
  dsimp only
  rw [hnames]
  generalize findProperties fs options cache companion text
    (inspectedNames companion none) = shown at hsame ⊢
  generalize findProperties fs options cache' companion text
    (inspectedNames companion none) = merged at hsame hwell ⊢
  obtain ⟨⟨provenance, properties⟩, _⟩ := shown
  obtain ⟨finding', _⟩ := merged
  obtain rfl : (provenance, properties) = finding' := hsame
  dsimp only
  rw [ModuleDocument.merge_register_ofPath]
  refine ⟨_, _, _, _, properties, rfl, rfl, rfl, rfl, rfl,
    ModuleDocument.firstOfEach_newAttributes _, hwell, rfl, ?_⟩
  rw [ModuleDocument.newAttributes_nil_eq_self_iff, List.map_map]
  rfl

/-- Two properties that are written differently and have one attribute name. -/
def similarText : String :=
  "export type AConfigType = \x7b isOpen: boolean; is_open: string \x7d"

/-- A module whose companion has such properties. -/
def similarFiles : FileSystem :=
  ⟨.directory [("a.ts", .file (some "")), ("a.types.ts", .file (some similarText))], []⟩

/-- A registration of the module tells the provenance that an inspection shows. -/
theorem inspect_shows_first_of_each_similar :
    Companion.locate? similarFiles ⟨"a.ts"⟩ = some ⟨"a.types.ts"⟩ ∧
      similarFiles.read ⟨"a.types.ts"⟩ = .ok similarText ∧
      ∃ i kept outcome st,
        (inspect similarFiles {} (.ofCapacity 1) ⟨"a.types.ts"⟩ none).1 = .ok i ∧
        analyzeRegistration similarFiles {} ⟨"a.ts"⟩ ⟨.ofPath "a.ts", .ofCapacity 1⟩ ⟨"x-a", none⟩ =
          (outcome, st) ∧
        outcome = .merged "x-a" ⟨"a.types.ts"⟩ i.provenance kept.length ∧
        FirstOfEach i.attributes kept := by
  have hlocate : Companion.locate? similarFiles ⟨"a.ts"⟩ = some ⟨"a.types.ts"⟩ := by
    decide +kernel
  have hread : similarFiles.read ⟨"a.types.ts"⟩ = .ok similarText := by rfl
  have hcache := Cache.builtIn_ofCapacity similarFiles 1
  obtain ⟨i, kept, outcome, st, -, hi, -, hanalyze, houtcome, -, hfirst, -⟩ :=
    @inspect_shows_first_of_each similarFiles {} _ _ _ _ hcache hcache _ hlocate hread "x-a" "a.ts"
  exact ⟨hlocate, hread, i, kept, outcome, st, hi, hanalyze, houtcome, hfirst⟩

/-- The two properties. -/
def similarShapes : List Shape :=
  [⟨"isOpen", "boolean", false, none⟩, ⟨"is_open", "string", false, none⟩]

theorem findProperties_similar :
    (findProperties similarFiles {} (.ofCapacity 1) ⟨"a.types.ts"⟩ similarText
      ["AConfigType"]).1 = (.resolved "AConfigType", similarShapes) := by
  have hall : (TypeScript.Source.read ⟨"a.types.ts"⟩ similarText).any (fun s =>
      (SourceFile.ofSource ⟨"a.types.ts"⟩ s).linkedModules.isEmpty &&
        findResolved ⟨⟨"a.types.ts"⟩, similarText, .ofRoot (.ofSource ⟨"a.types.ts"⟩ s)⟩
          ["AConfigType"] = some (.resolved "AConfigType", similarShapes)) = true := by
    decide +kernel
  obtain ⟨s, hs, hall⟩ := Option.any_eq_true _ _ |>.mp hall
  obtain ⟨hlinks, hfound⟩ := Bool.and_eq_true_iff.mp hall
  have hfile : similarFiles.isFile ⟨"a.types.ts"⟩ = true := by decide
  have hbuild := build_of_no_links hfile hs (List.isEmpty_iff.mp hlinks)
  unfold findProperties
  rw [if_pos rfl]
  dsimp only
  rw [findCached_ofCapacity hbuild, of_decide_eq_true hfound]
  rfl

/-- An inspection shows both attributes, and a registration merges the first one only. -/
theorem inspect_shows_name_twice :
    (inspect similarFiles {} (.ofCapacity 1) ⟨"a.types.ts"⟩ none).1.toOption.map
        (fun i => i.attributes.map fun a => (a.name, a.type)) =
      some [("is-open", "boolean"), ("is-open", "string")] ∧
    (analyzeRegistration similarFiles {} ⟨"a.ts"⟩ ⟨.ofPath "a.ts", .ofCapacity 1⟩
        ⟨"x-a", none⟩).2.doc.declarations.map
        (fun d => d.attributes.map fun a => (a.name, a.type)) =
      [[("is-open", "boolean")]] := by
  have hfound := findProperties_similar
  have hinspected : inspectedNames ⟨"a.types.ts"⟩ none = ["AConfigType"] := by decide +kernel
  have hnames : Companion.typeNames none (Companion.baseName? ⟨"a.ts"⟩) = ["AConfigType"] := by
    decide +kernel
  have hlocate : Companion.locate? similarFiles ⟨"a.ts"⟩ = some ⟨"a.types.ts"⟩ := by
    decide +kernel
  have hread : similarFiles.read ⟨"a.types.ts"⟩ = .ok similarText := by rfl
  have hfile : similarFiles.isFile ⟨"a.types.ts"⟩ = true := by decide
  unfold inspect analyzeRegistration
  rw [hfile, hlocate]
  dsimp only
  rw [hread]
  dsimp only
  rw [hnames, hinspected]
  generalize findProperties similarFiles {} (.ofCapacity 1) ⟨"a.types.ts"⟩ similarText
    ["AConfigType"] = found at hfound ⊢
  obtain ⟨finding, cache⟩ := found
  obtain rfl := hfound
  rw [ModuleDocument.merge_register_ofPath]
  constructor
  · have hshown : (similarShapes.map Inference.attributeOf).map (fun a => (a.name, a.type)) =
        [("is-open", "boolean"), ("is-open", "string")] := by decide +kernel
    exact congrArg some hshown
  · have hmerged : (ModuleDocument.newAttributes []
        (similarShapes.map Inference.attributeOf)).map (fun a => (a.name, a.type)) =
        [("is-open", "boolean")] := by decide +kernel
    exact congrArg (· :: []) hmerged

end Analysis

end ElementManifest

import ElementManifest.Proofs.FirstWrite
import ElementManifest.Proofs.Schedules
import Mathlib

/-!
# A pass loses nothing and counts nothing twice

What is in the report of a pass is told by the files alone: a file either cannot be
analyzed, or has registrations in a certain order (`registrationsIn?`). From there the
counts go through four stages, and each has its law:

> `Tallied.analyzeRegistration`: one registration declares one element, unless its class
> is declared already, and adds to the attributes what its outcome says.

> `settled_analyzeFile`: a file becomes one result, whatever the cache holds.

> `perm_modules_ofModules`: the manifest sorts the documents and leaves only those out
> that are empty, so it keeps every sum over them.

> `accounts_report`: the report of results that belong to the files, one for each, adds up.

The main statement is `analyze_accounts`, for passes in the order of the scan and in any
other.
-/

namespace ElementManifest

/-- How many elements registrations declare: each class that has a name once, and each
registration whose class has none. -/
def elementCount (rs : List Registration) : Nat :=
  (rs.filterMap (·.className)).toFinset.card + rs.countP (·.className.isNone)

/-- How many attributes a registration has added. Only a merge adds any. -/
def Outcome.added : Outcome → Nat
  | merged _ _ _ added => added
  | noCompanion _ => 0
  | unreadable _ _ => 0

/-- Whether a registration is of a class that is among those named. -/
def Registration.isOf (r : Registration) (names : List String) : Bool :=
  r.className.any names.contains

theorem Registration.isOf_congr (r : Registration) {names names' : List String}
    (h : ∀ name, name ∈ names ↔ name ∈ names') : r.isOf names = r.isOf names' := by
  unfold isOf
  cases r.className with
  | none => rfl
  | some name =>
    rw [Option.any_some, Option.any_some, Bool.eq_iff_iff, List.contains_iff_mem,
      List.contains_iff_mem]
    exact h name

theorem elementCount_concat (rs : List Registration) (r : Registration) :
    elementCount (rs ++ [r]) =
      elementCount rs + if r.isOf (rs.filterMap (·.className)) then 0 else 1 := by
  unfold elementCount Registration.isOf
  rw [List.filterMap_append, List.countP_append]
  cases hname : r.className with
  | none =>
    simp only [List.filterMap_cons, hname, List.filterMap_nil, List.append_nil,
      List.countP_singleton, Option.isNone_none, if_true, Option.any_none, Bool.false_eq_true,
      if_false]
    omega
  | some name =>
    have hinsert : (rs.filterMap (·.className) ++ [name]).toFinset =
        insert name (rs.filterMap (·.className)).toFinset := by
      rw [List.toFinset_append, Finset.union_comm]
      rfl
    simp only [List.filterMap_cons, hname, List.filterMap_nil, List.countP_singleton,
      Option.isNone_some, Bool.false_eq_true, if_false, Option.any_some, hinsert,
      List.contains_iff_mem]
    by_cases hmem : name ∈ rs.filterMap (·.className)
    · rw [if_pos hmem, Finset.insert_eq_of_mem (List.mem_toFinset.mpr hmem)]
      omega
    · rw [if_neg hmem, Finset.card_insert_of_notMem (fun h => hmem (List.mem_toFinset.mp h))]
      omega

theorem elementCount_eq_zero_iff {rs : List Registration} : elementCount rs = 0 ↔ rs = [] := by
  constructor
  · intro h
    unfold elementCount at h
    obtain ⟨hclasses, hothers⟩ := Nat.add_eq_zero_iff.mp h
    rw [Finset.card_eq_zero, List.toFinset_eq_empty_iff] at hclasses
    rw [List.countP_eq_zero] at hothers
    refine List.eq_nil_iff_forall_not_mem.mpr ?_
    intro r hr
    have hnone := List.filterMap_eq_nil_iff.mp hclasses r hr
    exact hothers r hr (Option.isNone_iff_eq_none.mpr hnone)
  · rintro rfl
    rfl

/-! ## One module -/

namespace ModuleDocument

theorem length_setTag (name tag : String) (ds : List Declaration) :
    (setTag name tag ds).length =
      ds.length + if name ∈ ds.filterMap (·.name) then 0 else 1 := by
  induction ds with
  | nil => rfl
  | cons d ds ih =>
    unfold setTag
    by_cases hname : d.name = some name
    · rw [if_pos (beq_iff_eq.mpr hname)]
      simp [hname]
    · rw [if_neg (fun h => hname (beq_iff_eq.mp h)), List.length_cons, List.length_cons, ih]
      have hmem : name ∈ (d :: ds).filterMap (·.name) ↔ name ∈ ds.filterMap (·.name) := by
        simp [hname]
      simp only [hmem]
      omega

/-- A registration declares one element more, unless its class is declared already. -/
theorem length_register (doc : ModuleDocument) (r : Registration) :
    (doc.register r).declarations.length =
      doc.declarations.length + if r.isOf doc.classNames then 0 else 1 := by
  unfold register Registration.isOf
  cases r.className with
  | none => exact List.length_append
  | some name =>
    rw [Option.any_some]
    simp only [List.contains_iff_mem]
    exact length_setTag name r.tag doc.declarations

theorem mem_classNames_register (doc : ModuleDocument) (r : Registration) (name : String) :
    name ∈ (doc.register r).classNames ↔ name ∈ doc.classNames ∨ r.className = some name := by
  unfold register classNames
  cases r.className with
  | none => simp [Declaration.ofTag]
  | some other =>
    dsimp only
    rw [names_setTag, Option.some_inj]
    split
    next hmem =>
      constructor
      · exact Or.inl
      · rintro (h | rfl)
        · exact h
        · exact hmem
    next => rw [List.mem_append, List.mem_singleton, eq_comm (a := name)]

theorem length_merge (doc : ModuleDocument) (className tag : Option String)
    (more : List Attribute) :
    (doc.merge className tag more).1.declarations.length = doc.declarations.length := by
  rcases merge_cases doc className tag more with ⟨-, hmerge⟩ | ⟨n, d, -, -, hmerge⟩
  · rw [hmerge]
  · rw [hmerge]
    exact List.length_modify _ _ _

end ModuleDocument

namespace Analysis

/-- What holds of the document of a module, and of the outcomes so far, after some of its
registrations. -/
structure Tallied (path : String) (done : List Registration) (outcomes : List Outcome)
    (doc : ModuleDocument) : Prop where
  path_eq : doc.path = path
  tags_eq : outcomes.map Outcome.tag = done.map (·.tag)
  classes : ∀ name, name ∈ doc.classNames ↔ name ∈ done.filterMap (·.className)
  elements : doc.declarations.length = elementCount done
  attributes : doc.attributeCount = (outcomes.map Outcome.added).sum

namespace Tallied

variable {path : String} {done : List Registration} {outcomes : List Outcome}

theorem start (path : String) : Tallied path [] [] (.ofPath path) where
  path_eq := rfl
  tags_eq := rfl
  classes := fun _ => Iff.rfl
  elements := rfl
  attributes := rfl

/-- A registration that adds no attributes. -/
theorem register {doc : ModuleDocument} (h : Tallied path done outcomes doc) {r : Registration}
    {outcome : Outcome} (htag : outcome.tag = r.tag) (hadded : outcome.added = 0) :
    Tallied path (done ++ [r]) (outcomes ++ [outcome]) (doc.register r) where
  path_eq := h.path_eq
  tags_eq := by
    rw [List.map_append, List.map_append, h.tags_eq, List.map_singleton, List.map_singleton, htag]
  classes := by
    intro name
    rw [ModuleDocument.mem_classNames_register, List.filterMap_append, List.mem_append, h.classes]
    simp [List.mem_filterMap]
  elements := by
    rw [ModuleDocument.length_register, elementCount_concat, h.elements, r.isOf_congr h.classes]
  attributes := by
    have hcount : (doc.register r).attributeCount = doc.attributeCount + 0 :=
      (ModuleDocument.keeps_register doc r).count_eq
    rw [hcount, h.attributes, List.map_append, List.sum_append, List.map_singleton,
      List.sum_singleton, hadded]

/-- The attributes of the last registration are merged: its outcome has to say how many. -/
theorem merge {doc : ModuleDocument} {before after : Outcome}
    (h : Tallied path done (outcomes ++ [before]) doc) {className tag : Option String}
    {more : List Attribute} (htag : after.tag = before.tag) (hbefore : before.added = 0)
    (hafter : after.added = (doc.merge className tag more).2) :
    Tallied path done (outcomes ++ [after]) (doc.merge className tag more).1 where
  path_eq := (ModuleDocument.keeps_merge doc className tag more).path_eq.trans h.path_eq
  tags_eq := by
    rw [← h.tags_eq, List.map_append, List.map_append, List.map_singleton, List.map_singleton,
      htag]
  classes := by
    rw [ModuleDocument.classNames_merge]
    exact h.classes
  elements := (ModuleDocument.length_merge doc className tag more).trans h.elements
  attributes := by
    have hcount : (doc.merge className tag more).1.attributeCount =
        doc.attributeCount + (doc.merge className tag more).2 :=
      (ModuleDocument.keeps_merge doc className tag more).count_eq
    have hsum := h.attributes
    rw [List.map_append, List.sum_append, List.map_singleton, List.sum_singleton, hbefore] at hsum
    rw [hcount, hsum, List.map_append, List.sum_append, List.map_singleton, List.sum_singleton,
      hafter]
    omega

section

variable (fs : FileSystem) (options : AnalysisOptions) (module : Path)

theorem analyzeRegistration {st : State} (h : Tallied path done outcomes st.doc)
    (r : Registration) :
    Tallied path (done ++ [r])
      (outcomes ++ [(Analysis.analyzeRegistration fs options module st r).1])
      (Analysis.analyzeRegistration fs options module st r).2.doc := by
  unfold Analysis.analyzeRegistration
  cases Companion.locate? fs module with
  | none => exact h.register rfl rfl
  | some companion =>
    dsimp only
    cases fs.read companion with
    | error error => exact h.register rfl rfl
    | ok text =>
      have hregistered : Tallied path (done ++ [r]) (outcomes ++ [.noCompanion r.tag])
          (st.doc.register r) := h.register rfl rfl
      exact hregistered.merge rfl rfl rfl

theorem analyzeAll {st : State} (h : Tallied path done outcomes st.doc) (rs : List Registration) :
    Tallied path (done ++ rs) (outcomes ++ (Analysis.analyzeAll fs options module st rs).1)
      (Analysis.analyzeAll fs options module st rs).2.doc := by
  induction rs generalizing st done outcomes with
  | nil =>
    rw [List.append_nil]
    unfold Analysis.analyzeAll
    rw [List.append_nil]
    exact h
  | cons r rs ih =>
    have hrest := ih (h.analyzeRegistration fs options module r)
    rw [List.append_assoc, List.append_assoc] at hrest
    exact hrest

end

end Tallied

end Analysis

namespace Project

/-! ## One file -/

section

variable (fs : FileSystem) (options : AnalysisOptions) (root : Path)

/-- The registrations in a file, in order; nothing when it cannot be analyzed. -/
def registrationsIn? (file : Path) : Option (List Registration) :=
  match fs.read file with
  | .error _ => none
  | .ok text =>
    (TypeScript.Source.read file text).map (·.registrations options.registerFunctions)

/-- What becomes of a file: a failure when it cannot be analyzed, and a document with one
outcome for each registration when it can. -/
inductive Settled (file : Path) : ModuleResult → Prop
  | failed (message : String) (missing : registrationsIn? fs options file = none) :
    Settled file (.failed (modulePath root file) message)
  | analyzed {rs : List Registration} {doc : ModuleDocument} {outcomes : List Outcome}
    (found : registrationsIn? fs options file = some rs)
    (tallied : Analysis.Tallied (modulePath root file) rs outcomes doc) :
    Settled file (.analyzed doc outcomes)

theorem settled_analyzeFile (cache : Cache) (file : Path) :
    Settled fs options root file (analyzeFile fs options root cache file).1 := by
  unfold analyzeFile
  dsimp only
  cases hread : fs.read file with
  | error error =>
    refine .failed _ ?_
    unfold registrationsIn?
    rw [hread]
  | ok text =>
    dsimp only
    unfold Analysis.analyzeModule
    cases hsource : TypeScript.Source.read file text with
    | none =>
      refine .failed _ ?_
      unfold registrationsIn?
      rw [hread]
      dsimp only
      rw [hsource]
      rfl
    | some source =>
      let st : Analysis.State := ⟨.ofPath (modulePath root file), cache⟩
      -- the calls of the module are tallied from an empty document on
      have hstart : Analysis.Tallied (modulePath root file) [] [] st.doc := .start _
      refine .analyzed ?_ (hstart.analyzeAll fs options file
        (source.registrations options.registerFunctions))
      unfold registrationsIn?
      rw [hread]
      dsimp only
      rw [hsource]
      rfl

theorem settled_analyzeFiles (cache : Cache) (files : List Path) :
    List.Forall₂ (Settled fs options root) files (analyzeFiles fs options root cache files).1 := by
  induction files generalizing cache with
  | nil => exact .nil
  | cons file files ih => exact .cons (settled_analyzeFile fs options root cache file) (ih _)

/-! ## The manifest -/

end

end Project

namespace PackageManifest

theorem perm_insertModule (m : ModuleDocument) (ms : List ModuleDocument) :
    (insertModule m ms).Perm (m :: ms) := by
  induction ms with
  | nil => exact .refl _
  | cons n ms ih =>
    unfold insertModule
    split
    next => exact (ih.cons n).trans (.swap m n ms)
    next => exact .refl _

/-- A manifest has the documents that are not empty, in an order of its own. -/
theorem perm_modules_ofModules (docs : List ModuleDocument) :
    (ofModules docs).modules.Perm (docs.filter fun m => !m.declarations.isEmpty) := by
  unfold ofModules
  dsimp only
  induction docs.filter fun m => !m.declarations.isEmpty with
  | nil => exact .refl _
  | cons m ms ih => exact (perm_insertModule m _).trans (ih.cons m)

/-- So it keeps what is counted over the documents, if nothing is counted in empty ones. -/
theorem sum_modules_ofModules (count : ModuleDocument → Nat)
    (hempty : ∀ m, m.declarations = [] → count m = 0) (docs : List ModuleDocument) :
    ((ofModules docs).modules.map count).sum = (docs.map count).sum := by
  rw [((perm_modules_ofModules docs).map count).sum_nat]
  induction docs with
  | nil => rfl
  | cons m docs ih =>
    rw [List.filter_cons, List.map_cons, List.sum_cons, ← ih]
    by_cases h : m.declarations = []
    · rw [h, hempty m h]
      simp
    · simp [h]

theorem declarationCount_ofModules (docs : List ModuleDocument) :
    (ofModules docs).declarationCount = (docs.map (·.declarations.length)).sum := by
  unfold declarationCount
  rw [List.length_flatMap]
  refine sum_modules_ofModules (·.declarations.length) ?_ docs
  intro m h
  rw [h]
  rfl

theorem attributeCount_ofModules (docs : List ModuleDocument) :
    (ofModules docs).attributeCount = (docs.map ModuleDocument.attributeCount).sum := by
  unfold attributeCount
  rw [List.flatMap_assoc, List.length_flatMap]
  refine sum_modules_ofModules ModuleDocument.attributeCount ?_ docs
  intro m h
  unfold ModuleDocument.attributeCount
  rw [h]
  rfl

end PackageManifest

namespace Project

/-! ## The report -/

/-- A module that is analyzed, with the registrations in it. -/
structure AnalyzedModule where
  path : String
  registrations : List Registration

section

variable (fs : FileSystem) (options : AnalysisOptions) (root : Path)

/-- The files that cannot be analyzed. -/
def brokenFiles (files : List Path) : List Path :=
  files.filter fun file => (registrationsIn? fs options file).isNone

/-- The modules of the files that can be analyzed, in order. -/
def analyzedModules (files : List Path) : List AnalyzedModule :=
  files.filterMap fun file => (registrationsIn? fs options file).map (⟨modulePath root file, ·⟩)

/-- What is in a report for the files that were scanned: each of them once, either as a
failure or as an analyzed module, and each registration of these modules once. -/
structure Accounts (files : List Path) (report : ProjectReport) : Prop where
  scanned_eq : report.scanned = files.length
  failures_eq : report.failures.map (·.module) =
    (brokenFiles fs options files).map (modulePath root)
  scanned_split : report.scanned =
    report.failures.length + (analyzedModules fs options root files).length
  outcomes_eq : report.outcomes.map (fun o => (o.module, o.outcome.tag)) =
    (analyzedModules fs options root files).flatMap fun m =>
      m.registrations.map fun r => (m.path, r.tag)
  modules_perm : (report.manifest.modules.map fun m => (m.path, m.declarations.length)).Perm
    (((analyzedModules fs options root files).filter fun m => !m.registrations.isEmpty).map
      fun m => (m.path, elementCount m.registrations))
  declarationCount_eq : report.manifest.declarationCount =
    ((analyzedModules fs options root files).map fun m => elementCount m.registrations).sum
  attributeCount_eq : report.manifest.attributeCount =
    (report.outcomes.map (·.outcome.added)).sum

variable {fs options root} {file : Path} {files : List Path}

theorem brokenFiles_cons_of_none (h : registrationsIn? fs options file = none) :
    brokenFiles fs options (file :: files) = file :: brokenFiles fs options files := by
  unfold brokenFiles
  exact List.filter_cons_of_pos (Option.isNone_iff_eq_none.mpr h)

theorem brokenFiles_cons_of_some {rs : List Registration}
    (h : registrationsIn? fs options file = some rs) :
    brokenFiles fs options (file :: files) = brokenFiles fs options files := by
  unfold brokenFiles
  refine List.filter_cons_of_neg ?_
  rw [h]
  exact Bool.false_ne_true

theorem analyzedModules_cons_of_none (h : registrationsIn? fs options file = none) :
    analyzedModules fs options root (file :: files) = analyzedModules fs options root files := by
  unfold analyzedModules
  rw [List.filterMap_cons, h]
  rfl

theorem analyzedModules_cons_of_some {rs : List Registration}
    (h : registrationsIn? fs options file = some rs) :
    analyzedModules fs options root (file :: files) =
      ⟨modulePath root file, rs⟩ :: analyzedModules fs options root files := by
  unfold analyzedModules
  rw [List.filterMap_cons, h]
  rfl

end

section

variable {fs : FileSystem} {options : AnalysisOptions} {root : Path} {files : List Path}
  {results : List ModuleResult} (h : List.Forall₂ (Settled fs options root) files results)

include h

theorem failures_of_settled :
    (results.filterMap ModuleResult.failure?).map (·.module) =
      (brokenFiles fs options files).map (modulePath root) := by
  induction h with
  | nil => rfl
  | cons head tail ih =>
    cases head with
    | failed message missing =>
      rw [brokenFiles_cons_of_none missing]
      exact congrArg (_ :: ·) ih
    | analyzed found tallied =>
      rw [brokenFiles_cons_of_some found]
      exact ih

theorem length_of_settled :
    files.length =
      (results.filterMap ModuleResult.failure?).length +
        (analyzedModules fs options root files).length := by
  induction h with
  | nil => rfl
  | cons head tail ih =>
    cases head with
    | failed message missing =>
      rw [analyzedModules_cons_of_none missing]
      simp only [List.filterMap_cons, ModuleResult.failure?, List.length_cons]
      omega
    | analyzed found tallied =>
      rw [analyzedModules_cons_of_some found]
      simp only [List.filterMap_cons, ModuleResult.failure?, List.length_cons]
      omega

theorem outcomes_of_settled :
    (results.flatMap ModuleResult.reports).map (fun o => (o.module, o.outcome.tag)) =
      (analyzedModules fs options root files).flatMap fun m =>
        m.registrations.map fun r => (m.path, r.tag) := by
  induction h with
  | nil => rfl
  | cons head tail ih =>
    rw [List.flatMap_cons, List.map_append, ih]
    cases head with
    | failed message missing =>
      rw [analyzedModules_cons_of_none missing]
      rfl
    | @analyzed rs doc outcomes found tallied =>
      rw [analyzedModules_cons_of_some found, List.flatMap_cons]
      have htags := congrArg (List.map (Prod.mk doc.path)) tallied.tags_eq
      rw [List.map_map, List.map_map] at htags
      show (outcomes.map (⟨doc.path, ·⟩)).map (fun o : RegistrationReport =>
        (o.module, o.outcome.tag)) ++ _ = _
      rw [List.map_map, ← tallied.path_eq]
      exact congrArg (· ++ _) htags

/-- The documents of the results that have declarations are those of the modules that have
registrations. -/
theorem documents_of_settled :
    ((results.filterMap ModuleResult.doc?).filter fun m => !m.declarations.isEmpty).map
        (fun m => (m.path, m.declarations.length)) =
      ((analyzedModules fs options root files).filter fun m => !m.registrations.isEmpty).map
        fun m => (m.path, elementCount m.registrations) := by
  induction h with
  | nil => rfl
  | cons head tail ih =>
    cases head with
    | failed message missing =>
      rw [analyzedModules_cons_of_none missing]
      exact ih
    | @analyzed rs doc outcomes found tallied =>
      rw [analyzedModules_cons_of_some found]
      simp only [List.filterMap_cons, ModuleResult.doc?, List.filter_cons]
      have hempty : doc.declarations = [] ↔ rs = [] := by
        rw [← List.length_eq_zero_iff, tallied.elements, elementCount_eq_zero_iff]
      by_cases hrs : rs = []
      · have hdoc := hempty.mpr hrs
        simp only [hdoc, hrs, List.isEmpty_nil, Bool.not_true, Bool.false_eq_true, if_false]
        exact ih
      · have hdoc : doc.declarations ≠ [] := fun hnil => hrs (hempty.mp hnil)
        have hrs' : (!rs.isEmpty) = true := by simpa using hrs
        have hdoc' : (!doc.declarations.isEmpty) = true := by simpa using hdoc
        rw [if_pos hdoc', if_pos hrs', List.map_cons, List.map_cons, ih, tallied.path_eq,
          tallied.elements]

theorem declarations_of_settled :
    ((results.filterMap ModuleResult.doc?).map (·.declarations.length)).sum =
      ((analyzedModules fs options root files).map fun m => elementCount m.registrations).sum := by
  induction h with
  | nil => rfl
  | cons head tail ih =>
    cases head with
    | failed message missing =>
      rw [analyzedModules_cons_of_none missing]
      exact ih
    | analyzed found tallied =>
      rw [analyzedModules_cons_of_some found, List.map_cons, List.sum_cons]
      exact congrArg₂ (· + ·) tallied.elements ih

theorem attributes_of_settled :
    ((results.filterMap ModuleResult.doc?).map ModuleDocument.attributeCount).sum =
      ((results.flatMap ModuleResult.reports).map (·.outcome.added)).sum := by
  induction h with
  | nil => rfl
  | cons head tail ih =>
    rw [List.flatMap_cons, List.map_append, List.sum_append, ← ih]
    cases head with
    | failed message missing => exact (Nat.zero_add _).symm
    | @analyzed rs doc outcomes found tallied =>
      have hadded : (outcomes.map (⟨doc.path, ·⟩)).map
          (fun o : RegistrationReport => o.outcome.added) = outcomes.map Outcome.added := by
        rw [List.map_map]
        rfl
      show _ = ((outcomes.map (⟨doc.path, ·⟩)).map
        (fun o : RegistrationReport => o.outcome.added)).sum + _
      rw [hadded, ← tallied.attributes]
      rfl

end

/-- The report of results that belong to the scanned files, one for each, adds up. -/
theorem accounts_report {fs : FileSystem} {options : AnalysisOptions} {root : Path}
    {found : ScanResult} {results : List ModuleResult}
    (h : List.Forall₂ (Settled fs options root) found.files results) :
    Accounts fs options root found.files (report found results) where
  scanned_eq := rfl
  failures_eq := failures_of_settled h
  scanned_split := length_of_settled h
  outcomes_eq := outcomes_of_settled h
  modules_perm := by
    rw [← documents_of_settled h]
    exact (PackageManifest.perm_modules_ofModules _).map _
  declarationCount_eq :=
    (PackageManifest.declarationCount_ofModules _).trans (declarations_of_settled h)
  attributeCount_eq :=
    (PackageManifest.attributeCount_ofModules _).trans (attributes_of_settled h)

/-! ## Passes -/

/-- The result at the place of a turn belongs to the file of the turn. -/
theorem exists_settled_of_turn {fs : FileSystem} {options : AnalysisOptions} {root : Path}
    {turns : List (Path × Nat)} {results : List ModuleResult}
    (h : List.Forall₂ (Settled fs options root) (turns.map Prod.fst) results)
    (hplaces : (turns.map Prod.snd).Nodup) :
    ∀ turn ∈ turns, ∃ result, ((turns.map Prod.snd).zip results).lookup turn.2 = some result ∧
      Settled fs options root turn.1 result := by
  induction turns generalizing results with
  | nil => exact nofun
  | cons first turns ih =>
    cases h with
    | @cons _ result _ results head tail =>
      obtain ⟨hfresh, hrest⟩ := List.nodup_cons.mp hplaces
      intro turn hturn
      rcases List.mem_cons.mp hturn with rfl | hturn
      · exact ⟨result, List.lookup_cons_self, head⟩
      · have hne : (turn.2 == first.2) = false := by
          refine beq_eq_false_iff_ne.mpr ?_
          intro heq
          exact hfresh (heq ▸ List.mem_map_of_mem hturn)
        obtain ⟨found, hfound, hsettled⟩ := ih tail hrest turn hturn
        refine ⟨found, ?_, hsettled⟩
        rw [List.map_cons, List.zip_cons_cons, List.lookup_cons, hne]
        exact hfound

theorem forall₂_filterMap {R : Path → ModuleResult → Prop} {turns : List (Path × Nat)}
    {f : Path × Nat → Option ModuleResult}
    (h : ∀ turn ∈ turns, ∃ result, f turn = some result ∧ R turn.1 result) :
    List.Forall₂ R (turns.map Prod.fst) (turns.filterMap f) := by
  induction turns with
  | nil => exact .nil
  | cons turn turns ih =>
    obtain ⟨result, hresult, hfirst⟩ := h turn List.mem_cons_self
    rw [List.map_cons, List.filterMap_cons_some hresult]
    exact .cons hfirst (ih fun next hnext => h next (List.mem_cons_of_mem _ hnext))

/-- Results that are put at their places belong to the files, whatever the order was. -/
theorem settled_collect {fs : FileSystem} {options : AnalysisOptions} {root : Path}
    {files : List Path} (s : Schedule files) {results : List ModuleResult}
    (h : List.Forall₂ (Settled fs options root) (s.turns.map Prod.fst) results) :
    List.Forall₂ (Settled fs options root) files
      (collect files ((s.turns.map Prod.snd).zip results)) := by
  have hplaces : (s.turns.map Prod.snd).Nodup := by
    refine (s.perm.map Prod.snd).nodup_iff.mpr ?_
    rw [List.zipIdx_map_snd]
    exact List.nodup_range'
  have hturns : ∀ turn ∈ files.zipIdx, ∃ result,
      ((s.turns.map Prod.snd).zip results).lookup turn.2 = some result ∧
        Settled fs options root turn.1 result :=
    fun turn hturn => exists_settled_of_turn h hplaces turn (s.perm.mem_iff.mpr hturn)
  have hresults := forall₂_filterMap hturns
  rw [List.zipIdx_map_fst] at hresults
  exact hresults

/-- **A pass loses nothing and counts nothing twice.** Whatever the files, the root and the
configuration are, and whatever the cache holds: each scanned file is a failure or an analyzed
module, and not both; there is one outcome for each registration in these modules, in order;
the manifest has the modules with registrations, with one declaration for each class and for
each registration without one; and it has the attributes that the outcomes say were added. So
it is for a pass that takes the modules in any other order. -/
theorem analyze_accounts (fs : FileSystem) :
    (∀ options cache root config,
      Accounts fs options root
        (scan fs root config.includes config.ignores config.ignoreTestFiles).files
        (analyze fs options cache root config).1) ∧
    ∀ (p : Pass fs) cache,
      Accounts fs p.options p.root p.found.files (p.run cache).1 := by
  refine ⟨?_, ?_⟩
  · intro options cache root config
    exact accounts_report (settled_analyzeFiles fs options root cache _)
  · intro p cache
    exact accounts_report (settled_collect p.schedule
      (settled_analyzeFiles fs p.options p.root cache _))

end Project

end ElementManifest

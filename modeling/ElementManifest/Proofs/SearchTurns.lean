import ElementManifest.Proofs.ClosedPrograms

/-!
# One turn of a search for a name

A name inside a file, or one that is asked of a module, is declared there or stands for
other names: one that is brought in, an own name in an export list, a name that is passed
on, or the same name in all modules whose exports are passed on. This is told from the items
of the sources alone (`Question.declared?`, `Question.links`, `Question.stars`), while a
search reads it off tables. A turn of the search does what the sources tell:

> `turn`: a turn finds a declaration, follows one link, or tries the modules whose exports
> are all passed on, and it is the sources that say which.
-/

namespace ElementManifest

open ElementManifest.TypeScript

namespace Program

/-! ## Questions -/

/-- A name inside a file, or a name that is asked of a module. -/
inductive Question
  | inside (file : Nat) (name : String)
  | fromModule (module : Path) (name : String)
  deriving DecidableEq

section

variable (fs : FileSystem) (p : Program)

/-- The position of the file that the file system has for a module. -/
def fileOf? (m : Path) : Option Nat :=
  (loadModule fs m).bind fun g => p.position? g.path

namespace Question

/-- The file that a question is about, with its position. -/
def file? : Question → Option (Nat × SourceFile)
  | .inside file _ => (p.files[file]?).map (file, ·)
  | .fromModule m _ => (fileOf? fs p m).bind fun file => (p.files[file]?).map (file, ·)

/-- The declarations that answer a question in its file. A name in an export list is not that
of a declaration. An interface that is exported by default goes by its own name. -/
def declaredIn (file : Nat) (f : SourceFile) : Question → Option Symbol
  | .inside _ name => if (splitDot? name).isSome then none else f.symbol? file name
  | .fromModule _ name =>
    if f.listedNames.any (·.1 == name) then none else f.symbol? file name

/-- The questions that a name of a file stands for: the names that it is brought in from, or
exported as. -/
def linksIn (file : Nat) (f : SourceFile) : Question → List Question
  | .inside _ name =>
    match splitDot? name with
    | some (ns, rest) =>
      (f.boundModules.filter (·.1 == ns)).map fun e => .fromModule e.2 rest
    | none => (f.boundNames.filter (·.1 == name)).map fun e => .fromModule e.2.module e.2.name
  | .fromModule _ name =>
    (f.listedNames.filter (·.1 == name)).map (fun e => .inside file e.2) ++
      (f.passedNames.filter (·.1 == name)).map fun e => .fromModule e.2.module e.2.name

/-- The questions to the modules whose exports a file all passes on. -/
def starsIn (f : SourceFile) : Question → List Question
  | .inside _ _ => []
  | .fromModule _ name => f.passedModules.map (.fromModule · name)

/-- The declarations that answer a question. -/
def declared? (q : Question) : Option Symbol :=
  (q.file? fs p).bind fun (file, f) => q.declaredIn file f

/-- The questions that a question stands for. -/
def links (q : Question) : List Question :=
  (q.file? fs p).toList.flatMap fun (file, f) => q.linksIn file f

/-- The questions that may answer a question instead. -/
def stars (q : Question) : List Question :=
  (q.file? fs p).toList.flatMap fun (_, f) => q.starsIn f

end Question

/-- What a search in at most `n` turns says of a question. -/
def answer (n : Nat) : Question → Option Symbol
  | .inside file name => p.lookupInside n file name
  | .fromModule m name => (fileOf? fs p m).bind fun file => p.lookupExport n file name

/-- A program whose files are those of their sources and whose modules are those of the file
system. -/
structure Settled : Prop where
  indexed : ∀ f ∈ p.files, ∃ path s, f = .ofSource path s
  modules : ∀ f ∈ p.files, ∀ m ∈ f.linkedModules, p.moduleFile? m = fileOf? fs p m

end

variable {fs : FileSystem} {p : Program}

theorem settled_of_load {path : Path} {text : String} (hload : load fs path text = some p)
    (hroom : p.files.length < maxFiles) : Settled fs p := by
  obtain ⟨s, done, rest, hs, h, hlinks, hend⟩ := exists_explored_of_load hload
  refine ⟨fun f hf => ⟨_, _, h.indexed f hf⟩, ?_⟩
  intro f hf m hm
  exact h.moduleFile?_eq hlinks (mem_done_of_room hlinks hend hroom hf hm)

/-! ## One turn of a search -/

theorem findSome?_congr {α β : Type} {f g : α → Option β} {l : List α}
    (h : ∀ a ∈ l, f a = g a) : l.findSome? f = l.findSome? g := by
  induction l with
  | nil => rfl
  | cons a l ih =>
    rw [List.findSome?_cons, List.findSome?_cons, h a List.mem_cons_self,
      ih fun b hb => h b (List.mem_cons_of_mem a hb)]

section

variable {α : Type} {entries : List (String × α)} {name : String}

theorem filter_name_eq_nil (h : ∀ value, (name, value) ∉ entries) :
    entries.filter (·.1 == name) = [] := by
  refine List.filter_eq_nil_iff.mpr ?_
  rintro ⟨n, value⟩ hmem heq
  obtain rfl : n = name := eq_of_beq heq
  exact h value hmem

theorem mem_filter_name {value : α} (h : (name, value) ∈ entries) :
    (name, value) ∈ entries.filter (·.1 == name) :=
  List.mem_filter.mpr ⟨h, beq_self_eq_true _⟩

theorem any_name_eq_false (h : ∀ value, (name, value) ∉ entries) :
    entries.any (·.1 == name) = false := by
  rw [List.any_eq_false]
  rintro ⟨n, value⟩ hmem heq
  obtain rfl : n = name := eq_of_beq heq
  exact h value hmem

end

section

variable {q : Question} {file : Nat} {f : SourceFile}

theorem declared?_of_file? (h : q.file? fs p = some (file, f)) :
    q.declared? fs p = q.declaredIn file f := by
  unfold Question.declared?
  rw [h]
  rfl

theorem links_of_file? (h : q.file? fs p = some (file, f)) :
    q.links fs p = q.linksIn file f := by
  unfold Question.links
  rw [h, Option.toList_some, List.flatMap_singleton]

theorem stars_of_file? (h : q.file? fs p = some (file, f)) : q.stars fs p = q.starsIn f := by
  unfold Question.stars
  rw [h, Option.toList_some, List.flatMap_singleton]

end

/-- What one turn of a search does. -/
inductive Turn (fs : FileSystem) (p : Program) (q : Question) : Prop
  | declared (s : Symbol) (hs : q.declared? fs p = some s)
      (h : ∀ n, answer fs p (n + 1) q = some s)
  | follow (q' : Question) (hnone : q.declared? fs p = none) (hlink : q' ∈ q.links fs p)
      (h : ∀ n, answer fs p (n + 1) q = answer fs p n q')
  | tryAll (hnone : q.declared? fs p = none) (hlinks : q.links fs p = [])
      (h : ∀ n, answer fs p (n + 1) q = (q.stars fs p).findSome? (answer fs p n))

/-- A question that is answered by a table. The table has one value for a name, and the sources
tell all that were set. -/
theorem Turn.of_entries {α : Type} {entries : List (String × α)} {name : String} {q : Question}
    (ask : α → Question) (hnone : q.declared? fs p = none)
    (hlinks : q.links fs p = (entries.filter (·.1 == name)).map fun e => ask e.2)
    (hfound : ∀ value, (Table.ofEntries entries).lookup name = some value →
      ∀ n, answer fs p (n + 1) q = answer fs p n (ask value))
    (hmissing : (Table.ofEntries entries).lookup name = none →
      ∀ n, answer fs p (n + 1) q = (q.stars fs p).findSome? (answer fs p n)) : Turn fs p q := by
  rcases Table.lookup_ofEntries_cases entries name with
    ⟨value, hlookup, hentry⟩ | ⟨hlookup, hentries⟩
  · refine .follow (ask value) hnone ?_ (hfound value hlookup)
    rw [hlinks]
    exact List.mem_map.mpr ⟨_, mem_filter_name hentry, rfl⟩
  · refine .tryAll hnone ?_ (hmissing hlookup)
    rw [hlinks, filter_name_eq_nil hentries, List.map_nil]

theorem turn_of_file?_eq_none {q : Question} (h : q.file? fs p = none) : Turn fs p q := by
  refine .tryAll ?_ ?_ ?_
  · unfold Question.declared?
    rw [h]
    rfl
  · unfold Question.links
    rw [h]
    rfl
  · intro n
    have hstars : q.stars fs p = [] := by
      unfold Question.stars
      rw [h]
      rfl
    rw [hstars, List.findSome?_nil]
    cases q with
    | inside file name =>
      have hf : p.files[file]? = none := Option.map_eq_none_iff.mp h
      show p.lookupInside (n + 1) file name = none
      rw [lookupInside, hf]
      rfl
    | fromModule m name =>
      refine Option.bind_eq_none_iff.mpr ?_
      intro file hfile
      have hf : p.files[file]? = none :=
        Option.map_eq_none_iff.mp (Option.bind_eq_none_iff.mp h file hfile)
      rw [lookupExport, hf]
      rfl

theorem file?_inside (fs : FileSystem) {file : Nat} {f : SourceFile} (hf : p.files[file]? = some f)
    (name : String) : (Question.inside file name).file? fs p = some (file, f) :=
  congrArg (Option.map (file, ·)) hf

/-- A turn for a dotted name inside a file: the part before the dot is a module that the file
brings in. -/
theorem turn_dotted (h : Settled fs p) {file : Nat} {f : SourceFile}
    (hf : p.files[file]? = some f) {name ns rest : String}
    (hdot : splitDot? name = some (ns, rest)) : Turn fs p (.inside file name) := by
  have hmem : f ∈ p.files := List.mem_of_getElem? hf
  obtain ⟨path, s, rfl⟩ := h.indexed f hmem
  have hfile := file?_inside fs hf name
  -- no declaration goes by a dotted name
  have hdeclared : (Question.inside file name).declared? fs p = none := by
    rw [declared?_of_file? hfile, Question.declaredIn, hdot]
    rfl
  have hlinks : (Question.inside file name).links fs p =
      ((SourceFile.ofSource path s).boundModules.filter (·.1 == ns)).map
        fun e => .fromModule e.2 rest := by
    rw [links_of_file? hfile, Question.linksIn, hdot]
  have hanswer : ∀ n, answer fs p (n + 1) (.inside file name) =
      ((SourceFile.ofSource path s).namespaces.lookup ns).bind fun m =>
        (p.moduleFile? m).bind fun target => p.lookupExport n target rest := by
    intro n
    show p.lookupInside (n + 1) file name = _
    rw [lookupInside_succ hf, hdot]
  refine .of_entries (.fromModule · rest) hdeclared hlinks ?_ ?_
  · intro m (hm : (SourceFile.ofSource path s).namespaces.lookup ns = some m) n
    rw [hanswer, hm, Option.bind_some,
      h.modules _ hmem m (SourceFile.mem_linkedModules_of_namespaces hm)]
    rfl
  · intro (hm : (SourceFile.ofSource path s).namespaces.lookup ns = none) n
    rw [hanswer, hm, stars_of_file? hfile]
    rfl

/-- A turn for a plain name inside a file: it is declared there, or it is brought in. -/
theorem turn_plain (h : Settled fs p) {file : Nat} {f : SourceFile}
    (hf : p.files[file]? = some f) {name : String} (hdot : splitDot? name = none) :
    Turn fs p (.inside file name) := by
  have hmem : f ∈ p.files := List.mem_of_getElem? hf
  obtain ⟨path, s, rfl⟩ := h.indexed f hmem
  have hfile := file?_inside fs hf name
  have hdeclared : (Question.inside file name).declared? fs p =
      ((SourceFile.ofSource path s).group? name).map (·.symbol file) := by
    rw [declared?_of_file? hfile, Question.declaredIn, hdot, SourceFile.symbol_group?]
    rfl
  have hlinks : (Question.inside file name).links fs p =
      ((SourceFile.ofSource path s).boundNames.filter (·.1 == name)).map
        fun e => .fromModule e.2.module e.2.name := by
    rw [links_of_file? hfile, Question.linksIn, hdot]
  cases hgroup : (SourceFile.ofSource path s).group? name with
  | some g =>
    rw [hgroup] at hdeclared
    refine .declared (g.symbol file) hdeclared ?_
    intro n
    show p.lookupInside (n + 1) file name = _
    rw [lookupInside_succ hf, hdot, hgroup]
  | none =>
    rw [hgroup] at hdeclared
    have hanswer : ∀ n, answer fs p (n + 1) (.inside file name) =
        ((SourceFile.ofSource path s).imports.lookup name).bind fun link =>
          (p.moduleFile? link.module).bind fun target => p.lookupExport n target link.name := by
      intro n
      show p.lookupInside (n + 1) file name = _
      rw [lookupInside_succ hf, hdot, hgroup]
    refine .of_entries (fun link : Link => .fromModule link.module link.name) hdeclared hlinks ?_ ?_
    · intro link (hlink : (SourceFile.ofSource path s).imports.lookup name = some link) n
      rw [hanswer, hlink, Option.bind_some,
        h.modules _ hmem link.module (SourceFile.mem_linkedModules_of_imports hlink)]
      rfl
    · intro (hlink : (SourceFile.ofSource path s).imports.lookup name = none) n
      rw [hanswer, hlink, stars_of_file? hfile]
      rfl

section

variable {m : Path} {file : Nat} {path : Path} {s : Source}

theorem file?_fromModule {f : SourceFile} (hm : fileOf? fs p m = some file)
    (hf : p.files[file]? = some f) (name : String) :
    (Question.fromModule m name).file? fs p = some (file, f) := by
  show (fileOf? fs p m).bind _ = _
  rw [hm, Option.bind_some, hf]
  rfl

theorem answer_fromModule (hm : fileOf? fs p m = some file) (n : Nat) (name : String) :
    answer fs p n (.fromModule m name) = p.lookupExport n file name := by
  show (fileOf? fs p m).bind _ = _
  rw [hm, Option.bind_some]

theorem declared?_fromModule (hm : fileOf? fs p m = some file)
    (hf : p.files[file]? = some (.ofSource path s)) (name : String) :
    (Question.fromModule m name).declared? fs p =
      if (SourceFile.ofSource path s).listedNames.any (·.1 == name) then none
      else ((SourceFile.ofSource path s).group? name).map (·.symbol file) := by
  rw [declared?_of_file? (file?_fromModule hm hf name), Question.declaredIn,
    SourceFile.symbol_group?]

theorem links_fromModule (hm : fileOf? fs p m = some file)
    (hf : p.files[file]? = some (.ofSource path s)) (name : String) :
    (Question.fromModule m name).links fs p =
      ((SourceFile.ofSource path s).listedNames.filter (·.1 == name)).map
          (fun e => .inside file e.2) ++
        ((SourceFile.ofSource path s).passedNames.filter (·.1 == name)).map
          fun e => .fromModule e.2.module e.2.name :=
  links_of_file? (file?_fromModule hm hf name)

/-- A turn for a name of a module that is in its export list. -/
theorem turn_listed (hm : fileOf? fs p m = some file)
    (hf : p.files[file]? = some (.ofSource path s)) {name inner : String}
    (hlookup : (SourceFile.ofSource path s).localExports.lookup name = some inner)
    (hentry : (name, inner) ∈ (SourceFile.ofSource path s).listedNames) :
    Turn fs p (.fromModule m name) := by
  have hlisted : (SourceFile.ofSource path s).listedNames.any (·.1 == name) = true :=
    List.any_eq_true.mpr ⟨_, hentry, beq_self_eq_true name⟩
  refine .follow (.inside file inner) ?_ ?_ ?_
  · rw [declared?_fromModule hm hf, if_pos hlisted]
  · rw [links_fromModule hm hf]
    exact List.mem_append_left _ (List.mem_map.mpr ⟨_, mem_filter_name hentry, rfl⟩)
  · intro n
    rw [answer_fromModule hm, lookupExport_succ hf, hlookup]
    rfl

/-- A turn for a name of a module that is not in its export list: the file declares the name,
passes it on by itself, or passes on all names of other modules. -/
theorem turn_unlisted (h : Settled fs p) (hm : fileOf? fs p m = some file)
    (hf : p.files[file]? = some (.ofSource path s)) {name : String}
    (hlookup : (SourceFile.ofSource path s).localExports.lookup name = none)
    (hentries : ∀ inner, (name, inner) ∉ (SourceFile.ofSource path s).listedNames) :
    Turn fs p (.fromModule m name) := by
  have hmem : SourceFile.ofSource path s ∈ p.files := List.mem_of_getElem? hf
  have hdeclared := declared?_fromModule hm hf name
  have hlinks := links_fromModule hm hf name
  -- without an entry in the export list, only what the file passes on is left
  rw [any_name_eq_false hentries, if_neg Bool.false_ne_true] at hdeclared
  rw [filter_name_eq_nil hentries, List.map_nil, List.nil_append] at hlinks
  cases hgroup : (SourceFile.ofSource path s).group? name with
  | some g =>
    rw [hgroup] at hdeclared
    refine .declared (g.symbol file) hdeclared ?_
    intro n
    rw [answer_fromModule hm, lookupExport_succ hf, hlookup, hgroup]
  | none =>
    rw [hgroup] at hdeclared
    refine .of_entries (fun link : Link => .fromModule link.module link.name) hdeclared hlinks ?_ ?_
    · intro link (hlink : (SourceFile.ofSource path s).reexports.lookup name = some link) n
      rw [answer_fromModule hm, lookupExport_succ hf, hlookup, hgroup, hlink]
      dsimp only
      rw [h.modules _ hmem link.module (SourceFile.mem_linkedModules_of_reexports hlink)]
      rfl
    · intro (hlink : (SourceFile.ofSource path s).reexports.lookup name = none) n
      rw [answer_fromModule hm, lookupExport_succ hf, hlookup, hgroup, hlink,
        stars_of_file? (file?_fromModule hm hf name), Question.starsIn, List.findSome?_map]
      refine findSome?_congr ?_
      intro m' hm'
      rw [h.modules _ hmem m' (SourceFile.mem_linkedModules_of_starExports hm')]
      rfl

end

/-- A turn for a name that is asked of a module. -/
theorem turn_fromModule (h : Settled fs p) {m : Path} {file : Nat} {f : SourceFile}
    (hm : fileOf? fs p m = some file) (hf : p.files[file]? = some f) (name : String) :
    Turn fs p (.fromModule m name) := by
  obtain ⟨path, s, rfl⟩ := h.indexed f (List.mem_of_getElem? hf)
  rcases Table.lookup_ofEntries_cases (SourceFile.ofSource path s).listedNames name with
    ⟨inner, hlookup, hentry⟩ | ⟨hlookup, hentries⟩
  · exact turn_listed hm hf hlookup hentry
  · exact turn_unlisted h hm hf hlookup hentries

/-- **What one turn of a search does is told by the sources.** -/
theorem turn (h : Settled fs p) (q : Question) : Turn fs p q := by
  cases hfile : q.file? fs p with
  | none => exact turn_of_file?_eq_none hfile
  | some found =>
    obtain ⟨file, f⟩ := found
    cases q with
    | inside i name =>
      obtain ⟨f', hf, heq⟩ := Option.map_eq_some_iff.mp hfile
      obtain ⟨rfl, rfl⟩ := Prod.mk.inj heq
      cases hdot : splitDot? name with
      | some parts => exact turn_dotted h hf hdot
      | none => exact turn_plain h hf hdot
    | fromModule m name =>
      obtain ⟨file', hm, hfound⟩ := Option.bind_eq_some_iff.mp hfile
      obtain ⟨f', hf, heq⟩ := Option.map_eq_some_iff.mp hfound
      exact turn_fromModule h hm hf name

end Program

end ElementManifest

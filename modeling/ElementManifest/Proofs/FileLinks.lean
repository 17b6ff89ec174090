import ElementManifest.Proofs.FileChanges
import ElementManifest.Proofs.RootFile

/-!
# What the links of a file are

A file keeps its links in tables, where the last entry of a name decides. What a table says
of a name is one of its entries, and it says something of every name that has one:

> `Table.lookup_ofEntries_cases`: the value of a name is one that was set.

So the modules that a file links to are specified in its source
(`moduleOf?_of_mem_linkedModules`), and its declarations of a name are those of the source
(`symbol_group?`).
-/

namespace ElementManifest

open ElementManifest.TypeScript

/-! ## Tables -/

namespace Table

variable {α : Type}

theorem ofEntries_concat (entries : List (String × α)) (e : String × α) :
    ofEntries (entries ++ [e]) = set e.1 e.2 (ofEntries entries) := by
  unfold ofEntries
  rw [List.foldl_append]
  rfl

theorem mem_set {name : String} {value : α} {table : List (String × α)} {e : String × α}
    (h : e ∈ set name value table) : e ∈ table ∨ e = (name, value) := by
  induction table with
  | nil => exact Or.inr (List.mem_singleton.mp h)
  | cons first table ih =>
    unfold set at h
    split at h
    next hname =>
      rcases List.mem_cons.mp h with rfl | h
      · exact Or.inr (by rw [eq_of_beq hname])
      · exact Or.inl (List.mem_cons_of_mem first h)
    next =>
      rcases List.mem_cons.mp h with rfl | h
      · exact Or.inl List.mem_cons_self
      · rcases ih h with hmem | heq
        · exact Or.inl (List.mem_cons_of_mem first hmem)
        · exact Or.inr heq

/-- A table has nothing but its entries. -/
theorem mem_ofEntries {entries : List (String × α)} {e : String × α}
    (h : e ∈ ofEntries entries) : e ∈ entries := by
  induction entries using List.reverseRecOn with
  | nil => cases h
  | append_singleton entries last ih =>
    rw [ofEntries_concat] at h
    rcases mem_set h with hmem | rfl
    · exact List.mem_append_left _ (ih hmem)
    · exact List.mem_append_right _ (List.mem_singleton_self _)

/-- The value of a name is one of its entries, and every name with an entry has a value. -/
theorem lookup_ofEntries_cases (entries : List (String × α)) (name : String) :
    (∃ value, (ofEntries entries).lookup name = some value ∧ (name, value) ∈ entries) ∨
      (ofEntries entries).lookup name = none ∧ ∀ value, (name, value) ∉ entries := by
  induction entries using List.reverseRecOn with
  | nil => exact Or.inr ⟨rfl, fun _ => List.not_mem_nil⟩
  | append_singleton entries last ih =>
    rw [ofEntries_concat]
    by_cases hname : name = last.1
    · subst hname
      exact Or.inl ⟨last.2, lookup_set_self _ _ _,
        List.mem_append_right _ (List.mem_singleton_self _)⟩
    · rw [lookup_set_of_ne hname]
      rcases ih with ⟨value, hlookup, hmem⟩ | ⟨hlookup, hnone⟩
      · exact Or.inl ⟨value, hlookup, List.mem_append_left _ hmem⟩
      · refine Or.inr ⟨hlookup, ?_⟩
        intro value hmem
        rcases List.mem_append.mp hmem with hmem | hmem
        · exact hnone value hmem
        · exact hname (congrArg Prod.fst (List.mem_singleton.mp hmem))

theorem mem_of_lookup {table : List (String × α)} {name : String} {value : α}
    (h : table.lookup name = some value) : (name, value) ∈ table := by
  obtain ⟨before, after, rfl, -⟩ := List.lookup_eq_some_iff.mp h
  exact List.mem_append_right _ List.mem_cons_self

end Table

/-! ## Links in a source -/

namespace SourceFile

/-- The names that a file brings in, in order. -/
def boundNames (f : SourceFile) : List (String × Link) :=
  f.source.items.flatMap (Item.importsFrom f.path.parent)

/-- The names that a file brings in for whole modules, in order. -/
def boundModules (f : SourceFile) : List (String × Path) :=
  f.source.items.flatMap (Item.namespacesFrom f.path.parent)

/-- The own names that a file exports, in order, each behind its exported name. -/
def listedNames (f : SourceFile) : List (String × String) :=
  f.source.items.flatMap Item.localExportsFrom

/-- The names of other modules that a file exports, in order. -/
def passedNames (f : SourceFile) : List (String × Link) :=
  f.source.items.flatMap (Item.reexportsFrom f.path.parent)

/-- The modules whose exports a file all passes on, in order. -/
def passedModules (f : SourceFile) : List Path :=
  f.source.items.filterMap (Item.starExportFrom f.path.parent)

/-- Whether a file brings in a name as a name of a module, renamed or not, or as its default
name. -/
inductive Binds (f : SourceFile) (name : String) (m : Path) : String → Prop
  | named {source specifiers parts imported} :
      Item.imports source specifiers parts ∈ f.source.items →
      moduleOf? f.path.parent source = some m →
      ImportSpecifier.named imported name ∈ specifiers → Binds f name m (imported.getD name)
  | default {source specifiers parts} :
      Item.imports source specifiers parts ∈ f.source.items →
      moduleOf? f.path.parent source = some m →
      ImportSpecifier.default name ∈ specifiers → Binds f name m "default"

/-- Whether a file brings in a name for a whole module. -/
inductive BindsAll (f : SourceFile) (name : String) (m : Path) : Prop
  | namespace {source specifiers parts} :
      Item.imports source specifiers parts ∈ f.source.items →
      moduleOf? f.path.parent source = some m →
      ImportSpecifier.namespace name ∈ specifiers → BindsAll f name m

theorem Binds.moduleOf? {f : SourceFile} {name e : String} {m : Path} (h : f.Binds name m e) :
    ∃ specifier, ElementManifest.moduleOf? f.path.parent specifier = some m := by
  cases h with
  | named hitem hm hspecifier => exact ⟨_, hm⟩
  | default hitem hm hspecifier => exact ⟨_, hm⟩

theorem mem_boundNames_iff {f : SourceFile} {name e : String} {m : Path} :
    (name, ⟨m, e⟩) ∈ f.boundNames ↔ f.Binds name m e := by
  constructor
  · intro h
    obtain ⟨item, hitem, h⟩ := List.mem_flatMap.mp h
    unfold Item.importsFrom at h
    split at h
    next source specifiers parts =>
      split at h
      next => cases h
      next module hm =>
        -- A specifier that binds everything binds no name of the module, so two kinds are left.
        obtain ⟨specifier, hspecifier, hlink⟩ := List.mem_filterMap.mp h
        split at hlink
        next imported localName =>
          obtain ⟨rfl, heq⟩ := Prod.mk.inj (Option.some.inj hlink)
          obtain ⟨rfl, rfl⟩ := Link.mk.inj heq
          exact .named hitem hm hspecifier
        next localName =>
          obtain ⟨rfl, heq⟩ := Prod.mk.inj (Option.some.inj hlink)
          obtain ⟨rfl, rfl⟩ := Link.mk.inj heq
          exact .default hitem hm hspecifier
        next => cases hlink
    next => cases h
  · intro h
    cases h with
    | named hitem hm hspecifier =>
      refine List.mem_flatMap.mpr ⟨_, hitem, ?_⟩
      simp only [Item.importsFrom, hm]
      exact List.mem_filterMap.mpr ⟨_, hspecifier, rfl⟩
    | default hitem hm hspecifier =>
      refine List.mem_flatMap.mpr ⟨_, hitem, ?_⟩
      simp only [Item.importsFrom, hm]
      exact List.mem_filterMap.mpr ⟨_, hspecifier, rfl⟩

theorem mem_boundModules_iff {f : SourceFile} {name : String} {m : Path} :
    (name, m) ∈ f.boundModules ↔ f.BindsAll name m := by
  constructor
  · intro h
    obtain ⟨item, hitem, h⟩ := List.mem_flatMap.mp h
    unfold Item.namespacesFrom at h
    split at h
    next source specifiers parts =>
      split at h
      next => cases h
      next m' hm =>
        obtain ⟨specifier, hspecifier, hlink⟩ := List.mem_filterMap.mp h
        split at hlink
        next localName =>
          obtain ⟨rfl, rfl⟩ := Prod.mk.inj (Option.some.inj hlink)
          exact .namespace hitem hm hspecifier
        next => cases hlink
    next => cases h
  · rintro ⟨hitem, hm, hspecifier⟩
    refine List.mem_flatMap.mpr ⟨_, hitem, ?_⟩
    simp only [Item.namespacesFrom, hm]
    exact List.mem_filterMap.mpr ⟨_, hspecifier, rfl⟩

/-- The declarations of a name in a file, as a symbol. -/
def symbol? (f : SourceFile) (file : Nat) (name : String) : Option Symbol :=
  match (f.source.typeDecls.filter (·.name == name)).map (·.decl) with
  | [] => none
  | d :: more => some ⟨file, name, d :: more⟩

/-- The group of a name in the index has its declarations in the source. -/
theorem symbol_group? (path : Path) (s : Source) (file : Nat) (name : String) :
    ((ofSource path s).group? name).map (·.symbol file) = (ofSource path s).symbol? file name := by
  have hfind := find?_declGroups s.typeDecls name
  show (s.declGroups.find? (·.name == name)).map _ = _
  unfold TypeScript.Source.declGroups symbol? ofSource
  rw [hfind]
  cases s.typeDecls.filter (·.name == name) with
  | nil => rfl
  | cons d more => rfl

theorem symbol?_eq_none {f : SourceFile} {name : String}
    (h : ∀ d ∈ f.source.typeDecls, d.name ≠ name) (file : Nat) : f.symbol? file name = none := by
  have hnone : f.source.typeDecls.filter (·.name == name) = [] :=
    List.filter_eq_nil_iff.mpr fun d hd heq => h d hd (eq_of_beq heq)
  unfold symbol?
  rw [hnone]
  rfl

end SourceFile

namespace TypeScript.Item

variable {item : Item} {dir : Path}

theorem moduleOf?_of_mem_reexportsFrom {e : String × Link} (h : e ∈ item.reexportsFrom dir) :
    ∃ specifier, moduleOf? dir specifier = some e.2.module := by
  unfold reexportsFrom at h
  split at h
  next source specifiers _ =>
    split at h
    next => cases h
    next module hmodule =>
      obtain ⟨pair, -, rfl⟩ := List.mem_map.mp h
      exact ⟨_, hmodule⟩
  next => cases h

theorem moduleOf?_of_starExportFrom {m : Path} (h : item.starExportFrom dir = some m) :
    ∃ specifier, moduleOf? dir specifier = some m := by
  unfold starExportFrom at h
  split at h
  next => exact ⟨_, h⟩
  next => cases h

end TypeScript.Item

/-- The modules that a file links to are specified in its source. -/
theorem moduleOf?_of_mem_linkedModules {path : Path} {s : Source} {m : Path}
    (h : m ∈ (SourceFile.ofSource path s).linkedModules) :
    ∃ specifier, moduleOf? path.parent specifier = some m := by
  unfold SourceFile.linkedModules SourceFile.ofSource at h
  simp only [List.mem_append, List.mem_map] at h
  rcases h with ((⟨e, he, rfl⟩ | ⟨e, he, rfl⟩) | ⟨e, he, rfl⟩) | hstar
  · have hbound : (e.1, ⟨e.2.module, e.2.name⟩) ∈ (SourceFile.ofSource path s).boundNames :=
      Table.mem_ofEntries he
    exact (SourceFile.mem_boundNames_iff.mp hbound).moduleOf?
  · obtain ⟨item, -, hitem⟩ := List.mem_flatMap.mp (Table.mem_ofEntries he)
    exact Item.moduleOf?_of_mem_reexportsFrom hitem
  · have hbound : (e.1, e.2) ∈ (SourceFile.ofSource path s).boundModules := Table.mem_ofEntries he
    obtain ⟨hitem, hm, hspecifier⟩ := SourceFile.mem_boundModules_iff.mp hbound
    exact ⟨_, hm⟩
  · obtain ⟨item, -, hitem⟩ := List.mem_filterMap.mp hstar
    exact Item.moduleOf?_of_starExportFrom hitem

/-- So they are paths in normal form. -/
theorem eq_normalize_of_mem_linkedModules {path : Path} {s : Source} {m : Path}
    (h : m ∈ (SourceFile.ofSource path s).linkedModules) : ∃ q : Path, m = q.normalize := by
  obtain ⟨specifier, hmodule⟩ := moduleOf?_of_mem_linkedModules h
  obtain ⟨text, -, htext⟩ := Option.bind_eq_some_iff.mp hmodule
  split at htext
  next => exact ⟨_, (Option.some.inj htext).symm⟩
  next => cases htext

/-! ## Links in the tables -/

namespace SourceFile

variable {f : SourceFile} {name : String}

theorem mem_linkedModules_of_imports {link : Link} (h : f.imports.lookup name = some link) :
    link.module ∈ f.linkedModules := by
  unfold linkedModules
  simp only [List.mem_append, List.mem_map]
  exact Or.inl (Or.inl (Or.inl ⟨_, Table.mem_of_lookup h, rfl⟩))

theorem mem_linkedModules_of_reexports {link : Link} (h : f.reexports.lookup name = some link) :
    link.module ∈ f.linkedModules := by
  unfold linkedModules
  simp only [List.mem_append, List.mem_map]
  exact Or.inl (Or.inl (Or.inr ⟨_, Table.mem_of_lookup h, rfl⟩))

theorem mem_linkedModules_of_namespaces {m : Path} (h : f.namespaces.lookup name = some m) :
    m ∈ f.linkedModules := by
  unfold linkedModules
  simp only [List.mem_append, List.mem_map]
  exact Or.inl (Or.inr ⟨_, Table.mem_of_lookup h, rfl⟩)

theorem mem_linkedModules_of_starExports {m : Path} (h : m ∈ f.starExports) :
    m ∈ f.linkedModules := by
  unfold linkedModules
  exact List.mem_append_right _ h

end SourceFile

end ElementManifest

import ElementManifest.Program.Lookup

/-!
# What searches have in common

A search for a name reads the tables of a file and goes on at the files that the links in them
lead to. Where two programs have the same links, a search takes the same way through both:

> `Program.SearchedAlike.search`: if the declarations of each file are related, so is what the
> searches find, in as many steps as one likes.

A program is searched as it is itself searched, so this also tells what a search finds:

> `Program.declaredIn_of_lookup`, `Program.declaredIn_of_findType`: what is found is declared in a
> file of the program.
-/

namespace ElementManifest

/-- Searches that end alike for each element end alike for the list. -/
theorem rel_findSome? {α β γ : Type} {R : β → γ → Prop} {f : α → Option β} {f' : α → Option γ}
    (h : ∀ x, Option.Rel R (f x) (f' x)) (xs : List α) :
    Option.Rel R (xs.findSome? f) (xs.findSome? f') := by
  induction xs with
  | nil => exact .none
  | cons x xs ih =>
    rw [List.findSome?_cons, List.findSome?_cons]
    have hx := h x
    generalize f x = b, f' x = b' at hx ⊢
    cases hx with
    | none => exact ih
    | some hR => exact .some hR

theorem rel_eq_iff {α : Type} {a b : Option α} : Option.Rel Eq a b ↔ a = b := by
  constructor
  · rintro (h | -)
    · rw [h]
    · rfl
  · rintro rfl
    cases a with
    | none => exact .none
    | some a => exact .some rfl

namespace Program

/-! ## The steps of a search -/

section

variable {p : Program} {file : Nat} {f : SourceFile}

theorem lookupInside_succ (hf : p.files[file]? = some f) (name : String) (n : Nat) :
    p.lookupInside (n + 1) file name =
      match splitDot? name with
      | some (ns, rest) => (f.namespaces.lookup ns).bind fun m =>
        (p.moduleFile? m).bind fun target => p.lookupExport n target rest
      | none => match f.group? name with
        | some g => some (g.symbol file)
        | none => (f.imports.lookup name).bind fun link =>
          (p.moduleFile? link.module).bind fun target => p.lookupExport n target link.name := by
  rw [lookupInside, hf]
  rfl

theorem lookupExport_succ (hf : p.files[file]? = some f) (name : String) (n : Nat) :
    p.lookupExport (n + 1) file name =
      match f.localExports.lookup name with
      | some inner => p.lookupInside n file inner
      | none => match f.group? name with
        | some g => some (g.symbol file)
        | none => match f.reexports.lookup name with
          | some link => (p.moduleFile? link.module).bind fun target =>
            p.lookupExport n target link.name
          | none => f.starExports.findSome? fun m =>
            (p.moduleFile? m).bind fun target => p.lookupExport n target name := by
  rw [lookupExport, hf]
  rfl

end

end Program

/-! ## Searches of two programs -/

/-- Two files with the same links, in one place of two programs. What they declare under a name
is related. -/
structure SourceFile.LinksAlike (R : Symbol → Symbol → Prop) (file : Nat)
    (f g : SourceFile) : Prop where
  imports : g.imports = f.imports
  namespaces : g.namespaces = f.namespaces
  localExports : g.localExports = f.localExports
  reexports : g.reexports = f.reexports
  starExports : g.starExports = f.starExports
  declared : ∀ name,
    Option.Rel R ((f.group? name).map (·.symbol file)) ((g.group? name).map (·.symbol file))

theorem SourceFile.linksAlike_self (f : SourceFile) (file : Nat) : f.LinksAlike Eq file f where
  imports := rfl
  namespaces := rfl
  localExports := rfl
  reexports := rfl
  starExports := rfl
  declared _ := rel_eq_iff.mpr rfl

theorem SourceFile.LinksAlike.declared_cases {R : Symbol → Symbol → Prop} {file : Nat}
    {f g : SourceFile} (h : f.LinksAlike R file g) (name : String) :
    (f.group? name = none ∧ g.group? name = none) ∨
      ∃ d e, f.group? name = some d ∧ g.group? name = some e ∧
        R (d.symbol file) (e.symbol file) := by
  have hrel := h.declared name
  cases hd : f.group? name with
  | none =>
    cases he : g.group? name with
    | none => exact Or.inl ⟨rfl, rfl⟩
    | some e =>
      rw [hd, he] at hrel
      cases hrel
  | some d =>
    cases he : g.group? name with
    | none =>
      rw [hd, he] at hrel
      cases hrel
    | some e =>
      rw [hd, he] at hrel
      cases hrel with
      | some hR => exact Or.inr ⟨d, e, rfl, rfl, hR⟩

namespace Program

/-- Two programs whose files link alike, as far as a search that starts `within` gets. -/
structure SearchedAlike (within : Nat → Prop) (R : Symbol → Symbol → Prop) (p q : Program) :
    Prop where
  modules : ∀ m, q.moduleFile? m = p.moduleFile? m
  stays : ∀ m file, p.moduleFile? m = some file → within file
  files : ∀ file, within file →
    Option.Rel (SourceFile.LinksAlike R file) p.files[file]? q.files[file]?

namespace SearchedAlike

variable {within : Nat → Prop} {R : Symbol → Symbol → Prop} {p q : Program}
  (h : p.SearchedAlike within R q)

include h

theorem file_cases {file : Nat} (hfile : within file) :
    (p.files[file]? = none ∧ q.files[file]? = none) ∨
      ∃ f g, p.files[file]? = some f ∧ q.files[file]? = some g ∧ f.LinksAlike R file g := by
  have hrel := h.files file hfile
  generalize p.files[file]? = o, q.files[file]? = o' at hrel ⊢
  cases hrel with
  | none => exact Or.inl ⟨rfl, rfl⟩
  | some hlinks => exact Or.inr ⟨_, _, rfl, rfl, hlinks⟩

theorem search (n : Nat) :
    (∀ file, within file → ∀ name,
      Option.Rel R (p.lookupInside n file name) (q.lookupInside n file name)) ∧
    ∀ file, within file → ∀ name,
      Option.Rel R (p.lookupExport n file name) (q.lookupExport n file name) := by
  induction n with
  | zero =>
    constructor
    · intro file _ name
      rw [lookupInside, lookupInside]
      exact .none
    · intro file _ name
      rw [lookupExport, lookupExport]
      exact .none
  | succ n ih =>
    obtain ⟨hinside, hexport⟩ := ih
    -- both searches follow a link to one file
    have hfollow (m : Path) (name : String) :
        Option.Rel R ((p.moduleFile? m).bind fun target => p.lookupExport n target name)
          ((q.moduleFile? m).bind fun target => q.lookupExport n target name) := by
      rw [h.modules]
      cases hm : p.moduleFile? m with
      | none => exact .none
      | some target => exact hexport target (h.stays m target hm) name
    constructor
    · intro file hfile name
      rcases h.file_cases hfile with ⟨hf, hg⟩ | ⟨f, g, hf, hg, hlinks⟩
      · rw [lookupInside, lookupInside, hf, hg]
        exact .none
      · rw [lookupInside_succ hf, lookupInside_succ hg, hlinks.imports, hlinks.namespaces]
        cases splitDot? name with
        | some parts =>
          dsimp only
          cases f.namespaces.lookup parts.1 with
          | none => exact .none
          | some m => exact hfollow m parts.2
        | none =>
          dsimp only
          rcases hlinks.declared_cases name with ⟨hd, he⟩ | ⟨d, e, hd, he, hR⟩
          · rw [hd, he]
            dsimp only
            cases f.imports.lookup name with
            | none => exact .none
            | some link => exact hfollow link.module link.name
          · rw [hd, he]
            exact .some hR
    · intro file hfile name
      rcases h.file_cases hfile with ⟨hf, hg⟩ | ⟨f, g, hf, hg, hlinks⟩
      · rw [lookupExport, lookupExport, hf, hg]
        exact .none
      · rw [lookupExport_succ hf, lookupExport_succ hg, hlinks.localExports, hlinks.reexports,
          hlinks.starExports]
        cases f.localExports.lookup name with
        | some inner => exact hinside file hfile inner
        | none =>
          dsimp only
          rcases hlinks.declared_cases name with ⟨hd, he⟩ | ⟨d, e, hd, he, hR⟩
          · rw [hd, he]
            dsimp only
            cases f.reexports.lookup name with
            | some link => exact hfollow link.module link.name
            | none => exact rel_findSome? (fun m => hfollow m name) f.starExports
          · rw [hd, he]
            exact .some hR

theorem lookup {file : Nat} (hfile : within file) (name : String) :
    Option.Rel R (p.lookup file name) (q.lookup file name) :=
  (h.search maxSteps).1 file hfile name

theorem findType {file : Nat} (hfile : within file) (name : String) :
    Option.Rel R (p.findType file name) (q.findType file name) := by
  have hlookup := h.lookup hfile name
  have hexport := (h.search maxSteps).2 file hfile name
  unfold Program.findType
  generalize p.lookup file name = s, q.lookup file name = t at hlookup ⊢
  cases hlookup with
  | none => exact hexport
  | some hR => exact .some hR

end SearchedAlike

end Program

/-! ## Declared symbols -/

/-- A symbol is a group of declarations of its file. -/
def Symbol.DeclaredIn (p : Program) (s : Symbol) : Prop :=
  ∃ f, p.files[s.file]? = some f ∧ (f.group? s.name).map (·.symbol s.file) = some s

theorem SourceFile.declaredIn_of_group? {p : Program} {f : SourceFile} {file : Nat}
    (hf : p.files[file]? = some f) {name : String} {g : DeclGroup}
    (hg : f.group? name = some g) : (g.symbol file).DeclaredIn p := by
  have hname : g.name = name := by simpa using List.find?_some hg
  refine ⟨f, hf, ?_⟩
  show (f.group? g.name).map _ = _
  rw [hname, hg]
  rfl

namespace Program

/-- A program is searched like itself, and both searches find what it declares. -/
theorem searchedAlike_self (p : Program) :
    p.SearchedAlike (fun _ => True) (fun s _ => s.DeclaredIn p) p where
  modules _ := rfl
  stays _ _ _ := trivial
  files file _ := by
    cases hf : p.files[file]? with
    | none => exact .none
    | some f =>
      refine .some ⟨rfl, rfl, rfl, rfl, rfl, fun name => ?_⟩
      cases hg : f.group? name with
      | none => exact .none
      | some g => exact .some (SourceFile.declaredIn_of_group? hf hg)

variable {p : Program} {file : Nat} {name : String} {s : Symbol}

theorem declaredIn_of_lookup (h : p.lookup file name = some s) : s.DeclaredIn p := by
  have hrel : Option.Rel _ (p.lookup file name) _ := p.searchedAlike_self.lookup trivial name
  rw [h] at hrel
  cases hrel with
  | some hdeclared => exact hdeclared

theorem declaredIn_of_findType (h : p.findType file name = some s) : s.DeclaredIn p := by
  have hrel : Option.Rel _ (p.findType file name) _ := p.searchedAlike_self.findType trivial name
  rw [h] at hrel
  cases hrel with
  | some hdeclared => exact hdeclared

end Program

end ElementManifest

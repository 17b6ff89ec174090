import ElementManifest.Proofs.Coverage
import ElementManifest.Proofs.DescriptionLines
import ElementManifest.Proofs.RootFile

/-!
# Well-formed shapes

What an extraction finds goes into a document as attributes, so each name has to
be there once, and no name or doc may be empty. That is kept in three ways:

> `WellFormed.addShapes`: shapes are collected one after the other, and a name that
> is there already is passed over.

> `WellFormed.apply`: a built-in type leaves properties out or changes whether they
> are optional; it never adds one.

> `Site.Orderly`: what names and parameters lead to is passed through as it is, so
> it has to be well formed before.

The last is an invariant of every place that an expansion gets to, by induction on
the scope for the parameters and on the room that is left for the symbols. The main
statement is `extract_well_formed`.
-/

namespace ElementManifest

open ElementManifest.Text ElementManifest.TypeScript ElementManifest.Expansion

/-- What holds for a property on its own: it has a name, and a doc only if that
says something. -/
structure Shape.Sound (s : Shape) : Prop where
  named : s.name ≠ ""
  documented : s.doc ≠ some ""

/-- What holds for the properties of a type together. -/
structure WellFormed (shapes : List Shape) : Prop where
  sound : ∀ s ∈ shapes, s.Sound
  distinct : (names shapes).Nodup

/-! ## Docs and names -/

theorem DocComment.description_ne_empty {body : List Char} {doc : String}
    (h : description body = some doc) : doc ≠ "" := by
  unfold description at h
  split at h
  next => cases h
  next hne =>
    cases hlines : descriptionLines body with
    | nil => exact absurd hlines hne
    | cons line rest =>
      have hline := head_ne_nil_of_dropEmptyEnds hlines
      rw [hlines] at h
      cases h
      intro hempty
      have hjoin := String.ofList_eq_empty_iff.mp hempty
      cases rest with
      | nil => exact hline hjoin
      | cons next rest =>
        simp only [joinWith, List.append_eq_nil_iff] at hjoin
        exact hline hjoin.1.1

theorem TypeScript.Source.docOf_ne_empty (s : Source) (p : Property) (place : Nat) :
    s.docOf p place ≠ some "" := by
  intro h
  have hmem := List.mem_of_getLast? h
  obtain ⟨comment, -, hdoc⟩ := List.mem_filterMap.mp hmem
  unfold DocComment.ofComment at hdoc
  split at hdoc
  next => cases hdoc
  next => exact DocComment.description_ne_empty hdoc rfl
  next => cases hdoc

theorem TypeScript.Property.name?_ne_empty {p : Property} {name : String}
    (h : p.name? = some name) : name ≠ "" := by
  unfold Property.name? at h
  simpa using (Option.filter_eq_some_iff.mp h).2

/-! ## Collecting shapes -/

theorem mem_addShape {shapes : List Shape} {s t : Shape} (h : t ∈ addShape shapes s) :
    t ∈ shapes ∨ t = s := by
  unfold addShape at h
  split at h
  next => exact Or.inl h
  next => simpa using h

theorem mem_addShapes {shapes more : List Shape} {t : Shape} (h : t ∈ addShapes shapes more) :
    t ∈ shapes ∨ t ∈ more := by
  induction more generalizing shapes with
  | nil => exact Or.inl h
  | cons s more ih =>
    rcases ih h with hshapes | hmore
    · rcases mem_addShape hshapes with hold | rfl
      · exact Or.inl hold
      · exact Or.inr (List.mem_cons_self ..)
    · exact Or.inr (List.mem_cons_of_mem _ hmore)

namespace WellFormed

theorem nil : WellFormed [] where
  sound := by simp
  distinct := List.nodup_nil

/-- Sound properties may be collected behind well-formed ones, whatever their names are. -/
theorem addShapes {shapes more : List Shape} (h : WellFormed shapes)
    (hmore : ∀ s ∈ more, s.Sound) : WellFormed (ElementManifest.addShapes shapes more) where
  sound s hs := (mem_addShapes hs).elim (h.sound s) (hmore s)
  distinct := nodup_names_addShapes more h.distinct

theorem filter {shapes : List Shape} (h : WellFormed shapes) (keep : Shape → Bool) :
    WellFormed (shapes.filter keep) where
  sound s hs := h.sound s (List.mem_filter.mp hs).1
  distinct := h.distinct.sublist (List.filter_sublist.map Shape.name)

theorem setOptional {shapes : List Shape} (h : WellFormed shapes) (optional : Bool) :
    WellFormed (shapes.map fun s => { s with optional := optional }) where
  sound := by
    intro s hs
    obtain ⟨t, ht, rfl⟩ := List.mem_map.mp hs
    exact ⟨(h.sound t ht).named, (h.sound t ht).documented⟩
  distinct := by
    unfold names
    rw [List.map_map]
    exact h.distinct

/-- A built-in type makes no property of its own. -/
theorem apply {shapes : List Shape} (h : WellFormed shapes) (u : Utility)
    (keys : Option (List String)) : WellFormed (u.apply shapes keys) := by
  cases u with
  | partialOf => exact h.setOptional true
  | requiredOf => exact h.setOptional false
  | readonlyOf => exact h
  | pick =>
    cases keys with
    | none => exact nil
    | some keys => exact h.filter _
  | leaveOut =>
    cases keys with
    | none => exact nil
    | some keys => exact h.filter _

end WellFormed

/-! ## As written -/

namespace AsWritten

variable (s : Source)

theorem sound_shapeOf {p : Property} {place : Nat} {shape : Shape}
    (h : shapeOf s p place = some shape) : shape.Sound := by
  unfold shapeOf at h
  obtain ⟨name, hname, hshape⟩ := Option.bind_eq_some_iff.mp h
  cases hshape
  exact ⟨Property.name?_ne_empty hname, s.docOf_ne_empty p place⟩

theorem wellFormed_addMembers {shapes : List Shape} (h : WellFormed shapes) (place : Nat)
    (members : List Member) : WellFormed (addMembers s shapes place members) := by
  refine h.addShapes ?_
  intro shape hshape
  obtain ⟨⟨p, lo⟩, -, hof⟩ := List.mem_filterMap.mp hshape
  exact sound_shapeOf s hof

theorem wellFormed_addBranch {shapes : List Shape} (h : WellFormed shapes) (branch : TypeNode) :
    WellFormed (addBranch s shapes branch) := by
  unfold addBranch
  split
  next span members _ => exact wellFormed_addMembers s h span.lo members
  next => exact h

theorem wellFormed_foldl_addBranch (branches : List TypeNode) {shapes : List Shape}
    (h : WellFormed shapes) : WellFormed (branches.foldl (addBranch s) shapes) := by
  induction branches generalizing shapes with
  | nil => exact h
  | cons branch branches ih => exact ih (wellFormed_addBranch s h branch)

theorem wellFormed_declShapes (d : TypeDecl) : WellFormed (declShapes s d) := by
  cases d with
  | interface d => exact wellFormed_addMembers s .nil d.bodyStart d.members
  | typeAlias d =>
    unfold declShapes
    dsimp only
    split
    next span members _ => exact wellFormed_addMembers s .nil span.lo members
    next branches _ => exact wellFormed_foldl_addBranch s branches .nil
    next => exact .nil

end AsWritten

/-! ## Types in a scope -/

namespace Expansion

/-- What a place must give for the types in it to be well formed: the arguments of its
parameters, and the symbols that names lead to, are well formed already. -/
structure Site.Orderly (site : Site) : Prop where
  meaning : ∀ name meaning, site.meaning name = some meaning → WellFormed (meaning.properties ())
  properties : ∀ symbol args, WellFormed (site.properties symbol args)

/-- The properties among members are sound, whatever the types in them are. -/
theorem sound_memberShapes (site : Site) (members : List Member) (place : Nat) :
    ∀ s ∈ memberShapes site place members, s.Sound := by
  intro s hs
  rw [memberShapes_eq_filterMap] at hs
  obtain ⟨sig, -, hof⟩ := List.mem_filterMap.mp hs
  obtain ⟨name, hname, rfl⟩ := Option.map_eq_some_iff.mp hof
  exact ⟨Property.name?_ne_empty hname, site.source.docOf_ne_empty sig.1 sig.2⟩

namespace Site.Orderly

variable {site : Site}

mutual

theorem propertiesOf (h : site.Orderly) : ∀ t : TypeNode, WellFormed (Expansion.propertiesOf site t)
  | .paren _ inner => by
    rw [Expansion.propertiesOf]
    exact h.propertiesOf inner
  | .object span members => by
    rw [Expansion.propertiesOf]
    exact WellFormed.nil.addShapes (sound_memberShapes site members span.lo)
  | .intersection _ branches => by
    rw [Expansion.propertiesOf]
    exact h.branchProperties branches .nil
  | .operator _ .readonly inner => by
    rw [Expansion.propertiesOf]
    exact h.propertiesOf inner
  | .reference _ name args => by
    rw [Expansion.propertiesOf]
    cases hmeaning : site.parameter? name args with
    | some meaning => exact h.meaning _ meaning (Site.meaning_of_parameter? hmeaning)
    | none =>
      dsimp only
      cases site.lookup name.text with
      | some symbol => exact h.properties symbol args
      | none => exact h.utilityProperties name.text args
  | .text .. | .keyword .. | .truth .. | .array .. | .tuple .. | .union ..
  | .operator _ .keyof _ | .operator _ .unique _ | .optional .. | .rest ..
  | .indexed .. | .other .. => by
    rw [Expansion.propertiesOf] <;> first | exact .nil | simp

theorem branchProperties (h : site.Orderly) :
    ∀ (ts : List TypeNode) {shapes : List Shape}, WellFormed shapes →
      WellFormed (Expansion.branchProperties site shapes ts)
  | [], _, hshapes => by
    rw [Expansion.branchProperties]
    exact hshapes
  | t :: ts, _, hshapes => by
    rw [Expansion.branchProperties]
    exact h.branchProperties ts (hshapes.addShapes (h.propertiesOf t).sound)

theorem utilityProperties (h : site.Orderly) (name : String) :
    ∀ args : List TypeNode, WellFormed (Expansion.utilityProperties site name args)
  | [] => by
    rw [Expansion.utilityProperties]
    exact .nil
  | [target] => by
    rw [Expansion.utilityProperties]
    cases Utility.ofName? name with
    | none => exact .nil
    | some u => exact (h.propertiesOf target).apply u none
  | target :: index :: _ => by
    rw [Expansion.utilityProperties]
    cases Utility.ofName? name with
    | none => exact .nil
    | some u => exact (h.propertiesOf target).apply u (some (keysOf site index))

end

theorem namedProperties (h : site.Orderly) (name : String) (args : List TypeNode) :
    WellFormed (Expansion.namedProperties site name args) := by
  unfold Expansion.namedProperties
  split
  next symbol _ => exact h.properties symbol args
  next => exact h.utilityProperties name args

theorem parentProperties (h : site.Orderly) (parent : Heritage) :
    WellFormed (Expansion.parentProperties site parent) := by
  unfold Expansion.parentProperties
  split
  next name _ => exact h.namedProperties name parent.args
  next => exact .nil

end Site.Orderly

/-! ## Symbols -/

section

variable (p : Program) {opener : Opener}
  (hopener : ∀ inside symbol args, WellFormed (opener.properties inside symbol args))
  (inside : OpenSymbols)

include hopener

/-- Every place is orderly whose symbols are: an argument stands in a smaller scope than
the parameter that is bound to it. -/
theorem orderly_siteAt (file : Nat) (scope : Scope) :
    (siteAt p opener inside file scope).Orderly := by
  suffices hmeaning : ∀ name meaning, meaningIn p opener inside scope name = some meaning →
      WellFormed (meaning.properties ()) from
    ⟨hmeaning, fun symbol args => hopener inside symbol ⟨file, scope, args⟩⟩
  induction scope generalizing file with
  | empty =>
    intro name meaning h
    rw [meaningIn] at h
    cases h
  | bind param argFile type around rest ih_around ih_rest =>
    intro name meaning h
    rw [meaningIn] at h
    split at h
    next =>
      cases h
      exact Site.Orderly.propertiesOf
        ⟨ih_around argFile, fun symbol args => hopener inside symbol ⟨argFile, around, args⟩⟩ type
    next => exact ih_rest file name meaning h

theorem sound_declProperties (file : Nat) (args : Arguments) (d : TypeDecl) :
    ∀ s ∈ declProperties p opener inside file args d, s.Sound := by
  intro s hs
  cases d with
  | interface d =>
    have hsite := orderly_siteAt p hopener inside file (bindParams file .empty d.params args)
    rcases List.mem_append.mp hs with hown | hparents
    · exact sound_memberShapes _ d.members d.bodyStart s hown
    · obtain ⟨parent, -, hparent⟩ := List.mem_flatMap.mp hparents
      exact (hsite.parentProperties parent).sound s hparent
  | typeAlias d =>
    have hsite := orderly_siteAt p hopener inside file (bindParams file .empty d.params args)
    exact (hsite.propertiesOf d.type).sound s hs

theorem wellFormed_openProperties (symbol : Symbol) (args : Arguments) :
    WellFormed (openProperties p opener inside symbol args) := by
  refine WellFormed.nil.addShapes ?_
  intro s hs
  obtain ⟨d, -, hd⟩ := List.mem_flatMap.mp hs
  exact sound_declProperties p hopener inside symbol.file args d s hd

end

/-- Whatever room is left, and whatever is open: a symbol has well-formed properties. -/
theorem wellFormed_openerWith (p : Program) (room : Nat) (inside : OpenSymbols) (symbol : Symbol)
    (args : Arguments) : WellFormed ((openerWith p room).properties inside symbol args) := by
  induction room generalizing inside symbol args with
  | zero => exact .nil
  | succ room ih =>
    show WellFormed ((inside.enter? symbol).elim [] fun inside =>
      openProperties p (openerWith p room) inside symbol args)
    cases inside.enter? symbol with
    | none => exact .nil
    | some deeper => exact wellFormed_openProperties p ih deeper symbol args

theorem wellFormed_symbolProperties (p : Program) (symbol : Symbol) :
    WellFormed (symbolProperties p symbol) :=
  wellFormed_openerWith p maxDepth .none symbol .none

end Expansion

/-! ## Extractions -/

theorem AsWritten.wellFormed_of_extract {path : Path} {text : String} {name : Option String}
    {shapes : List Shape} (h : AsWritten.extract path text name = .found shapes) :
    shapes ≠ [] ∧ WellFormed shapes := by
  cases name with
  | some name =>
    obtain ⟨s, d, -, -, -, rfl, hne⟩ := exists_decl_of_extract_some h
    exact ⟨hne, AsWritten.wellFormed_declShapes s d.decl⟩
  | none =>
    obtain ⟨s, d, -, -, -, rfl, hne⟩ := exists_decl_of_extract_none h
    exact ⟨hne, AsWritten.wellFormed_declShapes s d.decl⟩

namespace Context

variable (c : Context)

theorem wellFormed_namedShapes (name : String) : WellFormed (c.namedShapes name) := by
  unfold namedShapes
  cases c.program.findType rootFile name with
  | none => exact .nil
  | some symbol => exact wellFormed_symbolProperties c.program symbol

theorem wellFormed_of_firstConfigType {name : String} {shapes : List Shape}
    (h : c.firstConfigType = some (name, shapes)) : shapes ≠ [] ∧ WellFormed shapes := by
  obtain ⟨symbol, -, rfl, hne⟩ := exists_symbol_of_firstConfigType h
  exact ⟨hne, wellFormed_symbolProperties c.program symbol⟩

theorem wellFormed_of_extract {name : Option String} {shapes : List Shape}
    (h : c.extract name = .found shapes) : shapes ≠ [] ∧ WellFormed shapes := by
  obtain ⟨hshapes, hne⟩ := ofShapes_eq_found_iff.mp h
  refine ⟨hne, ?_⟩
  rw [← hshapes]
  cases name with
  | some name => exact c.wellFormed_namedShapes name
  | none =>
    unfold Context.shapes
    cases hfirst : c.firstConfigType with
    | none => exact .nil
    | some found => exact (c.wellFormed_of_firstConfigType hfirst).2

end Context

/-- **Every extraction yields well-formed shapes.** Whatever is found, as written or with
names resolved, for a name or as the first configuration type: there is something, each
property has a name, no name is there twice, and no doc is empty. -/
theorem extract_well_formed :
    (∀ path text name shapes, AsWritten.extract path text name = .found shapes →
      shapes ≠ [] ∧ WellFormed shapes) ∧
    ∀ c : Context,
      (∀ name shapes, c.extract name = .found shapes → shapes ≠ [] ∧ WellFormed shapes) ∧
      ∀ name shapes, c.firstConfigType = some (name, shapes) →
        shapes ≠ [] ∧ WellFormed shapes := by
  refine ⟨?_, ?_⟩
  · intro path text name shapes h
    exact AsWritten.wellFormed_of_extract h
  · intro c
    exact ⟨fun name shapes h => c.wellFormed_of_extract h,
      fun name shapes h => c.wellFormed_of_firstConfigType h⟩

/-- A type in which every source of properties says `a` or `b` again: two declarations of
one interface, its parent, a parameter behind built-in types, and the branches. -/
def repeatingText : String :=
  "interface P \x7b a; b; 'c d' \x7d\ninterface I extends P \x7b /** */ a; a? \x7d\n" ++
    "interface I \x7b b; '' \x7d\ntype G<T> = Partial<Readonly<T & \x7b e; a \x7d>>\n" ++
    "export type XConfigType = I & G<Omit<P, 'b'>> & \x7b b; /** F. */ f \x7d"

/-- Each of its names is found once; as written, only the last branch is there. -/
theorem extract_well_formed_repeating :
    ∃ c shapes written,
      Context.build (oneFile repeatingText) onePath repeatingText = .ok c ∧
      (c.firstConfigType = some ("XConfigType", shapes) ∧ names shapes = ["a", "b", "c d", "e", "f"] ∧
        WellFormed shapes) ∧
      AsWritten.extract onePath repeatingText none = .found written ∧ names written = ["b", "f"] ∧
        WellFormed written := by
  have hany : (oneContext? repeatingText).any (fun c =>
      (c.program.files.map SourceFile.source).all
          (fun s => names (AsWritten.firstShapes s) = ["b", "f"]) &&
        c.firstConfigType.any fun found =>
          found.1 = "XConfigType" && names found.2 = ["a", "b", "c d", "e", "f"]) = true := by
    decide +kernel
  obtain ⟨c, hc, hall⟩ := Option.any_eq_true _ _ |>.mp hany
  rw [Bool.and_eq_true] at hall
  obtain ⟨hwritten, hfirst⟩ := hall
  obtain ⟨s, hs, hwritten⟩ := exists_source_of_oneContext? hc hwritten
  have hwritten := of_decide_eq_true hwritten
  obtain ⟨⟨name, shapes⟩, hfirst, hfound⟩ := Option.any_eq_true _ _ |>.mp hfirst
  rw [Bool.and_eq_true] at hfound
  obtain rfl : name = "XConfigType" := of_decide_eq_true hfound.1
  have hextract : AsWritten.extract onePath repeatingText none =
      .found (AsWritten.firstShapes s) := by
    rw [AsWritten.extract_of_read hs]
    refine ofShapes_eq_found_iff.mpr ⟨rfl, ?_⟩
    intro hnil
    rw [hnil] at hwritten
    cases hwritten
  refine ⟨_, shapes, _, build_of_oneContext? hc, ⟨hfirst, of_decide_eq_true hfound.2, ?_⟩,
    hextract, hwritten, ?_⟩
  · exact ((extract_well_formed.2 _).2 _ _ hfirst).2
  · exact (extract_well_formed.1 _ _ _ _ hextract).2

end ElementManifest

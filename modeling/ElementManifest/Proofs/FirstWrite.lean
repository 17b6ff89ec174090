import ElementManifest.Proofs.Growth
import Mathlib.Data.List.Nodup

/-!
# First write wins

Two calls change a document: a registration, and a merge of attributes. They look for their
declaration in three ways, by class, by tag, or not at all, and a document may hold anything
to begin with, doubles too. Still every call leaves what is there:

> `keeps_call`: what one call keeps, declaration by declaration, and what it counts.

Of attributes with one name the first to come stays, whether it was there before the call or
stands before the others in the call itself:

> `find?_newAttributes`: the attribute of a name is the first one of all that were written.

So names that are distinct at the start of a run of calls are distinct at its end
(`calls_first_write_wins`).
-/

namespace ElementManifest

/-- A call that changes a document. -/
inductive RegistryCall
  | register (r : Registration)
  | merge (className tag : Option String) (more : List Attribute)

namespace ModuleDocument

/-- The document after a call, and how many attributes the call says that it has added. A
registration adds none. -/
def call (doc : ModuleDocument) : RegistryCall → ModuleDocument × Nat
  | .register r => (doc.register r, 0)
  | .merge className tag more => doc.merge className tag more

/-- The document after calls, one after the other. -/
def calls (doc : ModuleDocument) (cs : List RegistryCall) : ModuleDocument :=
  cs.foldl (fun doc c => (doc.call c).1) doc

/-- The names of the classes that are declared, in order. -/
def classNames (doc : ModuleDocument) : List String :=
  doc.declarations.filterMap (·.name)

/-- How many attributes there are in all declarations. -/
def attributeCount (doc : ModuleDocument) : Nat :=
  (doc.declarations.flatMap (·.attributes)).length

/-- No declaration has two attributes of one name. -/
def AttributesDistinct (doc : ModuleDocument) : Prop :=
  ∀ d ∈ doc.declarations, (d.attributes.map (·.name)).Nodup

/-- The tag that the declaration `d` at a place has after a call. Only the registration of a
class gives a tag, and only to the first declaration with the name of the class. -/
def tagAfter (doc : ModuleDocument) (place : Nat) (d : Declaration) :
    RegistryCall → Option String
  | .register ⟨tag, some name⟩ =>
    if doc.declarations.findIdx? (·.name == some name) = some place then some tag else d.tagName
  | _ => d.tagName

/-! ## Tags -/

theorem getElem?_setTag (name tag : String) {ds : List Declaration} {n : Nat} {d : Declaration}
    (hd : ds[n]? = some d) :
    (setTag name tag ds)[n]? = some { d with
      tagName := if ds.findIdx? (·.name == some name) = some n then some tag else d.tagName } := by
  induction ds generalizing n with
  | nil => cases hd
  | cons e ds ih =>
    unfold setTag
    rw [List.findIdx?_cons]
    by_cases hname : (e.name == some name) = true
    · rw [if_pos hname, if_pos hname]
      cases n with
      | zero =>
        obtain rfl : e = d := Option.some.inj hd
        rfl
      | succ n =>
        rw [if_neg (by simp)]
        exact hd
    · rw [if_neg hname, if_neg hname]
      cases n with
      | zero =>
        obtain rfl : e = d := Option.some.inj hd
        rw [if_neg (by simp)]
        rfl
      | succ n =>
        -- behind the head, the positions are those in the tail with one more
        have hshift : (ds.findIdx? (·.name == some name)).map (· + 1) = some (n + 1) ↔
            ds.findIdx? (·.name == some name) = some n := by simp
        simp only [hshift]
        exact ih hd

theorem attributes_setTag (name tag : String) (ds : List Declaration) :
    (setTag name tag ds).flatMap (·.attributes) = ds.flatMap (·.attributes) := by
  induction ds with
  | nil => rfl
  | cons d ds ih =>
    unfold setTag
    by_cases hname : (d.name == some name) = true
    · rw [if_pos hname]
      rfl
    · rw [if_neg hname, List.flatMap_cons, List.flatMap_cons, ih]

theorem names_setTag (name tag : String) (ds : List Declaration) :
    (setTag name tag ds).filterMap (·.name) =
      if name ∈ ds.filterMap (·.name) then ds.filterMap (·.name)
      else ds.filterMap (·.name) ++ [name] := by
  induction ds with
  | nil => rfl
  | cons d ds ih =>
    unfold setTag
    by_cases hname : d.name = some name
    · rw [if_pos (beq_iff_eq.mpr hname)]
      simp [hname]
    · rw [if_neg (fun h => hname (beq_iff_eq.mp h))]
      cases hd : d.name with
      | none => simp only [List.filterMap_cons, hd, ih]
      | some other =>
        have hne : name ≠ other := fun h => hname (hd.trans (congrArg some h.symm))
        simp only [List.filterMap_cons, hd, ih, List.mem_cons, hne, false_or]
        split
        next => rfl
        next => rfl

theorem mem_setTag {name tag : String} {ds : List Declaration} {f : Declaration}
    (hf : f ∈ setTag name tag ds) : f.attributes = [] ∨ ∃ d ∈ ds, f.attributes = d.attributes := by
  induction ds with
  | nil =>
    rw [setTag, List.mem_singleton] at hf
    exact Or.inl (hf ▸ rfl)
  | cons d ds ih =>
    unfold setTag at hf
    split at hf
    next =>
      rcases List.mem_cons.mp hf with rfl | hf
      · exact Or.inr ⟨d, List.mem_cons_self, rfl⟩
      · exact Or.inr ⟨f, List.mem_cons_of_mem d hf, rfl⟩
    next =>
      rcases List.mem_cons.mp hf with rfl | hf
      · exact Or.inr ⟨f, List.mem_cons_self, rfl⟩
      · rcases ih hf with hnil | ⟨e, he, heq⟩
        · exact Or.inl hnil
        · exact Or.inr ⟨e, List.mem_cons_of_mem d he, heq⟩

/-! ## Attributes of one name -/

/-- The attribute of a name is the first one that was written under it. -/
theorem find?_newAttributes (known more : List Attribute) (name : String) :
    (known ++ newAttributes known more).find? (·.name == name) =
      (known ++ more).find? (·.name == name) := by
  induction more generalizing known with
  | nil => rfl
  | cons a more ih =>
    unfold newAttributes
    by_cases hany : known.any (·.name == a.name) = true
    · rw [if_pos hany, ih, List.find?_append, List.find?_append, List.find?_cons]
      by_cases ha : a.name = name
      · -- an attribute of this name is known already
        obtain ⟨b, hb, hname⟩ := List.any_eq_true.mp hany
        have hsome : (known.find? (·.name == name)).isSome = true :=
          List.find?_isSome.mpr ⟨b, hb, ha ▸ hname⟩
        rw [Option.or_of_isSome hsome, Option.or_of_isSome hsome]
      · rw [beq_eq_false_iff_ne.mpr ha]
    · rw [if_neg hany, List.append_cons known a, ih, ← List.append_cons]

theorem nodup_names_newAttributes {known : List Attribute} (more : List Attribute)
    (h : (known.map (·.name)).Nodup) :
    ((known ++ newAttributes known more).map (·.name)).Nodup := by
  induction more generalizing known with
  | nil =>
    rw [newAttributes, List.append_nil]
    exact h
  | cons a more ih =>
    unfold newAttributes
    by_cases hany : known.any (·.name == a.name) = true
    · rw [if_pos hany]
      exact ih h
    · rw [if_neg hany, List.append_cons]
      refine ih ?_
      have hfresh : a.name ∉ known.map (·.name) := by
        intro hmem
        obtain ⟨b, hb, hname⟩ := List.mem_map.mp hmem
        exact hany (List.any_eq_true.mpr ⟨b, hb, beq_iff_eq.mpr hname⟩)
      rw [List.map_append, List.map_singleton]
      exact List.nodup_append.mpr ⟨h, List.nodup_singleton _, by simpa using hfresh⟩

/-! ## Merging -/

theorem length_attributes_modify (new : List Attribute) {ds : List Declaration} {n : Nat}
    {d : Declaration} (hd : ds[n]? = some d) :
    ((ds.modify n (append new)).flatMap (·.attributes)).length =
      (ds.flatMap (·.attributes)).length + new.length := by
  induction ds generalizing n with
  | nil => cases hd
  | cons e ds ih =>
    cases n with
    | zero =>
      simp only [List.modify_zero_cons, List.flatMap_cons, List.length_append, append]
      omega
    | succ n =>
      simp only [List.modify_succ_cons, List.flatMap_cons, List.length_append,
        ih (n := n) hd]
      omega

/-- The declaration that attributes belong to is found again once they are merged. -/
theorem position?_modify (doc : ModuleDocument) (className tag : Option String) (n : Nat)
    (new : List Attribute) :
    position? { doc with declarations := doc.declarations.modify n (append new) }
      className tag = doc.position? className tag := by
  have hname : ∀ name, (doc.declarations.modify n (append new)).findIdx? (·.name == some name) =
      doc.declarations.findIdx? (·.name == some name) := by
    intro name
    have hmap := congrArg (List.findIdx? (· == some name))
      (map_modify_append (·.name) new (fun _ => rfl) doc.declarations n)
    rw [List.findIdx?_map, List.findIdx?_map] at hmap
    exact hmap
  have htag : ∀ t, (doc.declarations.modify n (append new)).findIdx? (·.tagName == some t) =
      doc.declarations.findIdx? (·.tagName == some t) := by
    intro t
    have hmap := congrArg (List.findIdx? (· == some t))
      (map_modify_append (·.tagName) new (fun _ => rfl) doc.declarations n)
    rw [List.findIdx?_map, List.findIdx?_map] at hmap
    exact hmap
  unfold position?
  simp only [hname, htag]

/-- A merge that is repeated at once adds nothing. -/
theorem merge_again (doc : ModuleDocument) (className tag : Option String)
    (more : List Attribute) :
    (doc.merge className tag more).1.merge className tag more =
      ((doc.merge className tag more).1, 0) := by
  rcases merge_cases doc className tag more with ⟨hnone, hmerge⟩ | ⟨n, d, hn, hd, hmerge⟩
  · rw [hmerge, hmerge]
  · rw [hmerge]
    have hposition := position?_modify doc className tag n (newAttributes d.attributes more)
    have hthere : (doc.declarations.modify n (append (newAttributes d.attributes more)))[n]? =
        some (append (newAttributes d.attributes more) d) := by
      rw [List.getElem?_modify, hd]
      simp
    have hnothing :
        newAttributes (append (newAttributes d.attributes more) d).attributes more = [] :=
      newAttributes_eq_nil (mem_names_newAttributes d.attributes more)
    rw [merge_eq (hposition.trans hn) hthere, hnothing, modify_append_nil]
    rfl

/-- A merge declares no class. -/
theorem classNames_merge (doc : ModuleDocument) (className tag : Option String)
    (more : List Attribute) : (doc.merge className tag more).1.classNames = doc.classNames := by
  rcases merge_cases doc className tag more with ⟨-, hmerge⟩ | ⟨n, d, -, -, hmerge⟩
  · rw [hmerge]
  · rw [hmerge]
    have hnames := map_modify_append (·.name) (newAttributes d.attributes more) (fun _ => rfl)
      doc.declarations n
    have hkept := congrArg (List.filterMap id) hnames
    rw [List.filterMap_map, List.filterMap_map] at hkept
    exact hkept

/-! ## One call -/

/-- What a call keeps of a document, and what it counts. -/
structure Keeps (doc : ModuleDocument) (c : RegistryCall) : Prop where
  kind_eq : (doc.call c).1.kind = doc.kind
  path_eq : (doc.call c).1.path = doc.path
  /-- Every declaration stays at its place with its kind and its name. Its tag is overwritten
  only if it is the first one of the class, and its attributes stay in front. -/
  declaration : ∀ (n : Nat) (d : Declaration), doc.declarations[n]? = some d → ∃ f : Declaration,
    (doc.call c).1.declarations[n]? = some f ∧ f.kind = d.kind ∧ f.name = d.name ∧
      f.tagName = doc.tagAfter n d c ∧ d.attributes <+: f.attributes
  /-- The count is that of the attributes added to the whole document. -/
  count_eq : (doc.call c).1.attributeCount = doc.attributeCount + (doc.call c).2
  /-- In the declaration of a merge the first attribute of a name is the one that counts. -/
  first_write : ∀ className tag more, c = .merge className tag more →
    ∀ (n : Nat) (d : Declaration), doc.position? className tag = some n →
      doc.declarations[n]? = some d → ∃ f : Declaration,
        (doc.call c).1.declarations[n]? = some f ∧ ∀ name,
          f.attributes.find? (·.name == name) = (d.attributes ++ more).find? (·.name == name)
  /-- A merge that is repeated at once adds nothing and changes nothing. -/
  again : ∀ className tag more, c = .merge className tag more →
    (doc.call c).1.call c = ((doc.call c).1, 0)

theorem keeps_register (doc : ModuleDocument) (r : Registration) : doc.Keeps (.register r) where
  kind_eq := rfl
  path_eq := rfl
  declaration := by
    intro n d hd
    obtain ⟨tag, _ | name⟩ := r
    · have hlt : n < doc.declarations.length := (List.getElem?_eq_some_iff.mp hd).1
      refine ⟨d, ?_, rfl, rfl, rfl, List.prefix_refl _⟩
      exact (List.getElem?_append_left hlt).trans hd
    · exact ⟨_, getElem?_setTag name tag hd, rfl, rfl, rfl, List.prefix_refl _⟩
  count_eq := by
    obtain ⟨tag, _ | name⟩ := r
    · show ((doc.declarations ++ [Declaration.ofTag tag]).flatMap (·.attributes)).length = _
      rw [List.flatMap_append]
      exact congrArg List.length (List.append_nil _)
    · exact congrArg List.length (attributes_setTag name tag doc.declarations)
  first_write := nofun
  again := nofun

theorem keeps_merge (doc : ModuleDocument) (className tag : Option String)
    (more : List Attribute) : doc.Keeps (.merge className tag more) := by
  have hcases := merge_cases doc className tag more
  -- a call changes one declaration at most, and only adds attributes to it
  have hkept : ∀ (n : Nat) (d : Declaration), doc.declarations[n]? = some d → ∃ f : Declaration,
      (doc.merge className tag more).1.declarations[n]? = some f ∧ f.kind = d.kind ∧
        f.name = d.name ∧ f.tagName = d.tagName ∧ d.attributes <+: f.attributes := by
    intro n d hd
    rcases hcases with ⟨-, hmerge⟩ | ⟨m, e, -, -, hmerge⟩
    · rw [hmerge]
      exact ⟨d, hd, rfl, rfl, rfl, List.prefix_refl _⟩
    · rw [hmerge]
      dsimp only
      rw [List.getElem?_modify, hd]
      by_cases hm : m = n
      · simp only [if_pos hm]
        exact ⟨_, rfl, rfl, rfl, rfl, List.prefix_append _ _⟩
      · simp only [if_neg hm]
        exact ⟨d, rfl, rfl, rfl, rfl, List.prefix_refl _⟩
  refine ⟨?_, ?_, hkept, ?_, ?_, ?_⟩
  · show (doc.merge className tag more).1.kind = doc.kind
    rcases hcases with ⟨-, hmerge⟩ | ⟨n, d, -, -, hmerge⟩
    · rw [hmerge]
    · rw [hmerge]
  · show (doc.merge className tag more).1.path = doc.path
    rcases hcases with ⟨-, hmerge⟩ | ⟨n, d, -, -, hmerge⟩
    · rw [hmerge]
    · rw [hmerge]
  · show (doc.merge className tag more).1.attributeCount = _ + (doc.merge className tag more).2
    rcases hcases with ⟨-, hmerge⟩ | ⟨n, d, -, hd, hmerge⟩
    · rw [hmerge]
      rfl
    · rw [hmerge]
      exact length_attributes_modify _ hd
  · rintro _ _ _ ⟨⟩ n d hn hd
    refine ⟨append (newAttributes d.attributes more) d, ?_, find?_newAttributes _ _⟩
    show (doc.merge className tag more).1.declarations[n]? = _
    rw [merge_eq hn hd]
    dsimp only
    rw [List.getElem?_modify, hd]
    simp
  · rintro _ _ _ ⟨⟩
    exact merge_again doc className tag more

/-- What one call keeps. -/
theorem keeps_call (doc : ModuleDocument) (c : RegistryCall) : doc.Keeps c := by
  cases c with
  | register r => exact keeps_register doc r
  | merge className tag more => exact keeps_merge doc className tag more

theorem nodup_classNames_call {doc : ModuleDocument} (h : doc.classNames.Nodup)
    (c : RegistryCall) : (doc.call c).1.classNames.Nodup := by
  cases c with
  | register r =>
    obtain ⟨tag, _ | name⟩ := r
    · show ((doc.declarations ++ [Declaration.ofTag tag]).filterMap (·.name)).Nodup
      rw [List.filterMap_append]
      exact (List.append_nil _).symm ▸ h
    · show ((setTag name tag doc.declarations).filterMap (·.name)).Nodup
      rw [names_setTag]
      split
      next => exact h
      next hfresh =>
        refine List.nodup_append.mpr ⟨h, List.nodup_singleton _, ?_⟩
        rintro other hother _ hname rfl
        exact hfresh (List.mem_singleton.mp hname ▸ hother)
  | merge className tag more =>
    show (doc.merge className tag more).1.classNames.Nodup
    rw [classNames_merge]
    exact h

theorem attributesDistinct_call {doc : ModuleDocument} (h : doc.AttributesDistinct)
    (c : RegistryCall) : (doc.call c).1.AttributesDistinct := by
  intro f hf
  cases c with
  | register r =>
    obtain ⟨tag, _ | name⟩ := r
    · rcases List.mem_append.mp hf with hf | hf
      · exact h f hf
      · rw [List.mem_singleton.mp hf]
        exact List.nodup_nil
    · rcases mem_setTag hf with hnil | ⟨d, hd, heq⟩
      · rw [hnil]
        exact List.nodup_nil
      · rw [heq]
        exact h d hd
  | merge className tag more =>
    change f ∈ (doc.merge className tag more).1.declarations at hf
    rcases merge_cases doc className tag more with ⟨-, hmerge⟩ | ⟨n, d, -, hd, hmerge⟩
    · rw [hmerge] at hf
      exact h f hf
    · rw [hmerge] at hf
      obtain ⟨i, hi⟩ := List.mem_iff_getElem?.mp hf
      rw [List.getElem?_modify] at hi
      obtain ⟨e, he, rfl⟩ := Option.map_eq_some_iff.mp hi
      -- only the declaration of the class gets new attributes, with names that it does not have
      by_cases hn : n = i
      · obtain rfl : e = d := Option.some.inj ((hn ▸ he).symm.trans hd)
        rw [if_pos hn]
        exact nodup_names_newAttributes more (h e (List.mem_of_getElem? he))
      · rw [if_neg hn]
        exact h e (List.mem_of_getElem? he)

/-! ## All calls -/

/-- **First write wins.** Whatever a document holds and whatever the calls are: a declaration
stays where it is with its kind, its name and its attributes in front; names of classes that
are distinct stay so, and so do the names of attributes in each declaration; and every single
call keeps and counts what it should. -/
theorem calls_first_write_wins (doc : ModuleDocument) (cs : List RegistryCall) :
    (∀ (n : Nat) (d : Declaration), doc.declarations[n]? = some d → ∃ f : Declaration,
      (doc.calls cs).declarations[n]? = some f ∧ f.kind = d.kind ∧ f.name = d.name ∧
        d.attributes <+: f.attributes) ∧
    (doc.classNames.Nodup → (doc.calls cs).classNames.Nodup) ∧
    (doc.AttributesDistinct → (doc.calls cs).AttributesDistinct) ∧
    ∀ done c todo, cs = done ++ c :: todo → (doc.calls done).Keeps c := by
  refine ⟨?_, ?_, ?_, fun done c _ _ => keeps_call _ c⟩
  · induction cs generalizing doc with
    | nil => exact fun n d hd => ⟨d, hd, rfl, rfl, List.prefix_refl _⟩
    | cons c cs ih =>
      intro n d hd
      obtain ⟨e, he, hkind, hname, -, hprefix⟩ := (keeps_call doc c).declaration n d hd
      obtain ⟨f, hf, hkind', hname', hprefix'⟩ := ih (doc.call c).1 n e he
      exact ⟨f, hf, hkind'.trans hkind, hname'.trans hname, hprefix.trans hprefix'⟩
  · intro h
    induction cs generalizing doc with
    | nil => exact h
    | cons c cs ih => exact ih (doc.call c).1 (nodup_classNames_call h c)
  · intro h
    induction cs generalizing doc with
    | nil => exact h
    | cons c cs ih => exact ih (doc.call c).1 (attributesDistinct_call h c)

/-- An attribute with a text as its value. -/
def textAttribute (name type : String) : Attribute :=
  ⟨name, type, .string, .string, "", false⟩

/-- A document in which someone has written an attribute of a class by hand. -/
def handWritten : ModuleDocument :=
  ⟨"javascript-module", "a.ts",
    [⟨.classDecl, some "A", none, [textAttribute "open" "'Custom'"]⟩]⟩

/-- A registration of the class, and a merge that carries each name twice. -/
def doubledNames : List RegistryCall :=
  [.register ⟨"x-a", some "A"⟩,
    .merge none (some "x-a") [textAttribute "open" "string", textAttribute "size" "A",
      textAttribute "size" "B", textAttribute "open" "number"]]

/-- Each name is there once, with the type that was written first. -/
theorem calls_first_write_wins_doubled_names :
    handWritten.classNames.Nodup ∧ handWritten.AttributesDistinct ∧
      (handWritten.calls doubledNames).classNames.Nodup ∧
      (handWritten.calls doubledNames).AttributesDistinct ∧
      ∃ f : Declaration, (handWritten.calls doubledNames).declarations[0]? = some f ∧
        [textAttribute "open" "'Custom'"] <+: f.attributes ∧
        f.attributes.map (·.type) = ["'Custom'", "A"] := by
  have hclasses : handWritten.classNames.Nodup := by decide
  have hattributes : handWritten.AttributesDistinct := by
    intro d hd
    rw [List.mem_singleton.mp hd]
    exact List.nodup_singleton _
  obtain ⟨hkept, hclasses', hattributes', -⟩ :=
    calls_first_write_wins handWritten doubledNames
  obtain ⟨f, hf, -, -, hprefix⟩ := hkept 0 _ rfl
  refine ⟨hclasses, hattributes, hclasses' hclasses, hattributes' hattributes, f, hf, hprefix, ?_⟩
  have htypes : (handWritten.calls doubledNames).declarations[0]?.map
      (fun d => d.attributes.map (·.type)) = some ["'Custom'", "A"] := by decide
  rw [hf] at htypes
  exact Option.some.inj htypes

end ModuleDocument

end ElementManifest

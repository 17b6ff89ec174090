import ElementManifest.Manifest.Registry
import Mathlib.Data.List.Basic

/-!
# How a module document grows

Registering an element and adding attributes to it leave every declaration where it is.
Its kind and its name stay, its attributes only get more, and its tag changes only if it
has a name:

> `growsTo_register`, `growsTo_merge`: what becomes of the declarations.

A registration in full, `enter`, does both. It adds the attributes to a declaration that is
certainly there, the first one that it `owns`, and that declaration has all of them
afterwards:

> `exists_owned_enter`: the names of all attributes of a registration are found in it.
-/

namespace ElementManifest

/-! ## What stays of a declaration -/

/-- What a declaration can become by registrations and new attributes. -/
structure Declaration.Grows (d f : Declaration) : Prop where
  kind_eq : f.kind = d.kind
  name_eq : f.name = d.name
  tag_eq : d.name = none → f.tagName = d.tagName
  attributes_prefix : d.attributes <+: f.attributes

theorem Declaration.Grows.refl (d : Declaration) : d.Grows d :=
  ⟨rfl, rfl, fun _ => rfl, List.prefix_refl _⟩

theorem Declaration.Grows.trans {d f g : Declaration} (h : d.Grows f) (h' : f.Grows g) :
    d.Grows g where
  kind_eq := h'.kind_eq.trans h.kind_eq
  name_eq := h'.name_eq.trans h.name_eq
  tag_eq := fun hname => (h'.tag_eq (h.name_eq.trans hname)).trans (h.tag_eq hname)
  attributes_prefix := h.attributes_prefix.trans h'.attributes_prefix

/-- Every declaration is at its place and has only grown. More may follow. -/
inductive GrowsTo : List Declaration → List Declaration → Prop
  | nil (fs : List Declaration) : GrowsTo [] fs
  | cons {d f : Declaration} {ds fs : List Declaration} (head : d.Grows f)
      (tail : GrowsTo ds fs) : GrowsTo (d :: ds) (f :: fs)

namespace GrowsTo

theorem refl (ds : List Declaration) : GrowsTo ds ds := by
  induction ds with
  | nil => exact .nil []
  | cons d ds ih => exact .cons (.refl d) ih

theorem trans {ds fs gs : List Declaration} (h : GrowsTo ds fs) (h' : GrowsTo fs gs) :
    GrowsTo ds gs := by
  induction h generalizing gs with
  | nil => exact .nil gs
  | cons head tail ih =>
    cases h' with
    | cons head' tail' => exact .cons (head.trans head') (ih tail')

theorem append (ds more : List Declaration) : GrowsTo ds (ds ++ more) := by
  induction ds with
  | nil => exact .nil _
  | cons d ds ih => exact .cons (.refl d) ih

theorem getElem? {ds fs : List Declaration} (h : GrowsTo ds fs) {n : Nat} {d : Declaration}
    (hd : ds[n]? = some d) : ∃ f, fs[n]? = some f ∧ d.Grows f := by
  induction h generalizing n with
  | nil => cases hd
  | @cons d' f ds fs head tail ih =>
    cases n with
    | zero =>
      obtain rfl : d' = d := Option.some.inj hd
      exact ⟨f, rfl, head⟩
    | succ n => exact ih hd

end GrowsTo

namespace ModuleDocument

/-! ## Registering -/

theorem growsTo_setTag (name tag : String) (ds : List Declaration) :
    GrowsTo ds (setTag name tag ds) := by
  induction ds with
  | nil => exact .nil _
  | cons d ds ih =>
    unfold setTag
    by_cases hname : (d.name == some name) = true
    · rw [if_pos hname]
      refine .cons ⟨rfl, rfl, ?_, List.prefix_refl _⟩ (.refl ds)
      intro hnone
      rw [hnone] at hname
      cases hname
    · rw [if_neg hname]
      exact .cons (.refl d) ih

theorem growsTo_register (doc : ModuleDocument) (r : Registration) :
    GrowsTo doc.declarations (doc.register r).declarations := by
  unfold register
  cases r.className with
  | some name => exact growsTo_setTag name r.tag doc.declarations
  | none => exact .append _ _

/-- Whether attributes of a registration belong to a declaration: by the name of the class,
or by the tag if the class has no name. -/
def owns (r : Registration) (d : Declaration) : Bool :=
  match r.className with
  | some name => d.name == some name
  | none => d.tagName == some r.tag

theorem exists_owned_setTag (name tag : String) (ds : List Declaration) :
    ∃ d ∈ setTag name tag ds, d.name = some name := by
  induction ds with
  | nil => exact ⟨_, List.mem_cons_self, rfl⟩
  | cons d ds ih =>
    unfold setTag
    by_cases hname : (d.name == some name) = true
    · rw [if_pos hname]
      exact ⟨_, List.mem_cons_self, beq_iff_eq.mp hname⟩
    · rw [if_neg hname]
      obtain ⟨f, hf, hfname⟩ := ih
      exact ⟨f, List.mem_cons_of_mem d hf, hfname⟩

/-- After a registration there is a declaration that it owns. -/
theorem exists_owned_register (doc : ModuleDocument) (r : Registration) :
    ∃ n d, (doc.register r).declarations.findIdx? (owns r) = some n ∧
      (doc.register r).declarations[n]? = some d := by
  have hany : (doc.register r).declarations.any (owns r) = true := by
    rw [List.any_eq_true]
    unfold register owns
    cases r.className with
    | some name =>
      obtain ⟨d, hd, hname⟩ := exists_owned_setTag name r.tag doc.declarations
      exact ⟨d, hd, beq_iff_eq.mpr hname⟩
    | none =>
      exact ⟨.ofTag r.tag, List.mem_append_right _ List.mem_cons_self, beq_iff_eq.mpr rfl⟩
  obtain ⟨n, hn⟩ := Option.isSome_iff_exists.mp (List.findIdx?_isSome.trans hany)
  obtain ⟨hlt, -⟩ := List.findIdx?_eq_some_iff_getElem.mp hn
  exact ⟨n, _, hn, List.getElem?_eq_getElem hlt⟩

/-- Attributes of a registration go to the first declaration that it owns. -/
theorem position?_eq {doc : ModuleDocument} {r : Registration} {n : Nat}
    (h : doc.declarations.findIdx? (owns r) = some n) :
    doc.position? r.className (some r.tag) = some n := by
  unfold owns at h
  unfold position?
  cases hname : r.className with
  | some name =>
    rw [hname] at h
    rw [Option.bind_some, h]
    rfl
  | none =>
    rw [hname] at h
    rw [Option.bind_none, Option.bind_some, h]
    rfl

/-! ## Adding attributes -/

theorem growsTo_modify (more : List Attribute) (ds : List Declaration) (n : Nat) :
    GrowsTo ds (ds.modify n (append more)) := by
  induction ds generalizing n with
  | nil => exact .nil _
  | cons d ds ih =>
    cases n with
    | zero => exact .cons ⟨rfl, rfl, fun _ => rfl, List.prefix_append _ _⟩ (.refl ds)
    | succ n => exact .cons (.refl d) (ih n)

theorem growsTo_merge (doc : ModuleDocument) (className tag : Option String)
    (more : List Attribute) :
    GrowsTo doc.declarations (doc.merge className tag more).1.declarations := by
  unfold merge
  cases doc.position? className tag with
  | none => exact .refl _
  | some n => exact growsTo_modify _ _ _

/-- Nothing is new to a declaration that has all the names. -/
theorem newAttributes_eq_nil {known more : List Attribute}
    (h : ∀ a ∈ more, a.name ∈ known.map (·.name)) : newAttributes known more = [] := by
  induction more with
  | nil => rfl
  | cons a more ih =>
    have hany : known.any (·.name == a.name) = true := by
      obtain ⟨b, hb, hname⟩ := List.mem_map.mp (h a List.mem_cons_self)
      exact List.any_eq_true.mpr ⟨b, hb, beq_iff_eq.mpr hname⟩
    unfold newAttributes
    rw [if_pos hany]
    exact ih (fun b hb => h b (List.mem_cons_of_mem a hb))

/-- With the new attributes behind its own a declaration has all the names. -/
theorem mem_names_newAttributes (known more : List Attribute) :
    ∀ a ∈ more, a.name ∈ (known ++ newAttributes known more).map (·.name) := by
  induction more generalizing known with
  | nil => exact nofun
  | cons a more ih =>
    intro b hb
    unfold newAttributes
    by_cases hany : known.any (·.name == a.name) = true
    · rw [if_pos hany]
      rcases List.mem_cons.mp hb with rfl | hb
      · obtain ⟨c, hc, hname⟩ := List.any_eq_true.mp hany
        refine List.mem_map.mpr ⟨c, List.mem_append_left _ hc, beq_iff_eq.mp hname⟩
      · exact ih known b hb
    · rw [if_neg hany, List.append_cons]
      rcases List.mem_cons.mp hb with rfl | hb
      · refine List.mem_map.mpr ⟨b, ?_, rfl⟩
        exact List.mem_append_left _ (List.mem_append_right _ List.mem_cons_self)
      · exact ih (known ++ [a]) b hb

theorem modify_append_nil (ds : List Declaration) (n : Nat) :
    ds.modify n (append []) = ds := by
  have happend : append [] = id := by
    funext d
    unfold append
    rw [List.append_nil]
    rfl
  rw [happend, List.modify_id]

/-- New attributes change nothing else of a declaration. -/
theorem map_modify_append {α : Type} (g : Declaration → α) (more : List Attribute)
    (h : ∀ d, g (append more d) = g d) (ds : List Declaration) (n : Nat) :
    (ds.modify n (append more)).map g = ds.map g := by
  induction ds generalizing n with
  | nil => rw [List.modify_nil]
  | cons d ds ih =>
    cases n with
    | zero => exact congrArg (· :: ds.map g) (h d)
    | succ n => exact congrArg (g d :: ·) (ih n)

/-- A merge adds to the declaration that the attributes belong to. -/
theorem merge_eq {doc : ModuleDocument} {className tag : Option String} {n : Nat}
    {d : Declaration} (hn : doc.position? className tag = some n)
    (hd : doc.declarations[n]? = some d) (more : List Attribute) :
    doc.merge className tag more =
      ({ doc with
          declarations := doc.declarations.modify n (append (newAttributes d.attributes more)) },
        (newAttributes d.attributes more).length) := by
  unfold merge
  rw [hn]
  dsimp only
  rw [hd]
  rfl

theorem exists_of_position? {doc : ModuleDocument} {className tag : Option String} {n : Nat}
    (h : doc.position? className tag = some n) : ∃ d, doc.declarations[n]? = some d := by
  have hthere : ∀ p : Declaration → Bool, doc.declarations.findIdx? p = some n →
      ∃ d, doc.declarations[n]? = some d := by
    intro p hp
    obtain ⟨hlt, -⟩ := List.findIdx?_eq_some_iff_getElem.mp hp
    exact ⟨_, List.getElem?_eq_getElem hlt⟩
  unfold position? at h
  rcases Option.or_eq_some_iff.mp (Option.orElse_eq_or.symm.trans h) with hclass | ⟨-, htag⟩
  · obtain ⟨name, -, hname⟩ := Option.bind_eq_some_iff.mp hclass
    exact hthere _ hname
  · obtain ⟨t, -, ht⟩ := Option.bind_eq_some_iff.mp htag
    exact hthere _ ht

/-- A merge adds to one declaration, or it finds none and does nothing. -/
theorem merge_cases (doc : ModuleDocument) (className tag : Option String)
    (more : List Attribute) :
    (doc.position? className tag = none ∧ doc.merge className tag more = (doc, 0)) ∨
    ∃ n d, doc.position? className tag = some n ∧ doc.declarations[n]? = some d ∧
      doc.merge className tag more =
        ({ doc with
            declarations := doc.declarations.modify n (append (newAttributes d.attributes more)) },
          (newAttributes d.attributes more).length) := by
  cases hn : doc.position? className tag with
  | none =>
    refine Or.inl ⟨rfl, ?_⟩
    unfold merge
    rw [hn]
  | some n =>
    obtain ⟨d, hd⟩ := exists_of_position? hn
    exact Or.inr ⟨n, d, rfl, hd, merge_eq hn hd more⟩

theorem merge_nil (doc : ModuleDocument) (className tag : Option String) :
    (doc.merge className tag []).1 = doc := by
  unfold merge
  cases doc.position? className tag with
  | none => rfl
  | some n =>
    show { doc with declarations := doc.declarations.modify n (append []) } = doc
    rw [modify_append_nil]

/-! ## Registrations in full -/

/-- The document with a registration and its attributes, which depend on the class. -/
def enter (attributes : Option String → List Attribute) (doc : ModuleDocument)
    (r : Registration) : ModuleDocument :=
  ((doc.register r).merge r.className (some r.tag) (attributes r.className)).1

theorem growsTo_enter (attributes : Option String → List Attribute) (doc : ModuleDocument)
    (r : Registration) : GrowsTo doc.declarations (doc.enter attributes r).declarations :=
  (growsTo_register doc r).trans (growsTo_merge _ _ _ _)

theorem growsTo_foldl_enter (attributes : Option String → List Attribute)
    (doc : ModuleDocument) (rs : List Registration) :
    GrowsTo doc.declarations (rs.foldl (enter attributes) doc).declarations := by
  induction rs generalizing doc with
  | nil => exact .refl _
  | cons r rs ih => exact (growsTo_enter attributes doc r).trans (ih _)

theorem enter_eq {attributes : Option String → List Attribute} {doc : ModuleDocument}
    {r : Registration} {n : Nat} {d : Declaration}
    (hn : (doc.register r).declarations.findIdx? (owns r) = some n)
    (hd : (doc.register r).declarations[n]? = some d) :
    doc.enter attributes r = { doc.register r with
      declarations := (doc.register r).declarations.modify n
        (append (newAttributes d.attributes (attributes r.className))) } := by
  unfold enter
  rw [merge_eq (position?_eq hn) hd]

/-- Registrations change nothing but the declarations. -/
theorem foldl_enter_eq (attributes : Option String → List Attribute) (doc : ModuleDocument)
    (rs : List Registration) :
    rs.foldl (enter attributes) doc =
      { doc with declarations := (rs.foldl (enter attributes) doc).declarations } := by
  induction rs generalizing doc with
  | nil => rfl
  | cons r rs ih =>
    obtain ⟨n, d, hn, hd⟩ := exists_owned_register doc r
    rw [List.foldl_cons, ih, enter_eq hn hd]
    rfl

/-- The first declaration that a registration owns has all its attributes afterwards. -/
theorem exists_owned_enter (attributes : Option String → List Attribute)
    (doc : ModuleDocument) (r : Registration) :
    ∃ n d, (doc.register r).declarations.findIdx? (owns r) = some n ∧
      (doc.enter attributes r).declarations[n]? = some d ∧
      ∀ a ∈ attributes r.className, a.name ∈ d.attributes.map (·.name) := by
  obtain ⟨n, d, hn, hd⟩ := exists_owned_register doc r
  refine ⟨n, append (newAttributes d.attributes (attributes r.className)) d, hn, ?_,
    mem_names_newAttributes _ _⟩
  rw [enter_eq hn hd]
  dsimp only
  rw [List.getElem?_modify, hd]
  simp only [Option.map_eq_map, Option.map_some, if_true]

/-- A registration whose declaration has all the attributes only registers. -/
theorem enter_of_known {attributes : Option String → List Attribute} {doc : ModuleDocument}
    {r : Registration} {n : Nat} {d : Declaration}
    (hn : (doc.register r).declarations.findIdx? (owns r) = some n)
    (hd : (doc.register r).declarations[n]? = some d)
    (hknown : ∀ a ∈ attributes r.className, a.name ∈ d.attributes.map (·.name)) :
    doc.enter attributes r = doc.register r := by
  rw [enter_eq hn hd, newAttributes_eq_nil hknown, modify_append_nil]

theorem tags_enter (attributes : Option String → List Attribute) (doc : ModuleDocument)
    (r : Registration) :
    (doc.enter attributes r).declarations.map (·.tagName) =
      (doc.register r).declarations.map (·.tagName) := by
  obtain ⟨n, d, hn, hd⟩ := exists_owned_register doc r
  rw [enter_eq hn hd]
  exact map_modify_append (·.tagName) _ (fun _ => rfl) _ _

end ModuleDocument

end ElementManifest

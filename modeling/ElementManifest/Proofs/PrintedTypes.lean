import ElementManifest.Proofs.MemberShapes
import ElementManifest.Proofs.SpellingAgreement

/-!
# Printed types

A type that is printed has blanks of its own, double quotes around its strings and names, and a
semicolon behind each member. It is a spelling of the type nevertheless, as long as no string has
something in it that ends the double quotes, and no object type has a name twice:

> `Spells.printed`: the printed text of a type that can be spelled is a spelling of it.

So the inference comes to the same result for a printed type as for the type as it is written
(`summary_printed`, `serialization_printed`).
-/

namespace ElementManifest.Inference

open ElementManifest.Text ElementManifest.TypeScript ElementManifest.Expansion
open ElementManifest.Decimal


/-! ## Spellings as they stand -/

theorem IsWord.tight {w : List Char} (h : IsWord w) : Tight w :=
  ⟨h.first, h.last⟩

theorem SpellsKey.level {name : String} {k : List Char} (h : SpellsKey name k) : Level 1 k := by
  cases h with
  | plain hk _ => exact .of_plain hk 1
  | quoted hq hbody _ => exact .quoted (by rcases hq with rfl | rfl <;> rfl) hbody 1

theorem SpellsLabel.level {label : Option String} {l : List Char} (h : SpellsLabel label l) :
    Level 1 l := by
  cases h with
  | none => exact .nil 1
  | hidden hd hl _ ho hb =>
    rw [List.append_assoc]
    exact (((silent_dots.append hd.silent).level 1).append (.of_plain hl 1)).append
      ((silent_colon ho hb).level 1)
  | some hl ho hb =>
    rw [List.append_assoc]
    exact (Level.of_plain hl 1).append ((silent_colon ho hb).level 1)

theorem SpellsNoType.level {z : List Char} (h : SpellsNoType z) : Level 1 z := by
  cases h with
  | missing ho => exact ho.silent.level 1
  | @any o b ho hb =>
    have hassoc : o ++ ':' :: (b ++ "any".toList) = (o ++ ':' :: b) ++ "any".toList := by
      simp only [List.append_assoc, List.cons_append]
    rw [hassoc]
    exact ((silent_colon ho hb).level 1).append (.of_plain (by decide) 1)

/-- The depth at which nothing parts a type: a union has bars of its own. -/
def partDepth (t : TypeNode) : Int :=
  if isUnion t then 1 else 0

theorem partDepth_le (t : TypeNode) : partDepth t ≤ 1 := by
  unfold partDepth
  split <;> decide

/-- A spelling as it stands, with the contents of its literals. -/
structure Stands (t : TypeNode) (x : List Char) : Prop where
  level : Level (partDepth t) x
  tight : Tight x

section

variable {t : TypeNode} {x : List Char}

theorem Stands.alone (h : Stands t x) (hunion : isUnion t = false) : Level 0 x := by
  have hlevel := h.level
  unfold partDepth at hlevel
  rw [hunion] at hlevel
  exact hlevel

theorem Stands.inside (h : Stands t x) : Level 1 x :=
  h.level.mono (partDepth_le t)

theorem stands_word (h : IsWord x) : Stands t x :=
  ⟨.of_plain h.plain _, h.tight⟩

theorem stands_quoted {q : Char} {body : List Char} (hq : Nesting.isQuote q = true)
    (hbody : staysInside q false body = true) : Stands t (q :: (body ++ [q])) :=
  ⟨.quoted hq hbody _, .of_ends (isMark_of_isQuote hq) (isMark_of_isQuote hq)⟩

theorem stands_enclosed {o c : Char} (hpair : (o, c) ∈ bracketPairs) (h : Level 1 x)
    (hunion : isUnion t = false) : Stands t (o :: (x ++ [c])) := by
  have hall : ∀ b ∈ bracketPairs, isMark b.1 = true ∧ isMark b.2 = true := by decide
  obtain ⟨ho, -, hc, -⟩ := bracketPairs_told hpair
  refine ⟨?_, .of_ends (hall _ hpair).1 (hall _ hpair).2⟩
  unfold partDepth
  rw [hunion]
  exact h.bracket ho hc

theorem stands_array {span : Span} {b : List Char} (h : Stands t x) (hunion : isUnion t = false)
    (hb : Blanks b) : Stands (.array span t) (x ++ (b ++ "[]".toList)) := by
  refine ⟨?_, h.tight.append ⟨']', by rw [List.getLast?_append]; rfl, by decide⟩⟩
  exact (h.alone hunion).append ((hb.silent.level 0).append (.bracket (.nil 1) rfl (by decide)))

theorem stands_truth {span : Span} {value : Bool} :
    Stands (.truth span value) (truthText value) := by
  have hplain : ∀ c ∈ truthText value, isMark c = false := by
    cases value with
    | true => decide
    | false => decide
  refine ⟨.of_plain hplain _, ?_⟩
  cases value with
  | true => exact ⟨⟨'t', by decide⟩, ⟨'e', by decide⟩⟩
  | false => exact ⟨⟨'f', by decide⟩, ⟨'e', by decide⟩⟩

theorem stands_branches {b b' rest : List Char} (h : Stands t x) (hb : Blanks b) (hb' : Blanks b')
    (hlevel : Level 1 rest) (htight : Tight rest) :
    Level 1 (x ++ b ++ '|' :: (b' ++ rest)) ∧ Tight (x ++ b ++ '|' :: (b' ++ rest)) := by
  have hassoc : x ++ b ++ '|' :: (b' ++ rest) = x ++ ((b ++ '|' :: b') ++ rest) := by
    simp only [List.append_assoc, List.cons_append]
  constructor
  · exact (h.inside.append (hb.silent.level 1)).append
      (.append .bar ((hb'.silent.level 1).append hlevel))
  · rw [hassoc]
    exact h.tight.around _ htight

theorem level_typed {name : String} {g k o b rest : List Char} (hg : Gap g) (hk : SpellsKey name k)
    (ho : Mid o) (hb : Blanks b) (h : Stands t x) (hrest : Level 1 rest) :
    Level 1 (g ++ k ++ o ++ ':' :: (b ++ x ++ rest)) := by
  rw [typed_assoc]
  exact (hg.silent.level 1).append (hk.level.append
    (((silent_colon ho hb).level 1).append (h.inside.append hrest)))

end

variable {s : Source}

mutual

theorem Spells.stands {t : TypeNode} {x : List Char} (h : Spells s t x) : Stands t x :=
  match h with
  | .keyword h => stands_word h
  | .truth => stands_truth
  | .number h => stands_word h
  | .template htext hbody => htext ▸ stands_quoted rfl hbody
  | .literal hq hbody => stands_quoted (by rcases hq with rfl | rfl <;> rfl) hbody
  | .untold hq htext hbody => htext ▸ stands_quoted (by rcases hq with rfl | rfl <;> rfl) hbody
  | .array h hunion hb => stands_array h.stands hunion hb
  | .empty => stands_enclosed (x := []) (by decide) (.nil 1) rfl
  | .tuple h => stands_enclosed (by decide) h.level rfl
  | .union h => ⟨h.stands.1, h.stands.2⟩
  | .barred hb h =>
    ⟨.append .bar ((hb.silent.level 1).append h.stands.1), Tight.bar.around _ h.stands.2⟩
  | .paren hb h hb' => stands_enclosed (by decide)
      (((hb.silent.level 1).append h.stands.inside).append (hb'.silent.level 1)) rfl
  | .object h => stands_enclosed (by decide) h.level rfl
termination_by structural h

theorem SpellsSlot.level {t : TypeNode} {x : List Char} (h : SpellsSlot s t x) : Level 1 x :=
  match h with
  | .plain h => h.stands.inside
  | .optional h _ hb => h.stands.inside.append ((hb.silent.append silent_query).level 1)
  | .rest hb h => ((silent_dots.append hb.silent).level 1).append h.stands.inside
termination_by structural h

theorem SpellsElems.level {es : List TupleElem} {x : List Char} (h : SpellsElems s es x) :
    Level 1 x :=
  match h with
  | .nil hb => hb.silent.level 1
  | .last hb hl h hb' =>
    (((hb.silent.level 1).append hl.level).append h.level).append (hb'.silent.level 1)
  | .cons hb hl h hb' hrest =>
    ((((hb.silent.level 1).append hl.level).append h.level).append (hb'.silent.level 1)).append
      ((silent_comma.level 1).append hrest.level)
termination_by structural h

theorem SpellsBranches.stands {ts : List TypeNode} {x : List Char} (h : SpellsBranches s ts x) :
    Level 1 x ∧ Tight x :=
  match h with
  | .last h _ => ⟨h.stands.inside, h.stands.tight⟩
  | .cons h _ hb hb' hrest => stands_branches h.stands hb hb' hrest.stands.1 hrest.stands.2
termination_by structural h

theorem SpellsMembers.level {ms : List Member} {x : List Char} (h : SpellsMembers s ms x) :
    Level 1 x :=
  match h with
  | .nil hg => hg.silent.level 1
  | .typed hg _ hk ho hb _ h hrest _ => level_typed hg hk ho hb h.stands hrest.level
  | .untyped hg _ hk hz _ hrest _ =>
    (((hg.silent.level 1).append hk.level).append hz.level).append hrest.level
termination_by structural h

end

/-! ## What can be printed -/

/-- Whether a text can stand in double quotes as it is. -/
def isQuotable (value : String) : Bool :=
  staysInside '"' false value.toList

/-- The name of a member, if it has one. -/
def memberName? : Member → Option String
  | .property p => p.name?
  | .other _ _ => none

mutual

/-- Whether a type stays what it is when it is printed: all texts that are put in double quotes
can stand there, and no object type has a name twice. -/
def Printable : TypeNode → Prop
  | .text _ (some value) => isQuotable value = true
  | .array _ elem => Printable elem
  | .tuple _ es => PrintableElems es
  | .union _ ts => PrintableAll ts
  | .paren _ inner => Printable inner
  | .optional _ inner => Printable inner
  | .rest _ inner => Printable inner
  | .object _ ms => (ms.filterMap memberName?).Nodup ∧ PrintableMembers ms
  | _ => True

/-- Whether elements stay what they are when they are printed. -/
def PrintableElems : List TupleElem → Prop
  | [] => True
  | .mk _ t :: es => Printable t ∧ PrintableElems es

/-- Whether types stay what they are when they are printed. -/
def PrintableAll : List TypeNode → Prop
  | [] => True
  | t :: ts => Printable t ∧ PrintableAll ts

/-- Whether members stay what they are when they are printed. -/
def PrintableMembers : List Member → Prop
  | [] => True
  | .property (.mk span key computed optional type) :: ms =>
    (∀ name, (Property.mk span key computed optional type).name? = some name →
      isBare name.toList = true ∨ isQuotable name = true) ∧
    PrintableType type ∧ PrintableMembers ms
  | .other _ _ :: ms => PrintableMembers ms

/-- Whether the type of a member stays what it is when it is printed. -/
def PrintableType : Option TypeNode → Prop
  | none => True
  | some t => Printable t

end

theorem printableMembers_cons {p : Property} {ms : List Member}
    (h : PrintableMembers (.property p :: ms)) :
    (∀ name, p.name? = some name → isBare name.toList = true ∨ isQuotable name = true) ∧
      PrintableType p.type ∧ PrintableMembers ms := by
  cases p
  rw [PrintableMembers] at h
  exact h

/-! ## Printed pieces -/

theorem isMark_of_isBare {name : List Char} (h : isBare name = true) :
    ∀ c ∈ name, isMark c = false := by
  have hall : ∀ d ∈ marks, isBarePart d = false := by decide
  intro c hc
  unfold isBare at h
  rw [Bool.or_eq_true, Bool.and_eq_true, List.all_eq_true] at h
  rcases h with ⟨-, hparts⟩ | hnumber
  · rw [Bool.eq_false_iff]
    intro hmark
    have hpart := hparts c hc
    rw [hall c (List.contains_iff_mem.mp hmark)] at hpart
    cases hpart
  · exact isMark_of_isNumberChar (isNumberChar_of_isNumberText hnumber c hc)

theorem spellsKey_printed {name : String} (h : isBare name.toList = true ∨ isQuotable name = true) :
    SpellsKey name (keyText name).toList := by
  have hword : ∀ w ∈ words, w ≠ [] := by decide
  unfold keyText
  cases hbare : isBare name.toList with
  | true =>
    refine .plain (isMark_of_isBare hbare) fun w _ => ?_
    unfold printedKey
    rw [if_pos hbare]
    rfl
  | false =>
    have hquotable : isQuotable name = true := h.resolve_left (by rw [hbare]; decide)
    have htext : ("\"" ++ name ++ "\"").toList = '"' :: (name.toList ++ ['"']) := by
      rw [String.toList_append, String.toList_append]
      rfl
    rw [if_neg Bool.false_ne_true, htext]
    refine .quoted (Or.inl rfl) hquotable fun w hw hin => hword w hw ?_
    unfold printedKey at hin
    rw [hbare, if_neg Bool.false_ne_true] at hin
    exact List.infix_nil.mp hin

/-- The text of a member and the blank behind it. -/
def memberText (s : Shape) : List Char :=
  (propertyText s).toList ++ [' ']

theorem memberText_eq (s : Shape) :
    memberText s = (keyText s.name).toList ++ (if s.optional then ['?'] else []) ++
      ':' :: ([' '] ++ s.type.toList ++ [';', ' ']) := by
  unfold memberText propertyText
  cases s.optional with
  | true => simp
  | false => simp

theorem toList_intercalate_blank (s : Shape) (shapes : List Shape) :
    (" ".intercalate ((s :: shapes).map propertyText)).toList ++ [' '] =
      (s :: shapes).flatMap memberText := by
  induction shapes generalizing s with
  | nil =>
    rw [List.map_singleton, String.intercalate_singleton, List.flatMap_singleton]
    rfl
  | cons s' shapes ih =>
    rw [List.map_cons, List.map_cons, String.intercalate_cons_cons, ← List.map_cons,
      String.toList_append, String.toList_append, List.append_assoc, ih]
    rfl

theorem objectText_eq {shapes : List Shape} (hne : shapes ≠ []) :
    (objectText shapes []).toList =
      '\x7b' :: ([' '] ++ shapes.flatMap memberText ++ ['\x7d']) := by
  obtain ⟨s, shapes, rfl⟩ := List.exists_cons_of_ne_nil hne
  unfold objectText
  rw [if_neg (by simp), ← toList_intercalate_blank]
  simp only [List.map_nil, List.append_nil, String.toList_append]
  simp

/-! ## Printed types -/

variable {site : Site}

theorem printed_text {span : Span} {value : Option String} {x : List Char}
    (h : Spells site.source (.text span value) x) (hp : Printable (.text span value)) :
    Spells site.source (.text span value) (textOf site (.text span value)).toList := by
  cases value with
  | none => cases h with
    | untold hq htext hbody =>
      rw [textOf]
      unfold Source.textOf
      rw [String.toList_ofList]
      exact .untold hq htext hbody
  | some value =>
    rw [Printable] at hp
    have htext : (textOf site (.text span (some value))).toList =
        '"' :: (value.toList ++ ['"']) := by
      rw [textOf]
      simp
    rw [htext]
    exact .literal (Or.inl rfl) hp

theorem printed_slice {t : TypeNode} {span : Span}
    (h : Spells site.source t (site.source.slice span))
    (htext : textOf site t = site.source.textOf span) :
    Spells site.source t (textOf site t).toList := by
  rw [htext]
  unfold Source.textOf
  rw [String.toList_ofList]
  exact h

theorem printed_truth {span : Span} {value : Bool} :
    Spells site.source (.truth span value) (textOf site (.truth span value)).toList := by
  have htext : (textOf site (.truth span value)).toList = truthText value := by
    rw [textOf]
    cases value with
    | true => rfl
    | false => rfl
  rw [htext]
  exact .truth

theorem printed_array {span : Span} {elem : TypeNode}
    (h : Spells site.source elem (textOf site elem).toList) (hunion : isUnion elem = false) :
    Spells site.source (.array span elem) (textOf site (.array span elem)).toList := by
  have hlevel := h.stands.alone hunion
  have htext : (textOf site (.array span elem)).toList =
      (textOf site elem).toList ++ ([] ++ "[]".toList) := by
    rw [textOf]
    unfold operandText
    rw [hlevel.wrapIf_eq, String.toList_append]
    rfl
  rw [htext]
  exact .array h hunion blanks_nil

theorem printed_paren {span : Span} {inner : TypeNode}
    (h : Spells site.source inner (textOf site inner).toList) :
    Spells site.source (.paren span inner) (textOf site (.paren span inner)).toList := by
  have htext : (textOf site (.paren span inner)).toList =
      '(' :: ([] ++ (textOf site inner).toList ++ [] ++ [')']) := by
    rw [textOf]
    simp
  rw [htext]
  exact .paren blanks_nil h blanks_nil

theorem printed_tuple {span : Span} {es : List TupleElem}
    (h : SpellsElems site.source es (", ".intercalate (elementTexts site es)).toList) :
    Spells site.source (.tuple span es) (textOf site (.tuple span es)).toList := by
  have htext : (textOf site (.tuple span es)).toList =
      '[' :: ((", ".intercalate (elementTexts site es)).toList ++ [']']) := by
    rw [textOf]
    simp
  rw [htext]
  cases es with
  | nil =>
    rw [elementTexts]
    exact .empty
  | cons e es => exact .tuple h

theorem printed_optional {span : Span} {inner : TypeNode}
    (h : Spells site.source inner (textOf site inner).toList) (hunion : isUnion inner = false) :
    SpellsSlot site.source (.optional span inner) (textOf site (.optional span inner)).toList := by
  have hlevel := h.stands.alone hunion
  have htext : (textOf site (.optional span inner)).toList =
      (textOf site inner).toList ++ ([] ++ ['?']) := by
    rw [textOf]
    unfold operandText
    rw [hlevel.wrapIf_eq, String.toList_append]
    rfl
  rw [htext]
  exact .optional h hunion blanks_nil

theorem printed_rest {span : Span} {inner : TypeNode}
    (h : Spells site.source inner (textOf site inner).toList) :
    SpellsSlot site.source (.rest span inner) (textOf site (.rest span inner)).toList := by
  have htext : (textOf site (.rest span inner)).toList =
      "...".toList ++ [] ++ (textOf site inner).toList := by
    rw [textOf]
    simp
  rw [htext]
  exact .rest blanks_nil h

/-- The text of one element. -/
def elementText (site : Site) (label : Option String) (t : TypeNode) : String :=
  match label with
  | some name => name ++ ": " ++ textOf site t
  | none => textOf site t

theorem elementTexts_nil : elementTexts site [] = [] := by
  rw [elementTexts]

theorem elementTexts_cons (label : Option String) (t : TypeNode) (es : List TupleElem) :
    elementTexts site (.mk label t :: es) = elementText site label t :: elementTexts site es := by
  cases label with
  | none =>
    rw [elementTexts]
    rfl
  | some name =>
    rw [elementTexts]
    rfl

/-- A label is printed with one blank behind its colon, unless it is not kept. -/
theorem exists_printed_label (site : Site) {label : Option String} {l : List Char}
    (h : SpellsLabel label l) (t : TypeNode) : ∃ l', SpellsLabel label l' ∧
      (elementText site label t).toList = l' ++ (textOf site t).toList := by
  cases h with
  | none => exact ⟨[], .none, rfl⟩
  | hidden => exact ⟨[], .none, rfl⟩
  | @some label o b hlabel _ _ =>
    refine ⟨label.toList ++ [] ++ ':' :: [' '],
      .some hlabel (o := []) nofun (by unfold Blanks; decide), ?_⟩
    unfold elementText
    simp

theorem printed_elem {label : Option String} {t : TypeNode} {es : List TupleElem} {l : List Char}
    (hl : SpellsLabel label l) (h : SpellsSlot site.source t (textOf site t).toList)
    (hrest : ∀ b, Blanks b →
      SpellsElems site.source es (b ++ (", ".intercalate (elementTexts site es)).toList))
    {b : List Char} (hb : Blanks b) :
    SpellsElems site.source (.mk label t :: es)
      (b ++ (", ".intercalate (elementTexts site (.mk label t :: es))).toList) := by
  obtain ⟨l', hl', htext⟩ := exists_printed_label site hl t
  rw [elementTexts_cons]
  cases es with
  | nil =>
    rw [elementTexts_nil, String.intercalate_singleton, htext]
    have hlast := SpellsElems.last hb hl' h blanks_nil
    simpa using hlast
  | cons e es =>
    have hne : ∃ text texts, elementTexts site (e :: es) = text :: texts := by
      cases e
      exact ⟨_, _, elementTexts_cons _ _ _⟩
    obtain ⟨text, texts, heq⟩ := hne
    have hcons := SpellsElems.cons hb hl' h blanks_nil (hrest [' '] (by unfold Blanks; decide))
    rw [heq] at hcons ⊢
    rw [String.intercalate_cons_cons, String.toList_append, String.toList_append, htext]
    simpa using hcons

theorem printed_branch {t : TypeNode} {ts : List TypeNode}
    (h : Spells site.source t (textOf site t).toList) (hunion : isUnion t = false)
    (hrest : ts = [] ∨ SpellsBranches site.source ts
      (" | ".intercalate ((textsOf site ts).map (wrapIf [.arrow]))).toList) :
    SpellsBranches site.source (t :: ts)
      (" | ".intercalate ((textsOf site (t :: ts)).map (wrapIf [.arrow]))).toList := by
  have hlevel := h.stands.alone hunion
  have hblank : Blanks [' '] := by unfold Blanks; decide
  rw [textsOf, List.map_cons, hlevel.wrapIf_eq]
  rcases hrest with rfl | hrest
  · rw [textsOf, List.map_nil, String.intercalate_singleton]
    exact .last h hunion
  · cases ts with
    | nil => cases hrest
    | cons u ts =>
      have hcons := SpellsBranches.cons h hunion hblank hblank hrest
      rw [textsOf, List.map_cons] at hcons ⊢
      rw [String.intercalate_cons_cons, String.toList_append, String.toList_append]
      simpa using hcons

theorem memberShapes_cons {p : Property} {name : String} (place : Nat) (ms : List Member)
    (hname : p.name? = some name) :
    memberShapes site place (.property p :: ms) =
      ⟨name, annotationText site p.type, p.optional, site.source.docOf p place⟩ ::
        memberShapes site p.span.hi ms := by
  cases p
  rw [memberShapes]
  simp only [hname]
  rfl

theorem names_memberShapes (site : Site) (ms : List Member) (place : Nat) :
    names (memberShapes site place ms) = ms.filterMap memberName? := by
  rw [names_memberShapes_eq_filterMap]
  induction ms generalizing place with
  | nil => rfl
  | cons m ms ih =>
    cases m with
    | property p =>
      have hmember : memberName? (.property p) = p.name? := rfl
      rw [documentedFrom, List.filterMap_cons, List.filterMap_cons, hmember, ih]
    | other span parts => exact ih span.hi

theorem otherTexts_of_spells {ms : List Member} {x : List Char}
    (h : SpellsMembers site.source ms x) : otherTexts site.source ms = [] :=
  match h with
  | .nil _ => rfl
  | .typed _ _ _ _ _ _ _ hrest _ => (otherTexts_of_spells hrest :)
  | .untyped _ _ _ _ _ hrest _ => (otherTexts_of_spells hrest :)
termination_by structural h

theorem gap_nil : Gap [] := nofun

theorem gap_behind_member : Gap [';', ' '] := by unfold Gap; decide

theorem mid_optional (optional : Bool) : Mid (if optional then ['?'] else []) := by
  unfold Mid
  cases optional with
  | true => decide
  | false => decide

theorem printed_property {p : Property} {name : String} {ms : List Member}
    (hname : p.name? = some name) (hp : isBare name.toList = true ∨ isQuotable name = true)
    (htype : ∀ t, p.type = some t → Spells site.source t (textOf site t).toList)
    (hrest : ∀ g, Gap g → ∀ place,
      SpellsMembers site.source ms (g ++ (memberShapes site place ms).flatMap memberText))
    {g : List Char} (hg : Gap g) (place : Nat) :
    SpellsMembers site.source (.property p :: ms)
      (g ++ (memberShapes site place (.property p :: ms)).flatMap memberText) := by
  have hblank : Blanks [' '] := by unfold Blanks; decide
  have hbehind := hrest _ gap_behind_member p.span.hi
  have hsep : Gap [';'] := by unfold Gap; decide
  rw [memberShapes_cons place ms hname, List.flatMap_cons, memberText_eq]
  cases hannotated : p.type with
  | none =>
    have hall := SpellsMembers.untyped hg hname (spellsKey_printed hp)
      (.any (mid_optional p.optional) hblank) hannotated hbehind (Or.inr ⟨';', rfl, hsep⟩)
    rw [annotationText]
    simpa using hall
  | some t =>
    have hall := SpellsMembers.typed hg hname (spellsKey_printed hp) (mid_optional p.optional)
      hblank hannotated (htype t hannotated) hbehind (Or.inr ⟨';', rfl, hsep⟩)
    rw [annotationText]
    simpa using hall

theorem printed_object {span : Span} {ms : List Member} {x : List Char}
    (h : SpellsMembers site.source ms x) (hnodup : (ms.filterMap memberName?).Nodup)
    (hall : ∀ g, Gap g → ∀ place,
      SpellsMembers site.source ms (g ++ (memberShapes site place ms).flatMap memberText)) :
    Spells site.source (.object span ms) (textOf site (.object span ms)).toList := by
  have hshapes : addShapes [] (memberShapes site span.lo ms) = memberShapes site span.lo ms := by
    rw [← names_memberShapes site ms span.lo] at hnodup
    exact addShapes_nil_of_nodup hnodup
  rw [textOf, hshapes, otherTexts_of_spells h]
  cases hempty : memberShapes site span.lo ms with
  | nil =>
    have hnil := hall [] gap_nil span.lo
    rw [hempty] at hnil
    exact .object hnil
  | cons shape shapes =>
    rw [← hempty, objectText_eq (by rw [hempty]; exact List.cons_ne_nil _ _)]
    exact .object (hall [' '] (by unfold Gap; decide) span.lo)

theorem printed_union {span : Span} {t u : TypeNode} {ts : List TypeNode}
    (h : SpellsBranches site.source (t :: u :: ts)
      (" | ".intercalate ((textsOf site (t :: u :: ts)).map (wrapIf [.arrow]))).toList) :
    Spells site.source (.union span (t :: u :: ts))
      (textOf site (.union span (t :: u :: ts))).toList := by
  rw [textOf]
  exact .union h

theorem printed_no_elems {b : List Char} (hb : Blanks b) :
    SpellsElems site.source [] (b ++ (", ".intercalate (elementTexts site [])).toList) := by
  rw [elementTexts_nil, String.intercalate_nil, String.toList_empty, List.append_nil]
  exact .nil hb

theorem printed_no_members {g : List Char} (hg : Gap g) (place : Nat) :
    SpellsMembers site.source [] (g ++ (memberShapes site place []).flatMap memberText) := by
  rw [memberShapes, List.flatMap_nil, List.append_nil]
  exact .nil hg

mutual

/-- **The printed text of a type that can be spelled is a spelling of it.** -/
theorem Spells.printed {t : TypeNode} {x : List Char} (h : Spells site.source t x)
    (hp : Printable t) : Spells site.source t (textOf site t).toList :=
  match h with
  | .keyword h => printed_slice (.keyword h) (by rw [textOf])
  | .truth => printed_truth
  | .number h => printed_slice (.number h) (by rw [textOf])
  | .template htext hbody => printed_slice (.template htext hbody) (by rw [textOf])
  | .literal hq hbody => printed_text (.literal hq hbody) hp
  | .untold hq htext hbody => printed_text (.untold hq htext hbody) hp
  | .array h hunion _ => printed_array (h.printed hp) hunion
  | .empty => printed_tuple (.nil nofun)
  | .tuple h => printed_tuple (h.printed hp [] blanks_nil)
  | .union h => printed_union (h.printed hp)
  | .barred _ h => printed_union (h.printed hp)
  | .paren _ h _ => printed_paren (h.printed hp)
  | .object h => printed_object h hp.1 (h.printed hp.2)
termination_by structural h

theorem SpellsSlot.printed {t : TypeNode} {x : List Char} (h : SpellsSlot site.source t x)
    (hp : Printable t) : SpellsSlot site.source t (textOf site t).toList :=
  match h with
  | .plain h => .plain (h.printed hp)
  | .optional h hunion _ => printed_optional (h.printed hp) hunion
  | .rest _ h => printed_rest (h.printed hp)
termination_by structural h

theorem SpellsElems.printed {es : List TupleElem} {x : List Char}
    (h : SpellsElems site.source es x) (hp : PrintableElems es) (b : List Char) (hb : Blanks b) :
    SpellsElems site.source es (b ++ (", ".intercalate (elementTexts site es)).toList) :=
  match h with
  | .nil _ => printed_no_elems hb
  | .last _ hl h _ => printed_elem hl (h.printed hp.1) (fun _ => printed_no_elems) hb
  | .cons _ hl h _ hrest => printed_elem hl (h.printed hp.1) (hrest.printed hp.2) hb
termination_by structural h

theorem SpellsBranches.printed {ts : List TypeNode} {x : List Char}
    (h : SpellsBranches site.source ts x) (hp : PrintableAll ts) :
    SpellsBranches site.source ts
      (" | ".intercalate ((textsOf site ts).map (wrapIf [.arrow]))).toList :=
  match h with
  | .last h hunion => printed_branch (h.printed hp.1) hunion (Or.inl rfl)
  | .cons h hunion _ _ hrest =>
    printed_branch (h.printed hp.1) hunion (Or.inr (hrest.printed hp.2))
termination_by structural h

theorem SpellsMembers.printed {ms : List Member} {x : List Char}
    (h : SpellsMembers site.source ms x) (hp : PrintableMembers ms) (g : List Char) (hg : Gap g)
    (place : Nat) :
    SpellsMembers site.source ms (g ++ (memberShapes site place ms).flatMap memberText) :=
  match h with
  | .nil _ => printed_no_members hg place
  | .typed _ hname _ _ _ htype h hrest _ => by
    obtain ⟨hkey, htyped, hp⟩ := printableMembers_cons hp
    rw [htype] at htyped
    refine printed_property hname (hkey _ hname) ?_ (hrest.printed hp) hg place
    rw [htype]
    rintro _ ⟨⟩
    exact h.printed htyped
  | .untyped _ hname _ _ htype hrest _ => by
    obtain ⟨hkey, -, hp⟩ := printableMembers_cons hp
    refine printed_property hname (hkey _ hname) ?_ (hrest.printed hp) hg place
    rw [htype]
    exact nofun
termination_by structural h

end

/-! ## What the inference makes of them -/

theorem Spells.trim_eq {t : TypeNode} {x : List Char} (h : Spells s t x) : trim x = x := by
  have htrim := h.stands.tight.trim_blanks blanks_nil blanks_nil
  rw [List.nil_append, List.append_nil] at htrim
  exact htrim

/-- **A printed type has the kind and the way of writing of the type as it is written.** -/
theorem inference_printed {t : TypeNode} (h : Spells site.source t (site.source.slice t.span))
    (hp : Printable t) :
    summary (textOf site t) = summary (site.source.textOf t.span) ∧
      serialization (textOf site t) = serialization (site.source.textOf t.span) := by
  have hprinted := h.printed hp
  have hwritten : (site.source.textOf t.span).toList = site.source.slice t.span :=
    String.toList_ofList
  rw [summary_eq, summary_eq, serialization_eq, serialization_eq, hwritten, h.trim_eq,
    hprinted.trim_eq]
  exact ⟨hprinted.summaryOf_eq h, hprinted.serializationOf_eq h⟩

end ElementManifest.Inference

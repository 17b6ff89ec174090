import ElementManifest.Proofs.RootFile
import ElementManifest.Proofs.Shapes
import Mathlib.Data.List.Basic

/-!
# Own members of an interface

An interface may be declared in several pieces, each with members of its own and with
parents. The pieces are gone through in order, the members of each before its parents,
and of each name the first property is kept:

> `called_pieces`: a property is taken from the parents of the pieces that stand before
> the first one with a member of its name; else it is that member; else it is inherited.

So own members come before inherited ones within each piece, and in all of the interface if
no earlier piece inherits the name (`symbolProperties_own_first`). A parent of an earlier piece
does get in front of a member of a later one (`symbolProperties_inherited_first`).
-/

namespace ElementManifest.Expansion

open ElementManifest.TypeScript

/-! ## The pieces of an interface -/

/-- The properties that a piece of an interface has as members of its own. -/
def ownShapes (site : Site) (d : Interface) : List Shape :=
  memberShapes site d.bodyStart d.members

/-- The properties that a piece of an interface inherits, parent by parent. -/
def inheritedShapes (site : Site) (d : Interface) : List Shape :=
  d.parents.flatMap (parentProperties site)

section

variable (sites : Interface → Site) (name : String)

/-- The first member of a name in the pieces of an interface, whose bodies stand at `sites`. -/
def firstOwn (ds : List Interface) : Option Shape :=
  ds.findSome? fun d => called name (ownShapes (sites d) d)

/-- The first property of a name that a piece of an interface inherits. -/
def firstInherited (ds : List Interface) : Option Shape :=
  ds.findSome? fun d => called name (inheritedShapes (sites d) d)

/-- The pieces that stand before the first one with a member of the name. -/
def piecesBefore (ds : List Interface) : List Interface :=
  ds.takeWhile fun d => (called name (ownShapes (sites d) d)).isNone

/-- The first property of a name when the members of each piece come before its parents. -/
theorem called_pieces (ds : List Interface) :
    called name (ds.flatMap fun d => ownShapes (sites d) d ++ inheritedShapes (sites d) d) =
      (firstInherited sites name (piecesBefore sites name ds)).or
        ((firstOwn sites name ds).or (firstInherited sites name ds)) := by
  induction ds with
  | nil => rfl
  | cons d ds ih =>
    rw [List.flatMap_cons, called_append, called_append, ih]
    unfold firstOwn firstInherited piecesBefore
    rw [List.findSome?_cons, List.findSome?_cons, List.takeWhile_cons]
    cases hown : called name (ownShapes (sites d) d) with
    | some own =>
      -- the member of the first piece has nothing before it
      simp
    | none =>
      rw [Option.isNone_none, if_pos rfl, List.findSome?_cons]
      cases hinherited : called name (inheritedShapes (sites d) d) with
      | some inherited => simp
      | none => simp

theorem firstOwn_eq_none_iff (ds : List Interface) :
    firstOwn sites name ds = none ↔ piecesBefore sites name ds = ds := by
  unfold firstOwn piecesBefore
  rw [List.findSome?_eq_none_iff, List.takeWhile_eq_self_iff]
  simp only [Option.isNone_iff_eq_none]

theorem firstInherited_eq_none {ds : List Interface}
    (h : ∀ d ∈ ds, name ∉ names (inheritedShapes (sites d) d)) :
    firstInherited sites name ds = none := by
  unfold firstInherited
  rw [List.findSome?_eq_none_iff]
  intro d hd
  refine List.find?_eq_none.mpr ?_
  intro s hs hname
  exact h d hd (List.mem_map.mpr ⟨s, hs, eq_of_beq hname⟩)

end

/-! ## The properties of an interface -/

/-- Only this symbol is open. -/
def OpenSymbols.only (s : Symbol) : OpenSymbols :=
  ⟨[(s.file, s.name)], List.nodup_cons.mpr ⟨List.not_mem_nil, .nil⟩, Nat.le_add_left 1 11⟩

theorem OpenSymbols.enter?_none (s : Symbol) : OpenSymbols.none.enter? s = some (.only s) := by
  unfold enter?
  rw [dif_pos ⟨List.not_mem_nil, by decide⟩]
  rfl

/-- Where the body of a piece of an interface stands while nothing but the interface is
open. -/
def pieceSite (p : Program) (s : Symbol) (d : Interface) : Site :=
  bodySite p (openerWith p (maxDepth - 1)) (.only s) s.file d.params .none

theorem symbolProperties_eq_pieces {p : Program} {s : Symbol} {ds : List Interface}
    (hdecls : s.decls = ds.map .interface) :
    symbolProperties p s = addShapes [] (ds.flatMap fun d =>
      ownShapes (pieceSite p s d) d ++ inheritedShapes (pieceSite p s d) d) := by
  have hopen : symbolProperties p s =
      openProperties p (openerWith p (maxDepth - 1)) (.only s) s .none := by
    have hopened : symbolProperties p s = (OpenSymbols.none.enter? s).elim [] fun inside =>
        openProperties p (openerWith p (maxDepth - 1)) inside s .none := rfl
    rw [hopened, OpenSymbols.enter?_none]
    rfl
  rw [hopen]
  unfold openProperties
  rw [hdecls, List.flatMap_map]
  rfl

/-- **Own members come first**, as far as no earlier piece inherits their name. An interface with
any number of pieces and any parents has each property once. If a piece has a member of the name,
the property is the first such member, unless a piece before it inherits the name; if none has
one, it is the first that is inherited. A property that a piece before the first member
inherits does get in front of that member. -/
theorem symbolProperties_own_first {p : Program} {s : Symbol} {ds : List Interface}
    (hdecls : s.decls = ds.map .interface) :
    (names (symbolProperties p s)).Nodup ∧ ∀ name,
      (∀ own, firstOwn (pieceSite p s) name ds = some own →
        (∀ d ∈ piecesBefore (pieceSite p s) name ds,
          name ∉ names (inheritedShapes (pieceSite p s d) d)) →
        called name (symbolProperties p s) = some own) ∧
      (firstOwn (pieceSite p s) name ds = none →
        called name (symbolProperties p s) = firstInherited (pieceSite p s) name ds) ∧
      ∀ inherited, firstInherited (pieceSite p s) name (piecesBefore (pieceSite p s) name ds) =
        some inherited → called name (symbolProperties p s) = some inherited := by
  have heq := symbolProperties_eq_pieces (p := p) hdecls
  have hcalled (name : String) : called name (symbolProperties p s) =
      (firstInherited (pieceSite p s) name (piecesBefore (pieceSite p s) name ds)).or
        ((firstOwn (pieceSite p s) name ds).or (firstInherited (pieceSite p s) name ds)) := by
    rw [heq, called_addShapes, called_pieces]
    rfl
  refine ⟨?_, fun name => ⟨?_, ?_, ?_⟩⟩
  · rw [heq]
    exact nodup_names_addShapes _ List.nodup_nil
  · intro own hown hbefore
    rw [hcalled, firstInherited_eq_none _ _ hbefore, hown]
    rfl
  · intro hnone
    -- without a member all pieces stand before the first one
    rw [hcalled, hnone, (firstOwn_eq_none_iff _ _ ds).mp hnone, Option.none_or, Option.or_self]
  · intro inherited hinherited
    rw [hcalled, hinherited]
    rfl

/-! ## Pieces with parents -/

/-- The pieces of a symbol whose declarations are interfaces all of them. -/
def pieces? : List TypeDecl → Option (List Interface)
  | [] => some []
  | .interface d :: ds => (pieces? ds).map (d :: ·)
  | .typeAlias _ :: _ => none

theorem eq_map_of_pieces? {decls : List TypeDecl} {ds : List Interface}
    (h : pieces? decls = some ds) : decls = ds.map .interface := by
  induction decls generalizing ds with
  | nil =>
    cases h
    rfl
  | cons d decls ih =>
    cases d with
    | interface d =>
      obtain ⟨ds, hds, rfl⟩ := Option.map_eq_some_iff.mp h
      rw [List.map_cons, ih hds]
    | typeAlias d => cases h

/-- An interface in three pieces with members and parents of every kind. -/
def piecesText : String :=
  "interface P \x7b a?: string; p: string \x7d\ntype Q<T> = \x7b b: T; p: T \x7d;\n" ++
    "export interface XConfigType extends Pick<P, 'p'> \x7b a: number \x7d\n" ++
    "export interface XConfigType extends Q<boolean> \x7b p: boolean \x7d\n" ++
    "export interface XConfigType extends Partial<P> \x7b /** own */ z?: null; a: null \x7d"

/-- The first piece keeps its own `a`, the last one its own `z` behind the parents of the others,
and `b` is inherited once. But `p` is inherited before the second piece has it as a member. -/
theorem symbolProperties_own_first_pieces :
    ∃ c s, Context.build (oneFile piecesText) onePath piecesText = .ok c ∧
      c.program.lookup rootFile "XConfigType" = some s ∧
      (names (symbolProperties c.program s)).Nodup ∧
      called "a" (symbolProperties c.program s) = some ⟨"a", "number", false, none⟩ ∧
      called "z" (symbolProperties c.program s) = some ⟨"z", "null", true, some "own"⟩ ∧
      called "b" (symbolProperties c.program s) = some ⟨"b", "boolean", false, none⟩ ∧
      called "p" (symbolProperties c.program s) = some ⟨"p", "string", false, none⟩ := by
  have hany : (oneContext? piecesText).any (fun c =>
      (c.program.lookup rootFile "XConfigType").any fun s =>
        (pieces? s.decls).any fun ds =>
          let site := pieceSite c.program s
          let own (name : String) (shape : Shape) : Bool :=
            firstOwn site name ds = some shape &&
              (piecesBefore site name ds).all fun d =>
                name ∉ names (inheritedShapes (site d) d)
          own "a" ⟨"a", "number", false, none⟩ ∧ own "z" ⟨"z", "null", true, some "own"⟩ ∧
            firstOwn site "b" ds = none ∧
            firstInherited site "b" ds = some ⟨"b", "boolean", false, none⟩ ∧
            firstInherited site "p" (piecesBefore site "p" ds) =
              some ⟨"p", "string", false, none⟩) = true := by decide +kernel
  obtain ⟨c, hc, hfound⟩ := Option.any_eq_true _ _ |>.mp hany
  obtain ⟨symbol, hsymbol, hpieces⟩ := Option.any_eq_true _ _ |>.mp hfound
  obtain ⟨ds, hds, hcheck⟩ := Option.any_eq_true _ _ |>.mp hpieces
  simp only [decide_eq_true_eq, Bool.and_eq_true, List.all_eq_true] at hcheck
  obtain ⟨⟨hown, hbefore⟩, ⟨hown', hbefore'⟩, hnone, hb, hp⟩ := hcheck
  obtain ⟨hnodup, hfirst⟩ := symbolProperties_own_first (eq_map_of_pieces? hds)
  exact ⟨c, symbol, build_of_oneContext? hc, hsymbol, hnodup,
    (hfirst "a").1 _ hown hbefore, (hfirst "z").1 _ hown' hbefore',
    ((hfirst "b").2.1 hnone).trans hb, (hfirst "p").2.2 _ hp⟩

/-- An interface whose first piece inherits what the second one has as a member. -/
def laterMemberText : String :=
  "interface P \x7b a: string \x7d\nexport interface XConfigType extends P \x7b\x7d\n" ++
    "export interface XConfigType \x7b a: 'x' \x7d"

/-- The inherited property is kept, and the member of the interface itself is left out. -/
theorem symbolProperties_inherited_first :
    ∃ c s d e, Context.build (oneFile laterMemberText) onePath laterMemberText = .ok c ∧
      c.program.lookup rootFile "XConfigType" = some s ∧ s.decls = [.interface d, .interface e] ∧
      firstOwn (pieceSite c.program s) "a" [d, e] = some ⟨"a", "\"x\"", false, none⟩ ∧
      called "a" (symbolProperties c.program s) = some ⟨"a", "string", false, none⟩ := by
  have hany : (oneContext? laterMemberText).any (fun c =>
      (c.program.lookup rootFile "XConfigType").any fun s =>
        (pieces? s.decls).any fun ds =>
          ds.length = 2 ∧
            firstOwn (pieceSite c.program s) "a" ds = some ⟨"a", "\"x\"", false, none⟩ ∧
            called "a" (symbolProperties c.program s) = some ⟨"a", "string", false, none⟩) =
      true := by
    decide +kernel
  obtain ⟨c, hc, hfound⟩ := Option.any_eq_true _ _ |>.mp hany
  obtain ⟨symbol, hsymbol, hpieces⟩ := Option.any_eq_true _ _ |>.mp hfound
  obtain ⟨ds, hds, hcheck⟩ := Option.any_eq_true _ _ |>.mp hpieces
  obtain ⟨hlength, hown, hcalled⟩ := of_decide_eq_true hcheck
  obtain ⟨d, e, rfl⟩ := List.length_eq_two.mp hlength
  exact ⟨c, symbol, d, e, build_of_oneContext? hc, hsymbol, eq_map_of_pieces? hds, hown, hcalled⟩

end ElementManifest.Expansion

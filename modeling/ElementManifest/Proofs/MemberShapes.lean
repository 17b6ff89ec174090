import ElementManifest.AsWritten
import ElementManifest.Expansion.Types
import ElementManifest.Proofs.Shapes

/-!
# Members and their shapes

Each signature among members leads to one shape, or to none if it has no name. Where a member
stands matters for its doc only:

> `memberShapes_eq_filterMap`: the shapes of members are those of their signatures, one by one.

> `outline_resolvedShape`: with names resolved or as written, the shapes of a signature differ in
> the text of the type only.
-/

namespace ElementManifest

open ElementManifest.TypeScript ElementManifest.Expansion

/-- A signature together with the place where its doc may start. -/
abbrev Signature := Property × Nat

/-- The shape of a signature as it is written. -/
def writtenShape (s : Source) (sig : Signature) : Option Shape :=
  AsWritten.shapeOf s sig.1 sig.2

/-- The shape of a signature with names resolved. -/
def resolvedShape (site : Site) (sig : Signature) : Option Shape :=
  sig.1.name?.map fun name =>
    ⟨name, annotationText site sig.1.type, sig.1.optional, site.source.docOf sig.1 sig.2⟩

theorem memberShapes_eq_filterMap (site : Site) (ms : List Member) :
    ∀ place, memberShapes site place ms =
      (documentedFrom place ms).filterMap (resolvedShape site) := by
  induction ms with
  | nil =>
    intro place
    rw [memberShapes]
    rfl
  | cons m ms ih =>
    intro place
    cases m with
    | property p =>
      cases p with
      | mk span key computed optional type =>
        rw [memberShapes, ih, documentedFrom, List.filterMap_cons]
        unfold resolvedShape
        cases (Property.mk span key computed optional type).name? with
        | none => rfl
        | some name => rfl
    | other span parts =>
      rw [memberShapes, ih, documentedFrom]

/-- Whether each signature leads to a shape of its own name. -/
def Names (f : Signature → Option Shape) : Prop :=
  ∀ sig, (f sig).map Shape.name = sig.1.name?

theorem names_writtenShape (s : Source) : Names (writtenShape s) := by
  intro sig
  unfold writtenShape AsWritten.shapeOf
  cases sig.1.name? with
  | none => rfl
  | some name => rfl

theorem names_resolvedShape (site : Site) : Names (resolvedShape site) := by
  intro sig
  unfold resolvedShape
  cases sig.1.name? with
  | none => rfl
  | some name => rfl

theorem outline_resolvedShape (site : Site) (sig : Signature) :
    (resolvedShape site sig).map Shape.outline =
      (writtenShape site.source sig).map Shape.outline := by
  unfold resolvedShape writtenShape AsWritten.shapeOf
  cases sig.1.name? with
  | none => rfl
  | some name => rfl

theorem names_memberShapes_eq_filterMap (site : Site) (place : Nat) (ms : List Member) :
    names (memberShapes site place ms) = (documentedFrom place ms).filterMap (·.1.name?) := by
  unfold names
  rw [memberShapes_eq_filterMap, List.map_filterMap, funext (names_resolvedShape site)]

end ElementManifest

/-!
# Sets of characters as ranges

The classes of the Unicode standard are kept as closed ranges of code points.
-/

namespace ElementManifest.Text

/-- A set of characters, as closed ranges of code points in rising order. -/
structure CharRanges where
  ranges : Array (Nat × Nat)

namespace CharRanges

/-- Whether `c` lies in one of the ranges. -/
def contains (t : CharRanges) (c : Char) : Bool :=
  t.ranges.any fun (lo, hi) => lo ≤ c.toNat && c.toNat ≤ hi

theorem contains_eq_true_iff {t : CharRanges} {c : Char} :
    t.contains c = true ↔ ∃ r ∈ t.ranges, r.1 ≤ c.toNat ∧ c.toNat ≤ r.2 := by
  simp only [contains, Array.any_eq_true', Bool.and_eq_true, decide_eq_true_eq]

end CharRanges

end ElementManifest.Text

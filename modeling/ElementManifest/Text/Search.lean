/-!
# Searching in texts
-/

namespace ElementManifest.Text

/-- Whether `needle` stands somewhere in a text. -/
def hasInfix (needle : List Char) : List Char → Bool
  | [] => needle.isEmpty
  | c :: s => needle.isPrefixOf (c :: s) || hasInfix needle s

theorem hasInfix_iff {needle s : List Char} : hasInfix needle s = true ↔ needle <:+: s := by
  induction s with
  | nil => rw [hasInfix, List.isEmpty_iff, List.infix_nil]
  | cons c s ih =>
    rw [hasInfix, Bool.or_eq_true, List.isPrefixOf_iff_prefix, ih, List.infix_cons_iff]

/-- Whether a text ends with `tail`. -/
def endsWith (tail s : List Char) : Bool :=
  tail.isSuffixOf s

end ElementManifest.Text

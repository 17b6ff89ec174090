/-!
# Splitting texts
-/

namespace ElementManifest.Text

/-- The parts of a text between the characters for which `p` holds. -/
def splitOn (p : Char → Bool) : List Char → List (List Char)
  | [] => [[]]
  | c :: s =>
    if p c then [] :: splitOn p s
    else
      match splitOn p s with
      | part :: parts => (c :: part) :: parts
      | [] => [[c]]

theorem splitOn_ne_nil (p : Char → Bool) (s : List Char) : splitOn p s ≠ [] := by
  cases s with
  | nil => simp [splitOn]
  | cons c s =>
    unfold splitOn
    split
    · simp
    · split <;> simp

/-- Parts with a text between them. -/
def joinWith (between : List Char) : List (List Char) → List Char
  | [] => []
  | [part] => part
  | part :: parts => part ++ between ++ joinWith between parts

/-- The lines of a text. A line break at the end starts one more line. -/
def lines (s : List Char) : List (List Char) :=
  splitOn (· = '\n') s

end ElementManifest.Text

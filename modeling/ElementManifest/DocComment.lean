import ElementManifest.Text.Blank
import ElementManifest.Text.Split
import ElementManifest.TypeScript.Token

/-!
# Doc comments

A doc comment is a block comment that opens with exactly two stars. Only its
description is kept: the lines without their gutters, up to the first tag.
-/

namespace ElementManifest

open ElementManifest.Text ElementManifest.TypeScript

namespace DocComment

/-- A line without its gutter, the star and the blanks around it. -/
def ungutter (line : List Char) : List Char :=
  match trim line with
  | '*' :: s => trim s
  | s => s

/-- Whether a line starts a tag. -/
def isTag (line : List Char) : Bool :=
  line.head? = some '@'

/-- The lines without the empty ones at both ends. -/
def dropEmptyEnds (lines : List (List Char)) : List (List Char) :=
  ((lines.dropWhile List.isEmpty).reverse.dropWhile List.isEmpty).reverse

/-- The lines of the description in the body of a doc comment. -/
def descriptionLines (body : List Char) : List (List Char) :=
  dropEmptyEnds (((lines body).map ungutter).takeWhile fun line => !isTag line)

/-- The description in the body of a doc comment, if it has one. -/
def description (body : List Char) : Option String :=
  match descriptionLines body with
  | [] => none
  | ls => some (String.ofList (joinWith ['\n'] ls))

/-- The description of a comment, if it is a doc comment. -/
def ofComment (c : Comment) : Option String :=
  match c.text with
  | '*' :: '*' :: _ => none
  | '*' :: body => description body
  | _ => none

/-- The description of the last doc comment between the bytes `lo` and `hi`. -/
def between (comments : List Comment) (lo hi : Nat) : Option String :=
  ((comments.filter fun c => lo ≤ c.span.lo ∧ c.span.hi ≤ hi).filterMap ofComment).getLast?

end DocComment

end ElementManifest

import ElementManifest.Glob.Pattern

/-!
# Matching patterns

A piece that stands for any text tries the empty text first, then longer ones. A
match that runs out of text would run out of every shorter one as well, so that
no other way is tried then.
-/

namespace ElementManifest.Glob

/-- The outcome of a match: it holds, it does not, or the text was too short. -/
inductive Outcome
  | holds
  | fails
  | tooShort
  deriving DecidableEq, Repr

/-- Whether a piece that stands for one character stands for `c`. -/
def Token.accepts (c : Char) : Token → Bool
  | literal d => c = d
  | anyChar => true
  | within spans => spans.any (·.contains c)
  | outside spans => !spans.any (·.contains c)
  | anyText => false
  | anyParts => false

/-- Leave out more and more of a text, and try to match the rest each time. When
whole parts are left out, the rest starts behind a slash or is empty. -/
def leaveOut (wholeParts : Bool) (rest : List Char → Outcome) : List Char → Outcome
  | [] => rest []
  | c :: s =>
    if wholeParts && c ≠ '/' then leaveOut wholeParts rest s
    else
      match rest s with
      | .fails => leaveOut wholeParts rest s
      | outcome => outcome

/-- Leave out nothing or more of a text. -/
def leaveOutAny (wholeParts : Bool) (rest : List Char → Outcome) (s : List Char) : Outcome :=
  match rest s with
  | .fails => leaveOut wholeParts rest s
  | outcome => outcome

/-- Match pieces with a text. -/
def matchTokens : List Token → List Char → Outcome
  | [], s => if s.isEmpty then .holds else .fails
  | .anyText :: ts, s => leaveOutAny false (fun s => matchTokens ts s) s
  | .anyParts :: ts, s => leaveOutAny true (fun s => matchTokens ts s) s
  | _ :: _, [] => .tooShort
  | t :: ts, c :: s => if t.accepts c then matchTokens ts s else .fails

/-- Whether a pattern stands for a text. -/
def Pattern.isMatch (p : Pattern) (text : String) : Bool :=
  matchTokens p.tokens text.toList = .holds

end ElementManifest.Glob

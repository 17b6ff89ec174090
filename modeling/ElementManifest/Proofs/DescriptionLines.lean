import ElementManifest.DocComment
import ElementManifest.Proofs.TextParts
import Mathlib.Data.List.DropRight

/-!
# The lines of a description

The same description can be written in many ways in the body of a comment: with or without stars,
indented as one likes, with either line break, and with tags behind it (`Written`). Each line is
found again without its gutter (`ungutter_append`), so the body has the lines that have been
written, up to empty ones behind them (`Written.rows`).

> `description_of_written`: the description is told by the lines, without the empty ones at both
> ends.
-/

namespace ElementManifest.DocComment

open ElementManifest.Text

/-! ## Written lines -/

/-- The line breaks that a text can have. -/
inductive LineBreak
  | lf
  | crlf
  | cr
  deriving DecidableEq, Repr

/-- How a line break is written. -/
def LineBreak.chars : LineBreak → List Char
  | lf => ['\n']
  | crlf => ['\r', '\n']
  | cr => ['\r']

/-- Blanks within a line. -/
def Indent (s : List Char) : Prop :=
  ∀ c ∈ s, isBlank c = true ∧ c ≠ '\n'

instance (s : List Char) : Decidable (Indent s) :=
  List.decidableBAll _ s

/-- What may stand in front of a line: blanks, with a star between them or without one. -/
inductive Gutter : List Char → Prop
  | plain {indent : List Char} (hindent : Indent indent) : Gutter indent
  | star {indent gap : List Char} (hindent : Indent indent) (hgap : Indent gap) :
    Gutter (indent ++ '*' :: gap)

/-- A line of a description: it has no blanks around it and no line break in it, and what it starts
with is neither taken for a gutter nor for a tag. -/
structure IsLine (line : List Char) : Prop where
  trimmed : trim line = line
  single : '\n' ∉ line
  star : line.head? ≠ some '*'
  tag : isTag line = false

instance (line : List Char) : Decidable (IsLine line) :=
  decidable_of_iff (trim line = line ∧ '\n' ∉ line ∧ line.head? ≠ some '*' ∧ isTag line = false)
    ⟨fun h => ⟨h.1, h.2.1, h.2.2.1, h.2.2.2⟩, fun h => ⟨h.trimmed, h.single, h.star, h.tag⟩⟩

/-- The ways to write lines as the body of a comment: each in a gutter of its own, with one of
`breaks` behind it if it is not the last. A tag ends them, whatever is behind it. -/
inductive Written (breaks : List LineBreak) : List (List Char) → List Char → Prop
  | done : Written breaks [] []
  | tag {gutter : List Char} (hgutter : Gutter gutter) (rest : List Char) :
    Written breaks [] (gutter ++ '@' :: rest)
  | last {gutter line behind : List Char} (hgutter : Gutter gutter) (hbehind : Indent behind) :
    Written breaks [line] (gutter ++ (line ++ behind))
  | line {gutter line behind body : List Char} {lines : List (List Char)} {b : LineBreak}
      (hgutter : Gutter gutter) (hbehind : Indent behind) (hb : b ∈ breaks)
      (hrest : Written breaks lines body) :
    Written breaks (line :: lines) (gutter ++ (line ++ (behind ++ (b.chars ++ body))))

/-! ## Gutters -/

theorem Indent.blank {s : List Char} (h : Indent s) : ∀ c ∈ s, isBlank c = true :=
  fun c hc => (h c hc).1

theorem Indent.single {s : List Char} (h : Indent s) : '\n' ∉ s :=
  fun hmem => (h _ hmem).2 rfl

theorem Gutter.single {gutter : List Char} (h : Gutter gutter) : '\n' ∉ gutter := by
  cases h with
  | plain hindent => exact hindent.single
  | star hindent hgap => simp [hindent.single, hgap.single]

theorem trim_trimEnd (s : List Char) : trim (trimEnd s) = trim s := by
  obtain ⟨b, hb, hs⟩ := exists_trimEnd s
  conv_rhs => rw [hs]
  exact (trim_append_blanks hb _).symm

theorem trim_cons_of_not_blank {c : Char} (hc : isBlank c = false) (s : List Char) :
    trim (c :: s) = c :: trimEnd s := by
  have hstart : trimStart (c :: s) = [c] ++ s :=
    List.dropWhile_cons_of_neg (by rw [hc]; exact Bool.false_ne_true)
  have hend : trimEnd [c] = [c] := by
    simp [trimEnd, hc]
  rw [trim, hstart, trimEnd_append]
  split
  next hnil => rw [hend, hnil]
  next => rfl

theorem ungutter_of_ne_star {s : List Char} (h : (trim s).head? ≠ some '*') :
    ungutter s = trim s := by
  unfold ungutter
  split
  next heq => exact absurd (congrArg List.head? heq) h
  next => rfl

/-- A gutter is taken off, unless there is a star behind it. -/
theorem ungutter_append {gutter s : List Char} (hgutter : Gutter gutter)
    (hs : (trim s).head? ≠ some '*') : ungutter (gutter ++ s) = trim s := by
  cases hgutter with
  | plain hindent =>
    have htrim := trim_blanks_append hindent.blank s
    rw [ungutter_of_ne_star (htrim ▸ hs), htrim]
  | @star indent gap hindent hgap =>
    have htrim : trim ((indent ++ '*' :: gap) ++ s) = '*' :: trimEnd (gap ++ s) := by
      rw [List.append_assoc, trim_blanks_append hindent.blank, List.cons_append,
        trim_cons_of_not_blank (by decide)]
    rw [ungutter, htrim]
    exact (trim_trimEnd _).trans (trim_blanks_append hgap.blank s)

/-- A line is found again between its gutter and the blanks behind it. -/
theorem ungutter_line {gutter line behind : List Char} (hgutter : Gutter gutter)
    (hbehind : Indent behind) (h : IsLine line) : ungutter (gutter ++ (line ++ behind)) = line := by
  have htrim : trim (line ++ behind) = line := by
    rw [trim_append_blanks hbehind.blank, h.trimmed]
  rw [ungutter_append hgutter (htrim.symm ▸ h.star), htrim]

/-- A tag is found behind its gutter. -/
theorem isTag_ungutter {gutter : List Char} (hgutter : Gutter gutter) (s : List Char) :
    isTag (ungutter (gutter ++ '@' :: s)) = true := by
  have htrim : trim ('@' :: s) = '@' :: trimEnd s := trim_cons_of_not_blank (by decide) s
  rw [ungutter_append hgutter (by rw [htrim]; simp), htrim]
  rfl

/-! ## The rows of a body -/

theorem lines_of_single {s : List Char} (h : '\n' ∉ s) : lines s = [s] :=
  splitOn_of_free fun _ hc => decide_eq_false fun heq => h (heq ▸ hc)

theorem lines_append_lf {s : List Char} (h : '\n' ∉ s) (body : List Char) :
    lines (s ++ '\n' :: body) = s :: lines body := by
  unfold lines
  rw [splitOn_append_cons (by decide)]
  exact congrArg (· ++ _) (lines_of_single h)

/-- The rows of a body up to the first tag, without their gutters. -/
def rows (body : List Char) : List (List Char) :=
  ((lines body).map ungutter).takeWhile fun line => !isTag line

/-- A line that ends with a line feed is the first row. -/
theorem rows_line {gutter line behind : List Char} (hgutter : Gutter gutter)
    (hbehind : Indent behind) (h : IsLine line) (body : List Char) :
    rows (gutter ++ (line ++ (behind ++ '\n' :: body))) = line :: rows body := by
  have hsingle : '\n' ∉ gutter ++ (line ++ behind) := by
    simp [hgutter.single, hbehind.single, h.single]
  have hlines := lines_append_lf hsingle body
  simp only [List.append_assoc] at hlines
  rw [rows, hlines, List.map_cons, ungutter_line hgutter hbehind h,
    List.takeWhile_cons_of_pos (by rw [h.tag]; rfl)]
  rfl

/-- Nothing of what a tag starts is a row. -/
theorem rows_tag {gutter : List Char} (hgutter : Gutter gutter) (rest : List Char) :
    rows (gutter ++ '@' :: rest) = [] := by
  -- the tag is in the first row, wherever that ends
  obtain ⟨first, more, hrest⟩ := List.exists_cons_of_ne_nil (splitOn_ne_nil (· = '\n') rest)
  have hsingle : ∀ c ∈ gutter ++ ['@'], decide (c = '\n') = false := by
    intro c hc
    refine decide_eq_false fun heq => ?_
    rw [heq] at hc
    simp [hgutter.single] at hc
  have hlines : lines (gutter ++ '@' :: rest) = (gutter ++ '@' :: first) :: more := by
    have hsplit := splitOn_append_of_free hsingle hrest
    rwa [List.append_assoc, List.append_assoc] at hsplit
  rw [rows, hlines, List.map_cons, List.takeWhile_cons_of_neg]
  rw [isTag_ungutter hgutter]
  decide

/-- **The rows of a body are the lines that are written in it**, with nothing but an empty one
behind them. -/
theorem Written.rows {lines : List (List Char)} {body : List Char}
    (h : Written [.lf, .crlf] lines body) (hlines : ∀ l ∈ lines, IsLine l) :
    ∃ behind, (∀ l ∈ behind, l = []) ∧ rows body = lines ++ behind := by
  induction h with
  | done => exact ⟨[[]], by simp, rfl⟩
  | tag hgutter rest => exact ⟨[], nofun, rows_tag hgutter rest⟩
  | @last gutter line behind hgutter hbehind =>
    have hline := hlines line List.mem_cons_self
    have hsingle : '\n' ∉ gutter ++ (line ++ behind) := by
      simp [hgutter.single, hbehind.single, hline.single]
    refine ⟨[], nofun, ?_⟩
    rw [DocComment.rows, lines_of_single hsingle, List.map_singleton,
      ungutter_line hgutter hbehind hline, List.takeWhile_cons_of_pos (by rw [hline.tag]; rfl)]
    rfl
  | @line gutter line behind body lines b hgutter hbehind hb _ ih =>
    have hline := hlines line List.mem_cons_self
    obtain ⟨empty, hempty, hrows⟩ := ih fun l hl => hlines l (List.mem_cons_of_mem line hl)
    refine ⟨empty, hempty, ?_⟩
    -- the carriage return is one more blank behind the line
    obtain ⟨blanks, hblanks, hchars⟩ : ∃ blanks, Indent blanks ∧ b.chars = blanks ++ ['\n'] := by
      cases b with
      | lf => exact ⟨[], nofun, rfl⟩
      | crlf => exact ⟨['\r'], by decide, rfl⟩
      | cr => exact absurd hb (by decide)
    have hbehind' : Indent (behind ++ blanks) :=
      fun c hc => (List.mem_append.mp hc).elim (hbehind c) (hblanks c)
    have hrow := rows_line hgutter hbehind' hline body
    rw [List.append_assoc] at hrow
    rw [hchars, List.append_assoc, List.singleton_append, hrow, hrows]
    rfl

/-! ## Empty lines at the ends -/

/-- `kept` is what is left of `lines` without the empty ones at both ends. -/
structure Core (lines kept : List (List Char)) : Prop where
  surrounded : ∃ before behind, lines = before ++ (kept ++ behind) ∧ ∀ l ∈ before ++ behind, l = []
  first : kept.head? ≠ some []
  last : kept.getLast? ≠ some []

theorem dropEmptyEnds_eq (lines : List (List Char)) :
    dropEmptyEnds lines = (lines.dropWhile List.isEmpty).rdropWhile List.isEmpty :=
  rfl

theorem core_dropEmptyEnds (lines : List (List Char)) : Core lines (dropEmptyEnds lines) := by
  rw [dropEmptyEnds_eq]
  have hsplit : (lines.dropWhile List.isEmpty).rdropWhile List.isEmpty ++
      (lines.dropWhile List.isEmpty).rtakeWhile List.isEmpty = lines.dropWhile List.isEmpty :=
    List.rdropWhile_append_rtakeWhile
  refine ⟨⟨lines.takeWhile List.isEmpty, (lines.dropWhile List.isEmpty).rtakeWhile List.isEmpty,
    ?_, ?_⟩, ?_, ?_⟩
  · rw [hsplit, List.takeWhile_append_dropWhile]
  · intro l hl
    rw [← List.isEmpty_iff]
    rcases List.mem_append.mp hl with hl | hl
    · exact List.all_eq_true.mp List.all_takeWhile l hl
    · exact List.mem_rtakeWhile_imp hl
  · -- what is kept begins where the empty lines at the start end
    intro hfirst
    obtain ⟨rest, hrest⟩ := List.head?_eq_some_iff.mp hfirst
    have hhead := List.head?_dropWhile_not List.isEmpty lines
    rw [← hsplit, hrest] at hhead
    cases hhead
  · intro hlast
    obtain ⟨front, hfront⟩ := List.getLast?_eq_some_iff.mp hlast
    have hne : (lines.dropWhile List.isEmpty).rdropWhile List.isEmpty ≠ [] := by
      rw [hfront]
      exact List.concat_ne_nil [] front
    refine List.rdropWhile_last_not _ _ hne ?_
    simp [hfront]

theorem head_ne_nil_of_dropEmptyEnds {lines rest : List (List Char)} {line : List Char}
    (h : dropEmptyEnds lines = line :: rest) : line ≠ [] := by
  rintro rfl
  exact (core_dropEmptyEnds lines).first (congrArg List.head? h)

theorem dropEmptyEnds_eq_nil_iff {lines : List (List Char)} :
    dropEmptyEnds lines = [] ↔ ∀ l ∈ lines, l = [] := by
  obtain ⟨before, behind, hlines, hempty⟩ := (core_dropEmptyEnds lines).surrounded
  constructor
  · intro hnil
    rw [hnil, List.nil_append] at hlines
    rw [hlines]
    exact hempty
  · intro hall
    have hdrop : lines.dropWhile List.isEmpty = [] :=
      List.dropWhile_eq_nil_iff.mpr fun l hl => List.isEmpty_iff.mpr (hall l hl)
    rw [dropEmptyEnds_eq, hdrop]
    rfl

/-- Empty lines behind the others are left out. -/
theorem dropEmptyEnds_append {lines behind : List (List Char)} (h : ∀ l ∈ behind, l = []) :
    dropEmptyEnds (lines ++ behind) = dropEmptyEnds lines := by
  have hempty : ∀ l ∈ behind, l.isEmpty = true := fun l hl => List.isEmpty_iff.mpr (h l hl)
  rw [dropEmptyEnds_eq, dropEmptyEnds_eq, List.dropWhile_append]
  split
  next hnone =>
    rw [List.isEmpty_iff.mp hnone, List.dropWhile_eq_nil_iff.mpr hempty]
  next =>
    unfold List.rdropWhile
    rw [List.reverse_append,
      List.dropWhile_append_of_pos fun l hl => hempty l (List.mem_reverse.mp hl)]

/-! ## The description -/

theorem description_eq (body : List Char) :
    description body =
      if dropEmptyEnds (rows body) = [] then none
      else some (String.ofList (['\n'].intercalate (dropEmptyEnds (rows body)))) := by
  rw [← joinWith_eq_intercalate]
  unfold description
  split
  next heq => exact (if_pos heq).symm
  next hne => exact (if_neg hne).symm

/-- **The description is told by the lines that are written**, with either of the two line breaks
that end with a line feed. There is none just if all of them are empty. -/
theorem description_of_written {lines : List (List Char)} {body : List Char}
    (h : Written [.lf, .crlf] lines body) (hlines : ∀ l ∈ lines, IsLine l) :
    (description body = none ↔ ∀ l ∈ lines, l = []) ∧
      ∃ kept, Core lines kept ∧
        (kept ≠ [] → description body = some (String.ofList (['\n'].intercalate kept))) := by
  obtain ⟨behind, hempty, hrows⟩ := h.rows hlines
  rw [description_eq, hrows, dropEmptyEnds_append hempty]
  refine ⟨?_, dropEmptyEnds lines, core_dropEmptyEnds lines, fun hne => if_neg hne⟩
  rw [← dropEmptyEnds_eq_nil_iff]
  split
  next hnil => exact iff_of_true rfl hnil
  next hne => exact iff_of_false (Option.some_ne_none _) hne

/-- Two paragraphs and the empty lines around them. -/
def paragraphs : List (List Char) :=
  ["".toList, "First.".toList, "".toList, "Last one.".toList]

/-- The paragraphs in a body that mixes gutters and line breaks, with tags behind them. -/
def paragraphsBody : List Char :=
  "\r\n\t*  First. \n\r\n *Last one.\r\n  * @see b\n * c".toList

theorem description_of_written_paragraphs :
    Written [.lf, .crlf] paragraphs paragraphsBody ∧ (∀ l ∈ paragraphs, IsLine l) ∧
      (description paragraphsBody = none ↔ ∀ l ∈ paragraphs, l = []) ∧
        ∃ kept, Core paragraphs kept ∧ (kept ≠ [] →
          description paragraphsBody = some (String.ofList (['\n'].intercalate kept))) := by
  have hlf : LineBreak.lf ∈ [LineBreak.lf, .crlf] := by decide
  have hcrlf : LineBreak.crlf ∈ [LineBreak.lf, .crlf] := by decide
  have hnone : Indent [] := nofun
  have hspace : Indent [' '] := by decide
  have hplain : Gutter [] := .plain hnone
  have hspaced : Gutter "\t*  ".toList := @Gutter.star ['\t'] [' ', ' '] (by decide) (by decide)
  have htight : Gutter " *".toList := @Gutter.star [' '] [] hspace hnone
  have htag : Gutter "  * ".toList := @Gutter.star [' ', ' '] [' '] (by decide) hspace
  have hbody : Written [.lf, .crlf] paragraphs paragraphsBody :=
    .line hplain hnone hcrlf <| .line hspaced hspace hlf <| .line hplain hnone hcrlf <|
      .line htight hnone hcrlf <| .tag htag "see b\n * c".toList
  have hlines : ∀ l ∈ paragraphs, IsLine l := by decide
  exact ⟨hbody, hlines, description_of_written hbody hlines⟩

example : description "\n * First.\r\n *\n   Last one. \n * @see b".toList =
    some "First.\n\nLast one." := by decide

/-- A carriage return alone breaks no line: the text behind it keeps its gutter. -/
theorem description_keeps_cr :
    Written [.cr] ["a".toList, "b".toList] " * a\r * b".toList ∧
      (∀ l ∈ ["a".toList, "b".toList], IsLine l) ∧
        description " * a\r * b".toList = some "a\r * b" ∧
          description " * a\r * b".toList ≠ some "a\nb" := by
  have hnone : Indent [] := nofun
  have hgutter : Gutter " * ".toList := @Gutter.star [' '] [' '] (by decide) (by decide)
  have hcr : LineBreak.cr ∈ [LineBreak.cr] := by decide
  exact ⟨.line hgutter hnone hcr (.last hgutter hnone), by decide, by decide, by decide⟩

end ElementManifest.DocComment

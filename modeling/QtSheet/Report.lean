import QtSheet.Lint

namespace QtSheet

/-!
# Reports

The outcome of linting a text in lines: that it failed, and one line for each
finding. On demand each finding is followed by the text around it. All outcomes
together give the exit status.
-/

/-- How findings are reported. -/
structure ReportStyle where
  /-- Whether the text around a finding is shown. -/
  verbose : Bool
  /--
  How much of the text after a finding is shown; a negative number leaves out so
  much at the end.
  -/
  previewLength : Int
  deriving Repr, DecidableEq

/-- How findings are reported when nothing is asked for. -/
def ReportStyle.standard : ReportStyle where
  verbose := false
  previewLength := 20

/-- The first characters of a text: so many, or all but so many when the number is negative. -/
def preview (count : Int) (text : List Char) : List Char :=
  if 0 ≤ count then
    text.take count.toNat
  else
    text.take (text.length - (-count).toNat)

/-- A text in three parts: before an excerpt, within it and after it. -/
structure Context where
  left : List Char
  middle : List Char
  right : List Char
  deriving Repr, DecidableEq

/-- The parts of a text around an excerpt. An excerpt that reaches out of the text is cut to it. -/
def Context.ofExcerpt (excerpt : Excerpt) (text : List Char) : Context :=
  let after := text.drop excerpt.start.toNat
  {
    left := text.take excerpt.start.toNat
    middle := after.take excerpt.length.toNat
    right := after.drop excerpt.length.toNat
  }

/-- The parts of a text around an excerpt are the text. -/
theorem Context.append_ofExcerpt (excerpt : Excerpt) (text : List Char) :
    (Context.ofExcerpt excerpt text).left ++
        ((Context.ofExcerpt excerpt text).middle ++
          (Context.ofExcerpt excerpt text).right) =
      text := by
  simp only [Context.ofExcerpt, List.take_append_drop]

namespace Diagnostic

/-- A finding in one line. -/
def reportLine (diagnostic : Diagnostic) (file : String) : String :=
  file ++ ":" ++ diagnostic.summary

/-- A text in quotation marks, from its characters. -/
def quotedList (text : List Char) : String :=
  Text.quoted (String.ofList text)

/-- The text around a finding, in lines. -/
def contextLines
    (diagnostic : Diagnostic)
    (source : String)
    (previewLength : Int) :
    List String :=
  let context := Context.ofExcerpt diagnostic.toExcerpt source.toList
  let lengths := s!"{context.left.length} {context.middle.length} {context.right.length}"
  [
    "    Lexeme causing the error: " ++ Text.quoted diagnostic.text,
    s!"    start: {diagnostic.start} length: {diagnostic.length}",
    s!"    original length: {source.length}",
    "    new length: " ++ lengths,
    "    leftString: " ++ quotedList context.left,
    "    midString: " ++ quotedList context.middle,
    "    rightString: " ++ quotedList (preview previewLength context.right)
  ]

end Diagnostic

namespace Outcome

/-- The lines about one finding of an outcome. -/
def findingLines
    (outcome : Outcome)
    (style : ReportStyle)
    (diagnostic : Diagnostic) :
    List String :=
  diagnostic.reportLine outcome.file ::
    (if style.verbose then
      diagnostic.contextLines outcome.source style.previewLength
    else
      [])

/-- The lines about an outcome; a text without findings has none. -/
def report (outcome : Outcome) (style : ReportStyle) : List String :=
  (if outcome.success then [] else ["Invalid stylesheet for " ++ outcome.file]) ++
    outcome.diagnostics.flatMap (outcome.findingLines style)

end Outcome

/-- Whether all texts passed. -/
def allSucceeded (outcomes : List Outcome) : Bool :=
  outcomes.all fun outcome => outcome.success

/-- The exit status of a run over some texts. -/
def exitStatus (outcomes : List Outcome) : Nat :=
  if allSucceeded outcomes then 0 else 1

end QtSheet

import QtSheet.Sheet.Rule
import QtSheet.Token.Stream

namespace QtSheet

/-!
# Style sheets from tokens and from text

The tokens up to the first end of input are read as rules. When there is a
fault, the rules read are dropped and the faults are reported instead.
-/

/-- The tokens in front of the first end of input. -/
def tokensBeforeEnd (tokens : List Token) : List Token :=
  tokens.takeWhile fun token => token.kind ≠ .endOfInput

/-- The end of input that follows a list of tokens without one. -/
def impliedEnd (tokens : List Token) : Token :=
  match tokens.getLast? with
  | none => { toExcerpt := Excerpt.empty, kind := .endOfInput }
  | some last =>
      {
        text := ""
        start := last.stop
        length := 0
        line := last.line
        column := 1
        kind := .endOfInput
      }

/-- The first end of input of a list of tokens. -/
def endOfTokens (tokens : List Token) : Token :=
  (tokens.find? fun token => token.kind = .endOfInput).getD (impliedEnd tokens)

namespace Sheet

/-- The rules of a list of tokens and the findings about it, as far as it can be read. -/
def outline (tokens : List Token) : Outline :=
  Outline.read (tokensBeforeEnd tokens)

/-- Read a style sheet from its tokens, or report why this cannot be done. -/
def ofTokens (tokens : List Token) : Except (List Diagnostic) Sheet :=
  let outline := outline tokens
  if outline.faults.isEmpty then
    .ok ⟨outline.rules⟩
  else
    .error (outline.faults.map (Fault.diagnostic (endOfTokens tokens)))

end Sheet

/-- The findings that keep a text from being a style sheet. -/
structure Rejection where
  diagnostics : List Diagnostic
  deriving Repr, DecidableEq

namespace Rejection

/-- All findings in one line. -/
def message (rejection : Rejection) : String :=
  s!"Style sheet has {rejection.diagnostics.length} error(s): " ++
    "; ".intercalate (rejection.diagnostics.map Diagnostic.summary)

/-- The line of the first finding. -/
def line? (rejection : Rejection) : Option Int :=
  rejection.diagnostics.head?.map fun diagnostic => diagnostic.line

/-- The column of the first finding. -/
def column? (rejection : Rejection) : Option Int :=
  rejection.diagnostics.head?.map fun diagnostic => diagnostic.column

end Rejection

/-- The findings of a reading that failed, and none of one that succeeded. -/
def findings : Except (List Diagnostic) α → List Diagnostic
  | .ok _ => []
  | .error diagnostics => diagnostics

namespace Sheet

/-- Read a style sheet from its text; a single finding about it is enough to reject it. -/
def ofSource (source : String) : Except Rejection Sheet :=
  let stream := tokenize source
  match stream.diagnostics, ofTokens stream.tokens with
  | [], .ok sheet => .ok sheet
  | diagnostics, reading => .error ⟨diagnostics ++ findings reading⟩

end Sheet

end QtSheet

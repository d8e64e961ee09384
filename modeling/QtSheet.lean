import QtSheet.Check
import QtSheet.CommandLine
import QtSheet.CommandLine.Option
import QtSheet.Diagnostic
import QtSheet.Excerpt
import QtSheet.File.Lint
import QtSheet.File.Path
import QtSheet.File.Source
import QtSheet.File.Tree
import QtSheet.Lint
import QtSheet.Log
import QtSheet.Main
import QtSheet.Piece
import QtSheet.Position
import QtSheet.Property
import QtSheet.Property.Keyword
import QtSheet.Report
import QtSheet.Sheet
import QtSheet.Sheet.Declaration
import QtSheet.Sheet.Fault
import QtSheet.Sheet.Reading
import QtSheet.Sheet.Rule
import QtSheet.Sheet.Selector
import QtSheet.Sheet.Source
import QtSheet.Text.Alphanumeric
import QtSheet.Text.Blank
import QtSheet.Text.DecimalDigit
import QtSheet.Text.Escape
import QtSheet.Text.Integer
import QtSheet.Text.Lowercase
import QtSheet.Text.Printable
import QtSheet.Text.Quoted
import QtSheet.Text.Ranges
import QtSheet.Text.Similarity
import QtSheet.Text.Utf8
import QtSheet.Text.Word
import QtSheet.Token
import QtSheet.Token.Stream
import QtSheet.Value.Grammar
import QtSheet.Value.Match
import QtSheet.Value.Term
import QtSheet.Widget
import QtSheet.Proofs.Grammar
import QtSheet.Proofs.Grammar.Selector
import QtSheet.Proofs.Grammar.Declaration
import QtSheet.Proofs.Grammar.Sheet
import QtSheet.Proofs.Layout
import QtSheet.Proofs.Stretch
import QtSheet.Proofs.Tile
import QtSheet.Proofs.Tiling
import QtSheet.Proofs.Boundary
import QtSheet.Proofs.Likeness
import QtSheet.Proofs.Likeness.Rule
import QtSheet.Proofs.Locality
import QtSheet.Proofs.Relayout
import QtSheet.Proofs.Grammar.Anatomy
import QtSheet.Proofs.Provenance
import QtSheet.Proofs.Place
import QtSheet.Proofs.Truncation
import QtSheet.Proofs.Relocation
import QtSheet.Proofs.Segment
import QtSheet.Proofs.Acceptance
import QtSheet.Proofs.Concatenation
import QtSheet.Proofs.Reread
import QtSheet.Proofs.Value.Letter
import QtSheet.Proofs.Value.Pattern
import QtSheet.Proofs.Value.Terminal
import QtSheet.Proofs.Value.Cut
import QtSheet.Proofs.Value.Phrase
import QtSheet.Proofs.Value.Item
import QtSheet.Proofs.Value.Scan
import QtSheet.Proofs.Value.Sentence
import QtSheet.Proofs.Blame
import QtSheet.Proofs.Recovery.Declaration
import QtSheet.Proofs.Recovery.Selector
import QtSheet.Proofs.Walk
import QtSheet.Proofs.Walk.Selector
import QtSheet.Proofs.Walk.Rule
import QtSheet.Proofs.Zone
import QtSheet.Proofs.Value.Extent
import QtSheet.Proofs.Value.Quotation
import QtSheet.Proofs.Value.Spacing
import QtSheet.Proofs.Value.Token
import QtSheet.Proofs.Value.TokenTerms
import QtSheet.Proofs.Value.Sequence
import QtSheet.Proofs.Lowercase
import QtSheet.Proofs.Value.Font
import QtSheet.Proofs.Case.Letter
import QtSheet.Proofs.Case.Piece
import QtSheet.Proofs.Case.Term
import QtSheet.Proofs.Case.Reading
import QtSheet.Proofs.Case.Sheet
import QtSheet.Proofs.Case.Recasing
import QtSheet.Proofs.Stage
import QtSheet.Proofs.Quote
import QtSheet.Proofs.Subject
import QtSheet.Proofs.Verdict
import QtSheet.Proofs.Pool
import QtSheet.Proofs.Value.Respelling
import QtSheet.Proofs.Value.Inclusion
import QtSheet.Proofs.Value.Number
import QtSheet.Proofs.Argument
import QtSheet.Proofs.Descendant
import QtSheet.Proofs.Encoding
import QtSheet.Proofs.Printable
import QtSheet.Proofs.Message
import QtSheet.Proofs.Report
import QtSheet.Proofs.Transcript

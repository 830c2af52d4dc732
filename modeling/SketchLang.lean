import SketchLang.Main
import SketchLang.Tree.Children
import SketchLang.Tree.Equality
import SketchLang.Tree.Printer
import SketchLang.Proofs.Text.Run
import SketchLang.Proofs.Text.Quoted
import SketchLang.Proofs.Lexeme.Grammar
import SketchLang.Proofs.Lexeme.Recognition
import SketchLang.Proofs.Binary64.Rounding
import SketchLang.Proofs.Binary64.Nearest
import SketchLang.Proofs.Decimal
import SketchLang.Proofs.Binary64.Shortest
import SketchLang.Proofs.Position
import SketchLang.Proofs.Scan.Cuts
import SketchLang.Proofs.Scan.Run
import SketchLang.Proofs.Lexeme.Clash
import SketchLang.Proofs.Lexeme.Reading
import SketchLang.Proofs.Scan.Writing
import SketchLang.Proofs.Scan.Fault
import SketchLang.Proofs.Scan.SourceMap
import SketchLang.Proofs.Scan.Resume
import SketchLang.Proofs.Cursor
import SketchLang.Proofs.Scan.Emitted
import SketchLang.Proofs.Scan.Separated
import SketchLang.Proofs.Scan.Consumed
import SketchLang.Proofs.Scan.Equality
import SketchLang.Proofs.Scan.LineModes
import SketchLang.Proofs.Scan.OneBased
import SketchLang.Proofs.Scan.Log
import SketchLang.Proofs.Command.Outcome
import SketchLang.Proofs.Scan.Yields
import SketchLang.Proofs.Tree.Expression
import SketchLang.Proofs.Tree.Form
import SketchLang.Proofs.Tree.Layout
import SketchLang.Proofs.Tree.Legible
import SketchLang.Proofs.Tree.Readable
import SketchLang.Proofs.Command.Endings
import SketchLang.Proofs.Binary64.Correct
import SketchLang.Proofs.Lexeme.Numeral
import SketchLang.Proofs.Scan.Number
import SketchLang.Proofs.Lexeme.Longest
import SketchLang.Proofs.Scan.LongestMatch
import SketchLang.Proofs.Tree.Frame
import SketchLang.Proofs.Tree.Address
import SketchLang.Proofs.Tree.Walk
import SketchLang.Proofs.Binary64.Equality
import SketchLang.Proofs.Equality
import SketchLang.Proofs.Tree.Agreement
import SketchLang.Proofs.Lexeme.Pattern
import SketchLang.Proofs.Scan.Checked
import SketchLang.Proofs.Scan.Safe

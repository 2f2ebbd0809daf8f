import PatternAction.Main
import PatternAction.Proofs.Lexical.Grammar
import PatternAction.Proofs.Run.Calls
import PatternAction.Proofs.Run.Halting
import PatternAction.Proofs.Syntax.RoundTrip
import PatternAction.Proofs.Lexical.Scanning
import PatternAction.Proofs.Lexical.Spelling
import PatternAction.Proofs.Syntax.Layout
import PatternAction.Proofs.Syntax.Operands
import PatternAction.Proofs.Syntax.Statements
import PatternAction.Proofs.Syntax.Programs
import PatternAction.Proofs.Syntax.Renaming
import PatternAction.Proofs.Run.Correspondence
import PatternAction.Proofs.Run.Mirror
import PatternAction.Proofs.Run.Simulation
import PatternAction.Proofs.Run.Parameters
import PatternAction.Proofs.Syntax.Extension
import PatternAction.Proofs.Syntax.Merging
import PatternAction.Proofs.Number.Counting
import PatternAction.Proofs.Run.Counters
import PatternAction.Proofs.Run.Kinds
import PatternAction.Proofs.Run.Records
import PatternAction.Proofs.Run.Rerun
import PatternAction.Proofs.Syntax.Progress
import PatternAction.Proofs.Syntax.Wellformedness
import PatternAction.Proofs.Syntax.EndOfInput
import PatternAction.Proofs.Run.Unread
import PatternAction.Proofs.Number.Rounding
import PatternAction.Proofs.Number.Canonical
import PatternAction.Proofs.Number.Nearest
import PatternAction.Proofs.Number.Literal
import PatternAction.Proofs.Number.Grammar
import PatternAction.Proofs.Number.Reading
import PatternAction.Proofs.Number.Writing
import PatternAction.Proofs.Text.Pieces
import PatternAction.Proofs.Text.Spans
import PatternAction.Proofs.Text.Splitting
import PatternAction.Proofs.Run.Splitting
import PatternAction.Proofs.Run.Fields
import PatternAction.Proofs.Run.Rereading
import PatternAction.Proofs.Run.Inspection
import PatternAction.Proofs.Run.Increments
import PatternAction.Proofs.Text.Substitution
import PatternAction.Proofs.Run.Substitution
import PatternAction.Proofs.Format.Segments
import PatternAction.Proofs.Format.Padding
import PatternAction.Proofs.Number.Truncation
import PatternAction.Proofs.Format.Bases
import PatternAction.Proofs.Format.Integers
import PatternAction.Proofs.Format.General
import PatternAction.Proofs.Lexical.Lines
import PatternAction.Proofs.Lexical.Steps
import PatternAction.Proofs.Text.Encoding
import PatternAction.Proofs.Text.Positions
import PatternAction.Proofs.Run.Comparisons
import PatternAction.Proofs.Text.Replacement
import PatternAction.Proofs.Syntax.Consumption
import PatternAction.Proofs.Syntax.Beginnings

import Propositional.Assignment
import Propositional.Bindings
import Propositional.Command.Arguments
import Propositional.Command.Run
import Propositional.Datum
import Propositional.Decimal
import Propositional.Dependencies
import Propositional.Diagram
import Propositional.Dot
import Propositional.Evaluation
import Propositional.FileTree
import Propositional.Formula.Journal
import Propositional.Formula.Reading
import Propositional.Formula.Token
import Propositional.Journal
import Propositional.Layout
import Propositional.Letter
import Propositional.Letters
import Propositional.Main
import Propositional.Position
import Propositional.Quiz
import Propositional.Sentence
import Propositional.Sentence.Rendering
import Propositional.Submission
import Propositional.Table
import Propositional.Table.PlainText
import Propositional.Text
import Propositional.Text.Blank
import Propositional.Text.Centered
import Propositional.Text.Digit
import Propositional.Text.Lines
import Propositional.Text.Printable
import Propositional.Text.Quoted
import Propositional.Text.Utf8
import Propositional.Proofs.Bindings.Lookup
import Propositional.Proofs.Evaluation.Outcome
import Propositional.Proofs.Formula.Derivation
import Propositional.Proofs.Formula.RoundTrip
import Propositional.Proofs.Formula.Viable
import Propositional.Proofs.Formula.Faults
import Propositional.Proofs.Layout.Linearization
import Propositional.Proofs.Layout.QuasiColumns
import Propositional.Proofs.Layout.DependencyGraph
import Propositional.Proofs.Layout.OpenParts
import Propositional.Proofs.Table.Enumeration
import Propositional.Proofs.Quiz.Sheet
import Propositional.Proofs.Quiz.Marks
import Propositional.Proofs.Quiz.Moves
import Propositional.Proofs.Quiz.Accuracy
import Propositional.Proofs.Quiz.Gating
import Propositional.Proofs.Table.Values
import Propositional.Proofs.Layout.Steps
import Propositional.Proofs.Table.Equivalence
import Propositional.Proofs.Quiz.Steps
import Propositional.Proofs.Quiz.Progress
import Propositional.Proofs.Quiz.Reveal
import Propositional.Proofs.Quiz.Failure
import Propositional.Proofs.Table.Display
import Propositional.Proofs.Command.Settings
import Propositional.Proofs.Submission.Judging
import Propositional.Proofs.Command.Rejections
import Propositional.Proofs.Sentence.CompactForm
import Propositional.Proofs.Text.Utf8
import Propositional.Proofs.Submission.Batch
import Propositional.Proofs.Command.BatchFile
import Propositional.Proofs.Formula.Nest
import Propositional.Proofs.Formula.Normalization
import Propositional.Proofs.Submission.OuterBrackets
import Propositional.Proofs.Sentence.DisplayedForms
import Propositional.Proofs.Sentence.Renderings
import Propositional.Proofs.Evaluation.Requests
import Propositional.Proofs.Letters.Order
import Propositional.Proofs.Table.Projection
import Propositional.Proofs.Formula.Segmentation
import Propositional.Proofs.Evaluation.Coincidence
import Propositional.Proofs.Layout.Pieces
import Propositional.Proofs.Table.Alignment
import Propositional.Proofs.Table.Formats
import Propositional.Proofs.Evaluation.Shapes
import Propositional.Proofs.Quiz.Locality
import Propositional.Proofs.Quiz.Commuting
import Propositional.Proofs.Table.Rearrangement
import Propositional.Proofs.Quiz.Cells
import Propositional.Proofs.Layout.Drawing
import Propositional.Proofs.Layout.Grouping
import Propositional.Proofs.Layout.Segments
import Propositional.Proofs.Letters.Collecting
import Propositional.Proofs.Submission.Readiness
import Propositional.Proofs.Submission.Joining

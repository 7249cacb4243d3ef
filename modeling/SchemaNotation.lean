import SchemaNotation.Text.Basic
import SchemaNotation.Text.CodePoints
import SchemaNotation.Text.Word
import SchemaNotation.Text.Digit
import SchemaNotation.Text.Printable
import SchemaNotation.Text.Letter
import SchemaNotation.Text.Scan
import SchemaNotation.Text.Integer
import SchemaNotation.Text.Quoted
import SchemaNotation.Text.Line
import SchemaNotation.ColumnType
import SchemaNotation.Identifier
import SchemaNotation.Constraint
import SchemaNotation.Constraint.Reader
import SchemaNotation.TableConstraint
import SchemaNotation.Tag
import SchemaNotation.Column.Reader
import SchemaNotation.Document
import SchemaNotation.Dialect
import SchemaNotation.Fault
import SchemaNotation.Layout
import SchemaNotation.Render
import SchemaNotation.Settings
import SchemaNotation.DeclaredType
import SchemaNotation.TypeMap
import SchemaNotation.Value
import SchemaNotation.Value.Schema
import SchemaNotation.RoundTrip
import SchemaNotation.Workspace
import SchemaNotation.Ddl.Import
import SchemaNotation.Ddl.Expression
import SchemaNotation.Proofs.Outcome
import SchemaNotation.Proofs.Text
import SchemaNotation.Proofs.Line
import SchemaNotation.Proofs.Character
import SchemaNotation.Proofs.Scan
import SchemaNotation.Proofs.Identifier
import SchemaNotation.Proofs.Quotation
import SchemaNotation.Proofs.Integer
import SchemaNotation.Proofs.Literal
import SchemaNotation.Proofs.ColumnType
import SchemaNotation.Proofs.Comment
import SchemaNotation.Proofs.CommentStart
import SchemaNotation.Proofs.ColumnLine
import SchemaNotation.Proofs.Mention
import SchemaNotation.Proofs.Phrase
import SchemaNotation.Proofs.Action
import SchemaNotation.Proofs.ForeignKey
import SchemaNotation.Proofs.TableConstraint
import SchemaNotation.Proofs.Tag
import SchemaNotation.Proofs.Constraint
import SchemaNotation.Proofs.ConstraintReader
import SchemaNotation.Proofs.Column
import SchemaNotation.Proofs.Document
import SchemaNotation.Proofs.LineEnd
import SchemaNotation.Proofs.Render
import SchemaNotation.Proofs.ColumnOrder
import SchemaNotation.Proofs.RoundTrip
import SchemaNotation.Proofs.StatedComment
import SchemaNotation.Proofs.Recognition
import SchemaNotation.Proofs.Built
import SchemaNotation.Proofs.Placement
import SchemaNotation.Proofs.Reference
import SchemaNotation.Proofs.Failure
import SchemaNotation.Proofs.Outline
import SchemaNotation.Proofs.Composition
import SchemaNotation.Proofs.Piece
import SchemaNotation.Proofs.Segment
import SchemaNotation.Proofs.OneLine
import SchemaNotation.Proofs.Legible
import SchemaNotation.Proofs.Reproduction
import SchemaNotation.Proofs.Keyed
import SchemaNotation.Proofs.ImportStep
import SchemaNotation.Proofs.Imported
import SchemaNotation.Proofs.Standing
import SchemaNotation.Proofs.Nullability
import SchemaNotation.Proofs.Rearrangement
import SchemaNotation.Proofs.Independence
import SchemaNotation.Proofs.TwoReadings
import SchemaNotation.Proofs.Skipping
import SchemaNotation.Proofs.Cause
import SchemaNotation.Proofs.Settings
import SchemaNotation.Proofs.Alignment
import SchemaNotation.Proofs.BlankSetting
import SchemaNotation.Proofs.Words
import SchemaNotation.Proofs.Letter
import SchemaNotation.Proofs.DeclaredType
import SchemaNotation.Proofs.TypeMap
import SchemaNotation.Proofs.ImportedType

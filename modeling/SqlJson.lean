import SqlJson.Binary.Basic
import SqlJson.Binary.Reader
import SqlJson.Binary.Shortest
import SqlJson.Command
import SqlJson.Config
import SqlJson.Decimal.Basic
import SqlJson.Decimal.Reader
import SqlJson.Decimal.Writer
import SqlJson.Edit.Basic
import SqlJson.Edit.Walk
import SqlJson.Engine
import SqlJson.Error
import SqlJson.Expression.Evaluation
import SqlJson.Expression.Lexer
import SqlJson.Expression.Syntax
import SqlJson.Expression.Token
import SqlJson.Function.Arguments
import SqlJson.Function.Call
import SqlJson.Function.Extractor
import SqlJson.Function.Run
import SqlJson.Json.Basic
import SqlJson.Json.Equality
import SqlJson.Json.Fault
import SqlJson.Json.Reader
import SqlJson.Json.StripNulls
import SqlJson.Json.Writer
import SqlJson.Main
import SqlJson.Number.Basic
import SqlJson.Path.Basic
import SqlJson.Path.Cache
import SqlJson.Path.Fault
import SqlJson.Path.Reader
import SqlJson.Sql.Calendar
import SqlJson.Sql.CalendarReader
import SqlJson.Sql.Encoding
import SqlJson.Sql.Extraction
import SqlJson.Sql.Type
import SqlJson.Sql.Value
import SqlJson.Text.Base64
import SqlJson.Text.Blank
import SqlJson.Text.Case
import SqlJson.Text.CharSet
import SqlJson.Text.Integer
import SqlJson.Text.Letter
import SqlJson.Text.Quoted
import SqlJson.Text.Size
import SqlJson.Toml.Basic
import SqlJson.Toml.Reader
import SqlJson.Toml.Scalar
import SqlJson.Proofs.Json.Grammar
import SqlJson.Proofs.Json.StringText
import SqlJson.Proofs.Decimal.NormalForm
import SqlJson.Proofs.Text.Runs
import SqlJson.Proofs.Decimal.Reading
import SqlJson.Proofs.Json.NumberText
import SqlJson.Proofs.Json.Reading
import SqlJson.Proofs.Binary.Nearest
import SqlJson.Proofs.Binary.Shortest
import SqlJson.Proofs.Decimal.Texts
import SqlJson.Proofs.Number.Lossless
import SqlJson.Proofs.Number.Rereading
import SqlJson.Proofs.Json.Layout
import SqlJson.Proofs.Json.RoundTrip
import SqlJson.Proofs.Json.Equality
import SqlJson.Proofs.Function.Conversion
import SqlJson.Proofs.Sql.Encoding
import SqlJson.Proofs.Sql.RoundTrip
import SqlJson.Proofs.Edit.Rebuilding
import SqlJson.Proofs.Edit.Frame
import SqlJson.Proofs.Edit.Stopping
import SqlJson.Proofs.Edit.Creation
import SqlJson.Proofs.Function.Action
import SqlJson.Proofs.Edit.Agreement
import SqlJson.Proofs.Number.WellFormed
import SqlJson.Proofs.Json.WellFormed
import SqlJson.Proofs.Edit.WellFormed
import SqlJson.Proofs.Function.Names
import SqlJson.Proofs.Function.Documents
import SqlJson.Proofs.Function.WellFormed
import SqlJson.Proofs.Expression.Parts
import SqlJson.Proofs.Expression.WellFormed
import SqlJson.Proofs.Path.Cache
import SqlJson.Proofs.Function.Blind
import SqlJson.Proofs.Expression.Blind
import SqlJson.Proofs.Expression.History
import SqlJson.Proofs.Command.Alone
import SqlJson.Proofs.Path.Grammar
import SqlJson.Proofs.Path.Reading
import SqlJson.Proofs.Path.Writing
import SqlJson.Proofs.Json.Failures
import SqlJson.Proofs.Function.Failures
import SqlJson.Proofs.Function.DocumentArgument
import SqlJson.Proofs.Function.Refusal
import SqlJson.Proofs.Function.Queries
import SqlJson.Proofs.Function.Lookups
import SqlJson.Proofs.Binary.Separation
import SqlJson.Proofs.Binary.Digits
import SqlJson.Proofs.Binary.Widening
import SqlJson.Proofs.Sql.Extraction
import SqlJson.Proofs.Sql.Recovery
import SqlJson.Proofs.Edit.Rewalking
import SqlJson.Proofs.Edit.Appending
import SqlJson.Proofs.Edit.Removing
import SqlJson.Proofs.Function.Chaining
import SqlJson.Proofs.Decimal.Value
import SqlJson.Proofs.Sql.Agreement
import SqlJson.Proofs.Json.Literals
import SqlJson.Proofs.Json.Modes
import SqlJson.Proofs.Function.TextInput
import SqlJson.Proofs.Text.Case
import SqlJson.Proofs.Text.Integer
import SqlJson.Proofs.Json.Stripping
import SqlJson.Proofs.Function.Stripping
import SqlJson.Proofs.Expression.Grammar
import SqlJson.Proofs.Expression.Numerals
import SqlJson.Proofs.Expression.Strings
import SqlJson.Proofs.Expression.Reading
import SqlJson.Proofs.Expression.Soundness
import SqlJson.Proofs.Expression.Completeness
import SqlJson.Proofs.Binary.Exactness
import SqlJson.Proofs.Binary.Ties
import SqlJson.Proofs.Number.LosslessRule
import SqlJson.Proofs.Json.LiteralValue
import SqlJson.Proofs.Json.Saturation
import SqlJson.Proofs.Sql.Rounding
import SqlJson.Proofs.Decimal.Grammar
import SqlJson.Proofs.Decimal.Shapes
import SqlJson.Proofs.Number.Equality
import SqlJson.Proofs.Json.Equivalence
import SqlJson.Proofs.Sql.Congruence
import SqlJson.Proofs.Binary.Integral
import SqlJson.Proofs.Sql.Integral
import SqlJson.Proofs.Text.Digits
import SqlJson.Proofs.Decimal.HalfAway
import SqlJson.Proofs.Sql.LaxNumbers
import SqlJson.Proofs.Json.Classification
import SqlJson.Proofs.Sql.Stringifying
import SqlJson.Proofs.Path.Recency
import SqlJson.Proofs.Edit.Successive
import SqlJson.Proofs.Json.Counting
import SqlJson.Proofs.Edit.Padding
import SqlJson.Proofs.Checked
import SqlJson.Proofs.Decimal.Machine
import SqlJson.Proofs.Decimal.Storage
import SqlJson.Proofs.Decimal.InRange
import SqlJson.Proofs.Text.Bytes
import SqlJson.Proofs.Text.Place
import SqlJson.Proofs.Text.Scan
import SqlJson.Proofs.Json.Scanner
import SqlJson.Proofs.Json.Tokens
import SqlJson.Proofs.Json.Scanning
import SqlJson.Proofs.Path.Scanner
import SqlJson.Proofs.Boundaries

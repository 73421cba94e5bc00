import FieldSearch.Calendar.Date
import FieldSearch.Calendar.Digits
import FieldSearch.Calendar.Instant
import FieldSearch.Calendar.Layout
import FieldSearch.Calendar.Reading
import FieldSearch.Calendar.Rfc3339
import FieldSearch.Calendar.Zone
import FieldSearch.Calendar.ZoneTable
import FieldSearch.Command.Basic
import FieldSearch.Command.Response
import FieldSearch.Condition.Basic
import FieldSearch.Condition.Compilation
import FieldSearch.Condition.Compile
import FieldSearch.Condition.Error
import FieldSearch.Condition.Registry
import FieldSearch.Condition.Renderer
import FieldSearch.Decimal.Binary64
import FieldSearch.Definition.Basic
import FieldSearch.Definition.Document
import FieldSearch.Definition.Sample
import FieldSearch.Definition.Summary
import FieldSearch.Digest.Md5
import FieldSearch.Field.Basic
import FieldSearch.Field.BindValue
import FieldSearch.Field.FieldType
import FieldSearch.Field.Number
import FieldSearch.File
import FieldSearch.Json.Fault
import FieldSearch.Json.Number
import FieldSearch.Json.Reader
import FieldSearch.Json.Record
import FieldSearch.Json.Value
import FieldSearch.Json.Writer
import FieldSearch.Log
import FieldSearch.Main
import FieldSearch.Proofs.Calendar.Days
import FieldSearch.Proofs.Calendar.Texts
import FieldSearch.Proofs.Compile.Alignment
import FieldSearch.Proofs.Compile.Blindness
import FieldSearch.Proofs.Compile.Correctness
import FieldSearch.Proofs.Compile.Counting
import FieldSearch.Proofs.Compile.Defaults
import FieldSearch.Proofs.Compile.Explicit
import FieldSearch.Proofs.Compile.Faults
import FieldSearch.Proofs.Compile.Growth
import FieldSearch.Proofs.Compile.Meaning
import FieldSearch.Proofs.Compile.Pruning
import FieldSearch.Proofs.Compile.Reuse
import FieldSearch.Proofs.Compile.Rules
import FieldSearch.Proofs.Compile.Run
import FieldSearch.Proofs.Condition.Truth
import FieldSearch.Proofs.Condition.Written
import FieldSearch.Proofs.Definition.Building
import FieldSearch.Proofs.Query.Agreement
import FieldSearch.Proofs.Query.Kinds
import FieldSearch.Proofs.Query.Language
import FieldSearch.Proofs.Query.Normal
import FieldSearch.Proofs.Query.Terms
import FieldSearch.Proofs.Query.Rendering
import FieldSearch.Proofs.Query.RoundTrip
import FieldSearch.Proofs.Query.Scan
import FieldSearch.Proofs.Query.Sentence
import FieldSearch.Proofs.Query.Token
import FieldSearch.Proofs.Search.Blame
import FieldSearch.Proofs.Search.Blank
import FieldSearch.Proofs.Search.Naming
import FieldSearch.Proofs.Text.Marks
import FieldSearch.Query.Attempt
import FieldSearch.Query.Clause
import FieldSearch.Query.Document
import FieldSearch.Query.Error
import FieldSearch.Query.Grammar
import FieldSearch.Query.Lexeme
import FieldSearch.Query.Node
import FieldSearch.Query.Operator
import FieldSearch.Query.Parse
import FieldSearch.Query.Place
import FieldSearch.Query.Reading
import FieldSearch.Query.Rule
import FieldSearch.Search
import FieldSearch.Search.Expectation
import FieldSearch.Text.Hidden
import FieldSearch.Text.Quoted
import FieldSearch.Text.Rest
import FieldSearch.Text.Utf8
import FieldSearch.Text.White
import FieldSearch.Proofs.Field.Literal
import FieldSearch.Proofs.Search.Fingerprint
import FieldSearch.Proofs.Json.Reading
import FieldSearch.Proofs.Json.RoundTrip
import FieldSearch.Proofs.Query.Document
import FieldSearch.Proofs.Definition.Document
import FieldSearch.Proofs.Calendar.Clock
import FieldSearch.Proofs.Calendar.Zones
import FieldSearch.Proofs.Definition.Temporal
import FieldSearch.Proofs.Query.Respacing
import FieldSearch.Proofs.Calendar.Shapes
import FieldSearch.Proofs.Calendar.Rereading
import FieldSearch.Proofs.Field.Temporal
import FieldSearch.Proofs.Search.Patterns
import FieldSearch.Proofs.Query.Front
import FieldSearch.Proofs.Query.Place
import FieldSearch.Proofs.Query.Farthest
import FieldSearch.Proofs.Search.Literals
import FieldSearch.Proofs.Text.White
import FieldSearch.Proofs.Field.Spelling
import FieldSearch.Proofs.Definition.Numerical
import FieldSearch.Proofs.Definition.Index

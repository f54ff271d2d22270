import Sieve.Coercion
import Sieve.Document
import Sieve.Engine
import Sieve.Error
import Sieve.Expression
import Sieve.Filter
import Sieve.Json.Fault
import Sieve.Json.Numeral
import Sieve.Json.Reader
import Sieve.Json.Shape
import Sieve.Json.Skip
import Sieve.Json.Value
import Sieve.Json.Written
import Sieve.Matching
import Sieve.Number.Binary64
import Sieve.Number.Reading
import Sieve.Number.Shortest
import Sieve.Number.Written
import Sieve.Operator
import Sieve.Pattern
import Sieve.Proofs.Document.Grammar
import Sieve.Proofs.Document.Kept
import Sieve.Proofs.Document.Parsing
import Sieve.Proofs.Document.Refusal
import Sieve.Proofs.Expression.Canonical
import Sieve.Proofs.Expression.Meaning
import Sieve.Proofs.Expression.Reading
import Sieve.Proofs.Idempotence
import Sieve.Proofs.Json.Consistent
import Sieve.Proofs.Json.Shape
import Sieve.Proofs.Json.Transcript
import Sieve.Proofs.Json.Written
import Sieve.Proofs.Limits
import Sieve.Proofs.Modes
import Sieve.Proofs.Number.Decimal
import Sieve.Proofs.Number.Rounding
import Sieve.Proofs.Number.Shortest
import Sieve.Proofs.Number.Written
import Sieve.Proofs.Outcome
import Sieve.Proofs.Preparation
import Sieve.Proofs.Schema.Building
import Sieve.Proofs.Schema.Column
import Sieve.Proofs.Schema.Latest
import Sieve.Proofs.Schema.Loading
import Sieve.Proofs.Schema.Validity
import Sieve.Proofs.Schema.Written
import Sieve.Proofs.Sql.Independence
import Sieve.Proofs.Sql.Meaning
import Sieve.Proofs.Sql.Numbering
import Sieve.Proofs.Sql.Reading
import Sieve.Proofs.Sql.Threading
import Sieve.Proofs.Sql.Token
import Sieve.Proofs.Sql.Written
import Sieve.Proofs.Structure
import Sieve.Proofs.Text.Digits
import Sieve.Proofs.Time.Calendar
import Sieve.Proofs.Time.Reader
import Sieve.Proofs.Time.Written
import Sieve.Proofs.Tree.Related
import Sieve.Proofs.Tree.Walk
import Sieve.Proofs.Typing
import Sieve.Proofs.Uuid
import Sieve.Proofs.Validation
import Sieve.Report
import Sieve.Schema.Basic
import Sieve.Schema.Document
import Sieve.Schema.Field
import Sieve.Session
import Sieve.Settings.Basic
import Sieve.Settings.Document
import Sieve.Settings.Sources
import Sieve.Sql.Condition
import Sieve.Sql.Fragment
import Sieve.Text.Ascii
import Sieve.Text.Blank
import Sieve.Text.CaseTable
import Sieve.Text.EscapeTable
import Sieve.Text.Lowercase
import Sieve.Text.Quoted
import Sieve.Text.Ranges
import Sieve.Text.Split
import Sieve.Time.Calendar
import Sieve.Time.Instant
import Sieve.Time.Reading
import Sieve.Tree
import Sieve.Uuid
import Sieve.Validation
import Sieve.Value.Raw
import Sieve.Value.Typed
import Sieve.Proofs.Pattern.Cuts
import Sieve.Proofs.Pattern.Escape
import Sieve.Proofs.Pattern.Case
import Sieve.Proofs.Expression.Refusal
import Sieve.Proofs.Naming
import Sieve.Proofs.Number.Order
import Sieve.Proofs.Matching.Comparison
import Sieve.Proofs.Matching.Whole
import Sieve.Proofs.Document.Shorthand
import Sieve.Proofs.Time.Spelling
import Sieve.Proofs.Time.Forms
import Sieve.Proofs.Time.Agreement
import Sieve.Proofs.Tree.Calls
import Sieve.Proofs.Tree.Rewriting
import Sieve.Proofs.Rewriting
import Sieve.Proofs.Expression.Grammar
import Sieve.Proofs.Session

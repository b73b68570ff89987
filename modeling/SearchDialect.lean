import SearchDialect.Azure.Answer
import SearchDialect.Azure.Search
import SearchDialect.Backend
import SearchDialect.Condition.Dialect
import SearchDialect.Elastic.Aggregation
import SearchDialect.Elastic.Answer
import SearchDialect.Elastic.Search
import SearchDialect.Error
import SearchDialect.Filter.Basic
import SearchDialect.Filter.Json
import SearchDialect.Filter.Parameter
import SearchDialect.FormatError
import SearchDialect.Json.Basic
import SearchDialect.Json.Decimal
import SearchDialect.Json.Fields
import SearchDialect.Json.Printer
import SearchDialect.Json.Quoted
import SearchDialect.Json.Written
import SearchDialect.Kind
import SearchDialect.Literal.Basic
import SearchDialect.Literal.Conversion
import SearchDialect.Lucene
import SearchDialect.Lucene.Clauses
import SearchDialect.Model.Basic
import SearchDialect.Model.Description
import SearchDialect.Model.Error
import SearchDialect.Model.Path
import SearchDialect.Model.Selection
import SearchDialect.Number.Double
import SearchDialect.Number.Integer
import SearchDialect.Number.Numeral
import SearchDialect.Number.Shortest
import SearchDialect.OData
import SearchDialect.Platform
import SearchDialect.Predicate.Cursor
import SearchDialect.Predicate.Error
import SearchDialect.Predicate.Expr
import SearchDialect.Predicate.Reader
import SearchDialect.Predicate.ToFilter
import SearchDialect.Predicate.Trace
import SearchDialect.Proofs.Azure.Facets
import SearchDialect.Proofs.Azure.Highlights
import SearchDialect.Proofs.Condition.Chain
import SearchDialect.Proofs.Condition.Formula
import SearchDialect.Proofs.Condition.Reading
import SearchDialect.Proofs.Condition.Truth
import SearchDialect.Proofs.Condition.Writer
import SearchDialect.Proofs.Elastic.Facets
import SearchDialect.Proofs.Elastic.Ranges
import SearchDialect.Proofs.Filter.Agreement
import SearchDialect.Proofs.Filter.Carried
import SearchDialect.Proofs.Filter.Clauses
import SearchDialect.Proofs.Filter.Faults
import SearchDialect.Proofs.Filter.Home
import SearchDialect.Proofs.Filter.Json
import SearchDialect.Proofs.Filter.Parameter
import SearchDialect.Proofs.Filter.Partition
import SearchDialect.Proofs.Filter.Reading
import SearchDialect.Proofs.Filter.Shape
import SearchDialect.Proofs.Filter.Silence
import SearchDialect.Proofs.Filter.Stable
import SearchDialect.Proofs.Filter.StandIn
import SearchDialect.Proofs.Filter.Tree
import SearchDialect.Proofs.Filter.Wire
import SearchDialect.Proofs.Json.Decimal
import SearchDialect.Proofs.Json.Fields
import SearchDialect.Proofs.Json.Members
import SearchDialect.Proofs.Json.Numeral
import SearchDialect.Proofs.Json.Printer
import SearchDialect.Proofs.Json.Quoted
import SearchDialect.Proofs.Json.Unmistakable
import SearchDialect.Proofs.Literal.Conversion
import SearchDialect.Proofs.Literal.Json
import SearchDialect.Proofs.Literal.Lexeme
import SearchDialect.Proofs.Literal.ThroughText
import SearchDialect.Proofs.Literal.Written
import SearchDialect.Proofs.Model.Check
import SearchDialect.Proofs.Model.Member
import SearchDialect.Proofs.Model.Path
import SearchDialect.Proofs.Model.SelectedPaths
import SearchDialect.Proofs.Model.Selection
import SearchDialect.Proofs.Number.Digits
import SearchDialect.Proofs.Number.Exact
import SearchDialect.Proofs.Number.NearestInteger
import SearchDialect.Proofs.Number.Numeral
import SearchDialect.Proofs.Number.Rounding
import SearchDialect.Proofs.Number.Shortest
import SearchDialect.Proofs.Outcome
import SearchDialect.Proofs.Predicate.Atoms
import SearchDialect.Proofs.Predicate.Completeness
import SearchDialect.Proofs.Predicate.Conditions
import SearchDialect.Proofs.Predicate.FirstFault
import SearchDialect.Proofs.Predicate.Grammar
import SearchDialect.Proofs.Predicate.LeftToRight
import SearchDialect.Proofs.Predicate.Meaning
import SearchDialect.Proofs.Predicate.Offsets
import SearchDialect.Proofs.Predicate.Positions
import SearchDialect.Proofs.Predicate.Progress
import SearchDialect.Proofs.Predicate.Reading
import SearchDialect.Proofs.Predicate.Soundness
import SearchDialect.Proofs.Predicate.Steps
import SearchDialect.Proofs.Predicate.Tokens
import SearchDialect.Proofs.Request.OrderBy
import SearchDialect.Proofs.Request.OrderedMap
import SearchDialect.Proofs.Request.ParameterOrder
import SearchDialect.Proofs.Request.QueryString
import SearchDialect.Proofs.Result.Records
import SearchDialect.Proofs.Session.Cache
import SearchDialect.Proofs.Session.Calls
import SearchDialect.Proofs.Session.Outcome
import SearchDialect.Proofs.Settings
import SearchDialect.Proofs.Text.Blank
import SearchDialect.Proofs.Text.Lowercase
import SearchDialect.Proofs.Text.Percent
import SearchDialect.Proofs.Text.Quoted
import SearchDialect.Proofs.Text.Replace
import SearchDialect.Proofs.Text.Respelling
import SearchDialect.Proofs.Text.Split
import SearchDialect.Proofs.Text.StandIn
import SearchDialect.Proofs.Text.Tagged
import SearchDialect.Proofs.Text.Unmistakable
import SearchDialect.Proofs.Text.Utf8
import SearchDialect.Proofs.Time.Printer
import SearchDialect.Proofs.Time.Reader
import SearchDialect.Record.Shape
import SearchDialect.Request.Basic
import SearchDialect.Request.Facet
import SearchDialect.Request.OrderBy
import SearchDialect.Request.QueryString
import SearchDialect.Result.Basic
import SearchDialect.Result.Error
import SearchDialect.Result.Json
import SearchDialect.Result.Record
import SearchDialect.Result.Report
import SearchDialect.Sample.Storefront
import SearchDialect.Session.Basic
import SearchDialect.Session.Cache
import SearchDialect.Settings
import SearchDialect.Text.After
import SearchDialect.Text.Blank
import SearchDialect.Text.Inspected
import SearchDialect.Text.Letter
import SearchDialect.Text.Lowercase
import SearchDialect.Text.Percent
import SearchDialect.Text.Quoted
import SearchDialect.Text.Ranges
import SearchDialect.Text.Replace
import SearchDialect.Text.Split
import SearchDialect.Text.StandIn
import SearchDialect.Text.Utf8
import SearchDialect.Time.Basic
import SearchDialect.Time.Printer
import SearchDialect.Time.Reader

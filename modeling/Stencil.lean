import Stencil.Arguments
import Stencil.Calendar.Date
import Stencil.Calendar.Instant
import Stencil.Calendar.Pattern
import Stencil.Calendar.Shift
import Stencil.Collection
import Stencil.CommandLine.Options
import Stencil.CommandLine.Run
import Stencil.Decimal.Binary64
import Stencil.Decimal.Integer
import Stencil.Decimal.Layout
import Stencil.Decimal.Shortest
import Stencil.Dict
import Stencil.Dotenv
import Stencil.Endpoint
import Stencil.Environment.Codec
import Stencil.Environment.Configuration
import Stencil.Environment.Scope
import Stencil.Environment.Table
import Stencil.FileSystem.Basic
import Stencil.FileSystem.Path
import Stencil.FileVariables
import Stencil.Json.Basic
import Stencil.Json.Number
import Stencil.Json.Parser
import Stencil.Json.Printer
import Stencil.Json.Quoted
import Stencil.Json.Record
import Stencil.Json.Token
import Stencil.JsonPath.Basic
import Stencil.JsonPath.Extract
import Stencil.JsonPath.Octets
import Stencil.JsonPath.Scan
import Stencil.Main
import Stencil.RandomStream
import Stencil.RequestChain
import Stencil.Resolver
import Stencil.Response
import Stencil.Scalar
import Stencil.Session
import Stencil.Surroundings
import Stencil.SystemFunction
import Stencil.Template
import Stencil.Text.Blank
import Stencil.Text.Escape
import Stencil.Text.Lines
import Stencil.Text.Percent
import Stencil.Text.Search
import Stencil.Text.Spans
import Stencil.Url.Address
import Stencil.Url.Basic
import Stencil.Url.Domain
import Stencil.Url.Folding
import Stencil.Url.FoldingTable
import Stencil.Url.Host
import Stencil.Url.Path
import Stencil.Url.Punycode
import Stencil.UserInput
import Stencil.Variable
import Stencil.Proofs.Resolver.Evaluation
import Stencil.Proofs.Resolver.History
import Stencil.Proofs.Resolver.Plain
import Stencil.Proofs.Resolver.Memo
import Stencil.Proofs.Resolver.Cycle
import Stencil.Proofs.Resolver.LateResponse
import Stencil.Proofs.CommandLine.Strict
import Stencil.Proofs.Resolver.WriteOnce
import Stencil.Proofs.Resolver.Containment
import Stencil.Proofs.Resolver.Report
import Stencil.Proofs.Json.Source
import Stencil.Proofs.JsonPath.Scanner
import Stencil.Proofs.JsonPath.Search
import Stencil.Proofs.JsonPath.Grammar
import Stencil.Proofs.JsonPath.Path
import Stencil.Proofs.JsonPath.Walk
import Stencil.Proofs.Json.Tokens
import Stencil.Proofs.Json.Reader
import Stencil.Proofs.Resolver.LineByLine
import Stencil.Proofs.Resolver.Isolation
import Stencil.Proofs.UserInput.Detection
import Stencil.Proofs.UserInput.Gathering
import Stencil.Proofs.UserInput.Remembering
import Stencil.Proofs.Json.Quoted
import Stencil.Proofs.Json.Writer
import Stencil.Proofs.Decimal.Whole
import Stencil.Proofs.Json.Whole
import Stencil.Proofs.FileSystem.ReadBack
import Stencil.Proofs.Json.Dictionary
import Stencil.Proofs.Session.RoundTrip
import Stencil.Proofs.Endpoint.Parts
import Stencil.Proofs.Endpoint.Target
import Stencil.Proofs.JsonPath.Octets
import Stencil.Proofs.JsonPath.Safety
import Stencil.Proofs.JsonPath.Span
import Stencil.Proofs.Calendar.Date
import Stencil.Proofs.Calendar.Shift
import Stencil.Proofs.UserInput.Occurrences
import Stencil.Proofs.UserInput.Agreement
import Stencil.Proofs.Text.Lines
import Stencil.Proofs.UserInput.RequestLine
import Stencil.Proofs.Json.Members
import Stencil.Proofs.Json.Reordering
import Stencil.Proofs.Environment.Loading
import Stencil.Proofs.Environment.Acceptance
import Stencil.Proofs.Environment.Writes
import Stencil.Proofs.RequestChain.References
import Stencil.Proofs.Variable.Providers
import Stencil.Proofs.Decimal.Rounding
import Stencil.Proofs.Decimal.Roundest
import Stencil.Proofs.Scalar.Integers
import Stencil.Proofs.Arguments.Quoting
import Stencil.Proofs.Calendar.Pattern
import Stencil.Proofs.Text.Blank
import Stencil.Proofs.Dotenv.ReadBack
import Stencil.Proofs.Json.ReadBack
import Stencil.Proofs.Text.Escape
import Stencil.Proofs.Text.Percent
import Stencil.Proofs.Environment.Search
import Stencil.Proofs.CommandLine.SessionFile
import Stencil.Proofs.Json.Number

import FlowLog.Address
import FlowLog.Config
import FlowLog.Filter.Check
import FlowLog.Filter.Clause
import FlowLog.Filter.Condition
import FlowLog.Filter.Error
import FlowLog.Filter.Expr
import FlowLog.Filter.FieldClass
import FlowLog.Filter.Literal
import FlowLog.Filter.Operator
import FlowLog.Filter.Outline
import FlowLog.Filter.Parse
import FlowLog.Filter.Registry
import FlowLog.Json.Basic
import FlowLog.Json.Reader
import FlowLog.Json.Writer
import FlowLog.Log.Entry
import FlowLog.Log.Event
import FlowLog.Log.Payload
import FlowLog.Log.Settings
import FlowLog.Log.Timestamp
import FlowLog.Number
import FlowLog.Number.Shortest
import FlowLog.Numeral
import FlowLog.Query.Basic
import FlowLog.Query.Error
import FlowLog.Query.Render
import FlowLog.Query.Verb
import FlowLog.Record
import FlowLog.Request
import FlowLog.Schema
import FlowLog.Schema.FlowRecords
import FlowLog.Service.Arguments
import FlowLog.Service.Catalog
import FlowLog.Service.Failure
import FlowLog.Service.Tool
import FlowLog.Text.Blank
import FlowLog.Text.Fold
import FlowLog.Text.Search
import FlowLog.Text.Units
import FlowLog.Text.UpperCase
import FlowLog.Trace
import FlowLog.Proofs.Splitting
import FlowLog.Proofs.Composition
import FlowLog.Proofs.Clause
import FlowLog.Proofs.Numeral
import FlowLog.Proofs.Leaf
import FlowLog.Proofs.RoundTrip
import FlowLog.Proofs.Expr
import FlowLog.Proofs.Check
import FlowLog.Proofs.Meaning
import FlowLog.Proofs.Fallible
import FlowLog.Proofs.Query
import FlowLog.Proofs.Parse
import FlowLog.Proofs.FilterStage
import FlowLog.Proofs.Typing
import FlowLog.Proofs.Decision
import FlowLog.Proofs.Json
import FlowLog.Proofs.Service
import FlowLog.Proofs.Quoting
import FlowLog.Proofs.Settings
import FlowLog.Proofs.Computed
import FlowLog.Proofs.Cuts
import FlowLog.Proofs.Config
import FlowLog.Proofs.Listing
import FlowLog.Proofs.Attribution
import FlowLog.Proofs.Integers
import FlowLog.Proofs.Address
import FlowLog.Proofs.AddressShape
import FlowLog.Proofs.Subnet
import FlowLog.Proofs.Footprint
import FlowLog.Proofs.Latest
import FlowLog.Proofs.Arguments
import FlowLog.Proofs.FieldList
import FlowLog.Proofs.Registry
import FlowLog.Proofs.Source
import FlowLog.Proofs.ColumnNames
import FlowLog.Proofs.Descent
import FlowLog.Proofs.NumberText
import FlowLog.Proofs.Units
import FlowLog.Proofs.Record
import FlowLog.Proofs.JsonReading
import FlowLog.Proofs.Logging

import FlowLog.Log.Payload
import FlowLog.Service.Arguments

/-!
# Failures

Everything that can go wrong in a tool call, with the name under which each kind of failure is
reported and the failure behind it.
-/

namespace FlowLog.Service

/-- Everything that can go wrong in a tool call. -/
inductive Failure where
  | filter (error : Filter.Error)
  | schema (fault : Schema.Fault)
  | query (error : QueryError)
  | arguments (error : ArgumentError)
  | config (error : Config.Error)
  | unknownTool (name : String)

namespace Failure

/-- The failure of a request. -/
def ofRequest : Request.Error → Failure
  | .filter error => .filter error
  | .query error => .query error

/-- The failure of a check. -/
def ofCheck : Filter.CheckError → Failure
  | .shape error => .filter error
  | .field fault => .schema fault

/-- The sentence that reports a failure. -/
def message : Failure → String
  | .filter error => error.message
  | .schema fault => fault.message
  | .query error => error.message
  | .arguments error => error.message
  | .config error => error.message
  | .unknownTool name => "Unknown tool: " ++ name

/-- The name of a kind of failure; a bare text has none. -/
def name? : Failure → Option String
  | .filter _ => some "FilterParserError"
  | .schema (.other _) => some "Error"
  | .schema (.bare _) => none
  | .schema _ => some "SchemaError"
  | .query _ => some "QueryBuilderError"
  | .arguments _ => some "ValidationError"
  | .config _ => some "Error"
  | .unknownTool _ => some "Error"

/-- The failure behind a failure, unless it is a bare text. -/
def cause? (failure : Failure) : Option Failure :=
  let cause : Option Failure :=
    match failure with
    | .query (.invalidVerb text) => some (.query (.unknownVerb text))
    | .query (.badField _ _ fault) => some (.schema fault)
    | .query (.badFilter error) => some (ofCheck error)
    | .query (.badVersion _ fault) => some (.schema fault)
    | .query (.noPattern fault) => some (.schema fault)
    | _ => none
  cause.filter (·.name?.isSome)

/-- A failure with a given cause as a payload; a bare text stays a text. -/
def payloadWith (failure : Failure) (cause : Option Log.Payload) : Log.Payload :=
  match failure.name? with
  | some name => .error name failure.message (name ++ ": " ++ failure.message) cause
  | none => .text failure.message

/-- A failure as a payload. The stack of a failure is its name and its message. -/
def payload (failure : Failure) : Log.Payload :=
  failure.payloadWith (failure.cause?.map fun cause => cause.payloadWith none)

end Failure

end FlowLog.Service

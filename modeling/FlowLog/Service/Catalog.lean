import FlowLog.Json.Basic
import FlowLog.Service.Tool

/-!
# The catalog of tools

What a caller is told about the tools: their names, what they do, and the shape of their arguments.
-/

namespace FlowLog.Service

/-- The description of an argument of a simple type. -/
def argument (type description : String) : Json :=
  .object [("type", .text type), ("description", .text description)]

/-- The description of an argument that is a list of texts. -/
def listArgument (description : String) : Json :=
  .object [("type", .text "array"), ("items", .object [("type", .text "string")]),
    ("description", .text description)]

/-- The description of the argument for a version. -/
def versionArgument : Json :=
  argument "number" "Flow log record version (2, 3 or 5). Defaults to FLOWQ_DEFAULT_VERSION."

namespace Tool

/-- What a tool does. -/
def description : Tool → String
  | .compileQuery =>
      "Compile a flow log query into CloudWatch Logs Insights syntax. " ++
        "Aggregates with count/sum/avg/min/max, or lists records with raw."
  | .validateFilter =>
      "Check a filter expression against a flow log version and return its compiled form."
  | .listFields => "List the fields of a flow log version, marking numeric and computed fields."

/-- The arguments of a tool. -/
def properties : Tool → List (String × Json)
  | .compileQuery => [
      ("verb", argument "string" "One of raw, count, sum, avg, min, max."),
      ("fields", listArgument
        "Fields to aggregate, or to display for raw. Entries may be comma-separated."),
      ("groupBy", listArgument "Fields to group aggregations by."),
      ("filter", argument "string"
        "Filter expression, e.g. \"srcaddr = 10.0.0.0/24 and (dstport = 443 or protocol = udp)\"."),
      ("limit", argument "number"
        "Maximum rows; 0 disables the limit. Defaults to FLOWQ_DEFAULT_LIMIT."),
      ("version", versionArgument)]
  | .validateFilter => [
      ("filter", argument "string" "Filter expression to validate."), ("version", versionArgument)]
  | .listFields => [("version", versionArgument)]

/-- The arguments that a tool cannot do without. -/
def required : Tool → List String
  | .compileQuery => ["verb"]
  | .validateFilter => ["filter"]
  | .listFields => []

/-- The shape of the arguments of a tool. -/
def inputSchema (tool : Tool) : Json :=
  .object ([("type", .text "object"), ("properties", .object tool.properties)] ++
    if tool.required.isEmpty then [] else [("required", .texts tool.required)])

/-- The entry of a tool in the catalog. -/
def entry (tool : Tool) : Json :=
  .object [("name", .text tool.name), ("description", .text tool.description),
    ("inputSchema", tool.inputSchema)]

end Tool

/-- The catalog of tools. -/
def catalog : Json := .array (Tool.all.map Tool.entry)

end FlowLog.Service

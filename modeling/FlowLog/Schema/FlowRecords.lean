import FlowLog.Schema

/-!
# Flow log records

Records of versions 2, 3 and 5. Versions 3 and 5 have the same fields, those of version 2 first. The
field `duration` is computed from the ends of the time window.
-/

namespace FlowLog.Schema.FlowRecords

/-- The fields of version 2, in record order. -/
def basicFields : List String :=
  ["version", "account_id", "interface_id", "srcaddr", "dstaddr", "srcport", "dstport", "protocol",
    "packets", "bytes", "start", "end", "action", "log_status"]

/-- The fields that versions 3 and 5 add, in record order. -/
def extraFields : List String :=
  ["vpc_id", "subnet_id", "instance_id", "tcp_flags", "type", "pkt_srcaddr", "pkt_dstaddr", "region",
    "az_id", "sublocation_type", "sublocation_id", "pkt_src_aws_service", "pkt_dst_aws_service",
    "flow_direction", "traffic_path"]

/-- The versions that exist, ascending. -/
def versions : List Number := [2, 3, 5]

/-- The version that is meant when none is given. -/
def defaultVersion : Number := 2

/-- The fields of a version. -/
def fieldsOf? (version : Number) : Option (List String) :=
  if version = 2 then some basicFields
  else if version = 3 ∨ version = 5 then some (basicFields ++ extraFields)
  else none

/-- The fields that are numbers. -/
def numericFields : List String :=
  ["srcport", "dstport", "protocol", "packets", "bytes", "start", "end", "duration"]

/-- The fields that stand for computations. -/
def computations : List (String × String) := [("duration", "end - start")]

/-- The computation that a field stands for. -/
def computed (field : String) : Option String := computations.lookup field

/-- The statement that parses records with given fields: one star for each field, and their
names. -/
def patternOf (fields : List String) : String :=
  "parse @message \"" ++ " ".intercalate (fields.map fun _ => "*") ++ "\" as " ++ ", ".intercalate fields

/-- The statement that parses records of a version. -/
def parsePattern (version : Number) : Except Fault String :=
  match fieldsOf? version with
  | some fields => .ok (patternOf fields)
  | none => .error (.noPattern version)

/-- Accepts the star, the computed fields and the fields of the version. -/
def checkField (field : String) (version : Number) : Except Fault Unit :=
  match fieldsOf? version with
  | none => .error (.unknownVersion version (some field))
  | some fields =>
      if field = "*" ∨ (computed field).isSome ∨ field ∈ fields then .ok ()
      else .error (.unknownField field version)

/-- Accepts the versions that exist. -/
def checkVersion (version : Number) : Except Fault Unit :=
  match fieldsOf? version with
  | some _ => .ok ()
  | none => .error (.unknownVersion version none)

/-- The fields of the records of a version. -/
def fields (version : Number) : Except Fault (List String) :=
  match fieldsOf? version with
  | some fields => .ok fields
  | none => .error (.unknownVersion version none)

end FlowRecords

/-- The schema of flow log records. -/
def flowRecords : Schema where
  defaultVersion := FlowRecords.defaultVersion
  parsePattern := FlowRecords.parsePattern
  checkField := FlowRecords.checkField
  checkVersion := FlowRecords.checkVersion
  isNumeric field := FlowRecords.numericFields.contains field
  computed := FlowRecords.computed
  fields := FlowRecords.fields
  computedFields := FlowRecords.computations.map (·.1)

end FlowLog.Schema

import FlowLog.Json.Writer
import FlowLog.Log.Payload
import FlowLog.Text.UpperCase

/-!
# Log entries

An entry is a record that starts with its timestamp, level and message, followed by a category and
by what the payload adds. A member of the payload with one of these names takes its place.

`Entry.pretty?` writes a heading and the remaining members over lines, provided that the level is a
text. `Entry.json` writes everything on one line, and falls back to the heading alone for an entry
that cannot be written; it fails only if the heading cannot be written either. In the fallback an
error shows only the members it has.
-/

namespace FlowLog.Log

/-- A log entry. -/
abbrev Entry := Record Payload

namespace Entry

/-- The members that make the heading of an entry. -/
def headingNames : List String := ["timestamp", "level", "category", "message"]

/-- The first members of an entry; an empty category is none. -/
def heading (timestamp level message : String) (category : Option String) : Entry :=
  [("timestamp", .text timestamp), ("level", .text level), ("message", .text message)] ++
    match category with
    | some name => if name = "" then [] else [("category", .text name)]
    | none => []

/-- Adds a payload to an entry: an error under the name `error`, the members of an object each under
its own name, anything else under the name `data`. -/
def attach (entry : Entry) : Payload → Entry
  | .missing => entry
  | .error name message stack cause =>
      Record.set entry "error" (Payload.error name message stack cause).describe
  | .object members => Record.update entry (members.map fun (name, value) => (name, value.describe))
  | payload => Record.set entry "data" payload

/-- The entry made of a heading and a payload. -/
def create (timestamp level message : String) (category : Option String) (payload : Payload) : Entry :=
  attach (heading timestamp level message category) payload

/-- The value of a member, where a member that is not there is a missing value. -/
def value (entry : Entry) (name : String) : Payload := (Record.get? entry name).getD .missing

/-- The heading of an entry with a given level on one line. -/
def headingText (entry : Entry) (level : String) : List Char :=
  let category := entry.value "category"
  (entry.value "timestamp").plainText ++ ' ' :: '[' :: Text.upper level.toList ++
    "] [flowq".toList ++ (if category.isPresent then ':' :: category.plainText else []) ++
    ']' :: ' ' :: (entry.value "message").plainText

/-- Members over lines, or a note that they cannot be written. -/
def pageText (members : Record Payload) : List Char :=
  match Payload.membersToJson? .report members with
  | .ok members => Json.indented 0 (.object members)
  | .error reason => "[unserializable: ".toList ++ reason.message.toList ++ [']']

/-- An entry as a heading and the remaining members. -/
def pretty? (entry : Entry) : Option String :=
  match entry.value "level" with
  | .text level =>
      let heading := entry.headingText level
      let rest := Record.without headingNames entry
      some (String.ofList (if rest.isEmpty then heading else heading ++ '\n' :: pageText rest))
  | _ => none

/-- The members that are written for an entry that cannot be written. -/
def fallback (entry : Entry) (reason : Payload.Unwritable) : Record Payload :=
  [("timestamp", entry.value "timestamp"), ("level", entry.value "level"),
    ("message", entry.value "message"),
    ("_serializationError", .text ("Failed to serialize: " ++ reason.message))]

/-- Members on one line. -/
def lineText (form : Payload.ErrorForm) (members : Record Payload) :
    Except Payload.Unwritable String :=
  (Payload.membersToJson? form members).map fun members =>
    String.ofList (Json.compact (.object members))

/-- An entry on one line. -/
def json (entry : Entry) : Except Payload.Unwritable String :=
  match lineText .report entry with
  | .ok line => .ok line
  | .error reason => lineText .members (entry.fallback reason)

end Entry

end FlowLog.Log

import FlowLog.Number.Shortest
import FlowLog.Schema.FlowRecords
import FlowLog.Text.Blank

/-!
# Configuration

Defaults for requests, read from the environment. A variable that is missing or blank leaves its
default.
-/

namespace FlowLog

/-- The variables of an environment and their values. -/
abbrev Environment := List (String × String)

/-- The defaults for requests. -/
structure Config where
  defaultLimit : Number
  defaultVersion : Number
  deriving DecidableEq, Repr

namespace Config

/-- The reasons for which an environment gives no configuration. -/
inductive Error where
  | notInteger (name value : String)
  | zeroLimit
  | unsupportedVersion (version : Number)
  deriving DecidableEq, Repr

/-- The variable of the default limit. -/
def limitVariable : String := "FLOWQ_DEFAULT_LIMIT"

/-- The variable of the default version. -/
def versionVariable : String := "FLOWQ_DEFAULT_VERSION"

/-- The limit without a variable. -/
def fallbackLimit : Number := 20

/-- The sentence that reports a fault. -/
def Error.message : Error → String
  | .notInteger name value => name ++ " must be a non-negative integer, got \"" ++ value ++ "\""
  | .zeroLimit => limitVariable ++ " must be greater than zero"
  | .unsupportedVersion version =>
      versionVariable ++ " must be one of " ++
        ", ".intercalate (Schema.FlowRecords.versions.map fun known => String.ofList known.text) ++
        ", got " ++ String.ofList version.text

/-- The number that a variable holds, if it is set and not blank. -/
def readInteger (environment : Environment) (name : String) : Except Error (Option Number) :=
  let value := Text.trim ((environment.lookup name).getD "").toList
  if value.isEmpty then .ok none
  else if Numeral.isDigits value then .ok (some (.ofInt (Numeral.value value)))
  else .error (.notInteger name (String.ofList value))

/-- The configuration of an environment. -/
def load (environment : Environment) : Except Error Config := do
  let defaultLimit := (← readInteger environment limitVariable).getD fallbackLimit
  if defaultLimit = 0 then
    throw .zeroLimit
  let defaultVersion := (← readInteger environment versionVariable).getD
    Schema.FlowRecords.defaultVersion
  if defaultVersion ∉ Schema.FlowRecords.versions then
    throw (.unsupportedVersion defaultVersion)
  return { defaultLimit, defaultVersion }

end Config

end FlowLog

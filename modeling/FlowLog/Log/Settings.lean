import FlowLog.Config
import FlowLog.Text.Fold

/-!
# What is logged, and how

Entries below a level are dropped. Debug entries belong to categories that can be switched off one
by one, and are all off unless debugging is enabled. Level and format apply in either case.
-/

namespace FlowLog.Log

/-- The importance of an entry. -/
inductive Level where
  | debug
  | info
  | warn
  | error
  deriving DecidableEq, Repr

namespace Level

/-- The name of a level. -/
def name : Level → String
  | .debug => "debug"
  | .info => "info"
  | .warn => "warn"
  | .error => "error"

/-- All levels, ascending. -/
def all : List Level := [.debug, .info, .warn, .error]

/-- The rank of a level. -/
def rank : Level → Nat
  | .debug => 0
  | .info => 1
  | .warn => 2
  | .error => 3

/-- The level with a given name. -/
def ofName? (name : String) : Option Level := all.find? (·.name == name)

end Level

/-- The categories of debug entries. -/
inductive Category where
  | parser
  | builder
  | schema
  | server
  deriving DecidableEq, Repr

namespace Category

/-- The name of a category. -/
def name : Category → String
  | .parser => "parser"
  | .builder => "builder"
  | .schema => "schema"
  | .server => "server"

/-- All categories. -/
def all : List Category := [.parser, .builder, .schema, .server]

/-- The category with a given name. -/
def ofName? (name : String) : Option Category := all.find? (·.name == name)

end Category

/-- The layouts of entries. -/
inductive Format where
  | json
  | pretty
  deriving DecidableEq, Repr

/-- The name of a layout. -/
def Format.name : Format → String
  | .json => "json"
  | .pretty => "pretty"

/-- What is logged, and how. -/
structure Settings where
  enabled : Bool
  parser : Bool
  builder : Bool
  schema : Bool
  server : Bool
  level : Level
  format : Format
  deriving DecidableEq, Repr

namespace Settings

/-- A switch: only the word `true` switches on, and an empty or missing value leaves the default. -/
def readSwitch (environment : Environment) (name : String) (default : Bool) : Bool :=
  match environment.lookup name with
  | none => default
  | some value => if value = "" then default else Text.normalized value == "true"

/-- The level; anything that names no level leaves the default. -/
def readLevel (environment : Environment) : Level :=
  (Level.ofName? (Text.normalized ((environment.lookup "FLOWQ_LOG_LEVEL").getD ""))).getD .info

/-- The layout; anything that does not ask for JSON leaves the default. -/
def readFormat (environment : Environment) : Format :=
  if Text.normalized ((environment.lookup "FLOWQ_LOG_FORMAT").getD "") = "json" then .json else .pretty

/-- The settings of an environment. -/
def load (environment : Environment) : Settings :=
  let enabled := readSwitch environment "FLOWQ_DEBUG_MODE" false
  let category (name : String) : Bool := enabled && readSwitch environment name true
  { enabled
    parser := category "FLOWQ_DEBUG_PARSER"
    builder := category "FLOWQ_DEBUG_BUILDER"
    schema := category "FLOWQ_DEBUG_SCHEMA"
    server := category "FLOWQ_DEBUG_SERVER"
    level := readLevel environment
    format := readFormat environment }

/-- Whether debug entries of a category are wanted. -/
def wants (settings : Settings) (category : Category) : Bool :=
  settings.enabled &&
    match category with
    | .parser => settings.parser
    | .builder => settings.builder
    | .schema => settings.schema
    | .server => settings.server

/-- Whether entries of a level are wanted. -/
def reaches (settings : Settings) (level : Level) : Bool := settings.level.rank ≤ level.rank

end Settings

end FlowLog.Log

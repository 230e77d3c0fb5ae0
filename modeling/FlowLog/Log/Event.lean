import FlowLog.Log.Entry
import FlowLog.Log.Settings
import FlowLog.Log.Timestamp

/-!
# Log events

An event is something to be logged, before it is known whether it is wanted and at what time it
happens.
-/

namespace FlowLog.Log

/-- The ways of logging. A metric is an entry of level `info` that is marked as such. -/
inductive Channel where
  | debug (category : Category)
  | info
  | warn
  | error
  | metric
  deriving DecidableEq, Repr

namespace Channel

/-- The channel with a given name; a debug channel has to name a category that exists. -/
def ofName? (name : String) (category : Option String) : Option Channel :=
  if name = "debug" then (category.bind Category.ofName?).map .debug
  else if name = "info" then some .info
  else if name = "warn" then some .warn
  else if name = "error" then some .error
  else if name = "metric" then some .metric
  else none

/-- The level of a channel. -/
def level : Channel → Level
  | .debug _ => .debug
  | .info => .info
  | .warn => .warn
  | .error => .error
  | .metric => .info

/-- The category of a channel. -/
def category? : Channel → Option Category
  | .debug category => some category
  | _ => none

end Channel

/-- Something to be logged. -/
structure Event where
  channel : Channel
  message : String
  payload : Payload := .missing

namespace Event

/-- Whether settings ask for an event. -/
def isWanted (settings : Settings) (event : Event) : Bool :=
  settings.reaches event.channel.level && event.channel.category?.all settings.wants

/-- The entry of an event at an instant. -/
def entry (now : Number) (event : Event) : Entry :=
  let base := Entry.create (timestamp now) event.channel.level.name event.message
    (event.channel.category?.map Category.name) event.payload
  if event.channel = .metric then Record.set base "type" (.text "metric") else base

/-- What is written for an event at an instant, if it is wanted and can be written. -/
def write? (settings : Settings) (now : Number) (event : Event) : Option String :=
  if event.isWanted settings then
    match settings.format with
    | .json => (event.entry now).json.toOption
    | .pretty => (event.entry now).pretty?
  else none

end Event

/-- A span of time that is being measured. -/
structure Timer where
  name : String
  metadata : Record Payload := []
  started : Number

/-- The metric at the end of a span: the metadata of its start and of its end, and its duration. -/
def Timer.finish (timer : Timer) (now : Number) (metadata : Record Payload) : Event where
  channel := .metric
  message := timer.name
  payload := .object <|
    Record.set (Record.update (Record.update [] timer.metadata) metadata) "durationMs"
      (.number (now - timer.started))

end FlowLog.Log

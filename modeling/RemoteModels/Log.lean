/-!
# Log entries

What the client reports while it works: a level, the part that reports, a message and named values.
-/

set_option autoImplicit false

namespace RemoteModels

/-- How important a report is. -/
inductive Level where
  | error
  | warn
  | info
  | debug
deriving DecidableEq

namespace Level

def name : Level → String
  | .error => "ERROR"
  | .warn => "WARN"
  | .info => "INFO"
  | .debug => "DEBUG"

/-- Higher for the less important levels. -/
def rank : Level → Nat
  | .error => 1
  | .warn => 2
  | .info => 3
  | .debug => 4

end Level

/-- The part of the client that reports. -/
inductive Reporter where
  | loader
  | factory
  | gateway
  | session
  | transport
  | resource
deriving DecidableEq

def Reporter.name : Reporter → String
  | .loader => "modelgate::loader"
  | .factory => "modelgate::factory"
  | .gateway => "modelgate::gateway"
  | .session => "modelgate::session"
  | .transport => "modelgate::transport"
  | .resource => "modelgate::commands::resource"

/-- One report. -/
structure LogEntry where
  level : Level
  reporter : Reporter
  message : String
  values : List (String × String) := []
deriving DecidableEq

namespace LogEntry

/-- The named values, each behind a space. -/
def valuesText (e : LogEntry) : String :=
  String.join (e.values.map fun kv => " " ++ kv.1 ++ "=" ++ kv.2)

/-- The level, the message and the values on one line. -/
def text (e : LogEntry) : String := e.level.name ++ " " ++ e.message ++ e.valuesText

/-- The line with the reporting part in front of the message. -/
def fullText (e : LogEntry) : String :=
  e.level.name ++ " " ++ e.reporter.name ++ ": " ++ e.message ++ e.valuesText

end LogEntry
end RemoteModels

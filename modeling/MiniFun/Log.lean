/-! # Log lines

Each log line has a level. A threshold hides the lines of lower severity.
-/

namespace MiniFun

/-- The levels by their names; two of them have a second name. -/
inductive LogLevel where
  | notset
  | debug
  | info
  | warn
  | warning
  | error
  | fatal
  | critical
deriving DecidableEq, Repr, Inhabited

namespace LogLevel

def all : List LogLevel :=
  [notset, debug, info, warn, warning, error, fatal, critical]

/-- The level as settings and log lines write it. -/
def name : LogLevel → String
  | notset => "NOTSET"
  | debug => "DEBUG"
  | info => "INFO"
  | warn => "WARN"
  | warning => "WARNING"
  | error => "ERROR"
  | fatal => "FATAL"
  | critical => "CRITICAL"

def severity : LogLevel → Nat
  | notset => 0
  | debug => 10
  | info => 20
  | warn | warning => 30
  | error => 40
  | fatal | critical => 50

def ofName? (name : String) : Option LogLevel :=
  all.find? fun level => level.name == name

end LogLevel

structure LogEntry where
  level : LogLevel
  logger : String
  message : String
deriving DecidableEq, Repr, Inhabited

namespace LogEntry

def text (entry : LogEntry) : String :=
  entry.level.name ++ " " ++ entry.logger ++ ": " ++ entry.message ++ "\n"

/-- The entries that pass the threshold, as they are written. -/
def render (threshold : LogLevel) (entries : List LogEntry) : String :=
  String.join
    ((entries.filter fun entry => threshold.severity ≤ entry.level.severity).map text)

end LogEntry

end MiniFun

/-! # Log levels -/

namespace TestScheduler

inductive LogLevel where
  | trace | debug | info | warn | error
  deriving DecidableEq, Repr

namespace LogLevel

def name : LogLevel → String
  | trace => "trace"
  | debug => "debug"
  | info => "info"
  | warn => "warn"
  | error => "error"

def all : List LogLevel := [trace, debug, info, warn, error]

/-- The level with a name in any letter case. -/
def ofName? (word : String) : Option LogLevel :=
  let word := word.map Char.toLower
  if word = "warning" then some warn else all.find? (·.name = word)

def unknownMessage (word : String) : String := "unknown log level: " ++ word

end LogLevel

end TestScheduler

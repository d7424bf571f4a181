import TestScheduler.Config.Environment
import TestScheduler.Text.Quotation

/-! # The environment in words -/

namespace TestScheduler

namespace LogLevel

def title : LogLevel → String
  | trace => "Trace"
  | debug => "Debug"
  | info => "Info"
  | warn => "Warn"
  | error => "Error"

end LogLevel

namespace Environment

def shown (f : α → String) : Option α → String
  | some a => "Some(" ++ f a ++ ")"
  | none => "None"

/-- What the variables set. -/
def summary (e : Environment) : String :=
  let number (n : UInt64) := toString n.toNat
  let truth (b : Bool) := if b then "true" else "false"
  let line (name value : String) := "  " ++ namePrefix ++ name ++ value ++ "\n"
  "Environment Configuration:\n" ++
    line "WORKERS:       " (shown number e.workers) ++
    line "STOP_ON_ERROR: " (shown truth e.stopOnError) ++
    line "WHERE:         " (shown Text.quotation e.selection) ++
    line "CULTURE:       " (shown Text.quotation e.culture) ++
    line "SEED:          " (shown number e.randomSeed) ++
    line "TIMEOUT:       " (shown number e.timeoutSecs) ++
    line "FORMAT:        " (shown Text.quotation e.format) ++
    line "LOG_LEVEL:     " (shown LogLevel.title e.logLevel) ++
    line "CONFIG:        " (shown Text.quotation e.configFile)

/-- What the variables are for. -/
def help : String :=
  let line (text : String) := "  " ++ namePrefix ++ text ++ "\n"
  "Environment Variables:\n\n" ++
    line "WORKERS        Worker pool size (0 = sequential)" ++
    line "STOP_ON_ERROR  Stop after the first failure (true/false)" ++
    line "WHERE          Default selection query" ++
    line "CULTURE        Culture for test execution" ++
    line "SEED           Random seed for ids and test randomizers" ++
    line "TIMEOUT        Run timeout in seconds" ++
    line "FORMAT         Output format (table, tree, json, csv, summary)" ++
    line "LOG_LEVEL      Log level (trace, debug, info, warn, error)" ++
    line "CONFIG         Path to configuration file" ++
    "\nExample:\n  export " ++ namePrefix ++ "WORKERS=4\n  export " ++ namePrefix ++
    "WHERE=\"cat != Slow\"\n  suite-runner run tests.yaml\n"

end Environment

end TestScheduler

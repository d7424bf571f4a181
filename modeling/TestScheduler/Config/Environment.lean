import TestScheduler.Config.Basic
import TestScheduler.Text.Numeral

/-! # Configuration from the environment

Variables may override the settings of a run. A variable whose value makes no sense counts as
absent.
-/

namespace TestScheduler

/-- A number of 64 bits in decimal digits, perhaps with a plus sign. -/
def Text.word64? (text : String) : Option UInt64 :=
  let digits := match text.toList with
    | '+' :: rest => rest
    | cs => cs
  ((Text.number? 10 digits).filter (· < UInt64.size)).map UInt64.ofNat

structure Environment where
  workers : Option UInt64 := none
  stopOnError : Option Bool := none
  selection : Option String := none
  culture : Option String := none
  randomSeed : Option UInt64 := none
  timeoutSecs : Option UInt64 := none
  format : Option String := none
  logLevel : Option LogLevel := none
  configFile : Option String := none
  deriving DecidableEq, Repr

namespace Environment

/-- The names of all variables begin like this. -/
def namePrefix : String := "SUITE_RUNNER_"

/-- What follows the common beginning. -/
def variableNames : List String :=
  ["WORKERS", "STOP_ON_ERROR", "WHERE", "CULTURE", "SEED", "TIMEOUT", "FORMAT", "LOG_LEVEL",
    "CONFIG"]

/-- Whether a word switches something on; every other word switches it off. -/
def isOn (word : String) : Bool :=
  ["1", "true", "yes", "on", "enabled"].contains (word.map Char.toLower)

/-- The settings in variables, which are looked up without their common beginning. -/
def ofVariables (lookup : String → Option String) : Environment :=
  { workers := (lookup "WORKERS").bind Text.word64?
    stopOnError := (lookup "STOP_ON_ERROR").map isOn
    selection := lookup "WHERE"
    culture := lookup "CULTURE"
    randomSeed := (lookup "SEED").bind Text.word64?
    timeoutSecs := (lookup "TIMEOUT").bind Text.word64?
    format := lookup "FORMAT"
    logLevel := (lookup "LOG_LEVEL").bind LogLevel.ofName?
    configFile := lookup "CONFIG" }

def isEmpty (e : Environment) : Bool := e = {}

/-- Overrides the settings of a run. -/
def applyTo (e : Environment) (c : RunConfig) : RunConfig :=
  { workers := e.workers.getD c.workers
    stopOnError := e.stopOnError.getD c.stopOnError
    selection := e.selection.or c.selection
    culture := e.culture.or c.culture
    randomSeed := e.randomSeed.or c.randomSeed
    timeoutSecs := e.timeoutSecs.or c.timeoutSecs
    format := e.format.getD c.format
    logLevel := e.logLevel.getD c.logLevel }

end Environment

end TestScheduler

import TestScheduler.LogLevel
import TestScheduler.Query.Parser
import TestScheduler.Report.Format

/-! # Configuration

The settings of a run, and the rules that they keep.
-/

namespace TestScheduler

variable {Expression : Type} [Pattern.Dialect Expression]

structure RunConfig where
  workers : UInt64 := 0
  stopOnError : Bool := false
  /-- A query for the tests to run. -/
  selection : Option String := none
  culture : Option String := none
  randomSeed : Option UInt64 := none
  timeoutSecs : Option UInt64 := none
  /-- The name of a report format. -/
  format : String := ReportFormat.table.name
  logLevel : LogLevel := .info
  deriving DecidableEq, Repr

inductive ConfigProblem where
  | unsupportedVersion (version : String)
  | unknownFormat (name : String)
  | invalidSelection (query : String) (cause : QueryError)
  | zeroTimeout
  deriving DecidableEq, Repr

namespace ConfigProblem

/-- The messages of a problem, the outermost first. -/
def messages : ConfigProblem → List String
  | unsupportedVersion version => ["Unsupported config version: " ++ version]
  | unknownFormat name =>
    ["Unknown output format '" ++ name ++ "'. Valid formats: " ++
      ", ".intercalate (ReportFormat.all.map (·.name))]
  | invalidSelection query cause => ["Invalid where clause: " ++ query, cause.message]
  | zeroTimeout => ["Timeout must be at least one second"]

def cause? : ConfigProblem → Option QueryError
  | invalidSelection _ cause => some cause
  | _ => none

end ConfigProblem

namespace RunConfig

/-- The filter of the configured query. Without one, everything is selected. -/
def filter (c : RunConfig) : Except ConfigProblem Filter :=
  match c.selection with
  | none => .ok .empty
  | some query =>
    match Query.compile query with
    | .ok f => .ok f
    | .error cause => .error (.invalidSelection query cause)

def validate (c : RunConfig) : Except ConfigProblem Unit := do
  if (ReportFormat.ofName? c.format).isNone then .error (.unknownFormat c.format)
  let _ ← c.filter
  if c.timeoutSecs = some 0 then .error .zeroTimeout

def timeoutMs (c : RunConfig) : Option Nat := c.timeoutSecs.map (·.toNat * 1000)

/-- The format of the report, a table if its name is not known. -/
def reportFormat (c : RunConfig) : ReportFormat := (ReportFormat.ofName? c.format).getD .table

end RunConfig

structure Config where
  version : String
  run : RunConfig := {}
  deriving DecidableEq, Repr

namespace Config

def currentVersion : String := "1.0"

def standard : Config := { version := currentVersion }

/-- A configuration that shows what can be set. -/
def sample : Config :=
  { version := currentVersion
    run :=
      { workers := 4
        selection := some "cat != Slow"
        culture := some "en-US"
        timeoutSecs := some 600 } }

def validate (c : Config) : Except ConfigProblem Unit :=
  if c.version = currentVersion then c.run.validate
  else .error (.unsupportedVersion c.version)

end Config

end TestScheduler

import TestScheduler.Config.Basic
import TestScheduler.Data.Datum

/-! # Configuration documents

A configuration is a record of its version and the settings of a run. Absent settings have their
defaults, and unknown ones are ignored.
-/

namespace TestScheduler

namespace RunConfig

open Json in
def toJson (c : RunConfig) : Json :=
  .object <|
    [("workers", .integer c.workers.toNat), ("stop_on_error", .boolean c.stopOnError)] ++
    memberOf "where" c.selection .text ++
    memberOf "culture" c.culture .text ++
    memberOf "random_seed" c.randomSeed (fun seed => (seed.toNat : Json)) ++
    memberOf "timeout_secs" c.timeoutSecs (fun secs => (secs.toNat : Json)) ++
    [("format", .text c.format), ("log_level", .text c.logLevel.name)]

def fieldNames : List String :=
  ["workers", "stop_on_error", "where", "culture", "random_seed", "timeout_secs", "format",
    "log_level"]

/-- Reads a log level, whose name is in small letters. -/
def logLevel? (word : String) : Option LogLevel := LogLevel.all.find? (·.name = word)

def ofDatum? (d : Datum) : Option RunConfig := do
  let f ← Fields.ofDatum? fieldNames false d
  let standard : RunConfig := {}
  some {
    workers := ← f.withDefault? "workers" standard.workers Datum.word64?
    stopOnError := ← f.withDefault? "stop_on_error" standard.stopOnError Datum.truth?
    selection := ← f.optional? "where" Datum.text?
    culture := ← f.optional? "culture" Datum.text?
    randomSeed := ← f.optional? "random_seed" Datum.word64?
    timeoutSecs := ← f.optional? "timeout_secs" Datum.word64?
    format := ← f.withDefault? "format" standard.format Datum.text?
    logLevel := ← f.withDefault? "log_level" standard.logLevel (Datum.variant? logLevel?) }

end RunConfig

namespace Config

def toJson (c : Config) : Json := .object [("version", c.version), ("run", c.run.toJson)]

def ofDatum? (d : Datum) : Option Config := do
  let f ← Fields.ofDatum? ["version", "run"] false d
  some {
    version := ← f.withDefault? "version" currentVersion Datum.text?
    run := ← f.withDefault? "run" {} RunConfig.ofDatum? }

end Config

end TestScheduler

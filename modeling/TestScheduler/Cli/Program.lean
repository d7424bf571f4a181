import TestScheduler.Cli.Action
import TestScheduler.Cli.Arguments
import TestScheduler.Config.File
import TestScheduler.Config.Summary
import TestScheduler.Filter.Xml.Printer
import TestScheduler.Filter.Xml.Reader
import TestScheduler.Manifest.Load
import TestScheduler.Manifest.Script
import TestScheduler.Pattern.Common
import TestScheduler.Query.Printer
import TestScheduler.Report.Listing
import TestScheduler.Report.Render

/-! # The program

Runs and lists the tests of a manifest, shows the canonical form of a query and manages
configuration files. The configuration is read before any command is carried out.
-/

namespace TestScheduler

/-- Why the program gives up. -/
inductive ProgramError where
  | config (cause : ConfigError)
  | manifest (cause : ManifestError)
  | query (cause : QueryError)
  | filterXml (cause : FilterXmlError)
  | run (fault : Fault)
  | reportNotWritten (path : String) (cause : FileError)
  | configPresent (path : String)
  /-- No run has so many workers or lasts so long. -/
  | beyondLimits
  deriving DecidableEq, Repr

namespace ProgramError

/-- The messages of an error, the outermost first. -/
def messages : ProgramError → List String
  | config cause => cause.messages
  | manifest cause => [cause.message]
  | query cause => [cause.message]
  | filterXml cause => ["Invalid filter XML", cause.message]
  | run fault => [fault.message]
  | reportNotWritten path cause => ["Failed to create " ++ path, cause.message]
  | configPresent path =>
    ["Configuration file already exists: " ++ path ++ ". Use --force to overwrite."]
  | beyondLimits => ["The run cannot be set up"]

/-- The report on an error: its message, and what caused it. -/
def text (e : ProgramError) : String :=
  match e.messages with
  | [] => ""
  | [message] => "Error: " ++ message ++ "\n"
  | message :: causes =>
    "Error: " ++ message ++ "\n\nCaused by:\n" ++
      String.join (causes.map fun cause => "    " ++ cause ++ "\n")

end ProgramError

/-- What the program is given apart from its files. -/
structure Invocation where
  words : List String
  variableValue : String → Option String
  home : Option String
  clock : Clock
  /-- The seed where none is chosen. -/
  seed : UInt64
  generator : Generator := .mixing

/-- How the program ends. -/
structure Exit where
  code : UInt8
  /-- What is reported as an error. -/
  complaint : String := ""

namespace Program

variable {Expression : Type} [Pattern.Dialect Expression]

abbrev Task (α : Type) := ExceptT ProgramError Action α

def lift (a : Action α) : Task α := ExceptT.lift a

def attempt (f : ε → ProgramError) : Except ε α → Task α
  | .ok a => pure a
  | .error e => throw (f e)

def sayLine (text : String) : Task Unit := lift (.say (text ++ "\n"))

/-! ## Configuration -/

def loadConfig (path : String) : Task Config := do
  attempt .config (Config.ofFile path (← lift (.read path)))

/-- The first place at which a configuration is. -/
def findConfig (paths : List String) : Task (Option String) := do
  match paths with
  | [] => pure none
  | path :: paths => if ← lift (.test path) then pure (some path) else findConfig paths

def findStandardConfig (home : Option String) : Task (Option String) :=
  findConfig (Config.locations.map (Config.expand home))

def loadStandardConfig (home : Option String) : Task Config := do
  match ← findStandardConfig home with
  | some path => loadConfig path
  | none => pure .standard

/-- Writes a configuration, in a directory that is made if need be. -/
def saveConfig (c : Config) (path : String) : Task Unit := do
  if let some parent := (Path.parent? path).filter (· ≠ "") then
    attempt (.config <| .directoryNotMade parent ·) (← lift (.make parent))
  attempt (.config <| .unwritable path ·) (← lift (.write path (c.fileText path)))

def configCommand (invocation : Invocation) (effective : RunConfig) : ConfigCommand → Task Unit
  | .init output force => do
    if !force then
      if ← lift (.test output) then throw (.configPresent output)
    saveConfig .sample output
    sayLine ("✓ Configuration file created: " ++ output)
    sayLine "\nEdit the file to customize your settings."
  | .display true _ =>
    lift (.say ((Environment.ofVariables invocation.variableValue).summary ++ "\n" ++
      Environment.help))
  | .display false format => do
    let config : Config := { Config.standard with run := effective }
    sayLine (if format = "json" then config.toJson.pretty else Yaml.document config.toJson)
  | .validate file => do
    let found ← match file with
      | some file => pure (some file)
      | none => findStandardConfig invocation.home
    let path := found.getD "./suite-runner.yaml"
    match Config.ofFile path (← lift (.read path)) with
    | .ok _ => sayLine ("✓ Configuration file is valid: " ++ path)
    | .error e => do
      sayLine ("✗ Configuration file is invalid: " ++ path)
      sayLine ("  Error: " ++ ": ".intercalate e.messages)
      throw (.config e)

/-! ## Tests -/

def selectionOf (c : RunConfig) : Task Filter :=
  attempt (fun problem => .config (.invalid problem)) c.filter

def loadTree (invocation : Invocation) (path : String) (c : RunConfig) :
    Task (Manifest × TestTree) := do
  let m ← attempt .manifest (Manifest.ofFile path (← lift (.read path)))
  let seed := (c.randomSeed.or m.seed).getD invocation.seed
  let (tree, _) ← attempt (fun problem => .manifest (.invalid problem))
    (m.build (.start seed invocation.generator))
  pure (m, tree)

/-- The most workers that a run can have. -/
def workerLimit : Nat := Nat.pow 2 61 - 1

/-- The most seconds that a run can be given; a clock that has run for long allows no more. -/
def timeoutLimit : Nat := Nat.pow 2 63 - Nat.pow 2 32

def isWithinLimits (c : RunConfig) : Bool :=
  c.workers.toNat ≤ workerLimit && (c.timeoutSecs.all (·.toNat ≤ timeoutLimit))

/-- Runs the tests of a manifest. -/
def report (invocation : Invocation) (a : RunArguments) (c : RunConfig) : Task Report := do
  attempt (fun problem => .config (.invalid problem)) c.validate
  let f ← selectionOf c
  let (m, tree) ← loadTree invocation a.manifest c
  if !isWithinLimits c then throw .beyondLimits
  let options : RunOptions := {
    workers := c.workers.toNat
    stopOnError := c.stopOnError
    timeoutMs := c.timeoutMs
    culture := c.culture }
  attempt .run (options.run m.scripts.invoker invocation.clock tree f)

/-- Prints a report and writes it, and tells whether the root has failed. -/
def deliver (a : RunArguments) (c : RunConfig) (report : Report) : Task Bool := do
  sayLine (report.render c.reportFormat (!a.noColor))
  if let some path := a.output then
    attempt (.reportNotWritten path ·)
      (← lift (.write path (report.render c.reportFormat false)))
  pure (report.result.value.verdict.status = .failed)

def runTests (invocation : Invocation) (a : RunArguments) (c : RunConfig) : Task Bool := do
  deliver a c (← report invocation a c)

def rule : String := String.join (List.replicate 70 "━")

def listTests (invocation : Invocation) (a : ListArguments) (c : RunConfig) : Task Unit := do
  let f ← selectionOf c
  let (_, tree) ← loadTree invocation a.manifest c
  sayLine ("\n" ++ tree.value.fullName ++ " (" ++ toString (f.select tree).length ++ " of " ++
    toString tree.testCaseCount ++ " test cases selected)")
  sayLine rule
  lift (.say (f.listing tree a.isDetailed))
  sayLine (rule ++ "\n")

/-! ## Filters -/

def showFilter (a : FilterArguments) : Task Unit := do
  let f ← match a.fromXml with
    | some xml => attempt .filterXml (Filter.ofXml xml)
    | none => attempt .query (Query.compile (a.query.getD ""))
  sayLine (if a.asXml then f.toXml else f.toQuery)

/-! ## Commands -/

/-- The settings of a command before those that it gives itself. -/
def effectiveConfig (invocation : Invocation) (a : Arguments) : Task RunConfig := do
  let environment := Environment.ofVariables invocation.variableValue
  let config ← match a.config.or environment.configFile with
    | some path => loadConfig path
    | none => loadStandardConfig invocation.home
  pure (environment.applyTo config.run)

/-- Carries out a command, and tells whether a run has failed. -/
def perform (invocation : Invocation) (a : Arguments) : Task Bool := do
  let c ← effectiveConfig invocation a
  match a.command with
  | .run a => runTests invocation a (a.applyTo c)
  | .list a => do
    listTests invocation a { c with selection := a.selection.or c.selection }
    pure false
  | .filter a => do
    showFilter a
    pure false
  | .config command => do
    configCommand invocation c command
    pure false

/-- How the program ends after a command. -/
def exitOf : Except ProgramError Bool → Exit
  | .ok hasFailed => { code := if hasFailed then 1 else 0 }
  | .error .beyondLimits => { code := 101 }
  | .error e => { code := 1, complaint := e.text }

def name : String := "suite-runner"

def versionText : String := name ++ " 0.1.0\n"

def usageText : String :=
  "Usage: " ++ name ++ " [OPTIONS] <COMMAND>\n\nCommands:\n" ++
    String.join (Arguments.grammar.children.map fun g => "  " ++ g.value.1 ++ "\n")

/-- What the program does when it is called. -/
def action (invocation : Invocation) : Action Exit := do
  match Arguments.ofWords invocation.words with
  | .error .misuse => pure { code := 2, complaint := usageText }
  | .error .version => do
    Action.say versionText
    pure { code := 0 }
  | .error .help => do
    Action.say usageText
    pure { code := 0 }
  | .ok a => do pure (exitOf (← (perform invocation a).run))

end Program

end TestScheduler

import TestScheduler.Cli.Usage
import TestScheduler.Tree.Basic

/-! # Arguments

The commands of the program and what each of them is given.
-/

namespace TestScheduler

structure RunArguments where
  manifest : String
  selection : Option String := none
  workers : Option UInt64 := none
  stopOnError : Bool := false
  format : Option String := none
  seed : Option UInt64 := none
  timeoutSecs : Option UInt64 := none
  culture : Option String := none
  output : Option String := none
  noColor : Bool := false
  deriving DecidableEq, Repr

structure ListArguments where
  manifest : String
  selection : Option String := none
  isDetailed : Bool := false
  deriving DecidableEq, Repr

structure FilterArguments where
  query : Option String := none
  asXml : Bool := false
  fromXml : Option String := none
  deriving DecidableEq, Repr

inductive ConfigCommand where
  | init (output : String) (force : Bool)
  | display (environment : Bool) (format : String)
  | validate (file : Option String)
  deriving DecidableEq, Repr

inductive Command where
  | run (arguments : RunArguments)
  | list (arguments : ListArguments)
  | filter (arguments : FilterArguments)
  | config (command : ConfigCommand)
  deriving DecidableEq, Repr

structure Arguments where
  command : Command
  isVerbose : Bool := false
  config : Option String := none
  deriving DecidableEq, Repr

namespace RunArguments

/-- Overrides the settings of a run. -/
def applyTo (a : RunArguments) (c : RunConfig) : RunConfig :=
  { c with
    selection := a.selection.or c.selection
    workers := a.workers.getD c.workers
    stopOnError := a.stopOnError || c.stopOnError
    format := a.format.getD c.format
    randomSeed := a.seed.or c.randomSeed
    timeoutSecs := a.timeoutSecs.or c.timeoutSecs
    culture := a.culture.or c.culture }

end RunArguments

namespace Arguments

open Usage

def text (name : String) (short : Option Char) : CommandOption := ⟨name, short, .value .text⟩
def path (name : String) (short : Option Char) : CommandOption := ⟨name, short, .value .path⟩
def number (name : String) (short : Option Char) : CommandOption := ⟨name, short, .value .number⟩

/-- The options of every command. -/
def common : List CommandOption :=
  [⟨"verbose", some 'v', .switch⟩, path "config" (some 'c'), ⟨"help", some 'h', .help⟩]

/-- The commands of the program. -/
def grammar : Grammar :=
  let command (name : String) (options : List CommandOption) (operands : List Operand)
      (below : List Grammar) : Grammar :=
    .node (name, { options := options ++ common, operands }) below
  command "suite-runner" [⟨"version", some 'V', .version⟩] [] [
    command "run"
      [text "where" (some 'w'), number "workers" (some 'j'), ⟨"stop-on-error", none, .switch⟩,
        text "format" (some 'f'), number "seed" none, number "timeout" none, text "culture" none,
        path "output" (some 'o'), ⟨"no-color", none, .switch⟩]
      [⟨"manifest", .path⟩] [],
    command "list" [text "where" (some 'w'), ⟨"detailed", some 'd', .switch⟩]
      [⟨"manifest", .path⟩] [],
    command "filter" [⟨"xml", none, .switch⟩, text "from-xml" none] [⟨"query", .text⟩] [],
    command "config" [] [] [
      command "init" [path "output" (some 'o'), ⟨"force", some 'f', .switch⟩] [] [],
      command "show" [⟨"env", some 'e', .switch⟩, text "format" (some 'f')] [] [],
      command "validate" [] [⟨"file", .path⟩] []]]

def required (l : Level) (name : String) : Except Refusal String :=
  match l.value? name with
  | some value => .ok value
  | none => .error .misuse

def number? (l : Level) (name : String) : Option UInt64 := (l.value? name).bind Text.word64?

def runCommand (l : Level) : Except Refusal Command := do
  .ok (.run {
    manifest := ← required l "manifest"
    selection := l.value? "where"
    workers := number? l "workers"
    stopOnError := l.isOn "stop-on-error"
    format := l.value? "format"
    seed := number? l "seed"
    timeoutSecs := number? l "timeout"
    culture := l.value? "culture"
    output := l.value? "output"
    noColor := l.isOn "no-color" })

def listCommand (l : Level) : Except Refusal Command := do
  .ok (.list {
    manifest := ← required l "manifest"
    selection := l.value? "where"
    isDetailed := l.isOn "detailed" })

/-- A query and XML exclude each other, and one of them is needed. -/
def filterCommand (l : Level) : Except Refusal Command :=
  let query := l.value? "query"
  let fromXml := l.value? "from-xml"
  if query.isSome = fromXml.isSome then .error .misuse
  else .ok (.filter { query, asXml := l.isOn "xml", fromXml })

def configCommand (l : Level) : Except Refusal Command :=
  match l.grammar.value.1 with
  | "init" =>
    .ok (.config (.init ((l.value? "output").getD "suite-runner.yaml") (l.isOn "force")))
  | "show" => .ok (.config (.display (l.isOn "env") ((l.value? "format").getD "yaml")))
  | "validate" => .ok (.config (.validate (l.value? "file")))
  | _ => .error .misuse

def commandOf (levels : List Level) : Except Refusal Command :=
  match levels.map (·.grammar.value.1), levels.getLast? with
  | [_, "run"], some l => runCommand l
  | [_, "list"], some l => listCommand l
  | [_, "filter"], some l => filterCommand l
  | [_, "config", _], some l => configCommand l
  | _, _ => .error .misuse

/-- Reads the words after the program's name. Of the common options, those of the innermost
command count. -/
def ofWords (words : List String) : Except Refusal Arguments := do
  let levels ← readWords grammar words
  .ok {
    command := ← commandOf levels
    isVerbose := levels.any (·.isOn "verbose")
    config := levels.reverse.findSome? (·.value? "config") }

end Arguments

end TestScheduler

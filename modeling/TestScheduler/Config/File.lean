import TestScheduler.Config.Document
import TestScheduler.Files.Store
import TestScheduler.Json.Parser
import TestScheduler.Json.Printer
import TestScheduler.Yaml.Printer

/-! # Configuration files

The extension of a file decides whether it is YAML; every other file is JSON. A file that is read
must hold a valid configuration.
-/

namespace TestScheduler

inductive ConfigError where
  | unreadable (path : String) (cause : FileError)
  | malformed (path : String) (isYaml : Bool)
  | invalid (problem : ConfigProblem)
  | directoryNotMade (path : String) (cause : FileError)
  | unwritable (path : String) (cause : FileError)
  deriving DecidableEq, Repr

/-- The messages of an error, the outermost first. -/
def ConfigError.messages : ConfigError → List String
  | unreadable path cause => ["Failed to read config file: " ++ path, cause.message]
  | malformed path isYaml =>
    ["Failed to parse " ++ (if isYaml then "YAML" else "JSON") ++ " config: " ++ path]
  | invalid problem => problem.messages
  | directoryNotMade path cause => ["Failed to create directory: " ++ path, cause.message]
  | unwritable path cause => ["Failed to write config file: " ++ path, cause.message]

namespace Config

variable {Expression : Type} [Pattern.Dialect Expression]

/-- Where a configuration is looked for, in order. A tilde stands for the home directory. -/
def locations : List String :=
  ["./suite-runner.yaml", "./suite-runner.yml", "./.suite-runner.yaml", "./suite-runner.json",
    "~/.config/suite-runner/config.yaml", "~/.suite-runner.yaml"]

/-- Puts the home directory, if it is known, in place of a tilde. -/
def expand (home : Option String) (path : String) : String :=
  match path.toList, home with
  | '~' :: '/' :: rest, some home => home ++ "/" ++ String.ofList rest
  | _, _ => path

def isYamlPath (path : String) : Bool :=
  Path.extension? path = some "yaml" || Path.extension? path = some "yml"

/-- Reads the text of the file at a path. -/
def ofFile (path : String) (content : Except FileError String) : Except ConfigError Config := do
  match content with
  | .error cause => .error (.unreadable path cause)
  | .ok text =>
    let isYaml := isYamlPath path
    let datum := if isYaml then Yaml.datum? text else (Json.parse? text).map Datum.ofJson
    match datum.bind ofDatum? with
    | none => .error (.malformed path isYaml)
    | some config =>
      match config.validate with
      | .ok () => .ok config
      | .error problem => .error (.invalid problem)

/-- The text of a configuration in the format of the file at a path. -/
def fileText (c : Config) (path : String) : String :=
  if isYamlPath path then Yaml.document c.toJson else c.toJson.pretty

end Config

end TestScheduler

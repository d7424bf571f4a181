import TestScheduler.Files.Store
import TestScheduler.Json.Parser
import TestScheduler.Manifest.Document
import TestScheduler.Yaml.Typing

/-! # Loading manifests

A manifest is read from JSON or YAML and then validated. The extension of a file decides about
its format.
-/

namespace TestScheduler

inductive ManifestError where
  | unreadable (path : String) (cause : FileError)
  | malformedYaml
  | malformedJson
  | invalid (problem : ManifestProblem)
  deriving DecidableEq, Repr

def ManifestError.message : ManifestError → String
  | unreadable path cause => "failed to read manifest " ++ path ++ ": " ++ cause.message
  | malformedYaml => "failed to parse YAML manifest"
  | malformedJson => "failed to parse JSON manifest"
  | invalid problem => "invalid manifest: " ++ problem.message

namespace Manifest

/-- Reads a datum, if there is one, and validates it. -/
def ofDatum (d : Option Datum) (malformed : ManifestError) : Except ManifestError Manifest :=
  match d.bind ofDatum? with
  | none => .error malformed
  | some m =>
    match m.validate with
    | .ok () => .ok m
    | .error problem => .error (.invalid problem)

def ofJsonText (text : String) : Except ManifestError Manifest :=
  ofDatum ((Json.parse? text).map Datum.ofJson) .malformedJson

def ofYamlText (text : String) : Except ManifestError Manifest :=
  ofDatum (Yaml.datum? text) .malformedYaml

/-- Reads the text of the file at a path. -/
def ofFile (path : String) (content : Except FileError String) : Except ManifestError Manifest :=
  match content with
  | .error cause => .error (.unreadable path cause)
  | .ok text => if Path.extension? path = some "json" then ofJsonText text else ofYamlText text

end Manifest

end TestScheduler

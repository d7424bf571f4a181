import TestScheduler.Manifest.Basic
import TestScheduler.Text.CharTable

/-! # Validation of manifests

A valid manifest has the current version. Its nodes have names that are not blank, leaves have no
children, and the children of a node have different names.
-/

namespace TestScheduler

inductive ManifestProblem where
  | unsupportedVersion (version : String)
  | blankName (parent : String)
  | leafWithChildren (fullName : String)
  | duplicateChild (name parent : String)
  deriving DecidableEq, Repr

def ManifestProblem.message : ManifestProblem → String
  | unsupportedVersion version => "unsupported manifest version " ++ version
  | blankName parent => "node under '" ++ parent ++ "' has an empty name"
  | leafWithChildren fullName => "leaf '" ++ fullName ++ "' cannot have children"
  | duplicateChild name parent => "duplicate child '" ++ name ++ "' under '" ++ parent ++ "'"

/-- Extends a dotted name; the root has no name before it. -/
def joinName (path name : String) : String :=
  if path = "" then name else path ++ "." ++ name

namespace ManifestTree

mutual

/-- Finds the first problem of a subtree in pre-order. -/
def validate (path : String) : ManifestTree → Except ManifestProblem Unit
  | .node n ts =>
    let fullName := joinName path n.name
    if Text.isBlankText n.name then .error (.blankName path)
    else if n.kindWith (!ts.isEmpty) = .leaf && !ts.isEmpty then
      .error (.leafWithChildren fullName)
    else validateEach fullName [] ts

/-- Validates children after siblings with given names. -/
def validateEach (path : String) (seen : List String) :
    List ManifestTree → Except ManifestProblem Unit
  | [] => .ok ()
  | t :: ts =>
    if seen.contains t.value.name then .error (.duplicateChild t.value.name path)
    else do
      validate path t
      validateEach path (t.value.name :: seen) ts

end

end ManifestTree

def Manifest.validate (m : Manifest) : Except ManifestProblem Unit :=
  if m.version = currentVersion then m.root.validate ""
  else .error (.unsupportedVersion m.version)

/-- Builds the test tree of a manifest, which has to be valid. -/
def Manifest.build (m : Manifest) (numbering : Numbering) :
    Except ManifestProblem (TestTree × Numbering) := do
  m.validate
  pure (m.root.blueprint.build numbering)

end TestScheduler

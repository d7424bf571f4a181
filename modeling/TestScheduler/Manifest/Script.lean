import TestScheduler.Manifest.Validation
import TestScheduler.Run.Session

/-! # Scripts

The scripted behaviour of a manifest, by full name. What has no script passes.
-/

namespace TestScheduler

structure Script where
  outcome : ScriptedOutcome
  setUp : ScriptedOutcome
  tearDown : ScriptedOutcome
  message : Option String
  asserts : UInt32
  delayMs : UInt64
  deriving DecidableEq, Repr

def ManifestNode.script (n : ManifestNode) : Script :=
  { outcome := n.outcome.getD .pass
    setUp := n.setUp.getD .pass
    tearDown := n.tearDown.getD .pass
    message := n.message
    asserts := n.asserts
    delayMs := n.delayMs }

abbrev Scripts := Dictionary Script

mutual

/-- Adds the scripts of a subtree, those below a node before its own. -/
def ManifestTree.addScripts (path : String) : ManifestTree → Scripts → Scripts
  | .node n ts, scripts =>
    let fullName := joinName path n.name
    (ManifestTree.addEachScripts fullName ts scripts).insert fullName n.script

def ManifestTree.addEachScripts (path : String) : List ManifestTree → Scripts → Scripts
  | [], scripts => scripts
  | t :: ts, scripts => addEachScripts path ts (addScripts path t scripts)

end

def Manifest.scripts (m : Manifest) : Scripts := m.root.addScripts "" {}

namespace ScriptedOutcome

/-- How a hook ends, given how it ends when it passes and its message otherwise. -/
def ending (passed : Outcome) (message : String) : ScriptedOutcome → Ending
  | pass => .finished passed
  | fail => .failed (.assertion message none)
  | error => .failed (.error message none)
  | inconclusive => .failed (.inconclusive message)
  | ignore => .failed (.ignore message)
  | panic => .crashed (some message)

end ScriptedOutcome

namespace Script

/-- How a hook of the scripted node ends. -/
def ending (s : Script) : Hook → Ending
  | .test =>
    s.outcome.ending { Outcome.passed with message := s.message, assertCount := s.asserts }
      (s.message.getD "Scripted test failure")
  | .setUp => s.setUp.ending .passed (s.message.getD "Scripted setup failure")
  | .tearDown => s.tearDown.ending .passed (s.message.getD "Scripted teardown failure")

end Script

/-- Plays the scripts. Only test cases take time. -/
def Scripts.invoker (scripts : Scripts) : Invoker := fun _ call =>
  match scripts.get? call.node.fullName with
  | some script =>
    { ending := script.ending call.hook
      ambient := call.context.toAmbient
      elapsedMs := if call.hook = .test then script.delayMs.toNat else 0 }
  | none => { ending := .finished .passed, ambient := call.context.toAmbient }

end TestScheduler

import TestScheduler.Result.Verdict
import TestScheduler.Suite.Node
import TestScheduler.Timestamp

/-! # Results

What became of one node of a run. The results of a run form a tree shaped like its work items.
-/

namespace TestScheduler

structure Result where
  id : TestId
  name : String
  fullName : String
  kind : Kind
  verdict : Verdict
  message : Option String := none
  stackTrace : Option String := none
  output : Option String := none
  assertCount : UInt32 := 0
  startTime : Option Timestamp := none
  endTime : Option Timestamp := none
  durationMs : Nat := 0
  deriving DecidableEq, Repr

abbrev ResultTree := Tree Result

namespace Result

/-- The result of a node before anything is known about it. -/
def ofNode (n : Node) : Result :=
  { id := n.id, name := n.name, fullName := n.fullName, kind := n.kind, verdict := .inconclusive }

def isLeaf (r : Result) : Bool := !r.kind.isSuite

/-- Whether the node was started, so that both times are known. -/
def isTimed (r : Result) : Bool := r.startTime.isSome && r.endTime.isSome

def withoutTimes (r : Result) : Result :=
  { r with startTime := none, endTime := none, durationMs := 0 }

def title (r : Result) : String :=
  r.verdict.status.symbol ++ " " ++ r.fullName ++ " [" ++ toString r.durationMs ++ "ms]" ++
    match r.message with
    | some message => " - " ++ message
    | none => ""

end Result

namespace ResultTree

/-- The first result in pre-order with a full name. -/
def find? (t : ResultTree) (fullName : String) : Option Result :=
  t.preorder.find? (·.fullName = fullName)

end ResultTree

end TestScheduler

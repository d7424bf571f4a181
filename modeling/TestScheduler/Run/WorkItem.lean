import TestScheduler.Filter.Basic
import TestScheduler.Result.Basic

/-! # Work items

A work item stands for one node of a run. The items of a tree are those of the nodes that the
filter keeps, and the result of an item is written once, as its last step.
-/

namespace TestScheduler

variable {Expression : Type} [Pattern.Dialect Expression]

inductive Stage where
  | ready | running | waitingForChildren | complete
  deriving DecidableEq, Repr

namespace Stage

def title : Stage → String
  | ready => "Ready"
  | running => "Running"
  | waitingForChildren => "WaitingForChildren"
  | complete => "Complete"

def all : List Stage := [ready, running, waitingForChildren, complete]

/-- Whether an item may go from one stage to another. -/
def allows : Stage → Stage → Bool
  | ready, running => true
  | ready, complete => true
  | running, waitingForChildren => true
  | running, complete => true
  | waitingForChildren, complete => true
  | _, _ => false

end Stage

/-- A step that a work item does not allow, with the full name of its node. -/
inductive Fault where
  | resultNotReady (test : String)
  | resultAlreadySet (test : String)
  | illegalTransition (test : String) (before after : Stage)
  deriving DecidableEq, Repr

def Fault.message : Fault → String
  | resultNotReady test => "result of '" ++ test ++ "' was read before its work item completed"
  | resultAlreadySet test => "result of '" ++ test ++ "' was already set"
  | illegalTransition test before after =>
    "work item '" ++ test ++ "' cannot move from " ++ before.title ++ " to " ++ after.title

structure WorkItem where
  location : Location Node
  filter : Filter
  stage : Stage := .ready
  result : Option ResultTree := none

namespace WorkItem

def node (item : WorkItem) : Node := item.location.value

/-- The verdict and reason of an item that is not to be started. -/
def skip? (item : WorkItem) : Option (Verdict × Option String) :=
  let skip (v : Verdict) := some (v, item.node.skipReason)
  match item.node.runnability with
  | .runnable => none
  | .explicit => if item.filter.requests item.location then none else skip .explicit
  | .skipped => skip .skipped
  | .ignored => skip .ignored
  | .notRunnable => skip .notRunnable

def advance (item : WorkItem) (next : Stage) : Except Fault WorkItem :=
  if item.stage.allows next then .ok { item with stage := next }
  else .error (.illegalTransition item.node.fullName item.stage next)

/-- Writes the result. -/
def complete (item : WorkItem) (result : ResultTree) : Except Fault WorkItem :=
  if item.result.isSome then .error (.resultAlreadySet item.node.fullName)
  else do .ok { (← item.advance .complete) with result := some result }

def readResult (item : WorkItem) : Except Fault ResultTree :=
  match item.result, item.stage with
  | some result, .complete => .ok result
  | _, _ => .error (.resultNotReady item.node.fullName)

end WorkItem

abbrev WorkTree := Tree WorkItem

namespace WorkTree

mutual

def createFrom (f : Filter) (above : List TestTree) : TestTree → WorkTree
  | .node n ts =>
    .node { location := ⟨.node n ts, above⟩, filter := f } (createEach f (.node n ts :: above) ts)

def createEach (f : Filter) (above : List TestTree) : List TestTree → List WorkTree
  | [] => []
  | t :: ts =>
    if f.keeps ⟨t, above⟩ then createFrom f above t :: createEach f above ts
    else createEach f above ts

end

/-- The items of a node, whether or not it is kept itself, and of what is kept below it. -/
def create (f : Filter) (l : Location Node) : WorkTree := createFrom f l.above l.tree

def result (t : WorkTree) : Except Fault ResultTree := t.value.readResult

/-- The results of work items, in order. -/
def results (ts : List WorkTree) : Except Fault (List ResultTree) := ts.mapM result

end WorkTree

end TestScheduler

import TestScheduler.Result.Summary
import TestScheduler.Run.Dispatch

/-! # Runs

A run executes the work items of a whole tree and reports the results.
-/

namespace TestScheduler

/-- How a run is made. Neither the workers nor the time are bounded. A platform without so many
permits, or without a time so late, gives up before the run begins (`Program.isWithinLimits`). -/
structure RunOptions where
  /-- With 0 or 1, one item runs at a time. -/
  workers : Nat := 0
  stopOnError : Bool := false
  /-- How long new items may be started. -/
  timeoutMs : Option Nat := none
  culture : Option String := none
  /-- Whether the run is stopped from the beginning. -/
  stopped : Bool := false
  deriving DecidableEq, Repr

structure Report where
  result : ResultTree
  summary : Summary
  workItems : Nat
  /-- Whether the run was stopped. -/
  cancelled : Bool
  deriving DecidableEq

namespace Report

def ofResult (result : ResultTree) (workItems : Nat) (cancelled : Bool) : Report :=
  { result, summary := Summary.ofResults result, workItems, cancelled }

/-- The report without anything that depends on the clock. -/
def withoutTimes (r : Report) : Report :=
  ofResult (r.result.map Result.withoutTimes) r.workItems r.cancelled

end Report

namespace RunOptions

variable {Expression : Type} [Pattern.Dialect Expression]

/-- The context from which the context of the root is derived. -/
def context (o : RunOptions) (root : Node) : Context :=
  let context : Context :=
    { Context.initial root.seed with stopOnError := o.stopOnError, workers := o.workers }
  match o.culture with
  | some culture => context.withCulture culture
  | none => context

/-- The dispatcher of a run, and the session at its beginning. -/
def dispatcher (o : RunOptions) (invoker : Invoker) (clock : Clock) : Dispatcher × Session :=
  let s : Session := { stopped := o.stopped }
  match o.timeoutMs with
  | none => ({ invoker, clock, workers := o.workers }, s)
  | some limit =>
    let (now, s) := s.readClock clock
    ({ invoker, clock, workers := o.workers, deadline := some (now + limit) }, s)

/-- Runs what the filter keeps of a tree. -/
def execute (o : RunOptions) (invoker : Invoker) (clock : Clock) (tree : TestTree) (f : Filter) :
    Progress WorkTree :=
  let (d, s) := o.dispatcher invoker clock
  d.execute (WorkTree.create f (Location.root tree)) ((o.context tree.value).forChild tree.value) s

def reportOf (tree : TestTree) (f : Filter) (p : Progress WorkTree) : Except Fault Report :=
  match p.fault with
  | some fault => .error fault
  | none => do
    let workItems := (WorkTree.create f (Location.root tree)).size
    .ok (Report.ofResult (← p.value.result) workItems p.session.stopped)

def run (o : RunOptions) (invoker : Invoker) (clock : Clock) (tree : TestTree) (f : Filter) :
    Except Fault Report :=
  reportOf tree f (o.execute invoker clock tree f)

end RunOptions

end TestScheduler

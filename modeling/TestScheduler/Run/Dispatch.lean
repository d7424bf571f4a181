import TestScheduler.Result.Rollup
import TestScheduler.Run.Session
import TestScheduler.Run.WorkItem

/-! # Dispatching work items

`Dispatcher.execute` takes a tree of work items to its end: an item is cancelled once the run is
stopped, skipped if its node says so, and otherwise started. A started suite is set up, its
children follow in order, and it is torn down whether or not the setup succeeded.
-/

namespace TestScheduler

variable {Expression : Type} [Pattern.Dialect Expression]

/-- What a step leaves behind, with the fault at which it ended early. -/
structure Progress (α : Type u) where
  value : α
  session : Session
  fault : Option Fault := none

def Progress.map (f : α → β) (p : Progress α) : Progress β := ⟨f p.value, p.session, p.fault⟩

namespace WorkTree

/-- Reports the result of an item and writes it. -/
def conclude (item : WorkItem) (below : List WorkTree) (result : ResultTree) (s : Session) :
    Progress WorkTree :=
  let s := s.record (.finished result)
  match item.complete result with
  | .ok item => ⟨.node item below, s, none⟩
  | .error fault => ⟨.node item below, s, some fault⟩

/-- Concludes an item with the results of its children, which it then no longer holds. -/
def concludeWith (item : WorkItem) (below : List WorkTree) (s : Session)
    (result : List ResultTree → Session → ResultTree × Session) : Progress WorkTree :=
  match results below with
  | .error fault => ⟨.node item [], s, some fault⟩
  | .ok children =>
    let (result, s) := result children s
    conclude item [] result s

mutual

/-- Finishes an item and all below it without starting anything. -/
def finishUnstarted (v : Verdict) (message : Option String) :
    WorkTree → Session → Progress WorkTree
  | .node item below, s =>
    let children := finishEachUnstarted v message below s
    match children.fault with
    | some fault => ⟨.node item children.value, children.session, some fault⟩
    | none =>
      concludeWith item children.value children.session fun children s =>
        (.node { Result.ofNode item.node with verdict := v, message } children, s)

def finishEachUnstarted (v : Verdict) (message : Option String) :
    List WorkTree → Session → Progress (List WorkTree)
  | [], s => ⟨[], s, none⟩
  | t :: ts, s =>
    let first := finishUnstarted v message t s
    match first.fault with
    | some fault => ⟨first.value :: ts, first.session, some fault⟩
    | none => (finishEachUnstarted v message ts first.session).map (first.value :: ·)

end

def cancel (t : WorkTree) (s : Session) : Progress WorkTree :=
  finishUnstarted .cancelled (some "Test run was cancelled") t s

end WorkTree

/-- The result of a suite whose setup ended in a given way. -/
def Result.ofSuite (n : Node) (setUp : Except Failure Outcome) (children : List ResultTree) :
    Result :=
  match setUp with
  | .ok _ =>
    let (verdict, message) := (Rollup.ofKind n.kind).combine (children.map (·.value.verdict))
    { ofNode n with verdict, message }
  | .error failure =>
    { ofNode n with
      verdict := failure.verdict.atSite .setUp
      message := some failure.message
      stackTrace := failure.stackTrace }

/-- The asserts of a suite are those of its children. -/
def Result.assertCountOf (children : List ResultTree) : UInt32 :=
  (children.map (·.value.assertCount)).foldr (· + ·) 0

/-- Adds the failure of a teardown. It never hides a failure, and a suite with one has failed. -/
def Result.withTearDownFailure (r : Result) (failure : Failure) : Result :=
  let note := "OneTimeTearDown: " ++ failure.message
  let stackTrace := r.stackTrace.or failure.stackTrace
  if r.verdict.status = .failed then
    let message := match r.message with
      | some message => message ++ "\n" ++ note
      | none => note
    { r with message := some message, stackTrace }
  else
    let verdict := if failure.verdict.status = .failed then failure.verdict else .error
    { r with verdict := verdict.atSite .tearDown, message := some note, stackTrace }

def Result.withTearDown (r : Result) : Except Failure Outcome → Result
  | .ok _ => r
  | .error failure => r.withTearDownFailure failure

def Result.withTimes (r : Result) (startMs endMs : Nat) : Result :=
  { r with
    startTime := some (Timestamp.ofMilliseconds startMs)
    endTime := some (Timestamp.ofMilliseconds endMs)
    durationMs := endMs - startMs }

structure Dispatcher where
  invoker : Invoker
  clock : Clock := Clock.from 0
  /-- The time at which nothing more is started. -/
  deadline : Option Nat := none
  workers : Nat := 0

namespace Dispatcher

def isParallel (d : Dispatcher) : Bool := 1 < d.workers

/-- Stops the run if its deadline has passed. -/
def observeDeadline (d : Dispatcher) (s : Session) : Session :=
  match d.deadline with
  | none => s
  | some deadline =>
    let (now, s) := s.readClock d.clock
    s.stopIf (deadline ≤ now)

/-- Whether a result ends a run that stops at the first failure. -/
def endsRun (context : Context) (r : Result) : Bool :=
  context.stopOnError && r.verdict.status = .failed && !r.verdict.isCancelled

/-- Starts and runs a test case. -/
def runLeaf (d : Dispatcher) (item : WorkItem) (below : List WorkTree) (context : Context)
    (s : Session) : Progress WorkTree :=
  let s := d.observeDeadline s
  if s.stopped then WorkTree.cancel (.node item below) s
  else
    match item.advance .running with
    | .error fault => ⟨.node item below, s, some fault⟩
    | .ok item =>
      let s := s.record (.started item.node)
      let (startMs, s) := s.readClock d.clock
      let (body, _, s) := s.call d.invoker .test item.node context
      let (endMs, s) := s.readClock d.clock
      let result := (Result.ofBody item.node body).withTimes startMs endMs
      let s := s.stopIf (endsRun context result)
      WorkTree.conclude item below (.node result []) s

/-- A suite whose setup has been called. -/
structure OpenSuite where
  item : WorkItem
  startMs : Nat
  setUp : Except Failure Outcome
  context : Context

/-- Starts a suite: its settings apply before its setup. -/
def openSuite (d : Dispatcher) (item : WorkItem) (context : Context) (s : Session) :
    OpenSuite × Session :=
  let s := s.record (.started item.node)
  let (startMs, s) := s.readClock d.clock
  let context := context.withSettings item.node.settings
  let (setUp, context, s) := s.call d.invoker .setUp item.node context
  let context := if setUp.isOk then context.pushSetup item.node.id else context
  (⟨item, startMs, setUp, context⟩, s)

/-- Tears a suite down and concludes it with the results of its children. -/
def closeSuite (d : Dispatcher) (suite : OpenSuite) (below : List WorkTree) (s : Session) :
    Progress WorkTree :=
  let node := suite.item.node
  let (tearDown, context, s) := s.call d.invoker .tearDown node suite.context
  WorkTree.concludeWith suite.item below s fun children s =>
    let result := (Result.ofSuite node suite.setUp children).withTearDown tearDown
    let result := { result with assertCount := Result.assertCountOf children }
    let (endMs, s) := s.readClock d.clock
    let result := result.withTimes suite.startMs endMs
    (.node result children, s.stopIf (endsRun context result))

/-- Goes on to close a suite unless its children ended in a fault. -/
def closeAfter (d : Dispatcher) (suite : OpenSuite) (children : Progress (List WorkTree)) :
    Progress WorkTree :=
  match children.fault with
  | some fault => ⟨.node suite.item children.value, children.session, some fault⟩
  | none => d.closeSuite suite children.value children.session

/-- The verdict of everything below a suite whose setup failed. -/
def setUpVerdict (failure : Failure) : Verdict := failure.verdict.atSite .parent

mutual

/-- Takes an item and all below it to their end. -/
def execute (d : Dispatcher) : WorkTree → Context → Session → Progress WorkTree
  | .node item below, context, s =>
    let s := d.observeDeadline s
    if s.stopped then WorkTree.cancel (.node item below) s
    else
      match item.skip? with
      | some (v, reason) => WorkTree.finishUnstarted v reason (.node item below) s
      | none =>
        if !item.node.isSuite then d.runLeaf item below context s
        else
          match item.advance .running with
          | .error fault => ⟨.node item below, s, some fault⟩
          | .ok item =>
            let (suite, s) := d.openSuite item context s
            match suite.setUp with
            | .error failure =>
              d.closeAfter suite <| WorkTree.finishEachUnstarted (setUpVerdict failure)
                (some ("OneTimeSetUp: " ++ failure.message)) below s
            | .ok _ =>
              if below.isEmpty then d.closeSuite suite below s
              else
                match suite.item.advance .waitingForChildren with
                | .error fault => ⟨.node suite.item below, s, some fault⟩
                | .ok item =>
                  d.closeAfter { suite with item } (d.executeEach below suite.context s)

/-- Executes the children of a suite in order. A fault ends the suite, but with several workers
only after every child has had its turn. -/
def executeEach (d : Dispatcher) :
    List WorkTree → Context → Session → Progress (List WorkTree)
  | [], _, s => ⟨[], s, none⟩
  | t :: ts, context, s =>
    let first := d.execute t (context.forChild t.value.node) s
    if first.fault.isSome && !d.isParallel then ⟨first.value :: ts, first.session, first.fault⟩
    else
      let rest := d.executeEach ts context first.session
      ⟨first.value :: rest.value, rest.session, first.fault.or rest.fault⟩

end

end Dispatcher

end TestScheduler

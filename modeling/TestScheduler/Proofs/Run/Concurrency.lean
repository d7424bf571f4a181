import TestScheduler.Proofs.Run.Derivation
import TestScheduler.Proofs.Run.Job

/-! # Dispatching with several workers

`Dispatcher.job` cuts what a dispatcher does with an item into steps between which other items may
get their turn. A suite waits for its children all at once, and a test case holds a permit from its
start until its body has ended. Alone, the job does what `Dispatcher.execute` does with several
workers.
-/

namespace TestScheduler

variable {Expression : Type} [Pattern.Dialect Expression]

/-- What a job has made of a tree of items, with the fault at which it ended early. -/
structure Ended where
  tree : WorkTree
  fault : Option Fault := none

/-- A last step, for which no permit is held. -/
def Job.last (f : Session → Progress WorkTree) : Job Ended :=
  .act false (fun s => (⟨(f s).value, (f s).fault⟩, (f s).session)) .done

/-- The first fault among those of several items. -/
def Ended.fault? (as : List Ended) : Option Fault := as.findSome? (·.fault)

namespace Dispatcher

/-- Finishes items without starting them, one report after another. -/
def finishJob (holds : Bool) (v : Verdict) (message : Option String) (t : WorkTree) : Job Ended :=
  let p := WorkTree.finishUnstarted v message t {}
  .report holds (.done ⟨p.value, p.fault⟩) p.session.events

/-- Goes on unless the run has been stopped, and cancels the items otherwise. -/
def unlessStopped (d : Dispatcher) (holds : Bool) (t : WorkTree) (next : Job Ended) : Job Ended :=
  .act false (fun s => ((d.observeDeadline s).stopped, d.observeDeadline s)) fun stopped =>
    if stopped then finishJob holds .cancelled cancelledMessage t else next

def startItem (d : Dispatcher) (item : WorkItem) (s : Session) : Nat × Session :=
  (s.record (.started item.node)).readClock d.clock

def callBody (d : Dispatcher) (item : WorkItem) (context : Context) (s : Session) :
    Except Failure Outcome × Session :=
  let (body, _, s) := s.call d.invoker .test item.node context
  (body, s)

/-- Concludes a test case whose body has ended. -/
def endLeaf (d : Dispatcher) (item : WorkItem) (below : List WorkTree) (context : Context)
    (startMs : Nat) (body : Except Failure Outcome) (s : Session) : Progress WorkTree :=
  let (endMs, s) := s.readClock d.clock
  let result := (Result.ofBody item.node body).withTimes startMs endMs
  WorkTree.conclude item below (.node result []) (s.stopIf (endsRun context result))

/-- Starts and runs a test case that holds a permit. -/
def startLeaf (d : Dispatcher) (item : WorkItem) (below : List WorkTree) (context : Context) :
    Job Ended :=
  match item.advance .running with
  | .error fault => .done ⟨.node item below, some fault⟩
  | .ok item =>
    .act true (d.startItem item) fun startMs =>
      .act true (d.callBody item context) fun body =>
        .last (d.endLeaf item below context startMs body)

/-- Waits for a permit. -/
def leafJob (d : Dispatcher) (item : WorkItem) (below : List WorkTree) (context : Context) :
    Job Ended :=
  d.unlessStopped true (.node item below) (d.startLeaf item below context)

def callSetUp (d : Dispatcher) (item : WorkItem) (context : Context) (startMs : Nat)
    (s : Session) : OpenSuite × Session :=
  let context := context.withSettings item.node.settings
  let (setUp, context, s) := s.call d.invoker .setUp item.node context
  let context := if setUp.isOk then context.pushSetup item.node.id else context
  (⟨item, startMs, setUp, context⟩, s)

def callTearDown (d : Dispatcher) (suite : OpenSuite) (s : Session) :
    (Except Failure Outcome × Context) × Session :=
  let (tearDown, context, s) := s.call d.invoker .tearDown suite.item.node suite.context
  ((tearDown, context), s)

/-- Concludes a suite that has been torn down. -/
def endSuite (d : Dispatcher) (suite : OpenSuite) (below : List WorkTree)
    (tearDown : Except Failure Outcome) (context : Context) (s : Session) : Progress WorkTree :=
  WorkTree.concludeWith suite.item below s fun children s =>
    let (endMs, s) := s.readClock d.clock
    let result := suite.close children tearDown endMs
    (.node result children, s.stopIf (endsRun context result))

def closeJob (d : Dispatcher) (suite : OpenSuite) (below : List WorkTree) : Job Ended :=
  .act false (d.callTearDown suite) fun (tearDown, context) =>
    .last (d.endSuite suite below tearDown context)

/-- Goes on to close a suite unless its children ended in a fault. -/
def closeAfterJob (d : Dispatcher) (suite : OpenSuite) (below : List WorkTree) :
    Option Fault → Job Ended
  | some fault => .done ⟨.node suite.item below, some fault⟩
  | none => d.closeJob suite below

/-- What follows the setup of a suite with given jobs for its children. -/
def suiteJob (d : Dispatcher) (below : List WorkTree) (jobs : Context → List (Job Ended))
    (suite : OpenSuite) : Job Ended :=
  match suite.setUp with
  | .error failure =>
    let p := WorkTree.finishEachUnstarted (setUpVerdict failure) (setUpMessage failure) below {}
    .report false (d.closeAfterJob suite p.value p.fault) p.session.events
  | .ok _ =>
    if below.isEmpty then d.closeJob suite below
    else
      match suite.item.advance .waitingForChildren with
      | .error fault => .done ⟨.node suite.item below, some fault⟩
      | .ok item =>
        .fork (jobs suite.context) fun ended =>
          d.closeAfterJob { suite with item } (ended.map (·.tree)) (Ended.fault? ended)

/-- Starts a suite with given jobs for its children. -/
def startSuite (d : Dispatcher) (item : WorkItem) (below : List WorkTree)
    (jobs : Context → List (Job Ended)) (context : Context) : Job Ended :=
  match item.advance .running with
  | .error fault => .done ⟨.node item below, some fault⟩
  | .ok item =>
    .act false (d.startItem item) fun startMs =>
      .act false (d.callSetUp item context startMs) (d.suiteJob below jobs)

/-- Skips an item or starts it. -/
def serve (d : Dispatcher) (item : WorkItem) (below : List WorkTree)
    (jobs : Context → List (Job Ended)) (context : Context) : Job Ended :=
  match item.skip? with
  | some (v, reason) => finishJob false v reason (.node item below)
  | none =>
    if !item.node.isSuite then d.leafJob item below context
    else d.startSuite item below jobs context

mutual

/-- The job of taking an item and all below it to their end. -/
def job (d : Dispatcher) : WorkTree → Context → Job Ended
  | .node item below, context =>
    d.unlessStopped false (.node item below) (d.serve item below (d.jobs below) context)

/-- The jobs of the children of a suite, each with a context of its own. -/
def jobs (d : Dispatcher) : List WorkTree → Context → List (Job Ended)
  | [], _ => []
  | t :: ts, context => d.job t (context.forChild t.value.node) :: d.jobs ts context

end

end Dispatcher

/-- What a step leaves behind, as the end of a job. -/
def Progress.ended (p : Progress WorkTree) : Ended × Session := (⟨p.value, p.fault⟩, p.session)

namespace Job

variable {α γ : Type} {holds : Bool} {next : Job α} {s : Session}

@[simp] theorem run_done (a : α) (s : Session) : (done a).run s = (a, s) := rfl

@[simp] theorem run_act (f : Session → γ × Session) (next : γ → Job α) (s : Session) :
    (act holds f next).run s = (next (f s).1).run (f s).2 := rfl

@[simp] theorem run_report (es : List Event) (s : Session) :
    (report holds next es).run s = next.run (s.recordAll es) := by
  induction es generalizing s with
  | nil => rw [report, Session.recordAll_nil]
  | cons e es ih =>
    calc (report holds next (e :: es)).run s
      _ = (report holds next es).run (s.record e) := rfl
      _ = next.run ((s.record e).recordAll es) := ih _
      _ = next.run (s.recordAll (e :: es)) := by simp [Session.recordAll, Session.record]

end Job

namespace WorkTree

variable {ts : List WorkTree}

theorem exists_finishEachUnstarted (v : Verdict) (message : Option String)
    (step : ∀ t ∈ ts, ∃ u es fault, ∀ s, finishUnstarted v message t s =
      ⟨u, s.recordAll es, fault⟩) :
    ∃ us es fault, ∀ s, finishEachUnstarted v message ts s = ⟨us, s.recordAll es, fault⟩ := by
  induction ts with
  | nil => exact ⟨[], [], none, fun s => by rw [finishEachUnstarted, Session.recordAll_nil]⟩
  | cons t ts ih =>
    obtain ⟨stepFirst, step⟩ := List.forall_mem_cons.mp step
    obtain ⟨u, es, fault, first⟩ := stepFirst
    obtain ⟨us, es', fault', rest⟩ := ih step
    cases fault with
    | some fault =>
      exact ⟨u :: ts, es, some fault, fun s => by simp only [finishEachUnstarted, first]⟩
    | none =>
      refine ⟨u :: us, es ++ es', fault', fun s => ?_⟩
      simp only [finishEachUnstarted, first, rest, Progress.map, Session.recordAll_recordAll]

theorem exists_finishUnstarted (v : Verdict) (message : Option String) (t : WorkTree) :
    ∃ u es fault, ∀ s, finishUnstarted v message t s = ⟨u, s.recordAll es, fault⟩ := by
  induction t using Tree.induction with
  | node item below ih =>
    obtain ⟨us, es, fault, each⟩ := exists_finishEachUnstarted v message ih
    cases fault with
    | some fault =>
      exact ⟨.node item us, es, some fault, fun s => by simp only [finishUnstarted, each]⟩
    | none =>
      simp only [finishUnstarted, each, concludeWith]
      cases results us with
      | error fault => exact ⟨.node item [], es, some fault, fun s => rfl⟩
      | ok rs =>
        simp only [conclude, Session.record_recordAll]
        cases item.complete _ with
        | ok item => exact ⟨_, _, _, fun s => rfl⟩
        | error fault => exact ⟨_, _, _, fun s => rfl⟩

end WorkTree

namespace Dispatcher

open WorkTree

variable {d : Dispatcher} {item : WorkItem} {below ts : List WorkTree} {t : WorkTree} {c : Context}

theorem run_finishJob (holds : Bool) (v : Verdict) (message : Option String) (t : WorkTree)
    (s : Session) :
    (finishJob holds v message t).run s = (finishUnstarted v message t s).ended := by
  obtain ⟨u, es, fault, finished⟩ := exists_finishUnstarted v message t
  simp [finishJob, finished, Progress.ended, Session.recordAll]

theorem run_closeJob (suite : OpenSuite) (below : List WorkTree) (s : Session) :
    (d.closeJob suite below).run s = (d.closeSuite suite below s).ended := rfl

theorem run_closeAfterJob (suite : OpenSuite) (p : Progress (List WorkTree)) :
    (d.closeAfterJob suite p.value p.fault).run p.session = (d.closeAfter suite p).ended := by
  obtain ⟨below, s, _ | fault⟩ := p <;> rfl

theorem run_unlessStopped (holds : Bool) (t : WorkTree) (next : Job Ended) (s : Session) :
    (d.unlessStopped holds t next).run s =
      if (d.observeDeadline s).stopped then (t.cancel (d.observeDeadline s)).ended
      else next.run (d.observeDeadline s) := by
  unfold unlessStopped
  rw [Job.run_act]
  split
  · exact run_finishJob ..
  · rfl

theorem run_leafJob (item : WorkItem) (below : List WorkTree) (c : Context) (s : Session) :
    (d.leafJob item below c).run s = (d.runLeaf item below c s).ended := by
  rw [leafJob, run_unlessStopped, runLeaf]
  split
  · rfl
  · rw [startLeaf]
    cases item.advance .running <;> rfl

theorem runEach_jobs (parallel : d.isParallel = true)
    (step : ∀ t ∈ ts, ∀ c s, (d.job t c).run s = (d.execute t c s).ended) (c : Context)
    (s : Session) :
    ∃ as, Job.runEach (d.jobs ts c) s = (as, (d.executeEach ts c s).session) ∧
      as.map (·.tree) = (d.executeEach ts c s).value ∧
      Ended.fault? as = (d.executeEach ts c s).fault := by
  induction ts generalizing s with
  | nil => exact ⟨[], rfl, rfl, rfl⟩
  | cons t ts ih =>
    obtain ⟨stepFirst, step⟩ := List.forall_mem_cons.mp step
    have first := stepFirst (c.forChild t.value.node) s
    obtain ⟨as, rest, trees, fault⟩ := ih step (d.execute t (c.forChild t.value.node) s).session
    simp only [jobs, Job.runEach, first, Progress.ended, rest, executeEach, parallel, Bool.not_true,
      Bool.and_false, Bool.false_eq_true, if_false]
    refine ⟨_, rfl, by rw [List.map_cons, trees], ?_⟩
    rw [← fault, Ended.fault?, List.findSome?_cons]
    cases (d.execute t (c.forChild t.value.node) s).fault <;> rfl

theorem run_suiteJob {jobs : Context → List (Job Ended)}
    (each : ∀ c s, ∃ as, Job.runEach (jobs c) s = (as, (d.executeEach below c s).session) ∧
      as.map (·.tree) = (d.executeEach below c s).value ∧
      Ended.fault? as = (d.executeEach below c s).fault) (suite : OpenSuite) (s : Session) :
    (d.suiteJob below jobs suite).run s =
      (match suite.setUp with
      | .error failure =>
        d.closeAfter suite
          (finishEachUnstarted (setUpVerdict failure) (setUpMessage failure) below s)
      | .ok _ =>
        if below.isEmpty then d.closeSuite suite below s
        else
          match suite.item.advance .waitingForChildren with
          | .error fault => ⟨.node suite.item below, s, some fault⟩
          | .ok item =>
            d.closeAfter { suite with item } (d.executeEach below suite.context s)).ended := by
  cases setUp : suite.setUp with
  | error failure =>
    obtain ⟨us, es, fault, finished⟩ := exists_finishEachUnstarted (setUpVerdict failure)
      (setUpMessage failure) fun t (_ : t ∈ below) => exists_finishUnstarted _ _ t
    simp only [suiteJob, setUp, finished, Job.run_report, Session.recordAll, List.nil_append]
    exact run_closeAfterJob suite ⟨us, s.recordAll es, fault⟩
  | ok outcome =>
    cases empty : below.isEmpty with
    | true => simp [suiteJob, setUp, empty, run_closeJob]
    | false =>
      cases waits : suite.item.advance .waitingForChildren with
      | error fault => simp [suiteJob, setUp, empty, waits, Progress.ended]
      | ok item =>
        obtain ⟨as, ran, trees, fault⟩ := each suite.context s
        simp only [suiteJob, setUp, empty, waits, Bool.false_eq_true, if_false, Job.run, ran, trees,
          fault]
        exact run_closeAfterJob _ (d.executeEach below suite.context s)

/-- Alone, the job of an item does what the dispatcher does with several workers. -/
theorem run_job (parallel : d.isParallel = true) (t : WorkTree) (c : Context) (s : Session) :
    (d.job t c).run s = (d.execute t c s).ended := by
  induction t using Tree.induction generalizing c s with
  | node item below ih =>
    rw [job, run_unlessStopped, execute]
    cases stopped : (d.observeDeadline s).stopped with
    | true => rfl
    | false =>
      rw [serve]
      cases skip : item.skip? with
      | some pair => simp [run_finishJob]
      | none =>
        cases isSuite : item.node.isSuite with
        | false => simp [run_leafJob]
        | true =>
          rw [startSuite]
          cases started : item.advance .running with
          | error fault => simp [Progress.ended]
          | ok item =>
            simp only [Job.run_act, Bool.not_true, Bool.false_eq_true, if_false]
            rw [run_suiteJob (runEach_jobs parallel ih)]
            rfl

theorem executeEach_workers {workers : Nat}
    (same : ∀ t ∈ ts, ∀ c s, ({ d with workers } : Dispatcher).execute t c s = d.execute t c s)
    (faultless : ∀ t ∈ ts, ∀ c s, (d.execute t c s).fault = none) (c : Context) (s : Session) :
    ({ d with workers } : Dispatcher).executeEach ts c s = d.executeEach ts c s := by
  induction ts generalizing s with
  | nil => rfl
  | cons t ts ih =>
    obtain ⟨sameFirst, same⟩ := List.forall_mem_cons.mp same
    obtain ⟨first, faultless⟩ := List.forall_mem_cons.mp faultless
    simp only [executeEach, sameFirst, first, ih same faultless, Option.isSome_none,
      Bool.false_and]

/-- The number of workers does not matter to a dispatcher that meets no fault. -/
theorem execute_workers (fresh : t.Fresh) (workers : Nat) (c : Context) (s : Session) :
    ({ d with workers } : Dispatcher).execute t c s = d.execute t c s := by
  induction t using Tree.induction generalizing c s with
  | node item below ih =>
    obtain ⟨-, -, each⟩ := fresh
    have faultless (t : WorkTree) (ht : t ∈ below) (c : Context) (s : Session) :
        (d.execute t c s).fault = none := by
      obtain ⟨_, _, gives, -⟩ := executes (each t ht) d c s
      exact gives.fault
    simp only [execute, executeEach_workers (fun t ht => ih t ht (each t ht)) faultless]
    rfl

end Dispatcher

end TestScheduler

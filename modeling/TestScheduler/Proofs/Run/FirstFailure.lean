import TestScheduler.Pattern.Common
import TestScheduler.Proofs.Run.Bodies
import TestScheduler.Proofs.Run.Stopping

/-! # The first failure

A run that stops on errors begins nothing after a failure has been reported. Failures of items that
were not started follow from a failed setup, whose suite is reported next and stops the run. The one
exception are items that cannot be run: they fail, and the run goes on.
-/

namespace TestScheduler

variable {Expression : Type} [Pattern.Dialect Expression]

/-- Whether a result is a failure that ends a run which stops on errors. -/
structure Result.Fatal (r : Result) : Prop where
  failed : r.verdict.status = .failed
  genuine : r.verdict.isCancelled = false
  started : r.isTimed = true ∨ r.verdict ≠ .notRunnable

namespace Event

/-- Whether an event goes on with a run that might have been stopped. -/
def begins : Event → Bool
  | started _ => true
  | called call => call.hook ≠ .tearDown
  | finished _ => false

/-- Whether a log reports a fatal failure. -/
def FailedBy (log : List Event) : Prop := ∃ r : ResultTree, .finished r ∈ log ∧ r.value.Fatal

/-- Whether nothing begins after a fatal failure. -/
def FailsFast (log : List Event) : Prop :=
  Each (fun before e => e.begins = true → ¬ FailedBy before) log

variable {log es : List Event} {e : Event} {v : Verdict}

theorem failedBy_append_iff : FailedBy (log ++ es) ↔ FailedBy log ∨ FailedBy es := by
  simp only [FailedBy, List.mem_append, or_and_right, exists_or]

theorem failedBy_begun_iff (other : e.isFinished = false) :
    FailedBy (log ++ [e]) ↔ FailedBy log := by
  rw [failedBy_append_iff]
  refine or_iff_left ?_
  rintro ⟨r, hr, -⟩
  obtain rfl := List.mem_singleton.mp hr
  cases other

theorem failedBy_concat_iff {r : ResultTree} :
    FailedBy (log ++ [.finished r]) ↔ FailedBy log ∨ r.value.Fatal := by
  rw [failedBy_append_iff]
  simp [FailedBy]

theorem fatal_of_failedBy_unstarted (unstarted : ∀ e ∈ es, e.Unstarted v) (failed : FailedBy es) :
    v.status = .failed ∧ v.isCancelled = false ∧ v ≠ .notRunnable := by
  obtain ⟨r, hr, fatal⟩ := failed
  obtain ⟨r', same, untimed, rfl⟩ := unstarted _ hr
  cases same
  refine ⟨fatal.failed, fatal.genuine, fatal.started.resolve_left ?_⟩
  simp [untimed]

theorem begins_of_unstarted (h : e.Unstarted v) : e.begins = false := by
  obtain ⟨r, rfl, -⟩ := h
  rfl

theorem FailsFast.begin (h : FailsFast log) (ok : ¬ FailedBy log) (e : Event) :
    FailsFast (log ++ [e]) :=
  each_concat_iff.mpr ⟨h, fun _ => ok⟩

theorem FailsFast.start (h : FailsFast log) (ok : ¬ FailedBy log) (n : Node) (call : Call) :
    FailsFast (log ++ [.started n] ++ [.called call]) := by
  refine (h.begin ok _).begin ?_ _
  rwa [failedBy_begun_iff rfl]

theorem FailsFast.goOn (h : FailsFast log) (none : ∀ e ∈ es, e.begins = false) :
    FailsFast (log ++ es) := by
  refine Each.append h fun e he before begins => ?_
  simp [none e he] at begins

end Event

namespace Dispatcher

open Event

variable {d : Dispatcher} {t : WorkTree} {c : Context} {s s' : Session} {r : ResultTree}
  {rs : List ResultTree}

theorem endsRun_of_fatal {result : Result} (policy : c.stopOnError = true)
    (failed : result.verdict.status = .failed) (genuine : result.verdict.isCancelled = false) :
    endsRun c result = true := by
  simp [endsRun, policy, failed, genuine]

theorem Closes.stopped_of_failed {suite : OpenSuite} (closed : d.Closes suite rs s r s')
    (policy : suite.context.stopOnError = true) (failed : r.value.verdict.status = .failed)
    (genuine : r.value.verdict.isCancelled = false) : s'.stopped = true := by
  cases closed with
  | tornDown called ended =>
    have policy := (Session.stopOnError_of_call called).trans policy
    rw [Tree.value_node] at failed genuine
    rw [Session.stopped_record, Session.stopped_stopIf, endsRun_of_fatal policy failed genuine,
      Bool.or_true]

theorem Closes.verdict_of_setUp {suite : OpenSuite} {failure : Failure}
    (closed : d.Closes suite rs s r s') (setUp : suite.setUp = .error failure)
    (failed : failure.verdict.status = .failed) :
    r.value.verdict = failure.verdict.atSite .setUp := by
  cases closed with
  | @tornDown tearDown _ endMs =>
    have own : (Result.ofSuite suite.item.node suite.setUp rs).verdict =
        failure.verdict.atSite .setUp := by
      rw [setUp]
      rfl
    calc (suite.close rs tearDown endMs).verdict
      _ = ((Result.ofSuite suite.item.node suite.setUp rs).withTearDown tearDown).verdict := rfl
      _ = (Result.ofSuite suite.item.node suite.setUp rs).verdict :=
        Result.verdict_withTearDown_of_failed (by rw [own]; exact failed) tearDown
      _ = failure.verdict.atSite .setUp := own

theorem not_failedBy_of_going (going : (d.observeDeadline s).stopped = false)
    (flag : FailedBy s.events → s.stopped = true) : ¬ FailedBy s.events := by
  intro failed
  have stopped := going_of_observeDeadline going
  rw [flag failed] at stopped
  cases stopped

theorem failsFast_of_opened {item : WorkItem} {suite : OpenSuite}
    (opened : d.openSuite (item.moved .running) c (d.observeDeadline s) = (suite, s'))
    (fast : FailsFast s.events) (ok : ¬ FailedBy s.events) :
    FailsFast s'.events ∧ ¬ FailedBy s'.events := by
  rw [events_of_opened opened, Session.events_observeDeadline, List.append_cons,
    failedBy_begun_iff rfl, failedBy_begun_iff rfl]
  exact ⟨fast.start ok _ _, ok⟩

/-- The report on a suite makes up for failures below it that have not stopped the run. -/
theorem Closes.failsFast {suite : OpenSuite} (closed : d.Closes suite rs s r s')
    (policy : suite.context.stopOnError = true) (fast : FailsFast s.events)
    (flag : FailedBy s.events → s.stopped = true ∨
      r.value.verdict.status = .failed ∧ r.value.verdict.isCancelled = false) :
    FailsFast s'.events ∧ (FailedBy s'.events → s'.stopped = true) := by
  rw [closed.events]
  refine ⟨fast.goOn (by simp [begins]), fun failed => ?_⟩
  rw [List.append_cons, failedBy_concat_iff, failedBy_begun_iff rfl] at failed
  rcases failed with failed | fatal
  · rcases flag failed with stopped | ⟨failed, genuine⟩
    · exact closed.stays_stopped stopped
    · exact closed.stopped_of_failed policy failed genuine
  · exact closed.stopped_of_failed policy fatal.failed fatal.genuine

/-- A run that stops on errors is stopped by every fatal failure before anything else begins. -/
theorem Runs.failsFast (h : d.Runs t c s r s') (policy : c.stopOnError = true)
    (fast : FailsFast s.events) (flag : FailedBy s.events → s.stopped = true) :
    FailsFast s'.events ∧ (FailedBy s'.events → s'.stopped = true) := by
  induction h using Runs.rec (motive_2 := fun _ c s _ s' _ => c.stopOnError = true →
    FailsFast s.events → (FailedBy s.events → s.stopped = true) →
    FailsFast s'.events ∧ (FailedBy s'.events → s'.stopped = true)) with
  | cancelled stopped =>
    rw [Session.events_recordAll, Session.events_observeDeadline]
    exact ⟨fast.goOn fun e he => begins_of_unstarted (WorkTree.unstarted_finishes _ _ _ e he),
      fun _ => stopped⟩
  | overtaken _ _ _ stopped =>
    rw [Session.events_recordAll, Session.events_observeDeadline, Session.events_observeDeadline]
    exact ⟨fast.goOn fun e he => begins_of_unstarted (WorkTree.unstarted_finishes _ _ _ e he),
      fun _ => stopped⟩
  | skipped _ skip =>
    have unstarted := WorkTree.unstarted_finishes
    rw [Session.events_recordAll, Session.events_observeDeadline, failedBy_append_iff]
    refine ⟨fast.goOn fun e he => begins_of_unstarted (unstarted _ _ _ e he), ?_⟩
    rintro (failed | failed)
    · exact stopped_observeDeadline (flag failed)
    · obtain ⟨failed, -, other⟩ := fatal_of_failedBy_unstarted (unstarted _ _ _) failed
      exact absurd ((WorkItem.skip?_verdict skip).2.2 failed) other
  | leaf going _ _ _ started called ended =>
    have ok := not_failedBy_of_going going flag
    rw [events_of_body started called ended, List.append_cons, List.append_cons,
      failedBy_concat_iff, failedBy_begun_iff rfl, failedBy_begun_iff rfl]
    refine ⟨?_, fun failed => ?_⟩
    · exact (fast.start ok _ _).goOn (by simp [begins])
    · have fatal := failed.resolve_left ok
      rw [Tree.value_node] at fatal
      rw [Session.stopped_record, Session.stopped_stopIf,
        endsRun_of_fatal policy fatal.failed fatal.genuine, Bool.or_true]
  | setUpFailed going _ _ opened setUp closed =>
    obtain ⟨fast, ok⟩ := failsFast_of_opened opened fast (not_failedBy_of_going going flag)
    have unstarted := WorkTree.unstarted_finishesEach
    refine closed.failsFast ((stopOnError_of_opened opened).trans policy)
      (fast.goOn fun e he => begins_of_unstarted (unstarted _ _ _ e he)) fun failed => .inr ?_
    -- What failed below the suite failed with its setup, and so does the suite.
    have failed := (failedBy_append_iff.mp failed).resolve_left ok
    obtain ⟨failed, genuine, -⟩ := fatal_of_failedBy_unstarted (unstarted _ _ _) failed
    rw [closed.verdict_of_setUp setUp failed]
    exact ⟨failed, genuine⟩
  | suite going _ _ opened _ _ closed ih =>
    obtain ⟨fast, ok⟩ := failsFast_of_opened opened fast (not_failedBy_of_going going flag)
    have policy := (stopOnError_of_opened opened).trans policy
    obtain ⟨fast, flag⟩ := ih policy fast fun failed => absurd failed ok
    exact closed.failsFast policy fast fun failed => .inl (flag failed)
  | nil _ fast flag => exact ⟨fast, flag⟩
  | cons _ _ ih ih' policy fast flag =>
    obtain ⟨fast, flag⟩ := ih policy fast flag
    exact ih' policy fast flag

end Dispatcher

/-- A test that cannot be run, before one that can. -/
def TestTree.halfRunnable : TestTree :=
  let broken : Blueprint :=
    .node { name := "Broken", kind := .leaf, attributes := [.notRunnable "no body"] } []
  let sound : Blueprint := .node { name := "Sound", kind := .leaf } []
  (Blueprint.build (.node { name := "Root", kind := .suite } [broken, sound]) (.start 0)).1

namespace RunOptions

/-- In a run that stops on errors nothing begins once a failure has been reported, except for that
of an item which cannot be run, and the report says that the run was stopped. -/
theorem run_stops_at_failure (o : RunOptions) (policy : o.stopOnError = true) (invoker : Invoker)
    (clock : Clock) (tree : TestTree) (f : Filter) :
    ∃ report log, o.run invoker clock tree f = .ok report ∧
      (o.execute invoker clock tree f).session.events = log ∧
      ∀ before r after, log = before ++ .finished r :: after →
        r.value.verdict.status = .failed → r.value.verdict.isCancelled = false →
        (r.value.isTimed = true ∨ r.value.verdict ≠ .notRunnable) →
        report.cancelled = true ∧ ∀ e ∈ after, e.begins = false := by
  obtain ⟨r, s, gives, runs⟩ := o.execute_runs invoker clock f tree
  have ⟨fast, flag⟩ := runs.failsFast ((o.stopOnError_context _ _).trans policy)
    (by rw [events_dispatcher]; exact Event.each_nil)
    (by rw [events_dispatcher]; rintro ⟨r, hr, -⟩; cases hr)
  refine ⟨_, s.events, reportOf_of_gives f gives, by rw [gives.session], ?_⟩
  intro before r after log failed genuine started
  have fatal : r.value.Fatal := ⟨failed, genuine, started⟩
  rw [log, List.append_cons] at fast
  refine ⟨flag ⟨r, log ▸ by simp, fatal⟩, fun e he => ?_⟩
  obtain ⟨between, -, order⟩ := Event.Each.exists_between fast he
  exact Bool.eq_false_iff.mpr fun begins => order begins ⟨r, by simp, fatal⟩

end RunOptions

end TestScheduler

namespace TestScheduler.RunOptions

theorem run_stops_at_failure_sample :
    let o : RunOptions := { stopOnError := true }
    o.stopOnError = true ∧
      ∃ report log, o.run failingInvoker (Clock.from 0) .sample .empty = .ok report ∧
        (o.execute failingInvoker (Clock.from 0) .sample .empty).session.events = log ∧
        ∀ before r after, log = before ++ .finished r :: after →
          r.value.verdict.status = .failed → r.value.verdict.isCancelled = false →
          (r.value.isTimed = true ∨ r.value.verdict ≠ .notRunnable) →
          report.cancelled = true ∧ ∀ e ∈ after, e.begins = false :=
  ⟨rfl, run_stops_at_failure _ rfl _ _ _ _⟩

/-- After the failure of an item that cannot be run, a run goes on even if it stops on errors. -/
theorem not_run_stops_at_failure_of_notRunnable :
    ¬ ∀ before r after,
      (({ stopOnError := true } : RunOptions).execute passingInvoker (Clock.from 0) .halfRunnable
        .empty).session.events = before ++ .finished r :: after →
      r.value.verdict.status = .failed → r.value.verdict.isCancelled = false →
      ∀ call, .called call ∈ after → call.hook = .tearDown := by
  intro h
  let log := (({ stopOnError := true } : RunOptions).execute passingInvoker (Clock.from 0)
    .halfRunnable .empty).session.events
  let broken := TestTree.halfRunnable.locations.get ⟨1, by decide⟩
  have quiet := h (log.take 2)
    ((WorkTree.create .empty broken).unstarted .notRunnable (some "no body")) (log.drop 3)
    (by decide +kernel) (by decide +kernel) (by decide +kernel)
  have tested : ((log.drop 3).filterMap Event.tested?).map (·.name) = ["Sound"] := by
    decide +kernel
  obtain ⟨n, hn, -⟩ := List.mem_map.mp (tested ▸ List.mem_singleton_self "Sound")
  obtain ⟨e, he, hook⟩ := List.mem_filterMap.mp hn
  cases e with
  | called call =>
    rw [Event.tested?_called, quiet call he] at hook
    cases hook
  | started | finished => cases hook

end TestScheduler.RunOptions

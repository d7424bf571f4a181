import TestScheduler.Proofs.Result.Rollup
import TestScheduler.Proofs.Run.Bracketing
import TestScheduler.Proofs.Tree.Throughout

/-! # Accounting for failures

A log tells how each suite that was started ran: its start and its setup, the reports on its
children, its teardown and its own report. At every place in the results of a run the verdict
accounts for the failures below it, and that of a started suite fails only for a cause.
-/

namespace TestScheduler

variable {Expression : Type} [Pattern.Dialect Expression]

/-- How a suite ran: the log before its start, the calls of its hooks and the log in between. -/
structure SuiteRun where
  before : List Event
  setUp : Call
  between : List Event
  tearDown : Call

namespace SuiteRun

variable (ran : SuiteRun)

def logAtSetUp : List Event := ran.before ++ [.started ran.setUp.node]

def logAtTearDown : List Event := ran.logAtSetUp ++ [.called ran.setUp] ++ ran.between

def logAfter (t : ResultTree) : List Event :=
  ran.logAtTearDown ++ [.called ran.tearDown, .finished t]

/-- How the setup ended. -/
def setUpEnding (invoker : Invoker) : Except Failure Outcome :=
  (invoker ran.logAtSetUp ran.setUp).ending.guarded

/-- How the teardown ended. -/
def tearDownEnding (invoker : Invoker) : Except Failure Outcome :=
  (invoker ran.logAtTearDown ran.tearDown).ending.guarded

/-- Whether a log tells that a suite ran in this way and came to a given result. -/
structure ToldBy (log : List Event) (t : ResultTree) : Prop where
  setUp : ran.setUp.hook = .setUp
  tearDown : ran.tearDown.hook = .tearDown
  node : ran.tearDown.node = ran.setUp.node
  heading : t.value.heading = Result.ofNode ran.setUp.node
  reports : ran.between.filter Event.isFinished = ResultTree.finishesEach t.children
  logged : ran.logAfter t <+: log

/-- Why the suite fails, given its result. -/
def Cause (invoker : Invoker) (t : ResultTree) : Prop :=
  FailureCause t.value.kind (ran.setUpEnding invoker) (ran.tearDownEnding invoker)
    (t.children.map (·.value.verdict))

end SuiteRun

theorem WorkTree.verdict_unstarted (v : Verdict) (message : Option String) (t : WorkTree) :
    (t.unstarted v message).value.verdict = v := by
  obtain ⟨item, below⟩ := t
  rw [unstarted_node, Tree.value_node]

/-- How the verdict of a result accounts for those of its children and, if it is that of a started
suite, for what happened in the run. -/
structure ResultTree.Accounted (happened : ResultTree → Prop) (t : ResultTree) : Prop where
  failed : ∀ c ∈ t.children, c.value.verdict.status = .failed → t.value.verdict.status = .failed
  genuine : ∀ c ∈ t.children, c.value.verdict.status = .failed →
    c.value.verdict.isCancelled = false → t.value.verdict.isCancelled = false
  suite : t.value.kind.isSuite = true → t.value.isTimed = true → happened t

/-- Whether a log tells how a suite ran and why it failed, if it did. -/
def ResultTree.ToldIn (invoker : Invoker) (log : List Event) (t : ResultTree) : Prop :=
  ∃ ran : SuiteRun, ran.ToldBy log t ∧ (t.value.verdict.status = .failed ↔ ran.Cause invoker t)

namespace ResultTree

theorem filter_finishesEach (rs : List ResultTree) :
    (finishesEach rs).filter Event.isFinished = finishesEach rs :=
  List.filter_eq_self.mpr fun _ => isFinished_of_mem_finishesEach

variable {happened : ResultTree → Prop} {invoker : Invoker} {log log' : List Event}
  {t : ResultTree}

theorem Accounted.longer (h : t.Accounted (ToldIn invoker log)) (longer : log <+: log') :
    t.Accounted (ToldIn invoker log') := by
  refine ⟨h.failed, h.genuine, fun isSuite timed => ?_⟩
  obtain ⟨ran, told, cause⟩ := h.suite isSuite timed
  exact ⟨ran, { told with logged := told.logged.trans longer }, cause⟩

theorem accounted_leaf {r : Result} (leaf : r.kind.isSuite = false) :
    Accounted happened (.node r []) := by
  refine ⟨nofun, nofun, fun isSuite => ?_⟩
  rw [Tree.value_node, leaf] at isSuite
  cases isSuite

theorem accounted_unstarted (v : Verdict) (message : Option String) (t : WorkTree) :
    (t.unstarted v message).Throughout (Accounted happened) := by
  induction t using Tree.induction with
  | node item below ih =>
    rw [WorkTree.unstarted_node, Tree.throughout_node]
    refine ⟨⟨?_, ?_, ?_⟩, ?_⟩
    · intro r hr failed
      obtain ⟨t, -, rfl⟩ := List.mem_map.mp hr
      rwa [WorkTree.verdict_unstarted] at failed
    · intro r hr _ genuine
      obtain ⟨t, -, rfl⟩ := List.mem_map.mp hr
      rwa [WorkTree.verdict_unstarted] at genuine
    · intro _ timed
      cases timed
    · intro r hr
      obtain ⟨t, ht, rfl⟩ := List.mem_map.mp hr
      exact ih t ht

end ResultTree

namespace Dispatcher

variable {d : Dispatcher} {t : WorkTree} {c : Context} {s s' : Session} {r : ResultTree}

theorem setUp_of_opened {item : WorkItem} {suite : OpenSuite} {s₁ : Session}
    (opened : d.openSuite item c s = (suite, s₁)) :
    suite.setUp = (d.invoker (s.events ++ [.started item.node])
      ⟨.setUp, item.node, c.withSettings item.node.settings, s.stopped⟩).ending.guarded := by
  cases opened
  rfl

theorem ending_of_call {hook : Hook} {n : Node} {c' : Context}
    {ending : Except Failure Outcome} (called : s.call d.invoker hook n c = (ending, c', s')) :
    ending = (d.invoker s.events ⟨hook, n, c, s.stopped⟩).ending.guarded := by
  cases called
  rfl

theorem OpenSuite.kind_close (suite : OpenSuite) (rs : List ResultTree)
    (tearDown : Except Failure Outcome) (endMs : Nat) :
    (suite.close rs tearDown endMs).kind = suite.item.node.kind :=
  congrArg Result.kind (suite.heading_close rs tearDown endMs)

theorem Closes.exists_ran {item : WorkItem} {suite : OpenSuite} {rs : List ResultTree}
    {es : List Event} {s₁ s₂ : Session}
    (opened : d.openSuite (item.moved .running) c s = (suite, s₁))
    (between : s₂.events = s₁.events ++ es)
    (reports : es.filter Event.isFinished = ResultTree.finishesEach rs)
    (closed : d.Closes suite rs s₂ r s') :
    ∃ (ran : SuiteRun) (endMs : Nat), ran.before = s.events ∧
      ran.setUp = ⟨.setUp, item.node, c.withSettings item.node.settings, s.stopped⟩ ∧
      ran.between = es ∧ s'.events = ran.logAfter r ∧ ran.ToldBy s'.events r ∧
      ran.setUpEnding d.invoker = suite.setUp ∧
      r = .node (suite.close rs (ran.tearDownEnding d.invoker) endMs) rs := by
  have start := events_of_opened opened
  have hitem := item_of_opened opened
  cases closed with
  | @tornDown tearDown context endMs s₃ s₄ called ended =>
    let ran : SuiteRun :=
      { before := s.events
        setUp := ⟨.setUp, item.node, c.withSettings item.node.settings, s.stopped⟩
        between := es
        tearDown := ⟨.tearDown, suite.item.node, suite.context, s₂.stopped⟩ }
    have atTearDown : s₂.events = ran.logAtTearDown := by
      rw [between, start]
      simp [SuiteRun.logAtTearDown, SuiteRun.logAtSetUp, ran]
    have tearDownEnding : ran.tearDownEnding d.invoker = tearDown := by
      rw [ending_of_call called, atTearDown]
      rfl
    have after (r : ResultTree) (b : Bool) :
        ((s₄.stopIf b).record (.finished r)).events = ran.logAfter r := by
      rw [Session.events_record, Session.events_stopIf, Session.events_of_readClock ended,
        Session.events_of_call called, atTearDown, List.append_assoc]
      rfl
    refine ⟨ran, endMs, rfl, rfl, rfl, after _ _, ⟨rfl, rfl, hitem, ?_, reports, ?_⟩,
      (setUp_of_opened opened).symm, ?_⟩
    · rw [Tree.value_node, OpenSuite.heading_close, hitem]
    · exact after _ _ ▸ List.prefix_refl (ran.logAfter _)
    · rw [tearDownEnding]

theorem Closes.told {item : WorkItem} {suite : OpenSuite} {rs : List ResultTree}
    {es : List Event} {s₁ s₂ : Session}
    (opened : d.openSuite (item.moved .running) c s = (suite, s₁))
    (between : s₂.events = s₁.events ++ es)
    (reports : es.filter Event.isFinished = ResultTree.finishesEach rs)
    (closed : d.Closes suite rs s₂ r s') :
    ∃ (ran : SuiteRun) (endMs : Nat), ran.ToldBy s'.events r ∧
      ran.setUpEnding d.invoker = suite.setUp ∧
      r = .node (suite.close rs (ran.tearDownEnding d.invoker) endMs) rs ∧
      s₂.events <+: s'.events := by
  obtain ⟨ran, endMs, -, -, -, -, told, ended, result⟩ :=
    closed.exists_ran opened between reports
  exact ⟨ran, endMs, told, ended, result, _, closed.events.symm⟩

/-- The verdict of a suite accounts for those of its children however it was served. -/
theorem OpenSuite.accounted_close {suite : OpenSuite} {rs : List ResultTree}
    {tearDown : Except Failure Outcome} {endMs : Nat} {happened : ResultTree → Prop}
    (follow : Result.FollowSetUp suite.setUp rs)
    (because : ((suite.close rs tearDown endMs).verdict.status = .failed ↔
      FailureCause (suite.close rs tearDown endMs).kind suite.setUp tearDown
        (rs.map (·.value.verdict))) → happened (.node (suite.close rs tearDown endMs) rs)) :
    ResultTree.Accounted happened (.node (suite.close rs tearDown endMs) rs) := by
  have failed : (suite.close rs tearDown endMs).verdict.status = .failed ↔
      FailureCause (suite.close rs tearDown endMs).kind suite.setUp tearDown
        (rs.map (·.value.verdict)) := by
    rw [OpenSuite.kind_close]
    exact Result.failed_suite_iff follow
  refine ⟨fun c hc h => ?_, fun c hc h genuine => ?_, fun _ _ => because failed⟩
  · exact failed.mpr (.child (List.mem_map.mpr ⟨c, hc, rfl⟩) h)
  · exact Result.not_isCancelled_suite follow hc h genuine

theorem accounted_suite {item : WorkItem} {suite : OpenSuite} {rs : List ResultTree}
    {es : List Event} {s₁ s₂ : Session}
    (opened : d.openSuite (item.moved .running) c s = (suite, s₁))
    (between : s₂.events = s₁.events ++ es)
    (reports : es.filter Event.isFinished = ResultTree.finishesEach rs)
    (follow : Result.FollowSetUp suite.setUp rs) (closed : d.Closes suite rs s₂ r s')
    (below : ∀ r ∈ rs,
      r.Throughout (ResultTree.Accounted (ResultTree.ToldIn d.invoker s₂.events))) :
    r.Throughout (ResultTree.Accounted (ResultTree.ToldIn d.invoker s'.events)) := by
  obtain ⟨ran, endMs, told, setUp, rfl, longer⟩ := closed.told opened between reports
  rw [Tree.throughout_node]
  refine ⟨OpenSuite.accounted_close follow fun failed => ⟨ran, told, ?_⟩, fun r hr => ?_⟩
  · unfold SuiteRun.Cause
    rw [setUp]
    exact failed
  · exact (below r hr).mono fun t ht => ht.longer longer

theorem followSetUp_of_ok {setUp : Except Failure Outcome} {outcome : Outcome}
    (ended : setUp = .ok outcome) (rs : List ResultTree) : Result.FollowSetUp setUp rs := by
  intro failure failed
  rw [ended] at failed
  cases failed

theorem followSetUp_of_error {setUp : Except Failure Outcome} {failure : Failure}
    (ended : setUp = .error failure) (message : Option String) (below : List WorkTree) :
    Result.FollowSetUp setUp (below.map (WorkTree.unstarted (setUpVerdict failure) message)) := by
  intro failure' ended' r hr
  rw [ended] at ended'
  cases ended'
  obtain ⟨t, -, rfl⟩ := List.mem_map.mp hr
  rw [WorkTree.verdict_unstarted]
  rfl

theorem Closes.finishes_eq {suite : OpenSuite} {rs : List ResultTree}
    (closed : d.Closes suite rs s r s') :
    r.finishes = ResultTree.finishesEach rs ++ [.finished r] := by
  cases closed with
  | tornDown => rw [ResultTree.finishes]

theorem Closes.reports {item : WorkItem} {suite : OpenSuite} {rs : List ResultTree}
    {es : List Event} {s₁ s₂ : Session} (opened : d.openSuite item c s = (suite, s₁))
    (between : s₂.events = s₁.events ++ es)
    (reports : es.filter Event.isFinished = ResultTree.finishesEach rs)
    (closed : d.Closes suite rs s₂ r s') :
    ∃ es, s'.events = s.events ++ es ∧ es.filter Event.isFinished = r.finishes := by
  refine ⟨[.started item.node,
      .called ⟨.setUp, item.node, c.withSettings item.node.settings, s.stopped⟩] ++ es ++
    [.called ⟨.tearDown, suite.item.node, suite.context, s₂.stopped⟩, .finished r], ?_, ?_⟩
  · rw [closed.events, between, events_of_opened opened]
    simp
  · rw [List.filter_append, List.filter_append, reports, closed.finishes_eq]
    rfl

theorem Runs.reports (h : d.Runs t c s r s') :
    ∃ es, s'.events = s.events ++ es ∧ es.filter Event.isFinished = r.finishes := by
  have unstarted (r : ResultTree) : r.finishes.filter Event.isFinished = r.finishes :=
    List.filter_eq_self.mpr fun _ => ResultTree.isFinished_of_mem_finishes
  induction h using Runs.rec (motive_2 := fun _ _ s rs s' _ =>
    ∃ es, s'.events = s.events ++ es ∧ es.filter Event.isFinished = ResultTree.finishesEach rs) with
  | cancelled => exact ⟨_, by simp, unstarted _⟩
  | skipped => exact ⟨_, by simp, unstarted _⟩
  | overtaken => exact ⟨_, by simp, unstarted _⟩
  | leaf _ _ _ _ started called ended _ =>
    exact ⟨_, events_of_body started called ended _ _, rfl⟩
  | setUpFailed _ _ _ opened _ closed =>
    simpa using closed.reports opened (Session.events_recordAll _ _)
      (ResultTree.filter_finishesEach _)
  | suite _ _ _ opened _ _ closed ih =>
    obtain ⟨es, between, reports⟩ := ih
    simpa using closed.reports opened between reports
  | nil => exact ⟨[], by simp, rfl⟩
  | cons _ _ ih ih' =>
    obtain ⟨es, hes, first⟩ := ih
    obtain ⟨es', hes', rest⟩ := ih'
    refine ⟨es ++ es', by rw [hes', hes, List.append_assoc], ?_⟩
    rw [List.filter_append, first, rest, ResultTree.finishesEach]

theorem RunsEach.reports {ts : List WorkTree} {rs : List ResultTree}
    (h : d.RunsEach ts c s rs s') :
    ∃ es, s'.events = s.events ++ es ∧ es.filter Event.isFinished = ResultTree.finishesEach rs := by
  induction rs generalizing ts s with
  | nil =>
    cases h
    exact ⟨[], (List.append_nil _).symm, rfl⟩
  | cons r rs ih =>
    cases h with
    | cons first rest =>
      obtain ⟨es, hes, reports⟩ := first.reports
      obtain ⟨es', hes', reports'⟩ := ih rest
      refine ⟨es ++ es', by rw [hes', hes, List.append_assoc], ?_⟩
      rw [List.filter_append, reports, reports', ResultTree.finishesEach]

/-- In every run the verdicts account for the failures, at every place in the results. -/
theorem Runs.accounted (h : d.Runs t c s r s') :
    r.Throughout (ResultTree.Accounted (ResultTree.ToldIn d.invoker s'.events)) := by
  induction h using Runs.rec (motive_2 := fun _ _ _ rs s' _ =>
    ∀ r ∈ rs, r.Throughout (ResultTree.Accounted (ResultTree.ToldIn d.invoker s'.events))) with
  | cancelled | skipped | overtaken => exact ResultTree.accounted_unstarted _ _ _
  | leaf _ _ leaf _ _ _ _ result =>
    rw [result, Tree.throughout_node]
    refine ⟨ResultTree.accounted_leaf ?_, List.forall_mem_nil _⟩
    rw [Result.kind_ofBody]
    exact leaf
  | setUpFailed _ _ _ opened setUp closed =>
    refine accounted_suite opened (Session.events_recordAll _ _)
      (ResultTree.filter_finishesEach _) (followSetUp_of_error setUp _ _) closed ?_
    intro r hr
    obtain ⟨t, -, rfl⟩ := List.mem_map.mp hr
    exact ResultTree.accounted_unstarted _ _ t
  | suite _ _ _ opened setUp children closed ih =>
    obtain ⟨es, between, reports⟩ := children.reports
    exact accounted_suite opened between reports (followSetUp_of_ok setUp _) closed ih
  | @nil _ _ r hr => cases hr
  | @cons _ _ _ _ _ _ _ _ _ rest ih ih' r hr =>
    obtain ⟨es, longer, -⟩ := rest.reports
    rcases List.mem_cons.mp hr with rfl | hr
    · exact ih.mono fun t ht => ht.longer (longer ▸ List.prefix_append _ _)
    · exact ih' r hr

end Dispatcher

/-- Whether failures show in all that is above them, in the root at the latest, as such if they have
another reason than a stopped run, and something has happened that explains each started suite. -/
structure ResultTree.Surfaces (happened : ResultTree → Prop) (t : ResultTree) : Prop where
  failed : ∀ l ∈ t.locations, l.value.verdict.status = .failed →
    t.value.verdict.status = .failed ∧ ∀ a ∈ l.ancestors, a.value.verdict.status = .failed
  genuine : ∀ l ∈ t.locations, l.value.verdict.status = .failed →
    l.value.verdict.isCancelled = false → ∀ a ∈ l.ancestors, a.value.verdict.isCancelled = false
  suites : ∀ l ∈ t.locations, l.value.kind.isSuite = true → l.value.isTimed = true →
    happened l.tree

theorem ResultTree.surfaces_of_accounted {happened : ResultTree → Prop} {t : ResultTree}
    (h : t.Throughout (Accounted happened)) : t.Surfaces happened where
  failed _ := Tree.Throughout.rises (P := fun r => r.verdict.status = .failed)
    (h.mono fun _ accounted => accounted.failed)
  genuine _ hl failed genuine a ha :=
    have above := Tree.Throughout.rises
      (P := fun r => r.verdict.status = .failed ∧ r.verdict.isCancelled = false)
      (h.mono fun _ accounted c hc both =>
        ⟨accounted.failed c hc both.1, accounted.genuine c hc both.1 both.2⟩)
      hl ⟨failed, genuine⟩
    (above.2 a ha).2
  suites l hl := (h l hl).suite

namespace RunOptions

theorem invoker_dispatcher (o : RunOptions) (invoker : Invoker) (clock : Clock) :
    (o.dispatcher invoker clock).1.invoker = invoker := by
  cases h : o.timeoutMs <;> simp only [dispatcher, h]

theorem run_surfaces (o : RunOptions) (invoker : Invoker) (clock : Clock) (tree : TestTree)
    (f : Filter) :
    ∃ report, o.run invoker clock tree f = .ok report ∧
      report.result.Surfaces
        (ResultTree.ToldIn invoker (o.execute invoker clock tree f).session.events) := by
  obtain ⟨r, s, gives, runs⟩ := o.execute_runs invoker clock f tree
  refine ⟨_, reportOf_of_gives f gives, ?_⟩
  have surfaces := ResultTree.surfaces_of_accounted runs.accounted
  rw [invoker_dispatcher] at surfaces
  rw [gives.session]
  exact surfaces

end RunOptions

end TestScheduler

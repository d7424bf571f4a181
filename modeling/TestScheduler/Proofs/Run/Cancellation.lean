import TestScheduler.Pattern.Common
import TestScheduler.Proofs.Run.Stopping

/-! # Cancellation

Once a run is stopped it winds down: all that is left are the teardowns of open suites and reports,
and every item that has not been started is cancelled. Conversely nothing is cancelled in a run that
is not stopped.
-/

namespace TestScheduler

variable {Expression : Type} [Pattern.Dialect Expression]

/-- Whether no test case that a log tells of reports that it was cancelled. -/
def Invoker.NeverCancels (invoker : Invoker) (log : List Event) : Prop :=
  ∀ before call outcome, before ++ [.called call] <+: log → call.hook = .test →
    (invoker before call).ending = .finished outcome → outcome.verdict.isCancelled = false

theorem Invoker.NeverCancels.shorter {invoker : Invoker} {log log' : List Event}
    (h : invoker.NeverCancels log') (longer : log <+: log') : invoker.NeverCancels log :=
  fun before call outcome called => h before call outcome (called.trans longer)

namespace ResultTree

/-- Whether a log tells that this is the result of a suite whose setup failed. -/
def SetUpFailed (invoker : Invoker) (log : List Event) (t : ResultTree) : Prop :=
  ∃ (ran : SuiteRun) (failure : Failure), ran.ToldBy log t ∧
    ran.setUpEnding invoker = .error failure

/-- Whether an item, if it was not started, is not judged by a suite above it. -/
def Unblamed (t : ResultTree) : Prop :=
  t.value.isTimed = false → t.value.verdict.site ≠ .parent

/-- Whether only suites whose setup failed pass a verdict on to what is below them. -/
def BlamesFairly (invoker : Invoker) (log : List Event) (t : ResultTree) : Prop :=
  t.Throughout fun s => Unblamed s → ¬ SetUpFailed invoker log s → ∀ c ∈ s.children, Unblamed c

/-- What a stopped run still does, given its results and the log until and from a time at which it
was stopped. -/
structure WindsDown (invoker : Invoker) (t : ResultTree) (before after : List Event) : Prop where
  events : ∀ e ∈ after, e.isFinished = true ∨
    ∃ call, e = .called call ∧ call.hook = .tearDown ∧ .started call.node ∈ before
  cancelled : ∀ l ∈ t.locations, .finished l.tree ∈ after → l.value.isTimed = false →
    (∀ a ∈ l.ancestors, ¬ SetUpFailed invoker (before ++ after) a.tree) →
    l.value.verdict = .cancelled

variable {invoker : Invoker} {log log' : List Event} {t : ResultTree} {l : Location Result}

theorem SetUpFailed.mono (h : t.SetUpFailed invoker log) (longer : log <+: log') :
    t.SetUpFailed invoker log' := by
  obtain ⟨ran, failure, told, ended⟩ := h
  exact ⟨ran, failure, { told with logged := told.logged.trans longer }, ended⟩

theorem BlamesFairly.mono (h : t.BlamesFairly invoker log) (longer : log <+: log') :
    t.BlamesFairly invoker log' :=
  Tree.Throughout.mono h fun _ fair unblamed ok => fair unblamed fun failed =>
    ok (failed.mono longer)

theorem unblamed_of_isTimed (timed : t.value.isTimed = true) : t.Unblamed := by
  intro untimed
  simp [timed] at untimed

theorem unblamed_unstarted_iff (v : Verdict) (message : Option String) (t : WorkTree) :
    Unblamed (t.unstarted v message) ↔ v.site ≠ .parent := by
  obtain ⟨item, below⟩ := t
  rw [WorkTree.unstarted_node, Unblamed, Tree.value_node]
  exact ⟨fun h => h rfl, fun h _ => h⟩

theorem blamesFairly_unstarted (v : Verdict) (message : Option String) (t : WorkTree) :
    BlamesFairly invoker log (t.unstarted v message) := by
  induction t using Tree.induction with
  | node item below ih =>
    have root := unblamed_unstarted_iff v message (.node item below)
    rw [WorkTree.unstarted_node] at root ⊢
    rw [BlamesFairly, Tree.throughout_node, root]
    refine ⟨fun unblamed _ c hc => ?_, fun c hc => ?_⟩
    · obtain ⟨t, -, rfl⟩ := List.mem_map.mp hc
      exact (unblamed_unstarted_iff v message t).mpr unblamed
    · obtain ⟨t, ht, rfl⟩ := List.mem_map.mp hc
      exact ih t ht

theorem finished_mem_finishes (hl : l ∈ t.locations) : .finished l.tree ∈ t.finishes := by
  have throughout : t.Throughout fun s => .finished s ∈ t.finishes := by
    clear hl
    induction t using Tree.induction with
    | node r rs ih =>
      rw [finishes, finishesEach_eq_flatMap, Tree.throughout_node]
      refine ⟨List.mem_concat_self, fun t ht => (ih t ht).mono fun s hs => ?_⟩
      exact List.mem_append_left _ (List.mem_flatMap.mpr ⟨t, ht, hs⟩)
  exact throughout l hl

end ResultTree

namespace Dispatcher

variable {d : Dispatcher} {o : RunOptions} {t : WorkTree} {c : Context} {s s' : Session}
  {r : ResultTree}

theorem Closes.isTimed {suite : OpenSuite} {rs : List ResultTree}
    (closed : d.Closes suite rs s r s') : r.value.isTimed = true := by
  cases closed with
  | tornDown => rfl

theorem Runs.unblamed (h : d.Runs t c s r s') :
    r.Unblamed ∧ r.BlamesFairly d.invoker s'.events := by
  induction h using Runs.rec (motive_2 := fun _ _ _ rs s' _ =>
    ∀ r ∈ rs, r.Unblamed ∧ ResultTree.BlamesFairly d.invoker s'.events r) with
  | cancelled =>
    exact ⟨(ResultTree.unblamed_unstarted_iff _ _ _).mpr nofun,
      ResultTree.blamesFairly_unstarted _ _ _⟩
  | skipped _ skip =>
    refine ⟨(ResultTree.unblamed_unstarted_iff _ _ _).mpr ?_,
      ResultTree.blamesFairly_unstarted _ _ _⟩
    rw [(WorkItem.skip?_verdict skip).2.1]
    nofun
  | overtaken =>
    exact ⟨(ResultTree.unblamed_unstarted_iff _ _ _).mpr nofun,
      ResultTree.blamesFairly_unstarted _ _ _⟩
  | leaf _ _ _ _ _ _ _ result =>
    refine ⟨ResultTree.unblamed_of_isTimed (by rw [result]; rfl), ?_⟩
    rw [ResultTree.BlamesFairly, Tree.throughout_node]
    exact ⟨nofun, nofun⟩
  | setUpFailed _ _ _ opened setUp closed =>
    refine ⟨ResultTree.unblamed_of_isTimed closed.isTimed, ?_⟩
    obtain ⟨ran, endMs, told, ended, rfl, -⟩ := closed.told opened (Session.events_recordAll _ _)
      (ResultTree.filter_finishesEach _)
    rw [ResultTree.BlamesFairly, Tree.throughout_node]
    refine ⟨fun _ ok => absurd ⟨ran, _, told, ended.trans setUp⟩ ok, fun r hr => ?_⟩
    obtain ⟨t, -, rfl⟩ := List.mem_map.mp hr
    exact ResultTree.blamesFairly_unstarted _ _ t
  | suite _ _ _ opened _ children closed ih =>
    refine ⟨ResultTree.unblamed_of_isTimed closed.isTimed, ?_⟩
    obtain ⟨es, between, reports⟩ := children.reports
    obtain ⟨ran, endMs, told, ended, rfl, longer⟩ := closed.told opened between reports
    rw [ResultTree.BlamesFairly, Tree.throughout_node]
    exact ⟨fun _ _ r hr => (ih r hr).1, fun r hr => (ih r hr).2.mono longer⟩
  | @nil _ _ r hr => cases hr
  | @cons _ _ _ _ _ _ _ _ _ rest ih ih' r hr =>
    rcases List.mem_cons.mp hr with rfl | hr
    · exact ⟨ih.1, ih.2.mono rest.longer⟩
    · exact ih' r hr

theorem verdict_of_unstarted {v : Verdict} {message : Option String} {t : WorkTree} {x : Result}
    (hx : x ∈ (t.unstarted v message).preorder) : x.verdict = v := by
  rw [WorkTree.unstarted, Tree.preorder_map] at hx
  obtain ⟨item, -, rfl⟩ := List.mem_map.mp hx
  rfl

theorem isCancelled_setUpVerdict (failure : Failure) :
    (setUpVerdict failure).isCancelled = false :=
  failure.isCancelled_verdict

theorem isCancelled_ofBody {n : Node} {ending : Ending}
    (h : (Result.ofBody n ending.guarded).verdict.isCancelled = true) :
    ∃ outcome, ending = .finished outcome ∧ outcome.verdict.isCancelled = true := by
  cases ending with
  | finished outcome => exact ⟨outcome, rfl, h⟩
  | failed failure => exact absurd (failure.isCancelled_verdict.symm.trans h) (by decide)
  | crashed text => cases h

theorem Closes.exists_isCancelled {suite : OpenSuite} {rs : List ResultTree}
    (closed : d.Closes suite rs s r s')
    (h : ∃ x ∈ r.preorder, x.verdict.isCancelled = true) :
    ∃ c ∈ rs, ∃ x ∈ c.preorder, x.verdict.isCancelled = true := by
  obtain ⟨x, hx, cancelled⟩ := h
  cases closed with
  | tornDown called ended =>
    rw [Tree.preorder_node, List.mem_cons, ← List.flatMap_def, List.mem_flatMap] at hx
    rcases hx with rfl | ⟨c, hc, hx⟩
    · obtain ⟨c, hc, cancelled⟩ := Result.isCancelled_of_suite cancelled
      refine ⟨c, hc, c.value, ?_, cancelled⟩
      obtain ⟨r, rs⟩ := c
      exact List.mem_cons_self
    · exact ⟨c, hc, x, hx, cancelled⟩

/-- Unless test cases report it themselves, nothing is cancelled before the run is stopped. -/
theorem Runs.stopped_of_isCancelled (h : d.Runs t c s r s')
    (honest : d.invoker.NeverCancels s'.events)
    (some : ∃ x ∈ r.preorder, x.verdict.isCancelled = true) : s'.stopped = true := by
  induction h using Runs.rec (motive_2 := fun _ _ _ rs s' _ =>
    d.invoker.NeverCancels s'.events →
    (∃ r ∈ rs, ∃ x ∈ r.preorder, x.verdict.isCancelled = true) → s'.stopped = true) with
  | cancelled stopped => exact stopped
  | overtaken _ _ _ stopped => exact stopped
  | skipped _ skip =>
    obtain ⟨x, hx, cancelled⟩ := some
    rw [verdict_of_unstarted hx, (WorkItem.skip?_verdict skip).1] at cancelled
    cases cancelled
  | leaf _ _ _ _ _ called ended result =>
    obtain ⟨x, hx, cancelled⟩ := some
    obtain rfl : x = _ := List.mem_singleton.mp hx
    rw [result, ending_of_call called] at cancelled
    obtain ⟨outcome, ending, cancelled⟩ := isCancelled_ofBody cancelled
    rw [Session.events_record, Session.events_stopIf, Session.events_of_readClock ended,
      Session.events_of_call called] at honest
    rw [honest _ _ outcome (List.prefix_append _ _) rfl ending] at cancelled
    cases cancelled
  | setUpFailed _ _ _ _ _ closed =>
    obtain ⟨r, hr, x, hx, cancelled⟩ := closed.exists_isCancelled some
    obtain ⟨t, -, rfl⟩ := List.mem_map.mp hr
    rw [verdict_of_unstarted hx, isCancelled_setUpVerdict] at cancelled
    cases cancelled
  | suite _ _ _ _ _ _ closed ih =>
    exact closed.stays_stopped (ih (honest.shorter closed.longer) (closed.exists_isCancelled some))
  | nil _ some =>
    obtain ⟨r, hr, -⟩ := some
    cases hr
  | @cons _ _ _ _ _ _ _ _ _ rest ih ih' honest some =>
    obtain ⟨r, hr, some⟩ := some
    rcases List.mem_cons.mp hr with rfl | hr
    · exact rest.stays_stopped (ih (honest.shorter rest.longer) some)
    · exact ih' honest ⟨r, hr, some⟩

section

variable {before after : List Event}

/-- What a stopped run still logs: nothing is started, so that suites which are torn down were
started while the run was going on. -/
theorem StoppedBy.events (stopped : d.StoppedBy o before)
    (orderly : Event.Each (d.Orderly o) (before ++ after)) {e : Event} (he : e ∈ after) :
    e.isFinished = true ∨
      ∃ call, e = .called call ∧ call.hook = .tearDown ∧ .started call.node ∈ before := by
  have still (between : List Event) : d.StoppedBy o (before ++ between) :=
    stopped.mono (List.prefix_append _ _)
  obtain ⟨between, later, order⟩ := orderly.exists_between he
  cases e with
  | started n => exact absurd (still between) order
  | finished r => exact .inl rfl
  | called call =>
    obtain ⟨-, hook, started⟩ := order
    have tearDown : call.hook = .tearDown :=
      Classical.byContradiction fun other => hook other (still between)
    refine .inr ⟨call, rfl, tearDown, ?_⟩
    rcases List.mem_append.mp (started tearDown) with earlier | h
    · exact earlier
    · obtain ⟨between, -, order⟩ := orderly.exists_between (later _ h)
      exact absurd (still between) order

theorem StoppedBy.windsDown (stopped : d.StoppedBy o before)
    (orderly : Event.Each (d.Orderly o) (before ++ after)) (unblamed : r.Unblamed)
    (fair : r.BlamesFairly d.invoker (before ++ after)) :
    r.WindsDown d.invoker before after := by
  refine ⟨fun e he => stopped.events orderly he, fun l hl later untimed ok => ?_⟩
  have site : l.value.verdict.site ≠ .parent := fair.descends unblamed hl ok untimed
  obtain ⟨between, -, order⟩ := orderly.exists_between later
  rcases order untimed with cancelled | parent | going
  · exact cancelled
  · exact absurd parent site
  · exact absurd (stopped.mono (List.prefix_append _ _)) going

end

end Dispatcher

namespace RunOptions

/-- Stopping a run is final. The log tells at every time whether the run has been stopped, from then
on the run winds down to a complete report, and unless test cases report it themselves nothing is
cancelled in a run that is not stopped. -/
theorem run_stops_for_good (o : RunOptions) (invoker : Invoker) (clock : Clock) {tree : TestTree}
    (bare : tree.LeavesAreBare) (f : Filter) :
    ∃ report log, o.run invoker clock tree f = .ok report ∧
      (o.execute invoker clock tree f).session.events = log ∧
      report.result.map Result.id =
        (WorkTree.create f (Location.root tree)).map (fun item => item.node.id) ∧
      Bracketed (WorkTree.create f (Location.root tree)) report.result log ∧
      (∀ l ∈ report.result.locations, .finished l.tree ∈ log) ∧
      log.filterMap Event.started? = (report.result.preorder.filter (·.isTimed)).map (·.id) ∧
      (∀ before call, before ++ [.called call] <+: log →
        (call.stopped = true ↔ (o.dispatcher invoker clock).1.StoppedBy o before)) ∧
      (report.cancelled = true ↔ (o.dispatcher invoker clock).1.StoppedBy o log) ∧
      (∀ before after, log = before ++ after →
        (o.dispatcher invoker clock).1.StoppedBy o before →
        report.result.WindsDown invoker before after) ∧
      (invoker.NeverCancels log → ∀ x ∈ report.result.preorder, x.verdict.isCancelled = true →
        report.cancelled = true) := by
  obtain ⟨r, s, gives, runs⟩ := o.execute_runs invoker clock f tree
  have bare := WorkTree.bare_create f bare
  have minds := runs.minds (o.stopOnError_context _ _) (o.minds_dispatcher invoker clock)
  obtain ⟨log, hlog, bracketed⟩ := runs.bracketed bare
  rw [events_dispatcher, List.nil_append] at hlog
  obtain ⟨unblamed, fair⟩ := runs.unblamed
  refine ⟨_, log, reportOf_of_gives f gives, by rw [gives.session, hlog], runs.ids bare,
    bracketed, ?_, bracketed.filterMap_started, ?_, ?_, ?_, ?_⟩
  · intro l hl
    have reported := ResultTree.finished_mem_finishes hl
    rw [Report.ofResult, ← bracketed.filter_isFinished] at reported
    exact (List.mem_filter.mp reported).1
  · intro before call called
    have order := minds.orderly before (.called call) (hlog ▸ called)
    exact order.1
  · exact hlog ▸ minds.flag
  · rintro before after rfl stopped
    have := stopped.windsDown (hlog ▸ minds.orderly) unblamed (hlog ▸ fair)
    rwa [o.invoker_dispatcher] at this
  · intro honest x hx cancelled
    refine runs.stopped_of_isCancelled ?_ ⟨x, hx, cancelled⟩
    rw [o.invoker_dispatcher, hlog]
    exact honest

end RunOptions

end TestScheduler

namespace TestScheduler.RunOptions

theorem run_stops_for_good_sample :
    let o : RunOptions := { stopOnError := true }
    let d := (o.dispatcher failingInvoker (Clock.from 0)).1
    TestTree.sample.LeavesAreBare ∧
      (o.execute failingInvoker (Clock.from 0) .sample .empty).session.stopped = true ∧
      ∃ report log, o.run failingInvoker (Clock.from 0) .sample .empty = .ok report ∧
        (o.execute failingInvoker (Clock.from 0) .sample .empty).session.events = log ∧
        report.result.map Result.id =
          (WorkTree.create .empty (Location.root TestTree.sample)).map (fun item => item.node.id) ∧
        Bracketed (WorkTree.create .empty (Location.root TestTree.sample)) report.result log ∧
        (∀ l ∈ report.result.locations, .finished l.tree ∈ log) ∧
        log.filterMap Event.started? =
          (report.result.preorder.filter (·.isTimed)).map (·.id) ∧
        (∀ before call, before ++ [.called call] <+: log →
          (call.stopped = true ↔ d.StoppedBy o before)) ∧
        (report.cancelled = true ↔ d.StoppedBy o log) ∧
        (∀ before after, log = before ++ after → d.StoppedBy o before →
          report.result.WindsDown failingInvoker before after) ∧
        (failingInvoker.NeverCancels log → ∀ x ∈ report.result.preorder,
          x.verdict.isCancelled = true → report.cancelled = true) :=
  ⟨by decide, by decide +kernel, run_stops_for_good _ _ _ (by decide) _⟩

end TestScheduler.RunOptions

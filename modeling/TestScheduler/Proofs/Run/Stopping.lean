import TestScheduler.Proofs.Run.History

/-! # Stopping

A run can be stopped from outside, by a hook, by a failure or by its deadline, and its log tells
when that has happened. From then on nothing is started: the suites that are open are torn down, and
whatever has not been started is cancelled, unless the setup of a suite above it failed.
-/

namespace TestScheduler

variable {Expression : Type} [Pattern.Dialect Expression]

namespace Dispatcher

variable (d : Dispatcher) (o : RunOptions)

/-- The events with which a run is stopped, given the log before them. -/
inductive Stops (before : List Event) : Event → Prop where
  | hook {call : Call} (stops : (d.invoker before call).stops = true) :
      Stops before (.called call)
  | failure {r : ResultTree} (policy : o.stopOnError = true) (timed : r.value.isTimed = true)
      (failed : r.value.verdict.status = .failed) (genuine : r.value.verdict.isCancelled = false) :
      Stops before (.finished r)
  /-- An item that was about to start is cancelled because the deadline has passed. -/
  | deadline {r : ResultTree} {limit readings elapsedMs : Nat} (limited : d.deadline = some limit)
      (passed : limit ≤ d.clock readings elapsedMs) (untimed : r.value.isTimed = false)
      (cancelled : r.value.verdict = .cancelled) : Stops before (.finished r)

/-- Whether a run has been stopped by the time of a log. -/
def StoppedBy (log : List Event) : Prop :=
  o.stopped = true ∨ ∃ before e, before ++ [e] <+: log ∧ d.Stops o before e

/-- What holds of an event in a run, given the log before it. Hooks are told whether the run is
stopped. When it is, nothing is started, and what is not started ends as cancelled unless a setup
above it failed. -/
def Orderly (before : List Event) : Event → Prop
  | .started _ => ¬ d.StoppedBy o before
  | .called call =>
    (call.stopped = true ↔ d.StoppedBy o before) ∧
      (call.hook ≠ .tearDown → ¬ d.StoppedBy o before) ∧
      (call.hook = .tearDown → .started call.node ∈ before)
  | .finished r =>
    r.value.isTimed = false → r.value.verdict = .cancelled ∨ r.value.verdict.site = .parent ∨
      ¬ d.StoppedBy o before

/-- A session whose stop flag agrees with its log. -/
structure Minds (s : Session) : Prop where
  flag : s.stopped = true ↔ d.StoppedBy o s.events
  orderly : Event.Each (d.Orderly o) s.events

variable {d o} {before log log' : List Event} {e : Event}

theorem StoppedBy.mono (h : d.StoppedBy o log) (longer : log <+: log') : d.StoppedBy o log' := by
  rcases h with outside | ⟨before, e, logged, stops⟩
  · exact .inl outside
  · exact .inr ⟨before, e, logged.trans longer, stops⟩

theorem stoppedBy_nil_iff : d.StoppedBy o [] ↔ o.stopped = true := by
  simp [StoppedBy]

theorem stoppedBy_concat_iff :
    d.StoppedBy o (log ++ [e]) ↔ d.StoppedBy o log ∨ d.Stops o log e := by
  simp only [StoppedBy, Event.concat_prefix_concat_iff]
  constructor
  · rintro (outside | ⟨before, e', logged | ⟨rfl, rfl⟩, stops⟩)
    · exact .inl (.inl outside)
    · exact .inl (.inr ⟨before, e', logged, stops⟩)
    · exact .inr stops
  · rintro ((outside | ⟨before, e', logged, stops⟩) | stops)
    · exact .inl outside
    · exact .inr ⟨before, e', .inl logged, stops⟩
    · exact .inr ⟨log, e, .inr ⟨rfl, rfl⟩, stops⟩

theorem stoppedBy_of_mem (h : e ∈ log) (stops : ∀ before, d.Stops o before e) :
    d.StoppedBy o log := by
  obtain ⟨before, logged⟩ := Event.exists_before_of_mem h
  exact .inr ⟨before, e, logged, stops before⟩

theorem not_stops_started (n : Node) : ¬ d.Stops o before (.started n) := nofun

theorem stops_called_iff {call : Call} :
    d.Stops o before (.called call) ↔ (d.invoker before call).stops = true :=
  ⟨fun h => by cases h with | hook stops => exact stops, .hook⟩

theorem stops_finished_iff {r : ResultTree} {c : Context} (timed : r.value.isTimed = true)
    (policy : c.stopOnError = o.stopOnError) :
    d.Stops o before (.finished r) ↔ endsRun c r.value = true := by
  simp only [endsRun, policy, Bool.and_eq_true, decide_eq_true_eq, Bool.not_eq_true', and_assoc]
  constructor
  · intro h
    cases h with
    | failure policy _ failed genuine => exact ⟨policy, failed, genuine⟩
    | deadline _ _ untimed _ => simp [timed] at untimed
  · rintro ⟨policy, failed, genuine⟩
    exact .failure policy timed failed genuine

theorem not_stops_unstarted {r : ResultTree} (untimed : r.value.isTimed = false)
    (other : r.value.verdict ≠ .cancelled) : ¬ d.Stops o before (.finished r) := by
  intro h
  cases h with
  | failure _ timed _ _ => simp [untimed] at timed
  | deadline _ _ _ cancelled => exact other cancelled

end Dispatcher

/-- Whether an event reports an item that was not started. -/
def Event.Unstarted (v : Verdict) (e : Event) : Prop :=
  ∃ r : ResultTree, e = .finished r ∧ r.value.isTimed = false ∧ r.value.verdict = v

theorem WorkTree.unstarted_finishes (v : Verdict) (message : Option String) (t : WorkTree) :
    ∀ e ∈ (t.unstarted v message).finishes, e.Unstarted v := by
  induction t using Tree.induction with
  | node item below ih =>
    intro e he
    rw [unstarted_node, ResultTree.finishes, ResultTree.finishesEach_eq_flatMap,
      List.mem_append, List.mem_flatMap, List.mem_singleton] at he
    rcases he with ⟨r, hr, he⟩ | rfl
    · obtain ⟨t, ht, rfl⟩ := List.mem_map.mp hr
      exact ih t ht e he
    · exact ⟨_, rfl, rfl, rfl⟩

theorem WorkTree.unstarted_finishesEach (v : Verdict) (message : Option String)
    (ts : List WorkTree) :
    ∀ e ∈ ResultTree.finishesEach (ts.map (unstarted v message)), e.Unstarted v := by
  intro e he
  rw [ResultTree.finishesEach_eq_flatMap, List.flatMap_map] at he
  obtain ⟨t, -, he⟩ := List.mem_flatMap.mp he
  exact t.unstarted_finishes v message e he

/-- Items are not skipped because the run is stopped, nor because of what is above them, and only
those that cannot be run fail. -/
theorem WorkItem.skip?_verdict {item : WorkItem} {v : Verdict} {reason : Option String}
    (skip : item.skip? = some (v, reason)) :
    v.isCancelled = false ∧ v.site = .test ∧ (v.status = .failed → v = .notRunnable) := by
  unfold skip? at skip
  split at skip
  · cases skip
  · split at skip
    · cases skip
    · cases skip
      decide
  all_goals
    cases skip
    decide

theorem ResultTree.finishes_ne_nil (r : ResultTree) : r.finishes ≠ [] := by
  obtain ⟨r, rs⟩ := r
  simp [finishes]

namespace Session

theorem stopOnError_of_call {s s' : Session} {invoker : Invoker} {hook : Hook} {n : Node}
    {c c' : Context} {ending : Except Failure Outcome}
    (h : s.call invoker hook n c = (ending, c', s')) : c'.stopOnError = c.stopOnError := by
  cases h
  rfl

end Session

namespace Dispatcher

variable {d : Dispatcher} {o : RunOptions} {t : WorkTree} {c : Context} {s s' : Session}
  {r : ResultTree} {rs : List ResultTree}

theorem stopOnError_of_opened {item : WorkItem} {suite : OpenSuite}
    (opened : d.openSuite item c s = (suite, s')) : suite.context.stopOnError = c.stopOnError := by
  cases opened
  simp only
  split <;> rfl

theorem stopped_observeDeadline_iff :
    (d.observeDeadline s).stopped = true ↔
      s.stopped = true ∨ ∃ limit, d.deadline = some limit ∧
        limit ≤ d.clock s.readings s.elapsedMs := by
  cases h : d.deadline with
  | none => simp [observeDeadline, h]
  | some limit =>
    simp only [observeDeadline, h, Session.stopped_stopIf, Bool.or_eq_true, decide_eq_true_eq]
    simp [Session.readClock]

namespace Minds

/-- A session goes on minding its log if an event that may happen is added and the flag is raised
just when the event stops the run. -/
theorem concat {e : Event} (m : d.Minds o s) (events : s'.events = s.events ++ [e])
    (flag : s'.stopped = true ↔ s.stopped = true ∨ d.Stops o s.events e)
    (orderly : d.Orderly o s.events e) : d.Minds o s' := by
  refine ⟨?_, ?_⟩
  · rw [flag, events, stoppedBy_concat_iff, m.flag]
  · rw [events, Event.each_concat_iff]
    exact ⟨m.orderly, orderly⟩

theorem keeps (m : d.Minds o s) (events : s'.events = s.events) (stopped : s'.stopped = s.stopped) :
    d.Minds o s' := by
  refine ⟨?_, ?_⟩
  · rw [stopped, events, m.flag]
  · rw [events]
    exact m.orderly

theorem readClock {clock : Clock} {ms : Nat} (m : d.Minds o s)
    (h : s.readClock clock = (ms, s')) : d.Minds o s' :=
  m.keeps (Session.events_of_readClock h) (Session.stopped_of_readClock h)

theorem observeDeadline (m : d.Minds o s) (going : (d.observeDeadline s).stopped = false) :
    d.Minds o (d.observeDeadline s) :=
  m.keeps (Session.events_observeDeadline d s) (going.trans (going_of_observeDeadline going).symm)

theorem start (m : d.Minds o s) (going : s.stopped = false) (n : Node) :
    d.Minds o (s.record (.started n)) := by
  refine m.concat rfl ?_ ?_
  · simp [not_stops_started]
  · rw [Orderly, ← m.flag]
    simp [going]

theorem call {hook : Hook} {n : Node} {c' : Context} {ending : Except Failure Outcome}
    (m : d.Minds o s) (called : s.call d.invoker hook n c = (ending, c', s'))
    (going : hook ≠ .tearDown → s.stopped = false)
    (started : hook = .tearDown → .started n ∈ s.events) : d.Minds o s' := by
  refine m.concat (Session.events_of_call called) ?_ ⟨m.flag, ?_, started⟩
  · rw [Session.stopped_of_call called, stops_called_iff, Bool.or_eq_true]
  · intro other
    rw [← m.flag]
    simp [going other]

theorem finish (m : d.Minds o s) (timed : r.value.isTimed = true)
    (policy : c.stopOnError = o.stopOnError) :
    d.Minds o ((s.stopIf (endsRun c r.value)).record (.finished r)) := by
  refine m.concat rfl ?_ ?_
  · rw [stops_finished_iff timed policy, Session.stopped_record, Session.stopped_stopIf,
      Bool.or_eq_true]
  · intro untimed
    simp [timed] at untimed

/-- Items that are not started, but not for the reason that the run is stopped. -/
theorem skip {es : List Event} {v : Verdict} (m : d.Minds o s) (unstarted : ∀ e ∈ es, e.Unstarted v)
    (other : v ≠ .cancelled) (allowed : v.site = .parent ∨ s.stopped = false) :
    d.Minds o (s.recordAll es) := by
  induction es using List.reverseRecOn with
  | nil => rwa [Session.recordAll_nil]
  | append_singleton es e ih =>
    have m := ih fun e he => unstarted e (List.mem_append_left _ he)
    obtain ⟨r, rfl, untimed, rfl⟩ := unstarted e List.mem_concat_self
    refine m.concat (e := .finished r) (by simp) ?_ fun _ => ?_
    · simp [not_stops_unstarted untimed other]
    · rw [← m.flag, Session.stopped_recordAll]
      rcases allowed with parent | going
      · exact .inr (.inl parent)
      · exact .inr (.inr (by simp [going]))

/-- Items that are cancelled because the run is stopped. If it was not stopped before, the log tells
by the first of them that the deadline has passed. -/
theorem cancel {es : List Event} (m : d.Minds o s) (stopped : (d.observeDeadline s).stopped = true)
    (unstarted : ∀ e ∈ es, e.Unstarted .cancelled) (some : es ≠ []) :
    d.Minds o ((d.observeDeadline s).recordAll es) := by
  refine ⟨iff_of_true stopped ?_, ?_⟩
  · rw [Session.events_recordAll, Session.events_observeDeadline]
    rcases stopped_observeDeadline_iff.mp stopped with earlier | ⟨limit, limited, passed⟩
    · exact (m.flag.mp earlier).mono (List.prefix_append _ _)
    · obtain ⟨e, he⟩ := List.exists_mem_of_ne_nil es some
      obtain ⟨r, rfl, untimed, cancelled⟩ := unstarted e he
      exact stoppedBy_of_mem (List.mem_append_right _ he) fun _ =>
        .deadline limited passed untimed cancelled
  · rw [Session.events_recordAll, Session.events_observeDeadline]
    refine m.orderly.append fun e he before => ?_
    obtain ⟨r, rfl, -, cancelled⟩ := unstarted e he
    exact fun _ => .inl cancelled

theorem opens {item : WorkItem} {suite : OpenSuite} (m : d.Minds o s) (going : s.stopped = false)
    (opened : d.openSuite item c s = (suite, s')) :
    d.Minds o s' ∧ .started suite.item.node ∈ s'.events := by
  constructor
  · have started := m.start going item.node
    have timed : d.Minds o ((s.record (.started item.node)).readClock d.clock).2 :=
      started.keeps rfl rfl
    cases opened
    exact timed.call rfl (fun _ => going) nofun
  · rw [events_of_opened opened]
    cases opened
    simp

theorem close {suite : OpenSuite} (m : d.Minds o s) (closed : d.Closes suite rs s r s')
    (started : .started suite.item.node ∈ s.events)
    (policy : suite.context.stopOnError = o.stopOnError) : d.Minds o s' := by
  cases closed with
  | tornDown called ended =>
    have tornDown := m.call called (fun other => absurd rfl other) fun _ => started
    refine (tornDown.readClock ended).finish (r := .node _ rs) rfl ?_
    rw [Session.stopOnError_of_call called, policy]

end Minds

theorem setUpVerdict_ne_cancelled (failure : Failure) : setUpVerdict failure ≠ .cancelled := by
  intro h
  cases congrArg Verdict.site h

/-- A run keeps its stop flag and its log in agreement. -/
theorem Runs.minds (h : d.Runs t c s r s') (policy : c.stopOnError = o.stopOnError)
    (m : d.Minds o s) : d.Minds o s' := by
  induction h using Runs.rec (motive_2 := fun _ c s _ s' _ => c.stopOnError = o.stopOnError →
    d.Minds o s → d.Minds o s') with
  | cancelled stopped =>
    exact m.cancel stopped (WorkTree.unstarted_finishes _ _ _) (ResultTree.finishes_ne_nil _)
  | skipped going skip =>
    obtain ⟨other, -⟩ := WorkItem.skip?_verdict skip
    refine (m.observeDeadline going).skip (WorkTree.unstarted_finishes _ _ _) ?_ (.inr going)
    rintro rfl
    cases other
  | overtaken going _ _ stopped =>
    exact (m.observeDeadline going).cancel stopped (WorkTree.unstarted_finishes _ _ _)
      (ResultTree.finishes_ne_nil _)
  | @leaf item _ _ _ _ _ _ _ _ _ _ r going _ _ still started called ended result =>
    have opened := ((m.observeDeadline going).observeDeadline still).start still item.node
    have body := (opened.readClock started).call called
      (fun _ => (Session.stopped_of_readClock started).trans still) nofun
    exact (body.readClock ended).finish (r := .node r []) (by rw [result]; rfl) policy
  | setUpFailed going _ _ opened _ closed =>
    obtain ⟨m, started⟩ := (m.observeDeadline going).opens going opened
    refine (m.skip (WorkTree.unstarted_finishesEach _ _ _) (setUpVerdict_ne_cancelled _)
      (.inl rfl)).close closed ?_ ((stopOnError_of_opened opened).trans policy)
    exact List.mem_append_left _ started
  | suite going _ _ opened _ children closed ih =>
    obtain ⟨m, started⟩ := (m.observeDeadline going).opens going opened
    have policy := (stopOnError_of_opened opened).trans policy
    exact (ih policy m).close closed (children.longer.subset started) policy
  | nil _ m => exact m
  | cons _ _ ih ih' policy m => exact ih' policy (ih policy m)

end Dispatcher

namespace RunOptions

theorem stopped_dispatcher (o : RunOptions) (invoker : Invoker) (clock : Clock) :
    (o.dispatcher invoker clock).2.stopped = o.stopped := by
  cases h : o.timeoutMs with
  | none => simp only [dispatcher, h]
  | some limit =>
    simp only [dispatcher, h]
    rfl

theorem stopOnError_context (o : RunOptions) (root n : Node) :
    ((o.context root).forChild n).stopOnError = o.stopOnError := by
  cases h : o.culture <;> simp only [context, h] <;> rfl

theorem minds_dispatcher (o : RunOptions) (invoker : Invoker) (clock : Clock) :
    (o.dispatcher invoker clock).1.Minds o (o.dispatcher invoker clock).2 := by
  refine ⟨?_, ?_⟩
  · rw [o.stopped_dispatcher, o.events_dispatcher, Dispatcher.stoppedBy_nil_iff]
  · rw [o.events_dispatcher]
    exact Event.each_nil

end RunOptions

end TestScheduler

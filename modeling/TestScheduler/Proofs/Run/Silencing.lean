import Mathlib.Data.List.Nodup
import TestScheduler.Pattern.Common
import TestScheduler.Proofs.Run.History
import TestScheduler.Proofs.Run.Isolation
import TestScheduler.Proofs.Run.TearingDown
import TestScheduler.Proofs.Suite.Identity
import TestScheduler.Proofs.Tree.Subtree

/-! # Setups that fail

A suite whose setup fails is torn down at once. All below it get a verdict that tells of the failure
and nothing else: they are reported, but they are neither started nor called, then or at any other
time of the run.
-/

namespace TestScheduler

variable {Expression : Type} [Pattern.Dialect Expression]

namespace Event

/-- The node that an event starts or calls a hook of. -/
def actor? : Event → Option Node
  | started n => some n
  | called call => some call.node
  | finished _ => none

/-- Whether nothing but some items is started or called in some events. -/
def Concern (items : List WorkItem) (es : List Event) : Prop :=
  ∀ e ∈ es, ∀ n ∈ e.actor?, ∃ item ∈ items, item.node = n

variable {items more : List WorkItem} {es es' : List Event} {e : Event} {n : Node} {hook : Hook}

theorem actor?_of_hooked? (h : e.hooked? hook = some n) : e.actor? = some n := by
  cases e with
  | started | finished => cases h
  | called call =>
    rw [hooked?, Option.ite_none_right_eq_some] at h
    exact h.2

theorem concern_append_iff : Concern items (es ++ es') ↔ Concern items es ∧ Concern items es' :=
  List.forall_mem_append

theorem Concern.mono (h : Concern items es) (subset : items ⊆ more) : Concern more es := by
  intro e he n hn
  obtain ⟨item, hitem, node⟩ := h e he n hn
  exact ⟨item, subset hitem, node⟩

theorem concern_of_isFinished (h : ∀ e ∈ es, e.isFinished = true) : Concern items es := by
  intro e he n hn
  cases e with
  | finished => cases hn
  | started | called => cases h _ he

theorem concern_trans {first second third : List Event}
    (h : ∃ es, second = first ++ es ∧ Concern items es)
    (h' : ∃ es, third = second ++ es ∧ Concern more es) :
    ∃ es, third = first ++ es ∧ Concern (items ++ more) es := by
  obtain ⟨es, rfl, own⟩ := h
  obtain ⟨es', rfl, rest⟩ := h'
  refine ⟨es ++ es', List.append_assoc _ _ _, concern_append_iff.mpr ⟨?_, ?_⟩⟩
  · exact own.mono (List.subset_append_left _ _)
  · exact rest.mono (List.subset_append_right _ _)

theorem concern_of_item (item : WorkItem) (hitem : item ∈ items)
    (h : ∀ e ∈ es, ∀ n ∈ e.actor?, n = item.node) : Concern items es :=
  fun e he n hn => ⟨item, hitem, (h e he n hn).symm⟩

end Event

/-- What the result of a suite shows of the failure of its setup, given how its teardown ended. A
teardown that fails adds its text if the setup has failed the suite, and else takes the place of the
setup. -/
def Result.ShowsSetUp (failure : Failure) (tearDown : Except Failure Outcome) (r : Result) :
    Prop :=
  match tearDown with
  | .ok _ =>
    r.verdict = failure.verdict.atSite .setUp ∧ r.message = some failure.message ∧
      r.stackTrace = failure.stackTrace
  | .error late =>
    let note := "OneTimeTearDown: " ++ late.message
    r.stackTrace = failure.stackTrace.or late.stackTrace ∧
      if failure.verdict.status = .failed then
        r.verdict = failure.verdict.atSite .setUp ∧
          r.message = some (failure.message ++ "\n" ++ note)
      else
        r.verdict = (if late.verdict.status = .failed then late.verdict else .error).atSite
          .tearDown ∧ r.message = some note

/-- How a suite came to its end whose setup failed: all below it was reported at once, with a
verdict that tells of the failure, and its own result shows the failure too. -/
structure SuiteRun.Silenced (ran : SuiteRun) (invoker : Invoker) (failure : Failure)
    (t : WorkTree) (r : ResultTree) : Prop where
  node : ran.setUp.node = t.value.node
  heading : r.map Result.heading = t.map fun item => Result.ofNode item.node
  between : ran.between = ResultTree.finishesEach r.children
  below : ∀ x ∈ r.children.flatMap Tree.preorder,
    x.verdict = failure.verdict.atSite .parent ∧
      x.message = some ("OneTimeSetUp: " ++ failure.message) ∧ x.assertCount = 0 ∧
      x.startTime = none ∧ x.endTime = none ∧ x.durationMs = 0
  own : r.value.ShowsSetUp failure (ran.tearDownEnding invoker)

namespace Dispatcher

/-- How a setup that fails shows in a part of a run that concerns some items: what comes before and
after the suite concerns other items than those of the suite. -/
structure Silences (d : Dispatcher) (failure : Failure) (before : List Event) (call : Call)
    (items : List WorkItem) (s s' : Session) (ran : SuiteRun) (t : WorkTree) (r : ResultTree) :
    Prop where
  setUp : ran.setUp = call
  logAtSetUp : ran.logAtSetUp = before
  told : ran.ToldBy s'.events r
  silenced : ran.Silenced d.invoker failure t r
  apart : ∃ pre post es es', items = pre ++ t.preorder ++ post ∧ ran.before = s.events ++ es ∧
    s'.events = ran.logAfter r ++ es' ∧ Event.Concern (pre ++ post) (es ++ es')

variable {d : Dispatcher} {t u : WorkTree} {ts : List WorkTree} {c : Context}
  {s s₀ s₁ s' : Session} {r x : ResultTree} {rs : List ResultTree} {item : WorkItem}
  {items : List WorkItem} {suite : OpenSuite} {ran : SuiteRun} {failure : Failure}
  {before es es' : List Event} {call : Call}

theorem OpenSuite.showsSetUp_close (setUp : suite.setUp = .error failure) (rs : List ResultTree)
    (tearDown : Except Failure Outcome) (endMs : Nat) :
    (suite.close rs tearDown endMs).ShowsSetUp failure tearDown := by
  rw [close, setUp]
  cases tearDown with
  | ok => exact ⟨rfl, rfl, rfl⟩
  | error late =>
    have site : (failure.verdict.atSite .setUp).status = failure.verdict.status := rfl
    by_cases failed : failure.verdict.status = .failed
    · simp [Result.ShowsSetUp, Result.ofSuite, Result.withTearDown, Result.withTearDownFailure,
        Result.withTimes, site, failed]
    · simp [Result.ShowsSetUp, Result.ofSuite, Result.withTearDown, Result.withTearDownFailure,
        Result.withTimes, site, failed]

/-! ## What a run concerns -/

theorem concern_of_closed {s₂ : Session}
    (opened : d.openSuite (item.moved .running) c (d.observeDeadline s) = (suite, s₁))
    (between : s₂.events = s₁.events ++ es) (below : Event.Concern items es)
    (closed : d.Closes suite rs s₂ r s') :
    ∃ es, s'.events = s.events ++ es ∧ Event.Concern (item :: items) es := by
  have own {es : List Event} (h : ∀ e ∈ es, ∀ n ∈ e.actor?, n = item.node) :
      Event.Concern (item :: items) es := Event.concern_of_item item List.mem_cons_self h
  refine ⟨[.started item.node, .called ⟨.setUp, item.node, c.withSettings item.node.settings,
      (d.observeDeadline s).stopped⟩] ++ es ++
    [.called ⟨.tearDown, item.node, suite.context, s₂.stopped⟩, .finished r], ?_, ?_⟩
  · rw [closed.events, between, events_of_opened opened, item_of_opened opened]
    simp
  · rw [Event.concern_append_iff, Event.concern_append_iff]
    refine ⟨⟨own ?_, below.mono (List.subset_cons_self _ _)⟩, own ?_⟩
    · simp [Event.actor?]
    · simp [Event.actor?]

/-- A run starts and calls nothing but its items. -/
theorem Runs.concern (h : d.Runs t c s r s') :
    ∃ es, s'.events = s.events ++ es ∧ Event.Concern t.preorder es := by
  have unstarted {items : List WorkItem} {s s₁ : Session} (h : s₁.events = s.events)
      (r : ResultTree) :
      ∃ es, (s₁.recordAll r.finishes).events = s.events ++ es ∧ Event.Concern items es :=
    ⟨r.finishes, by rw [Session.events_recordAll, h],
      Event.concern_of_isFinished fun _ => ResultTree.isFinished_of_mem_finishes⟩
  induction h using Runs.rec (motive_2 := fun ts _ s _ s' _ =>
    ∃ es, s'.events = s.events ++ es ∧ Event.Concern (ts.flatMap Tree.preorder) es) with
  | cancelled | skipped | overtaken => exact unstarted (by simp) _
  | @leaf item _ _ _ _ _ _ _ _ _ _ _ _ _ _ _ started called ended =>
    refine ⟨_, events_of_body started called ended _ _,
      Event.concern_of_item item (by simp) ?_⟩
    simp [Event.actor?]
  | setUpFailed _ _ _ opened _ closed =>
    rw [Tree.preorder_eq_cons]
    exact concern_of_closed opened (Session.events_recordAll _ _) (Event.concern_of_isFinished
      fun _ => ResultTree.isFinished_of_mem_finishesEach) closed
  | suite _ _ _ opened _ _ closed ih =>
    obtain ⟨es, between, below⟩ := ih
    rw [Tree.preorder_eq_cons]
    exact concern_of_closed opened between below closed
  | nil => exact ⟨[], by simp, List.forall_mem_nil _⟩
  | cons _ _ ih ih' => exact Event.concern_trans ih ih'

theorem RunsEach.concern (h : d.RunsEach ts c s rs s') :
    ∃ es, s'.events = s.events ++ es ∧ Event.Concern (ts.flatMap Tree.preorder) es := by
  induction rs generalizing ts s with
  | nil =>
    cases h
    exact ⟨[], (List.append_nil _).symm, List.forall_mem_nil _⟩
  | cons r rs ih =>
    cases h with
    | cons first rest => exact Event.concern_trans first.concern (ih rest)

/-! ## Where a setup fails -/

/-- A suite goes on being silent in a longer part of the run that concerns further items. -/
theorem Silences.widen (earlier later : List WorkItem)
    (h : d.Silences failure before call items s s' ran t r)
    (hs : s.events = s₀.events ++ es) (hs' : s₁.events = s'.events ++ es')
    (concern : Event.Concern (earlier ++ later) (es ++ es')) :
    d.Silences failure before call (earlier ++ items ++ later) s₀ s₁ ran t r := by
  obtain ⟨pre, post, es₁, es₂, rfl, begins, ends, concern'⟩ := h.apart
  refine ⟨h.setUp, h.logAtSetUp,
    { h.told with logged := h.told.logged.trans ⟨es', hs'.symm⟩ }, h.silenced,
    earlier ++ pre, post ++ later, es ++ es₁, es₂ ++ es', ?_, ?_, ?_, ?_⟩
  · simp
  · rw [begins, hs, List.append_assoc]
  · rw [hs', ends, List.append_assoc]
  · have all : Event.Concern (earlier ++ pre ++ (post ++ later)) (es ++ es' ++ (es₁ ++ es₂)) :=
      Event.concern_append_iff.mpr ⟨concern.mono (by grind), concern'.mono (by grind)⟩
    simp only [Event.concern_append_iff] at all ⊢
    exact ⟨⟨all.1.1, all.2.1⟩, all.2.2, all.1.2⟩

/-- A suite below another one goes on being silent until the other one is closed. -/
theorem Silences.enclose {s₂ : Session}
    (h : d.Silences failure before call items s₁ s₂ ran t r)
    (opened : d.openSuite (item.moved .running) c (d.observeDeadline s) = (suite, s₁))
    (closed : d.Closes suite rs s₂ x s') :
    d.Silences failure before call (item :: items) s s' ran t r := by
  have own : Event.Concern ([item] ++ []) ([.started item.node, .called ⟨.setUp, item.node,
      c.withSettings item.node.settings, (d.observeDeadline s).stopped⟩] ++
      [.called ⟨.tearDown, suite.item.node, suite.context, s₂.stopped⟩, .finished x]) :=
    Event.concern_of_item item (by simp) (by simp [Event.actor?, item_of_opened opened])
  have begins := events_of_opened opened
  rw [Session.events_observeDeadline] at begins
  simpa using h.widen [item] [] begins closed.events own

theorem setUp_of_logged (opened : d.openSuite item c s = (suite, s'))
    (logged : before ++ [.called call] <+: s'.events) :
    before ++ [.called call] <+: s.events ∨ before = s.events ++ [.started item.node] ∧
      call = ⟨.setUp, item.node, c.withSettings item.node.settings, s.stopped⟩ := by
  rw [events_of_opened opened, List.append_cons s.events, Event.concat_prefix_concat_iff] at logged
  rcases logged with earlier | ⟨rfl, same⟩
  · exact .inl (Event.prefix_of_prefix_append earlier (by simp))
  · exact .inr ⟨rfl, Event.called.inj same⟩

theorem Closes.exists_eq_node (closed : d.Closes suite rs s r s') : ∃ a, r = .node a rs := by
  cases closed with
  | tornDown => exact ⟨_, rfl⟩

theorem Closes.logged (closed : d.Closes suite rs s r s') (setUp : call.hook = .setUp)
    (logged : before ++ [.called call] <+: s'.events) : before ++ [.called call] <+: s.events := by
  rw [closed.events] at logged
  refine Event.prefix_of_prefix_append logged ?_
  rintro (_ | ⟨_, _ | ⟨_, ⟨⟩⟩⟩)
  cases setUp

/-- A suite whose setup fails is silenced. -/
theorem silences_of_opened {s₂ : Session} {below : List WorkTree}
    (opened : d.openSuite (item.moved .running) c (d.observeDeadline s) = (suite, s₁))
    (setUp : suite.setUp = .error failure)
    (closed : d.Closes suite
      (below.map (WorkTree.unstarted (setUpVerdict failure) (setUpMessage failure)))
      (s₁.recordAll (ResultTree.finishesEach
        (below.map (WorkTree.unstarted (setUpVerdict failure) (setUpMessage failure))))) r s₂) :
    ∃ ran, d.Silences failure ((d.observeDeadline s).events ++ [.started item.node])
      ⟨.setUp, item.node, c.withSettings item.node.settings, (d.observeDeadline s).stopped⟩
      (Tree.node item below).preorder s s₂ ran (.node item below) r := by
  obtain ⟨ran, endMs, began, called, between, logged, told, -, result⟩ :=
    closed.exists_ran opened (Session.events_recordAll _ _) (ResultTree.filter_finishesEach _)
  refine ⟨ran, {
    setUp := called
    logAtSetUp := by rw [SuiteRun.logAtSetUp, began, called]
    told := told
    silenced := {
      node := by rw [called, Tree.value_node]
      heading := closed.headings_unstarted opened
      between := by rw [between, result, Tree.children_node]
      below := fun x hx => ?_
      own := ?_ }
    apart := ⟨[], [], [], [], by simp, ?_, by rw [logged, List.append_nil],
      List.forall_mem_nil _⟩ }⟩
  · rw [result, Tree.children_node, List.flatMap_map] at hx
    obtain ⟨t, -, hx⟩ := List.mem_flatMap.mp hx
    rw [WorkTree.unstarted, Tree.preorder_map] at hx
    obtain ⟨item, -, rfl⟩ := List.mem_map.mp hx
    exact ⟨rfl, rfl, rfl, rfl, rfl, rfl⟩
  · rw [result, Tree.value_node]
    exact OpenSuite.showsSetUp_close setUp _ _ _
  · rw [began, Session.events_observeDeadline, List.append_nil]

/-- Wherever in a run a setup fails, the suite is silenced there. -/
theorem Runs.silences (h : d.Runs t c s r s') (logged : before ++ [.called call] <+: s'.events)
    (setUp : call.hook = .setUp) (failed : (d.invoker before call).ending.guarded = .error failure) :
    before ++ [.called call] <+: s.events ∨
      ∃ path u x ran, t.subtreeAt? path = some u ∧ r.subtreeAt? path = some x ∧
        d.Silences failure before call t.preorder s s' ran u x := by
  have unstarted {s₁ s : Session} {r : ResultTree} (same : s₁.events = s.events)
      (logged : before ++ [.called call] <+: (s₁.recordAll r.finishes).events) :
      before ++ [.called call] <+: s.events := by
    rw [Session.events_recordAll, same] at logged
    exact Event.prefix_of_prefix_append logged fun mem =>
      nomatch ResultTree.isFinished_of_mem_finishes mem
  induction h using Runs.rec (motive_2 := fun ts _ s rs s' _ =>
    before ++ [.called call] <+: s'.events → before ++ [.called call] <+: s.events ∨
      ∃ (i : Nat) (t : WorkTree) (r : ResultTree), ts[i]? = some t ∧ rs[i]? = some r ∧
        ∃ path u x ran, t.subtreeAt? path = some u ∧ r.subtreeAt? path = some x ∧
          d.Silences failure before call (ts.flatMap Tree.preorder) s s' ran u x) with
  | cancelled | skipped | overtaken => exact .inl (unstarted (by simp) logged)
  | leaf _ _ _ _ started called ended =>
    rw [events_of_body started called ended] at logged
    refine .inl (Event.prefix_of_prefix_append logged ?_)
    rintro (_ | ⟨_, _ | ⟨_, _ | ⟨_, ⟨⟩⟩⟩⟩)
    cases setUp
  | setUpFailed _ _ _ opened ended closed =>
    have logged := closed.logged setUp logged
    rw [Session.events_recordAll] at logged
    replace logged := Event.prefix_of_prefix_append logged fun mem =>
      nomatch ResultTree.isFinished_of_mem_finishesEach mem
    rcases setUp_of_logged opened logged with earlier | ⟨rfl, rfl⟩
    · exact .inl (by simpa using earlier)
    · obtain rfl : _ = failure :=
        Except.error.inj (ended.symm.trans ((setUp_of_opened opened).trans failed))
      obtain ⟨ran, silences⟩ := silences_of_opened opened ended closed
      exact .inr ⟨[], _, _, ran, Tree.subtreeAt?_nil _, Tree.subtreeAt?_nil _, silences⟩
  | suite _ _ _ opened ended _ closed ih =>
    rcases ih (closed.logged setUp logged) with
      logged | ⟨i, t, y, ht, hy, path, u, x, ran, hu, hx, silences⟩
    · rcases setUp_of_logged opened logged with earlier | ⟨rfl, rfl⟩
      · exact .inl (by simpa using earlier)
      · cases ended.symm.trans ((setUp_of_opened opened).trans failed)
    · obtain ⟨a, rfl⟩ := closed.exists_eq_node
      rw [Tree.preorder_eq_cons]
      exact .inr ⟨i :: path, u, x, ran, Tree.subtreeAt?_cons_eq_some_iff.mpr ⟨t, ht, hu⟩,
        Tree.subtreeAt?_cons_eq_some_iff.mpr ⟨y, hy, hx⟩, silences.enclose opened closed⟩
  | nil logged => exact .inl logged
  | @cons t ts _ _ _ _ _ _ first rest ih ih' logged =>
    rcases ih' logged with logged | ⟨i, u', x', ht, hr, path, u, x, ran, hu, hx, silences⟩
    · rcases ih logged with earlier | ⟨path, u, x, ran, hu, hx, silences⟩
      · exact .inl earlier
      · obtain ⟨es, hes, concern⟩ := rest.concern
        exact .inr ⟨0, _, _, rfl, rfl, path, u, x, ran, hu, hx,
          silences.widen [] _ (List.append_nil _).symm hes concern⟩
    · obtain ⟨es, hes, concern⟩ := first.concern
      refine .inr ⟨i + 1, u', x', ht, hr, path, u, x, ran, hu, hx, ?_⟩
      simpa using silences.widen _ [] hes (List.append_nil _).symm (by simpa using concern)

/-- In a whole run of items for different nodes, the nodes of a suite that is silenced are acted on
at no other time. -/
theorem Silences.outside (h : d.Silences failure before call items s s' ran t r)
    (start : s.events = []) (distinct : (items.map (·.node)).Nodup) :
    ∃ es es', s'.events = es ++ ([.started call.node, .called call] ++
        (ResultTree.finishesEach r.children ++ [.called ran.tearDown, .finished r])) ++ es' ∧
      ∀ e ∈ es ++ es', ∀ n ∈ e.actor?,
        (∃ item ∈ items, item.node = n) ∧ n ∉ t.preorder.map (·.node) := by
  obtain ⟨pre, post, es, es', rfl, begins, ends, concern⟩ := h.apart
  refine ⟨es, es', ?_, fun e he n hn => ?_⟩
  · rw [start, List.nil_append] at begins
    rw [ends, SuiteRun.logAfter, SuiteRun.logAtTearDown, SuiteRun.logAtSetUp, begins,
      h.silenced.between, h.setUp]
    simp
  · obtain ⟨item, hitem, rfl⟩ := concern e he n hn
    rw [List.map_append, List.map_append, List.nodup_append, List.nodup_append] at distinct
    obtain ⟨⟨-, -, apart⟩, -, apart'⟩ := distinct
    refine ⟨⟨item, ?_, rfl⟩, fun inside => ?_⟩
    · rcases List.mem_append.mp hitem with hitem | hitem <;> simp [hitem]
    · rcases List.mem_append.mp hitem with hitem | hitem
      · exact apart _ (List.mem_map_of_mem hitem) _ inside rfl
      · exact apart' _ (List.mem_append_right _ inside) _ (List.mem_map_of_mem hitem) rfl

theorem Silences.node_tearDown (h : d.Silences failure before call items s s' ran t r) :
    ran.tearDown.node = call.node :=
  h.told.node.trans (congrArg Call.node h.setUp)

theorem Silences.count_tearDown (h : d.Silences failure before call items s s' ran t r)
    (setUp : call.hook = .setUp) (start : s.events = [])
    (distinct : (items.map (·.node)).Nodup) :
    (Event.hooked .tearDown s'.events).count call.node = 1 := by
  obtain ⟨es, es', log, outside⟩ := h.outside start distinct
  have own : call.node ∈ t.preorder.map (·.node) := by
    rw [← h.setUp, h.silenced.node]
    exact List.mem_map.mpr ⟨_, t.value_mem_preorder, rfl⟩
  have none {es₁ : List Event} (subset : es₁ ⊆ es ++ es') :
      (Event.hooked .tearDown es₁).count call.node = 0 := by
    refine List.count_eq_zero.mpr fun mem => ?_
    obtain ⟨e, he, hooked⟩ := List.mem_filterMap.mp mem
    exact (outside e (subset he) _ (Event.actor?_of_hooked? hooked)).2 own
  have silent : Event.hooked .tearDown (ResultTree.finishesEach r.children) = [] :=
    Event.Idle.hooked_eq_nil fun e he => ResultTree.isFinished_of_mem_finishesEach he
  rw [log]
  simp [Event.hooked_called, setUp, h.told.tearDown, h.node_tearDown, silent,
    none (List.subset_append_left _ _), none (List.subset_append_right _ _)]

theorem Silences.eq_or_not_mem (h : d.Silences failure before call items s s' ran t r)
    (start : s.events = []) (distinct : (items.map (·.node)).Nodup) {e : Event}
    (he : e ∈ s'.events) {n : Node} (acts : n ∈ e.actor?) :
    n = call.node ∨ (∃ item ∈ items, item.node = n) ∧ n ∉ t.preorder.map (·.node) := by
  obtain ⟨es, es', log, outside⟩ := h.outside start distinct
  rw [log, List.mem_append, List.mem_append, List.mem_append, List.mem_append] at he
  rcases he with (he | he | he | he) | he
  · exact .inr (outside e (List.mem_append_left _ he) n acts)
  · rcases List.mem_pair.mp he with rfl | rfl <;> exact .inl (Option.some.inj acts).symm
  · have idle := ResultTree.isFinished_of_mem_finishesEach he
    cases e <;> cases idle
    cases acts
  · rcases List.mem_pair.mp he with rfl | rfl
    · exact .inl ((Option.some.inj acts).symm.trans h.node_tearDown)
    · cases acts
  · exact .inr (outside e (List.mem_append_right _ he) n acts)

end Dispatcher

namespace WorkTree

variable {f : Filter} {l : Location Node} {t : WorkTree} {tree : TestTree} {path : List Nat}

theorem exists_create_of_subtreeAt? (h : (create f l).subtreeAt? path = some t) :
    ∃ k ∈ l.preorder, t = create f k := by
  induction path generalizing l with
  | nil =>
    rw [Tree.subtreeAt?_nil] at h
    exact ⟨l, l.self_mem_preorder, (Option.some.inj h).symm⟩
  | cons i path ih =>
    rw [create_eq_node] at h
    obtain ⟨u, hu, h⟩ := Tree.subtreeAt?_cons_eq_some_iff.mp h
    obtain ⟨c, hc, rfl⟩ := List.mem_map.mp (List.mem_of_getElem? hu)
    obtain ⟨k, hk, rfl⟩ := ih h
    exact ⟨k, Location.mem_preorder_of_child (List.mem_filter.mp hc).1 hk, rfl⟩

theorem map_node_preorder (t : WorkTree) :
    t.preorder.map (·.node) = t.nodeLocations.map Location.value := by
  rw [nodeLocations, List.map_map]
  rfl

theorem nodup_create (f : Filter) (distinct : tree.preorder.Nodup) :
    ((create f (Location.root tree)).preorder.map (·.node)).Nodup := by
  rw [map_node_preorder, nodeLocations_create (.root tree)]
  refine distinct.sublist ?_
  rw [← Location.map_value_locations tree, Tree.locations, Location.preorder_eq_cons]
  exact (List.filter_sublist.cons_cons _).map _

theorem eq_of_value_eq (distinct : tree.preorder.Nodup) {k : Location Node}
    (hk : k ∈ tree.locations) (hl : l ∈ tree.locations) (same : k.value = l.value) : k = l := by
  refine List.inj_on_of_nodup_map ?_ hk hl same
  rw [Location.map_value_locations]
  exact distinct

theorem eq_root_or_keeps (distinct : tree.preorder.Nodup) {k : Location Node}
    (hk : k ∈ tree.locations) {item : WorkItem}
    (hitem : item ∈ (create f (Location.root tree)).preorder) (node : item.node = k.value) :
    k = Location.root tree ∨ f.keeps k = true := by
  have located : item.location ∈ (create f (Location.root tree)).nodeLocations :=
    List.mem_map_of_mem hitem
  rw [nodeLocations_create (.root tree)] at located
  have placed : item.location ∈ tree.locations := by
    rw [Tree.locations, Location.preorder_eq_cons]
    exact (List.filter_sublist.cons_cons _).subset located
  rw [eq_of_value_eq distinct placed hk node] at located
  rcases List.mem_cons.mp located with rfl | kept
  · exact .inl rfl
  · exact .inr (List.mem_filter.mp kept).2

end WorkTree

namespace Dispatcher

/-- In a run of a tree whose nodes differ, nothing below a suite that is silenced is ever acted on,
whether the filter keeps it or not. -/
theorem Silences.not_actor {d : Dispatcher} {failure : Failure} {before : List Event} {call : Call}
    {s s' : Session} {ran : SuiteRun} {t : WorkTree} {r : ResultTree} {f : Filter}
    {tree : TestTree} {path : List Nat}
    (h : d.Silences failure before call (WorkTree.create f (Location.root tree)).preorder s s' ran t
      r) (start : s.events = []) (distinct : tree.preorder.Nodup)
    (place : (WorkTree.create f (Location.root tree)).subtreeAt? path = some t)
    {k : Location Node} (hk : k ∈ t.value.location.descendants) {e : Event} (he : e ∈ s'.events) :
    e.actor? ≠ some k.value := by
  intro acts
  obtain ⟨l, hl, rfl⟩ := WorkTree.exists_create_of_subtreeAt? place
  rw [WorkTree.location_create] at hk
  have inTree : k ∈ tree.locations :=
    Location.mem_preorder_trans hl (Location.mem_preorder_of_descendants hk)
  have own : call.node = l.value := by
    rw [← h.setUp, h.silenced.node, WorkTree.node_create]
  have self : k.value ≠ l.value := fun same =>
    l.not_mem_descendants (WorkTree.eq_of_value_eq distinct inTree hl same ▸ hk)
  rcases h.eq_or_not_mem start (WorkTree.nodup_create f distinct) he acts with
    same | ⟨⟨item, hitem, node⟩, apart⟩
  · exact self (same.trans own)
  · rcases WorkTree.eq_root_or_keeps distinct inTree hitem node with rfl | kept
    · exact absurd (Location.depth_lt_of_descendants hk) (Nat.not_lt_zero _)
    · refine apart ?_
      rw [WorkTree.map_node_preorder,
        WorkTree.nodeLocations_create (Location.placed_of_mem_locations hl)]
      exact List.mem_map_of_mem (List.mem_cons_of_mem _ (List.mem_filter.mpr ⟨hk, kept⟩))

end Dispatcher

namespace RunOptions

/-- Wherever in a run the setup of a suite fails, all below the suite is reported with a verdict that
tells of the failure, without being started or called at any time, and the suite is torn down once
and shows the failure itself. -/
theorem run_silences (o : RunOptions) (invoker : Invoker) (clock : Clock) (tree : TestTree)
    (f : Filter) :
    ∃ report log, o.run invoker clock tree f = .ok report ∧
      (o.execute invoker clock tree f).session.events = log ∧
      ∀ before call failure, before ++ [.called call] <+: log → call.hook = .setUp →
        (invoker before call).ending.guarded = .error failure →
        ∃ (path : List Nat) (items : WorkTree) (r : ResultTree) (ran : SuiteRun),
          (WorkTree.create f (Location.root tree)).subtreeAt? path = some items ∧
          report.result.subtreeAt? path = some r ∧
          ran.setUp = call ∧ ran.logAtSetUp = before ∧ ran.ToldBy log r ∧
          ran.Silenced invoker failure items r ∧
          (tree.preorder.Nodup →
            (∀ k ∈ items.value.location.descendants, ∀ e ∈ log, e.actor? ≠ some k.value) ∧
            (Event.hooked .tearDown log).count call.node = 1) := by
  obtain ⟨r, s, gives, runs⟩ := o.execute_runs invoker clock f tree
  refine ⟨_, _, reportOf_of_gives f gives, rfl, fun before call failure logged setUp failed => ?_⟩
  have start := o.events_dispatcher invoker clock
  rw [gives.session] at logged ⊢
  rw [← o.invoker_dispatcher invoker clock] at failed
  rcases runs.silences logged setUp failed with earlier | ⟨path, t, x, ran, ht, hx, silences⟩
  · rw [start] at earlier
    simp at earlier
  · have silenced := silences.silenced
    rw [o.invoker_dispatcher] at silenced
    refine ⟨path, t, x, ran, ht, hx, silences.setUp, silences.logAtSetUp, silences.told, silenced,
      fun distinct => ⟨fun k hk e he => silences.not_actor start distinct ht hk he, ?_⟩⟩
    exact silences.count_tearDown setUp start (WorkTree.nodup_create f distinct)

/-- The setup of the suite of fast tests asks for the suite to be ignored. -/
def closedInvoker : Invoker := fun log call =>
  if call.hook = .setUp ∧ call.node.name = "Fast" then
    { ending := .failed (.ignore "closed"), ambient := call.context.toAmbient }
  else passingInvoker log call

end RunOptions

end TestScheduler

namespace TestScheduler.RunOptions

theorem run_silences_sample :
    TestTree.sample.preorder.Nodup ∧
      ∃ report log, ({} : RunOptions).run closedInvoker (Clock.from 0) .sample .empty = .ok report ∧
        (({} : RunOptions).execute closedInvoker (Clock.from 0) .sample .empty).session.events =
          log ∧
        ∃ (before : List Event) (call : Call), before ++ [.called call] <+: log ∧
          call.hook = .setUp ∧
          (closedInvoker before call).ending.guarded = .error (.ignore "closed") ∧
          ∃ (path : List Nat) (items : WorkTree) (r : ResultTree) (ran : SuiteRun),
            (WorkTree.create .empty (Location.root TestTree.sample)).subtreeAt? path =
              some items ∧
            report.result.subtreeAt? path = some r ∧
            ran.Silenced closedInvoker (.ignore "closed") items r ∧
            (∀ k ∈ items.value.location.descendants, ∀ e ∈ log, e.actor? ≠ some k.value) ∧
            (Event.hooked .tearDown log).count call.node = 1 := by
  have distinct : TestTree.sample.preorder.Nodup := by
    rw [TestTree.sample]
    exact Blueprint.nodup_build _ _
  obtain ⟨report, log, hrun, hlog, silenced⟩ :=
    run_silences {} closedInvoker (Clock.from 0) .sample .empty
  obtain ⟨before, call, logged, setUp, named⟩ : ∃ before call,
      before ++ [.called call] <+: log ∧ call.hook = .setUp ∧ call.node.name = "Fast" := by
    have fourth : (log[3]?.bind (Event.hooked? .setUp)).map (·.name) = some "Fast" := by
      rw [← hlog]
      decide +kernel
    obtain ⟨n, hn, named⟩ := Option.map_eq_some_iff.mp fourth
    obtain ⟨e, he, hooked⟩ := Option.bind_eq_some_iff.mp hn
    have prefixes := List.take_prefix 4 log
    rw [List.take_add_one, he] at prefixes
    cases e with
    | started | finished => cases hooked
    | called call =>
      rw [Event.hooked?, Option.ite_none_right_eq_some] at hooked
      obtain ⟨setUp, same⟩ := hooked
      obtain rfl := Option.some.inj same
      exact ⟨log.take 3, call, prefixes, setUp, named⟩
  have failed : (closedInvoker before call).ending.guarded = .error (.ignore "closed") := by
    rw [closedInvoker, if_pos ⟨setUp, named⟩]
    rfl
  obtain ⟨path, items, r, ran, place, result, -, -, -, silent, only⟩ :=
    silenced before call (.ignore "closed") logged setUp failed
  exact ⟨distinct, report, log, hrun, hlog, before, call, logged, setUp, failed, path, items, r,
    ran, place, result, silent, only distinct⟩

end TestScheduler.RunOptions

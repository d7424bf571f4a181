import TestScheduler.Pattern.Common
import TestScheduler.Proofs.Run.Concurrency
import TestScheduler.Proofs.Run.Isolation

/-! # Independence of the schedule

If hooks see nothing of a run but their nodes and contexts, and nothing stops the run, then it does
not matter in which order several workers serve the items. Every schedule comes to its end, with the
results and events of a run in which the items are served one at a time, up to times.
-/

namespace TestScheduler

variable {Expression : Type} [Pattern.Dialect Expression]

/-- Whether the hooks that an invoker plays see nothing of the log and never stop the run. -/
structure Invoker.Oblivious (invoker : Invoker) : Prop where
  same : ∀ log log' call, invoker log call = invoker log' call
  going : ∀ log call, (invoker log call).stops = false

/-- The result of items that came to their end without a fault, up to times. -/
def Ended.result (a : Ended) : Except Fault ResultTree :=
  match a.fault with
  | some fault => .error fault
  | none => a.tree.result.map (Tree.map Result.withoutTimes)

theorem Ended.exists_of_result {a : Ended} {r : ResultTree} (h : a.result = .ok r) :
    ∃ t r', a = ⟨t, none⟩ ∧ t.result = .ok r' ∧ r'.map Result.withoutTimes = r := by
  obtain ⟨t, _ | fault⟩ := a
  · rcases read : t.result with fault | r'
    · simp [result, read, Except.map] at h
    · simp only [result, read, Except.map, Except.ok.injEq] at h
      exact ⟨t, r', rfl, read, h⟩
  · cases h

theorem Progress.Gives.result_ended {p : Progress WorkTree} {r : ResultTree} {s : Session}
    (h : p.Gives WorkTree.result r s) : p.ended.1.result = .ok (r.map Result.withoutTimes) := by
  simp only [ended, Ended.result, h.fault, h.value]
  rfl

theorem Event.isBody_of_isFinished {e : Event} (h : e.isFinished = true) : e.isBody = false := by
  cases e <;> first | rfl | cases h

namespace Session

variable {stopped : Bool} {s s' s₁ : Session} {es : List Event}

theorem Follows.of_eq (h : s.Follows stopped s' es) (going : s₁.stopped = s'.stopped)
    (events : s₁.events = s'.events) : s.Follows stopped s₁ es := by
  obtain ⟨hstopped, new, hnew, hes⟩ := h
  exact ⟨going.trans hstopped, new, events.trans hnew, hes⟩

theorem follows_finished {r r' : ResultTree} (going : s'.stopped = stopped)
    (events : s'.events = s.events) (same : r'.map Result.withoutTimes = r) :
    s.Follows stopped (s'.record (.finished r')) [.finished r] :=
  ⟨going, [.finished r'], congrArg (· ++ _) events, by rw [← same]; rfl⟩

theorem follows_record (going : s.stopped = stopped) (e : Event) :
    s.Follows stopped (s.record e) [e.withoutTimes] :=
  ⟨going, [e], rfl, rfl⟩

end Session

namespace Invoker.Oblivious

variable {invoker : Invoker} {stopped : Bool} {s : Session}

theorem response (o : invoker.Oblivious) (going : s.stopped = stopped) (hook : Hook) (n : Node)
    (c : Context) :
    invoker s.events ⟨hook, n, c, s.stopped⟩ = invoker [] ⟨hook, n, c, stopped⟩ := by
  rw [going]
  exact o.same ..

theorem follows_call (o : invoker.Oblivious) (going : s.stopped = stopped) (hook : Hook) (n : Node)
    (c : Context) :
    s.Follows stopped (s.call invoker hook n c).2.2 [.called ⟨hook, n, c, stopped⟩] := by
  refine ⟨?_, [.called ⟨hook, n, c, s.stopped⟩], rfl, by rw [going]; rfl⟩
  simp [Session.call, o.going, going]

end Invoker.Oblivious

namespace Job

variable {α β γ : Type} {look : α → β} {stopped holds : Bool} {b : β} {es rest : List Event}
  {n : Nat} {next : Job α}

theorem permits_done (a : α) : (done a).permits ≤ 1 := Nat.zero_le 1

theorem permits_act (f : Session → γ × Session) (next : γ → Job α) :
    (act holds f next).permits ≤ 1 :=
  Bool.toNat_le holds

theorem permits_report (alone : next.permits ≤ 1) (es : List Event) :
    (report holds next es).permits ≤ 1 := by
  cases es with
  | nil => exact alone
  | cons => exact Bool.toNat_le holds

theorem Promises.act {f : Session → γ × Session} {next : γ → Job α}
    (logs : ∀ s : Session, s.stopped = stopped → s.Follows stopped (f s).2 es)
    (held : ∀ e ∈ es, e.isBody = true → holds = true) (alone : ∀ c, (next c).permits ≤ 1)
    (after : ∀ s : Session, s.stopped = stopped → Promises look stopped (next (f s).1) b rest n) :
    Promises look stopped (.act holds f next) b (es ++ rest) (n + 1) :=
  .step logs held (fun _ _ => alone _) after

theorem Promises.report (h : Promises look stopped next b rest n) (alone : next.permits ≤ 1)
    (reports : ∀ e ∈ es, e.isFinished = true) :
    Promises look stopped (.report holds next es) b (es.map Event.withoutTimes ++ rest)
      (es.length + n) := by
  induction es with
  | nil =>
    rw [List.length_nil, Nat.zero_add]
    exact h
  | cons e es ih =>
    rw [List.length_cons, Nat.add_right_comm, List.map_cons, List.cons_append,
      ← List.singleton_append]
    obtain ⟨first, reports⟩ := List.forall_mem_cons.mp reports
    have logs (s : Session) (going : s.stopped = stopped) := Session.follows_record going e
    have held : ∀ e' ∈ [e.withoutTimes], e'.isBody = true → holds = true := by
      simp [Event.isBody_of_isFinished first]
    exact .step logs held (fun _ _ => permits_report alone es) fun _ _ => ih reports

theorem promises_done {p : Progress WorkTree} {r : ResultTree} {s : Session}
    (h : p.Gives WorkTree.result r s) (stopped : Bool) :
    Promises Ended.result stopped (.done ⟨p.value, p.fault⟩)
      (.ok (r.map Result.withoutTimes)) [] 0 :=
  h.result_ended ▸ .done

theorem promises_last {f : Session → Progress WorkTree} {r : ResultTree}
    (gives : ∀ s : Session, s.stopped = stopped → ∃ r' s', (f s).Gives WorkTree.result r' s' ∧
      r'.map Result.withoutTimes = r ∧ s.Follows stopped s' [.finished r]) :
    Promises Ended.result stopped (.last f) (.ok r) [.finished r] 1 := by
  have logs (s : Session) (going : s.stopped = stopped) :
      s.Follows stopped (f s).session [.finished r] := by
    obtain ⟨_, _, gives, -, follows⟩ := gives s going
    exact gives.session ▸ follows
  rw [Job.last, ← List.append_nil [Event.finished r], ← Nat.zero_add 1]
  refine .act logs (by simp [Event.isBody]) permits_done fun s going => ?_
  obtain ⟨r', _, gave, rfl, -⟩ := gives s going
  exact promises_done gave stopped

/-- What the schedules of a job come to: all end after the same number of steps, with the same
result and with the same events in some order, up to times. No schedule calls a body without a
permit or holds more permits than there are workers. -/
structure SchedulesTo (workers : Nat) (j : Job Ended) (s : Session) (r : ResultTree)
    (log : List Event) (n : Nat) : Prop where
  bounded : ∀ k j' s', Scheduled workers j s k j' s' → k ≤ n ∧ j'.permits ≤ workers
  goesOn : ∀ k j' s', Scheduled workers j s k j' s' → k < n →
    ∃ j'' s'', Step j' s' j'' s'' ∧ j''.permits ≤ workers
  held : ∀ k j' s' j'' s'', Scheduled workers j s k j' s' → Step j' s' j'' s'' →
    ∃ new, s''.events = s'.events ++ new ∧ ∀ e ∈ new, e.isBody = true → 0 < j'.permits
  agrees : ∀ j' s', Scheduled workers j s n j' s' → ∃ t r' log', j' = .done ⟨t, none⟩ ∧
    t.result = .ok r' ∧ r'.map Result.withoutTimes = r.map Result.withoutTimes ∧
    s'.events = s.events ++ log' ∧
    (log'.map Event.withoutTimes).Perm (log.map Event.withoutTimes)

theorem Promises.schedulesTo {workers : Nat} {j : Job Ended} {s : Session} {r : ResultTree}
    {log : List Event} (h : Promises Ended.result s.stopped j (.ok (r.map Result.withoutTimes))
      (log.map Event.withoutTimes) n) (some : 0 < workers) (enough : j.permits ≤ workers) :
    SchedulesTo workers j s r log n where
  bounded _ _ _ scheduled :=
    have ⟨bounded, held, _⟩ := h.schedules rfl some scheduled enough
    ⟨bounded, held⟩
  goesOn _ _ _ scheduled more := (h.schedules rfl some scheduled enough).2.2.1 more
  held _ _ _ _ _ scheduled step := h.held_of_scheduled scheduled rfl step
  agrees j' s' scheduled := by
    obtain ⟨-, -, -, last⟩ := h.schedules rfl some scheduled enough
    obtain ⟨a, new, rfl, result, ⟨-, log', hlog', rfl⟩, perm⟩ := last rfl
    obtain ⟨t, r', rfl, read, same⟩ := Ended.exists_of_result result
    exact ⟨t, r', log', rfl, read, same, hlog', perm⟩

end Job

/-! ## What the parts of a dispatcher promise -/

namespace Result

@[simp] theorem ofSuite_withoutTimes (n : Node) (setUp : Except Failure Outcome)
    (rs : List ResultTree) :
    ofSuite n setUp (rs.map (Tree.map withoutTimes)) = ofSuite n setUp rs := by
  have same : (rs.map (Tree.map withoutTimes)).map (·.value.verdict) =
      rs.map (·.value.verdict) := by
    rw [List.map_map]
    refine List.map_congr_left fun r _ => ?_
    cases r with
    | node r rs => rw [Function.comp_apply, Tree.map_node]; rfl
  unfold ofSuite
  rw [same]

@[simp] theorem assertCountOf_withoutTimes (rs : List ResultTree) :
    assertCountOf (rs.map (Tree.map withoutTimes)) = assertCountOf rs := by
  have same : (rs.map (Tree.map withoutTimes)).map (·.value.assertCount) =
      rs.map (·.value.assertCount) := by
    rw [List.map_map]
    refine List.map_congr_left fun r _ => ?_
    cases r with
    | node r rs => rw [Function.comp_apply, Tree.map_node]; rfl
  unfold assertCountOf
  rw [same]

end Result

namespace Dispatcher

open Job WorkTree

variable {d : Dispatcher} {stopped holds : Bool} {item : WorkItem} {below ts : List WorkTree}
  {t : WorkTree} {c : Context}

/-- The result of a suite that is torn down after its children, up to times. -/
def closed (d : Dispatcher) (stopped : Bool) (n : Node) (setUp : Except Failure Outcome)
    (c : Context) (rs : List ResultTree) : ResultTree :=
  let tearDown := (d.invoker [] ⟨.tearDown, n, c, stopped⟩).ending.guarded
  .node { (Result.ofSuite n setUp rs).withTearDown tearDown with
    assertCount := Result.assertCountOf rs }.withoutTimes (rs.map (Tree.map Result.withoutTimes))

theorem closed_withoutTimes (n : Node) (setUp : Except Failure Outcome) (rs : List ResultTree) :
    d.closed stopped n setUp c (rs.map (Tree.map Result.withoutTimes)) =
      d.closed stopped n setUp c rs := by
  simp only [closed, Result.ofSuite_withoutTimes, Result.assertCountOf_withoutTimes, List.map_map]
  congr 1
  exact List.map_congr_left fun r _ => Tree.map_map ..

theorem promises_finishJob (h : t.Fresh) (v : Verdict) (message : Option String) :
    ∃ r es n, Promises Ended.result stopped (finishJob holds v message t) (.ok r) es n := by
  have gives := h.finishUnstarted_gives v message {}
  have reports : ∀ e ∈ (finishUnstarted v message t {}).session.events, e.isFinished = true := by
    rw [gives.session]
    exact fun _ => ResultTree.isFinished_of_mem_finishes
  exact ⟨_, _, _, (promises_done gives stopped).report (permits_done _) reports⟩

theorem endsRun_eq_false (continues : c.stopOnError = false) (r : Result) :
    endsRun c r = false := by
  simp [endsRun, continues]

theorem promises_endLeaf (isOpen : item.Open) (continues : c.stopOnError = false)
    (startMs : Nat) (body : Except Failure Outcome) :
    Promises Ended.result stopped (.last (d.endLeaf item below c startMs body))
      (.ok (.node (Result.ofBody item.node body).withoutTimes []))
      [.finished (.node (Result.ofBody item.node body).withoutTimes [])] 1 := by
  refine promises_last fun s going => ?_
  have same (endMs : Nat) : Tree.map Result.withoutTimes
      (.node ((Result.ofBody item.node body).withTimes startMs endMs) []) =
        .node (Result.ofBody item.node body).withoutTimes [] := by
    rw [Tree.map_node]
    rfl
  refine ⟨_, _, conclude_gives isOpen .., same _, Session.follows_finished ?_ rfl (same _)⟩
  simp [Session.stopIf, endsRun_eq_false continues, going]

theorem promises_closeJob (oblivious : d.invoker.Oblivious) (isOpen : item.Open)
    (continues : c.stopOnError = false) {rs : List ResultTree} (hrs : results below = .ok rs)
    (startMs : Nat) (setUp : Except Failure Outcome) :
    Promises Ended.result stopped (d.closeJob ⟨item, startMs, setUp, c⟩ below)
      (.ok (d.closed stopped item.node setUp c rs))
      ([.called ⟨.tearDown, item.node, c, stopped⟩] ++
        [.finished (d.closed stopped item.node setUp c rs)]) 2 := by
  refine .act (fun s going => oblivious.follows_call going ..) (by simp [Event.isBody])
    (fun _ => permits_act ..) fun s going => ?_
  have answer := oblivious.response going .tearDown item.node c
  simp only [callTearDown, Session.call, answer]
  refine promises_last fun s going => ?_
  have same (endMs : Nat) : Tree.map Result.withoutTimes
      (.node (OpenSuite.close ⟨item, startMs, setUp, c⟩ rs
        (d.invoker [] ⟨.tearDown, item.node, c, stopped⟩).ending.guarded endMs) rs) =
        d.closed stopped item.node setUp c rs := by
    rw [Tree.map_node]
    rfl
  refine ⟨_, _, concludeWith_gives isOpen hrs .., same _,
    Session.follows_finished ?_ rfl (same _)⟩
  simp [Session.stopIf, Session.readClock, endsRun_eq_false, continues, going]

theorem observeDeadline_of_untimed (untimed : d.deadline = none) (s : Session) :
    d.observeDeadline s = s := by
  simp [observeDeadline, untimed]

theorem permits_finishJob (v : Verdict) (message : Option String) (t : WorkTree) :
    (finishJob holds v message t).permits ≤ 1 := by
  unfold finishJob
  exact permits_report (permits_done _) _

theorem follows_startItem {s : Session} (going : s.stopped = stopped) :
    s.Follows stopped (d.startItem item s).2 [.started item.node] :=
  (Session.follows_record going (.started item.node)).of_eq rfl rfl

theorem exists_promises_startLeaf (oblivious : d.invoker.Oblivious) (stage : item.stage = .ready)
    (result : item.result = none) (continues : c.stopOnError = false) :
    ∃ r es n, Promises Ended.result stopped (d.startLeaf item below c) (.ok r) es n := by
  let r := (Result.ofBody item.node
    (d.invoker [] ⟨.test, item.node, c, stopped⟩).ending.guarded).withoutTimes
  have body (startMs : Nat) : Promises Ended.result stopped
      (.act true (d.callBody (item.moved .running) c) fun body =>
        .last (d.endLeaf (item.moved .running) below c startMs body))
      (.ok (.node r [])) ([.called ⟨.test, item.node, c, stopped⟩] ++ [.finished (.node r [])])
      2 := by
    refine .act (fun s going => oblivious.follows_call going ..) (fun _ _ _ => rfl)
      (fun _ => permits_act ..) fun s going => ?_
    have answer := oblivious.response going .test (item.moved .running).node c
    simp only [callBody, Session.call, answer]
    exact promises_endLeaf (open_moved result) continues startMs _
  simp only [startLeaf, advance_running stage]
  exact ⟨_, _, _, .act (fun _ => follows_startItem) (by simp [Event.isBody])
    (fun _ => permits_act ..) fun _ _ => body _⟩

/-- Whether or not the run is stopped from the start, it stays so while items wait. -/
theorem exists_promises_unlessStopped (untimed : d.deadline = none) (fresh : t.Fresh)
    {next : Job Ended} (alone : next.permits ≤ 1)
    (after : ∃ r es n, Promises Ended.result stopped next (.ok r) es n) :
    ∃ r es n, Promises Ended.result stopped (d.unlessStopped holds t next) (.ok r) es n := by
  have after : ∃ r es n, Promises Ended.result stopped
      (if stopped then finishJob holds .cancelled cancelledMessage t else next) (.ok r) es n := by
    cases stopped with
    | true => exact promises_finishJob fresh _ _
    | false => exact after
  obtain ⟨r, es, n, after⟩ := after
  simp only [unlessStopped, observeDeadline_of_untimed untimed]
  refine ⟨r, [] ++ es, n + 1, .act (fun s going => .refl going) (List.forall_mem_nil _)
    (fun stopped => ?_) fun s going => going ▸ after⟩
  cases stopped with
  | true => exact permits_finishJob ..
  | false => exact alone

theorem permits_startLeaf : (d.startLeaf item below c).permits ≤ 1 := by
  unfold startLeaf
  split
  · exact permits_done _
  · exact permits_act ..

theorem permits_closeJob (suite : OpenSuite) (below : List WorkTree) :
    (d.closeJob suite below).permits ≤ 1 :=
  permits_act ..

theorem permits_closeAfterJob (suite : OpenSuite) (below : List WorkTree) (fault : Option Fault) :
    (d.closeAfterJob suite below fault).permits ≤ 1 := by
  cases fault with
  | none => exact permits_closeJob ..
  | some fault => exact permits_done _

theorem permits_job (t : WorkTree) (c : Context) : (d.job t c).permits = 0 := by
  cases t
  rfl

theorem permitsEach_jobs (ts : List WorkTree) (c : Context) : permitsEach (d.jobs ts c) = 0 := by
  induction ts with
  | nil => rfl
  | cons t ts ih => rw [jobs, permitsEach, permits_job, ih]

theorem permits_suiteJob (suite : OpenSuite) :
    (d.suiteJob below (d.jobs below) suite).permits ≤ 1 := by
  unfold suiteJob
  split
  · exact permits_report (permits_closeAfterJob ..) _
  · split
    · exact permits_closeJob ..
    · split
      · exact permits_done _
      · rw [permits, permitsEach_jobs]
        exact Nat.zero_le 1

theorem exists_results_of_ended {as : List Ended} {rs : List ResultTree}
    (h : as.map Ended.result = rs.map .ok) :
    Ended.fault? as = none ∧ ∃ rs', results (as.map (·.tree)) = .ok rs' ∧
      rs'.map (Tree.map Result.withoutTimes) = rs := by
  induction as generalizing rs with
  | nil =>
    obtain rfl := List.map_eq_nil_iff.mp h.symm
    exact ⟨rfl, [], results_nil, rfl⟩
  | cons a as ih =>
    cases rs with
    | nil => cases h
    | cons r rs =>
      obtain ⟨first, rest⟩ := List.cons_eq_cons.mp h
      obtain ⟨fault, rs', hrs, rfl⟩ := ih rest
      obtain ⟨t, r', rfl, read, rfl⟩ := Ended.exists_of_result first
      exact ⟨fault, r' :: rs', results_cons read hrs, rfl⟩

theorem promises_closeAfterJob (oblivious : d.invoker.Oblivious) (isOpen : item.Open)
    (continues : c.stopOnError = false) {as : List Ended} {rs : List ResultTree}
    (has : as.map Ended.result = rs.map .ok) (startMs : Nat) (setUp : Except Failure Outcome) :
    Promises Ended.result stopped
      (d.closeAfterJob ⟨item, startMs, setUp, c⟩ (as.map (·.tree)) (Ended.fault? as))
      (.ok (d.closed stopped item.node setUp c rs))
      ([.called ⟨.tearDown, item.node, c, stopped⟩] ++
        [.finished (d.closed stopped item.node setUp c rs)]) 2 := by
  obtain ⟨fault, rs', hrs, rfl⟩ := exists_results_of_ended has
  rw [fault, closed_withoutTimes]
  exact promises_closeJob oblivious isOpen continues hrs startMs setUp

theorem exists_promises_suiteJob (oblivious : d.invoker.Oblivious) (running : item.stage = .running)
    (isOpen : item.Open) (continues : c.stopOnError = false) (fresh : ∀ t ∈ below, t.Fresh)
    (each : ∃ (rs : List ResultTree) (es : List Event) (n : Nat),
      PromisesEach Ended.result stopped (d.jobs below c) (rs.map .ok) es n)
    (setUp : Except Failure Outcome) :
    ∃ r es n, ∀ startMs, Promises Ended.result stopped
      (d.suiteJob below (d.jobs below) ⟨item, startMs, setUp, c⟩) (.ok r) es n := by
  cases setUp with
  | error failure =>
    have gives := Fresh.finishEachUnstarted_gives fresh (setUpVerdict failure)
      (setUpMessage failure) {}
    simp only [suiteJob, gives.fault, gives.session]
    have reports (e : Event) (he : e ∈ (({} : Session).recordAll (ResultTree.finishesEach
        (below.map (unstarted (setUpVerdict failure) (setUpMessage failure))))).events) :
        e.isFinished = true :=
      ResultTree.isFinished_of_mem_finishesEach he
    exact ⟨_, _, _, fun startMs =>
      (promises_closeJob oblivious isOpen continues gives.value startMs (.error failure)).report
        (permits_closeJob ..) reports⟩
  | ok outcome =>
    cases empty : below.isEmpty with
    | true =>
      obtain rfl := List.isEmpty_iff.mp empty
      exact ⟨_, _, _, fun startMs =>
        promises_closeJob oblivious isOpen continues results_nil startMs (.ok outcome)⟩
    | false =>
      have waits : item.advance .waitingForChildren = .ok (item.moved .waitingForChildren) := by
        simp [WorkItem.advance, running, Stage.allows, WorkItem.moved]
      have waiting : (item.moved .waitingForChildren).Open :=
        ⟨by simp [WorkItem.moved], isOpen.result⟩
      obtain ⟨rs, es, n, each⟩ := each
      simp only [suiteJob, empty, waits, Bool.false_eq_true, if_false]
      exact ⟨_, _, _, fun startMs =>
        .fork each (fun _ _ => permits_closeAfterJob ..) fun _ has =>
          promises_closeAfterJob oblivious waiting continues has startMs (.ok outcome)⟩

theorem exists_promises_jobs (step : ∀ t ∈ ts, ∀ c : Context, c.stopOnError = false →
      ∃ r es n, Promises Ended.result stopped (d.job t c) (.ok r) es n)
    (continues : c.stopOnError = false) :
    ∃ (rs : List ResultTree) (es : List Event) (n : Nat),
      PromisesEach Ended.result stopped (d.jobs ts c) (rs.map .ok) es n := by
  induction ts with
  | nil => exact ⟨[], [], 0, .nil⟩
  | cons t ts ih =>
    obtain ⟨stepFirst, step⟩ := List.forall_mem_cons.mp step
    obtain ⟨r, es, m, first⟩ := stepFirst (c.forChild t.value.node) continues
    obtain ⟨rs, es', n, rest⟩ := ih step
    exact ⟨r :: rs, es ++ es', m + n, .cons first rest⟩

theorem permits_startSuite (jobs : Context → List (Job Ended)) :
    (d.startSuite item below jobs c).permits ≤ 1 := by
  unfold startSuite
  split
  · exact permits_done _
  · exact permits_act ..

theorem permits_unlessStopped (t : WorkTree) (next : Job Ended) :
    (d.unlessStopped holds t next).permits ≤ 1 :=
  permits_act ..

theorem permits_serve : (d.serve item below (d.jobs below) c).permits ≤ 1 := by
  unfold serve
  split
  · exact permits_finishJob ..
  · split
    · exact permits_unlessStopped ..
    · exact permits_startSuite _

theorem callSetUp_fst (item : WorkItem) (c : Context) (startMs : Nat) (s : Session) :
    (d.callSetUp item c startMs s).1 =
      let response :=
        d.invoker s.events ⟨.setUp, item.node, c.withSettings item.node.settings, s.stopped⟩
      ⟨item, startMs, response.ending.guarded, c.afterSetUp item.node response⟩ :=
  congrArg (OpenSuite.mk item startMs _) Context.pushed_eq_afterSetUp

theorem exists_promises_startSuite (oblivious : d.invoker.Oblivious)
    (fresh : Fresh (.node item below)) (continues : c.stopOnError = false)
    (each : ∀ c : Context, c.stopOnError = false →
      ∃ (rs : List ResultTree) (es : List Event) (n : Nat),
        PromisesEach Ended.result stopped (d.jobs below c) (rs.map .ok) es n) :
    ∃ r es n, Promises Ended.result stopped (d.startSuite item below (d.jobs below) c) (.ok r)
      es n := by
  obtain ⟨stage, result, fresh⟩ := fresh
  let answer := d.invoker [] ⟨.setUp, item.node, c.withSettings item.node.settings, stopped⟩
  let context := c.afterSetUp item.node answer
  have continues : context.stopOnError = false := continues
  obtain ⟨r, es, n, after⟩ : ∃ r es n, ∀ startMs, Promises Ended.result stopped
      (d.suiteJob below (d.jobs below)
        ⟨item.moved .running, startMs, answer.ending.guarded, context⟩) (.ok r) es n :=
    exists_promises_suiteJob oblivious rfl (open_moved result) continues fresh
      (each context continues) _
  have setUp (startMs : Nat) : Promises Ended.result stopped
      (.act false (d.callSetUp (item.moved .running) c startMs) (d.suiteJob below (d.jobs below)))
      (.ok r) ([.called ⟨.setUp, item.node, c.withSettings item.node.settings, stopped⟩] ++ es)
      (n + 1) := by
    refine .act (fun s going => oblivious.follows_call going ..) (by simp [Event.isBody])
      permits_suiteJob fun s going => ?_
    rw [callSetUp_fst, oblivious.response going]
    exact after startMs
  simp only [startSuite, advance_running stage]
  exact ⟨_, _, _, .act (fun _ => follows_startItem) (by simp [Event.isBody])
    (fun _ => permits_act ..) fun _ _ => setUp _⟩

/-- The job of fresh items comes to the same however it is scheduled. -/
theorem exists_promises_job (oblivious : d.invoker.Oblivious) (untimed : d.deadline = none)
    (fresh : t.Fresh) (continues : c.stopOnError = false) :
    ∃ r es n, Promises Ended.result stopped (d.job t c) (.ok r) es n := by
  induction t using Tree.induction generalizing c with
  | node item below ih =>
    obtain ⟨stage, result, each⟩ := id fresh
    rw [job]
    refine exists_promises_unlessStopped untimed fresh permits_serve ?_
    rw [serve]
    split
    · exact promises_finishJob fresh _ _
    · split
      · exact exists_promises_unlessStopped untimed fresh permits_startLeaf
          (exists_promises_startLeaf oblivious stage result continues)
      · exact exists_promises_startSuite oblivious fresh continues fun c continues =>
          exists_promises_jobs (fun t ht c continues => ih t ht (each t ht) continues) continues

/-- In whatever order several workers serve the items of a run that nothing stops, they come to the
results and the events of a dispatcher that serves one item at a time. -/
theorem schedules_agree (parallel : d.isParallel = true) (untimed : d.deadline = none)
    (oblivious : d.invoker.Oblivious) (f : Filter) {l : Location Node}
    (bare : ∀ k ∈ l.preorder, k.value.kind = .leaf → k.tree.children = [])
    (continues : c.stopOnError = false) (s : Session) :
    ∃ r log n,
      let alone := ({ d with workers := 1 } : Dispatcher).execute (create f l) c s
      alone.fault = none ∧ alone.value.result = .ok r ∧
        alone.session.events = s.events ++ log ∧
        r.map Result.id = (create f l).map (fun item => item.node.id) ∧
        SchedulesTo d.workers (d.job (create f l) c) s r log n := by
  have fresh := fresh_create f l
  obtain ⟨r', es, n, promises⟩ : ∃ r es n,
      Promises Ended.result s.stopped (d.job (create f l) c) (.ok r) es n :=
    exists_promises_job oblivious untimed fresh continues
  obtain ⟨r, s', gives, runs⟩ := executes fresh d c s
  obtain ⟨came, -, log, hlog, rfl⟩ := promises.run rfl
  rw [run_job parallel, gives.result_ended, Except.ok.injEq] at came
  rw [run_job parallel] at hlog
  subst came
  have some : 0 < d.workers := Nat.lt_of_succ_lt (of_decide_eq_true parallel)
  have enough : (d.job (create f l) c).permits ≤ d.workers :=
    Nat.le_trans (Nat.le_of_eq (permits_job ..)) (Nat.zero_le _)
  refine ⟨r, log, n, ?_⟩
  rw [execute_workers fresh]
  exact ⟨gives.fault, gives.value, hlog, runs.ids (bare_create f bare),
    promises.schedulesTo some enough⟩

end Dispatcher

end TestScheduler

namespace TestScheduler.Dispatcher

open Job WorkTree

/-- Two workers serve the sample. -/
theorem schedules_agree_sample :
    let d : Dispatcher := { invoker := RunOptions.passingInvoker, workers := 2 }
    let c := Context.initial 1
    let t := create .empty (Location.root TestTree.sample)
    d.isParallel = true ∧ d.deadline = none ∧ d.invoker.Oblivious ∧
      (∀ k ∈ (Location.root TestTree.sample).preorder,
        k.value.kind = .leaf → k.tree.children = []) ∧ c.stopOnError = false ∧
      ∃ r log n,
        let alone := ({ d with workers := 1 } : Dispatcher).execute t c {}
        alone.fault = none ∧ alone.value.result = .ok r ∧
          alone.session.events = [] ++ log ∧
          r.map Result.id = t.map (fun item => item.node.id) ∧
          SchedulesTo d.workers (d.job t c) {} r log n := by
  have oblivious : RunOptions.passingInvoker.Oblivious := ⟨fun _ _ _ => rfl, fun _ _ => rfl⟩
  exact ⟨rfl, rfl, oblivious, by decide, rfl,
    schedules_agree rfl rfl oblivious .empty (by decide) rfl {}⟩

end TestScheduler.Dispatcher

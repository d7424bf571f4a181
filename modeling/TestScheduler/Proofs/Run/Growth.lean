import TestScheduler.Proofs.Run.Concurrency
import TestScheduler.Proofs.Run.History

/-! # Growth of sessions

Whatever a job does to a session, the log so far stays as it is, and a stopped run stays stopped.
So in every schedule each session precedes those after it.
-/

namespace TestScheduler

variable {Expression : Type} [Pattern.Dialect Expression]

/-- Whether a run can go on from one session to another. -/
structure Session.Precedes (s s' : Session) : Prop where
  events : s.events <+: s'.events
  stopped : s.stopped = true → s'.stopped = true

namespace Session

variable {s s' s'' : Session}

namespace Precedes

theorem refl (s : Session) : s.Precedes s := ⟨List.prefix_refl _, id⟩

theorem trans (h : s.Precedes s') (h' : s'.Precedes s'') : s.Precedes s'' :=
  ⟨h.events.trans h'.events, fun stopped => h'.stopped (h.stopped stopped)⟩

end Precedes

theorem precedes_record (s : Session) (e : Event) : s.Precedes (s.record e) :=
  ⟨List.prefix_append _ _, id⟩

theorem precedes_readClock (s : Session) (clock : Clock) : s.Precedes (s.readClock clock).2 :=
  ⟨List.prefix_refl _, id⟩

theorem precedes_stopIf (s : Session) (b : Bool) : s.Precedes (s.stopIf b) :=
  ⟨List.prefix_refl _, fun stopped => by rw [stopped_stopIf, stopped, Bool.true_or]⟩

theorem precedes_call (s : Session) (invoker : Invoker) (hook : Hook) (n : Node) (c : Context) :
    s.Precedes (s.call invoker hook n c).2.2 :=
  ⟨List.prefix_append _ _, fun stopped => Bool.or_eq_true_iff.mpr (.inl stopped)⟩

end Session

namespace Job

variable {α γ : Type} {j j' next : Job α} {js : List (Job α)} {s s' : Session}

/-- Whether each step of a job goes on from the session that it finds. -/
inductive Grows : Job α → Prop where
  | done {a : α} : Grows (.done a)
  | step {holds : Bool} {update : Session → Session} {next : Session → Job α}
      (longer : ∀ s : Session, s.Precedes (update s)) (after : ∀ s, Grows (next s)) :
      Grows (.step holds update next)
  | fork {jobs : List (Job α)} {next : List α → Job α} (each : ∀ j ∈ jobs, Grows j)
      (after : ∀ as, Grows (next as)) : Grows (.fork jobs next)

theorem Grows.act {holds : Bool} {f : Session → γ × Session} {next : γ → Job α}
    (longer : ∀ s : Session, s.Precedes (f s).2) (after : ∀ b, Grows (next b)) :
    Grows (.act holds f next) :=
  .step longer fun _ => after _

theorem Grows.report (h : Grows next) (holds : Bool) (es : List Event) :
    Grows (.report holds next es) := by
  induction es with
  | nil => exact h
  | cons e es ih => exact .step (fun s => s.precedes_record e) fun _ => ih

theorem Grows.last {f : Session → Progress WorkTree}
    (longer : ∀ s : Session, s.Precedes (f s).session) :
    Grows (.last f) :=
  .act longer fun _ => .done

theorem Grows.step_of (h : Grows j) (step : Step j s j' s') : s.Precedes s' ∧ Grows j' := by
  induction step with
  | act =>
    cases h with
    | step longer after => exact ⟨longer _, after _⟩
  | child _ ih =>
    cases h with
    | fork each after =>
      rw [List.forall_mem_append, List.forall_mem_cons] at each
      obtain ⟨before, child, others⟩ := each
      obtain ⟨longer, child⟩ := ih child
      refine ⟨longer, .fork ?_ after⟩
      rw [List.forall_mem_append, List.forall_mem_cons]
      exact ⟨before, child, others⟩
  | join =>
    cases h with
    | fork _ after => exact ⟨.refl _, after _⟩

theorem Grows.of_scheduled {workers n : Nat} (h : Grows j)
    (scheduled : Scheduled workers j s n j' s') : s.Precedes s' ∧ Grows j' := by
  induction scheduled with
  | start => exact ⟨.refl _, h⟩
  | step _ step _ ih =>
    obtain ⟨longer, grows⟩ := ih
    obtain ⟨longer', grows⟩ := grows.step_of step
    exact ⟨longer.trans longer', grows⟩

end Job

namespace Dispatcher

open Job WorkTree

variable {d : Dispatcher} {item : WorkItem} {below ts : List WorkTree} {c : Context} {holds : Bool}
  {s : Session}

theorem precedes_observeDeadline (d : Dispatcher) (s : Session) :
    s.Precedes (d.observeDeadline s) :=
  ⟨by simp, stopped_observeDeadline⟩

theorem precedes_conclude (item : WorkItem) (below : List WorkTree) (r : ResultTree)
    (s : Session) : s.Precedes (conclude item below r s).session := by
  unfold conclude
  split <;> exact s.precedes_record _

theorem precedes_concludeWith {make : List ResultTree → Session → ResultTree × Session}
    (longer : ∀ rs, s.Precedes (make rs s).2) :
    s.Precedes (concludeWith item below s make).session := by
  unfold concludeWith
  split
  · exact .refl _
  · exact (longer _).trans (precedes_conclude ..)

theorem grows_finishJob (holds : Bool) (v : Verdict) (message : Option String) (t : WorkTree) :
    Grows (finishJob holds v message t) :=
  .report .done _ _

theorem grows_unlessStopped (t : WorkTree) {next : Job Ended} (after : Grows next) :
    Grows (d.unlessStopped holds t next) := by
  refine .act d.precedes_observeDeadline fun stopped => ?_
  split
  · exact grows_finishJob ..
  · exact after

theorem precedes_startItem (d : Dispatcher) (item : WorkItem) (s : Session) :
    s.Precedes (d.startItem item s).2 :=
  (s.precedes_record _).trans (Session.precedes_readClock ..)

theorem grows_startLeaf : Grows (d.startLeaf item below c) := by
  unfold startLeaf
  split
  · exact .done
  · refine .act (d.precedes_startItem _) fun _ => .act (fun s => s.precedes_call ..) fun _ => ?_
    refine .last fun s => (s.precedes_readClock d.clock).trans ?_
    exact (Session.precedes_stopIf ..).trans (precedes_conclude ..)

theorem grows_closeJob (suite : OpenSuite) (ts : List WorkTree) : Grows (d.closeJob suite ts) :=
  .act (fun s => s.precedes_call ..) fun _ => .last fun s => precedes_concludeWith fun _ =>
    (s.precedes_readClock d.clock).trans (Session.precedes_stopIf ..)

theorem grows_closeAfterJob (suite : OpenSuite) (ts : List WorkTree) (fault : Option Fault) :
    Grows (d.closeAfterJob suite ts fault) := by
  cases fault with
  | some => exact .done
  | none => exact grows_closeJob ..

theorem grows_suiteJob {jobs : Context → List (Job Ended)} (each : ∀ c, ∀ j ∈ jobs c, Grows j)
    (suite : OpenSuite) : Grows (d.suiteJob below jobs suite) := by
  unfold suiteJob
  split
  · exact .report (grows_closeAfterJob ..) _ _
  · split
    · exact grows_closeJob ..
    · split
      · exact .done
      · exact .fork (each _) fun _ => grows_closeAfterJob ..

theorem grows_startSuite {jobs : Context → List (Job Ended)} (each : ∀ c, ∀ j ∈ jobs c, Grows j) :
    Grows (d.startSuite item below jobs c) := by
  unfold startSuite
  split
  · exact .done
  · exact .act (d.precedes_startItem _) fun _ =>
      .act (fun s => s.precedes_call ..) (grows_suiteJob each)

theorem grows_jobs (each : ∀ t ∈ ts, ∀ c, Grows (d.job t c)) (c : Context) :
    ∀ j ∈ d.jobs ts c, Grows j := by
  induction ts with
  | nil => exact List.forall_mem_nil _
  | cons t ts ih =>
    obtain ⟨first, rest⟩ := List.forall_mem_cons.mp each
    exact List.forall_mem_cons.mpr ⟨first _, ih rest⟩

/-- The job of any items goes on from the session that it finds. -/
theorem grows_job (d : Dispatcher) (t : WorkTree) (c : Context) : Grows (d.job t c) := by
  induction t using Tree.induction generalizing c with
  | node item below ih =>
    rw [job]
    refine grows_unlessStopped _ ?_
    unfold serve
    split
    · exact grows_finishJob ..
    · split
      · exact grows_unlessStopped _ grows_startLeaf
      · exact grows_startSuite (grows_jobs ih)

end Dispatcher

end TestScheduler

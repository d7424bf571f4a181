import Mathlib.Data.List.Infix
import TestScheduler.Proofs.Run.Accounting

/-! # Histories

The log of a run only grows, and a run that is stopped stays stopped. What a log tells of an event
may depend on the events before it, so properties of logs are checked for each event against the log
at the time when it was added.
-/

namespace TestScheduler

namespace Event

variable {P : List Event → Event → Prop} {before after log es : List Event} {e e' : Event}

theorem concat_prefix_concat_iff :
    before ++ [e] <+: log ++ [e'] ↔ before ++ [e] <+: log ∨ before = log ∧ e = e' := by
  rw [List.prefix_concat_iff, or_comm]
  refine or_congr_right ⟨fun h => ?_, ?_⟩
  · simpa using List.append_inj' h rfl
  · rintro ⟨rfl, rfl⟩
    rfl

theorem prefix_of_prefix_append (h : before ++ [e] <+: log ++ es) (he : e ∉ es) :
    before ++ [e] <+: log := by
  induction es using List.reverseRecOn with
  | nil => rwa [List.append_nil] at h
  | append_singleton es e' ih =>
    rw [List.mem_append, List.mem_singleton, not_or] at he
    rw [← List.append_assoc, concat_prefix_concat_iff] at h
    exact ih (h.resolve_right fun same => he.2 same.2) he.1

/-- Whether each event of a log stands in a given relation to the log before it. -/
def Each (P : List Event → Event → Prop) (log : List Event) : Prop :=
  ∀ before e, before ++ [e] <+: log → P before e

theorem each_nil : Each P [] := by
  intro before e h
  simp at h

theorem each_concat_iff : Each P (log ++ [e]) ↔ Each P log ∧ P log e := by
  simp only [Each, concat_prefix_concat_iff]
  constructor
  · intro h
    exact ⟨fun before e he => h before e (.inl he), h log e (.inr ⟨rfl, rfl⟩)⟩
  · rintro ⟨h, he⟩ before e' (h' | ⟨rfl, rfl⟩)
    · exact h before e' h'
    · exact he

theorem Each.append (h : Each P log) (trivial : ∀ e ∈ es, ∀ before, P before e) :
    Each P (log ++ es) := by
  induction es using List.reverseRecOn with
  | nil => rwa [List.append_nil]
  | append_singleton es e ih =>
    rw [← List.append_assoc, each_concat_iff]
    refine ⟨ih fun e he => trivial e (List.mem_append_left _ he), ?_⟩
    exact trivial e List.mem_concat_self _

theorem Each.exists_between (h : Each P (before ++ after)) (he : e ∈ after) :
    ∃ between, (∀ x ∈ between, x ∈ after) ∧ P (before ++ between) e := by
  obtain ⟨between, rest, rfl⟩ := List.append_of_mem he
  refine ⟨between, fun x hx => List.mem_append_left _ hx, h _ _ ⟨rest, ?_⟩⟩
  simp

theorem exists_before_of_mem (h : e ∈ log) : ∃ before, before ++ [e] <+: log := by
  obtain ⟨before, after, rfl⟩ := List.append_of_mem h
  exact ⟨before, after, by simp⟩

end Event

/-- Whether a log tells of a call to which an invoker gave a certain response. -/
def Invoker.Gave (invoker : Invoker) (log : List Event) (call : Call) (response : Response) :
    Prop :=
  ∃ before, before ++ [.called call] <+: log ∧ invoker before call = response

namespace Session

@[simp] theorem stopped_record (s : Session) (e : Event) : (s.record e).stopped = s.stopped := rfl

@[simp] theorem stopped_recordAll (s : Session) (es : List Event) :
    (s.recordAll es).stopped = s.stopped := rfl

@[simp] theorem stopped_stopIf (s : Session) (b : Bool) :
    (s.stopIf b).stopped = (s.stopped || b) := rfl

theorem stopped_of_readClock {s s' : Session} {clock : Clock} {ms : Nat}
    (h : s.readClock clock = (ms, s')) : s'.stopped = s.stopped := by
  cases h
  rfl

theorem stopped_of_call {s s' : Session} {invoker : Invoker} {hook : Hook} {n : Node}
    {c c' : Context} {ending : Except Failure Outcome}
    (h : s.call invoker hook n c = (ending, c', s')) :
    s'.stopped = (s.stopped || (invoker s.events ⟨hook, n, c, s.stopped⟩).stops) := by
  cases h
  rfl

end Session

namespace Dispatcher

variable {Expression : Type} [Pattern.Dialect Expression] {d : Dispatcher} {t : WorkTree}
  {ts : List WorkTree} {c : Context} {s s' : Session} {r : ResultTree} {rs : List ResultTree}

theorem stopped_observeDeadline (stopped : s.stopped = true) :
    (d.observeDeadline s).stopped = true := by
  cases h : d.deadline <;> simp [observeDeadline, h, Session.readClock, Session.stopIf, stopped]

theorem going_of_observeDeadline (going : (d.observeDeadline s).stopped = false) :
    s.stopped = false := by
  cases h : s.stopped with
  | false => rfl
  | true => rw [stopped_observeDeadline h] at going; exact going

/-- Once a run is stopped, whatever it comes to is cancelled. -/
theorem Runs.of_stopped (h : d.Runs t c s r s') (stopped : s.stopped = true) :
    r = t.unstarted .cancelled cancelledMessage ∧
      s' = (d.observeDeadline s).recordAll (t.unstarted .cancelled cancelledMessage).finishes := by
  have late := stopped_observeDeadline (d := d) stopped
  cases h with
  | cancelled => exact ⟨rfl, rfl⟩
  | skipped going => simp [late] at going
  | overtaken going => simp [late] at going
  | leaf going => simp [late] at going
  | setUpFailed going => simp [late] at going
  | suite going => simp [late] at going

theorem Runs.stays_stopped (h : d.Runs t c s r s') (stopped : s.stopped = true) :
    s'.stopped = true := by
  rw [(h.of_stopped stopped).2]
  exact stopped_observeDeadline stopped

theorem RunsEach.stays_stopped (h : d.RunsEach ts c s rs s') (stopped : s.stopped = true) :
    s'.stopped = true := by
  induction rs generalizing ts s with
  | nil =>
    cases h
    exact stopped
  | cons r rs ih =>
    cases h with
    | cons first rest => exact ih rest (first.stays_stopped stopped)

theorem Runs.longer (h : d.Runs t c s r s') : s.events <+: s'.events := by
  obtain ⟨es, hes, -⟩ := h.reports
  exact ⟨es, hes.symm⟩

theorem RunsEach.longer (h : d.RunsEach ts c s rs s') : s.events <+: s'.events := by
  obtain ⟨es, hes, -⟩ := h.reports
  exact ⟨es, hes.symm⟩

theorem Closes.stays_stopped {suite : OpenSuite} (closed : d.Closes suite rs s r s')
    (stopped : s.stopped = true) : s'.stopped = true := by
  cases closed with
  | tornDown called ended =>
    simp [Session.stopped_of_readClock ended, Session.stopped_of_call called, stopped]

theorem RunsEach.still_going (h : d.RunsEach ts c s rs s') (going : s'.stopped = false) :
    s.stopped = false :=
  Bool.eq_false_iff.mpr fun stopped => Bool.eq_false_iff.mp going (h.stays_stopped stopped)

theorem Closes.still_going {suite : OpenSuite} (closed : d.Closes suite rs s r s')
    (going : s'.stopped = false) : s.stopped = false :=
  Bool.eq_false_iff.mpr fun stopped => Bool.eq_false_iff.mp going (closed.stays_stopped stopped)

theorem Closes.longer {suite : OpenSuite} (closed : d.Closes suite rs s r s') :
    s.events <+: s'.events :=
  ⟨_, closed.events.symm⟩

end Dispatcher

end TestScheduler

import TestScheduler.Run.Dispatch

/-! # Jobs

A job takes its steps on a session that it shares with other jobs, and it may wait for jobs of its
own. Who goes next is open: `Job.Scheduled` allows every order in which no more permits are held
than there are. `Job.Promises` says what a job comes to however it is scheduled, up to times.
-/

namespace TestScheduler

/-- A computation that is interleaved with others. -/
inductive Job (α : Type) where
  | done (result : α)
  /-- A step, for which a permit may be held. -/
  | step (holds : Bool) (update : Session → Session) (next : Session → Job α)
  /-- Jobs to wait for, whose results are passed on in their places. -/
  | fork (jobs : List (Job α)) (next : List α → Job α)

namespace Job

variable {α β γ : Type}

/-- A step that hands something on. -/
def act (holds : Bool) (f : Session → γ × Session) (next : γ → Job α) : Job α :=
  .step holds (fun s => (f s).2) fun s => next (f s).1

/-- Logs events one by one. -/
def report (holds : Bool) (next : Job α) : List Event → Job α
  | [] => next
  | e :: es => .step holds (·.record e) fun _ => report holds next es

mutual

/-- The number of permits that a job and those it waits for hold. -/
def permits : Job α → Nat
  | done _ => 0
  | step holds _ _ => holds.toNat
  | fork jobs _ => permitsEach jobs

def permitsEach : List (Job α) → Nat
  | [] => 0
  | j :: js => permits j + permitsEach js

end

mutual

/-- Runs a job alone, and one after another the jobs that it waits for. -/
def run : Job α → Session → α × Session
  | done a, s => (a, s)
  | step _ update next, s => run (next s) (update s)
  | fork jobs next, s =>
    let (as, s) := runEach jobs s
    run (next as) s

def runEach : List (Job α) → Session → List α × Session
  | [], s => ([], s)
  | j :: js, s =>
    let (a, s) := run j s
    let (as, s) := runEach js s
    (a :: as, s)

end

/-- One step of a job, which is its own or that of any job that it waits for. -/
inductive Step : Job α → Session → Job α → Session → Prop where
  | act {holds : Bool} {update : Session → Session} {next : Session → Job α} {s : Session} :
      Step (.step holds update next) s (next s) (update s)
  | child {before after : List (Job α)} {j j' : Job α} {next : List α → Job α} {s s' : Session}
      (h : Step j s j' s') :
      Step (.fork (before ++ j :: after) next) s (.fork (before ++ j' :: after) next) s'
  | join {as : List α} {next : List α → Job α} {s : Session} :
      Step (.fork (as.map .done) next) s (next as) s

theorem Step.first {j j' : Job α} {js : List (Job α)} {next : List α → Job α} {s s' : Session}
    (h : Step j s j' s') : Step (.fork (j :: js) next) s (.fork (j' :: js) next) s' :=
  @Step.child _ [] js _ _ _ _ _ h

theorem Step.second {i j j' : Job α} {js : List (Job α)} {next : List α → Job α} {s s' : Session}
    (h : Step j s j' s') : Step (.fork (i :: j :: js) next) s (.fork (i :: j' :: js) next) s' :=
  @Step.child _ [i] js _ _ _ _ _ h

theorem Step.joined {a : α} {next : List α → Job α} {s : Session} :
    Step (.fork [.done a] next) s (next [a]) s :=
  @Step.join _ [a] _ _

/-- Some steps of a job, in any order in which it never holds more permits than there are. -/
inductive Scheduled (workers : Nat) (j : Job α) (s : Session) : Nat → Job α → Session → Prop where
  | start : Scheduled workers j s 0 j s
  | step {n : Nat} {j₁ j₂ : Job α} {s₁ s₂ : Session} (before : Scheduled workers j s n j₁ s₁)
      (h : Step j₁ s₁ j₂ s₂) (enough : j₂.permits ≤ workers) : Scheduled workers j s (n + 1) j₂ s₂

end Job

namespace Event

/-- An event without anything that depends on the clock. -/
def withoutTimes : Event → Event
  | finished r => finished (r.map Result.withoutTimes)
  | e => e

/-- Whether an event is the call of a test case's body. -/
def isBody : Event → Bool
  | called call => call.hook = .test
  | _ => false

@[simp] theorem isBody_withoutTimes (e : Event) : e.withoutTimes.isBody = e.isBody := by
  cases e <;> rfl

end Event

/-- Whether a session follows another one by given events, up to times, and is as much stopped. -/
structure Session.Follows (stopped : Bool) (s s' : Session) (es : List Event) : Prop where
  stopped : s'.stopped = stopped
  events : ∃ new, s'.events = s.events ++ new ∧ new.map Event.withoutTimes = es

namespace Session.Follows

variable {stopped : Bool} {s s' s'' : Session} {es es' : List Event}

theorem refl (h : s.stopped = stopped) : s.Follows stopped s [] :=
  ⟨h, [], (List.append_nil _).symm, rfl⟩

theorem trans (h : s.Follows stopped s' es) (h' : s'.Follows stopped s'' es') :
    s.Follows stopped s'' (es ++ es') := by
  obtain ⟨-, new, hnew, rfl⟩ := h
  obtain ⟨going, new', hnew', rfl⟩ := h'
  exact ⟨going, new ++ new', by rw [hnew', hnew, List.append_assoc], List.map_append⟩

end Session.Follows

namespace Job

open scoped List

variable {α β γ : Type} {look : α → β} {stopped : Bool}

mutual

/-- What a job comes to, as far as can be looked at, the events that it logs up to times and the
number of its steps, in a run that is stopped from the start or never. No step takes more than one
permit, and only a step with a permit calls a body. -/
inductive Promises (look : α → β) (stopped : Bool) : Job α → β → List Event → Nat → Prop where
  | done {a : α} : Promises look stopped (.done a) (look a) [] 0
  | step {holds : Bool} {update : Session → Session} {next : Session → Job α} {b : β}
      {es rest : List Event} {n : Nat}
      (logs : ∀ s : Session, s.stopped = stopped → s.Follows stopped (update s) es)
      (held : ∀ e ∈ es, e.isBody = true → holds = true)
      (alone : ∀ s, s.stopped = stopped → (next s).permits ≤ 1)
      (after : ∀ s, s.stopped = stopped → Promises look stopped (next s) b rest n) :
      Promises look stopped (.step holds update next) b (es ++ rest) (n + 1)
  | fork {jobs : List (Job α)} {next : List α → Job α} {b : β} {bs : List β}
      {es rest : List Event} {m n : Nat} (each : PromisesEach look stopped jobs bs es m)
      (alone : ∀ as, as.map look = bs → (next as).permits ≤ 1)
      (after : ∀ as, as.map look = bs → Promises look stopped (next as) b rest n) :
      Promises look stopped (.fork jobs next) b (es ++ rest) (m + n + 1)

inductive PromisesEach (look : α → β) (stopped : Bool) :
    List (Job α) → List β → List Event → Nat → Prop where
  | nil : PromisesEach look stopped [] [] [] 0
  | cons {j : Job α} {js : List (Job α)} {b : β} {bs : List β} {es es' : List Event} {m n : Nat}
      (first : Promises look stopped j b es m) (rest : PromisesEach look stopped js bs es' n) :
      PromisesEach look stopped (j :: js) (b :: bs) (es ++ es') (m + n)

end

variable {j j' : Job α} {js before after : List (Job α)} {b : β} {bs : List β} {es : List Event}
  {n workers : Nat} {s s' : Session}

/-- A job alone comes to what it promises, with its events in order. -/
theorem Promises.run (h : Promises look stopped j b es n) (going : s.stopped = stopped) :
    look (j.run s).1 = b ∧ s.Follows stopped (j.run s).2 es := by
  induction h using Promises.rec (motive_2 := fun js bs es _ _ => ∀ s : Session,
    s.stopped = stopped → (runEach js s).1.map look = bs ∧
      s.Follows stopped (runEach js s).2 es) generalizing s with
  | done => exact ⟨rfl, .refl going⟩
  | step logs _ _ _ ih =>
    have first := logs s going
    obtain ⟨result, rest⟩ := ih s going first.stopped
    exact ⟨result, first.trans rest⟩
  | fork _ _ _ ih ih' =>
    obtain ⟨results, first⟩ := ih s going
    obtain ⟨result, rest⟩ := ih' _ results first.stopped
    exact ⟨result, first.trans rest⟩
  | nil s going => exact ⟨rfl, .refl going⟩
  | cons _ _ ih ih' s going =>
    obtain ⟨result, first⟩ := ih going
    obtain ⟨results, rest⟩ := ih' _ first.stopped
    exact ⟨List.cons_eq_cons.mpr ⟨result, results⟩, first.trans rest⟩

/-- One of several jobs may be replaced by another that promises the same result. -/
theorem PromisesEach.split (h : PromisesEach look stopped (before ++ j :: after) bs es n) :
    ∃ b es₁ es₂ es₃ k m, es = es₁ ++ es₂ ++ es₃ ∧ n = k + m ∧ Promises look stopped j b es₂ m ∧
      ∀ j' es' m', Promises look stopped j' b es' m' →
        PromisesEach look stopped (before ++ j' :: after) bs (es₁ ++ es' ++ es₃) (k + m') := by
  induction before generalizing bs es n with
  | nil =>
    cases h with
    | @cons _ _ b bs es es' m n first rest =>
      refine ⟨b, [], es, es', n, m, by simp, Nat.add_comm m n, first, fun j' es' m' h => ?_⟩
      rw [Nat.add_comm]
      exact .cons h rest
  | cons i before ih =>
    cases h with
    | @cons _ _ b bs es es' m n first rest =>
      obtain ⟨b', es₁, es₂, es₃, k, m', rfl, rfl, h, replace⟩ := ih rest
      refine ⟨b', es ++ es₁, es₂, es₃, m + k, m', by simp, (Nat.add_assoc ..).symm, h,
        fun j' es' m' h => ?_⟩
      rw [Nat.add_assoc, List.append_assoc, List.append_assoc, ← List.append_assoc es₁]
      exact .cons first (replace j' es' m' h)

theorem PromisesEach.done {as : List α} (h : PromisesEach look stopped (as.map .done) bs es n) :
    as.map look = bs ∧ es = [] ∧ n = 0 := by
  induction as generalizing bs es n with
  | nil =>
    cases h
    exact ⟨rfl, rfl, rfl⟩
  | cons a as ih =>
    cases h with
    | cons first rest =>
      cases first
      obtain ⟨rfl, rfl, rfl⟩ := ih rest
      exact ⟨rfl, rfl, rfl⟩

/-- Whichever step a job takes, what it promises stays the same apart from the order. -/
theorem Promises.step_of (h : Promises look stopped j b es n) (step : Step j s j' s')
    (going : s.stopped = stopped) :
    ∃ new rest m, s.Follows stopped s' new ∧ Promises look stopped j' b rest m ∧
      (new ++ rest).Perm es ∧ n = m + 1 := by
  induction step generalizing b es n with
  | act =>
    cases h with
    | step logs _ _ after => exact ⟨_, _, _, logs _ going, after _ going, .refl _, rfl⟩
  | child _ ih =>
    cases h with
    | @fork _ _ _ _ es rest m n each alone after =>
      obtain ⟨b', es₁, es₂, es₃, k, l, rfl, rfl, child, replace⟩ := each.split
      obtain ⟨new, rest', l', follows, promised, perm, rfl⟩ := ih child going
      refine ⟨new, _, _, follows, .fork (replace _ _ _ promised) alone after, ?_, by omega⟩
      calc new ++ (es₁ ++ rest' ++ es₃ ++ rest)
        _ = new ++ (es₁ ++ (rest' ++ es₃ ++ rest)) := by simp
        _ ~ es₁ ++ (new ++ (rest' ++ es₃ ++ rest)) := List.perm_append_comm_assoc ..
        _ = es₁ ++ ((new ++ rest') ++ (es₃ ++ rest)) := by simp
        _ ~ es₁ ++ (es₂ ++ (es₃ ++ rest)) := (perm.append_right _).append_left _
        _ = es₁ ++ es₂ ++ es₃ ++ rest := by simp
  | join =>
    cases h with
    | fork each _ after =>
      obtain ⟨rfl, rfl, rfl⟩ := each.done
      refine ⟨[], _, _, .refl going, after _ rfl, .refl _, ?_⟩
      rw [Nat.zero_add]

theorem permits_le_permitsEach (before : List (Job α)) (j : Job α) (after : List (Job α)) :
    j.permits ≤ permitsEach (before ++ j :: after) := by
  induction before with
  | nil => exact Nat.le_add_right ..
  | cons i before ih => exact Nat.le_trans ih (Nat.le_add_left ..)

theorem Promises.held (h : Promises look stopped j b es n) (step : Step j s j' s')
    (going : s.stopped = stopped) :
    ∃ new, s'.events = s.events ++ new ∧ ∀ e ∈ new, e.isBody = true → 0 < j.permits := by
  induction step generalizing b es n with
  | @act holds =>
    cases h with
    | step logs held =>
      obtain ⟨-, new, hnew, rfl⟩ := logs _ going
      refine ⟨new, hnew, fun e he body => ?_⟩
      obtain rfl : holds = true :=
        held _ (List.mem_map_of_mem he) (by rw [Event.isBody_withoutTimes, body])
      exact Nat.one_pos
  | child _ ih =>
    cases h with
    | fork each =>
      obtain ⟨_, _, _, _, _, _, -, -, promised, -⟩ := each.split
      obtain ⟨new, hnew, held⟩ := ih promised going
      refine ⟨new, hnew, fun e he body => Nat.lt_of_lt_of_le (held e he body) ?_⟩
      exact permits_le_permitsEach _ _ _
  | join => exact ⟨[], (List.append_nil _).symm, List.forall_mem_nil _⟩

/-- A job can go on without a permit that is not there: one that holds a permit goes first. -/
def GoesOn (stopped : Bool) (j : Job α) : Prop :=
  ∀ s : Session, s.stopped = stopped →
    ∃ j' s', Step j s j' s' ∧ j'.permits ≤ max j.permits 1

def OneGoesOn (stopped : Bool) (js : List (Job α)) : Prop :=
  ∀ s : Session, s.stopped = stopped → ∃ before j after j' s', js = before ++ j :: after ∧
    Step j s j' s' ∧ permitsEach (before ++ j' :: after) ≤ max (permitsEach js) 1

theorem permitsEach_done (as : List α) : permitsEach (as.map .done) = 0 := by
  induction as with
  | nil => rfl
  | cons a as ih => rw [List.map_cons, permitsEach, permits, ih]

theorem GoesOn.oneGoesOn (h : GoesOn stopped j) (js : List (Job α))
    (first : 0 < j.permits ∨ permitsEach js = 0) : OneGoesOn stopped (j :: js) := by
  intro s going
  obtain ⟨j', s', step, enough⟩ := h s going
  refine ⟨[], j, js, j', s', rfl, step, ?_⟩
  simp only [List.nil_append, permitsEach]
  omega

theorem OneGoesOn.cons (h : OneGoesOn stopped js) (j : Job α)
    (later : 0 < permitsEach js ∨ j.permits = 0) : OneGoesOn stopped (j :: js) := by
  intro s going
  obtain ⟨before, i, after, i', s', rfl, step, enough⟩ := h s going
  refine ⟨j :: before, i, after, i', s', rfl, step, ?_⟩
  simp only [List.cons_append, permitsEach]
  omega

theorem Promises.done_or_goesOn (h : Promises look stopped j b es n) :
    (∃ a, j = .done a) ∨ GoesOn stopped j := by
  induction h using Promises.rec (motive_2 := fun js _ _ _ _ =>
    (∃ as : List α, js = as.map .done) ∨ OneGoesOn stopped js) with
  | done => exact .inl ⟨_, rfl⟩
  | step _ _ alone =>
    exact .inr fun s going => ⟨_, _, .act, Nat.le_trans (alone s going) (Nat.le_max_right ..)⟩
  | fork each alone _ ih =>
    refine .inr fun s going => ?_
    rcases ih with ⟨as, rfl⟩ | ih
    · exact ⟨_, s, .join, Nat.le_trans (alone as each.done.1) (Nat.le_max_right ..)⟩
    · obtain ⟨before, i, after, i', s', rfl, step, enough⟩ := ih s going
      exact ⟨_, s', .child step, enough⟩
  | nil => exact .inl ⟨[], rfl⟩
  | @cons j js _ _ _ _ _ _ _ _ ih ih' =>
    rcases ih with ⟨a, rfl⟩ | first
    · rcases ih' with ⟨as, rfl⟩ | rest
      · exact .inl ⟨a :: as, rfl⟩
      · exact .inr (rest.cons _ (.inr rfl))
    · rcases ih' with ⟨as, rfl⟩ | rest
      · exact .inr (first.oneGoesOn _ (.inr (permitsEach_done as)))
      · by_cases holds : 0 < permitsEach js
        · exact .inr (rest.cons _ (.inl holds))
        · exact .inr (first.oneGoesOn _ (.inr (Nat.eq_zero_of_not_pos holds)))

/-- After some steps a job has logged a part of what it promised and promises the rest. -/
theorem Promises.of_scheduled {k : Nat} (h : Promises look stopped j b es n)
    (scheduled : Scheduled workers j s k j' s') (going : s.stopped = stopped) :
    ∃ new rest m, s.Follows stopped s' new ∧ Promises look stopped j' b rest m ∧
      (new ++ rest).Perm es ∧ n = m + k := by
  induction scheduled with
  | start => exact ⟨[], es, n, .refl going, h, .refl _, rfl⟩
  | step _ step _ ih =>
    obtain ⟨new, rest, m, follows, promised, perm, rfl⟩ := ih
    obtain ⟨new', rest', m', follows', promised', perm', rfl⟩ :=
      promised.step_of step follows.stopped
    refine ⟨new ++ new', rest', m', follows.trans follows', promised', ?_, by omega⟩
    rw [List.append_assoc]
    exact (perm'.append_left new).trans perm

theorem Promises.held_of_scheduled {k : Nat} {j'' : Job α} {s'' : Session}
    (h : Promises look stopped j b es n) (scheduled : Scheduled workers j s k j' s')
    (going : s.stopped = stopped) (step : Step j' s' j'' s'') :
    ∃ new, s''.events = s'.events ++ new ∧ ∀ e ∈ new, e.isBody = true → 0 < j'.permits := by
  obtain ⟨_, _, _, follows, promised, -, -⟩ := h.of_scheduled scheduled going
  exact promised.held step follows.stopped

theorem Scheduled.permits_le (h : Scheduled workers j s n j' s') (enough : j.permits ≤ workers) :
    j'.permits ≤ workers := by
  cases h with
  | start => exact enough
  | step _ _ enough => exact enough

/-- Every schedule of a job goes on to its last step, and all of them come to the same. -/
theorem Promises.schedules (h : Promises look stopped j b es n) (going : s.stopped = stopped)
    (some : 0 < workers) {k : Nat} (scheduled : Scheduled workers j s k j' s')
    (enough : j.permits ≤ workers) :
    k ≤ n ∧ j'.permits ≤ workers ∧
      (k < n → ∃ j'' s'', Step j' s' j'' s'' ∧ j''.permits ≤ workers) ∧
      (k = n → ∃ a new, j' = .done a ∧ look a = b ∧ s.Follows stopped s' new ∧ new.Perm es) := by
  obtain ⟨new, rest, m, follows, promised, perm, rfl⟩ := h.of_scheduled scheduled going
  have held := scheduled.permits_le enough
  refine ⟨Nat.le_add_left .., held, fun more => ?_, fun last => ?_⟩
  · rcases promised.done_or_goesOn with ⟨a, rfl⟩ | goesOn
    · cases promised
      omega
    · obtain ⟨j'', s'', step, fewer⟩ := goesOn s' follows.stopped
      exact ⟨j'', s'', step, by omega⟩
  · obtain rfl : m = 0 := by omega
    cases promised with
    | done =>
      rw [List.append_nil] at perm
      exact ⟨_, new, rfl, rfl, follows, perm⟩

end Job

end TestScheduler

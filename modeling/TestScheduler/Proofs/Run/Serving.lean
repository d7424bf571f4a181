import Mathlib.Data.List.Perm.Subperm
import TestScheduler.Proofs.Run.Growth

/-! # Serving items

Between the steps that serve an item there may be others, and all that an item can rely on is that
the run goes on from one session to the next. `Invoker.Served` says what may have come of items by
the last session of a run. This holds if they were served one after another as well as in every
schedule, so that facts about both are proved by one induction.
-/

namespace TestScheduler

variable {Expression : Type} [Pattern.Dialect Expression]

/-- Whether a log tells of a call of a node's hook that ended in a certain way. -/
structure Invoker.Answers (invoker : Invoker) (log : List Event) (hook : Hook) (n : Node)
    (call : Call) (ending : Except Failure Outcome) : Prop where
  hook : call.hook = hook
  node : call.node = n
  gave : ∃ response, invoker.Gave log call response ∧ response.ending.guarded = ending

namespace Job

open scoped List

variable {α γ : Type} {last s s' : Session} {j j' next : Job α} {jobs before after : List (Job α)}
  {a : α} {as : List α} {es new : List Event} {workers n : Nat}

mutual

/-- What a job can come to and which events it logs meanwhile, if others may go in between and all
that happens precedes a given session. -/
inductive Ends (last : Session) : Job α → α → List Event → Prop where
  | done {a : α} : Ends last (.done a) a []
  | step {holds : Bool} {update : Session → Session} {next : Session → Job α} {a : α}
      {s : Session} {new es : List Event} (logs : (update s).events = s.events ++ new)
      (before : (update s).Precedes last) (after : Ends last (next s) a es) :
      Ends last (.step holds update next) a (new ++ es)
  | fork {jobs : List (Job α)} {next : List α → Job α} {as : List α} {a : α} {es es' : List Event}
      (each : EndsEach last jobs as es) (after : Ends last (next as) a es') :
      Ends last (.fork jobs next) a (es ++ es')

inductive EndsEach (last : Session) : List (Job α) → List α → List Event → Prop where
  | nil : EndsEach last [] [] []
  | cons {j : Job α} {js : List (Job α)} {a : α} {as : List α} {es es' : List Event}
      (first : Ends last j a es) (rest : EndsEach last js as es') :
      EndsEach last (j :: js) (a :: as) (es ++ es')

end

theorem endsEach_done (as : List α) : EndsEach last (as.map .done) as [] := by
  induction as with
  | nil => exact .nil
  | cons a as ih => exact .cons .done ih

theorem EndsEach.split (h : EndsEach last (before ++ j :: after) as es) :
    ∃ a es₁ es₂ es₃, es = es₁ ++ es₂ ++ es₃ ∧ Ends last j a es₂ ∧
      ∀ j' es', Ends last j' a es' →
        EndsEach last (before ++ j' :: after) as (es₁ ++ es' ++ es₃) := by
  induction before generalizing as es with
  | nil =>
    cases h with
    | @cons _ _ a as es es' first rest =>
      exact ⟨a, [], es, es', rfl, first, fun j' es' h => .cons h rest⟩
  | cons i before ih =>
    cases h with
    | @cons _ _ _ _ es es' first rest =>
      obtain ⟨a, es₁, es₂, es₃, rfl, h, replace⟩ := ih rest
      refine ⟨a, es ++ es₁, es₂, es₃, by simp, h, fun j' es' h => ?_⟩
      rw [List.append_assoc, List.append_assoc, ← List.append_assoc es₁]
      exact .cons first (replace j' es' h)

/-- What a job can come to after a step it could come to before, in another order. -/
theorem Step.ends (step : Step j s j' s') (grows : j.Grows) (longer : s'.Precedes last)
    (h : Ends last j' a es) :
    ∃ new es', s'.events = s.events ++ new ∧ Ends last j a es' ∧ (new ++ es).Perm es' := by
  induction step generalizing a es with
  | @act _ update _ s =>
    cases grows with
    | step grows =>
      obtain ⟨new, logs⟩ := (grows s).events
      exact ⟨new, new ++ es, logs.symm, .step logs.symm longer h, .refl _⟩
  | child _ ih =>
    cases grows with
    | fork grows =>
      have child := grows _ (List.mem_append_right _ List.mem_cons_self)
      cases h with
      | @fork _ _ _ _ _ rest each after =>
        obtain ⟨a, es₁, es₂, es₃, rfl, ends, replace⟩ := each.split
        obtain ⟨new, es', logs, ends, perm⟩ := ih child longer ends
        refine ⟨new, es₁ ++ es' ++ es₃ ++ rest, logs, .fork (replace _ _ ends) after, ?_⟩
        calc new ++ (es₁ ++ es₂ ++ es₃ ++ rest)
          _ = new ++ (es₁ ++ (es₂ ++ es₃ ++ rest)) := by simp
          _ ~ es₁ ++ (new ++ (es₂ ++ es₃ ++ rest)) := List.perm_append_comm_assoc ..
          _ = es₁ ++ ((new ++ es₂) ++ (es₃ ++ rest)) := by simp
          _ ~ es₁ ++ (es' ++ (es₃ ++ rest)) := (perm.append_right _).append_left _
          _ = es₁ ++ es' ++ es₃ ++ rest := by simp
  | join => exact ⟨[], es, (List.append_nil _).symm, .fork (endsEach_done _) h, .refl _⟩

theorem Scheduled.ends (scheduled : Scheduled workers j s n j' s') (grows : j.Grows)
    (longer : s'.Precedes last) (h : Ends last j' a es) :
    ∃ new es', s'.events = s.events ++ new ∧ Ends last j a es' ∧ (new ++ es).Perm es' := by
  induction scheduled generalizing es with
  | start => exact ⟨[], es, (List.append_nil _).symm, h, .refl _⟩
  | step earlier step _ ih =>
    obtain ⟨-, now⟩ := grows.of_scheduled earlier
    obtain ⟨new', es', logs', h, perm'⟩ := step.ends now longer h
    obtain ⟨new, es, logs, ends, perm⟩ := ih ((now.step_of step).1.trans longer) h
    refine ⟨new ++ new', es, by rw [logs', logs, List.append_assoc], ends, ?_⟩
    rw [List.append_assoc]
    exact (perm'.append_left new).trans perm

/-- Whether a job that runs alone goes on from the session that it finds and comes to its end. -/
def EndsAlone (j : Job α) : Prop :=
  ∀ s, s.Precedes (j.run s).2 ∧ ∀ last, (j.run s).2.Precedes last →
    ∃ es, (j.run s).2.events = s.events ++ es ∧ Ends last j (j.run s).1 es

theorem endsEach_runEach (each : ∀ j ∈ jobs, j.EndsAlone) (s : Session) :
    s.Precedes (runEach jobs s).2 ∧ ∀ last, (runEach jobs s).2.Precedes last →
      ∃ es, (runEach jobs s).2.events = s.events ++ es ∧
        EndsEach last jobs (runEach jobs s).1 es := by
  induction jobs generalizing s with
  | nil => exact ⟨.refl s, fun last _ => ⟨[], (List.append_nil _).symm, .nil⟩⟩
  | cons j js ih =>
    obtain ⟨first, rest⟩ := List.forall_mem_cons.mp each
    obtain ⟨longer, first⟩ := first s
    obtain ⟨longer', rest⟩ := ih rest (j.run s).2
    refine ⟨longer.trans longer', fun last longest => ?_⟩
    obtain ⟨es, logs, ends⟩ := first last (longer'.trans longest)
    obtain ⟨es', logs', ends'⟩ := rest last longest
    exact ⟨es ++ es', by rw [runEach, logs', logs, List.append_assoc], .cons ends ends'⟩

theorem Grows.endsAlone (h : j.Grows) : j.EndsAlone := by
  induction h with
  | done => exact fun s => ⟨.refl s, fun last _ => ⟨[], (List.append_nil _).symm, .done⟩⟩
  | @step _ update next longer _ ih =>
    intro s
    obtain ⟨later, ends⟩ := ih s (update s)
    refine ⟨(longer s).trans later, fun last longest => ?_⟩
    obtain ⟨new, logs⟩ := (longer s).events
    obtain ⟨es, logs', ends⟩ := ends last longest
    refine ⟨new ++ es, ?_, .step logs.symm (later.trans longest) ends⟩
    rw [Job.run, logs', ← logs, List.append_assoc]
  | @fork jobs next _ _ ihEach ih =>
    intro s
    obtain ⟨longer, each⟩ := endsEach_runEach ihEach s
    obtain ⟨later, ends⟩ := ih (runEach jobs s).1 (runEach jobs s).2
    refine ⟨longer.trans later, fun last longest => ?_⟩
    obtain ⟨es, logs, each⟩ := each last (later.trans longest)
    obtain ⟨es', logs', ends⟩ := ends last longest
    exact ⟨es ++ es', by rw [Job.run, logs', logs, List.append_assoc], .fork each ends⟩

/-- Whether a job can come to nothing but what has a property together with what it logs. -/
def Yields (last : Session) (P : α → List Event → Prop) (j : Job α) : Prop :=
  ∀ a es, Ends last j a es → P a es

variable {P : α → List Event → Prop} {holds : Bool}

theorem Yields.done (h : P a []) : Yields last P (.done a) := by
  intro b es ends
  cases ends
  exact h

theorem Yields.act (new : Session → List Event) {f : Session → γ × Session} {next : γ → Job α}
    (logs : ∀ s, (f s).2.events = s.events ++ new s)
    (after : ∀ s, (f s).2.Precedes last →
      Yields last (fun a es => P a (new s ++ es)) (next (f s).1)) :
    Yields last P (.act holds f next) := by
  intro a es ends
  cases ends with
  | @step _ _ _ _ s new _ logs' before ends =>
    obtain rfl := List.append_cancel_left ((logs s).symm.trans logs')
    exact after s before a _ ends

theorem Yields.report (h : Yields last (fun a es' => P a (es ++ es')) next) (holds : Bool) :
    Yields last P (.report holds next es) := by
  induction es generalizing P with
  | nil => exact h
  | cons e es ih =>
    intro a _ ends
    cases ends with
    | @step _ _ _ _ s _ _ logs _ ends =>
      obtain rfl := List.append_cancel_left logs
      have rest : Yields last (fun a es' => P a (e :: es')) (.report holds next es) := ih h
      exact rest a _ ends

theorem Yields.fork {next : List α → Job α}
    (after : ∀ as es, EndsEach last jobs as es →
      Yields last (fun a es' => P a (es ++ es')) (next as)) :
    Yields last P (.fork jobs next) := by
  intro a _ ends
  cases ends with
  | fork each ends => exact after _ _ each a _ ends

end Job

namespace Invoker

open Dispatcher

mutual

/-- What may have come of items, with the events that they have added to the log, by the last
session of a run. -/
inductive Served (invoker : Invoker) (last : Session) :
    WorkTree → ResultTree → List Event → Prop where
  | cancelled {t : WorkTree} (stopped : last.stopped = true) :
      Served invoker last t (t.unstarted .cancelled cancelledMessage)
        (t.unstarted .cancelled cancelledMessage).finishes
  | skipped {t : WorkTree} {v : Verdict} {reason : Option String}
      (skip : t.value.skip? = some (v, reason)) :
      Served invoker last t (t.unstarted v reason) (t.unstarted v reason).finishes
  | leaf {item : WorkItem} {below : List WorkTree} {call : Call} {body : Except Failure Outcome}
      {startMs endMs : Nat} {r : ResultTree} (skip : item.skip? = none)
      (leaf : item.node.isSuite = false)
      (called : invoker.Answers last.events .test item.node call body)
      (result : r = .node ((Result.ofBody item.node body).withTimes startMs endMs) []) :
      Served invoker last (.node item below) r [.started item.node, .called call, .finished r]
  | suite {item : WorkItem} {below : List WorkTree} {suite : OpenSuite} {call call' : Call}
      {rs : List ResultTree} {es : List Event} {tearDown : Except Failure Outcome} {endMs : Nat}
      {r : ResultTree} (skip : item.skip? = none) (isSuite : item.node.isSuite = true)
      (same : suite.item.node = item.node)
      (opened : invoker.Answers last.events .setUp item.node call suite.setUp)
      (children : ServedBelow invoker last suite.setUp below rs es)
      (closed : invoker.Answers last.events .tearDown item.node call' tearDown)
      (result : r = .node (suite.close rs tearDown endMs) rs) :
      Served invoker last (.node item below) r
        (.started item.node :: .called call :: (es ++ [.called call', .finished r]))

/-- What may have come of the items below a suite whose setup ended in a certain way. -/
inductive ServedBelow (invoker : Invoker) (last : Session) :
    Except Failure Outcome → List WorkTree → List ResultTree → List Event → Prop where
  | unstarted {failure : Failure} {ts : List WorkTree} {rs : List ResultTree}
      (results : rs = ts.map (WorkTree.unstarted (setUpVerdict failure) (setUpMessage failure))) :
      ServedBelow invoker last (.error failure) ts rs (ResultTree.finishesEach rs)
  | nil {outcome : Outcome} : ServedBelow invoker last (.ok outcome) [] [] []
  | cons {outcome : Outcome} {t : WorkTree} {ts : List WorkTree} {r : ResultTree}
      {rs : List ResultTree} {es es' : List Event} (first : Served invoker last t r es)
      (rest : ServedBelow invoker last (.ok outcome) ts rs es') :
      ServedBelow invoker last (.ok outcome) (t :: ts) (r :: rs) (es ++ es')

end

theorem answers_of_call (invoker : Invoker) {hook : Hook} {n : Node} {c : Context}
    {s last : Session} (before : (s.call invoker hook n c).2.2.Precedes last) :
    invoker.Answers last.events hook n ⟨hook, n, c, s.stopped⟩ (s.call invoker hook n c).1 :=
  ⟨rfl, rfl, _, ⟨s.events, before.events, rfl⟩, rfl⟩

end Invoker

/-- Whether given items have come to their end. -/
def Ended.Served (invoker : Invoker) (last : Session) (t : WorkTree) (a : Ended)
    (es : List Event) : Prop :=
  a.fault = none ∧ ∃ r, a.tree.result = .ok r ∧ invoker.Served last t r es

theorem Progress.Gives.served {invoker : Invoker} {last : Session} {t : WorkTree}
    {p : Progress WorkTree} {r : ResultTree} {s : Session} {es : List Event}
    (h : p.Gives WorkTree.result r s) (served : invoker.Served last t r es) :
    Ended.Served invoker last t ⟨p.value, p.fault⟩ es :=
  ⟨h.fault, r, h.value, served⟩

namespace Dispatcher

open Job WorkTree

variable {d : Dispatcher} {item : WorkItem} {below ts : List WorkTree} {t : WorkTree}
  {c : Context} {suite : OpenSuite} {holds : Bool} {last : Session} {call : Call}
  {es : List Event}

theorem yields_finishJob (h : t.Fresh) {v : Verdict} {message : Option String}
    (served : d.invoker.Served last t (t.unstarted v message) (t.unstarted v message).finishes) :
    Yields last (Ended.Served d.invoker last t) (finishJob holds v message t) := by
  have gives := h.finishUnstarted_gives v message {}
  have logged : (finishUnstarted v message t {}).session.events =
      (t.unstarted v message).finishes := by
    rw [gives.session]
    rfl
  simp only [finishJob, logged]
  refine .report (.done ?_) _
  rw [List.append_nil]
  exact gives.served served

theorem yields_unlessStopped (h : t.Fresh) {next : Job Ended}
    (after : Yields last (Ended.Served d.invoker last t) next) :
    Yields last (Ended.Served d.invoker last t) (d.unlessStopped holds t next) := by
  refine .act (fun _ => []) (fun s => by simp) fun s before => ?_
  cases stopped : (d.observeDeadline s).stopped with
  | true => exact yields_finishJob h (.cancelled (before.stopped stopped))
  | false => exact after

theorem yields_last {f : Session → Progress WorkTree} {r : Session → ResultTree}
    {P : Ended → List Event → Prop}
    (gives : ∀ s : Session, ∃ s' : Session, (f s).Gives result (r s) s' ∧
      s'.events = s.events ++ [.finished (r s)])
    (after : ∀ s a, a.fault = none → a.tree.result = .ok (r s) → P a [.finished (r s)]) :
    Yields last P (.last f) := by
  refine .act (fun s => [.finished (r s)]) (fun s => ?_) fun s _ => .done ?_
  · obtain ⟨s', gives, logs⟩ := gives s
    rw [gives.session, logs]
  · obtain ⟨s', gives, -⟩ := gives s
    exact after s _ gives.fault gives.value

theorem yields_startLeaf (stage : item.stage = .ready) (result : item.result = none)
    (skip : item.skip? = none) (leaf : item.node.isSuite = false) :
    Yields last (Ended.Served d.invoker last (.node item below)) (d.startLeaf item below c) := by
  simp only [startLeaf, advance_running stage]
  refine .act (fun _ => [.started item.node]) (fun _ => rfl) fun s _ => ?_
  refine .act (fun s => [.called ⟨.test, item.node, c, s.stopped⟩]) (fun _ => rfl)
    fun s before => ?_
  refine yields_last (fun s => ⟨_, conclude_gives (open_moved result) .., rfl⟩) ?_
  intro _ a fault read
  exact ⟨fault, _, read, .leaf skip leaf (d.invoker.answers_of_call before) rfl⟩

theorem yields_closeJob (isOpen : suite.item.Open) (same : suite.item.node = item.node)
    (skip : item.skip? = none) (isSuite : item.node.isSuite = true)
    (opened : d.invoker.Answers last.events .setUp item.node call suite.setUp)
    {rs : List ResultTree} (hrs : results ts = .ok rs)
    (children : d.invoker.ServedBelow last suite.setUp below rs es) :
    Yields last (fun a es' => Ended.Served d.invoker last (.node item below) a
      (.started item.node :: .called call :: (es ++ es'))) (d.closeJob suite ts) := by
  refine .act (fun s => [.called ⟨.tearDown, suite.item.node, suite.context, s.stopped⟩])
    (fun _ => rfl) fun s before => ?_
  refine yields_last (fun s => ⟨_, concludeWith_gives isOpen hrs .., rfl⟩) ?_
  intro _ a fault read
  have closed := d.invoker.answers_of_call before
  exact ⟨fault, _, read, .suite skip isSuite same opened children { closed with node := same } rfl⟩

theorem served_of_endsEach (outcome : Outcome) {as : List Ended}
    (each : ∀ t ∈ ts, ∀ c, Yields last (Ended.Served d.invoker last t) (d.job t c))
    (ended : EndsEach last (d.jobs ts c) as es) :
    Ended.fault? as = none ∧ ∃ rs, results (as.map (·.tree)) = .ok rs ∧
      d.invoker.ServedBelow last (.ok outcome) ts rs es := by
  induction ts generalizing as es with
  | nil =>
    cases ended
    exact ⟨rfl, [], results_nil, .nil⟩
  | cons t ts ih =>
    obtain ⟨first, rest⟩ := List.forall_mem_cons.mp each
    cases ended with
    | cons firstEnded restEnded =>
      obtain ⟨fault, r, read, served⟩ := first _ _ _ firstEnded
      obtain ⟨faults, rs, reads, below⟩ := ih rest restEnded
      refine ⟨?_, r :: rs, results_cons read reads, .cons served below⟩
      rw [Ended.fault?, List.findSome?_cons, fault]
      exact faults

theorem yields_suiteJob (isOpen : suite.item.Open) (running : suite.item.stage = .running)
    (same : suite.item.node = item.node) (skip : item.skip? = none)
    (isSuite : item.node.isSuite = true)
    (opened : d.invoker.Answers last.events .setUp item.node call suite.setUp)
    (fresh : ∀ t ∈ below, t.Fresh)
    (each : ∀ t ∈ below, ∀ c, Yields last (Ended.Served d.invoker last t) (d.job t c)) :
    Yields last (fun a es => Ended.Served d.invoker last (.node item below) a
      (.started item.node :: .called call :: es)) (d.suiteJob below (d.jobs below) suite) := by
  unfold suiteJob
  split
  · next failure setUp =>
    have gives := Fresh.finishEachUnstarted_gives fresh (setUpVerdict failure)
      (setUpMessage failure) {}
    have logged : (finishEachUnstarted (setUpVerdict failure) (setUpMessage failure) below
        {}).session.events = ResultTree.finishesEach (below.map
          (unstarted (setUpVerdict failure) (setUpMessage failure))) := by
      rw [gives.session]
      rfl
    simp only [gives.fault, logged]
    refine .report (yields_closeJob isOpen same skip isSuite opened gives.value ?_) _
    rw [setUp]
    exact .unstarted rfl
  · next outcome setUp =>
    split
    · next empty =>
      obtain rfl := List.isEmpty_iff.mp empty
      have children : d.invoker.ServedBelow last suite.setUp [] [] [] := by
        rw [setUp]
        exact .nil
      exact yields_closeJob isOpen same skip isSuite opened results_nil children
    · have waits : suite.item.advance .waitingForChildren =
          .ok (suite.item.moved .waitingForChildren) := by
        simp [WorkItem.advance, running, Stage.allows, WorkItem.moved]
      have waiting : (suite.item.moved .waitingForChildren).Open :=
        ⟨by simp [WorkItem.moved], isOpen.result⟩
      simp only [waits]
      refine .fork fun as es ended => ?_
      obtain ⟨fault, rs, hrs, children⟩ := served_of_endsEach outcome each ended
      rw [fault]
      rw [← setUp] at children
      exact yields_closeJob waiting same skip isSuite opened hrs children

theorem yields_startSuite (fresh : Fresh (.node item below)) (skip : item.skip? = none)
    (isSuite : item.node.isSuite = true)
    (each : ∀ t ∈ below, ∀ c, Yields last (Ended.Served d.invoker last t) (d.job t c)) :
    Yields last (Ended.Served d.invoker last (.node item below))
      (d.startSuite item below (d.jobs below) c) := by
  obtain ⟨stage, result, fresh⟩ := fresh
  simp only [startSuite, advance_running stage]
  refine .act (fun _ => [.started item.node]) (fun _ => rfl) fun s _ => ?_
  refine .act (fun s => [.called ⟨.setUp, item.node, c.withSettings item.node.settings,
    s.stopped⟩]) (fun _ => rfl) fun s before => ?_
  exact yields_suiteJob (open_moved result) rfl rfl skip isSuite
    (d.invoker.answers_of_call before) fresh each

/-- However it is interleaved with others, the job of fresh items serves them. -/
theorem yields_job (fresh : t.Fresh) (c : Context) :
    Yields last (Ended.Served d.invoker last t) (d.job t c) := by
  induction t using Tree.induction generalizing c with
  | node item below ih =>
    obtain ⟨stage, result, each⟩ := id fresh
    rw [job]
    refine yields_unlessStopped fresh ?_
    unfold serve
    split
    · next skip => exact yields_finishJob fresh (.skipped skip)
    · next skip =>
      split
      · next leaf =>
        exact yields_unlessStopped fresh (yields_startLeaf stage result skip (by simpa using leaf))
      · next isSuite =>
        exact yields_startSuite fresh skip (by simpa using isSuite) fun t ht c =>
          ih t ht (each t ht) c

/-! ## From the first session to the last -/

variable {s s' : Session} {workers n : Nat}

theorem served_of_scheduled {a : Ended} (fresh : t.Fresh)
    (h : Scheduled workers (d.job t c) s n (.done a) s') :
    a.fault = none ∧ ∃ r new es, a.tree.result = .ok r ∧ s'.events = s.events ++ new ∧
      new.Perm es ∧ d.invoker.Served s' t r es := by
  obtain ⟨new, es, logs, ends, perm⟩ := h.ends (d.grows_job t c) (.refl s') .done
  obtain ⟨fault, r, read, served⟩ := yields_job fresh c a es ends
  rw [List.append_nil] at perm
  exact ⟨fault, r, new, es, read, logs, perm, served⟩

/-- A schedule that is broken off has done a part of what it could have come to. -/
theorem served_after_scheduled {j : Job Ended} (fresh : t.Fresh)
    (h : Scheduled workers (d.job t c) s n j s') :
    ∃ last r new es, s'.events = s.events ++ new ∧ new.Subperm es ∧
      d.invoker.Served last t r es := by
  obtain ⟨-, grows⟩ := (d.grows_job t c).of_scheduled h
  obtain ⟨longer, alone⟩ := grows.endsAlone s'
  obtain ⟨rest, -, ends⟩ := alone _ (.refl _)
  obtain ⟨new, es, logs, ends, perm⟩ := h.ends (d.grows_job t c) longer ends
  obtain ⟨-, r, -, served⟩ := yields_job fresh c _ es ends
  exact ⟨_, r, new, es, logs, (List.sublist_append_left new rest).subperm.trans perm.subperm,
    served⟩

theorem execute_served (fresh : t.Fresh) (d : Dispatcher) (c : Context) (s : Session) :
    ∃ r s' es, (d.execute t c s).Gives result r s' ∧ s'.events = s.events ++ es ∧
      d.invoker.Served s' t r es := by
  let several : Dispatcher := { d with workers := 2 }
  have ran : (several.job t c).run s = (d.execute t c s).ended := by
    rw [run_job rfl, execute_workers fresh]
  obtain ⟨-, alone⟩ := (several.grows_job t c).endsAlone s
  obtain ⟨es, logs, ends⟩ := alone _ (.refl _)
  obtain ⟨fault, r, read, served⟩ := yields_job fresh c _ es ends
  rw [ran] at fault read logs served
  exact ⟨r, _, es, ⟨fault, read, rfl⟩, logs, served⟩

end Dispatcher

namespace RunOptions

variable (o : RunOptions) (invoker : Invoker) (clock : Clock) (tree : TestTree) (f : Filter)

/-- A whole run as a job. -/
def job : Job Ended :=
  (o.dispatcher invoker clock).1.job (WorkTree.create f (Location.root tree))
    ((o.context tree.value).forChild tree.value)

theorem execute_served :
    ∃ r s, (o.execute invoker clock tree f).Gives WorkTree.result r s ∧
      invoker.Served s (WorkTree.create f (Location.root tree)) r s.events := by
  obtain ⟨r, s, es, gives, logs, served⟩ := Dispatcher.execute_served
    (WorkTree.fresh_create f (Location.root tree)) (o.dispatcher invoker clock).1
    ((o.context tree.value).forChild tree.value) (o.dispatcher invoker clock).2
  rw [events_dispatcher, List.nil_append] at logs
  rw [invoker_dispatcher, ← logs] at served
  exact ⟨r, s, gives, served⟩

variable {o invoker clock tree f} {workers n : Nat} {s : Session}

theorem served_of_scheduled {a : Ended}
    (h : Job.Scheduled workers (o.job invoker clock tree f) (o.dispatcher invoker clock).2 n
      (.done a) s) :
    a.fault = none ∧ ∃ r es, a.tree.result = .ok r ∧ s.events.Perm es ∧
      invoker.Served s (WorkTree.create f (Location.root tree)) r es := by
  obtain ⟨fault, r, new, es, read, logs, perm, served⟩ :=
    Dispatcher.served_of_scheduled (WorkTree.fresh_create f (Location.root tree)) h
  rw [events_dispatcher, List.nil_append] at logs
  rw [invoker_dispatcher] at served
  exact ⟨fault, r, es, read, logs ▸ perm, served⟩

theorem served_after_scheduled {j : Job Ended}
    (h : Job.Scheduled workers (o.job invoker clock tree f) (o.dispatcher invoker clock).2 n j s) :
    ∃ last r es, s.events.Subperm es ∧
      invoker.Served last (WorkTree.create f (Location.root tree)) r es := by
  obtain ⟨last, r, new, es, logs, part, served⟩ :=
    Dispatcher.served_after_scheduled (WorkTree.fresh_create f (Location.root tree)) h
  rw [events_dispatcher, List.nil_append] at logs
  rw [invoker_dispatcher] at served
  exact ⟨last, r, es, logs ▸ part, served⟩

end RunOptions

end TestScheduler

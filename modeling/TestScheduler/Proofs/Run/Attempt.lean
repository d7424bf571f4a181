import TestScheduler.Proofs.Run.Bodies
import TestScheduler.Proofs.Run.WriteOnce

/-! # Attempts

A call may meet items that have been executed before, and then it ends in a fault. `Attempts` says
what a call of a dispatcher that runs one item at a time may log, what it leaves of the items and
with which fault it ends. There is one rule for each way in which an item may be met, whichever
items hold test cases, so facts about calls in any order are proved by induction on it.
-/

namespace TestScheduler

variable {Expression : Type} [Pattern.Dialect Expression]

/-- Whether a log holds nothing but reports. -/
def Event.Idle (es : List Event) : Prop := ∀ e ∈ es, e.isFinished = true

/-- Whether an item has a result exactly if it is complete. -/
def WorkItem.Sound (item : WorkItem) : Prop := item.result.isSome = true ↔ item.stage = .complete

/-- The item with its result. -/
def WorkItem.concluded (item : WorkItem) (r : ResultTree) : WorkItem :=
  { item with stage := .complete, result := some r }

namespace WorkTree

/-- Whether all items of a tree are sound. -/
def Sound (t : WorkTree) : Prop := ∀ item ∈ t.preorder, item.Sound

def SoundEach (ts : List WorkTree) : Prop := ∀ t ∈ ts, t.Sound

mutual

/-- What an attempt to take a tree of items to its end may log and leave, and how it ends. -/
inductive Attempts : WorkTree → List Event → WorkTree → Option Fault → Prop where
  /-- The item has been started before. -/
  | refused {item : WorkItem} {below : List WorkTree} (stage : item.stage ≠ .ready) :
      Attempts (.node item below) [] (.node item below)
        (some (.illegalTransition item.node.fullName item.stage .running))
  /-- Items below a test case stay where they are. -/
  | leaf {item : WorkItem} {below : List WorkTree} {call : Call} {r : ResultTree}
      (isOpen : item.Open) (hook : call.hook = .test) (heading : r.value.id = item.node.id) :
      Attempts (.node item below) [.started item.node, .called call, .finished r]
        (.node (item.concluded r) below) none
  /-- A suite whose setup was called is left as it is when there is a fault below it. -/
  | left {item : WorkItem} {stage : Stage} {below below' : List WorkTree} {setUp : Call}
      {es : List Event} {fault : Fault} (isOpen : item.Open) (still : (item.moved stage).Open)
      (isSuite : item.node.isSuite = true) (hook : setUp.hook = .setUp)
      (node : setUp.node = item.node) (each : AttemptsEach below es below' (some fault)) :
      Attempts (.node item below) ([.started item.node, .called setUp] ++ es)
        (.node (item.moved stage) below') (some fault)
  | suite {item : WorkItem} {below below' : List WorkTree} {setUp tearDown : Call}
      {es : List Event} {r : ResultTree} (isOpen : item.Open)
      (isSuite : item.node.isSuite = true) (hook : setUp.hook = .setUp)
      (node : setUp.node = item.node) (each : AttemptsEach below es below' none)
      (hook' : tearDown.hook = .tearDown) (node' : tearDown.node = item.node)
      (heading : r.value.id = item.node.id) :
      Attempts (.node item below)
        ([.started item.node, .called setUp] ++ es ++ [.called tearDown, .finished r])
        (.node (item.concluded r) []) none
  /-- There is a fault below an item that is not started itself. -/
  | stuck {item : WorkItem} {below below' : List WorkTree} {es : List Event} {fault : Fault}
      (idle : Event.Idle es) (each : AttemptsEach below es below' (some fault)) :
      Attempts (.node item below) es (.node item below') (some fault)
  | unstarted {item : WorkItem} {below below' : List WorkTree} {es : List Event} {r : ResultTree}
      (isOpen : item.Open) (idle : Event.Idle es) (each : AttemptsEach below es below' none)
      (heading : r.value.id = item.node.id) :
      Attempts (.node item below) (es ++ [.finished r]) (.node (item.concluded r) []) none
  /-- An item that has a result is reported again, before its result is refused. -/
  | repeated {item : WorkItem} {below below' : List WorkTree} {es : List Event} {r : ResultTree}
      (done : item.result.isSome = true) (idle : Event.Idle es)
      (each : AttemptsEach below es below' none) (heading : r.value.id = item.node.id) :
      Attempts (.node item below) (es ++ [.finished r]) (.node item [])
        (some (.resultAlreadySet item.node.fullName))

/-- Attempts one after another, up to the first fault. -/
inductive AttemptsEach : List WorkTree → List Event → List WorkTree → Option Fault → Prop where
  | nil : AttemptsEach [] [] [] none
  | stop {t t' : WorkTree} {ts : List WorkTree} {es : List Event} {fault : Fault}
      (first : Attempts t es t' (some fault)) :
      AttemptsEach (t :: ts) es (t' :: ts) (some fault)
  | cons {t t' : WorkTree} {ts ts' : List WorkTree} {es es' : List Event} {fault : Option Fault}
      (first : Attempts t es t' none) (rest : AttemptsEach ts es' ts' fault) :
      AttemptsEach (t :: ts) (es ++ es') (t' :: ts') fault

end

variable {item : WorkItem} {below below' ts ts' : List WorkTree} {t t' : WorkTree}
  {es : List Event} {fault : Option Fault} {v : Verdict} {message : Option String} {s : Session}

theorem sound_node : Sound (.node item below) ↔ item.Sound ∧ SoundEach below := by
  unfold SoundEach Sound
  rw [Tree.preorder_eq_cons, List.forall_mem_cons, List.forall_mem_flatMap]

theorem open_or_done (h : item.Sound) :
    item.Open ∨ item.stage = .complete ∧ item.result.isSome = true := by
  by_cases stage : item.stage = .complete
  · exact .inr ⟨stage, h.mpr stage⟩
  · exact .inl ⟨stage, Option.not_isSome_iff_eq_none.mp fun some => stage (h.mp some)⟩

theorem sound_of_open (h : item.Open) : item.Sound :=
  ⟨fun some => by simp [h.result] at some, fun stage => absurd stage h.stage⟩

theorem sound_concluded (r : ResultTree) : (item.concluded r).Sound := ⟨fun _ => rfl, fun _ => rfl⟩

theorem soundEach_cons : SoundEach (t :: ts) ↔ t.Sound ∧ SoundEach ts := List.forall_mem_cons

theorem soundEach_nil : SoundEach [] := List.forall_mem_nil _

theorem Attempts.sound (h : Attempts t es t' fault) (sound : t.Sound) : t'.Sound := by
  induction h using Attempts.rec (motive_2 := fun ts _ ts' _ _ => SoundEach ts → SoundEach ts') with
  | refused => exact sound
  | leaf => exact sound_node.mpr ⟨sound_concluded _, (sound_node.mp sound).2⟩
  | left _ still _ _ _ _ ih =>
    exact sound_node.mpr ⟨sound_of_open still, ih (sound_node.mp sound).2⟩
  | suite | unstarted => exact sound_node.mpr ⟨sound_concluded _, soundEach_nil⟩
  | stuck _ _ ih =>
    obtain ⟨top, below⟩ := sound_node.mp sound
    exact sound_node.mpr ⟨top, ih below⟩
  | repeated => exact sound_node.mpr ⟨(sound_node.mp sound).1, soundEach_nil⟩
  | nil => exact soundEach_nil
  | stop _ ih sound =>
    obtain ⟨first, rest⟩ := soundEach_cons.mp sound
    exact soundEach_cons.mpr ⟨ih first, rest⟩
  | cons _ _ ih ih' sound =>
    obtain ⟨first, rest⟩ := soundEach_cons.mp sound
    exact soundEach_cons.mpr ⟨ih first, ih' rest⟩

theorem Attempts.exists_result (h : Attempts t es t' none) : ∃ r, t'.result = .ok r := by
  cases h with
  | leaf | suite | unstarted => exact ⟨_, rfl⟩

theorem AttemptsEach.exists_results (h : AttemptsEach ts es ts' none) :
    ∃ rs, results ts' = .ok rs := by
  induction ts generalizing es ts' with
  | nil =>
    cases h
    exact ⟨[], results_nil⟩
  | cons t ts ih =>
    cases h with
    | cons first rest =>
      obtain ⟨r, hr⟩ := first.exists_result
      obtain ⟨rs, hrs⟩ := ih rest
      exact ⟨r :: rs, results_cons hr hrs⟩

/-- Whether what a step leaves behind is what an attempt may leave. -/
def Tried (t : WorkTree) (s : Session) (p : Progress WorkTree) : Prop :=
  ∃ es, p.session.events = s.events ++ es ∧ Attempts t es p.value p.fault

def TriedEach (ts : List WorkTree) (s : Session) (p : Progress (List WorkTree)) : Prop :=
  ∃ es, p.session.events = s.events ++ es ∧ AttemptsEach ts es p.value p.fault

/-- Whether an attempt starts nothing. -/
def TriedIdly (t : WorkTree) (s : Session) (p : Progress WorkTree) : Prop :=
  ∃ es, p.session.events = s.events ++ es ∧ Event.Idle es ∧ Attempts t es p.value p.fault

def TriedEachIdly (ts : List WorkTree) (s : Session) (p : Progress (List WorkTree)) : Prop :=
  ∃ es, p.session.events = s.events ++ es ∧ Event.Idle es ∧ AttemptsEach ts es p.value p.fault

theorem TriedIdly.tried {p : Progress WorkTree} (h : t.TriedIdly s p) : t.Tried s p := by
  obtain ⟨es, hes, -, attempts⟩ := h
  exact ⟨es, hes, attempts⟩

theorem TriedEachIdly.tried {p : Progress (List WorkTree)} (h : TriedEachIdly ts s p) :
    TriedEach ts s p := by
  obtain ⟨es, hes, -, each⟩ := h
  exact ⟨es, hes, each⟩

theorem Tried.of_events {s' : Session} {p : Progress WorkTree} (h : t.Tried s p)
    (same : s.events = s'.events) : t.Tried s' p := by
  unfold Tried at h ⊢
  rwa [same] at h

theorem concludeWith_of_open (isOpen : item.Open) (each : AttemptsEach ts es below none)
    (make : List ResultTree → Session → ResultTree × Session)
    (quiet : ∀ rs, (make rs s).2.events = s.events)
    (made : ∀ rs, (make rs s).1.value.id = item.node.id) :
    ∃ r s', concludeWith item below s make = ⟨.node (item.concluded r) [], s', none⟩ ∧
      s'.events = s.events ++ [.finished r] ∧ r.value.id = item.node.id := by
  obtain ⟨rs, hrs⟩ := each.exists_results
  refine ⟨(make rs s).1, (make rs s).2.record (.finished (make rs s).1), ?_, ?_, made rs⟩
  · simp only [concludeWith, hrs, conclude, isOpen.complete]
    rfl
  · rw [Session.events_record, quiet]

theorem concludeWith_of_done (done : item.result.isSome = true)
    (each : AttemptsEach ts es below none)
    (make : List ResultTree → Session → ResultTree × Session)
    (quiet : ∀ rs, (make rs s).2.events = s.events)
    (made : ∀ rs, (make rs s).1.value.id = item.node.id) :
    ∃ r s', concludeWith item below s make =
        ⟨.node item [], s', some (.resultAlreadySet item.node.fullName)⟩ ∧
      s'.events = s.events ++ [.finished r] ∧ r.value.id = item.node.id := by
  obtain ⟨rs, hrs⟩ := each.exists_results
  refine ⟨(make rs s).1, (make rs s).2.record (.finished (make rs s).1), ?_, ?_, made rs⟩
  · simp only [concludeWith, hrs, conclude, WorkItem.complete, done, if_true]
  · rw [Session.events_record, quiet]

theorem triedIdly_finishEachUnstarted
    (step : ∀ t ∈ ts, ∀ s, t.TriedIdly s (finishUnstarted v message t s)) (s : Session) :
    TriedEachIdly ts s (finishEachUnstarted v message ts s) := by
  induction ts generalizing s with
  | nil => exact ⟨[], (List.append_nil _).symm, List.forall_mem_nil _, .nil⟩
  | cons t ts ih =>
    obtain ⟨stepFirst, step⟩ := List.forall_mem_cons.mp step
    obtain ⟨es, hes, idle, first⟩ := stepFirst s
    rw [finishEachUnstarted]
    generalize finishUnstarted v message t s = p at hes first
    obtain ⟨t', s', _ | fault⟩ := p <;> replace hes : s'.events = s.events ++ es := hes
    · obtain ⟨es', hes', idle', rest⟩ := ih step s'
      exact ⟨es ++ es', by simp [Progress.map, hes', hes],
        List.forall_mem_append.mpr ⟨idle, idle'⟩, .cons first rest⟩
    · exact ⟨es, hes, idle, .stop first⟩

theorem triedIdly_finishUnstarted (sound : t.Sound) (v : Verdict) (message : Option String)
    (s : Session) : t.TriedIdly s (finishUnstarted v message t s) := by
  induction t using Tree.induction generalizing s with
  | node item below ih =>
    obtain ⟨top, sound⟩ := sound_node.mp sound
    obtain ⟨es, hes, idle, each⟩ :=
      triedIdly_finishEachUnstarted (fun t ht => ih t ht (sound t ht)) s
    rw [finishUnstarted]
    generalize finishEachUnstarted v message below s = p at hes each
    obtain ⟨below', s', _ | fault⟩ := p <;> replace hes : s'.events = s.events ++ es := hes
    · let make (rs : List ResultTree) (s : Session) : ResultTree × Session :=
        (.node { Result.ofNode item.node with verdict := v, message } rs, s)
      change TriedIdly _ s (concludeWith item below' s' make)
      have reported (r : ResultTree) : Event.Idle (es ++ [.finished r]) :=
        List.forall_mem_append.mpr ⟨idle, List.forall_mem_singleton.mpr rfl⟩
      rcases open_or_done top with isOpen | ⟨-, done⟩
      · obtain ⟨r, s'', concluded, hr, heading⟩ :=
          concludeWith_of_open (s := s') isOpen each make (fun _ => rfl) fun _ => rfl
        rw [concluded]
        exact ⟨es ++ [.finished r], by simp [hr, hes], reported r,
          .unstarted isOpen idle each heading⟩
      · obtain ⟨r, s'', refused, hr, heading⟩ :=
          concludeWith_of_done (s := s') done each make (fun _ => rfl) fun _ => rfl
        rw [refused]
        exact ⟨es ++ [.finished r], by simp [hr, hes], reported r,
          .repeated done idle each heading⟩
    · exact ⟨es, hes, idle, .stuck idle each⟩

theorem tried_finishUnstarted (sound : t.Sound) (v : Verdict) (message : Option String)
    (s : Session) : t.Tried s (finishUnstarted v message t s) :=
  (triedIdly_finishUnstarted sound v message s).tried

theorem triedEach_finishEachUnstarted (sound : SoundEach ts) (v : Verdict)
    (message : Option String) (s : Session) :
    TriedEach ts s (finishEachUnstarted v message ts s) :=
  (triedIdly_finishEachUnstarted
    (fun t ht => triedIdly_finishUnstarted (sound t ht) v message) s).tried

end WorkTree

namespace Dispatcher

open WorkTree

variable {d : Dispatcher} {item : WorkItem} {stage : Stage} {below ts : List WorkTree}
  {t : WorkTree} {c : Context} {s s' : Session}

theorem triedEach_executeEach (sequential : d.isParallel = false)
    (step : ∀ t ∈ ts, ∀ c s, t.Tried s (d.execute t c s)) (c : Context) (s : Session) :
    TriedEach ts s (d.executeEach ts c s) := by
  induction ts generalizing s with
  | nil => exact ⟨[], (List.append_nil _).symm, .nil⟩
  | cons t ts ih =>
    obtain ⟨stepFirst, step⟩ := List.forall_mem_cons.mp step
    obtain ⟨es, hes, first⟩ := stepFirst (c.forChild t.value.node) s
    rw [executeEach]
    generalize d.execute t (c.forChild t.value.node) s = p at hes first
    obtain ⟨t', s', _ | fault⟩ := p <;> replace hes : s'.events = s.events ++ es := hes
    · obtain ⟨es', hes', rest⟩ := ih step s'
      exact ⟨es ++ es', by simp [hes', hes], .cons first rest⟩
    · simp only [Option.isSome_some, sequential, Bool.not_false, Bool.and_self, if_true]
      exact ⟨es, hes, .stop first⟩

theorem tried_runLeaf (sound : Sound (.node item below)) (c : Context) (s : Session) :
    Tried (.node item below) s (d.runLeaf item below c s) := by
  cases stopped : (d.observeDeadline s).stopped with
  | true =>
    simp only [runLeaf, stopped, if_true]
    exact (tried_finishUnstarted sound _ _ _).of_events (Session.events_observeDeadline d s)
  | false =>
    simp only [runLeaf, stopped, Bool.false_eq_true, if_false]
    by_cases stage : item.stage = .ready
    · have isOpen : item.Open := (open_or_done (sound_node.mp sound).1).resolve_right
        fun done => by simp [stage] at done
      rcases started : ((d.observeDeadline s).record (.started item.node)).readClock d.clock with
        ⟨startMs, s₁⟩
      rcases called : s₁.call d.invoker .test item.node c with ⟨body, context, s₂⟩
      rcases ended : s₂.readClock d.clock with ⟨endMs, s₃⟩
      simp only [advance_running stage, WorkItem.node_moved, started, called, ended, conclude,
        (open_moved isOpen.result).complete]
      refine ⟨[.started item.node, .called ⟨.test, item.node, c, s₁.stopped⟩, .finished _], ?_,
        .leaf isOpen rfl ?_⟩
      · simp [Session.events_of_readClock ended, Session.events_of_call called,
          Session.events_of_readClock started]
      · cases body <;> rfl
    · rw [advance_running_of_not_ready stage]
      exact ⟨[], by simp, .refused stage⟩

theorem exists_closeSuite {suite : OpenSuite} (after : (item.moved stage).Open)
    (hitem : suite.item = item.moved stage) {es : List Event}
    (each : AttemptsEach ts es below none) (s : Session) :
    ∃ call r s', d.closeSuite suite below s = ⟨.node (item.concluded r) [], s', none⟩ ∧
      s'.events = s.events ++ [.called call, .finished r] ∧ call.hook = .tearDown ∧
      call.node = item.node ∧ r.value.id = item.node.id := by
  rcases called : s.call d.invoker .tearDown suite.item.node suite.context with
    ⟨tearDown, context, s₁⟩
  let make (rs : List ResultTree) (s : Session) : ResultTree × Session :=
    let r := suite.close rs tearDown (s.readClock d.clock).1
    (.node r rs, (s.readClock d.clock).2.stopIf (endsRun context r))
  have closes : d.closeSuite suite below s = concludeWith suite.item below s₁ make := by
    simp only [closeSuite, called]
    rfl
  have made (rs : List ResultTree) : (make rs s₁).1.value.id = suite.item.node.id := by
    have heading := suite.heading_close rs tearDown (s₁.readClock d.clock).1
    exact congrArg Result.id heading
  rw [closes]
  rw [hitem] at called made ⊢
  obtain ⟨r, s', concluded, hr, heading⟩ := concludeWith_of_open after each make (fun _ => rfl) made
  refine ⟨⟨.tearDown, item.node, suite.context, s.stopped⟩, r, s', concluded, ?_, rfl, rfl,
    heading⟩
  rw [hr, Session.events_of_call called, List.append_assoc]
  rfl

theorem tried_closeAfter {suite : OpenSuite} (isOpen : item.Open)
    (after : (item.moved stage).Open) (hitem : suite.item = item.moved stage)
    (isSuite : item.node.isSuite = true) {setUp : Call} (hook : setUp.hook = .setUp)
    (node : setUp.node = item.node)
    (opened : s'.events = s.events ++ [.started item.node, .called setUp])
    {p : Progress (List WorkTree)} (children : TriedEach below s' p) :
    Tried (.node item below) s (d.closeAfter suite p) := by
  obtain ⟨es, hes, each⟩ := children
  obtain ⟨below', s'', _ | fault⟩ := p <;> replace hes : s''.events = s'.events ++ es := hes
  · obtain ⟨tearDown, r, s₃, closed, hr, hook', node', heading⟩ :=
      exists_closeSuite (d := d) after hitem each s''
    simp only [closeAfter, closed]
    exact ⟨[.started item.node, .called setUp] ++ es ++ [.called tearDown, .finished r],
      by simp [hr, hes, opened], .suite isOpen isSuite hook node each hook' node' heading⟩
  · simp only [closeAfter, hitem]
    exact ⟨[.started item.node, .called setUp] ++ es, by simp [hes, opened],
      .left isOpen after isSuite hook node each⟩

theorem tried_runSuite (sequential : d.isParallel = false) (sound : Sound (.node item below))
    (step : ∀ t ∈ below, ∀ c s, t.Tried s (d.execute t c s))
    (going : (d.observeDeadline s).stopped = false) (skip : item.skip? = none)
    (isSuite : item.node.isSuite = true) :
    Tried (.node item below) s (d.execute (.node item below) c s) := by
  obtain ⟨top, each⟩ := sound_node.mp sound
  by_cases stage : item.stage = .ready
  · have isOpen : item.Open := (open_or_done top).resolve_right fun done => by simp [stage] at done
    have running : (item.moved .running).Open := open_moved isOpen.result
    rcases opened : d.openSuite (item.moved .running) c (d.observeDeadline s) with ⟨suite, s₁⟩
    have hitem : suite.item = item.moved .running := by
      rw [← openSuite_item (d := d) (item.moved .running) c (d.observeDeadline s), opened]
    have start : s₁.events = s.events ++ [.started item.node, .called ⟨.setUp, item.node,
        c.withSettings item.node.settings, (d.observeDeadline s).stopped⟩] := by
      simpa using events_of_opened opened
    simp only [execute, going, skip, isSuite, advance_running stage, opened, Bool.not_true,
      Bool.false_eq_true, if_false]
    cases suite.setUp with
    | error failure =>
      exact tried_closeAfter isOpen running hitem isSuite rfl rfl start
        (triedEach_finishEachUnstarted each _ _ s₁)
    | ok outcome =>
      cases below with
      | nil =>
        exact tried_closeAfter isOpen running hitem isSuite rfl rfl start
          (p := ⟨[], s₁, none⟩) ⟨[], by simp, .nil⟩
      | cons t ts =>
        have waits : suite.item.advance .waitingForChildren =
            .ok (item.moved .waitingForChildren) := by
          simp [hitem, WorkItem.advance, WorkItem.moved, Stage.allows]
        have waiting : (item.moved .waitingForChildren).Open :=
          ⟨by simp [WorkItem.moved], isOpen.result⟩
        simp only [waits, List.isEmpty_cons, Bool.false_eq_true, if_false]
        exact tried_closeAfter isOpen waiting rfl isSuite rfl rfl start
          (triedEach_executeEach sequential step suite.context s₁)
  · simp only [execute, going, skip, isSuite, advance_running_of_not_ready stage, Bool.not_true,
      Bool.false_eq_true, if_false]
    exact ⟨[], by simp, .refused stage⟩

/-- Every call on sound items is an attempt. -/
theorem tried_execute (sequential : d.isParallel = false) (sound : t.Sound) (c : Context)
    (s : Session) : t.Tried s (d.execute t c s) := by
  induction t using Tree.induction generalizing c s with
  | node item below ih =>
    have same := Session.events_observeDeadline d s
    cases going : (d.observeDeadline s).stopped with
    | true =>
      simp only [execute, going, if_true]
      exact (tried_finishUnstarted sound _ _ _).of_events same
    | false =>
      cases skip : item.skip? with
      | some pair =>
        simp only [execute, going, skip, Bool.false_eq_true, if_false]
        exact (tried_finishUnstarted sound _ _ _).of_events same
      | none =>
        cases isSuite : item.node.isSuite with
        | false =>
          simp only [execute, going, skip, isSuite, Bool.not_false, Bool.false_eq_true, if_false,
            if_true]
          exact (tried_runLeaf sound c _).of_events same
        | true =>
          exact tried_runSuite sequential sound
            (fun t ht c s => ih t ht ((sound_node.mp sound).2 t ht) c s) going skip isSuite

end Dispatcher

/-! ## At the places of a tree -/

namespace WorkTree

variable {t u u' : WorkTree} {path : List Nat}

theorem Fresh.sound (h : t.Fresh) : t.Sound := by
  induction h with
  | node stage result _ ih => exact sound_node.mpr ⟨sound_of_open (open_of_ready stage result), ih⟩

theorem Sound.subtree (h : t.Sound) (place : t.subtreeAt? path = some u) : u.Sound :=
  fun item hitem => h item (Tree.mem_preorder_of_subtreeAt? place hitem)

theorem Sound.replaceAt (h : t.Sound) (place : t.subtreeAt? path = some u) (sound : u'.Sound) :
    Sound (t.replaceAt u' path) := by
  obtain ⟨before, after, same, replaced⟩ := Tree.exists_preorder_replaceAt place
  unfold Sound at h sound ⊢
  rw [replaced]
  rw [same] at h
  simp only [List.forall_mem_append] at h ⊢
  exact ⟨⟨h.1.1, sound⟩, h.2⟩

end WorkTree

namespace Dispatch

variable {call : Dispatch} {calls : List Dispatch} {t : WorkTree} {p : Progress WorkTree}

/-- Whether a call runs one item at a time. -/
def IsSequential (call : Dispatch) : Prop := call.dispatcher.isParallel = false

/-- A call under which every hook and every body passes. -/
def passingAt (path : List Nat) : Dispatch :=
  { dispatcher := { invoker := RunOptions.passingInvoker }, path, context := Context.initial 1
    session := {} }

theorem passingAt_isSequential (path : List Nat) : (passingAt path).IsSequential := rfl

theorem tried_of_run? (sequential : call.IsSequential) (sound : t.Sound)
    (h : call.run? t = some p) :
    ∃ u, t.subtreeAt? call.path = some u ∧ WorkTree.Tried u call.session p := by
  obtain ⟨u, place, rfl⟩ := Option.map_eq_some_iff.mp h
  exact ⟨u, place, Dispatcher.tried_execute sequential (sound.subtree place) _ _⟩

theorem sound_after (sequential : call.IsSequential) (sound : t.Sound) :
    WorkTree.Sound (call.after t) := by
  unfold after
  cases h : call.run? t with
  | none => exact sound
  | some p =>
    obtain ⟨u, place, es, -, attempts⟩ := tried_of_run? sequential sound h
    exact sound.replaceAt place (attempts.sound (sound.subtree place))

end Dispatch

theorem WorkTree.Sound.afterAll {t : WorkTree} {calls : List Dispatch} (h : t.Sound)
    (sequential : ∀ call ∈ calls, call.IsSequential) : Sound (t.afterAll calls) := by
  induction calls generalizing t with
  | nil => exact h
  | cons call calls ih =>
    obtain ⟨first, rest⟩ := List.forall_mem_cons.mp sequential
    exact ih (Dispatch.sound_after first h) rest

end TestScheduler

import TestScheduler.Pattern.Common
import TestScheduler.Proofs.Run.Completion

/-! # Bracketing

The log of a run is well bracketed. A started item is enclosed by its start and its report, a
started suite encloses the logs of its children between its setup and its teardown, and an item
that is not started adds nothing but reports.
-/

namespace TestScheduler

variable {Expression : Type} [Pattern.Dialect Expression]

namespace Event

def isFinished : Event → Bool
  | finished _ => true
  | _ => false

/-- The id of the node that an event reports as started. -/
def started? : Event → Option TestId
  | started n => some n.id
  | _ => none

/-- Every start is followed by a report on the same node. -/
def Answered : List Event → Prop
  | [] => True
  | started n :: es => (∃ r, finished r ∈ es ∧ r.value.id = n.id) ∧ Answered es
  | _ :: es => Answered es

end Event

mutual

/-- The log of a tree of items that came to its end with given results. -/
inductive Bracketed : WorkTree → ResultTree → List Event → Prop where
  | unstarted {t : WorkTree} {r : ResultTree}
      (heading : r.map Result.heading = t.map fun item => Result.ofNode item.node)
      (untimed : ∀ x ∈ r.preorder, x.startTime = none ∧ x.endTime = none) :
      Bracketed t r r.finishes
  | leaf {item : WorkItem} {r : Result} {context : Context} {stopped : Bool}
      (leaf : item.node.isSuite = false) (heading : r.heading = Result.ofNode item.node)
      (timed : r.isTimed = true) :
      Bracketed (.node item []) (.node r [])
        [.started item.node, .called ⟨.test, item.node, context, stopped⟩,
          .finished (.node r [])]
  | suite {item : WorkItem} {below : List WorkTree} {r : Result} {rs : List ResultTree}
      {es : List Event} {before after : Context} {stopped stopped' : Bool}
      (suite : item.node.isSuite = true) (heading : r.heading = Result.ofNode item.node)
      (timed : r.isTimed = true) (children : BracketedEach below rs es) :
      Bracketed (.node item below) (.node r rs)
        ([.started item.node, .called ⟨.setUp, item.node, before, stopped⟩] ++ es ++
          [.called ⟨.tearDown, item.node, after, stopped'⟩, .finished (.node r rs)])

/-- The logs of several trees, one after another. -/
inductive BracketedEach : List WorkTree → List ResultTree → List Event → Prop where
  | nil : BracketedEach [] [] []
  | cons {t : WorkTree} {ts : List WorkTree} {r : ResultTree} {rs : List ResultTree}
      {es es' : List Event} (first : Bracketed t r es) (rest : BracketedEach ts rs es') :
      BracketedEach (t :: ts) (r :: rs) (es ++ es')

end

namespace ResultTree

theorem finishesEach_eq_flatMap (rs : List ResultTree) :
    finishesEach rs = rs.flatMap finishes := by
  induction rs with
  | nil => rfl
  | cons r rs ih => rw [finishesEach, ih, List.flatMap_cons]

theorem isFinished_of_mem_finishes {r : ResultTree} {e : Event} (h : e ∈ r.finishes) :
    e.isFinished = true := by
  induction r using Tree.induction with
  | node r rs ih =>
    rw [finishes, finishesEach_eq_flatMap, List.mem_append, List.mem_flatMap] at h
    rcases h with ⟨r, hr, he⟩ | he
    · exact ih r hr he
    · rw [List.mem_singleton.mp he]
      rfl

theorem isFinished_of_mem_finishesEach {rs : List ResultTree} {e : Event}
    (h : e ∈ finishesEach rs) : e.isFinished = true := by
  rw [finishesEach_eq_flatMap] at h
  obtain ⟨r, -, he⟩ := List.mem_flatMap.mp h
  exact isFinished_of_mem_finishes he

theorem length_finishes (r : ResultTree) : r.finishes.length = r.size := by
  induction r using Tree.induction with
  | node r rs ih =>
    rw [finishes, finishesEach_eq_flatMap, List.length_append, List.length_flatMap,
      List.map_congr_left ih, Tree.size_node, Nat.add_comm]
    rfl

end ResultTree

namespace Event

variable {es es' : List Event}

theorem answered_append (h : Answered es) (h' : Answered es') : Answered (es ++ es') := by
  induction es with
  | nil => exact h'
  | cons e es ih =>
    cases e with
    | started n =>
      obtain ⟨⟨r, hr, hid⟩, h⟩ := h
      exact ⟨⟨r, List.mem_append_left _ hr, hid⟩, ih h⟩
    | called _ => exact ih h
    | finished _ => exact ih h

theorem answered_of_isFinished (h : ∀ e ∈ es, e.isFinished = true) : Answered es := by
  induction es with
  | nil => trivial
  | cons e es ih =>
    cases e with
    | started _ => simpa [isFinished] using h (.started _) List.mem_cons_self
    | called _ => simpa [isFinished] using h (.called _) List.mem_cons_self
    | finished _ => exact ih fun e he => h e (List.mem_cons_of_mem _ he)

end Event

namespace Bracketed

variable {t : WorkTree} {r : ResultTree} {es : List Event}

theorem id_eq_of_heading {r : Result} {n : Node} (h : r.heading = Result.ofNode n) : r.id = n.id :=
  congrArg Result.id h

theorem filter_isFinished (h : Bracketed t r es) : es.filter Event.isFinished = r.finishes := by
  induction h using Bracketed.rec (motive_2 := fun _ rs es _ =>
    es.filter Event.isFinished = ResultTree.finishesEach rs) with
  | unstarted => exact List.filter_eq_self.mpr fun _ => ResultTree.isFinished_of_mem_finishes
  | leaf => rfl
  | suite _ _ _ _ ih =>
    rw [List.filter_append, List.filter_append, ih]
    rfl
  | nil => rfl
  | cons _ _ ih ih' => rw [List.filter_append, ih, ih', ResultTree.finishesEach]

theorem filterMap_started (h : Bracketed t r es) :
    es.filterMap Event.started? = (r.preorder.filter (·.isTimed)).map (·.id) := by
  induction h using Bracketed.rec (motive_2 := fun _ rs es _ =>
    es.filterMap Event.started? =
      ((rs.flatMap Tree.preorder).filter (·.isTimed)).map (·.id)) with
  | @unstarted t r _ untimed =>
    have none : r.preorder.filter (·.isTimed) = [] :=
      List.filter_eq_nil_iff.mpr fun x hx => by simp [Result.isTimed, untimed x hx]
    rw [none]
    refine List.filterMap_eq_nil_iff.mpr fun e he => ?_
    have := ResultTree.isFinished_of_mem_finishes he
    cases e <;> simp_all [Event.isFinished, Event.started?]
  | leaf _ heading timed => simp [timed, Event.started?, id_eq_of_heading heading]
  | suite _ heading timed _ ih =>
    rw [List.filterMap_append, List.filterMap_append, ih, Tree.preorder_node,
      List.filter_cons_of_pos timed, List.map_cons, id_eq_of_heading heading, ← List.flatMap_def]
    exact List.append_nil _
  | nil => rfl
  | cons _ _ ih ih' =>
    rw [List.filterMap_append, ih, ih', List.flatMap_cons, List.filter_append, List.map_append]

theorem answered (h : Bracketed t r es) : Event.Answered es := by
  induction h using Bracketed.rec (motive_2 := fun _ _ es _ => Event.Answered es) with
  | unstarted => exact Event.answered_of_isFinished fun _ => ResultTree.isFinished_of_mem_finishes
  | @leaf item r _ _ _ heading _ =>
    exact ⟨⟨.node r [], by simp, id_eq_of_heading heading⟩, trivial⟩
  | @suite item below r rs _ _ _ _ _ _ heading _ _ ih =>
    refine ⟨⟨.node r rs, by simp, id_eq_of_heading heading⟩, ?_⟩
    exact Event.answered_append ih trivial
  | nil => trivial
  | cons _ _ ih ih' => exact Event.answered_append ih ih'

end Bracketed

namespace Session

variable {s s' : Session}

@[simp] theorem events_record (s : Session) (e : Event) : (s.record e).events = s.events ++ [e] :=
  rfl

@[simp] theorem events_recordAll (s : Session) (es : List Event) :
    (s.recordAll es).events = s.events ++ es := rfl

@[simp] theorem events_stopIf (s : Session) (b : Bool) : (s.stopIf b).events = s.events := rfl

theorem events_of_readClock {clock : Clock} {ms : Nat} (h : s.readClock clock = (ms, s')) :
    s'.events = s.events := by
  cases h
  rfl

theorem events_of_call {invoker : Invoker} {hook : Hook} {n : Node} {c c' : Context}
    {response : Except Failure Outcome} (h : s.call invoker hook n c = (response, c', s')) :
    s'.events = s.events ++ [.called ⟨hook, n, c, s.stopped⟩] := by
  cases h
  rfl

@[simp] theorem events_observeDeadline (d : Dispatcher) (s : Session) :
    (d.observeDeadline s).events = s.events := by
  cases h : d.deadline <;> simp only [Dispatcher.observeDeadline, h]
  rfl

end Session

namespace Dispatcher

open WorkTree

variable {d : Dispatcher} {t : WorkTree} {c : Context} {s s' : Session} {r : ResultTree}

theorem events_of_opened {item : WorkItem} {suite : OpenSuite}
    (h : d.openSuite item c s = (suite, s')) :
    s'.events = s.events ++ [.started item.node,
      .called ⟨.setUp, item.node, c.withSettings item.node.settings, s.stopped⟩] := by
  cases h
  simp [Session.record]

theorem events_of_body {item : WorkItem} {context : Context} {s₁ s₂ s₃ : Session}
    {startMs endMs : Nat} {body : Except Failure Outcome}
    (started : ((d.observeDeadline (d.observeDeadline s)).record (.started item.node)).readClock
      d.clock = (startMs, s₁))
    (called : s₁.call d.invoker .test item.node c = (body, context, s₂))
    (ended : s₂.readClock d.clock = (endMs, s₃)) (b : Bool) (r : ResultTree) :
    ((s₃.stopIf b).record (.finished r)).events = s.events ++
      [.started item.node, .called ⟨.test, item.node, c, s₁.stopped⟩, .finished r] := by
  simp [Session.events_of_readClock ended, Session.events_of_call called,
    Session.events_of_readClock started]

theorem Closes.events {suite : OpenSuite} {rs : List ResultTree}
    (closed : d.Closes suite rs s r s') :
    s'.events = s.events ++
      [.called ⟨.tearDown, suite.item.node, suite.context, s.stopped⟩, .finished r] := by
  cases closed with
  | tornDown called ended =>
    simp [Session.events_of_readClock ended, Session.events_of_call called]

theorem bracketed_unstarted (v : Verdict) (message : Option String) (t : WorkTree) :
    Bracketed t (t.unstarted v message) (t.unstarted v message).finishes := by
  refine .unstarted (headings_unstarted v message t) fun x hx => ?_
  rw [unstarted, Tree.preorder_map] at hx
  obtain ⟨item, -, rfl⟩ := List.mem_map.mp hx
  exact ⟨rfl, rfl⟩

theorem bracketedEach_unstarted (v : Verdict) (message : Option String) (ts : List WorkTree) :
    BracketedEach ts (ts.map (unstarted v message))
      (ResultTree.finishesEach (ts.map (unstarted v message))) := by
  induction ts with
  | nil => exact .nil
  | cons t ts ih => exact .cons (bracketed_unstarted v message t) ih

/-- A suite that is opened and closed encloses what happens in between. -/
theorem bracketed_suite {item : WorkItem} {below : List WorkTree} {suite : OpenSuite}
    {rs : List ResultTree} {es : List Event} {s₁ s₂ : Session} (isSuite : item.node.isSuite = true)
    (opened : d.openSuite (item.moved .running) c s = (suite, s₁))
    (between : s₂.events = s₁.events ++ es) (children : BracketedEach below rs es)
    (closed : d.Closes suite rs s₂ r s') :
    ∃ es, s'.events = s.events ++ es ∧ Bracketed (.node item below) r es := by
  have hitem := item_of_opened opened
  have start := events_of_opened opened
  cases closed with
  | tornDown called ended =>
    refine ⟨[.started item.node,
        .called ⟨.setUp, item.node, c.withSettings item.node.settings, s.stopped⟩] ++ es ++
      [.called ⟨.tearDown, item.node, suite.context, s₂.stopped⟩, .finished _], ?_,
      .suite isSuite (by rw [OpenSuite.heading_close, hitem]) rfl children⟩
    simp [Session.events_of_readClock ended, Session.events_of_call called, between, start, hitem]

theorem Runs.bracketed (h : d.Runs t c s r s') (bare : t.Bare) :
    ∃ es, s'.events = s.events ++ es ∧ Bracketed t r es := by
  induction h using Runs.rec (motive_2 := fun ts _ s rs s' _ => (∀ t ∈ ts, t.Bare) →
    ∃ es, s'.events = s.events ++ es ∧ BracketedEach ts rs es) with
  | cancelled | skipped | overtaken => exact ⟨_, by simp, bracketed_unstarted _ _ _⟩
  | leaf _ _ leaf _ started called ended result =>
    obtain rfl := (WorkTree.bare_node.mp bare).1 leaf
    exact ⟨_, events_of_body started called ended _ _,
      .leaf leaf (by simp [result]) (by rw [result]; rfl)⟩
  | setUpFailed _ _ isSuite opened _ closed =>
    obtain ⟨es, hes, bracketed⟩ := bracketed_suite isSuite opened (Session.events_recordAll _ _)
      (bracketedEach_unstarted _ _ _) closed
    exact ⟨es, by simpa using hes, bracketed⟩
  | suite _ _ isSuite opened _ _ closed ih =>
    obtain ⟨es, between, children⟩ := ih (WorkTree.bare_node.mp bare).2
    obtain ⟨es, hes, bracketed⟩ := bracketed_suite isSuite opened between children closed
    exact ⟨es, by simpa using hes, bracketed⟩
  | nil => exact ⟨[], by simp, .nil⟩
  | cons _ _ ih ih' bare =>
    obtain ⟨first, rest⟩ := List.forall_mem_cons.mp bare
    obtain ⟨es, hes, first⟩ := ih first
    obtain ⟨es', hes', rest⟩ := ih' rest
    exact ⟨es ++ es', by simp [hes', hes], .cons first rest⟩

end Dispatcher

theorem RunOptions.events_dispatcher (o : RunOptions) (invoker : Invoker) (clock : Clock) :
    (o.dispatcher invoker clock).2.events = [] := by
  cases h : o.timeoutMs with
  | none => simp only [dispatcher, h]
  | some limit =>
    simp only [dispatcher, h]
    rfl

/-- The log of a run is well bracketed: each item is reported once, each is started at most once
and before its report, and those that are started have a result with times. -/
theorem RunOptions.run_bracketed (o : RunOptions) (invoker : Invoker) (clock : Clock)
    {tree : TestTree} (bare : tree.LeavesAreBare) (f : Filter) :
    ∃ report log, o.run invoker clock tree f = .ok report ∧
      (o.execute invoker clock tree f).session.events = log ∧
      Bracketed (WorkTree.create f (Location.root tree)) report.result log ∧
      log.filter Event.isFinished = report.result.finishes ∧
      report.result.finishes.length = report.workItems ∧
      log.filterMap Event.started? = (report.result.preorder.filter (·.isTimed)).map (·.id) ∧
      Event.Answered log := by
  obtain ⟨r, s, gives, runs⟩ := o.execute_runs invoker clock f tree
  have bare := WorkTree.bare_create f bare
  obtain ⟨log, hlog, bracketed⟩ := runs.bracketed bare
  have items : r.size = (WorkTree.create f (Location.root tree)).size := by
    simpa using congrArg Tree.size (runs.headings bare)
  refine ⟨_, log, reportOf_of_gives f gives, ?_, bracketed, bracketed.filter_isFinished, ?_,
    bracketed.filterMap_started, bracketed.answered⟩
  · rw [gives.session, hlog, events_dispatcher, List.nil_append]
  · exact (ResultTree.length_finishes r).trans items

end TestScheduler

namespace TestScheduler

theorem RunOptions.run_bracketed_sample :
    TestTree.sample.LeavesAreBare ∧
      ∃ report log, ({} : RunOptions).run failingInvoker (Clock.from 0) .sample .empty =
          .ok report ∧
        (({} : RunOptions).execute failingInvoker (Clock.from 0) .sample .empty).session.events =
          log ∧
        Bracketed (WorkTree.create .empty (Location.root TestTree.sample)) report.result log ∧
        log.filter Event.isFinished = report.result.finishes ∧
        report.result.finishes.length = report.workItems ∧
        log.filterMap Event.started? =
          (report.result.preorder.filter (·.isTimed)).map (·.id) ∧
        Event.Answered log :=
  ⟨by decide, run_bracketed _ _ _ (by decide) _⟩

end TestScheduler

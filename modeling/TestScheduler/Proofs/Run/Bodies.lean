import TestScheduler.Pattern.Common
import TestScheduler.Proofs.Prelude
import TestScheduler.Proofs.Run.History

/-! # Bodies

Two things keep a test case from being run: the filter drops it when the items are made, or its node
or one above it is not to be started. In a run in which no setup fails and which is never stopped
nothing else does, so the bodies that are called are known beforehand.
-/

namespace TestScheduler

variable {Expression : Type} [Pattern.Dialect Expression]

namespace Event

/-- The node whose body is called. -/
def tested? : Event → Option Node
  | called call => if call.hook = .test then some call.node else none
  | _ => none

@[simp] theorem tested?_started (n : Node) : (started n).tested? = none := rfl

@[simp] theorem tested?_called (call : Call) :
    (called call).tested? = if call.hook = .test then some call.node else none := rfl

@[simp] theorem tested?_finished (r : ResultTree) : (finished r).tested? = none := rfl

end Event

/-- Whether every setup that a log tells of succeeded. -/
def Invoker.SetUpsSucceed (invoker : Invoker) (log : List Event) : Prop :=
  ∀ before call, before ++ [.called call] <+: log → call.hook = .setUp →
    (invoker before call).ending.guarded.isOk = true

theorem Invoker.SetUpsSucceed.shorter {invoker : Invoker} {log log' : List Event}
    (h : invoker.SetUpsSucceed log') (longer : log <+: log') : invoker.SetUpsSucceed log :=
  fun before call called => h before call (called.trans longer)

namespace Filter

/-- Whether a node may be started. An explicit node has to be requested. -/
def starts (f : Filter) (l : Location Node) : Bool :=
  l.value.runnability = .runnable || f.requests l

/-- Whether a test case is kept and nothing on the way to it bars it from running. -/
def runs (f : Filter) (l : Location Node) : Bool :=
  f.keeps l && (l :: l.ancestors).all f.starts

end Filter

theorem WorkItem.skip?_eq_none_iff {item : WorkItem} :
    item.skip? = none ↔ item.filter.starts item.location = true := by
  have node : item.location.value = item.node := rfl
  cases state : item.node.runnability <;>
    simp [skip?, Filter.starts, Filter.requests, state, node]

namespace WorkTree

variable {f : Filter} {l : Location Node}

/-- The test cases among the items that no item on the way to them bars from running. -/
def bodies : WorkTree → List Node :=
  Tree.fold fun item below =>
    if item.skip?.isSome then []
    else if item.node.isSuite then below.flatten
    else [item.node]

theorem bodies_node (item : WorkItem) (below : List WorkTree) :
    bodies (.node item below) =
      if item.skip?.isSome then []
      else if item.node.isSuite then below.flatMap bodies
      else [item.node] := by
  rw [bodies, Tree.fold_node, List.flatMap_def]

theorem bodies_create_of_starts (h : f.starts l = true) :
    (create f l).bodies =
      if l.value.isSuite then (l.children.filter f.keeps).flatMap fun c => (create f c).bodies
      else [l.value] := by
  have skip : ({ location := l, filter := f } : WorkItem).skip? = none :=
    WorkItem.skip?_eq_none_iff.mpr h
  rw [create_eq_node, bodies_node, skip, List.flatMap_map]
  rfl

theorem bodies_create_of_not_starts (h : f.starts l = false) : (create f l).bodies = [] := by
  rw [create_eq_node, bodies_node, if_pos]
  rw [Option.isSome_iff_ne_none, ne_eq, WorkItem.skip?_eq_none_iff]
  simp [h]

theorem keeps_of_runs (h : f.runs l = true) : f.keeps l = true :=
  (Bool.and_eq_true_iff.mp h).1

theorem starts_of_runs {k : Location Node} (h : f.runs k = true) (hk : k ∈ l.preorder) :
    f.starts l = true := by
  have path := List.all_eq_true.mp (Bool.and_eq_true_iff.mp h).2
  rcases Location.mem_preorder_iff.mp hk with rfl | below
  · exact path _ List.mem_cons_self
  · exact path _ (List.mem_cons_of_mem _ (Location.mem_ancestors_of_descendant below))

theorem filter_runs_preorder (hl : l.Placed) (h : f.keeps l = false ∨ f.starts l = false)
    (p : Location Node → Bool) : (l.preorder.filter p).filter f.runs = [] := by
  refine List.filter_eq_nil_iff.mpr fun k hk runs => ?_
  have hk := (List.mem_filter.mp hk).1
  rcases h with dropped | barred
  · have kept := List.mem_filter.mpr ⟨hk, keeps_of_runs runs⟩
    rw [f.filter_keeps_preorder hl dropped] at kept
    cases kept
  · rw [starts_of_runs runs hk] at barred
    cases barred

/-- The items that may run are those of the test cases that are to run. A location that is dropped
or not started takes with it only test cases that are not to run. -/
theorem bodies_create (hl : l.Placed)
    (bare : ∀ k ∈ l.preorder, k.value.kind = .leaf → k.tree.children = [])
    (kept : l.value.isSuite = false → f.keeps l = true)
    (above : ∀ a ∈ l.ancestors, f.starts a = true) :
    (create f l).bodies =
      ((l.preorder.filter fun k => k.value.kind = .leaf).filter f.runs).map Location.value := by
  induction l using Location.induction with
  | step l ih =>
    cases starts : f.starts l with
    | false =>
      rw [bodies_create_of_not_starts starts, filter_runs_preorder hl (.inr starts), List.map_nil]
    | true =>
      rw [bodies_create_of_starts starts]
      cases suite : l.value.isSuite with
      | false =>
        have leaf := Node.isSuite_eq_false_iff.mp suite
        have alone : l.preorder = [l] := by
          rw [Location.preorder_eq_cons, Location.descendants_eq_flatMap, Location.children,
            bare l l.self_mem_preorder leaf]
          rfl
        have runs : f.runs l = true := by
          rw [Filter.runs, kept suite, Bool.true_and, List.all_cons, starts, Bool.true_and]
          exact List.all_eq_true.mpr above
        simp [alone, leaf, runs]
      | true =>
        have kind : l.value.kind ≠ .leaf := by
          intro leaf
          simp [Node.isSuite_eq_false_iff.mpr leaf] at suite
        rw [if_pos rfl, Location.preorder_eq_cons,
          List.filter_cons_of_neg (by simpa using kind), Location.descendants_eq_flatMap,
          List.filter_flatMap, List.filter_flatMap, List.map_flatMap]
        refine flatMap_filter (fun c hc keeps => ?_) fun c hc drops => ?_
        · refine ih c hc (hl.child hc) (fun k hk => bare k (Location.mem_preorder_of_child hc hk))
            (fun _ => keeps) ?_
          rw [Location.ancestors_of_child hc]
          exact List.forall_mem_cons.mpr ⟨starts, above⟩
        · rw [filter_runs_preorder (hl.child hc) (.inl drops), List.map_nil]

end WorkTree

namespace ResultTree

@[simp] theorem filterMap_tested_finishes (r : ResultTree) :
    r.finishes.filterMap Event.tested? = [] := by
  refine List.filterMap_eq_nil_iff.mpr fun e he => ?_
  have := isFinished_of_mem_finishes he
  cases e <;> simp_all [Event.isFinished, Event.tested?]

@[simp] theorem filterMap_tested_finishesEach (rs : List ResultTree) :
    (finishesEach rs).filterMap Event.tested? = [] := by
  rw [finishesEach_eq_flatMap, List.filterMap_flatMap]
  simp

end ResultTree

namespace Dispatcher

open WorkTree

variable {d : Dispatcher} {t : WorkTree} {c : Context} {s s' : Session} {r : ResultTree}

theorem setUp_of_setUpsSucceed {item : WorkItem} {suite : OpenSuite} {log : List Event}
    (opened : d.openSuite (item.moved .running) c s = (suite, s'))
    (longer : s'.events <+: log) (setUps : d.invoker.SetUpsSucceed log) :
    suite.setUp.isOk = true := by
  rw [events_of_opened opened] at longer
  rw [setUp_of_opened opened]
  exact setUps (s.events ++ [.started item.node]) _ (by simpa using longer) rfl

/-- A run that nothing interferes with calls the bodies of all items that may run, in order. -/
theorem Runs.bodies (h : d.Runs t c s r s') (going : s'.stopped = false)
    (setUps : d.invoker.SetUpsSucceed s'.events) :
    s'.events.filterMap Event.tested? = s.events.filterMap Event.tested? ++ t.bodies := by
  induction h using Runs.rec (motive_2 := fun ts _ s _ s' _ => s'.stopped = false →
    d.invoker.SetUpsSucceed s'.events →
    s'.events.filterMap Event.tested? =
      s.events.filterMap Event.tested? ++ ts.flatMap WorkTree.bodies) with
  | cancelled stopped => simp [stopped] at going
  | overtaken _ _ _ stopped => simp [stopped] at going
  | @skipped t _ _ _ _ _ skip =>
    obtain ⟨item, below⟩ := t
    rw [Tree.value_node] at skip
    simp [bodies_node, skip]
  | leaf _ skip leaf _ started called ended =>
    rw [events_of_body started called ended]
    simp [List.filterMap_cons, bodies_node, skip, leaf]
  | setUpFailed _ _ _ opened setUp closed =>
    have ok := setUp_of_setUpsSucceed opened
      ((List.prefix_append _ _).trans closed.longer) setUps
    rw [setUp] at ok
    cases ok
  | suite _ skip isSuite opened _ children closed ih =>
    have below := ih (closed.still_going going) (setUps.shorter closed.longer)
    rw [closed.events, List.filterMap_append, below, events_of_opened opened]
    simp [List.filterMap_cons, bodies_node, skip, isSuite]
  | nil => simp
  | cons first rest ih ih' going setUps =>
    rw [ih' going setUps, ih (rest.still_going going) (setUps.shorter rest.longer),
      List.flatMap_cons, List.append_assoc]

end Dispatcher

namespace RunOptions

/-- In a run that is never stopped and in which no setup fails, the bodies that are called are those
of the test cases that the filter lets run, each once and in pre-order. -/
theorem run_bodies (o : RunOptions) (invoker : Invoker) (clock : Clock) {tree : TestTree}
    (bare : tree.LeavesAreBare) (suite : tree.value.isSuite = true) (f : Filter)
    (going : (o.execute invoker clock tree f).session.stopped = false)
    (setUps : invoker.SetUpsSucceed (o.execute invoker clock tree f).session.events) :
    ∃ report log, o.run invoker clock tree f = .ok report ∧
      (o.execute invoker clock tree f).session.events = log ∧
      log.filterMap Event.tested? = (tree.testCases.filter f.runs).map Location.value := by
  obtain ⟨r, s, gives, runs⟩ := o.execute_runs invoker clock f tree
  rw [gives.session] at going setUps
  refine ⟨_, _, reportOf_of_gives f gives, rfl, ?_⟩
  rw [← o.invoker_dispatcher invoker clock] at setUps
  rw [gives.session, runs.bodies going setUps, events_dispatcher, List.filterMap_nil,
    List.nil_append]
  refine WorkTree.bodies_create (.root tree) bare (fun leaf => ?_) nofun
  cases suite.symm.trans leaf

/-- Every hook succeeds and leaves its context as it is. -/
def passingInvoker : Invoker := fun _ call =>
  { ending := .finished .passed, ambient := call.context.toAmbient }

theorem passingInvoker_setUpsSucceed (log : List Event) : passingInvoker.SetUpsSucceed log :=
  fun _ _ _ _ => rfl

end RunOptions

end TestScheduler

namespace TestScheduler.RunOptions

theorem run_bodies_sample :
    let f := Filter.or [.literal .name "Hidden", .literal .name "Slow"]
    let ran := ({} : RunOptions).execute passingInvoker (Clock.from 0) .sample f
    ran.session.stopped = false ∧
      (TestTree.sample.testCases.filter f.runs).map (·.value.name) = ["Hidden", "Slow"] ∧
      ∃ report log, ({} : RunOptions).run passingInvoker (Clock.from 0) .sample f = .ok report ∧
        ran.session.events = log ∧
        log.filterMap Event.tested? =
          (TestTree.sample.testCases.filter f.runs).map Location.value :=
  ⟨by decide +kernel, by decide +kernel,
    run_bodies _ _ _ (by decide) (by decide) _ (by decide +kernel)
      (passingInvoker_setUpsSucceed _)⟩

end TestScheduler.RunOptions

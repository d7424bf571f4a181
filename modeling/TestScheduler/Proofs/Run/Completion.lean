import TestScheduler.Pattern.Common
import TestScheduler.Proofs.Run.Derivation
import TestScheduler.Proofs.Run.Pruning
import TestScheduler.Proofs.Tree.Throughout
import TestScheduler.Run.Runner

/-! # Completion of runs

Every run of a tree whose leaves are bare gives a report. Its results are those of the work items
in their order: no item is left out, and none is counted twice.
-/

namespace TestScheduler

variable {Expression : Type} [Pattern.Dialect Expression]

/-- Whether no test case holds items. -/
def WorkTree.Bare (t : WorkTree) : Prop :=
  t.Throughout fun t => t.value.node.isSuite = false → t.children = []

theorem WorkTree.bare_node {item : WorkItem} {below : List WorkTree} :
    Bare (.node item below) ↔
      (item.node.isSuite = false → below = []) ∧ ∀ t ∈ below, t.Bare :=
  Tree.throughout_node

namespace Result

/-- What a result says about its node, without what happened to the node. -/
def heading (r : Result) : Result :=
  { id := r.id, name := r.name, fullName := r.fullName, kind := r.kind, verdict := .inconclusive }

@[simp] theorem heading_ofBody (n : Node) (body : Except Failure Outcome) :
    (ofBody n body).heading = ofNode n := by
  cases body <;> rfl

@[simp] theorem heading_ofSuite (n : Node) (setUp : Except Failure Outcome)
    (rs : List ResultTree) : (ofSuite n setUp rs).heading = ofNode n := by
  cases setUp <;> rfl

@[simp] theorem heading_withTimes (r : Result) (startMs endMs : Nat) :
    (r.withTimes startMs endMs).heading = r.heading := rfl

theorem kind_ofBody (n : Node) (body : Except Failure Outcome) (startMs endMs : Nat) :
    ((ofBody n body).withTimes startMs endMs).kind = n.kind :=
  congrArg kind (heading_ofBody n body)

@[simp] theorem heading_withTearDown (r : Result) (tearDown : Except Failure Outcome) :
    (r.withTearDown tearDown).heading = r.heading := by
  cases tearDown with
  | ok _ => rfl
  | error failure =>
    simp only [withTearDown, withTearDownFailure]
    split <;> rfl

end Result

namespace Dispatcher

open WorkTree

variable {d : Dispatcher} {t : WorkTree} {c : Context} {s s' : Session} {r : ResultTree}

@[simp] theorem OpenSuite.heading_close (suite : OpenSuite) (rs : List ResultTree)
    (tearDown : Except Failure Outcome) (endMs : Nat) :
    (suite.close rs tearDown endMs).heading = Result.ofNode suite.item.node :=
  calc (suite.close rs tearDown endMs).heading
    _ = ((Result.ofSuite suite.item.node suite.setUp rs).withTearDown tearDown).heading := rfl
    _ = (Result.ofSuite suite.item.node suite.setUp rs).heading := Result.heading_withTearDown ..
    _ = Result.ofNode suite.item.node := Result.heading_ofSuite ..

theorem headings_unstarted (v : Verdict) (message : Option String) (t : WorkTree) :
    (t.unstarted v message).map Result.heading = t.map fun item => Result.ofNode item.node := by
  rw [unstarted, Tree.map_map]
  rfl

theorem Closes.headings {suite : OpenSuite} {rs : List ResultTree} (h : d.Closes suite rs s r s') :
    r.map Result.heading =
      .node (Result.ofNode suite.item.node) (rs.map (Tree.map Result.heading)) := by
  cases h with
  | tornDown => rw [Tree.map_node, OpenSuite.heading_close]

theorem item_of_opened {item : WorkItem} {suite : OpenSuite} {s₁ : Session}
    (opened : d.openSuite (item.moved .running) c s = (suite, s₁)) :
    suite.item.node = item.node := by
  rw [← WorkItem.node_moved item .running, ← openSuite_item (d := d) (item.moved .running) c s,
    opened]

theorem Closes.headings_unstarted {item : WorkItem} {below : List WorkTree} {suite : OpenSuite}
    {s₁ s₂ : Session} {v : Verdict} {message : Option String}
    (opened : d.openSuite (item.moved .running) c s = (suite, s₁))
    (closed : d.Closes suite (below.map (unstarted v message)) s₂ r s') :
    r.map Result.heading = (Tree.node item below).map fun item => Result.ofNode item.node := by
  rw [closed.headings, item_of_opened opened, List.map_map, Tree.map_node]
  congr 1
  exact List.map_congr_left fun t _ => Dispatcher.headings_unstarted _ _ t

/-- The results of a run stand in the same places as the items that they belong to. -/
theorem Runs.headings (h : d.Runs t c s r s') (bare : t.Bare) :
    r.map Result.heading = t.map fun item => Result.ofNode item.node := by
  induction h using Runs.rec (motive_2 := fun ts _ _ rs _ _ => (∀ t ∈ ts, t.Bare) →
    rs.map (Tree.map Result.heading) = ts.map (Tree.map fun item => Result.ofNode item.node)) with
  | cancelled => exact headings_unstarted _ _ _
  | skipped => exact headings_unstarted _ _ _
  | overtaken => exact headings_unstarted _ _ _
  | leaf _ _ leaf _ _ _ _ result =>
    obtain rfl := (WorkTree.bare_node.mp bare).1 leaf
    simp [result]
  | setUpFailed _ _ _ opened _ closed => exact closed.headings_unstarted opened
  | suite _ _ _ opened _ _ closed ih =>
    rw [closed.headings, item_of_opened opened, Tree.map_node, ih (WorkTree.bare_node.mp bare).2]
  | nil => rfl
  | cons _ _ ih ih' bare =>
    obtain ⟨first, rest⟩ := List.forall_mem_cons.mp bare
    rw [List.map_cons, List.map_cons, ih first, ih' rest]

theorem ids_of_headings (h : r.map Result.heading = t.map fun item => Result.ofNode item.node) :
    r.map Result.id = t.map fun item => item.node.id := by
  have := congrArg (Tree.map Result.id) h
  simpa [Result.heading, Result.ofNode] using this

theorem Runs.ids (h : d.Runs t c s r s') (bare : t.Bare) :
    r.map Result.id = t.map fun item => item.node.id :=
  ids_of_headings (h.headings bare)

end Dispatcher

namespace WorkTree

theorem fresh_create (f : Filter) (l : Location Node) : (create f l).Fresh := by
  induction l using Location.induction with
  | step l ih =>
    rw [create_eq_node]
    refine .node rfl rfl fun t ht => ?_
    obtain ⟨c, hc, rfl⟩ := List.mem_map.mp ht
    exact ih c (List.mem_filter.mp hc).1

theorem bare_create (f : Filter) {l : Location Node}
    (bare : ∀ k ∈ l.preorder, k.value.kind = .leaf → k.tree.children = []) :
    (create f l).Bare := by
  refine throughout_create fun k hk leaf => ?_
  rw [create_eq_node] at leaf ⊢
  have none : k.tree.children = [] := bare k hk (Node.isSuite_eq_false_iff.mp leaf)
  simp [Location.children, none]

end WorkTree

namespace RunOptions

variable (o : RunOptions) (invoker : Invoker) (clock : Clock) {tree : TestTree} (f : Filter)

theorem execute_runs (tree : TestTree) :
    ∃ r s', (o.execute invoker clock tree f).Gives WorkTree.result r s' ∧
      (o.dispatcher invoker clock).1.Runs (WorkTree.create f (Location.root tree))
        ((o.context tree.value).forChild tree.value) (o.dispatcher invoker clock).2 r s' :=
  Dispatcher.executes (WorkTree.fresh_create f _) _ _ _

theorem reportOf_of_gives {p : Progress WorkTree} {r : ResultTree} {s : Session}
    (h : p.Gives WorkTree.result r s) :
    reportOf tree f p = .ok
      (Report.ofResult r (WorkTree.create f (Location.root tree)).size s.stopped) := by
  simp only [reportOf, h.fault, h.value, h.session]
  rfl

/-- Every test case crashes, and every teardown fails and stops the run. -/
def failingInvoker : Invoker := fun _ call =>
  { ambient := call.context.toAmbient
    ending := match call.hook with
      | .setUp => .finished .passed
      | .test => .crashed none
      | .tearDown => .failed (.inconclusive "left open")
    stops := call.hook = .tearDown }

/-- Every run ends with a report that has one result for each work item, in its place. -/
theorem run_complete (bare : tree.LeavesAreBare) :
    ∃ report, o.run invoker clock tree f = .ok report ∧
      report.result.map Result.id =
        (WorkTree.create f (Location.root tree)).map (fun item => item.node.id) ∧
      report.workItems = (WorkTree.create f (Location.root tree)).size ∧
      report.result.size = report.workItems := by
  obtain ⟨r, s, gives, runs⟩ := o.execute_runs invoker clock f tree
  have ids : r.map Result.id =
      (WorkTree.create f (Location.root tree)).map fun item => item.node.id := by
    have := congrArg (Tree.map Result.id) (runs.headings (WorkTree.bare_create f bare))
    simpa [Result.heading, Result.ofNode] using this
  have sizes : r.size = (WorkTree.create f (Location.root tree)).size := by
    simpa using congrArg Tree.size ids
  exact ⟨_, reportOf_of_gives f gives, ids, rfl, sizes⟩

end RunOptions

end TestScheduler

namespace TestScheduler.RunOptions

theorem run_complete_sample :
    TestTree.sample.LeavesAreBare ∧
      ∃ report, ({ stopOnError := true } : RunOptions).run failingInvoker (Clock.from 0) .sample
          .empty = .ok report ∧
        report.result.map Result.id =
          (WorkTree.create .empty (Location.root TestTree.sample)).map (fun item => item.node.id) ∧
        report.workItems = (WorkTree.create .empty (Location.root TestTree.sample)).size ∧
        report.result.size = report.workItems :=
  ⟨by decide, run_complete _ _ _ _ (by decide)⟩

end TestScheduler.RunOptions

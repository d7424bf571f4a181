import TestScheduler.Proofs.Prelude
import TestScheduler.Proofs.Run.Serving

/-! # How results are built

However the jobs of a run are scheduled, and whatever the hooks answer and stop, all items come to
their ends without a fault. A result is that of items that were not started, of a test case whose
body has ended, or of a suite that was torn down after its children. If no test case holds items,
then each item has its result in its place.
-/

namespace TestScheduler

variable {Expression : Type} [Pattern.Dialect Expression]

namespace ResultTree

/-- The results that items can come to. -/
inductive Built : ResultTree → Prop where
  | unstarted (t : WorkTree) (v : Verdict) (message : Option String) :
      Built (t.unstarted v message)
  | leaf {n : Node} (leaf : n.isSuite = false) (body : Except Failure Outcome)
      (startMs endMs : Nat) : Built (.node ((Result.ofBody n body).withTimes startMs endMs) [])
  | suite {suite : Dispatcher.OpenSuite} {rs : List ResultTree}
      (isSuite : suite.item.node.isSuite = true) (each : ∀ r ∈ rs, Built r)
      (tearDown : Except Failure Outcome) (endMs : Nat) :
      Built (.node (suite.close rs tearDown endMs) rs)

/-- Whether a result is one that given items can come to, with those of the items in their places
unless a test case holds items. -/
structure BuiltFor (t : WorkTree) (r : ResultTree) : Prop where
  built : r.Built
  headings : t.Bare → r.map Result.heading = t.map fun item => Result.ofNode item.node

namespace BuiltFor

variable {item : WorkItem} {below : List WorkTree} {rs : List ResultTree}

theorem unstarted (t : WorkTree) (v : Verdict) (message : Option String) :
    BuiltFor t (t.unstarted v message) :=
  ⟨.unstarted t v message, fun _ => Dispatcher.headings_unstarted v message t⟩

theorem forall₂_unstarted (ts : List WorkTree) (v : Verdict) (message : Option String) :
    List.Forall₂ BuiltFor ts (ts.map (WorkTree.unstarted v message)) := by
  rw [List.forall₂_map_right_iff, List.forall₂_same]
  exact fun t _ => unstarted t v message

theorem leaf (leaf : item.node.isSuite = false) (body : Except Failure Outcome)
    (startMs endMs : Nat) :
    BuiltFor (.node item below)
      (.node ((Result.ofBody item.node body).withTimes startMs endMs) []) := by
  refine ⟨.leaf leaf .., fun bare => ?_⟩
  obtain rfl := (WorkTree.bare_node.mp bare).1 leaf
  simp

theorem suite {suite : Dispatcher.OpenSuite} (same : suite.item.node = item.node)
    (isSuite : item.node.isSuite = true) (each : List.Forall₂ BuiltFor below rs)
    (tearDown : Except Failure Outcome) (endMs : Nat) :
    BuiltFor (.node item below) (.node (suite.close rs tearDown endMs) rs) := by
  refine ⟨.suite (same ▸ isSuite) ?_ .., fun bare => ?_⟩
  · exact forall_right_of_forall₂ each fun _ _ _ h => h.built
  · have below := (WorkTree.bare_node.mp bare).2
    rw [Tree.map_node, Tree.map_node, Dispatcher.OpenSuite.heading_close, same]
    congr 1
    exact (map_eq_map_of_forall₂ each fun t ht r h => (h.headings (below t ht)).symm).symm

end BuiltFor

end ResultTree

theorem Invoker.Served.builtFor {invoker : Invoker} {last : Session} {t : WorkTree} {r : ResultTree}
    {es : List Event} (h : invoker.Served last t r es) : r.BuiltFor t := by
  induction h using Invoker.Served.rec (motive_2 := fun _ ts rs _ _ =>
    List.Forall₂ ResultTree.BuiltFor ts rs) with
  | cancelled | skipped => exact .unstarted ..
  | leaf _ leaf _ result => exact result ▸ .leaf leaf ..
  | suite _ isSuite same _ _ _ result each => exact result ▸ .suite same isSuite each ..
  | unstarted results => exact results ▸ ResultTree.BuiltFor.forall₂_unstarted ..
  | nil => exact .nil
  | cons _ _ first rest => exact .cons first rest

/-- Whether a log tells of calls of a suite's hooks that explain whether the suite failed. -/
def ResultTree.CausedIn (invoker : Invoker) (log : List Event) (t : ResultTree) : Prop :=
  ∃ n call call' setUp tearDown, t.value.heading = Result.ofNode n ∧
    invoker.Answers log .setUp n call setUp ∧ invoker.Answers log .tearDown n call' tearDown ∧
    (t.value.verdict.status = .failed ↔
      FailureCause t.value.kind setUp tearDown (t.children.map (·.value.verdict)))

theorem Invoker.ServedBelow.followSetUp {invoker : Invoker} {last : Session}
    {setUp : Except Failure Outcome} {ts : List WorkTree} {rs : List ResultTree} {es : List Event}
    (h : invoker.ServedBelow last setUp ts rs es) : Result.FollowSetUp setUp rs := by
  cases h with
  | unstarted results => exact results ▸ Dispatcher.followSetUp_of_error rfl _ _
  | nil | cons => exact Dispatcher.followSetUp_of_ok rfl _

/-- However items were served, the verdicts account for the failures. -/
theorem Invoker.Served.accounted {invoker : Invoker} {last : Session} {t : WorkTree}
    {r : ResultTree} {es : List Event} (h : invoker.Served last t r es) :
    r.Throughout (ResultTree.Accounted (ResultTree.CausedIn invoker last.events)) := by
  induction h using Invoker.Served.rec (motive_2 := fun _ _ rs _ _ =>
    ∀ r ∈ rs, r.Throughout (ResultTree.Accounted (ResultTree.CausedIn invoker last.events))) with
  | cancelled | skipped => exact ResultTree.accounted_unstarted _ _ _
  | leaf _ leaf _ result =>
    rw [result, Tree.throughout_node]
    refine ⟨ResultTree.accounted_leaf ?_, List.forall_mem_nil _⟩
    rw [Result.kind_ofBody]
    exact leaf
  | suite _ _ same opened children closed result each =>
    rw [result, Tree.throughout_node]
    refine ⟨Dispatcher.OpenSuite.accounted_close children.followSetUp fun failed => ?_, each⟩
    refine ⟨_, _, _, _, _, ?_, opened, closed, failed⟩
    rw [Tree.value_node, Dispatcher.OpenSuite.heading_close, same]
  | unstarted results r hr =>
    rw [results] at hr
    obtain ⟨t, -, rfl⟩ := List.mem_map.mp hr
    exact ResultTree.accounted_unstarted _ _ t
  | nil _ hr => cases hr
  | cons _ _ first rest r hr => exact List.forall_mem_cons.mpr ⟨first, rest⟩ r hr

namespace RunOptions

variable (o : RunOptions) (invoker : Invoker) (clock : Clock) (tree : TestTree) (f : Filter)

theorem run_built : ∃ report, o.run invoker clock tree f = .ok report ∧
    report.result.BuiltFor (WorkTree.create f (Location.root tree)) := by
  obtain ⟨r, s, gives, served⟩ := o.execute_served invoker clock tree f
  exact ⟨_, reportOf_of_gives f gives, served.builtFor⟩

variable {o invoker clock tree f} {workers n : Nat} {s : Session}

theorem built_of_scheduled {a : Ended}
    (h : Job.Scheduled workers (o.job invoker clock tree f) (o.dispatcher invoker clock).2 n
      (.done a) s) :
    a.fault = none ∧ ∃ r, a.tree.result = .ok r ∧
      r.BuiltFor (WorkTree.create f (Location.root tree)) := by
  obtain ⟨fault, r, _, read, -, served⟩ := served_of_scheduled h
  exact ⟨fault, r, read, served.builtFor⟩

theorem surfaces_of_scheduled {a : Ended}
    (h : Job.Scheduled workers (o.job invoker clock tree f) (o.dispatcher invoker clock).2 n
      (.done a) s) :
    a.fault = none ∧ ∃ r, a.tree.result = .ok r ∧
      r.Surfaces (ResultTree.CausedIn invoker s.events) := by
  obtain ⟨fault, r, _, read, -, served⟩ := served_of_scheduled h
  exact ⟨fault, r, read, ResultTree.surfaces_of_accounted served.accounted⟩

end RunOptions

end TestScheduler

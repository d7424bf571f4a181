import Mathlib.Algebra.Ring.Nat
import TestScheduler.Manifest.Script
import TestScheduler.Pattern.Common
import TestScheduler.Proofs.Manifest.Validity
import TestScheduler.Proofs.Result.Cases
import TestScheduler.Proofs.Run.Building

/-! # Counts of asserts

The count of a suite is a sum of 32-bit numbers that is taken level by level. It is the number of
asserts in all test cases below the suite as long as that fits in 32 bits, and otherwise what is
left of it.
-/

namespace TestScheduler

variable {Expression : Type} [Pattern.Dialect Expression]

namespace ResultTree

variable {r : Result} {rs : List ResultTree} {t : ResultTree}

/-- The number of asserts in the test cases of a tree. -/
def asserts (t : ResultTree) : Nat := (t.cases.map (·.assertCount.toNat)).sum

/-- Whether the count of the result is what 32 bits hold of the number of asserts. -/
def Counted (t : ResultTree) : Prop := t.value.assertCount = UInt32.ofNat t.asserts

theorem asserts_leaf (leaf : r.isLeaf = true) : asserts (.node r []) = r.assertCount.toNat := by
  simp [asserts, cases_leaf leaf]

theorem asserts_suite (suite : r.isLeaf = false) :
    asserts (.node r rs) = (rs.map asserts).sum := by
  rw [asserts, cases_suite suite, List.map_flatMap, List.flatMap_def, List.sum_flatten,
    List.map_map]
  rfl

theorem assertCountOf_eq (each : ∀ t ∈ rs, t.Counted) :
    Result.assertCountOf rs = UInt32.ofNat (rs.map asserts).sum := by
  induction rs with
  | nil => rfl
  | cons t rs ih =>
    rw [List.forall_mem_cons] at each
    calc Result.assertCountOf (t :: rs)
      _ = t.value.assertCount + Result.assertCountOf rs := rfl
      _ = UInt32.ofNat t.asserts + UInt32.ofNat (rs.map asserts).sum := by
        rw [each.1, ih each.2]
      _ = UInt32.ofNat ((t :: rs).map asserts).sum := by
        rw [← UInt32.ofNat_add, List.map_cons, List.sum_cons]

theorem counted_leaf (leaf : r.isLeaf = true) : Counted (.node r []) := by
  rw [Counted, asserts_leaf leaf, UInt32.ofNat_toNat, Tree.value_node]

theorem counted_suite (suite : r.isLeaf = false) (count : r.assertCount = Result.assertCountOf rs)
    (each : ∀ t ∈ rs, t.Counted) : Counted (.node r rs) := by
  rw [Counted, asserts_suite suite, ← assertCountOf_eq each, Tree.value_node, count]

theorem asserts_unstarted (t : WorkTree) (v : Verdict) (message : Option String) :
    asserts (t.unstarted v message) = 0 := by
  refine List.sum_eq_zero_iff_forall_eq_nat.mpr (List.forall_mem_map.mpr fun c hc => ?_)
  have hc : c ∈ (t.unstarted v message).preorder := List.mem_of_mem_filter hc
  rw [WorkTree.unstarted, Tree.preorder_map] at hc
  obtain ⟨item, -, rfl⟩ := List.mem_map.mp hc
  rfl

theorem throughout_counted_unstarted (t : WorkTree) (v : Verdict) (message : Option String) :
    (t.unstarted v message).Throughout Counted := by
  induction t using Tree.induction with
  | node item below ih =>
    have none := asserts_unstarted (.node item below) v message
    rw [WorkTree.unstarted_node] at none ⊢
    exact Tree.throughout_node.mpr ⟨by rw [Counted, none]; rfl, List.forall_mem_map.mpr ih⟩

theorem isLeaf_ofBody (n : Node) (body : Except Failure Outcome) (startMs endMs : Nat) :
    ((Result.ofBody n body).withTimes startMs endMs).isLeaf = !n.isSuite :=
  congrArg Result.isLeaf (Result.heading_ofBody n body)

theorem isLeaf_close (suite : Dispatcher.OpenSuite) (tearDown : Except Failure Outcome)
    (endMs : Nat) : (suite.close rs tearDown endMs).isLeaf = !suite.item.node.isSuite :=
  congrArg Result.isLeaf (suite.heading_close rs tearDown endMs)

theorem Built.counted (h : t.Built) : t.Throughout Counted := by
  induction h with
  | unstarted t v message => exact throughout_counted_unstarted t v message
  | @leaf n leaf body startMs endMs =>
    have leaf : ((Result.ofBody n body).withTimes startMs endMs).isLeaf = true := by
      rw [isLeaf_ofBody, leaf, Bool.not_false]
    exact Tree.throughout_node.mpr ⟨counted_leaf leaf, List.forall_mem_nil _⟩
  | @suite suite rs isSuite _ tearDown endMs ih =>
    have isSuite : (suite.close rs tearDown endMs).isLeaf = false := by
      rw [isLeaf_close, isSuite, Bool.not_true]
    have each (r : ResultTree) (hr : r ∈ rs) : r.Counted :=
      ih r hr _ (Location.root r).self_mem_preorder
    exact Tree.throughout_node.mpr ⟨counted_suite isSuite rfl each, ih⟩

/-- Whether the count of a suite is the number of asserts below it, as far as 32 bits hold it. -/
def CountsAsserts (t : ResultTree) : Prop :=
  t.value.isLeaf = false →
    t.value.assertCount.toNat = t.asserts % 2 ^ 32 ∧
      (t.value.assertCount.toNat = t.asserts ↔ t.asserts < 2 ^ 32)

theorem Counted.countsAsserts (h : t.Counted) : t.CountsAsserts := by
  intro _
  have kept : t.value.assertCount.toNat = t.asserts % 2 ^ 32 := by
    rw [h, UInt32.toNat_ofNat']
  exact ⟨kept, by rw [kept]; exact Nat.mod_eq_iff_lt (by decide)⟩

theorem Built.countsAsserts (h : t.Built) : t.Throughout CountsAsserts :=
  h.counted.mono fun _ => Counted.countsAsserts

end ResultTree

/-- Two test cases whose counts add up to more than 32 bits hold. -/
def Manifest.overflowing : Manifest :=
  let counting (name : String) (asserts : UInt32) : ManifestTree :=
    .node { ManifestNode.ofName name with asserts } []
  .ofRoot (.node (.ofName "Root") [counting "A" 4294967295, counting "B" 1])

namespace RunOptions

/-- Whatever hooks report, in whatever order several workers serve the items, every suite has the
count of the asserts below it, unless there are too many for 32 bits. -/
theorem run_counts_asserts (o : RunOptions) (invoker : Invoker) (clock : Clock) (tree : TestTree)
    (f : Filter) :
    (∃ report, o.run invoker clock tree f = .ok report ∧
      report.result.Throughout ResultTree.CountsAsserts) ∧
      ∀ n a s', Job.Scheduled o.workers (o.job invoker clock tree f)
          (o.dispatcher invoker clock).2 n (.done a) s' →
        a.fault = none ∧
          ∃ r, a.tree.result = .ok r ∧ r.Throughout ResultTree.CountsAsserts := by
  constructor
  · obtain ⟨report, ran, built⟩ := o.run_built invoker clock tree f
    exact ⟨report, ran, built.built.countsAsserts⟩
  · intro n a s' scheduled
    obtain ⟨fault, r, read, built⟩ := built_of_scheduled scheduled
    exact ⟨fault, r, read, built.built.countsAsserts⟩

end RunOptions

end TestScheduler

namespace TestScheduler.RunOptions

/-- Two workers serve a suite with one test case. -/
theorem run_counts_asserts_sample :
    let tree := (Blueprint.build (.node { name := "Root", kind := .suite }
      [.node { name := "A", kind := .leaf } []]) (.start 0)).1
    let o : RunOptions := { workers := 2 }
    let invoker := Manifest.overflowing.scripts.invoker
    let clock := Clock.from 0
    ∃ n a s', Job.Scheduled o.workers (o.job invoker clock tree .empty)
        (o.dispatcher invoker clock).2 n (.done a) s' ∧
      a.fault = none ∧ ∃ r, a.tree.result = .ok r ∧ r.Throughout ResultTree.CountsAsserts := by
  intro tree o invoker clock
  have waiting : Job.Scheduled o.workers (o.job invoker clock tree .empty)
      (o.dispatcher invoker clock).2 0 _ _ := .start
  have served := waiting.step .act (by decide +kernel)
  have started := served.step .act (by decide +kernel)
  have setUp := started.step .act (by decide +kernel)
  have testServed := setUp.step (.first .act) (by decide +kernel)
  have permitted := testServed.step (.first .act) (by decide +kernel)
  have testStarted := permitted.step (.first .act) (by decide +kernel)
  have tested := testStarted.step (.first .act) (by decide +kernel)
  have testEnded := tested.step (.first .act) (by decide +kernel)
  have joined := testEnded.step .joined (by decide +kernel)
  have tornDown := joined.step .act (by decide +kernel)
  have ended := tornDown.step .act (by decide +kernel)
  exact ⟨_, _, _, ended, (run_counts_asserts o invoker clock tree .empty).2 _ _ _ ended⟩

/-- The count of a suite with one assert too many starts again from nothing. -/
theorem not_run_counts_asserts_of_overflow :
    let tree := (Manifest.overflowing.root.blueprint.build (.start 0)).1
    Manifest.overflowing.validate = .ok () ∧ tree.LeavesAreBare ∧
      (({} : RunOptions).run Manifest.overflowing.scripts.invoker (Clock.from 0) tree .empty).map
        (fun report => (report.result.value.isLeaf, report.result.value.assertCount,
          report.result.asserts)) = .ok (false, 0, 4294967296) :=
  ⟨by decide +kernel, by decide +kernel, by decide +kernel⟩

end TestScheduler.RunOptions

import Mathlib.Algebra.Ring.Nat
import TestScheduler.Pattern.Common
import TestScheduler.Proofs.Result.Cases
import TestScheduler.Proofs.Run.Building

/-! # Summaries of runs

A summary counts every test case of a result tree once in the total and once among the outcomes. As
each work item of a run has its result in its place, the total is the number of test cases among
the items, however the run is scheduled and wherever it is stopped.
-/

namespace TestScheduler

variable {Expression : Type} [Pattern.Dialect Expression]

theorem Result.isLeaf_iff {r : Result} : r.isLeaf = true ↔ r.kind = .leaf := by
  cases kind : r.kind <;> simp [isLeaf, Kind.isSuite, kind]

theorem ResultTree.length_cases (t : ResultTree) :
    t.cases.length = t.preorder.countP (·.kind = .leaf) := by
  rw [cases, ← List.countP_eq_length_filter]
  exact List.countP_congr fun r _ => by simp [Result.isLeaf_iff]

namespace Summary

/-- The counters of the outcomes that a test case can have. -/
def outcomes (s : Summary) : List Nat :=
  [s.passed, s.failed, s.errors, s.inconclusive, s.skipped, s.ignored, s.explicit, s.cancelled]

variable {s : Summary} {t : ResultTree}

/-! ## Counting -/

theorem total_count (s : Summary) (v : Verdict) : (s.count v).total = s.total + 1 := by
  unfold count
  split <;> rfl

theorem sum_outcomes_count (s : Summary) (v : Verdict) :
    (s.count v).outcomes.sum = s.outcomes.sum + 1 := by
  unfold count
  split <;> simp only [outcomes, List.sum_cons, List.sum_nil] <;> omega

theorem passed_count (s : Summary) (v : Verdict) :
    (s.count v).passed = s.passed + if v.status = .passed then 1 else 0 := by
  unfold count
  split <;> simp_all

theorem foldl_count (rs : List Result) (s : Summary) :
    let after := rs.foldl (fun s r => s.count r.verdict) s
    after.total = s.total + rs.length ∧ after.outcomes.sum = s.outcomes.sum + rs.length ∧
      after.passed = s.passed + rs.countP (·.verdict.status = .passed) := by
  induction rs generalizing s with
  | nil => exact ⟨rfl, rfl, rfl⟩
  | cons r rs ih =>
    obtain ⟨total, outcomes, passed⟩ := ih (s.count r.verdict)
    rw [total_count] at total
    rw [sum_outcomes_count] at outcomes
    rw [passed_count] at passed
    simp only [List.foldl_cons, List.length_cons, List.countP_cons, decide_eq_true_iff]
    omega

theorem ofResults_counts (t : ResultTree) :
    (ofResults t).total = t.cases.length ∧ (ofResults t).outcomes.sum = t.cases.length ∧
      (ofResults t).passed = t.cases.countP (·.verdict.status = .passed) := by
  obtain ⟨total, outcomes, passed⟩ := foldl_count t.cases { totalDurationMs := t.value.durationMs }
  exact ⟨total.trans (Nat.zero_add _), outcomes.trans (Nat.zero_add _),
    passed.trans (Nat.zero_add _)⟩

theorem isAllPassed_ofResults_iff :
    (ofResults t).isAllPassed = true ↔
      0 < t.cases.length ∧ ∀ r ∈ t.cases, r.verdict.status = .passed := by
  obtain ⟨total, -, passed⟩ := ofResults_counts t
  rw [isAllPassed, Bool.and_eq_true, decide_eq_true_iff, decide_eq_true_iff, total, passed,
    List.countP_eq_length]
  simp only [decide_eq_true_iff]

/-! ## Work items -/

/-- Whether a summary is that of the results of given items: it counts the test cases among the
items, each once by its outcome, and finds all passed if there is one and the result of none is
anything else. -/
structure Tallies (s : Summary) (items : WorkTree) (r : ResultTree) : Prop where
  adds : s.outcomes.sum = s.total
  total : s.total = items.preorder.countP (·.node.kind = .leaf)
  places : r.map Result.id = items.map (·.node.id)
  allPassed : s.isAllPassed = true ↔
    (∃ item ∈ items.preorder, item.node.kind = .leaf) ∧
      List.Forall₂ (fun item r => item.node.kind = .leaf → r.verdict.status = .passed)
        items.preorder r.preorder

theorem tallies_ofResults {items : WorkTree} {r : ResultTree}
    (headings : r.map Result.heading = items.map fun item => Result.ofNode item.node) :
    (ofResults r).Tallies items r := by
  obtain ⟨total, outcomes, -⟩ := ofResults_counts r
  have kinds : items.preorder.map (·.node.kind) = r.preorder.map (·.kind) := by
    have same := congrArg (fun t => t.preorder.map Result.kind) headings
    simpa [Function.comp_def, Result.heading, Result.ofNode] using same.symm
  have count : r.cases.length = items.preorder.countP (·.node.kind = .leaf) := by
    have same := congrArg (List.countP (· = Kind.leaf)) kinds
    rw [List.countP_map, List.countP_map] at same
    exact (ResultTree.length_cases r).trans same.symm
  refine ⟨outcomes.trans total.symm, total.trans count, Dispatcher.ids_of_headings headings, ?_⟩
  have paired : List.Forall₂ (fun item r => item.node.kind = r.kind) items.preorder r.preorder :=
    List.forall₂_map_left_iff.mp (List.forall₂_map_right_iff.mp (kinds ▸ List.forall₂_refl _))
  rw [isAllPassed_ofResults_iff, count, List.countP_pos_iff,
    forall₂_iff_forall_right paired fun item r same => by rw [same]]
  simp [ResultTree.cases, Result.isLeaf_iff]

end Summary

namespace RunOptions

/-- The outcomes of every summary add up to its total, which is the number of test cases among the
results. In a run on a tree whose leaves are bare, whatever hooks answer and stop and in whatever
order several workers serve the items, these are the test cases among the items, and all have
passed if there is one and each of them has passed. -/
theorem run_tallies (o : RunOptions) (invoker : Invoker) (clock : Clock) (tree : TestTree)
    (f : Filter) :
    let items := WorkTree.create f (Location.root tree)
    (∀ r : ResultTree, (Summary.ofResults r).outcomes.sum = (Summary.ofResults r).total ∧
      (Summary.ofResults r).total = r.preorder.countP (·.kind = .leaf)) ∧
    (tree.LeavesAreBare →
      (∃ report, o.run invoker clock tree f = .ok report ∧
        report.summary.Tallies items report.result) ∧
      ∀ n a s', Job.Scheduled o.workers (o.job invoker clock tree f)
          (o.dispatcher invoker clock).2 n (.done a) s' →
        a.fault = none ∧
          ∃ r, a.tree.result = .ok r ∧ (Summary.ofResults r).Tallies items r) := by
  intro items
  refine ⟨fun r => ?_, fun bare => ⟨?_, fun n a s' scheduled => ?_⟩⟩
  · obtain ⟨total, outcomes, -⟩ := Summary.ofResults_counts r
    exact ⟨outcomes.trans total.symm, total.trans r.length_cases⟩
  · obtain ⟨r, s, gives, runs⟩ := o.execute_runs invoker clock f tree
    have headings := runs.headings (WorkTree.bare_create f bare)
    exact ⟨_, reportOf_of_gives f gives, Summary.tallies_ofResults headings⟩
  · obtain ⟨fault, r, read, built⟩ := built_of_scheduled scheduled
    have headings := built.headings (WorkTree.bare_create f bare)
    exact ⟨fault, r, read, Summary.tallies_ofResults headings⟩

end RunOptions

end TestScheduler

namespace TestScheduler.RunOptions

/-- Two workers serve a single test case. -/
theorem run_tallies_sample :
    let tree := (Blueprint.build (.node { name := "Case", kind := .leaf } []) (.start 0)).1
    let o : RunOptions := { workers := 2 }
    let clock := Clock.from 0
    let items := WorkTree.create .empty (Location.root tree)
    tree.LeavesAreBare ∧
      (∃ report, o.run failingInvoker clock tree .empty = .ok report ∧
        report.summary.Tallies items report.result) ∧
      ∃ n a s', Job.Scheduled o.workers (o.job failingInvoker clock tree .empty)
          (o.dispatcher failingInvoker clock).2 n (.done a) s' ∧
        ∃ r, a.tree.result = .ok r ∧ (Summary.ofResults r).Tallies items r := by
  intro tree o clock items
  have bare : tree.LeavesAreBare := by decide
  obtain ⟨-, tallies⟩ := run_tallies o failingInvoker clock tree .empty
  obtain ⟨report, scheduled⟩ := tallies bare
  have waiting : Job.Scheduled o.workers (o.job failingInvoker clock tree .empty)
      (o.dispatcher failingInvoker clock).2 0 _ _ := .start
  have served := waiting.step .act (by decide +kernel)
  have permitted := served.step .act (by decide +kernel)
  have started := permitted.step .act (by decide +kernel)
  have called := started.step .act (by decide +kernel)
  have ended := called.step .act (by decide +kernel)
  exact ⟨bare, report, _, _, _, ended, (scheduled _ _ _ ended).2⟩

end TestScheduler.RunOptions

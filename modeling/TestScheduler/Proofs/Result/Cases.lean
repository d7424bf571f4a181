import TestScheduler.Result.Basic
import TestScheduler.Proofs.Tree.Throughout

/-! # Test cases of a result tree

The results of test cases are those that are not of a suite. Where they have nothing below them, the
test cases of a tree are those of its children, or the result itself.
-/

namespace TestScheduler.ResultTree

variable {r c : Result} {ts : List ResultTree}

/-- The results of the test cases, in pre-order. -/
def cases (t : ResultTree) : List Result := t.preorder.filter (·.isLeaf)

/-- Whether all test cases have no results below them. -/
def LeavesAreBare (t : ResultTree) : Prop :=
  t.Throughout fun s => s.value.isLeaf = true → s.children = []

theorem leavesAreBare_node :
    LeavesAreBare (.node r ts) ↔
      (r.isLeaf = true → ts = []) ∧ ∀ t ∈ ts, LeavesAreBare t :=
  Tree.throughout_node

theorem cases_leaf (leaf : r.isLeaf = true) : cases (.node r []) = [r] := by
  simp [cases, leaf]

theorem cases_suite (suite : r.isLeaf = false) : cases (.node r ts) = ts.flatMap cases := by
  rw [cases, Tree.preorder_eq_cons, List.filter_cons, suite, List.filter_flatMap]
  rfl

theorem mem_cases_suite_iff (suite : r.isLeaf = false) :
    c ∈ cases (.node r ts) ↔ ∃ t ∈ ts, c ∈ cases t := by
  rw [cases_suite suite, List.mem_flatMap]

end TestScheduler.ResultTree

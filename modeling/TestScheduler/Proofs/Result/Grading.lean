import Mathlib.Data.List.Perm.Basic
import Mathlib.Order.MinMax
import Mathlib.Tactic.IntervalCases
import TestScheduler.Proofs.Result.Cases
import TestScheduler.Result.Rollup

/-! # Grades of verdicts

What a standard rollup makes of some verdicts depends on the gravest of them only. Its own verdict
has that grade again. So results may be rolled up level by level or all at once, in any order.
-/

namespace TestScheduler

namespace Verdict

variable {v : Verdict}

/-- How much a verdict weighs in a rollup. -/
def grade (v : Verdict) : Nat :=
  match v.status with
  | .inconclusive => 0
  | .skipped => if v.label = some .ignored then 2 else 1
  | .passed => 3
  | .failed => if v.isCancelled then 4 else 5

/-- Whether a verdict says to be ignored only of what was skipped. -/
def Labelled (v : Verdict) : Prop := v.label = some .ignored → v.status = .skipped

instance (v : Verdict) : Decidable v.Labelled :=
  inferInstanceAs (Decidable (_ → _))

theorem grade_le (v : Verdict) : v.grade ≤ 5 := by
  grind [grade]

theorem zero_lt_grade_iff : 0 < v.grade ↔ v.status ≠ .inconclusive := by
  grind [grade]

theorem Labelled.one_lt_grade_iff (h : v.Labelled) :
    1 < v.grade ↔ 2 < v.grade ∨ v.label = some .ignored := by
  grind [grade, Labelled]

theorem two_lt_grade_iff : 2 < v.grade ↔ 3 < v.grade ∨ v.status = .passed := by
  grind [grade]

theorem three_lt_grade_iff : 3 < v.grade ↔ v.status = .failed := by
  grind [grade]

theorem four_lt_grade_iff : 4 < v.grade ↔ v.status = .failed ∧ v.isCancelled = false := by
  grind [grade]

end Verdict

namespace Rollup

variable {vs vs' : List Verdict} {n : Nat}

/-- The grade of the gravest verdict. -/
def gravest (vs : List Verdict) : Nat := (vs.map Verdict.grade).foldr max 0

theorem lt_gravest_iff : n < gravest vs ↔ ∃ v ∈ vs, n < v.grade := by
  induction vs with
  | nil => simp [gravest]
  | cons v vs ih =>
    rw [List.exists_mem_cons_iff, ← ih]
    exact lt_max_iff

theorem gravest_le (vs : List Verdict) : gravest vs ≤ 5 := by
  refine Nat.le_of_not_lt fun h => ?_
  obtain ⟨v, -, graver⟩ := lt_gravest_iff.mp h
  exact Nat.not_lt_of_le v.grade_le graver

theorem lt_gravest_map_iff {α : Type} {as : List α} {f : α → Verdict} :
    n < gravest (as.map f) ↔ ∃ a ∈ as, n < (f a).grade := by
  simp [lt_gravest_iff]

theorem zero_lt_gravest_iff : 0 < gravest vs ↔ vs.all (·.status = .inconclusive) = false := by
  simp [lt_gravest_iff, Verdict.zero_lt_grade_iff]

theorem one_lt_gravest_iff (labelled : ∀ v ∈ vs, v.Labelled) :
    1 < gravest vs ↔ 2 < gravest vs ∨ vs.any (·.label = some .ignored) = true := by
  simp only [lt_gravest_iff, List.any_eq_true, decide_eq_true_eq, ← exists_or, ← and_or_left]
  exact exists_congr fun v => and_congr_right fun hv => (labelled v hv).one_lt_grade_iff

theorem two_lt_gravest_iff :
    2 < gravest vs ↔ 3 < gravest vs ∨ vs.any (·.status = .passed) = true := by
  simp only [lt_gravest_iff, List.any_eq_true, decide_eq_true_eq, ← exists_or, ← and_or_left,
    Verdict.two_lt_grade_iff]

theorem three_lt_gravest_iff :
    3 < gravest vs ↔ (vs.filter (·.status = .failed)).isEmpty = false := by
  simp [lt_gravest_iff, Verdict.three_lt_grade_iff]

theorem four_lt_gravest_iff :
    4 < gravest vs ↔ (vs.filter (·.status = .failed)).all (·.isCancelled) = false := by
  simp [lt_gravest_iff, Verdict.four_lt_grade_iff]

/-- The verdict and message of a suite whose gravest child has a grade. -/
def ofGrade : Nat → Verdict × Option String
  | 0 => (.inconclusive, none)
  | 1 => (.skipped, none)
  | 2 => (Verdict.ignored.atSite .child, some "One or more child tests were ignored")
  | 3 => (.success, none)
  | 4 => (Verdict.cancelled.atSite .child, some "Test run was cancelled")
  | _ => (.childFailure, some "One or more child tests had errors")

theorem grade_ofGrade (h : n ≤ 5) : (ofGrade n).1.grade = n := by
  interval_cases n <;> decide

theorem labelled_ofGrade (n : Nat) : (ofGrade n).1.Labelled := by
  unfold ofGrade
  split <;> decide

theorem combineStandard_eq_ofGrade (labelled : ∀ v ∈ vs, v.Labelled) :
    combineStandard vs = ofGrade (gravest vs) := by
  have of_grade (n : Nat) (grade : gravest vs = n) : ofGrade n = ofGrade (gravest vs) := grade ▸ rfl
  have le := gravest_le vs
  have conclusive := @zero_lt_gravest_iff vs
  have ignored := one_lt_gravest_iff labelled
  have passed := @two_lt_gravest_iff vs
  have failed := @three_lt_gravest_iff vs
  have genuine := @four_lt_gravest_iff vs
  simp only [combineStandard]
  split_ifs with someFailed allCancelled somePassed allInconclusive someIgnored
  · exact of_grade 4 (by grind)
  · exact of_grade 5 (by grind)
  · exact of_grade 3 (by grind)
  · exact of_grade 0 (by grind)
  · exact of_grade 2 (by grind)
  · exact of_grade 1 (by grind)

theorem combineStandard_perm (h : vs.Perm vs') : combineStandard vs = combineStandard vs' := by
  have failed := h.filter (·.status = .failed)
  simp only [combineStandard, failed.isEmpty_eq, failed.all_eq, h.any_eq, h.all_eq]

theorem combine_perm (r : Rollup) (h : vs.Perm vs') : r.combine vs = r.combine vs' := by
  simp only [combine, h.isEmpty_eq, h.all_eq, combineStandard_perm h]

end Rollup

namespace ResultTree

variable {r : Result} {ts : List ResultTree} {t : ResultTree}

/-- The verdict and message of a tree whose suites are rolled up level by level. -/
def rolledUp : ResultTree → Verdict × Option String :=
  Tree.fold fun r below =>
    if r.isLeaf then (r.verdict, r.message) else Rollup.standard.combine (below.map (·.1))

theorem rolledUp_leaf (leaf : r.isLeaf = true) :
    rolledUp (.node r ts) = (r.verdict, r.message) := by
  rw [rolledUp, Tree.fold_node, if_pos leaf]

theorem rolledUp_suite (suite : r.isLeaf = false) :
    rolledUp (.node r ts) = Rollup.combineStandard (ts.map (·.rolledUp.1)) := by
  rw [rolledUp, Tree.fold_node, if_neg (by simp [suite]), List.map_map]
  rfl

/-- Whether rolling up has kept the grade of the gravest test case, with a fitting label. -/
def KeepsGrade (t : ResultTree) : Prop :=
  t.rolledUp.1.grade = Rollup.gravest (t.cases.map (·.verdict)) ∧ t.rolledUp.1.Labelled

theorem gravest_rolledUp (each : ∀ t ∈ ts, t.KeepsGrade) :
    Rollup.gravest (ts.map (·.rolledUp.1)) =
      Rollup.gravest ((ts.flatMap cases).map (·.verdict)) := by
  refine eq_of_forall_lt_iff fun n => ?_
  rw [Rollup.lt_gravest_map_iff, Rollup.lt_gravest_map_iff]
  have graver (t : ResultTree) (ht : t ∈ ts) :
      n < t.rolledUp.1.grade ↔ ∃ c ∈ t.cases, n < c.verdict.grade := by
    rw [(each t ht).1, Rollup.lt_gravest_map_iff]
  constructor
  · rintro ⟨t, ht, h⟩
    obtain ⟨c, hc, h⟩ := (graver t ht).mp h
    exact ⟨c, List.mem_flatMap.mpr ⟨t, ht, hc⟩, h⟩
  · rintro ⟨c, hc, h⟩
    obtain ⟨t, ht, hc⟩ := List.mem_flatMap.mp hc
    exact ⟨t, ht, (graver t ht).mpr ⟨c, hc, h⟩⟩

theorem rolledUp_eq_ofGrade (suite : r.isLeaf = false) (each : ∀ t ∈ ts, t.KeepsGrade) :
    rolledUp (.node r ts) =
      Rollup.ofGrade (Rollup.gravest ((cases (.node r ts)).map (·.verdict))) := by
  have labelled : ∀ v ∈ ts.map (·.rolledUp.1), v.Labelled :=
    List.forall_mem_map.mpr fun t ht => (each t ht).2
  rw [rolledUp_suite suite, Rollup.combineStandard_eq_ofGrade labelled, gravest_rolledUp each,
    cases_suite suite]

theorem keepsGrade (bare : t.LeavesAreBare) (labelled : ∀ c ∈ t.cases, c.verdict.Labelled) :
    t.KeepsGrade := by
  induction t using Tree.induction with
  | node r ts ih =>
    obtain ⟨bare, below⟩ := leavesAreBare_node.mp bare
    cases kind : r.isLeaf with
    | true =>
      obtain rfl := bare kind
      rw [cases_leaf kind] at labelled
      rw [KeepsGrade, cases_leaf kind, rolledUp_leaf kind]
      exact ⟨by simp [Rollup.gravest], labelled r List.mem_cons_self⟩
    | false =>
      have each (t : ResultTree) (ht : t ∈ ts) : t.KeepsGrade :=
        ih t ht (below t ht) fun c hc => labelled c ((mem_cases_suite_iff kind).mpr ⟨t, ht, hc⟩)
      rw [KeepsGrade, rolledUp_eq_ofGrade kind each]
      exact ⟨Rollup.grade_ofGrade (Rollup.gravest_le _), Rollup.labelled_ofGrade _⟩

/-- Suites may be rolled up level by level or all at once. -/
theorem rolledUp_eq_combine (suite : t.value.isLeaf = false) (bare : t.LeavesAreBare)
    (labelled : ∀ c ∈ t.cases, c.verdict.Labelled) :
    t.rolledUp = Rollup.standard.combine (t.cases.map (·.verdict)) := by
  obtain ⟨r, ts⟩ := t
  rw [Tree.value_node] at suite
  obtain ⟨-, below⟩ := leavesAreBare_node.mp bare
  have each (t : ResultTree) (ht : t ∈ ts) : t.KeepsGrade :=
    keepsGrade (below t ht) fun c hc =>
      labelled c ((mem_cases_suite_iff suite).mpr ⟨t, ht, hc⟩)
  rw [rolledUp_eq_ofGrade suite each]
  exact (Rollup.combineStandard_eq_ofGrade (List.forall_mem_map.mpr labelled)).symm

/-- A standard rollup does not depend on the grouping, and no rollup on the order. -/
theorem rollup_regroups :
    (∀ t : ResultTree, t.value.isLeaf = false → t.LeavesAreBare →
      (∀ c ∈ t.cases, c.verdict.Labelled) →
        t.rolledUp = Rollup.standard.combine (t.cases.map (·.verdict))) ∧
      ∀ (r : Rollup) (vs vs' : List Verdict), vs.Perm vs' → r.combine vs = r.combine vs' :=
  ⟨fun _ => rolledUp_eq_combine, fun r _ _ => r.combine_perm⟩

/-- An empty suite beside one with an ignored and an inconclusive test. -/
def sample : ResultTree :=
  let result (name : String) (kind : Kind) (verdict : Verdict) : Result :=
    { id := 0, name, fullName := name, kind, verdict }
  .node (result "Root" .suite .inconclusive)
    [.node (result "Empty" .suite .inconclusive) [],
      .node (result "Full" .suite .inconclusive)
        [.node (result "Ignored" .leaf .ignored) [],
          .node (result "Inconclusive" .leaf .inconclusive) []]]

theorem rollup_regroups_sample :
    sample.value.isLeaf = false ∧ sample.LeavesAreBare ∧
      (∀ c ∈ sample.cases, c.verdict.Labelled) ∧
      sample.rolledUp = Rollup.standard.combine [.ignored, .inconclusive] ∧
      [Verdict.ignored, .inconclusive].Perm [.inconclusive, .ignored] ∧
      Rollup.grouped.combine [.ignored, .inconclusive] =
        Rollup.grouped.combine [.inconclusive, .ignored] :=
  have bare : sample.LeavesAreBare := by
    simp [sample, leavesAreBare_node, Result.isLeaf, Kind.isSuite]
  have swap : [Verdict.ignored, .inconclusive].Perm [.inconclusive, .ignored] := .swap _ _ _
  ⟨rfl, bare, by decide, rollup_regroups.1 sample rfl bare (by decide), swap,
    rollup_regroups.2 .grouped _ _ swap⟩

/-- A label on an inconclusive test counts beside a skipped test, but is lost one level up. -/
example :
    let labelled : Verdict := { status := .inconclusive, label := some .ignored }
    Rollup.standard.combine [labelled, .skipped] ≠
      Rollup.standard.combine [(Rollup.standard.combine [labelled]).1, .skipped] := by decide

end ResultTree

end TestScheduler

import TestScheduler.Run.Dispatch

/-! # Failures in rollups

A suite fails with any of its children, with a hook of its own, or as a group without a conclusive
case. When a child failed for another reason than a stopped run, the suite is not cancelled either.
-/

namespace TestScheduler

/-- Why a suite fails, by the ends of its hooks and the verdicts of its children. -/
inductive FailureCause (kind : Kind) (setUp tearDown : Except Failure Outcome)
    (children : List Verdict) : Prop where
  | child {v : Verdict} (mem : v ∈ children) (failed : v.status = .failed)
  | setUp {failure : Failure} (ended : setUp = .error failure)
      (failed : failure.verdict.status = .failed)
  | tearDown {failure : Failure} (ended : tearDown = .error failure)
  /-- No case was conclusive, perhaps because there is none. -/
  | inconclusive {outcome : Outcome} (ended : setUp = .ok outcome)
      (grouped : kind.isGrouped = true) (all : ∀ v ∈ children, v.status = .inconclusive)

namespace Rollup

variable {r : Rollup} {vs : List Verdict} {v : Verdict}

theorem combineStandard_of_failed (hv : v ∈ vs) (failed : v.status = .failed) :
    (combineStandard vs).1 =
      if (vs.filter (·.status = .failed)).all (·.isCancelled) then Verdict.cancelled.atSite .child
      else .childFailure := by
  have hv : v ∈ vs.filter (·.status = .failed) := List.mem_filter.mpr ⟨hv, by simp [failed]⟩
  have some : (vs.filter (·.status = .failed)).isEmpty = false :=
    List.isEmpty_eq_false_iff.mpr (List.ne_nil_of_mem hv)
  simp only [combineStandard, some, Bool.not_false, if_true]
  split <;> rfl

theorem status_combineStandard (none : ∀ v ∈ vs, v.status ≠ .failed) :
    (combineStandard vs).1.status =
      if vs.any (·.status = .passed) then .passed
      else if vs.all (·.status = .inconclusive) then .inconclusive
      else .skipped := by
  have none : (vs.filter (·.status = .failed)).isEmpty = true := by
    rw [List.isEmpty_iff, List.filter_eq_nil_iff]
    exact fun v hv => by simp [none v hv]
  simp only [combineStandard, none, Bool.not_true, Bool.false_eq_true, if_false]
  repeat' split
  all_goals rfl

theorem status_combineStandard_ne (none : ∀ v ∈ vs, v.status ≠ .failed) :
    (combineStandard vs).1.status ≠ .failed := by
  rw [status_combineStandard none]
  repeat' split
  all_goals exact nofun

theorem failed_combineStandard_iff :
    (combineStandard vs).1.status = .failed ↔ ∃ v ∈ vs, v.status = .failed := by
  constructor
  · intro h
    apply Classical.byContradiction
    intro none
    exact status_combineStandard_ne (fun v hv failed => none ⟨v, hv, failed⟩) h
  · rintro ⟨v, hv, failed⟩
    rw [combineStandard_of_failed hv failed]
    split <;> rfl

theorem failed_combine_of_inconclusive (all : ∀ v ∈ vs, v.status = .inconclusive) :
    (grouped.combine vs).1.status = .failed := by
  unfold combine
  have all : vs.all (·.status = .inconclusive) = true :=
    List.all_eq_true.mpr fun v hv => by simp [all v hv]
  simp only [all, decide_true, Bool.true_and, if_true]
  split <;> rfl

theorem combine_of_conclusive (h : r = .grouped → ∃ v ∈ vs, v.status ≠ .inconclusive) :
    r.combine vs = combineStandard vs := by
  cases r with
  | standard => rfl
  | grouped =>
    obtain ⟨v, hv, conclusive⟩ := h rfl
    have some : vs.isEmpty = false := List.isEmpty_eq_false_iff.mpr (List.ne_nil_of_mem hv)
    have notAll : vs.all (·.status = .inconclusive) = false :=
      List.all_eq_false.mpr ⟨v, hv, by simp [conclusive]⟩
    simp [combine, some, notAll]

theorem exists_conclusive (h : ¬ (r = .grouped ∧ ∀ v ∈ vs, v.status = .inconclusive)) :
    r = .grouped → ∃ v ∈ vs, v.status ≠ .inconclusive := by
  intro grouped
  apply Classical.byContradiction
  intro none
  exact h ⟨grouped, fun v hv => Classical.byContradiction fun hne => none ⟨v, hv, hne⟩⟩

theorem failed_combine_iff :
    (r.combine vs).1.status = .failed ↔
      (∃ v ∈ vs, v.status = .failed) ∨ r = .grouped ∧ ∀ v ∈ vs, v.status = .inconclusive := by
  by_cases h : r = .grouped ∧ ∀ v ∈ vs, v.status = .inconclusive
  · obtain ⟨rfl, all⟩ := h
    exact iff_of_true (failed_combine_of_inconclusive all) (.inr ⟨rfl, all⟩)
  · rw [combine_of_conclusive (exists_conclusive h), failed_combineStandard_iff, or_iff_left h]

theorem status_combine_of_decided
    (decided : ∀ v ∈ vs, v.status = .passed ∨ v.status = .inconclusive) :
    (r.combine vs).1.status =
      if vs.any (·.status = .passed) then .passed
      else if r = .grouped then .failed
      else .inconclusive := by
  have none : ∀ v ∈ vs, v.status ≠ .failed := by
    intro v hv failed
    rcases decided v hv with h | h <;> cases failed.symm.trans h
  by_cases some : vs.any (·.status = .passed) = true
  · obtain ⟨v, hv, passed⟩ := List.any_eq_true.mp some
    have conclusive : v.status ≠ .inconclusive := by simp [of_decide_eq_true passed]
    rw [combine_of_conclusive fun _ => ⟨v, hv, conclusive⟩, status_combineStandard none]
    simp only [some, if_true]
  · have all : ∀ v ∈ vs, v.status = .inconclusive := by
      intro v hv
      refine (decided v hv).resolve_left fun passed => some ?_
      exact List.any_eq_true.mpr ⟨v, hv, decide_eq_true passed⟩
    rw [if_neg some]
    cases r with
    | grouped => exact failed_combine_of_inconclusive all
    | standard =>
      have all : vs.all (·.status = .inconclusive) = true :=
        List.all_eq_true.mpr fun v hv => decide_eq_true (all v hv)
      change (combineStandard vs).1.status = _
      rw [status_combineStandard none, if_neg some, if_pos all]
      rfl

/-- A cancelled run hides no failure that happened before it. -/
theorem not_isCancelled_combine (hv : v ∈ vs) (failed : v.status = .failed)
    (genuine : v.isCancelled = false) : (r.combine vs).1.isCancelled = false := by
  have conclusive : v.status ≠ .inconclusive := by simp [failed]
  have notAll : ((vs.filter (·.status = .failed)).all (·.isCancelled)) = false :=
    List.all_eq_false.mpr ⟨v, List.mem_filter.mpr ⟨hv, by simp [failed]⟩, by simp [genuine]⟩
  rw [combine_of_conclusive fun _ => ⟨v, hv, conclusive⟩, combineStandard_of_failed hv failed,
    notAll]
  rfl

theorem isCancelled_of_combine (h : (r.combine vs).1.isCancelled = true) :
    ∃ v ∈ vs, v.isCancelled = true := by
  have standard : (combineStandard vs).1.isCancelled = true := by
    unfold combine at h
    split at h
    · cases h
    · split at h
      · cases h
      · exact h
  by_cases some : ∃ v ∈ vs, v.status = .failed
  · obtain ⟨v, hv, failed⟩ := some
    rw [combineStandard_of_failed hv failed] at standard
    split at standard
    · rename_i all
      exact ⟨v, hv, List.all_eq_true.mp all v (List.mem_filter.mpr ⟨hv, by simp [failed]⟩)⟩
    · cases standard
  · have none : (vs.filter (·.status = .failed)).isEmpty = true := by
      rw [List.isEmpty_iff, List.filter_eq_nil_iff]
      exact fun v hv failed => some ⟨v, hv, by simpa using failed⟩
    simp only [combineStandard, none, Bool.not_true, Bool.false_eq_true, if_false] at standard
    repeat' split at standard
    all_goals cases standard

theorem ofKind_eq_grouped_iff {kind : Kind} : ofKind kind = .grouped ↔ kind.isGrouped = true := by
  cases kind <;> decide

end Rollup

theorem Failure.isCancelled_verdict (failure : Failure) : failure.verdict.isCancelled = false := by
  cases failure <;> rfl

namespace Result

variable {r : Result} {n : Node} {setUp tearDown : Except Failure Outcome}
  {children : List ResultTree} {c : ResultTree}

theorem verdict_withTearDown_of_failed (failed : r.verdict.status = .failed)
    (tearDown : Except Failure Outcome) : (r.withTearDown tearDown).verdict = r.verdict := by
  cases tearDown with
  | ok _ => rfl
  | error failure => simp only [withTearDown, withTearDownFailure, failed, if_true]

theorem failed_withTearDown_iff :
    (r.withTearDown tearDown).verdict.status = .failed ↔
      r.verdict.status = .failed ∨ ∃ failure, tearDown = .error failure := by
  by_cases failed : r.verdict.status = .failed
  · rw [verdict_withTearDown_of_failed failed]
    exact iff_of_true failed (.inl failed)
  · cases tearDown with
    | ok _ => simp [withTearDown, failed]
    | error failure =>
      refine iff_of_true ?_ (.inr ⟨failure, rfl⟩)
      simp only [withTearDown, withTearDownFailure, failed, if_false, Verdict.atSite]
      split
      · assumption
      · rfl

theorem verdict_ofSuite_ok (outcome : Outcome) :
    (ofSuite n (.ok outcome) children).verdict =
      ((Rollup.ofKind n.kind).combine (children.map (·.value.verdict))).1 := rfl

/-- What is below a suite whose setup failed has the status of that failure. -/
def FollowSetUp (setUp : Except Failure Outcome) (children : List ResultTree) : Prop :=
  ∀ failure, setUp = .error failure →
    ∀ c ∈ children, c.value.verdict.status = failure.verdict.status

theorem failed_suite_iff (follow : FollowSetUp setUp children) :
    ((ofSuite n setUp children).withTearDown tearDown).verdict.status = .failed ↔
      FailureCause n.kind setUp tearDown (children.map (·.value.verdict)) := by
  rw [failed_withTearDown_iff]
  constructor
  · rintro (failed | ⟨failure, ended⟩)
    · cases setUp with
      | ok outcome =>
        rw [verdict_ofSuite_ok, Rollup.failed_combine_iff, Rollup.ofKind_eq_grouped_iff] at failed
        rcases failed with ⟨v, hv, failed⟩ | ⟨grouped, all⟩
        · exact .child hv failed
        · exact .inconclusive rfl grouped all
      | error failure => exact .setUp rfl failed
    · exact .tearDown ended
  · intro cause
    cases cause with
    | tearDown ended => exact .inr ⟨_, ended⟩
    | setUp ended failed =>
      subst ended
      exact .inl failed
    | inconclusive ended grouped all =>
      subst ended
      rw [verdict_ofSuite_ok, Rollup.failed_combine_iff, Rollup.ofKind_eq_grouped_iff]
      exact .inl (.inr ⟨grouped, all⟩)
    | child mem failed =>
      -- Below a failed setup a child fails only if the setup does.
      left
      cases setUp with
      | ok outcome =>
        rw [verdict_ofSuite_ok, Rollup.failed_combine_iff]
        exact .inl ⟨_, mem, failed⟩
      | error failure =>
        obtain ⟨c, hc, rfl⟩ := List.mem_map.mp mem
        have same := follow failure rfl c hc
        exact same.symm.trans failed

theorem not_isCancelled_suite (follow : FollowSetUp setUp children) (hc : c ∈ children)
    (failed : c.value.verdict.status = .failed) (genuine : c.value.verdict.isCancelled = false) :
    ((ofSuite n setUp children).withTearDown tearDown).verdict.isCancelled = false := by
  have hv : c.value.verdict ∈ children.map (·.value.verdict) := List.mem_map.mpr ⟨c, hc, rfl⟩
  cases setUp with
  | ok outcome =>
    have fails : (ofSuite n (.ok outcome) children).verdict.status = .failed := by
      rw [verdict_ofSuite_ok, Rollup.failed_combine_iff]
      exact .inl ⟨_, hv, failed⟩
    rw [verdict_withTearDown_of_failed fails, verdict_ofSuite_ok]
    exact Rollup.not_isCancelled_combine hv failed genuine
  | error failure =>
    have fails : (ofSuite n (.error failure) children).verdict.status = .failed :=
      (follow failure rfl c hc).symm.trans failed
    rw [verdict_withTearDown_of_failed fails]
    exact failure.isCancelled_verdict

theorem isCancelled_of_suite
    (h : ((ofSuite n setUp children).withTearDown tearDown).verdict.isCancelled = true) :
    ∃ c ∈ children, c.value.verdict.isCancelled = true := by
  have own : (ofSuite n setUp children).verdict.isCancelled = true := by
    cases tearDown with
    | ok _ => exact h
    | error failure =>
      simp only [withTearDown, withTearDownFailure] at h
      split at h
      · exact h
      · split at h
        · exact absurd (failure.isCancelled_verdict.symm.trans h) (by decide)
        · cases h
  cases setUp with
  | ok outcome =>
    obtain ⟨v, hv, cancelled⟩ := Rollup.isCancelled_of_combine own
    obtain ⟨c, hc, rfl⟩ := List.mem_map.mp hv
    exact ⟨c, hc, cancelled⟩
  | error failure => exact absurd (failure.isCancelled_verdict.symm.trans own) (by decide)

end Result

end TestScheduler

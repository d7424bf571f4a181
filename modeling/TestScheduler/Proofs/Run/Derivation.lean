import TestScheduler.Proofs.Run.Conclusion

/-! # Derivations of runs

`Dispatcher.Runs` says in which ways a fresh tree of items comes to its end, with one rule for each
way. `Dispatcher.executes` shows that the dispatcher always takes one of them and meets no fault, so
facts about runs are proved by induction on derivations, without the dispatcher's code.
-/

namespace TestScheduler

variable {Expression : Type} [Pattern.Dialect Expression]

/-- The item after a step to another stage. -/
def WorkItem.moved (item : WorkItem) (stage : Stage) : WorkItem := { item with stage }

@[simp] theorem WorkItem.node_moved (item : WorkItem) (stage : Stage) :
    (item.moved stage).node = item.node := rfl

namespace Dispatcher

variable (d : Dispatcher)

/-- The result of a suite that is torn down after its children. -/
def OpenSuite.close (suite : OpenSuite) (rs : List ResultTree)
    (tearDown : Except Failure Outcome) (endMs : Nat) : Result :=
  { (Result.ofSuite suite.item.node suite.setUp rs).withTearDown tearDown with
    assertCount := Result.assertCountOf rs }.withTimes suite.startMs endMs

/-- Tearing down a suite whose children have given results. -/
inductive Closes (suite : OpenSuite) (rs : List ResultTree) (s : Session) :
    ResultTree → Session → Prop where
  | tornDown {tearDown : Except Failure Outcome} {context : Context} {endMs : Nat}
      {s₁ s₂ : Session}
      (called : s.call d.invoker .tearDown suite.item.node suite.context = (tearDown, context, s₁))
      (ended : s₁.readClock d.clock = (endMs, s₂)) :
      Closes suite rs s (.node (suite.close rs tearDown endMs) rs)
        ((s₂.stopIf (endsRun context (suite.close rs tearDown endMs))).record
          (.finished (.node (suite.close rs tearDown endMs) rs)))

/-- The message of everything that is cancelled. -/
def cancelledMessage : Option String := some "Test run was cancelled"

/-- The message of everything below a suite whose setup failed. -/
def setUpMessage (failure : Failure) : Option String :=
  some ("OneTimeSetUp: " ++ failure.message)

mutual

/-- The ways in which a tree of items comes to its end, with its results and the session after. -/
inductive Runs : WorkTree → Context → Session → ResultTree → Session → Prop where
  | cancelled {t : WorkTree} {c : Context} {s : Session}
      (stopped : (d.observeDeadline s).stopped = true) :
      Runs t c s (t.unstarted .cancelled cancelledMessage)
        ((d.observeDeadline s).recordAll (t.unstarted .cancelled cancelledMessage).finishes)
  | skipped {t : WorkTree} {c : Context} {s : Session} {v : Verdict} {reason : Option String}
      (going : (d.observeDeadline s).stopped = false) (skip : t.value.skip? = some (v, reason)) :
      Runs t c s (t.unstarted v reason)
        ((d.observeDeadline s).recordAll (t.unstarted v reason).finishes)
  /-- The deadline passes while a test case is about to start. -/
  | overtaken {item : WorkItem} {below : List WorkTree} {c : Context} {s : Session}
      (going : (d.observeDeadline s).stopped = false) (skip : item.skip? = none)
      (leaf : item.node.isSuite = false)
      (stopped : (d.observeDeadline (d.observeDeadline s)).stopped = true) :
      Runs (.node item below) c s
        (WorkTree.unstarted .cancelled cancelledMessage (.node item below))
        ((d.observeDeadline (d.observeDeadline s)).recordAll
          (WorkTree.unstarted .cancelled cancelledMessage (.node item below)).finishes)
  /-- A test case is started. Items below it, if there are any, have no results. -/
  | leaf {item : WorkItem} {below : List WorkTree} {c context : Context}
      {s s₁ s₂ s₃ : Session} {startMs endMs : Nat} {body : Except Failure Outcome} {r : Result}
      (going : (d.observeDeadline s).stopped = false) (skip : item.skip? = none)
      (leaf : item.node.isSuite = false)
      (still : (d.observeDeadline (d.observeDeadline s)).stopped = false)
      (started : ((d.observeDeadline (d.observeDeadline s)).record (.started item.node)).readClock
        d.clock = (startMs, s₁))
      (called : s₁.call d.invoker .test item.node c = (body, context, s₂))
      (ended : s₂.readClock d.clock = (endMs, s₃))
      (result : r = (Result.ofBody item.node body).withTimes startMs endMs) :
      Runs (.node item below) c s (.node r [])
        ((s₃.stopIf (endsRun c r)).record (.finished (.node r [])))
  | setUpFailed {item : WorkItem} {below : List WorkTree} {c : Context} {s s₁ s₂ : Session}
      {suite : OpenSuite} {failure : Failure} {r : ResultTree}
      (going : (d.observeDeadline s).stopped = false) (skip : item.skip? = none)
      (isSuite : item.node.isSuite = true)
      (opened : d.openSuite (item.moved .running) c (d.observeDeadline s) = (suite, s₁))
      (setUp : suite.setUp = .error failure)
      (closed : d.Closes suite
        (below.map (WorkTree.unstarted (setUpVerdict failure) (setUpMessage failure)))
        (s₁.recordAll (ResultTree.finishesEach
          (below.map (WorkTree.unstarted (setUpVerdict failure) (setUpMessage failure))))) r s₂) :
      Runs (.node item below) c s r s₂
  | suite {item : WorkItem} {below : List WorkTree} {c : Context} {s s₁ s₂ s₃ : Session}
      {suite : OpenSuite} {outcome : Outcome} {rs : List ResultTree} {r : ResultTree}
      (going : (d.observeDeadline s).stopped = false) (skip : item.skip? = none)
      (isSuite : item.node.isSuite = true)
      (opened : d.openSuite (item.moved .running) c (d.observeDeadline s) = (suite, s₁))
      (setUp : suite.setUp = .ok outcome)
      (children : RunsEach below suite.context s₁ rs s₂)
      (closed : d.Closes suite rs s₂ r s₃) :
      Runs (.node item below) c s r s₃

/-- Trees of items come to their end one after another. -/
inductive RunsEach : List WorkTree → Context → Session → List ResultTree → Session → Prop where
  | nil {c : Context} {s : Session} : RunsEach [] c s [] s
  | cons {t : WorkTree} {ts : List WorkTree} {c : Context} {s s₁ s₂ : Session} {r : ResultTree}
      {rs : List ResultTree} (first : Runs t (c.forChild t.value.node) s r s₁)
      (rest : RunsEach ts c s₁ rs s₂) :
      RunsEach (t :: ts) c s (r :: rs) s₂

end

variable {d} {item : WorkItem} {below ts : List WorkTree} {t : WorkTree} {c : Context}
  {s : Session}

open WorkTree

theorem closeSuite_gives (suite : OpenSuite) (hopen : suite.item.Open) {rs : List ResultTree}
    (hrs : results below = .ok rs) (s : Session) :
    ∃ r s', (d.closeSuite suite below s).Gives result r s' ∧ d.Closes suite rs s r s' := by
  rcases hcall : s.call d.invoker .tearDown suite.item.node suite.context with
    ⟨tearDown, context, s₁⟩
  simp only [closeSuite, hcall]
  exact ⟨_, _, concludeWith_gives hopen hrs _ _, .tornDown hcall rfl⟩

theorem closeAfter_gives (suite : OpenSuite) (hopen : suite.item.Open)
    {p : Progress (List WorkTree)} {rs : List ResultTree} (hp : p.Gives results rs s) :
    ∃ r s', (d.closeAfter suite p).Gives result r s' ∧ d.Closes suite rs s r s' := by
  obtain ⟨r, s', gives, closes⟩ := closeSuite_gives (d := d) suite hopen hp.value p.session
  refine ⟨r, s', ?_, hp.session ▸ closes⟩
  simp only [closeAfter, hp.fault]
  exact gives

theorem executeEach_gives
    (h : ∀ t ∈ ts, ∀ c s, ∃ r s', (d.execute t c s).Gives result r s' ∧ d.Runs t c s r s')
    (c : Context) (s : Session) :
    ∃ rs s', (d.executeEach ts c s).Gives results rs s' ∧ d.RunsEach ts c s rs s' := by
  induction ts generalizing s with
  | nil => exact ⟨[], s, ⟨rfl, rfl, rfl⟩, .nil⟩
  | cons t ts ih =>
    obtain ⟨r, s₁, first, runs⟩ := h t List.mem_cons_self (c.forChild t.value.node) s
    obtain ⟨rs, s₂, rest, each⟩ := ih (fun t ht => h t (List.mem_cons_of_mem _ ht)) s₁
    refine ⟨r :: rs, s₂, ?_, .cons runs each⟩
    simp only [executeEach, first.fault, first.session, Option.isSome_none, Bool.false_and,
      Bool.false_eq_true, if_false, Option.none_or]
    exact ⟨rest.fault, results_cons first.value rest.value, rest.session⟩

theorem cancel_gives (h : t.Fresh) (s : Session) :
    (t.cancel s).Gives result (t.unstarted .cancelled cancelledMessage)
      (s.recordAll (t.unstarted .cancelled cancelledMessage).finishes) :=
  h.finishUnstarted_gives _ _ _

theorem advance_running (stage : item.stage = .ready) :
    item.advance .running = .ok (item.moved .running) := by
  simp [WorkItem.advance, stage, Stage.allows, WorkItem.moved]

theorem open_moved (result : item.result = none) : (item.moved .running).Open :=
  ⟨by simp [WorkItem.moved], result⟩

theorem runLeaf_gives (h : Fresh (.node item below))
    (going : (d.observeDeadline s).stopped = false) (skip : item.skip? = none)
    (leaf : item.node.isSuite = false) :
    ∃ r s', (d.runLeaf item below c (d.observeDeadline s)).Gives result r s' ∧
      d.Runs (.node item below) c s r s' := by
  cases still : (d.observeDeadline (d.observeDeadline s)).stopped with
  | true =>
    simp only [runLeaf, still, if_true]
    exact ⟨_, _, cancel_gives h _, .overtaken going skip leaf still⟩
  | false =>
    obtain ⟨stage, result, -⟩ := h
    simp only [runLeaf, still, Bool.false_eq_true, if_false, advance_running stage]
    exact ⟨_, _, conclude_gives (open_moved result) _ _ _,
      .leaf going skip leaf still rfl rfl rfl rfl⟩

theorem Closes.of_moved {suite : OpenSuite} {stage : Stage} {rs : List ResultTree} {r : ResultTree}
    {s s' : Session} (h : d.Closes { suite with item := suite.item.moved stage } rs s r s') :
    d.Closes suite rs s r s' := by
  cases h with
  | tornDown called ended => exact .tornDown called ended

theorem openSuite_item (item : WorkItem) (c : Context) (s : Session) :
    (d.openSuite item c s).1.item = item := rfl

theorem runSuite_gives (h : Fresh (.node item below))
    (ih : ∀ t ∈ below, ∀ c s, ∃ r s', (d.execute t c s).Gives result r s' ∧ d.Runs t c s r s')
    (going : (d.observeDeadline s).stopped = false) (skip : item.skip? = none)
    (isSuite : item.node.isSuite = true) :
    ∃ r s', (d.execute (.node item below) c s).Gives result r s' ∧
      d.Runs (.node item below) c s r s' := by
  obtain ⟨stage, result, each⟩ := h
  rcases opened : d.openSuite (item.moved .running) c (d.observeDeadline s) with ⟨suite, s₁⟩
  have hitem : suite.item = item.moved .running := by
    rw [← openSuite_item (item.moved .running) c (d.observeDeadline s), opened]
  have hopen : suite.item.Open := hitem ▸ open_moved result
  simp only [execute, going, skip, isSuite, advance_running stage, opened, Bool.not_true,
    Bool.false_eq_true, if_false]
  cases setUp : suite.setUp with
  | error failure =>
    obtain ⟨r, s₂, gives, closed⟩ := closeAfter_gives (d := d) suite hopen
      (Fresh.finishEachUnstarted_gives each (setUpVerdict failure) (setUpMessage failure) s₁)
    exact ⟨r, s₂, gives, .setUpFailed going skip isSuite opened setUp closed⟩
  | ok outcome =>
    cases below with
    | nil =>
      obtain ⟨r, s₂, gives, closed⟩ := closeSuite_gives (d := d) suite hopen results_nil s₁
      exact ⟨r, s₂, gives, .suite going skip isSuite opened setUp .nil closed⟩
    | cons t ts =>
      obtain ⟨rs, s₂, gives, children⟩ := executeEach_gives ih suite.context s₁
      have waits : suite.item.advance .waitingForChildren =
          .ok (suite.item.moved .waitingForChildren) := by
        simp [hitem, WorkItem.advance, WorkItem.moved, Stage.allows]
      have hopen' : (suite.item.moved .waitingForChildren).Open :=
        ⟨by simp [WorkItem.moved], hopen.result⟩
      obtain ⟨r, s₃, gives, closed⟩ := closeAfter_gives (d := d)
        { suite with item := suite.item.moved .waitingForChildren } hopen' gives
      simp only [waits, List.isEmpty_cons, Bool.false_eq_true, if_false]
      rw [setUp] at gives
      exact ⟨r, s₃, gives, .suite going skip isSuite opened setUp children closed.of_moved⟩

/-- The dispatcher takes every fresh tree of items to its end, by one of the derived ways. -/
theorem executes (h : t.Fresh) (d : Dispatcher) (c : Context) (s : Session) :
    ∃ r s', (d.execute t c s).Gives result r s' ∧ d.Runs t c s r s' := by
  induction t using Tree.induction generalizing c s with
  | node item below ih =>
    cases going : (d.observeDeadline s).stopped with
    | true =>
      simp only [execute, going, if_true]
      exact ⟨_, _, cancel_gives h _, .cancelled going⟩
    | false =>
      cases skip : item.skip? with
      | some pair =>
        obtain ⟨v, reason⟩ := pair
        simp only [execute, going, skip, Bool.false_eq_true, if_false]
        exact ⟨_, _, h.finishUnstarted_gives v reason _, .skipped going skip⟩
      | none =>
        cases isSuite : item.node.isSuite with
        | false =>
          simp only [execute, going, skip, isSuite, Bool.not_false, Bool.false_eq_true, if_false,
            if_true]
          exact runLeaf_gives h going skip isSuite
        | true =>
          have each : ∀ t ∈ below, Fresh t := by cases h with | node _ _ each => exact each
          exact runSuite_gives h (fun t ht c s => ih t ht (each t ht) c s) going skip isSuite

end Dispatcher

end TestScheduler

import TestScheduler.Pattern.Common
import TestScheduler.Proofs.Run.Proceeding

/-! # Results are written once

A call of the dispatcher on coherent items either takes all of them to their results or ends in a
fault, and the fault is never that a result is read too early.
-/

namespace TestScheduler

variable {Expression : Type} [Pattern.Dialect Expression]

theorem Stage.allows_running_iff {stage : Stage} :
    stage.allows .running = true ↔ stage = .ready := by
  cases stage <;> simp [Stage.allows]

namespace WorkTree

variable {item : WorkItem} {stage : Stage} {below below' ts ts' : List WorkTree} {t t' : WorkTree}
  {s : Session} {v : Verdict} {message : Option String}

/-- How a call on a tree of items ends, with or without a fault. -/
inductive Ends (t : WorkTree) : Progress WorkTree → Prop where
  | concluded {t' : WorkTree} {s : Session} (h : t.Concludes t') : Ends t ⟨t', s, none⟩
  | faulted {t' : WorkTree} {s : Session} {fault : Fault} (h : t.Proceeds t')
      (ready : ∀ test, fault ≠ .resultNotReady test) : Ends t ⟨t', s, some fault⟩

/-- How calls on several trees end. -/
inductive EndsEach (ts : List WorkTree) : Progress (List WorkTree) → Prop where
  | concluded {ts' : List WorkTree} {s : Session} (h : List.Forall₂ Concludes ts ts') :
      EndsEach ts ⟨ts', s, none⟩
  | faulted {ts' : List WorkTree} {s : Session} {fault : Fault} (h : List.Forall₂ Proceeds ts ts')
      (ready : ∀ test, fault ≠ .resultNotReady test) : EndsEach ts ⟨ts', s, some fault⟩

theorem Ends.proceeds {p : Progress WorkTree} (h : t.Ends p) : t.Proceeds p.value := by
  cases h with
  | concluded h => exact .concluded h
  | faulted h => exact h

theorem Ends.ready {p : Progress WorkTree} (h : t.Ends p) (test : String) :
    p.fault ≠ some (.resultNotReady test) := by
  cases h with
  | concluded => exact nofun
  | faulted _ ready => exact fun same => ready test (Option.some.inj same)

theorem results_of_concludes (h : List.Forall₂ Concludes ts ts') :
    ∃ rs, results ts' = .ok rs ∧ rs.map (Tree.map Result.heading) = ts.map headings ∧
      ∀ t ∈ ts, t.Blank := by
  induction h with
  | nil => exact ⟨[], results_nil, rfl, List.forall_mem_nil _⟩
  | cons first _ ih =>
    obtain ⟨rs, hrs, same, blank⟩ := ih
    cases first with
    | @intro _ _ r blankFirst headings =>
      refine ⟨r :: rs, results_cons rfl hrs, ?_, List.forall_mem_cons.mpr ⟨blankFirst, blank⟩⟩
      rw [List.map_cons, headings, same, List.map_cons]

theorem ends_conclude (after : (item.moved stage).Open) (blank : Blank (.node item below))
    {r : ResultTree} (same : r.map Result.heading = headings (.node item below)) (s : Session) :
    Ends (.node item below) (conclude (item.moved stage) [] r s) := by
  simp only [conclude, after.complete]
  exact .concluded (.intro blank same)

theorem ends_concludeWith (before : item.Open) (after : (item.moved stage).Open)
    (each : List.Forall₂ Concludes below below') (s : Session)
    {make : List ResultTree → Session → ResultTree × Session}
    (made : ∀ rs s, (make rs s).1.map Result.heading =
      .node (Result.ofNode item.node) (rs.map (Tree.map Result.heading))) :
    Ends (.node item below) (concludeWith (item.moved stage) below' s make) := by
  obtain ⟨rs, hrs, same, blank⟩ := results_of_concludes each
  simp only [concludeWith, hrs]
  refine ends_conclude after (blank_node.mpr ⟨before.result, blank⟩) ?_ _
  rw [made, same, headings_node]

theorem ends_finishEachUnstarted (coherent : ∀ t ∈ ts, t.Coherent)
    (step : ∀ t ∈ ts, ∀ s, t.Ends (finishUnstarted v message t s)) (s : Session) :
    EndsEach ts (finishEachUnstarted v message ts s) := by
  induction ts generalizing s with
  | nil => exact .concluded .nil
  | cons t ts ih =>
    obtain ⟨coherentFirst, coherent⟩ := List.forall_mem_cons.mp coherent
    obtain ⟨stepFirst, step⟩ := List.forall_mem_cons.mp step
    have first := stepFirst s
    rw [finishEachUnstarted]
    generalize finishUnstarted v message t s = p at first
    cases first with
    | faulted h ready =>
      exact .faulted (.cons h (List.forall₂_same.mpr fun t ht => (coherent t ht).refl)) ready
    | @concluded t' s' h =>
      have rest := ih coherent step s'
      dsimp only
      generalize finishEachUnstarted v message ts s' = p at rest
      cases rest with
      | concluded h' => exact .concluded (.cons h h')
      | faulted h' ready => exact .faulted (.cons (.concluded h) h') ready

theorem ends_conclude_of_done {r r' : ResultTree} (stage : item.stage = .complete)
    (result : item.result = some r) (s : Session) :
    Ends (.node item []) (conclude item [] r' s) := by
  have again : item.complete r' = .error (.resultAlreadySet item.node.fullName) := by
    simp [WorkItem.complete, result]
  rw [conclude, again]
  exact .faulted (.done stage result) (by simp)

theorem Coherent.ends_finishUnstarted (h : t.Coherent) (v : Verdict) (message : Option String)
    (s : Session) : t.Ends (finishUnstarted v message t s) := by
  induction t using Tree.induction generalizing s with
  | node item below ih =>
    cases h with
    | done stage result => exact ends_conclude_of_done stage result s
    | pending isOpen _ each =>
      have children := ends_finishEachUnstarted each (fun t ht => ih t ht (each t ht)) s
      rw [finishUnstarted]
      generalize finishEachUnstarted v message below s = p at children
      cases children with
      | faulted each ready => exact .faulted (.unmoved isOpen each) ready
      | concluded each =>
        refine @ends_concludeWith _ _ item item.stage _ _ isOpen isOpen each _ _ fun rs s => ?_
        rw [Tree.map_node]
        rfl

end WorkTree

namespace Dispatcher

open WorkTree

variable {d : Dispatcher} {item : WorkItem} {stage : Stage} {below below' ts : List WorkTree}
  {t : WorkTree} {c : Context} {s : Session}

theorem ends_closeSuite {suite : OpenSuite} (before : item.Open) (after : (item.moved stage).Open)
    (hitem : suite.item = item.moved stage) (each : List.Forall₂ Concludes below below')
    (s : Session) : Ends (.node item below) (d.closeSuite suite below' s) := by
  obtain ⟨_, startMs, setUp, context⟩ := suite
  obtain rfl := hitem
  rcases called : s.call d.invoker .tearDown (item.moved stage).node context with
    ⟨tearDown, context', s₁⟩
  simp only [closeSuite, called]
  refine ends_concludeWith before after each s₁ fun rs s => ?_
  rw [Tree.map_node]
  congr 1
  exact OpenSuite.heading_close ⟨item.moved stage, startMs, setUp, context⟩ rs tearDown _

theorem ends_closeAfter {suite : OpenSuite} (before : item.Open) (after : (item.moved stage).Open)
    (hitem : suite.item = item.moved stage) {p : Progress (List WorkTree)}
    (children : EndsEach below p) : Ends (.node item below) (d.closeAfter suite p) := by
  cases children with
  | concluded each => exact ends_closeSuite before after hitem each _
  | faulted each ready =>
    simp only [closeAfter, hitem]
    exact .faulted (.pending before after each) ready

theorem ends_executeEach (coherent : ∀ t ∈ ts, t.Coherent)
    (step : ∀ t ∈ ts, ∀ c s, t.Ends (d.execute t c s)) (c : Context) (s : Session) :
    EndsEach ts (d.executeEach ts c s) := by
  induction ts generalizing s with
  | nil => exact .concluded .nil
  | cons t ts ih =>
    obtain ⟨coherentFirst, coherent⟩ := List.forall_mem_cons.mp coherent
    obtain ⟨stepFirst, step⟩ := List.forall_mem_cons.mp step
    have first := stepFirst (c.forChild t.value.node) s
    rw [executeEach]
    generalize d.execute t (c.forChild t.value.node) s = p at first
    cases first with
    | @concluded t' s' h =>
      have rest := ih coherent step s'
      simp only [Option.isSome_none, Bool.false_and, Bool.false_eq_true, if_false, Option.none_or]
      generalize d.executeEach ts c s' = p at rest
      cases rest with
      | concluded h' => exact .concluded (.cons h h')
      | faulted h' ready => exact .faulted (.cons (.concluded h) h') ready
    | @faulted t' s' fault h ready =>
      cases parallel : d.isParallel with
      | false =>
        exact .faulted (.cons h (List.forall₂_same.mpr fun t ht => (coherent t ht).refl)) ready
      | true =>
        have rest := ih coherent step s'
        simp only [Bool.not_true, Bool.and_false, Bool.false_eq_true, if_false, Option.some_or]
        generalize d.executeEach ts c s' = p at rest
        cases rest with
        | concluded h' => exact .faulted (.cons h (h'.imp fun _ _ => .concluded)) ready
        | faulted h' => exact .faulted (.cons h h') ready

theorem advance_running_of_not_ready (stage : item.stage ≠ .ready) :
    item.advance .running =
      .error (.illegalTransition item.node.fullName item.stage .running) := by
  rw [WorkItem.advance, if_neg (Stage.allows_running_iff.not.mpr stage)]

theorem ends_runLeaf (h : Coherent (.node item below)) (leaf : item.node.isSuite = false)
    (c : Context) (s : Session) : Ends (.node item below) (d.runLeaf item below c s) := by
  cases stopped : (d.observeDeadline s).stopped with
  | true =>
    simp only [runLeaf, stopped, if_true]
    exact h.ends_finishUnstarted _ _ _
  | false =>
    simp only [runLeaf, stopped, Bool.false_eq_true, if_false]
    by_cases stage : item.stage = .ready
    · rw [advance_running stage]
      cases h with
      | done complete => cases stage.symm.trans complete
      | pending isOpen bare =>
        obtain rfl := bare leaf
        refine ends_conclude (open_moved isOpen.result)
          (blank_node.mpr ⟨isOpen.result, List.forall_mem_nil _⟩) ?_ _
        rw [headings_node, Tree.map_node, Result.heading_withTimes, Result.heading_ofBody]
        rfl
    · rw [advance_running_of_not_ready stage]
      exact .faulted h.refl (by simp)

theorem ends_runSuite (isOpen : item.Open) (stage : item.stage = .ready)
    (each : ∀ t ∈ below, t.Coherent) (step : ∀ t ∈ below, ∀ c s, t.Ends (d.execute t c s))
    (going : (d.observeDeadline s).stopped = false) (skip : item.skip? = none)
    (isSuite : item.node.isSuite = true) :
    Ends (.node item below) (d.execute (.node item below) c s) := by
  rcases opened : d.openSuite (item.moved .running) c (d.observeDeadline s) with ⟨suite, s₁⟩
  have hitem : suite.item = item.moved .running := by
    rw [← openSuite_item (d := d) (item.moved .running) c (d.observeDeadline s), opened]
  have running : (item.moved .running).Open := open_moved isOpen.result
  simp only [execute, going, skip, isSuite, advance_running stage, opened, Bool.not_true,
    Bool.false_eq_true, if_false]
  cases suite.setUp with
  | error failure =>
    exact ends_closeAfter isOpen running hitem
      (ends_finishEachUnstarted each (fun t ht s => (each t ht).ends_finishUnstarted _ _ s) s₁)
  | ok outcome =>
    cases below with
    | nil => exact ends_closeSuite isOpen running hitem .nil s₁
    | cons t ts =>
      have waits : suite.item.advance .waitingForChildren =
          .ok (item.moved .waitingForChildren) := by
        simp [hitem, WorkItem.advance, WorkItem.moved, Stage.allows]
      have waiting : (item.moved .waitingForChildren).Open :=
        ⟨by simp [WorkItem.moved], isOpen.result⟩
      simp only [waits, List.isEmpty_cons, Bool.false_eq_true, if_false]
      exact ends_closeAfter isOpen waiting rfl (ends_executeEach each step suite.context s₁)

theorem ends_execute_of_not_ready (h : Coherent (.node item below)) (stage : item.stage ≠ .ready)
    (going : (d.observeDeadline s).stopped = false) (skip : item.skip? = none)
    (isSuite : item.node.isSuite = true) :
    Ends (.node item below) (d.execute (.node item below) c s) := by
  simp only [execute, going, skip, isSuite, advance_running_of_not_ready stage, Bool.not_true,
    Bool.false_eq_true, if_false]
  exact .faulted h.refl (by simp)

/-- Every call on coherent items ends as it should. -/
theorem ends_execute (d : Dispatcher) (h : t.Coherent) (c : Context) (s : Session) :
    t.Ends (d.execute t c s) := by
  induction t using Tree.induction generalizing c s with
  | node item below ih =>
    cases going : (d.observeDeadline s).stopped with
    | true =>
      simp only [execute, going, if_true]
      exact h.ends_finishUnstarted _ _ _
    | false =>
      cases skip : item.skip? with
      | some pair =>
        simp only [execute, going, skip, Bool.false_eq_true, if_false]
        exact h.ends_finishUnstarted _ _ _
      | none =>
        cases isSuite : item.node.isSuite with
        | false =>
          simp only [execute, going, skip, isSuite, Bool.not_false, Bool.false_eq_true, if_false,
            if_true]
          exact ends_runLeaf h isSuite c _
        | true =>
          by_cases stage : item.stage = .ready
          · cases h with
            | done complete => cases stage.symm.trans complete
            | pending isOpen _ each =>
              exact ends_runSuite isOpen stage each (fun t ht c s => ih t ht (each t ht) c s) going
                skip isSuite
          · exact ends_execute_of_not_ready h stage going skip isSuite

end Dispatcher

/-- A call of a dispatcher on the item at a path. -/
structure Dispatch where
  dispatcher : Dispatcher
  path : List Nat
  context : Context
  session : Session

namespace Dispatch

/-- What the call comes to, if there is an item at its path. -/
def run? (call : Dispatch) (t : WorkTree) : Option (Progress WorkTree) :=
  (t.subtreeAt? call.path).map fun u => call.dispatcher.execute u call.context call.session

/-- The items after the call. -/
def after (call : Dispatch) (t : WorkTree) : WorkTree :=
  match call.run? t with
  | some p => t.replaceAt p.value call.path
  | none => t

variable {call : Dispatch} {t : WorkTree} {p : Progress WorkTree}

theorem ends_of_run? (coherent : t.Coherent) (h : call.run? t = some p) :
    ∃ u, t.subtreeAt? call.path = some u ∧ WorkTree.Ends u p := by
  obtain ⟨u, place, rfl⟩ := Option.map_eq_some_iff.mp h
  exact ⟨u, place, call.dispatcher.ends_execute (coherent.subtree place) _ _⟩

theorem proceeds_after (coherent : t.Coherent) (call : Dispatch) : t.Proceeds (call.after t) := by
  unfold after
  cases h : call.run? t with
  | none => exact coherent.refl
  | some p =>
    obtain ⟨u, place, ends⟩ := ends_of_run? coherent h
    exact .replaceAt coherent place ends.proceeds

end Dispatch

namespace WorkTree

/-- The items after several calls. -/
def afterAll (t : WorkTree) (calls : List Dispatch) : WorkTree :=
  calls.foldl (fun t call => call.after t) t

theorem proceeds_afterAll {t : WorkTree} (coherent : t.Coherent) (calls : List Dispatch) :
    t.Proceeds (t.afterAll calls) := by
  induction calls generalizing t with
  | nil => exact coherent.refl
  | cons call calls ih =>
    have first := call.proceeds_after coherent
    exact first.trans (ih (first.coherent coherent))

/-- What holds of the items that calls have made of others. -/
structure WrittenOnce (made t : WorkTree) : Prop where
  complete : ∀ item ∈ t.preorder, item.result.isSome = true ↔ item.stage = .complete
  /-- A result is one for every item that was made below its own. -/
  whole : ∀ path u r, t.subtreeAt? path = some u → u.value.result = some r →
    ∃ u₀, made.subtreeAt? path = some u₀ ∧ r.map Result.id = u₀.map fun item => item.node.id
  /-- Nothing that is done later changes an item with a result. -/
  kept : ∀ path u, t.subtreeAt? path = some u → u.value.result.isSome = true →
    ∀ calls, (t.afterAll calls).subtreeAt? path = some u
  ready : ∀ (call : Dispatch) p, call.run? t = some p →
    ∀ test, p.fault ≠ some (.resultNotReady test)

/-- Results are written once, whichever items are executed, in whatever order and how often. -/
theorem writtenOnce_afterAll (f : Filter) {l : Location Node}
    (bare : ∀ k ∈ l.preorder, k.value.kind = .leaf → k.tree.children = [])
    (calls : List Dispatch) : (create f l).WrittenOnce ((create f l).afterAll calls) := by
  have fresh := fresh_create f l
  have start := fresh.coherent (bare_create f bare)
  have proceeds := proceeds_afterAll start calls
  have coherent := proceeds.coherent start
  refine ⟨fun item hitem => ?_, fun path u r place result => ?_, fun path u place some more => ?_,
    fun call p ran test => ?_⟩
  · obtain ⟨path, u, place, rfl⟩ := Tree.exists_subtreeAt?_of_mem_preorder hitem
    exact (coherent.subtree place).result_iff
  · obtain ⟨u₀, origin, h⟩ := proceeds.subtree place
    exact ⟨u₀, origin, h.ids (fresh.blank.subtree origin) result⟩
  · obtain ⟨r, result⟩ := Option.isSome_iff_exists.mp some
    exact (proceeds_afterAll coherent more).keeps place result
  · obtain ⟨u, -, ends⟩ := Dispatch.ends_of_run? coherent ran
    exact ends.ready test

end WorkTree

end TestScheduler

namespace TestScheduler.WorkTree

/-- The slow test is executed before the whole tree, which can then not be taken to its end. -/
theorem writtenOnce_afterAll_sample :
    let made := create .empty (Location.root TestTree.sample)
    let call (path : List Nat) : Dispatch :=
      { dispatcher := { invoker := RunOptions.failingInvoker }, path
        context := Context.initial 1, session := {} }
    let t := made.afterAll [call [1], call [], call []]
    (∀ k ∈ (Location.root TestTree.sample).preorder,
      k.value.kind = .leaf → k.tree.children = []) ∧
      t.preorder.map (·.stage) = [.waitingForChildren, .complete, .complete] ∧
      made.WrittenOnce t :=
  ⟨by decide, by decide +kernel, writtenOnce_afterAll _ (by decide) _⟩

end TestScheduler.WorkTree

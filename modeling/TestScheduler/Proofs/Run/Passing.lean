import TestScheduler.Pattern.Common
import TestScheduler.Proofs.Filter.Reach
import TestScheduler.Proofs.Query.Compiling
import TestScheduler.Proofs.Run.Bodies
import TestScheduler.Proofs.Run.Serving

/-! # Runs in which everything passes

When every hook succeeds and every body passes, what the filter leaves of the tree decides whether
the run fails: it fails where a group is left without any of its test cases, and nowhere else.
-/

namespace TestScheduler

variable {Expression : Type} [Pattern.Dialect Expression]

/-- Whether every hook that a log tells of succeeded and every body passed. -/
def Invoker.Passes (invoker : Invoker) (log : List Event) : Prop :=
  ∀ before call, before ++ [.called call] <+: log →
    ∃ outcome, (invoker before call).ending.guarded = .ok outcome ∧
      (call.hook = .test → outcome.verdict.status = .passed)

theorem Invoker.Passes.ended {invoker : Invoker} {log : List Event} {hook : Hook} {n : Node}
    {call : Call} {ending : Except Failure Outcome} (h : invoker.Passes log)
    (called : invoker.Answers log hook n call ending) :
    ∃ outcome, ending = .ok outcome ∧ (hook = .test → outcome.verdict.status = .passed) := by
  obtain ⟨rfl, -, _, ⟨before, logged, rfl⟩, rfl⟩ := called
  exact h before call logged

theorem Node.isSuite_of_isGrouped {n : Node} (h : n.kind.isGrouped = true) : n.isSuite = true := by
  cases kind : n.kind <;> simp_all [Kind.isGrouped, isSuite, Kind.isSuite]

namespace WorkTree

/-- Whether there is a test case among the items. -/
def HasCase (t : WorkTree) : Prop := t.Somewhere fun t => t.value.node.isSuite = false

/-- Whether the topmost item is that of a group without a test case. -/
def Deserted (t : WorkTree) : Prop := t.value.node.kind.isGrouped = true ∧ ¬ t.HasCase

/-- How the status of the topmost result follows from the items when everything passes. -/
structure Settles (t : WorkTree) (status : Status) : Prop where
  failed : status = .failed ↔ t.Somewhere Deserted
  passed : status = .passed → t.HasCase
  inconclusive : status = .inconclusive → ¬ t.HasCase
  notSkipped : status ≠ .skipped

variable {item : WorkItem} {below : List WorkTree} {t : WorkTree} {status : Status}

theorem hasCase_node :
    HasCase (.node item below) ↔ item.node.isSuite = false ∨ ∃ t ∈ below, t.HasCase :=
  Tree.somewhere_node

theorem settles_leaf (leaf : item.node.isSuite = false) : Settles (.node item []) .passed := by
  have hasCase : HasCase (.node item []) := hasCase_node.mpr (.inl leaf)
  refine ⟨?_, fun _ => hasCase, nofun, nofun⟩
  rw [Tree.somewhere_node]
  constructor
  · exact nofun
  · rintro (deserted | ⟨t, ht, -⟩)
    · exact absurd hasCase deserted.2
    · cases ht

theorem Settles.passed_or_inconclusive (h : t.Settles status)
    (standing : ¬ t.Somewhere Deserted) :
    status = .passed ∧ t.HasCase ∨ status = .inconclusive ∧ ¬ t.HasCase := by
  cases status with
  | passed => exact .inl ⟨rfl, h.passed rfl⟩
  | inconclusive => exact .inr ⟨rfl, h.inconclusive rfl⟩
  | skipped => exact absurd rfl h.notSkipped
  | failed => exact absurd (h.failed.mp rfl) standing

theorem settles_of_decided {vs : List Verdict} (suite : item.node.isSuite = true)
    (standing : ¬ ∃ t ∈ below, t.Somewhere Deserted)
    (each : List.Forall₂ (fun t v =>
      v.status = .passed ∧ HasCase t ∨ v.status = .inconclusive ∧ ¬ HasCase t) below vs) :
    Settles (.node item below) ((Rollup.ofKind item.node.kind).combine vs).1.status := by
  have decided : ∀ v ∈ vs, v.status = .passed ∨ v.status = .inconclusive :=
    forall_right_of_forall₂ each fun _ _ _ h => h.imp And.left And.left
  have hasCase : HasCase (.node item below) ↔ ∃ v ∈ vs, v.status = .passed := by
    rw [hasCase_node, suite]
    simp only [Bool.true_eq_false, false_or]
    refine exists_mem_iff_of_forall₂ each fun t _ v h => ?_
    rcases h with ⟨h, has⟩ | ⟨h, has⟩ <;> simp [h, has]
  have top : Tree.Somewhere Deserted (.node item below) ↔ Deserted (.node item below) := by
    rw [Tree.somewhere_node, or_iff_left standing]
  rw [Rollup.status_combine_of_decided decided]
  by_cases some : ∃ v ∈ vs, v.status = .passed
  · have any : vs.any (·.status = .passed) = true := by simpa using some
    rw [if_pos any]
    refine ⟨?_, fun _ => hasCase.mpr some, nofun, nofun⟩
    rw [top]
    exact iff_of_false nofun fun h => h.2 (hasCase.mpr some)
  · have any : ¬ vs.any (·.status = .passed) = true := by simpa using some
    rw [if_neg any]
    split
    · next grouped =>
      have grouped := Rollup.ofKind_eq_grouped_iff.mp grouped
      exact ⟨iff_of_true rfl (top.mpr ⟨grouped, mt hasCase.mp some⟩), nofun, nofun, nofun⟩
    · next plain =>
      refine ⟨?_, nofun, fun _ => mt hasCase.mp some, nofun⟩
      rw [top]
      exact iff_of_false nofun fun h => plain (Rollup.ofKind_eq_grouped_iff.mpr h.1)

/-- The status of a suite is settled by those of its children. -/
theorem settles_suite {vs : List Verdict} (suite : item.node.isSuite = true)
    (each : List.Forall₂ (fun t v => Settles t v.status) below vs) :
    Settles (.node item below) ((Rollup.ofKind item.node.kind).combine vs).1.status := by
  by_cases deserted : ∃ t ∈ below, t.Somewhere Deserted
  · have childFailed : ∃ v ∈ vs, v.status = .failed :=
      (exists_mem_iff_of_forall₂ each fun _ _ _ h => h.failed.symm).mp deserted
    rw [Rollup.failed_combine_iff.mpr (.inl childFailed)]
    exact ⟨iff_of_true rfl (Tree.somewhere_node.mpr (.inr deserted)), nofun, nofun, nofun⟩
  · have standing : ∀ t ∈ below, ¬ t.Somewhere Deserted := fun t ht some => deserted ⟨t, ht, some⟩
    have each := (List.forall₂_and_left below vs).mpr ⟨standing, each⟩
    exact settles_of_decided suite deserted
      (each.imp fun _ _ h => h.2.passed_or_inconclusive h.1)

/-- Whether every item may be started. -/
def Unbarred (t : WorkTree) : Prop := t.Throughout fun t => t.value.skip? = none

theorem unbarred_node :
    Unbarred (.node item below) ↔ item.skip? = none ∧ ∀ t ∈ below, t.Unbarred :=
  Tree.throughout_node

end WorkTree

/-- If everything passes, the items alone settle the status of the result. -/
theorem Invoker.Served.settles {invoker : Invoker} {last : Session} {t : WorkTree} {r : ResultTree}
    {es : List Event} (h : invoker.Served last t r es) (bare : t.Bare) (unbarred : t.Unbarred)
    (going : last.stopped = false) (passes : invoker.Passes last.events) :
    t.Settles r.value.verdict.status := by
  induction h using Invoker.Served.rec (motive_2 := fun setUp ts rs _ _ =>
    setUp.isOk = true → (∀ t ∈ ts, t.Bare) → (∀ t ∈ ts, t.Unbarred) →
    List.Forall₂ (fun t v => WorkTree.Settles t v.status) ts (rs.map (·.value.verdict))) with
  | cancelled stopped =>
    rw [going] at stopped
    cases stopped
  | @skipped t _ _ skip =>
    obtain ⟨item, below⟩ := t
    cases skip.symm.trans (WorkTree.unbarred_node.mp unbarred).1
  | leaf _ leaf called result =>
    obtain rfl := (WorkTree.bare_node.mp bare).1 leaf
    obtain ⟨outcome, rfl, passed⟩ := passes.ended called
    rw [result, Tree.value_node]
    exact passed rfl ▸ WorkTree.settles_leaf leaf
  | @suite item _ suite _ _ rs _ _ endMs _ _ isSuite same opened _ closed result ih =>
    obtain ⟨outcome, setUp, -⟩ := passes.ended opened
    obtain ⟨_, rfl, -⟩ := passes.ended closed
    have each := ih (by rw [setUp]; rfl) (WorkTree.bare_node.mp bare).2
      (WorkTree.unbarred_node.mp unbarred).2
    rw [result, Tree.value_node, Dispatcher.OpenSuite.close, setUp, same]
    exact WorkTree.settles_suite isSuite each
  | unstarted _ ok => cases ok
  | nil => exact .nil
  | cons _ _ first rest ok bare unbarred =>
    obtain ⟨bareFirst, bareRest⟩ := List.forall_mem_cons.mp bare
    obtain ⟨unbarredFirst, unbarredRest⟩ := List.forall_mem_cons.mp unbarred
    exact .cons (first bareFirst unbarredFirst) (rest ok bareRest unbarredRest)

namespace WorkTree

variable {f : Filter} {l : Location Node} {tree : TestTree}

theorem unbarred_create (runnable : ∀ k ∈ l.preorder, k.value.runnability = .runnable) :
    (create f l).Unbarred := by
  refine throughout_create fun k hk => ?_
  rw [WorkItem.skip?, node_create, runnable k hk]

theorem deserted_create_iff (bare : tree.LeavesAreBare) (hl : l ∈ tree.locations) :
    (create f l).Deserted ↔
      l.value.kind.isGrouped = true ∧ ∀ c ∈ f.select tree, l ∉ c.ancestors := by
  have placed := Location.placed_of_mem_locations hl
  rw [Deserted, node_create]
  refine and_congr_right fun grouped => ?_
  have suite := Node.isSuite_of_isGrouped grouped
  have hasCase : (create f l).HasCase ↔ ∃ c ∈ f.select tree, l ∈ c.ancestors := by
    rw [Filter.exists_select_below_iff bare hl, HasCase, somewhere_create_iff placed]
    simp only [node_create, Node.isSuite_eq_false_iff]
    constructor
    · rintro ⟨k, hk, stays, leaf⟩
      have differs : k ≠ l := by
        rintro rfl
        cases suite.symm.trans (Node.isSuite_eq_false_iff.mpr leaf)
      exact ⟨k, (Location.mem_preorder_iff.mp hk).resolve_left differs,
        stays.resolve_left differs, leaf⟩
    · rintro ⟨k, hk, keeps, leaf⟩
      exact ⟨k, Location.mem_preorder_of_descendants hk, .inr keeps, leaf⟩
  rw [hasCase]
  simp

end WorkTree

/-- Whether a status is a failure exactly if some group that stays in the run has no selected
test case. Without conjunctions that is only a root that is a group, when nothing is selected. -/
structure Filter.Decides (f : Filter) (tree : TestTree) (status : Status) : Prop where
  deserted : status = .failed ↔
    ∃ l ∈ tree.locations, l.value.kind.isGrouped = true ∧
      (l = Location.root tree ∨ f.keeps l = true) ∧ ∀ c ∈ f.select tree, l ∉ c.ancestors
  disjunctive : f.Disjunctive →
    (status = .failed ↔ tree.value.kind.isGrouped = true ∧ f.select tree = [])

theorem WorkTree.Settles.decides {f : Filter} {tree : TestTree} {status : Status}
    (h : (create f (Location.root tree)).Settles status) (bare : tree.LeavesAreBare)
    (filled : ∀ l ∈ tree.locations, l.value.isSuite = true → l.tree.children ≠ []) :
    f.Decides tree status := by
  have failed : status = .failed ↔
      ∃ l ∈ tree.locations, l.value.kind.isGrouped = true ∧
        (l = Location.root tree ∨ f.keeps l = true) ∧ ∀ c ∈ f.select tree, l ∉ c.ancestors := by
    rw [h.failed, somewhere_create_iff (.root tree)]
    refine exists_congr fun l => and_congr_right fun hl => ?_
    rw [deserted_create_iff bare hl, and_left_comm]
  refine ⟨failed, fun disjunctive => failed.trans ?_⟩
  have root : Location.root tree ∈ tree.locations := Location.self_mem_preorder _
  constructor
  · rintro ⟨l, hl, grouped, stays, none⟩
    have dropped : ¬ f.keeps l = true := by
      intro keeps
      obtain ⟨c, hc, above⟩ := disjunctive.exists_select_below bare filled hl grouped keeps
      exact none c hc above
    obtain rfl := stays.resolve_right dropped
    exact ⟨grouped, f.selectFrom_of_drops (Bool.of_not_eq_true dropped)⟩
  · rintro ⟨grouped, none⟩
    refine ⟨_, root, grouped, .inl rfl, ?_⟩
    rw [none]
    exact List.forall_mem_nil _

namespace RunOptions

theorem passingInvoker_passes (log : List Event) : passingInvoker.Passes log :=
  fun _ _ _ => ⟨.passed, rfl, fun _ => rfl⟩

/-- If every hook succeeds, every body passes and nothing is stopped, the filter alone decides
whether a run fails, in whatever order the items are served. -/
theorem run_failed_iff_deserted (o : RunOptions) (invoker : Invoker) (clock : Clock)
    {tree : TestTree} (bare : tree.LeavesAreBare)
    (filled : ∀ l ∈ tree.locations, l.value.isSuite = true → l.tree.children ≠ [])
    (runnable : ∀ l ∈ tree.locations, l.value.runnability = .runnable) (f : Filter) :
    ((o.execute invoker clock tree f).session.stopped = false →
      invoker.Passes (o.execute invoker clock tree f).session.events →
      ∃ report, o.run invoker clock tree f = .ok report ∧
        f.Decides tree report.result.value.verdict.status) ∧
    ∀ n a s, Job.Scheduled o.workers (o.job invoker clock tree f)
        (o.dispatcher invoker clock).2 n (.done a) s →
      s.stopped = false → invoker.Passes s.events →
      a.fault = none ∧
        ∃ r, a.tree.result = .ok r ∧ f.Decides tree r.value.verdict.status := by
  have bareItems := WorkTree.bare_create f bare
  have unbarred := WorkTree.unbarred_create (f := f) runnable
  constructor
  · intro going passes
    obtain ⟨r, s, gives, served⟩ := o.execute_served invoker clock tree f
    rw [gives.session] at going passes
    exact ⟨_, reportOf_of_gives f gives,
      (served.settles bareItems unbarred going passes).decides bare filled⟩
  · intro n a s scheduled going passes
    obtain ⟨fault, r, _, read, -, served⟩ := served_of_scheduled scheduled
    exact ⟨fault, r, read, (served.settles bareItems unbarred going passes).decides bare filled⟩

end RunOptions

/-- A suite whose only child is a group of two test cases of different categories. -/
def TestTree.twoCategories : TestTree :=
  let case (name category : String) : Blueprint :=
    .node { name, kind := .leaf, attributes := [.category category] } []
  let group : Blueprint :=
    .node { name := "Cases", kind := .parameterizedSuite } [case "One" "A", case "Two" "B"]
  (Blueprint.build (.node { name := "Root", kind := .suite } [group]) (.start 0)).1

end TestScheduler

namespace TestScheduler.RunOptions

/-- The group stays in the run with one test case, whether or not there are two workers. -/
theorem run_failed_iff_deserted_sample :
    let tree := TestTree.twoCategories
    let f := Filter.not (.literal .category "A") false
    let o : RunOptions := { workers := 2 }
    let clock := Clock.from 0
    tree.LeavesAreBare ∧
      (∀ l ∈ tree.locations, l.value.isSuite = true → l.tree.children ≠ []) ∧
      (∀ l ∈ tree.locations, l.value.runnability = .runnable) ∧
      (f.select tree).map (·.value.name) = ["Two"] ∧
      (∃ report, o.run passingInvoker clock tree f = .ok report ∧
        report.result.value.verdict.status ≠ .failed) ∧
      ∃ n a s, Job.Scheduled o.workers (o.job passingInvoker clock tree f)
          (o.dispatcher passingInvoker clock).2 n (.done a) s ∧ s.stopped = false ∧
        passingInvoker.Passes s.events ∧
        ∃ r, a.tree.result = .ok r ∧ r.value.verdict.status ≠ .failed := by
  intro tree f o clock
  have bare : tree.LeavesAreBare := by decide
  have filled : ∀ l ∈ tree.locations, l.value.isSuite = true → l.tree.children ≠ [] := by decide
  have runnable : ∀ l ∈ tree.locations, l.value.runnability = .runnable := by decide
  obtain ⟨alone, several⟩ :=
    run_failed_iff_deserted o passingInvoker clock bare filled runnable f
  have passes {status : Status} (decides : f.Decides tree status) : status ≠ .failed := by
    intro fails
    have grouped := ((decides.disjunctive .not).mp fails).1
    have root : tree.value.kind.isGrouped = false := by decide
    cases root.symm.trans grouped
  obtain ⟨report, ran, decides⟩ := alone (by decide +kernel) (passingInvoker_passes _)
  have waiting : Job.Scheduled o.workers (o.job passingInvoker clock tree f)
      (o.dispatcher passingInvoker clock).2 0 _ _ := .start
  have served := waiting.step .act (by decide +kernel)
  have started := served.step .act (by decide +kernel)
  have setUp := started.step .act (by decide +kernel)
  have groupServed := setUp.step (.first .act) (by decide +kernel)
  have groupStarted := groupServed.step (.first .act) (by decide +kernel)
  have groupSetUp := groupStarted.step (.first .act) (by decide +kernel)
  have testServed := groupSetUp.step (.first (.first .act)) (by decide +kernel)
  have permitted := testServed.step (.first (.first .act)) (by decide +kernel)
  have testStarted := permitted.step (.first (.first .act)) (by decide +kernel)
  have tested := testStarted.step (.first (.first .act)) (by decide +kernel)
  have testEnded := tested.step (.first (.first .act)) (by decide +kernel)
  have groupJoined := testEnded.step (.first .joined) (by decide +kernel)
  have groupTornDown := groupJoined.step (.first .act) (by decide +kernel)
  have groupEnded := groupTornDown.step (.first .act) (by decide +kernel)
  have joined := groupEnded.step .joined (by decide +kernel)
  have tornDown := joined.step .act (by decide +kernel)
  have ended := tornDown.step .act (by decide +kernel)
  obtain ⟨-, r, read, decides'⟩ := several _ _ _ ended rfl (passingInvoker_passes _)
  exact ⟨bare, filled, runnable, by decide +kernel, ⟨report, ran, passes decides⟩,
    _, _, _, ended, rfl, passingInvoker_passes _, r, read, passes decides'⟩

/-- A conjunction may keep a group for one test case by one of its terms and for another test case
by another. The group is then left without any, and the run fails although everything passes. -/
theorem not_run_passes_of_conjunction :
    let tree := TestTree.twoCategories
    let f := Filter.and [.literal .category "A", .literal .category "B"]
    let ran := ({} : RunOptions).execute passingInvoker (Clock.from 0) tree f
    Query.compile "cat == A && cat == B" = .ok f ∧ tree.LeavesAreBare ∧
      (∀ l ∈ tree.locations, l.value.isSuite = true → l.tree.children ≠ []) ∧
      (∀ l ∈ tree.locations, l.value.runnability = .runnable) ∧
      ran.session.stopped = false ∧ passingInvoker.Passes ran.session.events ∧
      ∃ report, ({} : RunOptions).run passingInvoker (Clock.from 0) tree f = .ok report ∧
        report.result.value.verdict.status = .failed := by
  have htext : Query.tokenize "cat == A && cat == B" = .ok ([⟨.word "cat", "cat", 0⟩,
      ⟨.comparison .equal, "==", 4⟩, ⟨.word "A", "A", 7⟩, ⟨.and, "&&", 9⟩, ⟨.word "cat", "cat", 12⟩,
      ⟨.comparison .equal, "==", 16⟩, ⟨.word "B", "B", 19⟩] ++ [Query.Token.endAt 20]) := by
    decide +kernel
  have operand (value : String) : Query.IsOperand
      [.word "cat", .comparison .equal, .word value] (.literal .category value) :=
    .predicate (.word value) .equal
  have more := Query.AreFactors.cons (.inl rfl)
    (by simp [Query.MayFollow, Query.Token.Kind.IsReserved, Query.Token.Kind.IsKeyword])
    (operand "B") .nil
  have compiled : Query.compile "cat == A && cat == B" = .ok (.and [_, _]) :=
    (Query.compile_eq_ok_iff (by decide) htext).mpr ⟨_, .single (.chain (operand "A") more), rfl⟩
  obtain ⟨report, ran, failed⟩ := exists_eq_ok_of_toOption_any
    (p := ({} : RunOptions).run passingInvoker (Clock.from 0) .twoCategories
      (.and [.literal .category "A", .literal .category "B"]))
    (q := fun report => report.result.value.verdict.status = .failed) (by decide +kernel)
  exact ⟨compiled, by decide, by decide, by decide, by decide +kernel, passingInvoker_passes _,
    report, ran, of_decide_eq_true failed⟩

end TestScheduler.RunOptions

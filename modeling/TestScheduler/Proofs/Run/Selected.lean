import TestScheduler.Pattern.Common
import TestScheduler.Proofs.Filter.Selection
import TestScheduler.Proofs.Manifest.Validity
import TestScheduler.Proofs.Run.Bodies
import TestScheduler.Proofs.Run.Serving

/-! # Selected test cases in runs

The test cases that are listed as selected and the items of a run are found by separate searches,
of which only the first looks at the root. Whatever happens in a run, the bodies that it calls are
those of selected test cases. A root that is itself a test case is the one exception: it always has
an item.
-/

namespace TestScheduler

variable {Expression : Type} [Pattern.Dialect Expression]

namespace WorkTree

variable {f : Filter} {tree : TestTree}

/-- Unless the root is a test case that is dropped, all items that may run are selected. -/
theorem bodies_create_sublist_select (bare : tree.LeavesAreBare)
    (kept : tree.value.isSuite = false → f.keeps (Location.root tree) = true) :
    (create f (Location.root tree)).bodies.Sublist ((f.select tree).map Location.value) := by
  have runs_keeps : (tree.testCases.filter f.runs).Sublist (tree.testCases.filter f.keeps) :=
    List.monotone_filter_right _ fun _ => keeps_of_runs
  rw [bodies_create (.root tree) bare kept nofun, f.select_eq_filter bare]
  exact runs_keeps.map _

theorem bodies_create_sublist_leaf {l : Location Node} (leaf : l.value.isSuite = false) :
    (create f l).bodies.Sublist [l.value] := by
  cases starts : f.starts l with
  | true =>
    rw [bodies_create_of_starts starts, leaf]
    exact List.Sublist.refl _
  | false =>
    rw [bodies_create_of_not_starts starts]
    exact List.nil_sublist _

theorem bodies_create_sublist (bare : tree.LeavesAreBare) :
    (create f (Location.root tree)).bodies.Sublist ((f.select tree).map Location.value) ∨
      tree.value.isSuite = false ∧ f.keeps (Location.root tree) = false ∧
        (create f (Location.root tree)).bodies.Sublist [tree.value] := by
  by_cases dropped : tree.value.isSuite = false ∧ f.keeps (Location.root tree) = false
  · obtain ⟨leaf, drops⟩ := dropped
    exact .inr ⟨leaf, drops, bodies_create_sublist_leaf leaf⟩
  · have kept : tree.value.isSuite = false → f.keeps (Location.root tree) = true :=
      fun leaf => Bool.of_not_eq_false fun drops => dropped ⟨leaf, drops⟩
    exact .inl (bodies_create_sublist_select bare kept)

end WorkTree

/-- No run, however it goes, calls a body of an item that may not run, or one twice. -/
theorem Invoker.Served.bodies_sublist {invoker : Invoker} {last : Session} {t : WorkTree}
    {r : ResultTree} {es : List Event} (h : invoker.Served last t r es) :
    (es.filterMap Event.tested?).Sublist t.bodies := by
  induction h using Invoker.Served.rec (motive_2 := fun _ ts _ es _ =>
    (es.filterMap Event.tested?).Sublist (ts.flatMap WorkTree.bodies)) with
  | cancelled | skipped | unstarted => simp
  | leaf skip leaf called =>
    simp [List.filterMap_cons, called.hook, called.node, WorkTree.bodies_node, skip, leaf]
  | suite skip isSuite _ opened _ closed _ ih =>
    simpa [List.filterMap_cons, opened.hook, closed.hook, WorkTree.bodies_node, skip, isSuite]
      using ih
  | nil => exact List.nil_sublist _
  | cons _ _ first rest =>
    rw [List.filterMap_append]
    exact first.append rest

namespace RunOptions

/-- The bodies that a run calls are those of test cases that the filter selects, each at most once,
except that a root which is itself a test case runs even if it is dropped. Items that are served
one after another keep the order of the test cases; a schedule of several workers need not. -/
theorem run_selected (o : RunOptions) (invoker : Invoker) (clock : Clock) {m : Manifest}
    (valid : m.validate = .ok ()) (numbering : Numbering) (f : Filter) :
    let tree := (m.root.blueprint.build numbering).1
    (∃ report log, o.run invoker clock tree f = .ok report ∧
      (o.execute invoker clock tree f).session.events = log ∧
      ((log.filterMap Event.tested?).Sublist ((f.select tree).map Location.value) ∨
        tree.value.isSuite = false ∧ f.keeps (Location.root tree) = false ∧
          (log.filterMap Event.tested?).Sublist [tree.value])) ∧
    ∀ n j s, Job.Scheduled o.workers (o.job invoker clock tree f)
        (o.dispatcher invoker clock).2 n j s →
      (s.events.filterMap Event.tested?).Subperm ((f.select tree).map Location.value) ∨
        tree.value.isSuite = false ∧ f.keeps (Location.root tree) = false ∧
          (s.events.filterMap Event.tested?).Subperm [tree.value] := by
  intro tree
  have bare : tree.LeavesAreBare := Manifest.leavesAreBare_of_validate valid numbering
  have bodies := WorkTree.bodies_create_sublist (f := f) bare
  constructor
  · obtain ⟨r, s, gives, served⟩ := o.execute_served invoker clock tree f
    refine ⟨_, s.events, reportOf_of_gives f gives, by rw [gives.session], ?_⟩
    have tested := served.bodies_sublist
    exact bodies.imp (fun h => tested.trans h) (.imp id (.imp id fun h => tested.trans h))
  · intro n j s scheduled
    obtain ⟨_, _, es, ⟨done, perm, part⟩, served⟩ := served_after_scheduled scheduled
    have among {ns : List Node} (h : (es.filterMap Event.tested?).Sublist ns) :
        (s.events.filterMap Event.tested?).Subperm ns :=
      ⟨_, perm.filterMap _, (part.filterMap _).trans h⟩
    have tested := served.bodies_sublist
    exact bodies.imp (fun h => among (tested.trans h))
      (.imp id (.imp id fun h => among (tested.trans h)))

end RunOptions

end TestScheduler

namespace TestScheduler.RunOptions

/-- Two workers call the bodies of two test cases, the second first. -/
theorem run_selected_sample :
    let m := Manifest.ofRoot
      (.node (.ofName "Root") [.node (.ofName "A") [], .node (.ofName "B") []])
    let tree := (m.root.blueprint.build (.start 0)).1
    let f := Filter.literal .name "Root"
    let o : RunOptions := { workers := 2 }
    let clock := Clock.from 0
    m.validate = .ok () ∧ (f.select tree).map (·.value.name) = ["A", "B"] ∧
      ∃ n j s, Job.Scheduled o.workers (o.job failingInvoker clock tree f)
          (o.dispatcher failingInvoker clock).2 n j s ∧
        (s.events.filterMap Event.tested?).map (·.name) = ["B", "A"] ∧
        ((s.events.filterMap Event.tested?).Subperm ((f.select tree).map Location.value) ∨
          tree.value.isSuite = false ∧ f.keeps (Location.root tree) = false ∧
            (s.events.filterMap Event.tested?).Subperm [tree.value]) := by
  intro m tree f o clock
  have valid : m.validate = .ok () := by decide +kernel
  have waiting : Job.Scheduled o.workers (o.job failingInvoker clock tree f)
      (o.dispatcher failingInvoker clock).2 0 _ _ := .start
  have served := waiting.step .act (by decide +kernel)
  have started := served.step .act (by decide +kernel)
  have setUp := started.step .act (by decide +kernel)
  have servedA := setUp.step (.first .act) (by decide +kernel)
  have servedB := servedA.step (.second .act) (by decide +kernel)
  have permittedA := servedB.step (.first .act) (by decide +kernel)
  have permittedB := permittedA.step (.second .act) (by decide +kernel)
  have startedA := permittedB.step (.first .act) (by decide +kernel)
  have startedB := startedA.step (.second .act) (by decide +kernel)
  have calledB := startedB.step (.second .act) (by decide +kernel)
  have calledA := calledB.step (.first .act) (by decide +kernel)
  have tested := (run_selected o failingInvoker clock valid (.start 0) f).2 _ _ _ calledA
  exact ⟨valid, by decide +kernel, _, _, _, calledA, by decide +kernel, tested⟩

/-- A test case that is the root of its tree is run although the filter selects nothing. -/
theorem not_run_selected_of_leaf :
    let m := Manifest.ofRoot (.node (.ofName "Solo") [])
    let tree := (m.root.blueprint.build (.start 0)).1
    let f := Filter.literal .name "Other"
    let log := (({} : RunOptions).execute passingInvoker (Clock.from 0) tree f).session.events
    m.validate = .ok () ∧ (log.filterMap Event.tested?).map (·.name) = ["Solo"] ∧
      ¬ ∀ n ∈ log.filterMap Event.tested?, n ∈ (f.select tree).map Location.value :=
  ⟨by decide +kernel, by decide +kernel, by decide +kernel⟩

end TestScheduler.RunOptions

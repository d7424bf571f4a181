import TestScheduler.Pattern.Common
import TestScheduler.Proofs.Filter.Naming
import TestScheduler.Proofs.Run.Bodies
import TestScheduler.Proofs.Run.Serving

/-! # Explicit tests in runs

An explicit test is started only if the filter of the run requests it. A query that is compiled to a
guarded filter requests a test only for a predicate that names it; any other query requests all that
it does not exclude.
-/

namespace TestScheduler

variable {Expression : Type} [Pattern.Dialect Expression]

namespace WorkTree

variable {f : Filter} {l : Location Node}

theorem forall_create {P : WorkItem → Prop}
    (h : ∀ k ∈ l.preorder, P { location := k, filter := f }) :
    ∀ item ∈ (create f l).preorder, P item := by
  induction l using Location.induction with
  | step l ih =>
    rw [create_eq_node, Tree.preorder_eq_cons, List.forall_mem_cons]
    refine ⟨h l l.self_mem_preorder, List.forall_mem_flatMap.mpr fun t ht => ?_⟩
    obtain ⟨c, hc, rfl⟩ := List.mem_map.mp ht
    have hc := (List.mem_filter.mp hc).1
    exact ih c hc fun k hk => h k (Location.mem_preorder_of_child hc hk)

end WorkTree

/-- Whether an item that its node does not bar stands for a given node. -/
def WorkItem.Startable (n : Node) (item : WorkItem) : Prop := item.node = n ∧ item.skip? = none

namespace ResultTree

variable {n : Node}

theorem not_started_mem_finishes (r : ResultTree) : .started n ∉ r.finishes :=
  fun mem => nomatch isFinished_of_mem_finishes mem

theorem not_started_mem_finishesEach (rs : List ResultTree) : .started n ∉ finishesEach rs :=
  fun mem => nomatch isFinished_of_mem_finishesEach mem

end ResultTree

theorem Invoker.Served.startable {invoker : Invoker} {last : Session} {t : WorkTree}
    {r : ResultTree} {es : List Event} {n : Node} (h : invoker.Served last t r es)
    (started : .started n ∈ es) : ∃ item ∈ t.preorder, item.Startable n := by
  induction h using Invoker.Served.rec (motive_2 := fun _ ts _ es _ => .started n ∈ es →
    ∃ item ∈ ts.flatMap Tree.preorder, item.Startable n) with
  | cancelled | skipped => exact absurd started (ResultTree.not_started_mem_finishes _)
  | @leaf item _ _ _ _ _ _ skip =>
    obtain rfl : n = item.node := by simpa using started
    exact ⟨item, by simp, rfl, skip⟩
  | @suite item _ _ _ _ _ es _ _ _ skip _ _ _ _ _ _ ih =>
    rw [Tree.preorder_eq_cons, List.exists_mem_cons_iff]
    have logged : n = item.node ∨ .started n ∈ es := by simpa using started
    rcases logged with rfl | below
    · exact .inl ⟨rfl, skip⟩
    · exact .inr (ih below)
  | unstarted _ started => exact absurd started (ResultTree.not_started_mem_finishesEach _)
  | nil started => cases started
  | cons _ _ first rest started =>
    simp only [List.flatMap_cons, List.mem_append, or_and_right, exists_or]
    exact (List.mem_append.mp started).imp first rest

namespace WorkTree

variable {f : Filter} {tree : TestTree} {n : Node}

theorem requests_of_startable {item : WorkItem}
    (hitem : item ∈ (create f (Location.root tree)).preorder) (startable : item.Startable n)
    (explicit : n.runnability = .explicit) :
    ∃ l ∈ tree.locations, l.value = n ∧ f.requests l = true := by
  have of_create : ∀ item ∈ (create f (Location.root tree)).preorder,
      item.Startable n → ∃ l ∈ tree.locations, l.value = n ∧ f.requests l = true := by
    refine forall_create fun l hl => ?_
    rintro ⟨rfl, skip⟩
    have starts : f.starts l = true := WorkItem.skip?_eq_none_iff.mp skip
    have explicit : l.value.runnability = .explicit := explicit
    refine ⟨l, hl, rfl, ?_⟩
    simpa [Filter.starts, explicit] using starts
  exact of_create item hitem startable

end WorkTree

namespace RunOptions

variable {f : Filter} {tree : TestTree} {n : Node}

/-- An explicit node is started only if the filter of the run requests it, in whatever order the
items are served. -/
theorem requests_of_started {o : RunOptions} {invoker : Invoker} {clock : Clock}
    (started : .started n ∈ (o.execute invoker clock tree f).session.events ∨
      ∃ k j s, Job.Scheduled o.workers (o.job invoker clock tree f)
        (o.dispatcher invoker clock).2 k j s ∧ .started n ∈ s.events)
    (explicit : n.runnability = .explicit) :
    ∃ l ∈ tree.locations, l.value = n ∧ f.requests l = true := by
  obtain ⟨item, hitem, startable⟩ :
      ∃ item ∈ (WorkTree.create f (Location.root tree)).preorder, item.Startable n := by
    rcases started with alone | ⟨k, j, s, scheduled, started⟩
    · obtain ⟨r, s, gives, served⟩ := o.execute_served invoker clock tree f
      rw [gives.session] at alone
      exact served.startable alone
    · obtain ⟨_, _, _, part, served⟩ := served_after_scheduled scheduled
      exact served.startable (part.subset started)
  exact WorkTree.requests_of_startable hitem startable explicit

end RunOptions

namespace Query

variable {text : String} {f : Filter}

/-- A query that compiles to a guarded filter starts explicit tests only for a predicate that names
them. Any other query, unless it is blank, requests every explicit test of a tree in which nothing
is excluded. -/
theorem compile_names_explicit (compiled : compile text = .ok f) (tree : TestTree) :
    (f.Guarded →
      (∀ l ∈ tree.locations, f.requests l = true → ∃ p ∈ f.predicates true, p.keeps l = true) ∧
      ∀ (o : RunOptions) (invoker : Invoker) (clock : Clock) (n : Node),
        (.started n ∈ (o.execute invoker clock tree f).session.events ∨
          ∃ k j s, Job.Scheduled o.workers (o.job invoker clock tree f)
            (o.dispatcher invoker clock).2 k j s ∧ .started n ∈ s.events) →
        n.runnability = .explicit →
        ∃ l ∈ tree.locations, l.value = n ∧ ∃ p ∈ f.predicates true, p.keeps l = true) ∧
    (¬ f.Guarded → (∀ p ∈ f.predicates false, ∀ l ∈ tree.locations, p.keeps l = false) →
      ∀ l ∈ tree.locations, l.value.runnability = .explicit → f.requests l = true) := by
  refine ⟨fun guarded => ⟨fun l hl => guarded.exists_predicate hl, ?_⟩,
    fun loose against l hl => ?_⟩
  · intro o invoker clock n started explicit
    obtain ⟨l, hl, value, requested⟩ := RunOptions.requests_of_started started explicit
    exact ⟨l, hl, value, guarded.exists_predicate hl requested⟩
  · intro explicit
    rcases queried_of_compile compiled with rfl | ⟨g, queried, rfl⟩
    · exact absurd .empty loose
    · have unmarked : g.markTop = g := by
        cases g with
        | not => exact absurd .not loose
        | _ => rfl
      rw [unmarked] at loose against ⊢
      have accepts := queried.accepts_eq_true (fun rests => loose (.rests rests)) against hl
      refine Filter.requests_eq_true_iff.mpr ⟨?_, explicit, accepts⟩
      cases queried <;> rfl

end Query

end TestScheduler

namespace TestScheduler.Query

theorem compile_names_explicit_sample :
    let f : Filter := .and [.predicate .name (.literal "Hidden"),
      .not (.predicate .category (.literal "Slow")) false]
    let l := TestTree.sample.locations.get ⟨3, by decide⟩
    compile "name==Hidden && cat!=Slow" = .ok f ∧ f.Guarded ∧
      l.value.runnability = .explicit ∧ f.requests l = true ∧
      ∃ p ∈ f.predicates true, p.keeps l = true := by
  have htext : tokenize "name==Hidden && cat!=Slow" = .ok ([⟨.word "name", "name", 0⟩,
      ⟨.comparison .equal, "==", 4⟩, ⟨.word "Hidden", "Hidden", 6⟩, ⟨.and, "&&", 13⟩,
      ⟨.word "cat", "cat", 16⟩, ⟨.comparison .notEqual, "!=", 19⟩, ⟨.word "Slow", "Slow", 21⟩] ++
      [Token.endAt 25]) := by decide +kernel
  have named : IsOperand [.word "name", .comparison .equal, .word "Hidden"]
      (.predicate .name (.literal "Hidden")) := .predicate (.word "Hidden") .equal
  have excluded : IsOperand [.word "cat", .comparison .notEqual, .word "Slow"]
      (.not (.predicate .category (.literal "Slow")) false) := .predicate (.word "Slow") .notEqual
  have more := AreFactors.cons (.inl rfl)
    (by simp [MayFollow, Token.Kind.IsReserved, Token.Kind.IsKeyword]) excluded .nil
  have compiled := (compile_eq_ok_iff (by decide) htext).mpr ⟨_, .single (.chain named more), rfl⟩
  have guarded : (Filter.and [.predicate .name (.literal "Hidden"),
      .not (.predicate .category (.literal "Slow")) false]).Guarded :=
    .rests (.andKept List.mem_cons_self .predicate)
  exact ⟨compiled, guarded, by decide, by decide,
    ((compile_names_explicit compiled .sample).1 guarded).1 _ (List.get_mem ..) (by decide)⟩

/-- A query of two exclusions names nothing, and still an explicit test is started. -/
theorem not_compile_names_explicit_of_exclusions :
    let f : Filter := .and [.not (.predicate .category (.literal "Slow")) false,
      .not (.predicate .category (.literal "Flaky")) false]
    let l := TestTree.sample.locations.get ⟨3, by decide⟩
    compile "cat!=Slow && cat!=Flaky" = .ok f ∧ l.value.runnability = .explicit ∧
      f.requests l = true ∧ f.predicates true = [] ∧
      .started l.value ∈ (({} : RunOptions).execute RunOptions.passingInvoker (Clock.from 0) .sample
        f).session.events := by
  have htext : tokenize "cat!=Slow && cat!=Flaky" = .ok ([⟨.word "cat", "cat", 0⟩,
      ⟨.comparison .notEqual, "!=", 3⟩, ⟨.word "Slow", "Slow", 5⟩, ⟨.and, "&&", 10⟩,
      ⟨.word "cat", "cat", 13⟩, ⟨.comparison .notEqual, "!=", 16⟩, ⟨.word "Flaky", "Flaky", 18⟩] ++
      [Token.endAt 23]) := by decide +kernel
  have excluded (value : String) : IsOperand [.word "cat", .comparison .notEqual, .word value]
      (.not (.predicate .category (.literal value)) false) := .predicate (.word value) .notEqual
  have more := AreFactors.cons (.inl rfl)
    (by simp [MayFollow, Token.Kind.IsReserved, Token.Kind.IsKeyword]) (excluded "Flaky") .nil
  have compiled := (compile_eq_ok_iff (by decide) htext).mpr
    ⟨_, .single (.chain (excluded "Slow") more), rfl⟩
  exact ⟨compiled, by decide, by decide, rfl, by decide +kernel⟩

end TestScheduler.Query

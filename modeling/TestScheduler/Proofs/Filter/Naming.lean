import TestScheduler.Proofs.Filter.Keeping
import TestScheduler.Proofs.Query.Recompiling

/-! # Predicates that name nodes

A predicate names nodes if it stands under an even number of negations, and excludes them under an
odd one. Whether a filter can keep a node only for a predicate that names it can be read off its
shape. A filter of another shape keeps every node that no predicate excludes.
-/

namespace TestScheduler

namespace Location

variable {α : Type u} {l k a : Location α} {t : Tree α}

theorem mem_ancestors_or_preorder (hl : l ∈ k.preorder) (ha : a ∈ l.ancestors) :
    a ∈ k.ancestors ∨ a ∈ k.preorder := by
  induction k using induction with
  | step k ih =>
    rcases mem_preorder_iff.mp hl with rfl | hl
    · exact .inl ha
    · obtain ⟨c, hc, hl⟩ := mem_descendants_iff.mp hl
      rcases ih c hc hl with above | below
      · rw [ancestors_of_child hc] at above
        rcases List.mem_cons.mp above with rfl | above
        · exact .inr a.self_mem_preorder
        · exact .inl above
      · exact .inr (mem_preorder_of_child hc below)

theorem mem_locations_of_kin (hl : l ∈ t.locations) (hk : k ∈ l.kin) : k ∈ t.locations := by
  rcases mem_kin_iff.mp hk with rfl | above | below
  · exact hl
  · exact (mem_ancestors_or_preorder hl above).resolve_left nofun
  · exact mem_preorder_trans hl (mem_preorder_of_descendants below)

end Location

namespace Filter

variable {Expression : Type} [Pattern.Dialect Expression]

mutual

/-- The predicates that stand under an even number of negations, or under an odd one. -/
def predicates (even : Bool) : Filter → List Filter
  | empty => []
  | predicate field m => if even then [predicate field m] else []
  | and terms => predicatesEach even terms
  | or terms => predicatesEach even terms
  | not term _ => predicates (!even) term

def predicatesEach (even : Bool) : List Filter → List Filter
  | [] => []
  | f :: fs => predicates even f ++ predicatesEach even fs

end

variable {f : Filter} {fs : List Filter} {even kept : Bool} {tree : TestTree} {l : Location Node}

theorem predicatesEach_eq_flatMap (even : Bool) (fs : List Filter) :
    predicatesEach even fs = fs.flatMap (predicates even) := by
  induction fs with
  | nil => rfl
  | cons f fs ih => rw [predicatesEach, ih, List.flatMap_cons]

theorem mem_predicates_and {p : Filter} (hf : f ∈ fs) (hp : p ∈ f.predicates even) :
    p ∈ (and fs).predicates even := by
  rw [predicates, predicatesEach_eq_flatMap]
  exact List.mem_flatMap.mpr ⟨f, hf, hp⟩

theorem mem_predicates_or {p : Filter} (hf : f ∈ fs) (hp : p ∈ f.predicates even) :
    p ∈ (or fs).predicates even := by
  rw [predicates, predicatesEach_eq_flatMap]
  exact List.mem_flatMap.mpr ⟨f, hf, hp⟩

theorem keeps_not_eq_true_iff :
    (not f false).keeps l = true ↔ ∃ k ∈ l.kin, f.keeps k = false := by
  simp [keeps, negated]

theorem keeps_not_eq_false_iff :
    (not f false).keeps l = false ↔ ∀ k ∈ l.kin, f.keeps k = true := by
  rw [Bool.eq_false_iff, ne_eq, keeps_not_eq_true_iff]
  simp

/-- Whether a filter that keeps a node (`true`), or one that drops it (`false`), always does so for
a predicate on its own side that keeps the node. -/
inductive Rests : Bool → Filter → Prop
  | predicate {field : Field} {m : Matcher} : Rests true (.predicate field m)
  | andKept {f : Filter} {fs : List Filter} (hf : f ∈ fs) (h : Rests true f) : Rests true (.and fs)
  | andDropped {fs : List Filter} (each : ∀ f ∈ fs, Rests false f) : Rests false (.and fs)
  | orKept {fs : List Filter} (each : ∀ f ∈ fs, Rests true f) : Rests true (.or fs)
  | orDropped {f : Filter} {fs : List Filter} (hf : f ∈ fs) (h : Rests false f) :
      Rests false (.or fs)
  | not {kept : Bool} {f : Filter} (h : Rests (!kept) f) : Rests kept (.not f false)

/-- The predicate on which a verdict rests keeps the node itself, and all its kin if the node is
dropped. -/
theorem Rests.exists_predicate (h : f.Rests kept) (hl : l ∈ tree.locations)
    (verdict : f.keeps l = kept) {k : Location Node} (hk : k ∈ l.kin) (self : kept = true → k = l) :
    ∃ p ∈ f.predicates kept, p.keeps k = true := by
  induction h generalizing l k with
  | predicate =>
    obtain rfl := self rfl
    exact ⟨_, by simp [predicates], verdict⟩
  | andKept hf _ ih =>
    rw [keeps, keepsAll_eq, List.all_eq_true] at verdict
    obtain ⟨p, hp, names⟩ := ih hl (verdict _ hf) hk self
    exact ⟨p, mem_predicates_and hf hp, names⟩
  | andDropped _ ih =>
    rw [keeps, keepsAll_eq, List.all_eq_false] at verdict
    obtain ⟨f, hf, drops⟩ := verdict
    obtain ⟨p, hp, names⟩ := ih f hf hl (Bool.not_eq_true _ ▸ drops) hk self
    exact ⟨p, mem_predicates_and hf hp, names⟩
  | orKept _ ih =>
    rw [keeps, keepsAny_eq, List.any_eq_true] at verdict
    obtain ⟨f, hf, keeps⟩ := verdict
    obtain ⟨p, hp, names⟩ := ih f hf hl keeps hk self
    exact ⟨p, mem_predicates_or hf hp, names⟩
  | orDropped hf _ ih =>
    rw [keeps, keepsAny_eq, List.any_eq_false] at verdict
    obtain ⟨p, hp, names⟩ := ih hl (Bool.not_eq_true _ ▸ verdict _ hf) hk self
    exact ⟨p, mem_predicates_or hf hp, names⟩
  | @not kept f _ ih =>
    rw [predicates]
    cases kept with
    | true =>
      -- Some kin is dropped by the term, and the node is among the kin of that one.
      obtain rfl := self rfl
      obtain ⟨k', hk', drops⟩ := keeps_not_eq_true_iff.mp verdict
      have back := (Location.placed_of_mem_locations hl).mem_kin_symm hk'
      exact ih (Location.mem_locations_of_kin hl hk') drops back (absurd · Bool.false_ne_true)
    | false =>
      exact ih (Location.mem_locations_of_kin hl hk) (keeps_not_eq_false_iff.mp verdict k hk)
        k.self_mem_kin fun _ => rfl

theorem exists_not_rests_of_and (loose : ¬ (and fs).Rests false) : ∃ f ∈ fs, ¬ f.Rests false := by
  simpa using mt Rests.andDropped loose

theorem exists_not_rests_of_or (loose : ¬ (or fs).Rests true) : ∃ f ∈ fs, ¬ f.Rests true := by
  simpa using mt Rests.orKept loose

/-- A verdict that need not rest on a predicate is given wherever no predicate speaks against it. -/
theorem Queried.keeps_eq (h : f.Queried) (loose : ¬ f.Rests kept)
    (against : ∀ p ∈ f.predicates (!kept), ∀ l ∈ tree.locations, p.keeps l = false)
    (hl : l ∈ tree.locations) : f.keeps l = kept := by
  induction h generalizing kept l with
  | predicate =>
    cases kept with
    | true => exact absurd .predicate loose
    | false => exact against _ (by simp [predicates]) l hl
  | @and f g fs _ ih =>
    have each (t : Filter) (ht : t ∈ f :: g :: fs) (loose : ¬ t.Rests kept) : t.keeps l = kept :=
      ih t ht loose (fun p hp => against p (mem_predicates_and ht hp)) hl
    rw [keeps, keepsAll_eq]
    cases kept with
    | true =>
      exact List.all_eq_true.mpr fun t ht => each t ht fun rests => loose (.andKept ht rests)
    | false =>
      obtain ⟨t, ht, looser⟩ := exists_not_rests_of_and loose
      exact List.all_eq_false.mpr ⟨t, ht, by rw [each t ht looser]; exact Bool.false_ne_true⟩
  | @or f g fs _ ih =>
    have each (t : Filter) (ht : t ∈ f :: g :: fs) (loose : ¬ t.Rests kept) : t.keeps l = kept :=
      ih t ht loose (fun p hp => against p (mem_predicates_or ht hp)) hl
    rw [keeps, keepsAny_eq]
    cases kept with
    | true =>
      obtain ⟨t, ht, looser⟩ := exists_not_rests_of_or loose
      exact List.any_eq_true.mpr ⟨t, ht, each t ht looser⟩
    | false =>
      refine List.any_eq_false.mpr fun t ht => ?_
      rw [each t ht fun rests => loose (.orDropped ht rests)]
      exact Bool.false_ne_true
  | @not f _ ih =>
    have term (k) (hk : k ∈ l.kin) : f.keeps k = !kept :=
      ih (fun rests => loose (.not rests)) against (Location.mem_locations_of_kin hl hk)
    cases kept with
    | true => exact keeps_not_eq_true_iff.mpr ⟨l, l.self_mem_kin, term l l.self_mem_kin⟩
    | false => exact keeps_not_eq_false_iff.mpr term

theorem Queried.accepts_eq_true (h : f.Queried) (loose : ¬ f.Rests true)
    (against : ∀ p ∈ f.predicates false, ∀ l ∈ tree.locations, p.keeps l = false)
    (hl : l ∈ tree.locations) : f.accepts l = true := by
  induction h with
  | predicate => exact absurd .predicate loose
  | and _ ih =>
    rw [accepts, acceptsAll_eq]
    refine List.all_eq_true.mpr fun f hf => ?_
    exact ih f hf (fun rests => loose (.andKept hf rests))
      fun p hp => against p (mem_predicates_and hf hp)
  | or _ ih =>
    obtain ⟨f, hf, looser⟩ := exists_not_rests_of_or loose
    rw [accepts, acceptsAny_eq]
    exact List.any_eq_true.mpr
      ⟨f, hf, ih f hf looser fun p hp => against p (mem_predicates_or hf hp)⟩
  | @not f term _ =>
    have drops : f.keeps l = false :=
      term.keeps_eq (fun rests => loose (.not rests)) against hl
    simp [accepts, negated, drops]

/-- Whether a filter requests explicit nodes only for predicates that name them. -/
inductive Guarded : Filter → Prop
  | empty : Guarded .empty
  | not {f : Filter} : Guarded (.not f true)
  | rests {f : Filter} (h : f.Rests true) : Guarded f

theorem requests_eq_true_iff :
    f.requests l = true ↔
      f.isEmpty = false ∧ l.value.runnability = .explicit ∧ f.accepts l = true := by
  simp [requests, and_assoc]

theorem not_requests_not_atTop : (not f true).requests l = false := by
  rw [Bool.eq_false_iff, ne_eq, requests_eq_true_iff]
  rintro ⟨-, explicit, accepts⟩
  simp [Filter.accepts, negated, explicit] at accepts

theorem Guarded.exists_predicate (h : f.Guarded) (hl : l ∈ tree.locations)
    (requested : f.requests l = true) : ∃ p ∈ f.predicates true, p.keeps l = true := by
  cases h with
  | empty => cases requested
  | not => exact absurd requested (by rw [not_requests_not_atTop]; exact Bool.false_ne_true)
  | rests h =>
    have keeps := f.keeps_of_accepts (Location.placed_of_mem_locations hl) l.self_mem_kin
      (accepts_of_requests requested)
    exact h.exists_predicate hl keeps l.self_mem_kin fun _ => rfl

end Filter

end TestScheduler

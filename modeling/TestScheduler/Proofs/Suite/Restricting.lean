import Mathlib.Data.List.Induction
import TestScheduler.Proofs.Suite.Construction
import TestScheduler.Proofs.Suite.Properties

/-! # Restrictions of nodes

Attributes ask for states of a node in any order. The node gets the strictest state that is asked
for, and the reason that the first request for this state gives.
-/

namespace TestScheduler

/-- A state that is asked for, and the reason for it if one is given. -/
structure Request where
  state : Runnability
  reason : Option String
  deriving DecidableEq

/-- Whether a request asks for a restriction, and for no reason only to make a test explicit. -/
structure Request.IsPlain (r : Request) : Prop where
  restricts : r.state ≠ .runnable
  explained : r.reason = none → r.state = .explicit

namespace Runnability

variable {state : Runnability} {states : List Runnability}

theorem foldl_tighten_mem (state : Runnability) (states : List Runnability) :
    states.foldl tighten state ∈ state :: states := by
  induction states generalizing state with
  | nil => exact List.mem_cons_self
  | cons s states ih =>
    rw [List.foldl_cons]
    rcases List.mem_cons.mp (ih (state.tighten s)) with same | later
    · rw [same]
      unfold tighten
      split
      · exact List.mem_cons_of_mem _ List.mem_cons_self
      · exact List.mem_cons_self
    · exact List.mem_cons_of_mem _ (List.mem_cons_of_mem _ later)

theorem rank_le_foldl_tighten {s : Runnability} (h : s ∈ state :: states) :
    s.rank ≤ (states.foldl tighten state).rank := by
  induction states generalizing state s with
  | nil =>
    obtain rfl := List.mem_singleton.mp h
    exact Nat.le_refl _
  | cons t states ih =>
    have here : (state.tighten t).rank ≤ (states.foldl tighten (state.tighten t)).rank :=
      ih List.mem_cons_self
    rw [rank_tighten] at here
    rcases List.mem_cons.mp h with rfl | h
    · exact Nat.le_trans (Nat.le_max_left _ _) here
    · rcases List.mem_cons.mp h with rfl | h
      · exact Nat.le_trans (Nat.le_max_right _ _) here
      · exact ih (List.mem_cons_of_mem _ h)

end Runnability

namespace Attribute

/-- What an attribute asks for. -/
def request? : Attribute → Option Request
  | ignore reason => some ⟨.ignored, reason⟩
  | explicit reason => some ⟨.explicit, reason⟩
  | notRunnable reason => some ⟨.notRunnable, reason⟩
  | skip reason => some ⟨.skipped, reason⟩
  | restrict state reason => some ⟨state, reason⟩
  | _ => none

/-- Whether an attribute is one of the built-in ones and does not write the reason of a restriction
as a property. -/
def IsPlain : Attribute → Prop
  | setProperty .. => False
  | restrict .. => False
  | property key _ => key ≠ Node.skipReasonKey
  | _ => True

instance : DecidablePred IsPlain
  | setProperty .. | restrict .. => inferInstanceAs (Decidable False)
  | property key _ => inferInstanceAs (Decidable (key ≠ Node.skipReasonKey))
  | ignore _ | explicit _ | notRunnable _ | skip _ | category _ | description _ =>
    inferInstanceAs (Decidable True)

/-- What attributes ask for, in their order. -/
def requests (as : List Attribute) : List Request := as.filterMap request?

theorem requests_concat (as : List Attribute) (a : Attribute) :
    requests (as ++ [a]) = requests as ++ a.request?.toList := by
  rw [requests, requests, List.filterMap_append, List.filterMap_cons]
  cases a.request? <;> rfl

theorem plain_of_mem_requests {as : List Attribute} (plain : ∀ a ∈ as, a.IsPlain) {r : Request}
    (hr : r ∈ requests as) : r.IsPlain := by
  obtain ⟨a, ha, asks⟩ := List.mem_filterMap.mp hr
  cases a with
  | ignore | notRunnable | skip | explicit =>
    cases asks
    exact ⟨nofun, by simp⟩
  | category | property | description | setProperty => cases asks
  | restrict => cases plain _ ha

end Attribute

namespace Node

variable {n m : Node} {rs qs : List Request} {r : Request}

theorem runnability_restrict (n : Node) (requested : Runnability) (reason : Option String) :
    (n.restrict requested reason).runnability = n.runnability.tighten requested := by
  unfold restrict
  dsimp only
  split
  · next same => exact same.symm
  · rfl

theorem restrict_of_le {state : Runnability} {reason : Option String}
    (h : state.rank ≤ n.runnability.rank) : n.restrict state reason = n := by
  have same : n.runnability.tighten state = n.runnability := by
    apply Runnability.rank_injective
    rw [Runnability.rank_tighten, Nat.max_eq_left h]
  unfold restrict
  rw [same, if_pos rfl]

theorem restrict_of_lt (reason : Option String) {state : Runnability}
    (h : n.runnability.rank < state.rank) :
    (n.restrict state reason).runnability = state ∧
      (n.restrict state reason).skipReason = reason.or n.skipReason := by
  have tightened : n.runnability.tighten state = state := by
    apply Runnability.rank_injective
    rw [Runnability.rank_tighten, Nat.max_eq_right (Nat.le_of_lt h)]
  have changed : state ≠ n.runnability := by
    rintro rfl
    exact Nat.lt_irrefl _ h
  unfold restrict
  rw [tightened, if_neg changed]
  cases reason with
  | none => exact ⟨rfl, rfl⟩
  | some reason => exact ⟨rfl, by simp [skipReason, Properties.get?_set]⟩

/-- Whether a node is restricted as requests ask for, given in their order: its state is the
strictest of them, and its reason that of the first request for this state. -/
structure RestrictedBy (n : Node) (rs : List Request) : Prop where
  requested : n.runnability ∈ .runnable :: rs.map Request.state
  strictest : ∀ r ∈ rs, r.state.rank ≤ n.runnability.rank
  reason : n.skipReason = (rs.find? (·.state = n.runnability)).bind Request.reason

namespace RestrictedBy

theorem of_eq (h : n.RestrictedBy rs) (state : m.runnability = n.runnability)
    (reason : m.skipReason = n.skipReason) : m.RestrictedBy rs := by
  constructor
  · rw [state]
    exact h.requested
  · rw [state]
    exact h.strictest
  · rw [state, reason]
    exact h.reason

/-- The strictest state does not depend on the order of the requests. -/
theorem runnability_eq (hn : n.RestrictedBy rs) (hm : m.RestrictedBy qs) (same : rs.Perm qs) :
    n.runnability = m.runnability := by
  have le {n m : Node} {rs qs : List Request} (hn : n.RestrictedBy rs) (hm : m.RestrictedBy qs)
      (same : rs.Perm qs) : n.runnability.rank ≤ m.runnability.rank := by
    rcases List.mem_cons.mp hn.requested with free | asked
    · rw [free]
      exact Nat.zero_le _
    · obtain ⟨r, hr, state⟩ := List.mem_map.mp asked
      rw [← state]
      exact hm.strictest r (same.mem_iff.mp hr)
  exact Runnability.rank_injective (Nat.le_antisymm (le hn hm same) (le hm hn same.symm))

theorem skipReason_eq_none (h : n.RestrictedBy rs) (plain : ∀ r ∈ rs, r.IsPlain)
    (free : n.runnability = .runnable) : n.skipReason = none := by
  have unasked : rs.find? (·.state = n.runnability) = none := by
    rw [free, List.find?_eq_none]
    intro r hr
    simpa using (plain r hr).restricts
  rw [h.reason, unasked, Option.bind_none]

theorem restrict (h : n.RestrictedBy rs) (plain : ∀ r ∈ rs, r.IsPlain) (hr : r.IsPlain) :
    (n.restrict r.state r.reason).RestrictedBy (rs ++ [r]) := by
  rcases Nat.lt_or_ge n.runnability.rank r.state.rank with stricter | weaker
  · obtain ⟨state, reason⟩ := restrict_of_lt r.reason stricter
    have first : rs.find? (·.state = r.state) = none := by
      rw [List.find?_eq_none]
      intro q hq same
      have := h.strictest q hq
      rw [of_decide_eq_true same] at this
      omega
    constructor
    · simp [state]
    · rw [state]
      refine List.forall_mem_append.mpr ⟨fun q hq => ?_, by simp⟩
      exact Nat.le_of_lt (Nat.lt_of_le_of_lt (h.strictest q hq) stricter)
    · rw [state, reason, List.find?_append, first]
      cases hreason : r.reason with
      | some reason => simp [hreason]
      | none =>
        -- The request is for an explicit test, so nothing has been asked for before.
        have free : n.runnability = .runnable := by
          rw [hr.explained hreason] at stricter
          exact Runnability.rank_injective (Nat.lt_one_iff.mp stricter)
        simp [hreason, h.skipReason_eq_none plain free]
  · rw [restrict_of_le weaker]
    constructor
    · rw [List.map_append, ← List.cons_append]
      exact List.mem_append_left _ h.requested
    · refine List.forall_mem_append.mpr ⟨h.strictest, ?_⟩
      simpa using weaker
    · rw [List.find?_append, h.reason]
      cases found : rs.find? (·.state = n.runnability) with
      | some q => rfl
      | none =>
        have other : r.state ≠ n.runnability := by
          intro same
          rcases List.mem_cons.mp h.requested with free | asked
          · exact hr.restricts (same.trans free)
          · obtain ⟨q, hq, state⟩ := List.mem_map.mp asked
            exact absurd (decide_eq_true state) (List.find?_eq_none.mp found q hq)
        simp [other]

end RestrictedBy

end Node

namespace Attribute

variable {a : Attribute} {n : Node} {as : List Attribute}

theorem apply_of_request? {r : Request} (h : a.request? = some r) :
    a.apply n = n.restrict r.state r.reason := by
  cases a with
  | ignore | notRunnable | skip | explicit | restrict =>
    cases h
    rfl
  | category | property | description | setProperty => cases h

theorem IsPlain.apply_of_no_request (plain : a.IsPlain) (h : a.request? = none) :
    (a.apply n).runnability = n.runnability ∧ (a.apply n).skipReason = n.skipReason := by
  cases a with
  | ignore | notRunnable | skip | explicit => cases h
  | restrict | setProperty => cases plain
  | category name => exact ⟨rfl, Properties.get?_add_of_ne (by decide)⟩
  | property key value => exact ⟨rfl, Properties.get?_add_of_ne (Ne.symm plain)⟩
  | description text =>
    refine ⟨rfl, ?_⟩
    change (n.properties.set Node.descriptionKey text).get? Node.skipReasonKey = n.skipReason
    rw [Properties.get?_set, if_neg (by decide), Node.skipReason]

/-- The state that attributes give a node depends on nothing but what they ask for. -/
theorem runnability_applyAll (as : List Attribute) (n : Node) :
    (applyAll as n).runnability =
      ((requests as).map Request.state).foldl Runnability.tighten n.runnability := by
  induction as using List.reverseRecOn with
  | nil => rfl
  | append_singleton as a ih =>
    rw [applyAll_concat, requests_concat, List.map_append, List.foldl_append, ← ih]
    cases asks : a.request? with
    | some r =>
      rw [apply_of_request? asks, Node.runnability_restrict]
      rfl
    | none =>
      cases a with
      | ignore | explicit | notRunnable | skip | restrict => cases asks
      | category | property | description | setProperty => rfl

theorem restrictedBy_applyAll (plain : ∀ a ∈ as, a.IsPlain) (h : n.RestrictedBy []) :
    (applyAll as n).RestrictedBy (requests as) := by
  induction as using List.reverseRecOn with
  | nil => exact h
  | append_singleton as a ih =>
    obtain ⟨plainBefore, plainLast⟩ := List.forall_mem_append.mp plain
    have before := ih plainBefore
    rw [applyAll_concat, requests_concat]
    cases asks : a.request? with
    | none =>
      have last := plainLast a List.mem_cons_self
      obtain ⟨state, reason⟩ := last.apply_of_no_request (n := applyAll as n) asks
      rw [Option.toList_none, List.append_nil]
      exact before.of_eq state reason
    | some r =>
      have plainRequest : r.IsPlain :=
        plain_of_mem_requests plainLast (List.mem_filterMap.mpr ⟨a, List.mem_cons_self, asks⟩)
      rw [Option.toList_some, apply_of_request? asks]
      exact before.restrict (fun _ hr => plain_of_mem_requests plainBefore hr) plainRequest

end Attribute

theorem NodePlan.restrictedBy_toNode {plan : NodePlan} (plain : ∀ a ∈ plan.attributes, a.IsPlain)
    (parent : Option Node) (id : TestId) (seed : UInt64) :
    (plan.toNode parent id seed).RestrictedBy (Attribute.requests plan.attributes) := by
  rw [plan.toNode_eq_applyAll]
  exact Attribute.restrictedBy_applyAll plain ⟨List.mem_cons_self, nofun, rfl⟩

/-- The node that is built for a plan with built-in attributes has the strictest state that these
ask for, and the reason of the first attribute that asks for it, so none if nothing is asked for.
The state does not depend on the order of the attributes. -/
theorem Blueprint.build_restricts {b c : Blueprint} {path : List Nat}
    (place : b.subtreeAt? path = some c) (plain : ∀ a ∈ c.value.attributes, a.IsPlain)
    (numbering : Numbering) :
    ∃ t, (b.build numbering).1.subtreeAt? path = some t ∧
      t.value.RestrictedBy (Attribute.requests c.value.attributes) ∧
      (t.value.runnability = .runnable → t.value.skipReason = none) ∧
      ∀ (plan : NodePlan) (parent : Option Node) (id : TestId) (seed : UInt64),
        plan.attributes.Perm c.value.attributes →
        (plan.toNode parent id seed).runnability = t.value.runnability := by
  obtain ⟨parent, numbering', built⟩ := exists_subtreeAt?_buildUnder place none numbering
  have restricted := NodePlan.restrictedBy_toNode plain parent numbering'.next.1 numbering'.next.2.1
  rw [← value_buildUnder] at restricted
  have free := restricted.skipReason_eq_none fun _ hr => Attribute.plain_of_mem_requests plain hr
  refine ⟨_, built, restricted, free, fun plan parent id seed same => ?_⟩
  have plain' : ∀ a ∈ plan.attributes, a.IsPlain := fun a ha => plain a (same.mem_iff.mp ha)
  exact (NodePlan.restrictedBy_toNode plain' parent id seed).runnability_eq restricted
    (same.filterMap _)

theorem Blueprint.build_restricts_sample :
    let attributes : List Attribute :=
      [.explicit none, .property "Owner" "qa", .skip "later", .ignore "broken", .explicit "slow",
        .ignore "flaky", .category "Fast"]
    let leaf : Blueprint := .node { name := "Leaf", kind := .leaf, attributes } []
    let b : Blueprint := .node { name := "Root", kind := .suite } [leaf]
    b.subtreeAt? [0] = some leaf ∧ (∀ a ∈ attributes, a.IsPlain) ∧
      ∃ t, (b.build (.start 0)).1.subtreeAt? [0] = some t ∧ t.value.runnability = .ignored ∧
        t.value.skipReason = some "broken" := by
  intro attributes leaf b
  have plain : ∀ a ∈ attributes, a.IsPlain := by decide
  have place : b.subtreeAt? [0] = some leaf := rfl
  obtain ⟨t, built, restricted, -⟩ := build_restricts place plain (.start 0)
  have state : t.value.runnability = .ignored := by
    have asked := restricted.requested
    have strictest := restricted.strictest ⟨.ignored, "broken"⟩ (by decide)
    generalize t.value.runnability = state at asked strictest
    revert asked strictest
    cases state <;> decide
  refine ⟨place, plain, t, built, state, ?_⟩
  rw [restricted.reason, state]
  rfl

end TestScheduler

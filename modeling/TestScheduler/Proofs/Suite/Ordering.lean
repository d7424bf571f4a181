import Mathlib.Data.List.Induction
import TestScheduler.Proofs.Suite.Construction
import TestScheduler.Proofs.Text.Dictionary
import TestScheduler.Run.Context

/-! # The order of settings

Nodes keep their settings in a stable sorted order. Settings of different priorities change
different parts of a context, and those of one priority keep their order, so a context ends up the
same as if they were applied as they are declared: the last setting for each part wins.
-/

namespace TestScheduler

namespace Setting

variable {s t : Setting} {ss : List Setting}

/-- Whether a setting may be applied before another one. -/
def mayPrecede (s t : Setting) : Bool := s.priority ≤ t.priority

theorem mayPrecede_iff : s.mayPrecede t = true ↔ s.priority ≤ t.priority := decide_eq_true_iff

theorem mayPrecede_trans (r s t : Setting) (h : r.mayPrecede s = true)
    (h' : s.mayPrecede t = true) : r.mayPrecede t = true :=
  mayPrecede_iff.mpr (Nat.le_trans (mayPrecede_iff.mp h) (mayPrecede_iff.mp h'))

theorem mayPrecede_total (s t : Setting) : (s.mayPrecede t || t.mayPrecede s) = true := by
  rw [Bool.or_eq_true, mayPrecede_iff, mayPrecede_iff]
  exact Nat.le_total _ _

/-- The settings in order of priority, those of one priority as they were declared. -/
def sorted (ss : List Setting) : List Setting := ss.mergeSort mayPrecede

/-- The sort is stable. -/
theorem filter_sorted (p : Nat) (ss : List Setting) :
    (sorted ss).filter (·.priority = p) = ss.filter (·.priority = p) := by
  have level : (ss.filter (·.priority = p)).Pairwise (fun s t => s.mayPrecede t = true) := by
    refine List.pairwise_of_forall_mem_list fun s hs t ht => ?_
    rw [List.mem_filter, decide_eq_true_iff] at hs ht
    exact mayPrecede_iff.mpr (Nat.le_of_eq (hs.2.trans ht.2.symm))
  have kept := List.sublist_mergeSort mayPrecede_trans mayPrecede_total level List.filter_sublist
  have same : ((sorted ss).filter (·.priority = p)).Perm (ss.filter (·.priority = p)) :=
    (List.mergeSort_perm ss mayPrecede).filter _
  refine (List.Sublist.eq_of_length ?_ same.length_eq.symm).symm
  have level := kept.filter (·.priority = p)
  rwa [List.filter_filter, List.filter_congr fun _ _ => Bool.and_self _] at level

/-- In a sorted list the settings up to a priority stand before those of this priority. -/
theorem filter_lt_append_filter_eq (p : Nat)
    (h : ss.Pairwise fun s t => s.mayPrecede t = true) :
    ss.filter (·.priority < p) ++ ss.filter (·.priority = p) = ss.filter (·.priority < p + 1) := by
  induction ss with
  | nil => rfl
  | cons s ss ih =>
    obtain ⟨first, rest⟩ := List.pairwise_cons.mp h
    have same := ih rest
    rcases Nat.lt_trichotomy s.priority p with before | rfl | after
    · have below : s.priority < p + 1 := Nat.lt_succ_of_lt before
      simp only [List.filter_cons, before, Nat.ne_of_lt before, below, decide_true, decide_false,
        if_true, Bool.false_eq_true, if_false, List.cons_append, same]
    · have none : ss.filter (·.priority < s.priority) = [] := by
        rw [List.filter_eq_nil_iff]
        intro t ht
        have ascending := mayPrecede_iff.mp (first t ht)
        rw [decide_eq_true_iff]
        omega
      rw [none, List.nil_append] at same
      simp only [List.filter_cons, Nat.lt_irrefl, Nat.lt_succ_self, decide_true, decide_false,
        if_true, Bool.false_eq_true, if_false, none, List.nil_append, same]
    · have above : ¬s.priority < p + 1 := Nat.not_lt.mpr after
      simp only [List.filter_cons, Nat.lt_asymm after, Nat.ne_of_gt after, above, decide_false,
        Bool.false_eq_true, if_false, same]

theorem flatMap_range_filter (h : ss.Pairwise fun s t => s.mayPrecede t = true) (n : Nat) :
    ((List.range n).flatMap fun p => ss.filter (·.priority = p)) = ss.filter (·.priority < n) := by
  induction n with
  | zero => simp
  | succ n ih =>
    rw [List.range_succ, List.flatMap_append, ih, List.flatMap_singleton]
    exact filter_lt_append_filter_eq n h

theorem inOrder_eq_sorted (ss : List Setting) : inOrder ss = sorted ss := by
  have same : inOrder ss = inOrder (sorted ss) := by
    unfold inOrder
    congr 1
    funext p
    exact (filter_sorted p ss).symm
  have ascending : (sorted ss).Pairwise fun s t => s.mayPrecede t = true :=
    List.pairwise_mergeSort mayPrecede_trans mayPrecede_total ss
  rw [same, inOrder, flatMap_range_filter ascending]
  exact List.filter_eq_self.mpr fun s _ => decide_eq_true s.priority_lt

/-! ## The parts of a context -/

def culture? : Setting → Option String
  | culture name => some name
  | _ => none

def uiCulture? : Setting → Option String
  | uiCulture name => some name
  | _ => none

def randomSeed? : Setting → Option UInt64
  | randomSeed seed => some seed
  | _ => none

def property? : Setting → Option (String × String)
  | property key value => some (key, value)
  | _ => none

/-- What is picked of the settings of one priority does not depend on the order of the others. -/
theorem filterMap_sorted {β : Type} {pick : Setting → Option β} (p : Nat)
    (one : ∀ s, s.priority ≠ p → pick s = none) (ss : List Setting) :
    (sorted ss).filterMap pick = ss.filterMap pick := by
  have picked (ss : List Setting) :
      (ss.filter (·.priority = p)).filterMap pick = ss.filterMap pick := by
    rw [List.filterMap_filter]
    refine List.filterMap_congr fun s _ => ?_
    by_cases here : s.priority = p
    · simp [here]
    · simp [here, one s here]
  rw [← picked, filter_sorted, picked]

end Setting

namespace Ambient

theorem applyAll_concat (a : Ambient) (ss : List Setting) (s : Setting) :
    a.applyAll (ss ++ [s]) = (a.applyAll ss).apply s := by
  rw [applyAll, List.foldl_concat]
  rfl

/-- The state in which each part is what the last setting for it says. -/
def settled (a : Ambient) (ss : List Setting) : Ambient where
  fixture := a.fixture
  culture := (ss.filterMap Setting.culture?).getLast?.getD a.culture
  uiCulture := (ss.filterMap Setting.uiCulture?).getLast?.getD a.uiCulture
  randomizer := (ss.filterMap Setting.randomSeed?).getLast?.elim a.randomizer ({ seed := · })
  properties := (ss.filterMap Setting.property?).foldl
    (fun d (key, value) => d.insert key value) a.properties

theorem applyAll_eq_settled (a : Ambient) (ss : List Setting) : a.applyAll ss = a.settled ss := by
  induction ss using List.reverseRecOn with
  | nil => rfl
  | append_singleton ss s ih =>
    rw [applyAll_concat, ih, settled, settled]
    simp only [List.filterMap_append, List.getLast?_append, List.foldl_append]
    cases s with
    | culture name => rfl
    | uiCulture name => rfl
    | randomSeed seed => rfl
    | property key value => rfl

theorem applyAll_sorted (a : Ambient) (ss : List Setting) :
    a.applyAll (Setting.sorted ss) = a.applyAll ss := by
  have culture : ∀ s : Setting, s.priority ≠ 0 → s.culture? = none
    | .culture _, h => absurd rfl h
    | .uiCulture _, _ | .randomSeed _, _ | .property .., _ => rfl
  have uiCulture : ∀ s : Setting, s.priority ≠ 1 → s.uiCulture? = none
    | .uiCulture _, h => absurd rfl h
    | .culture _, _ | .randomSeed _, _ | .property .., _ => rfl
  have randomSeed : ∀ s : Setting, s.priority ≠ 2 → s.randomSeed? = none
    | .randomSeed _, h => absurd rfl h
    | .culture _, _ | .uiCulture _, _ | .property .., _ => rfl
  have property : ∀ s : Setting, s.priority ≠ 3 → s.property? = none
    | .property .., h => absurd rfl h
    | .culture _, _ | .uiCulture _, _ | .randomSeed _, _ => rfl
  rw [applyAll_eq_settled, applyAll_eq_settled, settled, Setting.filterMap_sorted 0 culture,
    Setting.filterMap_sorted 1 uiCulture, Setting.filterMap_sorted 2 randomSeed,
    Setting.filterMap_sorted 3 property, settled]

end Ambient

theorem Context.withSettings_eq (c : Context) (ss : List Setting) :
    c.withSettings ss = { c with toAmbient := c.toAmbient.settled ss } := by
  rw [withSettings, Ambient.applyAll_eq_settled]

/-- The nodes of a built tree keep their settings in a stable sorted order of priority, and a
context is the same after settings in this order as after them in the order of declaration. The last
setting of a kind wins, and the last property for a key. -/
theorem Blueprint.build_orders_settings (b : Blueprint) (numbering : Numbering) :
    (b.build numbering).1.map Node.settings = b.map (fun plan => Setting.sorted plan.settings) ∧
    ∀ (c : Context) (ss : List Setting),
      c.withSettings (Setting.sorted ss) = c.withSettings ss ∧
      (c.withSettings ss).culture = (ss.filterMap Setting.culture?).getLast?.getD c.culture ∧
      (c.withSettings ss).uiCulture = (ss.filterMap Setting.uiCulture?).getLast?.getD c.uiCulture ∧
      (c.withSettings ss).randomizer =
        (ss.filterMap Setting.randomSeed?).getLast?.elim c.randomizer ({ seed := · }) ∧
      ∀ key, (c.withSettings ss).properties.get? key =
        ((ss.filterMap Setting.property?).reverse.lookup key).or (c.properties.get? key) := by
  refine ⟨?_, fun c ss => ⟨?_, ?_, ?_, ?_, fun key => ?_⟩⟩
  · refine map_buildUnder (fun plan parent id seed => ?_) b none numbering
    rw [plan.settings_toNode, Setting.inOrder_eq_sorted]
  · rw [Context.withSettings, Ambient.applyAll_sorted, Context.withSettings]
  · rw [Context.withSettings_eq, Ambient.settled]
  · rw [Context.withSettings_eq, Ambient.settled]
  · rw [Context.withSettings_eq, Ambient.settled]
  · rw [Context.withSettings_eq]
    exact Dictionary.get?_foldl_insert

end TestScheduler

import TestScheduler.Pattern.Common
import TestScheduler.Proofs.Run.Attempt

/-! # What is left standing

A log of setups and teardowns is read as a stack. A call that ends without a fault tears down every
suite that it sets up, each once and the innermost first. A call that meets an item in the wrong
stage leaves the suites on the way to that item standing.
-/

namespace TestScheduler

namespace Event

/-- The suites set up after an event, innermost first, unless it tears another one down. -/
def stand (up : List Node) : Event → Option (List Node)
  | .called call =>
    match call.hook with
    | .setUp => some (call.node :: up)
    | .test => some up
    | .tearDown => if up.head? = some call.node then some up.tail else none
  | _ => some up

/-- The suites set up after a log, given those set up before it. -/
def standing (up : List Node) (es : List Event) : Option (List Node) := es.foldlM stand up

/-- The node for which a hook of a given kind is called. -/
def hooked? (hook : Hook) : Event → Option Node
  | .called call => if call.hook = hook then some call.node else none
  | _ => none

/-- The nodes for which hooks of a given kind are called, in order. -/
def hooked (hook : Hook) (es : List Event) : List Node := es.filterMap (hooked? hook)

variable {up left : List Node} {es es' : List Event} {call : Call} {hook : Hook}

@[simp] theorem standing_nil : standing up [] = some up := rfl

theorem standing_cons (e : Event) :
    standing up (e :: es) = (stand up e).bind fun up => standing up es := List.foldlM_cons

theorem standing_append :
    standing up (es ++ es') = (standing up es).bind fun up => standing up es' :=
  List.foldlM_append

@[simp] theorem standing_started (n : Node) : standing up (.started n :: es) = standing up es := rfl

@[simp] theorem standing_finished (r : ResultTree) :
    standing up (.finished r :: es) = standing up es := rfl

theorem standing_setUp (h : call.hook = .setUp) :
    standing up (.called call :: es) = standing (call.node :: up) es := by
  rw [standing_cons, stand, h]
  rfl

theorem standing_test (h : call.hook = .test) :
    standing up (.called call :: es) = standing up es := by
  rw [standing_cons, stand, h]
  rfl

theorem standing_tearDown (h : call.hook = .tearDown) :
    standing (call.node :: up) (.called call :: es) = standing up es := by
  rw [standing_cons, stand, h]
  simp

theorem Idle.standing_eq (h : Idle es) : standing up es = some up := by
  induction es with
  | nil => rfl
  | cons e es ih =>
    obtain ⟨first, rest⟩ := List.forall_mem_cons.mp h
    cases e with
    | finished => exact ih rest
    | started | called => cases first

theorem Idle.hooked_eq_nil (h : Idle es) : hooked hook es = [] := by
  refine List.filterMap_eq_nil_iff.mpr fun e he => ?_
  cases e with
  | started | finished => rfl
  | called => cases h _ he

@[simp] theorem hooked_nil : hooked hook [] = [] := rfl

@[simp] theorem hooked_started (n : Node) : hooked hook (.started n :: es) = hooked hook es := rfl

@[simp] theorem hooked_finished (r : ResultTree) :
    hooked hook (.finished r :: es) = hooked hook es := rfl

theorem hooked_called :
    hooked hook (.called call :: es) =
      if call.hook = hook then call.node :: hooked hook es else hooked hook es := by
  by_cases h : call.hook = hook <;> simp [hooked, hooked?, h]

@[simp] theorem hooked_append : hooked hook (es ++ es') = hooked hook es ++ hooked hook es' :=
  List.filterMap_append

/-- Every suite that is set up is torn down or left standing. -/
theorem count_hooked (h : standing up es = some left) (n : Node) :
    up.count n + (hooked .setUp es).count n = (hooked .tearDown es).count n + left.count n := by
  induction es generalizing up with
  | nil =>
    obtain rfl := Option.some.inj h
    rw [hooked_nil, hooked_nil, Nat.add_comm]
  | cons e es ih =>
    rw [standing_cons] at h
    obtain ⟨up', step, rest⟩ := Option.bind_eq_some_iff.mp h
    have ih := ih rest
    cases e with
    | started | finished =>
      obtain rfl := Option.some.inj step
      simpa using ih
    | called call =>
      cases hook : call.hook with
      | setUp =>
        simp only [stand, hook, Option.some.injEq] at step
        subst step
        simp [hooked_called, hook, List.count_cons] at ih ⊢
        omega
      | test =>
        simp only [stand, hook, Option.some.injEq] at step
        subst step
        simpa [hooked_called, hook] using ih
      | tearDown =>
        simp only [stand, hook, Option.ite_none_right_eq_some, Option.some.injEq] at step
        obtain ⟨innermost, rfl⟩ := step
        obtain ⟨_, rfl⟩ := List.head?_eq_some_iff.mp innermost
        simp [hooked_called, hook, List.count_cons] at ih ⊢
        omega

end Event

/-- The full name of the node that a fault is about. -/
def Fault.test : Fault → String
  | resultNotReady test => test
  | resultAlreadySet test => test
  | illegalTransition test _ _ => test

namespace WorkTree

variable {Expression : Type} [Pattern.Dialect Expression]

/-- The nodes on the way from a tree of items to one of the items in it. -/
inductive Leads : WorkTree → List Node → WorkItem → Prop where
  | here {item : WorkItem} {below : List WorkTree} : Leads (.node item below) [] item
  | child {item last : WorkItem} {below : List WorkTree} {t : WorkTree} {way : List Node}
      (ht : t ∈ below) (h : Leads t way last) : Leads (.node item below) (item.node :: way) last

/-- Whether suites may be left standing: they are the outermost ones on the way to the item that
the fault is about. -/
inductive Leaves (t : WorkTree) : Option Fault → List Node → Prop where
  | nothing : Leaves t none []
  | suites {fault : Fault} {left way : List Node} {item : WorkItem} (leads : t.Leads way item)
      (about : fault.test = item.node.fullName) (outer : left.reverse <+: way) :
      Leaves t (some fault) left

variable {item : WorkItem} {below below' ts ts' : List WorkTree} {t t' : WorkTree}
  {es : List Event} {fault : Option Fault} {left : List Node}

theorem Leaves.within {f : Fault} (ht : t ∈ below) (h : t.Leaves (some f) left) :
    Leaves (.node item below) (some f) (left ++ [item.node]) := by
  cases h with
  | suites leads about outer =>
    refine .suites (.child ht leads) about ?_
    rw [List.reverse_concat]
    exact List.cons_prefix_cons.mpr ⟨rfl, outer⟩

theorem Leaves.unstarted {f : Fault} (ht : t ∈ below) (h : t.Leaves (some f) left) :
    Leaves (.node item below) (some f) [] := by
  cases h with
  | suites leads about => exact .suites (.child ht leads) about List.nil_prefix

/-- Whether one of several attempts may leave suites standing. -/
inductive LeavesEach (ts : List WorkTree) : Option Fault → List Node → Prop where
  | nothing : LeavesEach ts none []
  | suites {t : WorkTree} {fault : Fault} {left : List Node} (ht : t ∈ ts)
      (leaves : t.Leaves (some fault) left) : LeavesEach ts (some fault) left

/-- The suites that an attempt leaves standing are on top of those that stood before. -/
theorem Attempts.exists_standing (h : Attempts t es t' fault) :
    ∃ left, (∀ up, Event.standing up es = some (left ++ up)) ∧ t.Leaves fault left := by
  induction h using Attempts.rec (motive_2 := fun ts es _ fault _ =>
    ∃ left, (∀ up, Event.standing up es = some (left ++ up)) ∧ LeavesEach ts fault left) with
  | refused => exact ⟨[], fun _ => rfl, .suites .here rfl List.nil_prefix⟩
  | leaf _ hook => exact ⟨[], fun up => by simp [Event.standing_test hook], .nothing⟩
  | left _ _ _ hook node _ ih =>
    obtain ⟨left, stands, leaves⟩ := ih
    cases leaves with
    | suites ht leaves =>
      refine ⟨left ++ [_], fun up => ?_, leaves.within ht⟩
      simp [Event.standing_setUp hook, node, stands]
  | suite _ _ hook node _ hook' node' _ ih =>
    obtain ⟨_, stands, ⟨⟩⟩ := ih
    refine ⟨[], fun up => ?_, .nothing⟩
    simp [Event.standing_append, Event.standing_setUp hook, stands, node, ← node',
      Event.standing_tearDown hook']
  | stuck idle _ ih =>
    obtain ⟨_, -, leaves⟩ := ih
    cases leaves with
    | suites ht leaves => exact ⟨[], fun _ => idle.standing_eq, leaves.unstarted ht⟩
  | unstarted _ idle =>
    exact ⟨[], fun up => by simp [Event.standing_append, idle.standing_eq], .nothing⟩
  | repeated _ idle =>
    exact ⟨[], fun up => by simp [Event.standing_append, idle.standing_eq],
      .suites .here rfl List.nil_prefix⟩
  | nil => exact ⟨[], fun _ => rfl, .nothing⟩
  | stop _ ih =>
    obtain ⟨left, stands, leaves⟩ := ih
    exact ⟨left, stands, .suites List.mem_cons_self leaves⟩
  | cons _ _ ih ih' =>
    obtain ⟨_, stands, ⟨⟩⟩ := ih
    obtain ⟨left, stands', leaves⟩ := ih'
    refine ⟨left, fun up => by simp [Event.standing_append, stands, stands'], ?_⟩
    cases leaves with
    | nothing => exact .nothing
    | suites ht leaves => exact .suites (List.mem_cons_of_mem _ ht) leaves

theorem Attempts.hooked_sublist (h : Attempts t es t' fault) :
    (Event.hooked .setUp es).Sublist (t.preorder.map WorkItem.node) := by
  induction h using Attempts.rec (motive_2 := fun ts es _ _ _ =>
    (Event.hooked .setUp es).Sublist ((ts.flatMap Tree.preorder).map WorkItem.node)) with
  | refused => exact List.nil_sublist _
  | leaf _ hook => simp [Event.hooked_called, hook]
  | left _ _ _ hook node _ ih =>
    rw [Tree.preorder_eq_cons]
    simpa [Event.hooked_called, hook, node] using ih
  | suite _ _ hook node _ hook' _ _ ih =>
    rw [Tree.preorder_eq_cons]
    simpa [Event.hooked_called, hook, hook', node] using ih
  | stuck idle => simp [idle.hooked_eq_nil]
  | unstarted _ idle | repeated _ idle => simp [idle.hooked_eq_nil]
  | nil => exact List.nil_sublist _
  | stop _ ih =>
    rw [List.flatMap_cons, List.map_append]
    exact ih.trans (List.sublist_append_left ..)
  | cons _ _ ih ih' =>
    rw [List.flatMap_cons, List.map_append, Event.hooked_append]
    exact ih.append ih'

/-- How a call on a tree of items sets suites up and tears them down again, with the suites that it
leaves standing. -/
structure TornDown (t : WorkTree) (log : List Event) (fault : Option Fault) (left : List Node) :
    Prop where
  nested : Event.standing [] log = some left
  each : ∀ n,
    (Event.hooked .setUp log).count n = (Event.hooked .tearDown log).count n + left.count n
  once : (Event.hooked .setUp log).Sublist (t.preorder.map WorkItem.node)
  leaves : t.Leaves fault left
  fresh : t.Fresh → fault = none

/-- A suite that a call sets up is torn down exactly once before the call returns, unless the call
ends in a fault below that suite, which takes items that were executed before. -/
theorem tornDown_afterAll (f : Filter) (l : Location Node) {calls : List Dispatch}
    (earlier : ∀ call ∈ calls, call.IsSequential) {call : Dispatch}
    (sequential : call.IsSequential) {p : Progress WorkTree}
    (ran : call.run? ((create f l).afterAll calls) = some p) :
    ∃ u log left, ((create f l).afterAll calls).subtreeAt? call.path = some u ∧
      p.session.events = call.session.events ++ log ∧ TornDown u log p.fault left := by
  have sound := (fresh_create f l).sound.afterAll earlier
  obtain ⟨u, place, log, hlog, attempts⟩ := Dispatch.tried_of_run? sequential sound ran
  obtain ⟨left, stands, leaves⟩ := attempts.exists_standing
  have nested : Event.standing [] log = some left := by rw [stands, List.append_nil]
  refine ⟨u, log, left, place, hlog, nested, fun n => ?_, attempts.hooked_sublist, leaves, ?_⟩
  · simpa using Event.count_hooked nested n
  · intro fresh
    obtain ⟨u', place', rfl⟩ := Option.map_eq_some_iff.mp ran
    obtain rfl := Option.some.inj (place.symm.trans place')
    obtain ⟨_, _, gives, -⟩ := Dispatcher.executes fresh call.dispatcher call.context call.session
    exact gives.fault

end WorkTree

namespace WorkTree

/-- The slow test is executed before the whole tree, whose root is then left standing. -/
theorem tornDown_afterAll_sample :
    let t := (create .empty (Location.root TestTree.sample)).afterAll [.passingAt [1]]
    ∃ p, (Dispatch.passingAt []).run? t = some p ∧
      p.fault = some (.illegalTransition "Root.Slow" .complete .running) ∧
      ∃ u log left, t.subtreeAt? [] = some u ∧ p.session.events = [] ++ log ∧
        TornDown u log p.fault left :=
  ⟨_, rfl, by decide +kernel, tornDown_afterAll _ _
    (List.forall_mem_singleton.mpr (Dispatch.passingAt_isSequential [1]))
    (Dispatch.passingAt_isSequential []) rfl⟩

/-- The setup of the root is called, and its teardown is not. -/
theorem not_tornDown_of_leaf_first :
    let t := (create .empty (Location.root TestTree.sample)).afterAll [.passingAt [1]]
    ∃ p, (Dispatch.passingAt []).run? t = some p ∧
      (Event.hooked .setUp p.session.events).count TestTree.sample.value = 1 ∧
      (Event.hooked .tearDown p.session.events).count TestTree.sample.value = 0 :=
  ⟨_, rfl, by decide +kernel, by decide +kernel⟩

end WorkTree

end TestScheduler

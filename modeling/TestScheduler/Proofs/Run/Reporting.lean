import Mathlib.Data.List.Perm.Subperm
import TestScheduler.Pattern.Common
import TestScheduler.Proofs.Run.Attempt

/-! # How often items are reported

A report on an item goes with its first result. The one other report is on an item that already has
a result, and the call that makes it ends in a fault there. So over any calls the reports are those
on items without a result, each at most once, and one for each refused result.
-/

namespace TestScheduler

variable {Expression : Type} [Pattern.Dialect Expression]

namespace Event

/-- The id of the node that an event reports as finished. -/
def reported? : Event → Option TestId
  | finished r => some r.value.id
  | _ => none

/-- The ids that a log reports, in order. -/
def reported (es : List Event) : List TestId := es.filterMap reported?

variable {es es' : List Event}

@[simp] theorem reported_append : reported (es ++ es') = reported es ++ reported es' :=
  List.filterMap_append

@[simp] theorem reported_nil : reported [] = [] := rfl

@[simp] theorem reported_started (n : Node) : reported (.started n :: es) = reported es := rfl

@[simp] theorem reported_called (call : Call) : reported (.called call :: es) = reported es := rfl

@[simp] theorem reported_finished (r : ResultTree) :
    reported (.finished r :: es) = r.value.id :: reported es := rfl

end Event

/-- The item that refused another result, for faults of that kind. -/
def Fault.refusal? : Fault → Option String
  | resultAlreadySet test => some test
  | _ => none

namespace WorkItem

/-- The ids of the items that have no result. -/
def pending (items : List WorkItem) : List TestId :=
  (items.filter (·.result.isNone)).map (·.node.id)

/-- The ids of the items that have a result. -/
def settled (items : List WorkItem) : List TestId :=
  (items.filter (·.result.isSome)).map (·.node.id)

variable {item item' : WorkItem} {items items' more more' : List WorkItem}

@[simp] theorem pending_append : pending (items ++ more) = pending items ++ pending more := by
  simp [pending]

@[simp] theorem settled_append : settled (items ++ more) = settled items ++ settled more := by
  simp [settled]

theorem pending_cons_of_open (h : item.result = none) :
    pending (item :: items) = item.node.id :: pending items := by
  simp [pending, h]

theorem pending_cons_of_done (h : item.result.isSome = true) :
    pending (item :: items) = pending items := by
  simp [pending, Option.isNone_eq_false_iff.mpr h]

theorem settled_cons_of_open (h : item.result = none) :
    settled (item :: items) = settled items := by
  simp [settled, h]

theorem settled_cons_of_done (h : item.result.isSome = true) :
    settled (item :: items) = item.node.id :: settled items := by
  simp [settled, h]

/-- What reports on items tell of those that get their first result. -/
structure Reports (items items' : List WorkItem) (news : List TestId) : Prop where
  /-- No id is reported for more items than have lost their place among the pending ones. -/
  pending : (news ++ pending items').Subperm (pending items)
  settled : ∀ id ∈ settled items', id ∈ settled items ∨ id ∈ news
  nodes : (items'.map WorkItem.node).Sublist (items.map WorkItem.node)

/-- The item that is reported again because it refused a result. -/
inductive Repeats (items : List WorkItem) : Option String → List TestId → Prop where
  | nothing : Repeats items none []
  | again {item : WorkItem} (mem : item ∈ items) (done : item.result.isSome = true) :
      Repeats items (some item.node.fullName) [item.node.id]

theorem mem_settled (mem : item ∈ items) (done : item.result.isSome = true) :
    item.node.id ∈ settled items :=
  List.mem_map_of_mem (List.mem_filter.mpr ⟨mem, done⟩)

variable {news news' again : List TestId} {r : ResultTree} {refusal : Option String}

theorem Reports.refl (items : List WorkItem) : Reports items items [] :=
  ⟨List.Subperm.refl _, fun _ => .inl, List.Sublist.refl _⟩

theorem Reports.append (h : Reports items items' news) (h' : Reports more more' news') :
    Reports (items ++ more) (items' ++ more') (news ++ news') where
  pending := by
    rw [pending_append, pending_append]
    refine List.Perm.subperm ?_ |>.trans (h.pending.append h'.pending)
    simp only [List.append_assoc]
    exact (List.perm_append_comm_assoc ..).append_left _
  settled id hid := by
    rw [settled_append, List.mem_append] at hid ⊢
    rw [List.mem_append]
    rcases hid with hid | hid
    · exact (h.settled id hid).imp .inl .inl
    · exact (h'.settled id hid).imp .inr .inr
  nodes := by
    rw [List.map_append, List.map_append]
    exact h.nodes.append h'.nodes

theorem Reports.trans (h : Reports items items' news) (h' : Reports items' more news') :
    Reports items more (news ++ news') where
  pending := by
    rw [List.append_assoc]
    exact ((List.subperm_append_left news).mpr h'.pending).trans h.pending
  settled id hid := by
    rw [List.mem_append]
    rcases h'.settled id hid with hid | hid
    · exact (h.settled id hid).imp_right .inl
    · exact .inr (.inr hid)
  nodes := h'.nodes.trans h.nodes

/-- Items that are taken out are not reported any more. -/
theorem Reports.shed (h : Reports items items' news) (sub : more.Sublist items') :
    Reports items more news where
  pending := by
    have kept := ((sub.filter (·.result.isNone)).map (·.node.id)).subperm
    exact ((List.subperm_append_left news).mpr kept).trans h.pending
  settled id hid := h.settled id (((sub.filter (·.result.isSome)).map (·.node.id)).subset hid)
  nodes := (sub.map _).trans h.nodes

theorem Reports.keep (h : Reports items items' news) (node : item'.node = item.node)
    (result : item'.result = item.result) : Reports (item :: items) (item' :: items') news where
  pending := by
    cases before : item.result with
    | none =>
      rw [pending_cons_of_open before, pending_cons_of_open (result.trans before), node]
      exact List.perm_middle.subperm.trans ((List.subperm_cons _).mpr h.pending)
    | some r =>
      have done : item.result.isSome = true := by rw [before]; rfl
      rw [pending_cons_of_done done, pending_cons_of_done (result ▸ done)]
      exact h.pending
  settled id hid := by
    cases before : item.result with
    | none =>
      rw [settled_cons_of_open (result.trans before)] at hid
      rw [settled_cons_of_open before]
      exact h.settled id hid
    | some r =>
      have done : item.result.isSome = true := by rw [before]; rfl
      rw [settled_cons_of_done (result ▸ done), node, List.mem_cons] at hid
      rw [settled_cons_of_done done, List.mem_cons, or_assoc]
      exact hid.imp_right (h.settled id)
  nodes := by
    rw [List.map_cons, List.map_cons, node]
    exact h.nodes.cons_cons _

/-- An item is reported with its first result. -/
theorem Reports.give (h : Reports items items' news) (isOpen : item.Open) (r : ResultTree) :
    Reports (item :: items) (item.concluded r :: items') (news ++ [item.node.id]) where
  pending := by
    rw [pending_cons_of_open isOpen.result, pending_cons_of_done rfl, List.append_assoc]
    exact List.perm_middle.subperm.trans ((List.subperm_cons _).mpr h.pending)
  settled id hid := by
    rw [settled_cons_of_done rfl, List.mem_cons] at hid
    rw [settled_cons_of_open isOpen.result, List.mem_append, List.mem_singleton]
    rcases hid with rfl | hid
    · exact .inr (.inr rfl)
    · exact (h.settled id hid).imp_right .inl
  nodes := h.nodes.cons_cons _

theorem Repeats.mono (h : Repeats items refusal again) (sub : ∀ item ∈ items, item ∈ more) :
    Repeats more refusal again := by
  cases h with
  | nothing => exact .nothing
  | again mem done => exact .again (sub _ mem) done

theorem Repeats.settled (h : Repeats items refusal again) : ∀ id ∈ again, id ∈ settled items := by
  cases h with
  | nothing => exact List.forall_mem_nil _
  | again mem done => exact List.forall_mem_singleton.mpr (mem_settled mem done)

end WorkItem

namespace WorkTree

open WorkItem

variable {item : WorkItem} {below below' ts ts' : List WorkTree} {t t' u u' : WorkTree}
  {es : List Event} {fault : Option Fault} {path : List Nat}

theorem Attempts.exists_reports (h : Attempts t es t' fault) :
    ∃ news again, Event.reported es = news ++ again ∧ Reports t.preorder t'.preorder news ∧
      Repeats t.preorder (fault.bind Fault.refusal?) again := by
  induction h using Attempts.rec (motive_2 := fun ts es ts' fault _ =>
    ∃ news again, Event.reported es = news ++ again ∧
      Reports (ts.flatMap Tree.preorder) (ts'.flatMap Tree.preorder) news ∧
      Repeats (ts.flatMap Tree.preorder) (fault.bind Fault.refusal?) again) with
  | refused => exact ⟨[], [], rfl, .refl _, .nothing⟩
  | leaf isOpen _ heading =>
    simp only [Tree.preorder_eq_cons]
    exact ⟨[_], [], by simp [heading], (Reports.refl _).give isOpen _, .nothing⟩
  | left _ _ _ _ _ _ ih =>
    obtain ⟨news, again, reported, reports, repeats⟩ := ih
    simp only [Tree.preorder_eq_cons]
    exact ⟨news, again, by simp [reported], reports.keep rfl rfl,
      repeats.mono fun _ => List.mem_cons_of_mem _⟩
  | suite isOpen _ _ _ _ _ _ heading ih =>
    obtain ⟨news, _, reported, reports, ⟨⟩⟩ := ih
    simp only [Tree.preorder_eq_cons, List.flatMap_nil]
    exact ⟨news ++ [_], [], by simp [reported, heading],
      (reports.give isOpen _).shed (List.singleton_sublist.mpr List.mem_cons_self), .nothing⟩
  | stuck _ _ ih =>
    obtain ⟨news, again, reported, reports, repeats⟩ := ih
    simp only [Tree.preorder_eq_cons]
    exact ⟨news, again, reported, reports.keep rfl rfl,
      repeats.mono fun _ => List.mem_cons_of_mem _⟩
  | unstarted isOpen _ _ heading ih =>
    obtain ⟨news, _, reported, reports, ⟨⟩⟩ := ih
    simp only [Tree.preorder_eq_cons, List.flatMap_nil]
    exact ⟨news ++ [_], [], by simp [reported, heading],
      (reports.give isOpen _).shed (List.singleton_sublist.mpr List.mem_cons_self), .nothing⟩
  | repeated done _ _ heading ih =>
    obtain ⟨news, _, reported, reports, ⟨⟩⟩ := ih
    simp only [Tree.preorder_eq_cons, List.flatMap_nil]
    exact ⟨news, [_], by simp [reported, heading],
      (reports.keep rfl rfl).shed (List.singleton_sublist.mpr List.mem_cons_self),
      .again List.mem_cons_self done⟩
  | nil => exact ⟨[], [], rfl, .refl _, .nothing⟩
  | stop _ ih =>
    obtain ⟨news, again, reported, reports, repeats⟩ := ih
    simp only [List.flatMap_cons]
    exact ⟨news, again, reported, by simpa using reports.append (.refl _),
      repeats.mono fun _ => List.mem_append_left _⟩
  | cons _ _ ih ih' =>
    obtain ⟨news, _, reported, reports, ⟨⟩⟩ := ih
    obtain ⟨news', again, reported', reports', repeats⟩ := ih'
    simp only [List.flatMap_cons]
    exact ⟨news ++ news', again, by simp [reported, reported'], reports.append reports',
      repeats.mono fun _ => List.mem_append_right _⟩

/-- Reports at one place of a tree are reports on the tree. -/
theorem reports_replaceAt {news : List TestId} (place : t.subtreeAt? path = some u)
    (h : Reports u.preorder u'.preorder news) :
    Reports t.preorder (Tree.preorder (t.replaceAt u' path)) news := by
  obtain ⟨before, after, same, replaced⟩ := Tree.exists_preorder_replaceAt place
  rw [same, replaced]
  simpa using ((Reports.refl before).append h).append (.refl after)

end WorkTree

namespace Dispatch

/-- The ids that a call reports. -/
def reports (call : Dispatch) (t : WorkTree) : List TestId :=
  match call.run? t with
  | some p => Event.reported (p.session.events.drop call.session.events.length)
  | none => []

/-- The item that refuses another result in a call. -/
def refusal? (call : Dispatch) (t : WorkTree) : Option String :=
  ((call.run? t).bind (·.fault)).bind Fault.refusal?

variable {call : Dispatch} {t : WorkTree}

open WorkItem

theorem exists_reports (sequential : call.IsSequential) (sound : t.Sound) :
    ∃ news again, call.reports t = news ++ again ∧
      Reports t.preorder (Tree.preorder (call.after t)) news ∧
      Repeats t.preorder (call.refusal? t) again := by
  unfold reports refusal? after
  cases ran : call.run? t with
  | none => exact ⟨[], [], rfl, .refl _, .nothing⟩
  | some p =>
    obtain ⟨u, place, log, hlog, attempts⟩ := tried_of_run? sequential sound ran
    obtain ⟨news, again, reported, reports, repeats⟩ := attempts.exists_reports
    refine ⟨news, again, ?_, WorkTree.reports_replaceAt place reports,
      repeats.mono fun item => Tree.mem_preorder_of_subtreeAt? place⟩
    simpa [hlog] using reported

end Dispatch

namespace WorkTree

open WorkItem

/-- The ids that several calls report. -/
def reportsOver (t : WorkTree) : List Dispatch → List TestId
  | [] => []
  | call :: calls => call.reports t ++ reportsOver (call.after t) calls

/-- The items that refuse another result in several calls, one for each call that this ends. -/
def refusalsOver (t : WorkTree) : List Dispatch → List String
  | [] => []
  | call :: calls => (call.refusal? t).toList ++ refusalsOver (call.after t) calls

variable {t : WorkTree} {calls : List Dispatch}

/-- Whether an id and a full name are those of the same node. -/
def Names (items : List WorkItem) (id : TestId) (test : String) : Prop :=
  ∃ n ∈ items.map WorkItem.node, n.id = id ∧ n.fullName = test

theorem Names.of_sublist {items items' : List WorkItem} {id : TestId} {test : String}
    (h : Names items' id test)
    (sub : (items'.map WorkItem.node).Sublist (items.map WorkItem.node)) : Names items id test := by
  obtain ⟨n, hn, id, test⟩ := h
  exact ⟨n, sub.subset hn, id, test⟩

theorem Sound.exists_reportsOver (sound : t.Sound)
    (sequential : ∀ call ∈ calls, call.IsSequential) :
    ∃ news again, (t.reportsOver calls).Perm (news ++ again) ∧
      Reports t.preorder (Tree.preorder (t.afterAll calls)) news ∧
      (∀ id ∈ again, id ∈ settled t.preorder ∨ id ∈ news) ∧
      List.Forall₂ (Names t.preorder) again (t.refusalsOver calls) := by
  induction calls generalizing t with
  | nil => exact ⟨[], [], .refl _, .refl _, List.forall_mem_nil _, .nil⟩
  | cons call calls ih =>
    obtain ⟨first, rest⟩ := List.forall_mem_cons.mp sequential
    obtain ⟨news, again, reported, reports, repeats⟩ := Dispatch.exists_reports first sound
    obtain ⟨news', again', reported', reports', earlier, named⟩ :=
      ih (Dispatch.sound_after first sound) rest
    refine ⟨news ++ news', again ++ again', ?_, reports.trans reports', fun id hid => ?_, ?_⟩
    · rw [reportsOver, reported]
      refine (reported'.append_left _).trans ?_
      simp only [List.append_assoc]
      exact (List.perm_append_comm_assoc ..).append_left _
    · rw [List.mem_append, ← or_assoc]
      rcases List.mem_append.mp hid with hid | hid
      · exact .inl (.inl (repeats.settled id hid))
      · exact (earlier id hid).imp_left (reports.settled id)
    · have named := named.imp fun _ _ h => h.of_sublist reports.nodes
      rw [refusalsOver]
      generalize call.refusal? t = refusal at repeats
      cases repeats with
      | nothing => exact named
      | again mem => exact .cons ⟨_, List.mem_map_of_mem mem, rfl, rfl⟩ named

/-- How often calls report the items that were made. -/
structure ReportedOnce (made : WorkTree) (calls : List Dispatch) : Prop where
  once : made.refusalsOver calls = [] →
    (made.reportsOver calls).Subperm (made.preorder.map (·.node.id))
  /-- Every refused result is reported, after an earlier report on the same item. -/
  repeats : ∃ news again, (made.reportsOver calls).Perm (news ++ again) ∧
    (news ++ pending (Tree.preorder (made.afterAll calls))).Subperm
      (made.preorder.map (·.node.id)) ∧
    (∀ id ∈ again, id ∈ news) ∧ List.Forall₂ (Names made.preorder) again (made.refusalsOver calls)

/-- Over any calls an item is reported once, and once more for each call that it ends by refusing
another result. -/
theorem reportedOnce_of_calls (f : Filter) (l : Location Node) {calls : List Dispatch}
    (sequential : ∀ call ∈ calls, call.IsSequential) : (create f l).ReportedOnce calls := by
  have fresh := fresh_create f l
  have unsettled : settled (create f l).preorder = [] := by
    have none : (create f l).preorder.filter (·.result.isSome) = [] :=
      List.filter_eq_nil_iff.mpr fun item hitem => by simp [fresh.blank item hitem]
    rw [settled, none, List.map_nil]
  have all : pending (create f l).preorder = (create f l).preorder.map (·.node.id) := by
    rw [pending, List.filter_eq_self.mpr fun item hitem => by simp [fresh.blank item hitem]]
  obtain ⟨news, again, reported, reports, earlier, named⟩ :=
    fresh.sound.exists_reportsOver sequential
  have pending := reports.pending
  rw [all] at pending
  refine ⟨fun unrefused => ?_, news, again, reported, pending, fun id hid => ?_, named⟩
  · rw [unrefused] at named
    obtain rfl := List.forall₂_nil_right_iff.mp named
    rw [List.append_nil] at reported
    exact reported.subperm.trans ((List.sublist_append_left ..).subperm.trans pending)
  · exact (earlier id hid).resolve_left (by simp [unsettled])

end WorkTree

end TestScheduler

namespace TestScheduler.WorkTree

/-- The explicit test, which is skipped, is executed a second time. -/
theorem reportedOnce_of_calls_sample :
    let made := create .empty (Location.root TestTree.sample)
    let calls : List Dispatch := [.passingAt [0, 1], .passingAt [0, 1], .passingAt [1]]
    (∀ call ∈ calls, call.IsSequential) ∧ made.refusalsOver calls = ["Root.Fast.Hidden"] ∧
      made.ReportedOnce calls := by
  have sequential : ∀ call ∈ [Dispatch.passingAt [0, 1], .passingAt [0, 1], .passingAt [1]],
      call.IsSequential := by
    simp [Dispatch.passingAt_isSequential]
  exact ⟨sequential, by decide +kernel, reportedOnce_of_calls _ _ sequential⟩

/-- An explicit test that is executed twice is reported twice. -/
theorem not_reportedOnce_of_skipped :
    let made := create .empty (Location.root TestTree.sample)
    made.reportsOver [.passingAt [0, 1], .passingAt [0, 1]] = [1003, 1003] ∧
      (made.preorder.map (·.node.id)).count 1003 = 1 :=
  ⟨by decide +kernel, by decide +kernel⟩

end TestScheduler.WorkTree

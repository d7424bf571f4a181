import TestScheduler.Pattern.Common
import TestScheduler.Proofs.Filter.Selection
import TestScheduler.Proofs.Report.Outline
import TestScheduler.Proofs.Run.Pruning
import TestScheduler.Report.Listing

/-! # Views of a tree

What a filter keeps of a tree is listed, selected and made into work items by three searches from the
root downwards. Below a location that is dropped nothing is kept, so that all of them come to the
same locations in the same order.
-/

namespace TestScheduler.Filter

variable {Expression : Type} [Pattern.Dialect Expression] {l : Location Node}

/-- The locations that a filter keeps, in pre-order. -/
def view (f : Filter) (t : TestTree) : List (Location Node) := t.locations.filter f.keeps

/-- What a listing shows of a location: its depth and the node. -/
def shown (l : Location Node) : Nat × Node := (l.above.length, l.value)

theorem keptEach_eq_flatMap (f : Filter) (above ts : List TestTree) :
    keptEach f above ts =
      (ts.map (⟨·, above⟩ : TestTree → Location Node)).flatMap
        fun l => keptFrom f l.above l.tree := by
  induction ts with
  | nil => rfl
  | cons t ts ih => simp [keptEach, ih]

theorem keptFrom_of_drops (f : Filter) (h : f.keeps l = false) :
    keptFrom f l.above l.tree = [] := by
  obtain ⟨⟨n, ts⟩, above⟩ := l
  simp [keptFrom, h]

theorem keptFrom_of_keeps (f : Filter) (h : f.keeps l = true) :
    keptFrom f l.above l.tree =
      shown l :: l.children.flatMap fun c => keptFrom f c.above c.tree := by
  obtain ⟨⟨n, ts⟩, above⟩ := l
  simp only [keptFrom, h, if_true, keptEach_eq_flatMap]
  rfl

theorem keptFrom_eq_map (f : Filter) (hl : l.Placed) :
    keptFrom f l.above l.tree = (l.preorder.filter f.keeps).map shown := by
  induction l using Location.induction with
  | step l ih =>
    cases hk : f.keeps l with
    | false => rw [keptFrom_of_drops f hk, f.filter_keeps_preorder hl hk, List.map_nil]
    | true =>
      rw [keptFrom_of_keeps f hk, Location.preorder_eq_cons, List.filter_cons_of_pos hk,
        List.map_cons, Location.descendants_eq_flatMap, List.filter_flatMap, List.map_flatMap]
      exact congrArg _ (List.flatMap_congr fun c hc => ih c hc (hl.child hc))

theorem kept_eq_map (f : Filter) (t : TestTree) : f.kept t = (f.view t).map shown :=
  keptFrom_eq_map f (.root t)

theorem listing_eq_join (f : Filter) (t : TestTree) (isDetailed : Bool) :
    f.listing t isDetailed = String.join ((f.view t).flatMap fun l =>
      (l.value.listing isDetailed l.above.length).map (· ++ "\n")) := by
  rw [listing, kept_eq_map, List.flatMap_map]
  rfl

theorem select_eq_view (f : Filter) {t : TestTree} (bare : t.LeavesAreBare) :
    f.select t = (f.view t).filter fun l => l.value.kind = .leaf := by
  rw [f.select_eq_filter bare, TestTree.testCases, List.filter_comm]
  rfl

/-- The work items of a kept root stand for what is kept. -/
theorem nodeLocations_eq_view (f : Filter) {t : TestTree}
    (kept : f.keeps (Location.root t) = true) :
    (WorkTree.create f (.root t)).nodeLocations = f.view t := by
  rw [WorkTree.nodeLocations_create (.root t), view, Tree.locations, Location.preorder_eq_cons,
    List.filter_cons_of_pos kept]

/-- Whether lines are an entry for a node at a depth. After two blanks for each level the first line
names the node and its kind, and the others are one for each property in a detailed listing. -/
structure IsEntry (n : Node) (isDetailed : Bool) (depth : Nat) (lines : List String) : Prop where
  first : ∃ note, lines.head? = some (String.ofList (List.replicate (2 * depth) ' ') ++
    (n.name ++ " (" ++ n.kind.title ++ ")" ++ note)) ∧ (note ≠ "" → isDetailed = true)
  others : lines.tail.length = if isDetailed then n.properties.keys.length else 0

theorem isEntry_listing (n : Node) (isDetailed : Bool) (depth : Nat) :
    IsEntry n isDetailed depth (n.listing isDetailed depth) := by
  have indent : Text.indentation depth = String.ofList (List.replicate (2 * depth) ' ') := by
    rw [← Text.toList_indentation, String.ofList_toList]
  cases isDetailed with
  | false => exact ⟨⟨"", by simp [Node.listing, indent, String.append_assoc], nofun⟩, rfl⟩
  | true =>
    refine ⟨⟨" [id " ++ toString n.id ++ ", " ++ n.runnability.title ++ "]", ?_, fun _ => rfl⟩, ?_⟩
    · simp only [Node.listing, if_true, List.head?_cons, indent, String.append_assoc]
    · simp [Node.listing, Properties.keys]

/-- Where the root is kept, the work items, the listing and the selection of a filter all show what
it keeps, in pre-order, with nothing cut off because it lies below something that is dropped. The
listing has an entry for each node of the view and nothing else. -/
theorem views_agree (f : Filter) {t : TestTree} (bare : t.LeavesAreBare)
    (kept : f.keeps (Location.root t) = true) :
    (WorkTree.create f (.root t)).nodeLocations = f.view t ∧
    f.kept t = (f.view t).map shown ∧
    (∀ isDetailed, f.listing t isDetailed = String.join ((f.view t).flatMap fun l =>
      (l.value.listing isDetailed l.above.length).map (· ++ "\n")) ∧
      ∀ l ∈ f.view t,
        IsEntry l.value isDetailed l.above.length (l.value.listing isDetailed l.above.length)) ∧
    (f.select t = (f.view t).filter fun l => l.value.kind = .leaf) ∧
    ∀ l ∈ t.locations, f.keeps l = true →
      l ∈ (WorkTree.create f (.root t)).nodeLocations ∧ ∀ a ∈ l.ancestors, f.keeps a = true := by
  have items := f.nodeLocations_eq_view kept
  refine ⟨items, f.kept_eq_map t, fun isDetailed => ⟨f.listing_eq_join t isDetailed, fun l _ =>
    isEntry_listing l.value isDetailed _⟩, f.select_eq_view bare, fun l hl h => ⟨?_, ?_⟩⟩
  · rw [items]
    exact List.mem_filter.mpr ⟨hl, h⟩
  · exact fun a ha => f.keeps_ancestor (Location.placed_of_mem_locations hl) ha h

end TestScheduler.Filter

namespace TestScheduler.Filter

theorem views_agree_sample :
    TestTree.sample.LeavesAreBare ∧
      (literal .category "Fast").keeps (Location.root TestTree.sample) = true ∧
      ((literal .category "Fast").view .sample).map (·.value.name) =
        ["Root", "Fast", "Plain", "Hidden"] ∧
      (WorkTree.create (literal .category "Fast") (.root TestTree.sample)).nodeLocations =
        (literal .category "Fast").view .sample ∧
      (literal .category "Fast").kept .sample =
        ((literal .category "Fast").view .sample).map shown :=
  have h := views_agree (literal .category "Fast") (t := .sample) (by decide) (by decide)
  ⟨by decide, by decide, by decide, h.1, h.2.1⟩

end TestScheduler.Filter

import TestScheduler.Run.Dispatch

/-! # Concluding work items

An item whose result is still open can be concluded once, and then its result is there to be read.
From this follows what happens to a fresh tree of items that are finished without being started:
all get the same verdict, and the items below one are reported before it.
-/

namespace TestScheduler

variable {Expression : Type} [Pattern.Dialect Expression]

namespace Session

/-- Adds events to the log and changes nothing else. -/
def recordAll (s : Session) (es : List Event) : Session := { s with events := s.events ++ es }

@[simp] theorem recordAll_nil (s : Session) : s.recordAll [] = s := by simp [recordAll]

@[simp] theorem recordAll_recordAll (s : Session) (es es' : List Event) :
    (s.recordAll es).recordAll es' = s.recordAll (es ++ es') := by
  simp [recordAll]

@[simp] theorem record_recordAll (s : Session) (es : List Event) (e : Event) :
    (s.recordAll es).record e = s.recordAll (es ++ [e]) := by
  simp [recordAll, record]

end Session

/-- A step that came to its end without a fault and left something behind that can be read. -/
structure Progress.Gives {α : Type u} {β : Type v} (p : Progress α) (read : α → Except Fault β)
    (b : β) (s : Session) : Prop where
  fault : p.fault = none
  value : read p.value = .ok b
  session : p.session = s

/-- An item that can still be given its result. -/
structure WorkItem.Open (item : WorkItem) : Prop where
  stage : item.stage ≠ .complete
  result : item.result = none

theorem Stage.allows_complete {stage : Stage} (h : stage ≠ .complete) :
    stage.allows .complete = true := by
  cases stage <;> simp_all [allows]

theorem WorkItem.Open.complete {item : WorkItem} (h : item.Open) (r : ResultTree) :
    item.complete r = .ok { item with stage := .complete, result := some r } := by
  simp [WorkItem.complete, advance, h.result, Stage.allows_complete h.stage, bind, Except.bind]

namespace ResultTree

mutual

/-- The reports on the results of a tree, those on its children before that on the tree. -/
def finishes : ResultTree → List Event
  | .node r rs => finishesEach rs ++ [.finished (.node r rs)]

def finishesEach : List ResultTree → List Event
  | [] => []
  | r :: rs => finishes r ++ finishesEach rs

end

end ResultTree

namespace WorkTree

variable {item : WorkItem} {below ts : List WorkTree} {t : WorkTree} {s : Session}
  {v : Verdict} {message : Option String}

/-- A tree of items before its run, without any results. -/
inductive Fresh : WorkTree → Prop where
  | node {item : WorkItem} {below : List WorkTree} (stage : item.stage = .ready)
      (result : item.result = none) (each : ∀ t ∈ below, Fresh t) : Fresh (.node item below)

theorem open_of_ready (stage : item.stage = .ready) (result : item.result = none) : item.Open :=
  ⟨by simp [stage], result⟩

theorem conclude_gives (h : item.Open) (below : List WorkTree) (r : ResultTree) (s : Session) :
    (conclude item below r s).Gives result r (s.record (.finished r)) := by
  simp only [conclude, h.complete]
  exact ⟨rfl, rfl, rfl⟩

theorem concludeWith_gives (h : item.Open) {rs : List ResultTree} (hrs : results below = .ok rs)
    (s : Session) (make : List ResultTree → Session → ResultTree × Session) :
    (concludeWith item below s make).Gives result (make rs s).1
      ((make rs s).2.record (.finished (make rs s).1)) := by
  simp only [concludeWith, hrs]
  exact conclude_gives h _ _ _

theorem results_nil : results [] = .ok [] := rfl

theorem results_cons {r : ResultTree} {rs : List ResultTree} (h : t.result = .ok r)
    (hs : results ts = .ok rs) : results (t :: ts) = .ok (r :: rs) := by
  simp only [results, List.mapM_cons] at hs ⊢
  rw [h, hs]
  rfl

/-- The results of a tree of items none of which is started. -/
def unstarted (v : Verdict) (message : Option String) (t : WorkTree) : ResultTree :=
  t.map fun item => { Result.ofNode item.node with verdict := v, message }

theorem unstarted_node :
    unstarted v message (.node item below) =
      .node { Result.ofNode item.node with verdict := v, message }
        (below.map (unstarted v message)) := by
  simp only [unstarted, Tree.map_node]
  rfl

theorem finishEachUnstarted_gives
    (h : ∀ t ∈ ts, ∀ s, (finishUnstarted v message t s).Gives result (t.unstarted v message)
      (s.recordAll (t.unstarted v message).finishes)) (s : Session) :
    (finishEachUnstarted v message ts s).Gives results (ts.map (unstarted v message))
      (s.recordAll (ResultTree.finishesEach (ts.map (unstarted v message)))) := by
  induction ts generalizing s with
  | nil => exact ⟨rfl, rfl, by simp [finishEachUnstarted, ResultTree.finishesEach]⟩
  | cons t ts ih =>
    obtain ⟨hfault, hvalue, hsession⟩ := h t List.mem_cons_self s
    have rest := ih (fun t ht => h t (List.mem_cons_of_mem _ ht))
      (s.recordAll (t.unstarted v message).finishes)
    simp only [finishEachUnstarted, hfault, hsession, Progress.map]
    refine ⟨rest.fault, results_cons hvalue rest.value, ?_⟩
    simp [rest.session, ResultTree.finishesEach]

theorem Fresh.finishUnstarted_gives (h : t.Fresh) (v : Verdict) (message : Option String)
    (s : Session) :
    (finishUnstarted v message t s).Gives result (t.unstarted v message)
      (s.recordAll (t.unstarted v message).finishes) := by
  induction t using Tree.induction generalizing s with
  | node item below ih =>
    obtain ⟨stage, result, each⟩ := h
    have children := finishEachUnstarted_gives (fun t ht => ih t ht (each t ht)) s
    simp only [finishUnstarted, children.fault]
    obtain ⟨hfault, hvalue, hsession⟩ := concludeWith_gives (open_of_ready stage result)
      children.value (finishEachUnstarted v message below s).session fun children s =>
        (.node { Result.ofNode item.node with verdict := v, message } children, s)
    refine ⟨hfault, ?_, ?_⟩
    · rw [hvalue, unstarted_node]
    · rw [hsession, children.session, unstarted_node]
      simp [ResultTree.finishes]

theorem Fresh.finishEachUnstarted_gives (h : ∀ t ∈ ts, t.Fresh) (v : Verdict)
    (message : Option String) (s : Session) :
    (finishEachUnstarted v message ts s).Gives results (ts.map (unstarted v message))
      (s.recordAll (ResultTree.finishesEach (ts.map (unstarted v message)))) :=
  WorkTree.finishEachUnstarted_gives (fun t ht => (h t ht).finishUnstarted_gives v message) s

end WorkTree

end TestScheduler

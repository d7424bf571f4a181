import TestScheduler.Filter.Xml.Reader
import TestScheduler.Proofs.Filter.Shape
import TestScheduler.Proofs.Prelude

/-! # What is read from filter XML

The reader builds canonical filters only, whatever document it reads: no group that it closes is
empty, and it marks no negation before the end.
-/

namespace TestScheduler

variable {Expression : Type} [Pattern.Dialect Expression]

namespace FilterXml

theorem Frame.children_withAttributes {frame frame' : Frame} {seen : List String}
    {attributeText : List Char} (h : frame.withAttributes seen attributeText = .ok frame') :
    frame'.children = frame.children := by
  fun_induction Frame.withAttributes frame seen attributeText with
  | case1 | case3 | case4 => cases h
  | case2 =>
    cases h
    rfl
  | case5 frame seen attributeText name raw rest _ _ value _ ih =>
    rw [ih h]
    unfold Frame.setAttribute
    split
    · rfl
    · split <;> rfl

theorem Frame.canonical_of_close {frame : Frame} {f : Filter}
    (children : ∀ g ∈ frame.children, g.Canonical) (h : frame.close = .ok f) : f.Canonical := by
  unfold Frame.close at h
  split at h
  · split at h
    · cases h
      exact .empty
    · next hchildren =>
      cases h
      exact children _ (by simp [hchildren])
    · next hnil _ =>
      cases h
      exact .and hnil children
  · split at h
    · cases h
    · next hnonempty =>
      cases h
      exact .and (by simpa using hnonempty) children
  · split at h
    · cases h
    · next hnonempty =>
      cases h
      exact .or (by simpa using hnonempty) children
  · split at h
    · next hchildren =>
      cases h
      exact .not (children _ (by simp [hchildren]))
    · cases h
  · obtain ⟨m, -, h⟩ := bind_eq_ok_iff.mp h
    split at h
    · cases h
      exact .predicate
    · cases h
  · split at h
    · obtain ⟨m, -, h⟩ := bind_eq_ok_iff.mp h
      cases h
      exact .predicate
    · cases h

namespace Progress

/-- Whether every filter that has been read is canonical. -/
structure Canonical (p : Progress) : Prop where
  roots : ∀ f ∈ p.roots, f.Canonical
  children : ∀ frame ∈ p.opened, ∀ f ∈ frame.children, f.Canonical

variable {p q : Progress} {frame : Frame} {f : Filter} {e : Xml.Event}

theorem Canonical.attach (h : p.Canonical) (hf : f.Canonical) : (p.attach f).Canonical := by
  have hone : ∀ g ∈ [f], g.Canonical := by simpa using hf
  unfold Progress.attach
  split
  · exact ⟨List.forall_mem_append.mpr ⟨h.roots, hone⟩, h.children⟩
  · next frame opened hopened =>
    have children := h.children
    rw [hopened, List.forall_mem_cons] at children
    refine ⟨h.roots, List.forall_mem_cons.mpr ⟨?_, children.2⟩⟩
    exact List.forall_mem_append.mpr ⟨children.1, hone⟩

theorem Canonical.appendText (h : p.Canonical) (text : String) : (p.appendText text).Canonical := by
  unfold Progress.appendText
  split
  · exact h
  · next frame opened hopened =>
    have children := h.children
    rw [hopened, List.forall_mem_cons] at children
    exact ⟨h.roots, List.forall_mem_cons.mpr children⟩

theorem canonical_of_open? {tag : Xml.Tag} (h : Frame.open? tag = .ok frame) :
    ∀ f ∈ frame.children, f.Canonical := by
  rw [Frame.children_withAttributes h]
  exact nofun

theorem Canonical.step (h : p.Canonical) (hstep : p.step e = .ok q) : q.Canonical := by
  cases e with
  | start tag =>
    obtain ⟨frame, hopen, hstep⟩ := bind_eq_ok_iff.mp hstep
    cases hstep
    exact ⟨h.roots, List.forall_mem_cons.mpr ⟨canonical_of_open? hopen, h.children⟩⟩
  | empty tag =>
    obtain ⟨frame, hopen, hstep⟩ := bind_eq_ok_iff.mp hstep
    obtain ⟨f, hclose, hstep⟩ := bind_eq_ok_iff.mp hstep
    cases hstep
    exact h.attach (Frame.canonical_of_close (canonical_of_open? hopen) hclose)
  | finish name =>
    unfold Progress.step at hstep
    dsimp only at hstep
    split at hstep
    · cases hstep
      exact h
    · next frame opened hopened =>
      obtain ⟨f, hclose, hstep⟩ := bind_eq_ok_iff.mp hstep
      cases hstep
      have children := h.children
      rw [hopened, List.forall_mem_cons] at children
      exact Canonical.attach ⟨h.roots, children.2⟩ (Frame.canonical_of_close children.1 hclose)
  | text raw =>
    unfold Progress.step at hstep
    dsimp only at hstep
    split at hstep
    · cases hstep
      exact h
    · split at hstep
      · cases hstep
        exact h
      · split at hstep
        · cases hstep
          exact h.appendText _
        · cases hstep
  | literalText text =>
    cases hstep
    exact h.appendText text
  | skipped =>
    cases hstep
    exact h

theorem Canonical.readEvents {es : List Xml.Event} (h : p.Canonical)
    (hread : es.foldlM Progress.step p = .ok q) : q.Canonical := by
  induction es generalizing p with
  | nil =>
    cases hread
    exact h
  | cons e es ih =>
    rw [List.foldlM_cons] at hread
    obtain ⟨middle, hstep, hread⟩ := bind_eq_ok_iff.mp hread
    exact ih (h.step hstep) hread

end Progress

end FilterXml

namespace Filter

/-- What is read from XML is a canonical filter whose top has been marked. -/
theorem canonical_of_ofXml {text : String} {f : Filter} (h : ofXml text = .ok f) :
    ∃ g : Filter, g.Canonical ∧ f = g.markTop := by
  unfold ofXml at h
  split at h
  · cases h
    exact ⟨.empty, .empty, rfl⟩
  · obtain ⟨p, hread, h⟩ := bind_eq_ok_iff.mp h
    have canonical : p.Canonical := FilterXml.Progress.Canonical.readEvents
      ⟨by simp, by simp⟩ hread
    split at h
    · unfold FilterXml.Progress.finish at h
      split at h
      · cases h
      · next f _ hroots =>
        cases h
        exact ⟨f, canonical.roots f (by simp [hroots]), rfl⟩
      · cases h
    · cases h

end Filter

end TestScheduler

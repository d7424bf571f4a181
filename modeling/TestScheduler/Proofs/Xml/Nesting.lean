import TestScheduler.Xml.Event

/-! # Well-nested documents

The events of a document are well nested if every end tag closes the latest element that is open
and none is left open at the end. These are exactly the events of a sequence of pieces, each a whole
element, an empty one or something between two tags.
-/

namespace TestScheduler.Xml

inductive Piece where
  | element (tag : Tag) (content : List Piece)
  | empty (tag : Tag)
  | text (raw : String)
  | literalText (text : String)
  | skipped

def Piece.isElement : Piece → Bool
  | .element .. | .empty _ => true
  | .text _ | .literalText _ | .skipped => false

mutual

def Piece.events : Piece → List Event
  | .element tag content => .start tag :: (eventsEach content ++ [.finish tag.name])
  | .empty tag => [.empty tag]
  | .text raw => [.text raw]
  | .literalText text => [.literalText text]
  | .skipped => [.skipped]

/-- The events of pieces one after another. -/
def eventsEach : List Piece → List Event
  | [] => []
  | p :: ps => p.events ++ eventsEach ps

end

/-- Whether events close the elements that are open, given by their names, latest first, and
those that they open themselves. -/
def WellNested : List String → List Event → Prop
  | opened, [] => opened = []
  | opened, .start tag :: es => WellNested (tag.name :: opened) es
  | opened, .finish name :: es =>
    match opened with
    | [] => False
    | latest :: opened => name = latest ∧ WellNested opened es
  | opened, _ :: es => WellNested opened es

/-- The events that close elements, each followed by the pieces after it. -/
def closings (later : List (String × List Piece)) : List Event :=
  later.flatMap fun (name, after) => .finish name :: eventsEach after

variable {opened : List String} {es : List Event}

theorem eventsEach_cons (p : Piece) (ps : List Piece) :
    eventsEach (p :: ps) = p.events ++ eventsEach ps := by
  rw [eventsEach]

theorem wellNested_eventsEach_append (ps : List Piece) :
    WellNested opened (eventsEach ps ++ es) ↔ WellNested opened es := by
  induction ps using Piece.rec_1
    (motive_1 := fun p => ∀ opened es,
      WellNested opened (p.events ++ es) ↔ WellNested opened es)
    generalizing opened es with
  | element tag content ih =>
    rw [Piece.events, List.cons_append, List.append_assoc, List.singleton_append, WellNested, ih,
      WellNested]
    exact and_iff_right rfl
  | empty | text | literalText | skipped =>
    rw [Piece.events, List.singleton_append, WellNested]
    all_goals exact nofun
  | nil =>
    rw [eventsEach, List.nil_append]
  | cons p ps first rest =>
    rw [eventsEach_cons, List.append_assoc, first, rest]

theorem WellNested.exists_pieces (h : WellNested opened es) :
    ∃ content later, later.map Prod.fst = opened ∧ es = eventsEach content ++ closings later := by
  induction es generalizing opened with
  | nil =>
    cases h
    exact ⟨[], [], rfl, rfl⟩
  | cons e es ih =>
    cases e with
    | start tag =>
      obtain ⟨inner, later, names, rfl⟩ := ih h
      cases later with
      | nil => cases names
      | cons first later =>
        obtain ⟨name, after⟩ := first
        obtain ⟨rfl, others⟩ := List.cons.inj names
        refine ⟨.element tag inner :: after, later, others, ?_⟩
        simp [eventsEach_cons, Piece.events, closings]
    | finish name =>
      cases opened with
      | nil => cases h
      | cons latest opened =>
        obtain ⟨rfl, h⟩ := h
        obtain ⟨after, later, names, rfl⟩ := ih h
        exact ⟨[], (name, after) :: later, by rw [List.map_cons, names], rfl⟩
    | empty tag =>
      obtain ⟨content, later, names, rfl⟩ := ih h
      exact ⟨.empty tag :: content, later, names, rfl⟩
    | text raw =>
      obtain ⟨content, later, names, rfl⟩ := ih h
      exact ⟨.text raw :: content, later, names, rfl⟩
    | literalText text =>
      obtain ⟨content, later, names, rfl⟩ := ih h
      exact ⟨.literalText text :: content, later, names, rfl⟩
    | skipped =>
      obtain ⟨content, later, names, rfl⟩ := ih h
      exact ⟨.skipped :: content, later, names, rfl⟩

/-- The events of a whole document are well nested exactly if they are those of pieces. -/
theorem wellNested_iff : WellNested [] es ↔ ∃ content, eventsEach content = es := by
  constructor
  · intro h
    obtain ⟨content, later, names, rfl⟩ := h.exists_pieces
    obtain rfl := List.map_eq_nil_iff.mp names
    exact ⟨content, (List.append_nil _).symm⟩
  · rintro ⟨content, rfl⟩
    rw [← List.append_nil (eventsEach content), wellNested_eventsEach_append]
    rfl

end TestScheduler.Xml

import TestScheduler.Pattern.Common
import TestScheduler.Proofs.Filter.XmlReading
import TestScheduler.Proofs.Xml.Nesting

/-! # Reading elements within elements

The events of a well-nested document could be read by recursion: the filter of an element is what
its frame is closed to when all that is in the element has been read. The stack of open elements
does the same, and so the first event that is rejected decides about the error.
-/

namespace TestScheduler

open Xml (Piece eventsEach WellNested)

namespace FilterXml

variable {Expression : Type} [Pattern.Dialect Expression]

/-! ## Reading by recursion -/

/-- Adds finished elements and text to what has been collected inside an element. -/
def Frame.take (frame : Frame) (read : List Filter × String) : Frame :=
  { frame with children := frame.children ++ read.1, text := frame.text ++ read.2 }

mutual

/-- The filter of a piece, if it is an element, and its text. -/
def readPiece (layout : Bool) : Piece → Except FilterXmlError (List Filter × String)
  | .element tag content => do
    let frame ← Frame.open? tag
    let read ← readEach frame.isGroup content
    .ok ([← (frame.take read).close], "")
  | .empty tag => do
    let frame ← Frame.open? tag
    .ok ([← frame.close], "")
  | .text raw =>
    if layout then .ok ([], "")
    else
      match Xml.unescape? raw with
      | some text => .ok ([], text)
      | none => .error .malformed
  | .literalText text => .ok ([], text)
  | .skipped => .ok ([], "")

/-- The filters of the elements among pieces that stand in one element, and the text between them,
which may be layout. -/
def readEach (layout : Bool) : List Piece → Except FilterXmlError (List Filter × String)
  | [] => .ok ([], "")
  | p :: ps => do
    let (fs, text) ← readPiece layout p
    let (gs, more) ← readEach layout ps
    .ok (fs ++ gs, text ++ more)

end

/-! ## The stack -/

namespace Progress

/-- Whether text is layout: in a combinator and outside all elements. -/
def isLayout (p : Progress) : Bool := p.opened.head?.all Frame.isGroup

/-- Adds finished elements and text to the innermost open element. -/
def take (p : Progress) (read : List Filter × String) : Progress :=
  match p.opened with
  | [] => { p with roots := p.roots ++ read.1 }
  | frame :: opened => { p with opened := frame.take read :: opened }

variable (p : Progress) (f : Filter) (text : String) (read more : List Filter × String)

theorem attach_eq_take : p.attach f = p.take ([f], "") := by
  obtain ⟨_ | ⟨frame, opened⟩, roots⟩ := p
  · rfl
  · simp [attach, take, Frame.take]

theorem appendText_eq_take : p.appendText text = p.take ([], text) := by
  obtain ⟨_ | ⟨frame, opened⟩, roots⟩ := p
  · simp [appendText, take]
  · simp [appendText, take, Frame.take]

theorem take_nothing : p.take ([], "") = p := by
  obtain ⟨_ | ⟨frame, opened⟩, roots⟩ := p
  · simp [take]
  · simp [take, Frame.take]

theorem take_take : (p.take read).take more = p.take (read.1 ++ more.1, read.2 ++ more.2) := by
  obtain ⟨_ | ⟨frame, opened⟩, roots⟩ := p
  · simp [take]
  · simp [take, Frame.take, String.append_assoc]

theorem isLayout_take : (p.take read).isLayout = p.isLayout := by
  obtain ⟨_ | ⟨frame, opened⟩, roots⟩ := p
  · rfl
  · rfl

theorem step_text (raw : String) :
    p.step (.text raw) = (readPiece p.isLayout (.text raw)).map p.take := by
  rw [readPiece]
  cases layout : p.isLayout with
  | true =>
    obtain ⟨_ | ⟨frame, opened⟩, roots⟩ := p
    · simp [step, Except.map, take_nothing]
    · simp [step, Except.map, take_nothing, show frame.isGroup = true from layout]
  | false =>
    obtain ⟨_ | ⟨frame, opened⟩, roots⟩ := p
    · cases layout
    · simp only [step, show frame.isGroup = false from layout, Bool.false_eq_true, if_false]
      cases Xml.unescape? raw with
      | none => rfl
      | some text => exact congrArg Except.ok (appendText_eq_take _ _)

theorem step_finish (frame : Frame) (name : String) :
    Progress.step { p with opened := frame :: p.opened } (.finish name) =
      frame.close.map fun f => p.take ([f], "") := by
  simp only [step]
  cases frame.close with
  | error e => rfl
  | ok f => exact congrArg Except.ok (p.attach_eq_take f)

end Progress

/-- The stack takes from pieces what is read by recursion. -/
theorem foldlM_eventsEach (ps : List Piece) (p : Progress) :
    (eventsEach ps).foldlM Progress.step p = (readEach p.isLayout ps).map p.take := by
  induction ps using Piece.rec_1
    (motive_1 := fun piece => ∀ p : Progress,
      piece.events.foldlM Progress.step p = (readPiece p.isLayout piece).map p.take)
    generalizing p with
  | element tag content ih p =>
    rw [Piece.events, List.foldlM_cons, Progress.step, readPiece]
    cases Frame.open? tag with
    | error e => rfl
    | ok frame =>
      have inside := ih ⟨frame :: p.opened, p.roots⟩
      have layout : Progress.isLayout ⟨frame :: p.opened, p.roots⟩ = frame.isGroup := rfl
      rw [layout] at inside
      simp only [bind, Except.bind] at inside ⊢
      rw [List.foldlM_append, inside]
      cases readEach frame.isGroup content with
      | error e => rfl
      | ok read =>
        change [Xml.Event.finish tag.name].foldlM Progress.step
          { p with opened := frame.take read :: p.opened } = _
        rw [List.foldlM_cons, p.step_finish]
        dsimp only
        cases (frame.take read).close <;> rfl
  | empty tag p =>
    rw [Piece.events, List.foldlM_cons, Progress.step, readPiece]
    cases Frame.open? tag with
    | error e => rfl
    | ok frame =>
      simp only [bind, Except.bind]
      cases frame.close with
      | error e => rfl
      | ok f => exact congrArg Except.ok (p.attach_eq_take f)
  | text raw p =>
    rw [Piece.events, List.foldlM_cons, p.step_text raw]
    cases readPiece p.isLayout (.text raw) <;> rfl
  | literalText text p => exact congrArg Except.ok (p.appendText_eq_take text)
  | skipped p => exact congrArg Except.ok p.take_nothing.symm
  | nil => exact congrArg Except.ok p.take_nothing.symm
  | cons piece ps first rest =>
    rw [Xml.eventsEach_cons, List.foldlM_append, first, readEach]
    cases readPiece p.isLayout piece with
    | error e => rfl
    | ok read =>
      simp only [bind, Except.bind, Except.map, rest, Progress.isLayout_take]
      cases readEach p.isLayout ps with
      | error e => rfl
      | ok more => exact congrArg Except.ok (p.take_take read more)

/-! ## What is rejected -/

/-- The error of a computation that fails. -/
def error? {α : Type} : Except FilterXmlError α → Option FilterXmlError
  | .error e => some e
  | .ok _ => none

mutual

/-- The errors of the events of a piece that are rejected, in document order. What is in an element
counts if its start tag is not rejected, and its end tag if nothing in the element is. -/
def rejections (layout : Bool) : Piece → List FilterXmlError
  | .element tag content =>
    match Frame.open? tag with
    | .error e => [e]
    | .ok frame =>
      rejectionsEach frame.isGroup content ++
        match readEach frame.isGroup content with
        | .error _ => []
        | .ok read => (error? (frame.take read).close).toList
  | .empty tag =>
    match Frame.open? tag with
    | .error e => [e]
    | .ok frame => (error? frame.close).toList
  | .text raw => if layout || (Xml.unescape? raw).isSome then [] else [.malformed]
  | .literalText _ => []
  | .skipped => []

def rejectionsEach (layout : Bool) : List Piece → List FilterXmlError
  | [] => []
  | p :: ps => rejections layout p ++ rejectionsEach layout ps

end

theorem error?_readEach (ps : List Piece) (layout : Bool) :
    error? (readEach layout ps) = (rejectionsEach layout ps).head? := by
  induction ps using Piece.rec_1
    (motive_1 := fun piece => ∀ layout,
      error? (readPiece layout piece) = (rejections layout piece).head?)
    generalizing layout with
  | element tag content ih layout =>
    rw [readPiece, rejections]
    cases Frame.open? tag with
    | error e => rfl
    | ok frame =>
      simp only [bind, Except.bind]
      rw [List.head?_append, ← ih]
      cases readEach frame.isGroup content with
      | error e => rfl
      | ok read =>
        dsimp only
        cases (frame.take read).close <;> rfl
  | empty tag layout =>
    rw [readPiece, rejections]
    cases Frame.open? tag with
    | error e => rfl
    | ok frame =>
      simp only [bind, Except.bind]
      cases frame.close <;> rfl
  | text raw layout =>
    rw [readPiece, rejections]
    cases layout with
    | true => rfl
    | false => cases Xml.unescape? raw <;> rfl
  | literalText | skipped | nil => rfl
  | cons piece ps first rest =>
    rw [readEach, rejectionsEach, List.head?_append, ← first, ← rest]
    cases readPiece layout piece with
    | error e => rfl
    | ok read =>
      simp only [bind, Except.bind]
      cases readEach layout ps <;> rfl

/-! ## Whole documents -/

section Unclosed

variable {element : String}

theorem Frame.withAttributes_ne_unclosed (frame : Frame) (seen : List String)
    (attributeText : List Char) :
    frame.withAttributes seen attributeText ≠ .error (.unclosed element) := by
  intro h
  fun_induction Frame.withAttributes frame seen attributeText with
  | case1 | case2 | case3 | case4 => cases h
  | case5 _ _ _ _ _ _ _ _ _ _ ih => exact ih h

theorem Frame.matcher_ne_unclosed (frame : Frame) :
    frame.matcher ≠ .error (.unclosed element) := by
  unfold Frame.matcher
  split
  · exact nofun
  · split
    · exact nofun
    · exact nofun

theorem Frame.close_ne_unclosed (frame : Frame) : frame.close ≠ .error (.unclosed element) := by
  unfold Frame.close
  split
  · split <;> exact nofun
  · split <;> exact nofun
  · split <;> exact nofun
  · split <;> exact nofun
  · intro h
    rcases bind_eq_error_iff.mp h with h | ⟨m, -, h⟩
    · exact frame.matcher_ne_unclosed h
    · split at h <;> cases h
  · split
    · intro h
      rcases bind_eq_error_iff.mp h with h | ⟨m, -, h⟩
      · exact frame.matcher_ne_unclosed h
      · cases h
    · exact nofun

theorem Progress.step_ne_unclosed (p : Progress) (e : Xml.Event) :
    p.step e ≠ .error (.unclosed element) := by
  intro h
  cases e with
  | start tag =>
    rcases bind_eq_error_iff.mp h with h | ⟨frame, -, h⟩
    · exact Frame.withAttributes_ne_unclosed _ _ _ h
    · cases h
  | empty tag =>
    rcases bind_eq_error_iff.mp h with h | ⟨frame, -, h⟩
    · exact Frame.withAttributes_ne_unclosed _ _ _ h
    · rcases bind_eq_error_iff.mp h with h | ⟨f, -, h⟩
      · exact frame.close_ne_unclosed h
      · cases h
  | finish name =>
    rw [Progress.step] at h
    split at h
    · cases h
    · next frame _ _ =>
      rcases bind_eq_error_iff.mp h with h | ⟨f, -, h⟩
      · exact frame.close_ne_unclosed h
      · cases h
  | text raw =>
    rw [Progress.step] at h
    split at h
    · cases h
    · split at h
      · cases h
      · split at h <;> cases h
  | literalText text => cases h
  | skipped => cases h

theorem readEvents_ne_unclosed (es : List Xml.Event) (p : Progress) :
    es.foldlM Progress.step p ≠ .error (.unclosed element) := by
  intro h
  induction es generalizing p with
  | nil => cases h
  | cons e es ih =>
    rcases bind_eq_error_iff.mp h with h | ⟨q, -, h⟩
    · exact p.step_ne_unclosed e h
    · exact ih q h

end Unclosed

theorem length_of_readPiece {layout : Bool} {piece : Piece} {read : List Filter × String}
    (h : readPiece layout piece = .ok read) : read.1.length = if piece.isElement then 1 else 0 := by
  cases piece with
  | element tag content =>
    obtain ⟨frame, -, h⟩ := bind_eq_ok_iff.mp h
    obtain ⟨inside, -, h⟩ := bind_eq_ok_iff.mp h
    obtain ⟨f, -, h⟩ := bind_eq_ok_iff.mp h
    cases h
    rfl
  | empty tag =>
    obtain ⟨frame, -, h⟩ := bind_eq_ok_iff.mp h
    obtain ⟨f, -, h⟩ := bind_eq_ok_iff.mp h
    cases h
    rfl
  | text raw =>
    rw [readPiece] at h
    split at h
    · cases h
      rfl
    · split at h
      · cases h
        rfl
      · cases h
  | literalText text =>
    cases h
    rfl
  | skipped =>
    cases h
    rfl

theorem length_of_readEach {layout : Bool} {ps : List Piece} {read : List Filter × String}
    (h : readEach layout ps = .ok read) : read.1.length = ps.countP Piece.isElement := by
  induction ps generalizing read with
  | nil =>
    cases h
    rfl
  | cons piece ps ih =>
    obtain ⟨first, hfirst, h⟩ := bind_eq_ok_iff.mp h
    obtain ⟨rest, hrest, h⟩ := bind_eq_ok_iff.mp h
    cases h
    rw [List.length_append, length_of_readPiece hfirst, ih hrest, List.countP_cons, Nat.add_comm]

/-- Reads the events of a whole document. -/
def readWhole (es : List Xml.Event) : Except FilterXmlError Filter :=
  readEvents es >>= Progress.finish

variable {content : List Piece}

theorem readWhole_of_error {e : FilterXmlError} (h : readEach true content = .error e) :
    readEvents (eventsEach content) = .error e ∧ readWhole (eventsEach content) = .error e := by
  have stopped : readEvents (eventsEach content) = .error e := by
    have stack := foldlM_eventsEach content ⟨[], []⟩
    rw [show Progress.isLayout ⟨[], []⟩ = true from rfl, h] at stack
    exact stack
  refine ⟨stopped, ?_⟩
  rw [readWhole, stopped]
  rfl

theorem readWhole_of_ok {read : List Filter × String} (h : readEach true content = .ok read) :
    readWhole (eventsEach content) =
      match read.1 with
      | [f] => .ok f.markTop
      | _ => .error (.rootCount read.1.length) := by
  have ended : readEvents (eventsEach content) = .ok ⟨[], read.1⟩ := by
    have stack := foldlM_eventsEach content ⟨[], []⟩
    rw [show Progress.isLayout ⟨[], []⟩ = true from rfl, h] at stack
    exact stack
  rw [readWhole, ended]
  rcases read with ⟨_ | ⟨f, _ | ⟨g, fs⟩⟩, text⟩ <;> rfl

theorem readWhole_ne_unclosed (content : List Piece) (element : String) :
    readWhole (eventsEach content) ≠ .error (.unclosed element) := by
  cases h : readEach true content with
  | error e =>
    obtain ⟨stopped, whole⟩ := readWhole_of_error h
    rw [whole]
    rintro ⟨⟩
    exact readEvents_ne_unclosed _ _ stopped
  | ok read =>
    rw [readWhole_of_ok h]
    split <;> exact nofun

/-- A sequence of events is well nested exactly if it is that of pieces, and those of pieces are
read as by recursion: with the error of the first event that is rejected, or else, if there is one
root element, as its filter with a negation at the top marked. No element is left unclosed. -/
theorem readWhole_nested :
    (∀ es, WellNested [] es ↔ ∃ content, eventsEach content = es) ∧
    ∀ content : List Piece,
      (∀ e, (rejectionsEach true content).head? = some e →
        readWhole (eventsEach content) = .error e) ∧
      (rejectionsEach true content = [] →
        ∃ fs text, readEach true content = .ok (fs, text) ∧
          fs.length = content.countP Piece.isElement ∧
          readWhole (eventsEach content) =
            match fs with
            | [f] => .ok f.markTop
            | _ => .error (.rootCount fs.length)) ∧
      (∀ element, readWhole (eventsEach content) ≠ .error (.unclosed element)) ∧
      ∀ text, Text.isBlankText text = false →
        Xml.Document.ofText text = ⟨eventsEach content, true⟩ →
        Filter.ofXml text = readWhole (eventsEach content) := by
  refine ⟨fun es => Xml.wellNested_iff, fun content => ?_⟩
  have first := error?_readEach content true
  refine ⟨fun e rejected => ?_, fun accepted => ?_, readWhole_ne_unclosed content, ?_⟩
  · rw [rejected] at first
    cases h : readEach true content with
    | ok read =>
      rw [h] at first
      cases first
    | error e' =>
      rw [h] at first
      cases first
      exact (readWhole_of_error h).2
  · rw [accepted] at first
    cases h : readEach true content with
    | ok read => exact ⟨read.1, read.2, rfl, length_of_readEach h, readWhole_of_ok h⟩
    | error e =>
      rw [h] at first
      cases first
  · intro text notBlank document
    unfold Filter.ofXml
    rw [document, notBlank]
    rfl

end FilterXml

namespace FilterXml

/-- A negation is marked, and a bad entity is rejected before an element without content. -/
theorem readWhole_nested_sample :
    let negation : List Piece := [.element ⟨"not", ""⟩ [.text "\n", .empty ⟨"filter", ""⟩]]
    let bad : List Piece := [.element ⟨"cat", ""⟩ [.text "&"], .empty ⟨"and", ""⟩]
    rejectionsEach true negation = [] ∧
      Xml.Document.ofText "<not>\n<filter/></not>" = ⟨eventsEach negation, true⟩ ∧
      Filter.ofXml "<not>\n<filter/></not>" = .ok (.not .empty true) ∧
      rejectionsEach true bad = [.malformed, .childCount "and" "at least one" 0] ∧
      readWhole (eventsEach bad) = .error .malformed := by
  intro negation bad
  obtain ⟨-, reads⟩ := readWhole_nested
  have accepted : rejectionsEach true negation = [] := by decide +kernel
  have document : Xml.Document.ofText "<not>\n<filter/></not>" = ⟨eventsEach negation, true⟩ := by
    decide +kernel
  have rejected : rejectionsEach true bad = [.malformed, .childCount "and" "at least one" 0] := by
    decide +kernel
  refine ⟨accepted, document, ?_, rejected, (reads bad).1 .malformed (rejected ▸ rfl)⟩
  obtain ⟨-, whole, -, ofXml⟩ := reads negation
  obtain ⟨fs, text, read, -, same⟩ := whole accepted
  have inside : readEach true negation = .ok ([.not .empty false], "") := by decide +kernel
  cases read.symm.trans inside
  exact (ofXml _ (by decide) document).trans same

end FilterXml

end TestScheduler

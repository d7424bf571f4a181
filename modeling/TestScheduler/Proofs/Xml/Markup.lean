import TestScheduler.Proofs.Prelude
import TestScheduler.Proofs.Xml.Escaping
import TestScheduler.Xml.Event

/-! # Reading printed markup

How the tags, attributes and texts that a printer writes are read wherever they stand in a document.
-/

namespace TestScheduler.Xml

/-- A document with events before those of another one. -/
def Document.after (es : List Event) (d : Document) : Document := ⟨es ++ d.events, d.isComplete⟩

/-- Whether a text is the name of an element or an attribute that needs no escaping. -/
structure IsName (name : String) : Prop where
  nonempty : name.toList ≠ []
  letters : ∀ c ∈ name.toList, c.isAlpha = true

instance (name : String) : Decidable (IsName name) :=
  decidable_of_iff (name.toList ≠ [] ∧ name.toList.all (·.isAlpha) = true)
    ⟨fun h => ⟨h.1, List.all_eq_true.mp h.2⟩, fun h => ⟨h.1, List.all_eq_true.mpr h.2⟩⟩

/-- An attribute as it is printed. -/
def printedAttribute (name value : String) : List Char :=
  ' ' :: (name.toList ++ '=' :: '"' :: ((escape value).toList ++ ['"']))

/-- The attributes of an element as they are printed. -/
def printedAttributes (as : List (String × String)) : List Char :=
  as.flatMap fun a => printedAttribute a.1 a.2

/-! ## Letters -/

theorem isSpace_of_isAlpha {c : Char} (h : c.isAlpha = true) : isSpace c = false := by
  simp [isSpace, ne_of_isAlpha h]

namespace IsName

variable {name : String}

theorem exists_cons (h : IsName name) :
    ∃ c cs, name.toList = c :: cs ∧ c.isAlpha = true ∧ ∀ d ∈ cs, d.isAlpha = true := by
  obtain ⟨c, cs, hname⟩ := List.exists_cons_of_ne_nil h.nonempty
  have letters := h.letters
  rw [hname, List.forall_mem_cons] at letters
  exact ⟨c, cs, hname, letters.1, letters.2⟩

end IsName

/-! ## The inside of tags -/

/-- Whether a text in a tag leaves no quote open and does not end the tag. -/
def IsClosed (inside : List Char) : Prop :=
  ∀ rest, splitTag none (inside ++ rest) =
    (splitTag none rest).map fun (more, rest) => (inside ++ more, rest)

namespace IsClosed

variable {cs ds : List Char}

theorem splitTag (h : IsClosed cs) (rest : List Char) :
    splitTag none (cs ++ '>' :: rest) = some (cs, rest) := by
  rw [h, Xml.splitTag, if_pos rfl]
  simp

theorem nil : IsClosed [] := fun rest => by simp

theorem append (h : IsClosed cs) (h' : IsClosed ds) : IsClosed (cs ++ ds) := by
  intro rest
  rw [List.append_assoc, h, h', Option.map_map]
  simp [Function.comp_def]

theorem singleton {c : Char} (h : c ∉ ['>', '\'', '"']) : IsClosed [c] := by
  intro rest
  simp only [List.mem_cons, List.not_mem_nil, or_false, not_or] at h
  rw [List.singleton_append, Xml.splitTag]
  simp [h]

theorem plain (h : ∀ c ∈ cs, c ∉ ['>', '\'', '"']) : IsClosed cs := by
  induction cs with
  | nil => exact nil
  | cons c cs ih =>
    rw [List.forall_mem_cons] at h
    exact (singleton h.1).append (ih h.2)

theorem quoted (h : '"' ∉ cs) : IsClosed ('"' :: (cs ++ ['"'])) := by
  have inner (rest : List Char) : Xml.splitTag (some '"') (cs ++ '"' :: rest) =
      (Xml.splitTag none rest).map fun (more, rest) => (cs ++ '"' :: more, rest) := by
    induction cs with
    | nil => simp [Xml.splitTag]
    | cons c cs ih =>
      rw [List.mem_cons, not_or] at h
      rw [List.cons_append, Xml.splitTag]
      simp only [if_neg (Ne.symm h.1)]
      rw [ih h.2, Option.map_map]
      rfl
  intro rest
  rw [List.cons_append, List.append_assoc, List.singleton_append, Xml.splitTag]
  simp [inner, Function.comp_def]

theorem name {name : String} (h : IsName name) : IsClosed name.toList := by
  refine plain fun c hc => ?_
  simp [ne_of_isAlpha (h.letters c hc)]

theorem printedAttribute {name : String} (h : IsName name) (value : String) :
    IsClosed (printedAttribute name value) := by
  have value := quoted (not_mem_escape (by decide) (by decide) value)
  have equals := (singleton (c := '=') (by decide)).append value
  exact (singleton (c := ' ') (by decide)).append ((IsClosed.name h).append equals)

theorem printedAttributes {as : List (String × String)} (h : ∀ a ∈ as, IsName a.1) :
    IsClosed (printedAttributes as) := by
  induction as with
  | nil => exact nil
  | cons a as ih =>
    rw [List.forall_mem_cons] at h
    exact (printedAttribute h.1 a.2).append (ih h.2)

end IsClosed

/-! ## Tags -/

variable {name : String} {opened opened' : List String} {cs rest : List Char} {e : Event}

theorem eventsFrom_markup (h : markup? opened cs = some (e, opened', rest)) :
    eventsFrom opened ('<' :: cs) = (eventsFrom opened' rest).after [e] := by
  rw [eventsFrom]
  split
  · next h' => cases h.symm.trans h'
  · next h' =>
    cases h.symm.trans h'
    rfl

/-- The markup of a tag whose inside does not begin a declaration. -/
theorem markup?_tag {c : Char} {inside : List Char} (hc : c ≠ '!' ∧ c ≠ '?')
    (closed : IsClosed (c :: inside)) (h : tagEvent? opened (c :: inside) = some (e, opened')) :
    markup? opened (c :: (inside ++ '>' :: rest)) = some (e, opened', rest) := by
  unfold markup?
  rw [if_neg (by simp [hc]), ← List.cons_append, closed.splitTag]
  simp [h]

theorem tagOf_printed (hname : IsName name) (as : List (String × String)) :
    tagOf (name.toList ++ printedAttributes as) =
      ⟨name, String.ofList (printedAttributes as)⟩ := by
  have letters : ∀ c ∈ name.toList, (!isSpace c) = true := fun c hc => by
    rw [isSpace_of_isAlpha (hname.letters c hc), Bool.not_false]
  unfold tagOf
  rw [List.takeWhile_append_of_pos letters, List.dropWhile_append_of_pos letters]
  cases as with
  | nil => simp [printedAttributes]
  | cons a as => simp [printedAttributes, printedAttribute, isSpace]

theorem getLast?_printed (hname : IsName name) (as : List (String × String)) :
    (name.toList ++ printedAttributes as).getLast? ≠ some '/' := by
  suffices last : ∀ c ∈ (name.toList ++ printedAttributes as).getLast?, c ≠ '/' from
    fun h => last _ h rfl
  refine forall_mem_getLast?_append ?_ ?_
  · intro c hc
    exact ne_of_isAlpha (hname.letters c (List.mem_of_getLast? hc)) (by decide)
  · induction as with
    | nil => simp [printedAttributes]
    | cons a as ih =>
      refine forall_mem_getLast?_append ?_ ih
      dsimp only
      have hattribute : printedAttribute a.1 a.2 =
          ' ' :: (a.1.toList ++ '=' :: '"' :: (escape a.2).toList) ++ ['"'] := by
        simp [printedAttribute]
      rw [hattribute, List.getLast?_concat]
      simp

theorem tagEvent?_of_isAlpha {c : Char} (hc : c.isAlpha = true) :
    tagEvent? opened (c :: cs) =
      if (c :: cs).getLast? = some '/' then some (.empty (tagOf (c :: cs).dropLast), opened)
      else some (.start (tagOf (c :: cs)), (tagOf (c :: cs)).name :: opened) := by
  unfold tagEvent?
  split
  · next hslash =>
    cases hslash
    cases hc
  · rfl

theorem eventsFrom_start (hname : IsName name) {as : List (String × String)}
    (has : ∀ a ∈ as, IsName a.1) :
    eventsFrom opened ('<' :: (name.toList ++ (printedAttributes as ++ '>' :: rest))) =
      (eventsFrom (name :: opened) rest).after
        [.start ⟨name, String.ofList (printedAttributes as)⟩] := by
  have closed := (IsClosed.name hname).append (IsClosed.printedAttributes has)
  have hlast := getLast?_printed hname as
  have htag := tagOf_printed hname as
  rw [← List.append_assoc]
  obtain ⟨c, cs, hcs, hc, -⟩ := hname.exists_cons
  rw [hcs, List.cons_append] at closed hlast htag ⊢
  refine eventsFrom_markup (markup?_tag ⟨?_, ?_⟩ closed ?_)
  · exact ne_of_isAlpha hc (by decide)
  · exact ne_of_isAlpha hc (by decide)
  · rw [tagEvent?_of_isAlpha hc, if_neg hlast, htag]

theorem eventsFrom_empty (hname : IsName name) :
    eventsFrom opened ('<' :: (name.toList ++ '/' :: '>' :: rest)) =
      (eventsFrom opened rest).after [.empty ⟨name, ""⟩] := by
  have closed := (IsClosed.name hname).append (IsClosed.singleton (c := '/') (by decide))
  have htag := tagOf_printed hname []
  rw [List.append_cons name.toList '/']
  obtain ⟨c, cs, hcs, hc, -⟩ := hname.exists_cons
  rw [hcs] at htag closed ⊢
  rw [List.cons_append] at closed ⊢
  refine eventsFrom_markup (markup?_tag ⟨?_, ?_⟩ closed ?_)
  · exact ne_of_isAlpha hc (by decide)
  · exact ne_of_isAlpha hc (by decide)
  · rw [tagEvent?_of_isAlpha hc, ← List.cons_append, List.getLast?_concat, if_pos rfl,
      List.dropLast_concat]
    simpa [printedAttributes] using htag

theorem eventsFrom_finish (hname : IsName name) :
    eventsFrom (name :: opened) ('<' :: '/' :: (name.toList ++ '>' :: rest)) =
      (eventsFrom opened rest).after [.finish name] := by
  have hspace : dropSpaceAtEnd name.toList = name.toList := by
    have letters : ∀ c ∈ name.toList, isSpace c = false := fun c hc =>
      isSpace_of_isAlpha (hname.letters c hc)
    have hdrop : name.toList.reverse.dropWhile isSpace = name.toList.reverse := by
      cases hreverse : name.toList.reverse with
      | nil => rfl
      | cons c cs =>
        have hc := letters c (List.mem_reverse.mp (hreverse ▸ List.mem_cons_self))
        rw [List.dropWhile_cons_of_neg (Bool.eq_false_iff.mp hc)]
    unfold dropSpaceAtEnd
    rw [hdrop, List.reverse_reverse, ite_self]
  refine eventsFrom_markup (markup?_tag ⟨by decide, by decide⟩ ?_ ?_)
  · exact (IsClosed.singleton (by decide)).append (IsClosed.name hname)
  · simp [tagEvent?, hspace]

/-- What is read of a text between tags. -/
def textEvents (cs : List Char) : List Event :=
  if cs.isEmpty then [] else [.text (String.ofList cs)]

theorem eventsFrom_text (h : '<' ∉ cs) :
    eventsFrom opened (cs ++ '<' :: rest) =
      (eventsFrom opened ('<' :: rest)).after (textEvents cs) := by
  cases cs with
  | nil => rfl
  | cons c cs =>
    rw [List.mem_cons, not_or] at h
    have htext : ∀ c ∈ cs, decide (c ≠ '<') = true := fun d hd =>
      decide_eq_true (ne_of_mem_of_not_mem hd h.2)
    rw [List.cons_append, eventsFrom.eq_3 _ c _ (fun hc => h.1 hc.symm)]
    rw [List.takeWhile_append_of_pos htext, List.dropWhile_append_of_pos htext]
    simp [textEvents, Document.after]

/-! ## Attributes -/

theorem nextAttribute_printed (hname : IsName name) (value : String) :
    nextAttribute (printedAttribute name value ++ rest) =
      some (some (name, escape value, rest)) := by
  have hvalue : ∀ c ∈ (escape value).toList, decide (c ≠ '"') = true := fun c hc =>
    decide_eq_true (ne_of_mem_of_not_mem hc (not_mem_escape (by decide) (by decide) value))
  obtain ⟨c, cs, hcs, hc, hletters⟩ := hname.exists_cons
  have hnameEnd : ∀ c ∈ cs, (!(decide (c = '=') || isSpace c)) = true := fun d hd => by
    simp [ne_of_isAlpha (hletters d hd), isSpace_of_isAlpha (hletters d hd)]
  have hspace : isSpace ' ' = true ∧ isSpace '=' = false ∧ isSpace '"' = false := by decide
  unfold nextAttribute printedAttribute
  simp only [hcs, List.cons_append, List.append_assoc, List.nil_append, List.dropWhile_cons, hspace,
    isSpace_of_isAlpha hc, if_true, Bool.false_eq_true, if_false]
  simp only [List.takeWhile_append_of_pos hnameEnd, List.dropWhile_append_of_pos hnameEnd,
    List.takeWhile_cons, List.dropWhile_cons, hspace, decide_true, Bool.true_or, Bool.not_true,
    Bool.false_eq_true, if_false, List.takeWhile_append_of_pos hvalue,
    List.dropWhile_append_of_pos hvalue]
  simp [← hcs]

end TestScheduler.Xml

import TestScheduler.Filter.Xml.Printer
import TestScheduler.Filter.Xml.Reader
import TestScheduler.Pattern.Common
import TestScheduler.Proofs.Filter.XmlReading
import TestScheduler.Proofs.Query.Recompiling
import TestScheduler.Proofs.Xml.Markup

/-! # Reading printed filters

Wherever the XML of a filter stands in a document, the reader attaches the filter to the element
that is open there. Blanks around the elements of a combinator do not matter.
-/

namespace TestScheduler

open Xml

variable {Expression : Type} [Pattern.Dialect Expression]

namespace FilterXml

/-! ## Frames -/

/-- The frame of an element without attributes that has just been opened. -/
def Frame.blank (element : String) : Frame := ⟨element, none, false, [], ""⟩

/-- Takes attributes one after another. -/
def Frame.setAttributes (frame : Frame) (as : List (String × String)) : Frame :=
  as.foldl (fun frame a => frame.setAttribute a.1 a.2) frame

theorem Frame.withAttributes_printed {as : List (String × String)} {seen : List String}
    (names : ∀ a ∈ as, IsName a.1) (distinct : (as.map Prod.fst).Nodup)
    (fresh : ∀ a ∈ as, a.1 ∉ seen) (frame : Frame) :
    frame.withAttributes seen (printedAttributes as) = .ok (frame.setAttributes as) := by
  induction as generalizing seen frame with
  | nil =>
    rw [withAttributes]
    rfl
  | cons a as ih =>
    rw [List.forall_mem_cons] at names fresh
    rw [List.map_cons, List.nodup_cons] at distinct
    have hnext : nextAttribute (printedAttributes (a :: as)) =
        some (some (a.1, escape a.2, printedAttributes as)) := nextAttribute_printed names.1 a.2
    have later : ∀ b ∈ as, b.1 ∉ a.1 :: seen := fun b hb => by
      rw [List.mem_cons, not_or]
      exact ⟨fun h => distinct.1 (h ▸ List.mem_map_of_mem hb), fresh.2 b hb⟩
    rw [withAttributes]
    split
    · next h => cases hnext.symm.trans h
    · next h => cases hnext.symm.trans h
    · next h =>
      cases hnext.symm.trans h
      rw [if_neg (by simpa using fresh.1), unescape?_escape]
      exact ih names.2 distinct.2 later _

theorem Frame.open?_printed (name : String) (as : List (String × String))
    (names : ∀ a ∈ as, IsName a.1) (distinct : (as.map Prod.fst).Nodup) :
    Frame.open? ⟨name, String.ofList (printedAttributes as)⟩ =
      .ok ((Frame.blank name).setAttributes as) := by
  unfold Frame.open?
  rw [String.toList_ofList]
  exact Frame.withAttributes_printed names distinct (by simp) _

/-! ## Reading on -/

namespace Progress

variable {p q : Progress} {d : Document} {frame : Frame} {name : String} {f : Filter}
  {opened : List String} {rest : List Char}

/-- Reads the rest of a document to its end. -/
def readOn (p : Progress) (d : Document) : Except FilterXmlError Filter := do
  let q ← d.events.foldlM step p
  if d.isComplete then q.finish else .error .malformed

/-- Opens an element. -/
def push (p : Progress) (frame : Frame) : Progress := { p with opened := frame :: p.opened }

/-- Adds finished elements one after another. -/
def attachEach (p : Progress) (fs : List Filter) : Progress := fs.foldl attach p

theorem attachEach_push (fs : List Filter) :
    (p.push frame).attachEach fs = p.push { frame with children := frame.children ++ fs } := by
  induction fs generalizing frame with
  | nil => simp [attachEach]
  | cons f fs ih =>
    have hstep : (p.push frame).attachEach (f :: fs) =
        (p.push { frame with children := frame.children ++ [f] }).attachEach fs := rfl
    rw [hstep, ih]
    simp

theorem readOn_after {e : Xml.Event} (h : p.step e = .ok q) :
    p.readOn (d.after [e]) = q.readOn d := by
  unfold readOn Document.after
  rw [List.singleton_append, List.foldlM_cons, h]
  rfl

theorem readOn_start {as : List (String × String)} (hname : IsName name)
    (names : ∀ a ∈ as, IsName a.1) (distinct : (as.map Prod.fst).Nodup) :
    p.readOn (eventsFrom opened ('<' :: (name.toList ++ (printedAttributes as ++ '>' :: rest)))) =
      (p.push ((Frame.blank name).setAttributes as)).readOn (eventsFrom (name :: opened) rest) := by
  rw [eventsFrom_start hname names]
  refine readOn_after ?_
  rw [step, Frame.open?_printed name as names distinct]
  rfl

theorem readOn_finish (hname : IsName name) (hclose : frame.close = .ok f) :
    (p.push frame).readOn
        (eventsFrom (name :: opened) ('<' :: '/' :: (name.toList ++ '>' :: rest))) =
      (p.attach f).readOn (eventsFrom opened rest) := by
  rw [eventsFrom_finish hname]
  refine readOn_after ?_
  simp only [step, push, hclose]
  rfl

/-- Whether text is layout where a document is read: in a combinator or outside all elements. -/
def AtLayout (p : Progress) : Prop := ∀ frame ∈ p.opened.head?, frame.isGroup = true

theorem AtLayout.attach (h : p.AtLayout) (f : Filter) : (p.attach f).AtLayout := by
  unfold AtLayout Progress.attach at *
  split
  · exact h
  · next frame opened hopened =>
    rw [hopened] at h
    simpa [Frame.isGroup] using h

theorem AtLayout.step_text (h : p.AtLayout) (raw : String) : p.step (.text raw) = .ok p := by
  unfold AtLayout at h
  unfold step
  cases hopened : p.opened with
  | nil => rfl
  | cons frame opened =>
    rw [hopened] at h
    exact if_pos (h frame rfl)

theorem AtLayout.readOn_dropWhile (h : p.AtLayout) (cs : List Char) :
    p.readOn (eventsFrom opened (cs.dropWhile (· ≠ '<'))) = p.readOn (eventsFrom opened cs) := by
  cases cs with
  | nil => rfl
  | cons c cs =>
    by_cases tag : c = '<'
    · simp [tag]
    · rw [eventsFrom.eq_3 _ c cs fun hc => tag hc]
      rw [List.dropWhile_cons_of_pos (by simpa using tag)]
      exact (readOn_after (h.step_text _)).symm

theorem AtLayout.readOn_blank (h : p.AtLayout) {gap : String}
    (blank : Text.isBlankText gap = true) :
    p.readOn (eventsFrom opened (gap.toList ++ rest)) = p.readOn (eventsFrom opened rest) := by
  have tagless : ∀ c ∈ gap.toList, decide (c ≠ '<') = true := by
    intro c hc
    refine decide_eq_true ?_
    rintro rfl
    exact absurd (List.all_eq_true.mp blank _ hc) (by decide)
  rw [← h.readOn_dropWhile, List.dropWhile_append_of_pos tagless, h.readOn_dropWhile]

theorem readOn_text (hgroup : frame.isGroup = false) (value : String) :
    (p.push frame).readOn (eventsFrom opened ((escape value).toList ++ '<' :: rest)) =
      (p.push { frame with text := frame.text ++ value }).readOn
        (eventsFrom opened ('<' :: rest)) := by
  rw [eventsFrom_text (not_mem_escape (by decide) (by decide) value)]
  unfold textEvents
  split
  · next hempty =>
    have hescape : escape value = "" := String.toList_eq_nil_iff.mp (List.isEmpty_iff.mp hempty)
    have hvalue : unescape? "" = some value := hescape ▸ unescape?_escape value
    cases hvalue
    simp [Document.after]
  · refine readOn_after ?_
    simp [step, push, hgroup, appendText]

end Progress

end FilterXml

namespace Filter

open FilterXml

/-! ## Layout -/

mutual

/-- Whether a text is the XML of a filter, but for blanks around the elements in combinators. -/
def LaidOut : Filter → String → Prop
  | empty, xml => xml = toXml empty
  | predicate field m, xml => xml = toXml (predicate field m)
  | and terms, xml => ∃ inner, LaidOutEach terms inner ∧ xml = "<and>" ++ inner ++ "</and>"
  | or terms, xml => ∃ inner, LaidOutEach terms inner ∧ xml = "<or>" ++ inner ++ "</or>"
  | not term _, xml => ∃ before inner after, Text.isBlankText before = true ∧ LaidOut term inner ∧
      Text.isBlankText after = true ∧ xml = "<not>" ++ (before ++ inner ++ after) ++ "</not>"

/-- The elements of several filters one after another, with blanks before and after each. -/
def LaidOutEach : List Filter → String → Prop
  | [], xml => Text.isBlankText xml = true
  | f :: fs, xml => ∃ before first rest, Text.isBlankText before = true ∧ LaidOut f first ∧
      LaidOutEach fs rest ∧ xml = before ++ first ++ rest

end

theorem laidOutEach_toXmlEach {fs : List Filter} (h : ∀ f ∈ fs, f.LaidOut f.toXml) :
    LaidOutEach fs (toXmlEach fs) := by
  induction fs with
  | nil => exact rfl
  | cons f fs ih =>
    rw [List.forall_mem_cons] at h
    exact ⟨"", f.toXml, toXmlEach fs, rfl, h.1, ih h.2, by rw [toXmlEach, String.empty_append]⟩

theorem laidOut_toXml (f : Filter) : f.LaidOut f.toXml := by
  induction f with
  | empty => rfl
  | predicate field m => rfl
  | and fs ih => exact ⟨toXmlEach fs, laidOutEach_toXmlEach ih, rfl⟩
  | or fs ih => exact ⟨toXmlEach fs, laidOutEach_toXmlEach ih, rfl⟩
  | not f atTop ih => exact ⟨"", f.toXml, "", rfl, ih, rfl, by simp [toXml]⟩

theorem laidOutEach_singleton {f : Filter} {before xml after : String}
    (hbefore : Text.isBlankText before = true) (h : f.LaidOut xml)
    (hafter : Text.isBlankText after = true) : LaidOutEach [f] (before ++ xml ++ after) :=
  ⟨before, xml, after, hbefore, h, hafter, rfl⟩

/-! ## Elements -/

/-- Whether a text is read as a filter without its marks, wherever it stands. -/
def ReadsFrom (f : Filter) (xml : String) : Prop :=
  ∀ (p : FilterXml.Progress) (opened : List String) (rest : List Char),
    p.readOn (eventsFrom opened (xml.toList ++ rest)) =
      (p.attach f.unmarked).readOn (eventsFrom opened rest)

theorem readOn_laidOutEach {fs : List Filter} {xml : String}
    (h : ∀ f ∈ fs, ∀ xml, f.LaidOut xml → f.ReadsFrom xml) (laidOut : LaidOutEach fs xml)
    {p : FilterXml.Progress} (layout : p.AtLayout) (opened : List String) (rest : List Char) :
    p.readOn (eventsFrom opened (xml.toList ++ rest)) =
      (p.attachEach (fs.map unmarked)).readOn (eventsFrom opened rest) := by
  induction fs generalizing p xml with
  | nil => exact layout.readOn_blank laidOut
  | cons f fs ih =>
    obtain ⟨before, first, others, blank, hfirst, hothers, rfl⟩ := laidOut
    obtain ⟨reads, readsEach⟩ := List.forall_mem_cons.mp h
    rw [String.toList_append, String.toList_append, List.append_assoc, List.append_assoc,
      layout.readOn_blank blank, reads first hfirst, ih readsEach hothers (layout.attach _)]
    rfl

theorem readsFrom_group (name : String) {inner xml : String} {f : Filter} {fs : List Filter}
    (hname : IsName name) (group : (Frame.blank name).isGroup = true)
    (hclose : Frame.close { Frame.blank name with children := fs.map unmarked } = .ok f.unmarked)
    (h : ∀ g ∈ fs, ∀ xml, g.LaidOut xml → g.ReadsFrom xml) (laidOut : LaidOutEach fs inner)
    (hxml : xml.toList =
      '<' :: (name.toList ++ '>' :: (inner.toList ++ '<' :: '/' :: (name.toList ++ ['>'])))) :
    f.ReadsFrom xml := by
  intro p opened rest
  have htext : xml.toList ++ rest = '<' :: (name.toList ++ (printedAttributes [] ++ '>' ::
      (inner.toList ++ '<' :: '/' :: (name.toList ++ '>' :: rest)))) := by
    simp [hxml, printedAttributes]
  have layout : (p.push (Frame.blank name)).AtLayout := by
    simpa [Progress.AtLayout, Progress.push] using group
  have plain : (Frame.blank name).setAttributes [] = Frame.blank name := rfl
  rw [htext, Progress.readOn_start hname (by simp) (by simp), plain,
    readOn_laidOutEach h laidOut layout, Progress.attachEach_push]
  exact Progress.readOn_finish hname hclose

theorem readsFrom_empty : Filter.empty.ReadsFrom Filter.empty.toXml := by
  intro p opened rest
  have htext : Filter.empty.toXml.toList ++ rest =
      '<' :: ("filter".toList ++ '/' :: '>' :: rest) := by
    rw [Filter.toXml]
    rfl
  have hopen : Frame.open? ⟨"filter", ""⟩ = .ok (Frame.blank "filter") :=
    Frame.open?_printed _ [] (by simp) List.nodup_nil
  rw [htext, eventsFrom_empty (by decide)]
  refine Progress.readOn_after ?_
  rw [Progress.step, hopen]
  rfl

/-- The attributes of the element of a predicate. -/
def xmlAttributes (field : Field) (m : Matcher) : List (String × String) :=
  (match field with
    | .property key => [("name", key)]
    | _ => []) ++ if m.isPattern then [("re", "1")] else []

theorem keys_xmlAttributes (field : Field) (m : Matcher) :
    (xmlAttributes field m).map Prod.fst ∈ [[], ["name"], ["re"], ["name", "re"]] := by
  unfold xmlAttributes
  cases field <;> cases m.isPattern <;> simp

theorem toList_predicateXml (field : Field) (m : Matcher) :
    (predicateXml field m).toList = '<' :: (field.element.toList ++
      (printedAttributes (xmlAttributes field m) ++ '>' :: ((escape m.value).toList ++
        '<' :: '/' :: (field.element.toList ++ ['>'])))) := by
  have hone : (escape "1").toList = ['1'] := rfl
  unfold predicateXml xmlAttributes printedAttributes
  cases field <;> cases m.isPattern <;> simp [printedAttribute, hone]

theorem isName_element (field : Field) : IsName field.element := by
  cases field with
  | property key => exact (by decide : IsName "prop")
  | _ => decide

theorem setAttributes_xmlAttributes (field : Field) (m : Matcher) :
    (Frame.blank field.element).setAttributes (xmlAttributes field m) =
      ⟨field.element, (match field with | .property key => some key | _ => none), m.isPattern, [],
        ""⟩ := by
  unfold xmlAttributes
  cases field <;> cases m.isPattern <;>
    simp [Frame.setAttributes, Frame.setAttribute, Frame.blank]

theorem close_predicate (field : Field) (m : Matcher) :
    Frame.close ⟨field.element, (match field with | .property key => some key | _ => none),
      m.isPattern, [], m.value⟩ = .ok (.predicate field m) := by
  have hmatcher (element : String) (key : Option String) :
      Frame.matcher ⟨element, key, m.isPattern, [], m.value⟩ = .ok m := by
    simp [Frame.matcher]
  cases field
  all_goals
    unfold Frame.close
    simp [Field.element, Field.word, hmatcher, Frame.closePredicate, Field.builtIn, bind,
      Except.bind]

theorem readsFrom_predicate (field : Field) (m : Matcher) :
    (predicate field m).ReadsFrom (predicate field m).toXml := by
  intro p opened rest
  have hkeys := keys_xmlAttributes field m
  have names : ∀ a ∈ xmlAttributes field m, IsName a.1 := by
    have hnames : ∀ keys ∈ [[], ["name"], ["re"], ["name", "re"]], ∀ key ∈ keys, IsName key := by
      decide
    exact fun a ha => hnames _ hkeys _ (List.mem_map_of_mem ha)
  have distinct : ((xmlAttributes field m).map Prod.fst).Nodup := by
    have hnodup : ∀ keys ∈ [[], ["name"], ["re"], ["name", "re"]], keys.Nodup := by decide
    exact hnodup _ hkeys
  have htext : (predicate field m).toXml.toList ++ rest = '<' :: (field.element.toList ++
      (printedAttributes (xmlAttributes field m) ++ '>' :: ((escape m.value).toList ++
        '<' :: '/' :: (field.element.toList ++ '>' :: rest)))) := by
    simp [toXml, toList_predicateXml]
  rw [htext, Progress.readOn_start (isName_element field) names distinct,
    setAttributes_xmlAttributes, Progress.readOn_text]
  · refine Progress.readOn_finish (isName_element field) ?_
    rw [String.empty_append]
    exact close_predicate field m
  · cases field with
    | property key => rfl
    | _ => rfl

theorem Solid.readsFrom {f : Filter} (h : f.Solid) {xml : String} (laidOut : f.LaidOut xml) :
    f.ReadsFrom xml := by
  induction h generalizing xml with
  | empty =>
    cases laidOut
    exact readsFrom_empty
  | predicate =>
    cases laidOut
    exact readsFrom_predicate _ _
  | @and fs nonempty _ ih =>
    obtain ⟨inner, laidOut, rfl⟩ := laidOut
    refine readsFrom_group "and" (by decide) rfl ?_ (fun g hg _ h => ih g hg h) laidOut
      (by simp)
    simp [Frame.close, Frame.blank, nonempty, unmarked]
  | @or fs nonempty _ ih =>
    obtain ⟨inner, laidOut, rfl⟩ := laidOut
    refine readsFrom_group "or" (by decide) rfl ?_ (fun g hg _ h => ih g hg h) laidOut
      (by simp)
    simp [Frame.close, Frame.blank, nonempty, unmarked]
  | @not f _ _ ih =>
    obtain ⟨before, inner, after, hbefore, laidOut, hafter, rfl⟩ := laidOut
    have each : LaidOutEach [f] (before ++ inner ++ after) :=
      laidOutEach_singleton hbefore laidOut hafter
    refine readsFrom_group "not" (by decide) rfl ?_ (by simpa using fun _ => ih) each (by simp)
    simp [Frame.close, Frame.blank, unmarked]

/-! ## Documents -/

theorem head?_of_laidOut {f : Filter} {xml : String} (h : f.LaidOut xml) :
    xml.toList.head? = some '<' := by
  cases f with
  | empty =>
    cases h
    rw [toXml]
    rfl
  | predicate field m =>
    cases h
    rw [toXml, toList_predicateXml, List.head?_cons]
  | and fs | or fs =>
    obtain ⟨inner, -, rfl⟩ := h
    simp
  | not f atTop =>
    obtain ⟨before, inner, after, -, -, -, rfl⟩ := h
    simp

theorem ofXml_eq_readOn {before : String} {cs : List Char} {text : String}
    (blank : Text.isBlankText before = true) (htext : text.toList = before.toList ++ '<' :: cs) :
    ofXml text = Progress.readOn ⟨[], []⟩ (eventsFrom [] text.toList) := by
  have notBlank : Text.isBlankText text = false := by
    rw [Text.isBlankText, htext, List.all_append, List.all_cons]
    simp [show Text.isBlank '<' = false by decide]
  have noMark : ∀ cs, text.toList ≠ '\ufeff' :: cs := by
    intro cs mark
    rw [htext] at mark
    cases hbefore : before.toList with
    | nil => simp [hbefore] at mark
    | cons c _ =>
      rw [hbefore] at mark
      obtain rfl : c = '\ufeff' := (List.cons.inj mark).1
      rw [Text.isBlankText, hbefore] at blank
      exact absurd (List.all_eq_true.mp blank _ List.mem_cons_self) (by decide)
  have document : Document.ofText text = eventsFrom [] text.toList := by
    unfold Document.ofText
    split
    · next mark => exact absurd mark (noMark _)
    · rfl
  rw [ofXml, notBlank, document]
  rfl

/-- A document of one element with blanks around it is read as the filter of the element. -/
theorem ReadsFrom.ofXml_eq {f : Filter} {before xml after : String} (h : f.ReadsFrom xml)
    (hhead : xml.toList.head? = some '<') (hbefore : Text.isBlankText before = true)
    (hafter : Text.isBlankText after = true) :
    ofXml (before ++ xml ++ after) = .ok f.unmarked.markTop := by
  have outside : Progress.AtLayout ⟨[], []⟩ := nofun
  obtain ⟨cs, hcs⟩ := List.head?_eq_some_iff.mp hhead
  have htext : (before ++ xml ++ after).toList = before.toList ++ '<' :: (cs ++ after.toList) := by
    simp [hcs]
  rw [ofXml_eq_readOn hbefore htext, String.toList_append, String.toList_append, List.append_assoc,
    outside.readOn_blank hbefore, h, ← List.append_nil after.toList,
    (outside.attach _).readOn_blank hafter, eventsFrom]
  rfl

theorem ReadsFrom.ofXml_alone {f : Filter} {xml : String} (h : f.ReadsFrom xml)
    (hhead : xml.toList.head? = some '<') : ofXml xml = .ok f.unmarked.markTop := by
  have read : ofXml ("" ++ xml ++ "") = .ok f.unmarked.markTop := h.ofXml_eq hhead rfl rfl
  rwa [String.empty_append, String.append_empty] at read

/-- A solid filter is read back from its XML without its marks, except at its top. -/
theorem Solid.ofXml_eq {f : Filter} (h : f.Solid) : ofXml f.toXml = .ok f.unmarked.markTop :=
  (h.readsFrom f.laidOut_toXml).ofXml_alone (head?_of_laidOut f.laidOut_toXml)

theorem Canonical.ofXml_eq {f : Filter} (h : f.Canonical) :
    ofXml f.markTop.toXml = .ok f.markTop := by
  rw [h.solid.markTop.ofXml_eq, unmarked_markTop, h.unmarked]

theorem Queried.canonical {f : Filter} (h : f.Queried) : f.Canonical := by
  induction h with
  | predicate => exact .predicate
  | and _ ih => exact .and (by simp) ih
  | or _ ih => exact .or (by simp) ih
  | not _ ih => exact .not ih

/-- Every filter without empty groups is read back from its XML with no mark but one at its top, and
so a filter that was compiled or read is restored. -/
theorem ofXml_toXml :
    (∀ f : Filter, f.Solid → ofXml f.toXml = .ok f.unmarked.markTop) ∧
    (∀ text f, Query.compile text = .ok f → ofXml f.toXml = .ok f) ∧
    (∀ text f, ofXml text = .ok f → ofXml f.toXml = .ok f) := by
  refine ⟨fun f h => h.ofXml_eq, fun text f h => ?_, fun text f h => ?_⟩
  · rcases Query.queried_of_compile h with rfl | ⟨g, queried, rfl⟩
    · exact Canonical.empty.ofXml_eq
    · exact queried.canonical.ofXml_eq
  · obtain ⟨g, canonical, rfl⟩ := canonical_of_ofXml h
    exact canonical.ofXml_eq

end Filter

end TestScheduler

namespace TestScheduler.Filter

theorem ofXml_toXml_sample :
    ofXml (Filter.not (.or [.not (.predicate (.property "a\"b") (.literal " <x>\n")) true, .empty])
      false).toXml =
        .ok (.not (.or [.not (.predicate (.property "a\"b") (.literal " <x>\n")) false, .empty])
          true) ∧
    Query.compile "cat == 'a'" = .ok (.predicate .category (.literal "a")) ∧
    ofXml (Filter.predicate .category (.literal "a")).toXml =
      .ok (.predicate .category (.literal "a")) := by
  obtain ⟨solid, compiled, read⟩ := ofXml_toXml
  have word : Query.IsWord "cat" := by
    have free : "cat".toList.all (!Query.isDelimiter ·) = true := by decide
    exact ⟨by decide, by simpa using free⟩
  have queried : (Filter.predicate .category (.literal "a")).Queried := .predicate word
  have hcompile : Query.compile "cat == 'a'" = .ok (.predicate .category (.literal "a")) :=
    (Query.compile_toQuery_iff queried).mpr ⟨rfl, .predicate⟩
  refine ⟨?_, hcompile, read _ _ (compiled _ _ hcompile)⟩
  refine solid _ (.not (.or (by simp) ?_))
  simp only [List.forall_mem_cons]
  exact ⟨.not .predicate, .empty, List.forall_mem_nil _⟩

end TestScheduler.Filter

import TestScheduler.Pattern.Common
import TestScheduler.Proofs.Filter.XmlRoundTrip

/-! # The layout of filter documents

Blanks around the root of a document and around the elements of its combinators say nothing about
the filter, and neither does a `filter` element around a single one. The text of a predicate is no
layout, even where it is blank.
-/

namespace TestScheduler

namespace Filter

variable {Expression : Type} [Pattern.Dialect Expression]

open FilterXml

/-- A `filter` element around other elements. -/
def wrapped (content : String) : String := "<filter>" ++ content ++ "</filter>"

/-- Whether a document is the XML of a filter but for its layout: there may be blanks around the
root and around the elements of combinators, and a `filter` element around the whole. -/
def IsDocument (f : Filter) (text : String) : Prop :=
  ∃ before xml after, Text.isBlankText before = true ∧ Text.isBlankText after = true ∧
    text = before ++ xml ++ after ∧
    (f.LaidOut xml ∨ ∃ content, LaidOutEach [f] content ∧ xml = wrapped content)

theorem isDocument_toXml (f : Filter) : f.IsDocument f.toXml :=
  ⟨"", f.toXml, "", rfl, rfl, by simp, .inl f.laidOut_toXml⟩

theorem toXmlEach_eq_join (fs : List Filter) : toXmlEach fs = String.join (fs.map toXml) := by
  induction fs with
  | nil => rfl
  | cons f fs ih => rw [toXmlEach, ih, List.map_cons, String.join_cons]

theorem laidOutEach_join (fs : List Filter) : LaidOutEach fs (String.join (fs.map toXml)) :=
  toXmlEach_eq_join fs ▸ laidOutEach_toXmlEach fun f _ => f.laidOut_toXml

theorem head?_wrapped (content : String) : (wrapped content).toList.head? = some '<' := by
  simp [wrapped]

theorem readsFrom_wrapped {f : Filter} {fs : List Filter} {content : String}
    (solid : ∀ g ∈ fs, g.Solid) (laidOut : LaidOutEach fs content)
    (hclose : Frame.close { Frame.blank "filter" with children := fs.map unmarked } =
      .ok f.unmarked) :
    f.ReadsFrom (wrapped content) :=
  readsFrom_group "filter" (by decide) rfl hclose
    (fun g hg _ h => (solid g hg).readsFrom h) laidOut (by simp [wrapped])

theorem Solid.ofXml_document {f : Filter} (solid : f.Solid) {text : String}
    (document : f.IsDocument text) : ofXml text = .ok f.unmarked.markTop := by
  obtain ⟨before, xml, after, hbefore, hafter, rfl, laidOut | ⟨content, laidOut, rfl⟩⟩ := document
  · exact (solid.readsFrom laidOut).ofXml_eq (head?_of_laidOut laidOut) hbefore hafter
  · have read : f.ReadsFrom (wrapped content) :=
      readsFrom_wrapped (by simpa using solid) laidOut rfl
    exact read.ofXml_eq (head?_wrapped content) hbefore hafter

theorem ofXml_wrapped {fs : List Filter} (several : 2 ≤ fs.length) (solid : ∀ f ∈ fs, f.Solid)
    {content : String} (laidOut : LaidOutEach fs content) :
    ofXml (wrapped content) = .ok (.and (fs.map unmarked)) := by
  have read : (Filter.and fs).ReadsFrom (wrapped content) := by
    refine readsFrom_wrapped solid laidOut ?_
    match fs, several with
    | f :: g :: fs, _ => simp [Frame.close, Frame.blank, unmarked]
  rw [read.ofXml_alone (head?_wrapped content), unmarked, unmarkedEach_eq_map]
  rfl

/-- A document is read as the filter whose XML it lays out, with the values of its predicates as
they are, and several filters in one `filter` element as their conjunction, without marks. -/
theorem ofXml_laidOut :
    (∀ f : Filter, f.Solid → ofXml f.toXml = .ok f.unmarked.markTop ∧
      ∀ text, f.IsDocument text → ofXml text = ofXml f.toXml) ∧
    (∀ fs : List Filter, 2 ≤ fs.length → (∀ f ∈ fs, f.Solid) →
      ofXml (wrapped (String.join (fs.map toXml))) = .ok (.and (fs.map unmarked)) ∧
      ∀ content, LaidOutEach fs content →
        ofXml (wrapped content) = .ok (.and (fs.map unmarked))) := by
  constructor
  · intro f solid
    have printed := solid.ofXml_document f.isDocument_toXml
    exact ⟨printed, fun text document => (solid.ofXml_document document).trans printed.symm⟩
  · intro fs several solid
    exact ⟨ofXml_wrapped several solid (laidOutEach_join fs), fun _ => ofXml_wrapped several solid⟩

end Filter

namespace Filter

theorem ofXml_laidOut_sample :
    ofXml "\n<filter> <not>\t<or>\n<cat> \n</cat> <filter/></or></not>\n</filter> " =
      .ok (.not (.or [.predicate .category (.literal " \n"), .empty]) true) ∧
    ofXml "<filter> <cat> a</cat><not><filter/></not>\n</filter>" =
      .ok (.and [.predicate .category (.literal " a"), .not .empty false]) := by
  let blank : Filter := .predicate .category (.literal " \n")
  let padded : Filter := .predicate .category (.literal " a")
  constructor
  · have each : LaidOutEach [blank, .empty] "\n<cat> \n</cat> <filter/>" :=
      ⟨"\n", _, " <filter/>", rfl, laidOut_toXml _, ⟨" ", _, "", rfl, laidOut_toXml _, rfl, rfl⟩,
        rfl⟩
    have negation : (Filter.not (.or [blank, .empty]) true).LaidOut
        "<not>\t<or>\n<cat> \n</cat> <filter/></or></not>" :=
      ⟨"\t", _, "", rfl, ⟨_, each, rfl⟩, rfl, rfl⟩
    have content : LaidOutEach [.not (.or [blank, .empty]) true]
        " <not>\t<or>\n<cat> \n</cat> <filter/></or></not>\n" :=
      ⟨" ", _, "\n", rfl, negation, rfl, rfl⟩
    have solid : (Filter.not (.or [blank, .empty]) true).Solid := by
      refine .not (.or (by simp) ?_)
      simpa only [List.forall_mem_cons] using ⟨.predicate, .empty, List.forall_mem_nil _⟩
    obtain ⟨printed, same⟩ := ofXml_laidOut.1 _ solid
    exact (same _ ⟨"\n", _, " ", rfl, rfl, rfl, .inr ⟨_, content, rfl⟩⟩).trans printed
  · have content : LaidOutEach [padded, .not .empty true] " <cat> a</cat><not><filter/></not>\n" :=
      ⟨" ", _, _, rfl, laidOut_toXml _, ⟨"", _, "\n", rfl, laidOut_toXml _, rfl, rfl⟩, rfl⟩
    have solid : ∀ f ∈ [padded, .not .empty true], f.Solid := by
      simpa only [List.forall_mem_cons] using ⟨.predicate, .not .empty, List.forall_mem_nil _⟩
    exact (ofXml_laidOut.2 [padded, .not .empty true] (by decide) solid).2 _ content

end Filter

end TestScheduler

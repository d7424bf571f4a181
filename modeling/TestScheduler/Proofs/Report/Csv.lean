import Mathlib.Data.List.TakeWhile
import TestScheduler.Proofs.Prelude
import TestScheduler.Report.Csv

/-! # Reading CSV reports

A file of comma-separated values has records that are ended by line breaks, and fields between commas
that may be quoted. What is written for records is such a file, and it is a file of no other records.
-/

namespace TestScheduler

namespace Csv

/-! ## The format -/

/-- Whether a character may stand in a field that is not quoted. -/
def isPlain (c : Char) : Bool := !(c = ',' || c = '"' || c = '\r' || c = '\n')

def doubled (c : Char) : List Char := if c = '"' then ['"', '"'] else [c]

inductive WrittenField (value : String) : List Char → Prop
  | plain (plain : ∀ c ∈ value.toList, isPlain c = true) : WrittenField value value.toList
  | quoted : WrittenField value ('"' :: (value.toList.flatMap doubled ++ ['"']))

inductive WrittenRecord : List String → List Char → Prop
  | last {value : String} {text : List Char} (field : WrittenField value text) :
      WrittenRecord [value] text
  | more {value : String} {text : List Char} {values : List String} {others : List Char}
      (field : WrittenField value text) (rest : WrittenRecord values others) :
      WrittenRecord (value :: values) (text ++ ',' :: others)

def lineBreaks : List (List Char) := [['\n'], ['\r', '\n']]

/-- Whether a text is a file of some records. The line break after the last of them may be left
out. -/
inductive Written : List (List String) → List Char → Prop
  | nothing : Written [] []
  | unended {values : List String} {line : List Char} (record : WrittenRecord values line)
      (nonempty : line ≠ []) : Written [values] line
  | record {values : List String} {line ending : List Char} {records : List (List String)}
      {text : List Char} (record : WrittenRecord values line) (isBreak : ending ∈ lineBreaks)
      (rest : Written records text) : Written (values :: records) (line ++ ending ++ text)

/-! ## A reader -/

/-- The rest of a quoted field, and what follows its closing quote. -/
def quotedRest? : List Char → Option (List Char × List Char)
  | [] => none
  | '"' :: '"' :: cs => (quotedRest? cs).map fun (value, rest) => ('"' :: value, rest)
  | '"' :: cs => some ([], cs)
  | c :: cs => (quotedRest? cs).map fun (value, rest) => (c :: value, rest)

def field? : List Char → Option (String × List Char)
  | '"' :: cs => (quotedRest? cs).map fun (value, rest) => (String.ofList value, rest)
  | cs => some (String.ofList (cs.takeWhile isPlain), cs.dropWhile isPlain)

theorem length_of_quotedRest? {cs value rest : List Char}
    (h : quotedRest? cs = some (value, rest)) : rest.length < cs.length := by
  fun_induction quotedRest? cs generalizing value rest with
  | case1 => cases h
  | case2 cs ih | case4 c cs _ _ ih =>
    obtain ⟨⟨v, r⟩, hr, he⟩ := Option.map_eq_some_iff.mp h
    cases he
    have := ih hr
    simp only [List.length_cons]
    omega
  | case3 =>
    cases h
    simp

theorem length_of_field? {cs rest : List Char} {value : String}
    (h : field? cs = some (value, rest)) : rest.length ≤ cs.length := by
  unfold field? at h
  split at h
  · obtain ⟨⟨v, r⟩, hr, he⟩ := Option.map_eq_some_iff.mp h
    cases he
    exact Nat.le_of_lt (Nat.lt_succ_of_lt (length_of_quotedRest? hr))
  · cases h
    exact (List.dropWhile_sublist _).length_le

/-- The fields up to a line break or the end. -/
def record? (cs : List Char) : Option (List String × List Char) :=
  match _h : field? cs with
  | none => none
  | some (value, ',' :: rest) => (record? rest).map fun (values, rest) => (value :: values, rest)
  | some (value, rest) => some ([value], rest)
termination_by cs.length
decreasing_by
  have := length_of_field? _h
  simp only [List.length_cons] at this
  omega

theorem length_of_record? {cs rest : List Char} {values : List String}
    (h : record? cs = some (values, rest)) : rest.length ≤ cs.length := by
  fun_induction record? cs generalizing values rest with
  | case1 => cases h
  | case2 cs value others hfield ih =>
    obtain ⟨⟨vs, r⟩, hr, he⟩ := Option.map_eq_some_iff.mp h
    cases he
    have first := length_of_field? hfield
    have second := ih hr
    simp only [List.length_cons] at first
    omega
  | case3 cs value others _ hfield =>
    cases h
    exact length_of_field? hfield

def records? (cs : List Char) : Option (List (List String)) :=
  if cs = [] then some []
  else
    match _h : record? cs with
    | some (values, []) => some [values]
    | some (values, '\n' :: rest) => (records? rest).map (values :: ·)
    | some (values, '\r' :: '\n' :: rest) => (records? rest).map (values :: ·)
    | _ => none
termination_by cs.length
decreasing_by
  all_goals
    have := length_of_record? _h
    simp only [List.length_cons] at this
    omega

/-- Reads a file of comma-separated values. -/
def read? (text : String) : Option (List (List String)) := records? text.toList

/-! ## The reader finds what is written -/

/-- What may follow a field: a comma, a line break or nothing. -/
def Stops (rest : List Char) : Prop := ∀ c ∈ rest.head?, c ≠ '"' ∧ isPlain c = false

theorem stops_cons {c : Char} (rest : List Char) (h : c ≠ '"' ∧ isPlain c = false) :
    Stops (c :: rest) := by
  simpa [Stops] using h

theorem quotedRest?_doubled {value rest : List Char} (stops : Stops rest) :
    quotedRest? (value.flatMap doubled ++ '"' :: rest) = some (value, rest) := by
  induction value with
  | nil =>
    cases rest with
    | nil => rfl
    | cons c rest =>
      obtain ⟨other, -⟩ := stops c rfl
      simp [quotedRest?, other]
  | cons c value ih =>
    rw [List.flatMap_cons, List.append_assoc]
    by_cases quote : c = '"'
    · subst quote
      simp [doubled, quotedRest?, ih]
    · simp [doubled, quotedRest?, quote, ih]

theorem field?_plain {cs : List Char} (unquoted : ∀ c ∈ cs.head?, c ≠ '"') :
    field? cs = some (String.ofList (cs.takeWhile isPlain), cs.dropWhile isPlain) := by
  cases cs with
  | nil => rfl
  | cons c cs =>
    have other := unquoted c rfl
    simp [field?, other]

theorem field?_of_writtenField {value : String} {text rest : List Char}
    (field : WrittenField value text) (stops : Stops rest) :
    field? (text ++ rest) = some (value, rest) := by
  cases field with
  | quoted =>
    rw [List.cons_append, List.append_assoc, List.singleton_append, field?,
      quotedRest?_doubled stops]
    simp
  | plain plain =>
    have unquoted : ∀ c ∈ (value.toList ++ rest).head?, c ≠ '"' := by
      rintro c hc rfl
      rw [List.head?_append] at hc
      rcases Option.or_eq_some_iff.mp hc with h | ⟨-, h⟩
      · exact absurd (plain _ (List.mem_of_head? h)) (by decide)
      · exact (stops _ h).1 rfl
    have other : ∀ c ∈ rest.head?, isPlain c = false := fun c hc => (stops c hc).2
    rw [field?_plain unquoted, List.takeWhile_append_of_pos plain,
      List.dropWhile_append_of_pos plain, takeWhile_of_head? other, dropWhile_of_head? other]
    simp

/-- What may follow a record: a line break or nothing. -/
def Ends (rest : List Char) : Prop := ∀ c ∈ rest.head?, c = '\n' ∨ c = '\r'

theorem Ends.stops {rest : List Char} (h : Ends rest) : Stops rest := by
  intro c hc
  rcases h c hc with rfl | rfl
  · decide
  · decide

section Steps

variable {cs rest : List Char} {value : String} {values : List String}

theorem record?_of_comma (field : field? cs = some (value, ',' :: rest)) :
    record? cs = (record? rest).map fun (values, rest) => (value :: values, rest) := by
  rw [record?]
  grind

theorem record?_of_ends (field : field? cs = some (value, rest)) (ends : Ends rest) :
    record? cs = some ([value], rest) := by
  have noComma (others : List Char) : rest ≠ ',' :: others := by
    rintro rfl
    exact absurd (ends ',' rfl) (by decide)
  rw [record?]
  grind

theorem records?_of_end (nonempty : cs ≠ []) (record : record? cs = some (values, [])) :
    records? cs = some [values] := by
  rw [records?, if_neg nonempty]
  grind

theorem records?_of_break {ending : List Char} (isBreak : ending ∈ lineBreaks) (nonempty : cs ≠ [])
    (record : record? cs = some (values, ending ++ rest)) :
    records? cs = (records? rest).map (values :: ·) := by
  rw [records?, if_neg nonempty]
  rcases List.mem_pair.mp isBreak with rfl | rfl
  · grind
  · grind

end Steps

theorem record?_of_writtenRecord {values : List String} {line rest : List Char}
    (record : WrittenRecord values line) (ends : Ends rest) :
    record? (line ++ rest) = some (values, rest) := by
  induction record with
  | last field => exact record?_of_ends (field?_of_writtenField field ends.stops) ends
  | @more value text values others field _ ih =>
    have comma : Stops (',' :: (others ++ rest)) := stops_cons _ (by decide)
    rw [List.append_assoc, List.cons_append,
      record?_of_comma (field?_of_writtenField field comma), ih]
    rfl

theorem ends_of_break {ending : List Char} (isBreak : ending ∈ lineBreaks) (rest : List Char) :
    ending ≠ [] ∧ Ends (ending ++ rest) := by
  rcases List.mem_pair.mp isBreak with rfl | rfl
  · simp [Ends]
  · simp [Ends]

/-- Whatever a text is a file of is what the reader finds in it. -/
theorem records?_of_written {records : List (List String)} {text : List Char}
    (written : Written records text) : records? text = some records := by
  induction written with
  | nothing =>
    rw [records?]
    rfl
  | @unended values line record nonempty =>
    have ends : Ends [] := by simp [Ends]
    have hrecord : record? line = some (values, []) := by
      simpa using record?_of_writtenRecord record ends
    exact records?_of_end nonempty hrecord
  | @record values line ending records text record isBreak _ ih =>
    obtain ⟨nonempty, ends⟩ := ends_of_break isBreak text
    rw [List.append_assoc,
      records?_of_break isBreak (by simp [nonempty]) (record?_of_writtenRecord record ends), ih]
    rfl

/-! ## What is written -/

theorem writtenField_fieldText (field : String) : WrittenField field (fieldText field).toList := by
  unfold fieldText
  split
  · have quotes : (quoted field).toList = '"' :: (field.toList.flatMap doubled ++ ['"']) := by
      rw [quoted, String.toList_append, String.toList_append]
      simp only [String.toList_ofList]
      rfl
    rw [quotes]
    exact .quoted
  · next plain =>
    refine .plain fun c hc => ?_
    have := List.any_eq_false.mp (Bool.eq_false_iff.mpr plain) c hc
    simpa [isPlain] using this

theorem writtenRecord_intercalate (value : String) (values : List String) :
    WrittenRecord (value :: values) (",".intercalate ((value :: values).map fieldText)).toList := by
  have first := writtenField_fieldText value
  induction values generalizing value with
  | nil => simpa using WrittenRecord.last first
  | cons next values ih =>
    have line : (",".intercalate ((value :: next :: values).map fieldText)).toList =
        (fieldText value).toList ++
          ',' :: (",".intercalate ((next :: values).map fieldText)).toList := by
      simp [String.toList_intercalate]
    rw [line]
    exact .more first (ih next (writtenField_fieldText next))

theorem written_text {records : List (List String)} (h : ∀ values ∈ records, values ≠ []) :
    Written records (text records).toList := by
  induction records with
  | nil => exact .nothing
  | cons values records ih =>
    obtain ⟨nonempty, others⟩ := List.forall_mem_cons.mp h
    obtain ⟨value, values, rfl⟩ := List.exists_cons_of_ne_nil nonempty
    have first := writtenRecord_intercalate value values
    have whole : (text ((value :: values) :: records)).toList =
        (",".intercalate ((value :: values).map fieldText)).toList ++ ['\n'] ++
          (text records).toList := by
      simp [text, recordText]
    rw [whole]
    exact .record first (by simp [lineBreaks]) (ih others)

end Csv

/-- A report is a file of the header and one record per result in pre-order. The reader finds them,
with every character of the fields, and the text is a file of no other records. -/
theorem ResultTree.read?_toCsv (t : ResultTree) :
    let records : List (List String) :=
      ["id", "full_name", "kind", "status", "label", "duration_ms", "asserts", "message"] ::
        t.preorder.map fun r =>
          [toString r.id, r.fullName, r.kind.title, r.verdict.status.title,
            (r.verdict.label.map Label.title).getD "", toString r.durationMs,
            toString r.assertCount.toNat, r.message.getD ""]
    Csv.read? t.toCsv = some records ∧
      ∀ others, Csv.Written others t.toCsv.toList ↔ others = records := by
  intro records
  have header : csvHeader :: t.preorder.map csvRecord = records := by
    refine congrArg (csvHeader :: ·) (List.map_congr_left fun r _ => ?_)
    unfold csvRecord
    cases r.verdict.label <;> rfl
  have nonempty : ∀ values ∈ csvHeader :: t.preorder.map csvRecord, values ≠ [] := by
    rw [List.forall_mem_cons, List.forall_mem_map]
    exact ⟨by simp [csvHeader], fun r _ => by simp [csvRecord]⟩
  have written : Csv.Written records t.toCsv.toList := by
    rw [← header]
    exact Csv.written_text nonempty
  have reads : Csv.read? t.toCsv = some records := Csv.records?_of_written written
  refine ⟨reads, fun others => ⟨?_, ?_⟩⟩
  · intro h
    exact Option.some.inj ((Csv.records?_of_written h).symm.trans reads)
  · rintro rfl
    exact written

end TestScheduler

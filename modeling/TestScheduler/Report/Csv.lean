import TestScheduler.Result.Basic

/-! # CSV reports

One record per result in pre-order, after a header. A field is quoted if it holds a comma, a
quote or a line break, and a quote inside it is doubled.
-/

namespace TestScheduler

namespace Csv

def needsQuotes (field : String) : Bool :=
  field.toList.any fun c => c = ',' || c = '"' || c = '\r' || c = '\n'

def quoted (field : String) : String :=
  "\"" ++ String.ofList (field.toList.flatMap fun c => if c = '"' then ['"', '"'] else [c]) ++ "\""

def fieldText (field : String) : String := if needsQuotes field then quoted field else field

def recordText (fields : List String) : String := ",".intercalate (fields.map fieldText) ++ "\n"

def text (records : List (List String)) : String := String.join (records.map recordText)

end Csv

namespace ResultTree

def csvHeader : List String :=
  ["id", "full_name", "kind", "status", "label", "duration_ms", "asserts", "message"]

def csvRecord (r : Result) : List String :=
  [toString r.id, r.fullName, r.kind.title, r.verdict.status.title,
    match r.verdict.label with
    | some label => label.title
    | none => "",
    toString r.durationMs, toString r.assertCount.toNat, r.message.getD ""]

def toCsv (t : ResultTree) : String := Csv.text (csvHeader :: t.preorder.map csvRecord)

end ResultTree

end TestScheduler

import TestScheduler.Data.Datum
import TestScheduler.Result.Summary

/-! # Result documents

Results are written with all their fields, an absent value as null, and the children last.
-/

namespace TestScheduler

namespace Verdict

def toJson (v : Verdict) : Json :=
  .object [("status", v.status.keyword), ("label", .ofOption (·.keyword) v.label),
    ("site", v.site.keyword)]

def ofDatum? (d : Datum) : Option Verdict := do
  let f ← Fields.ofDatum? ["status", "label", "site"] false d
  some {
    status := ← f.required? "status" (Datum.variant? Status.ofKeyword?)
    label := ← f.nullable? "label" (Datum.variant? Label.ofKeyword?)
    site := ← f.required? "site" (Datum.variant? Site.ofKeyword?) }

end Verdict

namespace ResultTree

def nodeJson (r : Result) (children : List Json) : Json :=
  .object [("id", r.id), ("name", r.name), ("full_name", r.fullName), ("kind", r.kind.keyword),
    ("state", r.verdict.toJson), ("message", .ofOption .text r.message),
    ("stack_trace", .ofOption .text r.stackTrace), ("output", .ofOption .text r.output),
    ("assert_count", r.assertCount.toNat), ("start_time", .ofOption (.text ·.toText) r.startTime),
    ("end_time", .ofOption (.text ·.toText) r.endTime), ("duration_ms", r.durationMs),
    ("children", .array children)]

def toJson : ResultTree → Json := Tree.fold nodeJson

def fieldNames : List String :=
  ["id", "name", "full_name", "kind", "state", "message", "stack_trace", "output",
    "assert_count", "start_time", "end_time", "duration_ms", "children"]

def ofDatum? (d : Datum) : Option ResultTree := do
  let f ← Fields.ofDatum? fieldNames false d
  let time? (d : Datum) := d.text?.bind Timestamp.ofText?
  let result : Result := {
    id := ← f.required? "id" (Datum.natural? UInt64.size)
    name := ← f.required? "name" Datum.text?
    fullName := ← f.required? "full_name" Datum.text?
    kind := ← f.required? "kind" (Datum.variant? Kind.ofKeyword?)
    verdict := ← f.required? "state" Verdict.ofDatum?
    message := ← f.nullable? "message" Datum.text?
    stackTrace := ← f.nullable? "stack_trace" Datum.text?
    output := ← f.nullable? "output" Datum.text?
    assertCount := ← f.required? "assert_count" Datum.word32?
    startTime := ← f.nullable? "start_time" time?
    endTime := ← f.nullable? "end_time" time?
    durationMs := ← f.required? "duration_ms" (Datum.natural? UInt64.size) }
  let ⟨children, _⟩ ← f.part? "children"
  let parts ← children.parts?
  some (.node result (← parts.mapM fun ⟨child, _⟩ => ofDatum? child))
termination_by sizeOf d

end ResultTree

namespace Summary

def toJson (s : Summary) : Json :=
  .object [("total", s.total), ("passed", s.passed), ("failed", s.failed), ("errors", s.errors),
    ("inconclusive", s.inconclusive), ("skipped", s.skipped), ("ignored", s.ignored),
    ("explicit", s.explicit), ("cancelled", s.cancelled),
    ("total_duration_ms", s.totalDurationMs)]

end Summary

end TestScheduler

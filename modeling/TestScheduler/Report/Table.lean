import TestScheduler.Report.Status
import TestScheduler.Run.Runner
import TestScheduler.Text.Layout

/-! # Tables

A framed list of the test cases with the totals of the run below it.
-/

namespace TestScheduler

open Text

namespace Report

def ruler : String := String.join (List.replicate 62 "═")

def caseLines (isColoured : Bool) (r : Result) : List String :=
  let row := "║  " ++ padRight 40 r.fullName ++ " " ++ r.verdict.badge isColoured ++ " [" ++
    padLeft 6 (toString r.durationMs) ++ "ms]"
  match r.message with
  | some message => if r.verdict.status = .passed then [row] else [row, "║      " ++ message]
  | none => [row]

def totalLines (isColoured : Bool) (r : Report) : List String :=
  let s := r.summary
  let failed := s.failed + s.errors
  let paintIf (condition : Bool) (code text : String) :=
    if isColoured && condition then painted code text else text
  ["║  Total: " ++ padLeft 3 (toString s.total) ++
      " | Pass: " ++ paintIf true "32" (toString s.passed) ++
      " | Fail: " ++ paintIf (0 < failed) "31" (toString failed) ++
      " | Skip: " ++ padLeft 3 (toString (s.skipped + s.ignored + s.explicit)) ++
      " | Inconclusive: " ++ padLeft 3 (toString s.inconclusive),
    "║  Result: " ++ r.result.value.verdict.title ++
      " | Pass Rate: " ++ padLeft 5 s.passRate ++
      "% | Duration: " ++ padLeft 6 (toString s.totalDurationMs) ++ "ms"] ++
  if r.cancelled then
    ["║  Run was stopped early; " ++ toString s.cancelled ++ " test(s) cancelled"]
  else []

def table (isColoured : Bool) (r : Report) : String :=
  let cases := r.result.preorder.filter (·.isLeaf)
  let lines :=
    ["", "╔" ++ ruler ++ "╗", "║  " ++ padRight 58 r.result.value.fullName ++ "  ║",
      "╠" ++ ruler ++ "╣"] ++ cases.flatMap (caseLines isColoured) ++
    ["╠" ++ ruler ++ "╣"] ++ r.totalLines isColoured ++ ["╚" ++ ruler ++ "╝"]
  String.join (lines.map (· ++ "\n"))

end Report

end TestScheduler

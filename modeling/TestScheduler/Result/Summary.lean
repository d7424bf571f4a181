import TestScheduler.Result.Basic
import TestScheduler.Text.Percent

/-! # Summaries

A summary counts the test cases of a result tree by outcome; suites do not count.
-/

namespace TestScheduler

structure Summary where
  total : Nat := 0
  passed : Nat := 0
  failed : Nat := 0
  errors : Nat := 0
  inconclusive : Nat := 0
  skipped : Nat := 0
  ignored : Nat := 0
  explicit : Nat := 0
  cancelled : Nat := 0
  totalDurationMs : Nat := 0
  deriving DecidableEq, Repr

namespace Summary

def count (s : Summary) (v : Verdict) : Summary :=
  let s := { s with total := s.total + 1 }
  match v.status, v.label with
  | .passed, _ => { s with passed := s.passed + 1 }
  | .failed, some .cancelled => { s with cancelled := s.cancelled + 1 }
  | .failed, some .error => { s with errors := s.errors + 1 }
  | .failed, _ => { s with failed := s.failed + 1 }
  | .inconclusive, _ => { s with inconclusive := s.inconclusive + 1 }
  | .skipped, some .ignored => { s with ignored := s.ignored + 1 }
  | .skipped, some .explicit => { s with explicit := s.explicit + 1 }
  | .skipped, _ => { s with skipped := s.skipped + 1 }

def ofResults (t : ResultTree) : Summary :=
  (t.preorder.filter (·.isLeaf)).foldl (fun s r => s.count r.verdict)
    { totalDurationMs := t.value.durationMs }

def passRate (s : Summary) : String := Text.percent s.passed s.total

/-- There is a test case, and every one passed. -/
def isAllPassed (s : Summary) : Bool := 0 < s.total && s.passed = s.total

def toText (s : Summary) : String :=
  "Total: " ++ toString s.total ++ " | Pass: " ++ toString s.passed ++
    " | Fail: " ++ toString s.failed ++ " | Error: " ++ toString s.errors ++
    " | Inconclusive: " ++ toString s.inconclusive ++ " | Skip: " ++ toString s.skipped ++
    " | Ignored: " ++ toString s.ignored ++ " | Explicit: " ++ toString s.explicit ++
    " | Cancelled: " ++ toString s.cancelled ++ "\n" ++
    "Pass Rate: " ++ s.passRate ++ "% | Duration: " ++ toString s.totalDurationMs ++ "ms\n"

end Summary

end TestScheduler

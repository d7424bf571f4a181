import TestScheduler.Result.Verdict

/-! # Verdicts in reports

A verdict is shown as its symbol and title, in a colour of its status where colours are wanted.
-/

namespace TestScheduler

/-- Wraps a text in the terminal codes of a colour. -/
def Text.painted (code text : String) : String := "\x1b[" ++ code ++ "m" ++ text ++ "\x1b[0m"

namespace Status

def colour : Status → String
  | passed => "32"
  | failed => "31"
  | skipped => "33"
  | inconclusive => "36"

end Status

def Verdict.badge (v : Verdict) (isColoured : Bool) : String :=
  let plain := v.status.symbol ++ " " ++ v.title
  if isColoured then Text.painted v.status.colour plain else plain

end TestScheduler

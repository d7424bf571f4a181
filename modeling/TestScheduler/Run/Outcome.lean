import TestScheduler.Result.Basic

/-! # Outcomes

How a hook ended: with an outcome, with a failure that it reports, or by crashing, which counts
as an error.
-/

namespace TestScheduler

structure Outcome where
  verdict : Verdict
  message : Option String := none
  assertCount : UInt32 := 0
  output : Option String := none
  deriving DecidableEq, Repr

def Outcome.passed : Outcome := { verdict := .success }

inductive Failure where
  | assertion (message : String) (stackTrace : Option String)
  | error (message : String) (stackTrace : Option String)
  | inconclusive (message : String)
  | ignore (message : String)
  deriving DecidableEq, Repr

namespace Failure

def verdict : Failure → Verdict
  | assertion .. => .failure
  | error .. => .error
  | inconclusive _ => .inconclusive
  | ignore _ => .ignored

def message : Failure → String
  | assertion message _ => message
  | error message _ => message
  | inconclusive message => message
  | ignore message => message

def stackTrace : Failure → Option String
  | assertion _ stackTrace => stackTrace
  | error _ stackTrace => stackTrace
  | _ => none

end Failure

inductive Ending where
  | finished (outcome : Outcome)
  | failed (failure : Failure)
  /-- A crash, with its text if it has one. -/
  | crashed (text : Option String)
  deriving DecidableEq, Repr

namespace Ending

/-- The outcome or the failure; a crash is an error without a stack trace. -/
def guarded : Ending → Except Failure Outcome
  | finished outcome => .ok outcome
  | failed failure => .error failure
  | crashed text => .error (.error ("panicked: " ++ text.getD "unknown panic payload") none)

end Ending

/-- The result of a test case, apart from its times. -/
def Result.ofBody (n : Node) : Except Failure Outcome → Result
  | .ok outcome =>
    { ofNode n with
      verdict := outcome.verdict
      message := outcome.message
      assertCount := outcome.assertCount
      output := outcome.output }
  | .error failure =>
    { ofNode n with
      verdict := failure.verdict
      message := some failure.message
      stackTrace := failure.stackTrace }

end TestScheduler

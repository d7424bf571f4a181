import TestScheduler.Result.Basic

/-! # Rolling up results

The verdict of a suite follows from the verdicts of its children: failed before passed before
inconclusive before skipped. Grouped suites also fail when none of their cases was conclusive.
-/

namespace TestScheduler

inductive Rollup where
  | standard | grouped
  deriving DecidableEq, Repr

namespace Rollup

def ofKind (kind : Kind) : Rollup := if kind.isGrouped then grouped else standard

def title : Rollup → String
  | standard => "Standard"
  | grouped => "Grouped"

def combineStandard (children : List Verdict) : Verdict × Option String :=
  let failed := children.filter (·.status = .failed)
  if !failed.isEmpty then
    if failed.all (·.isCancelled) then
      (Verdict.cancelled.atSite .child, some "Test run was cancelled")
    else (.childFailure, some "One or more child tests had errors")
  else if children.any (·.status = .passed) then (.success, none)
  else if children.all (·.status = .inconclusive) then (.inconclusive, none)
  else if children.any (·.label = some .ignored) then
    (Verdict.ignored.atSite .child, some "One or more child tests were ignored")
  else (.skipped, none)

/-- The verdict and message of a suite with children of given verdicts. -/
def combine (r : Rollup) (children : List Verdict) : Verdict × Option String :=
  if r = grouped && children.isEmpty then
    (.notRunnable, some "No test cases were provided")
  else if r = grouped && children.all (·.status = .inconclusive) then
    (Verdict.failure.atSite .child, some "All test cases were inconclusive")
  else combineStandard children

end Rollup

end TestScheduler

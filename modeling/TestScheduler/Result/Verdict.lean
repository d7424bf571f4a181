/-! # Verdicts

The verdict on a test has a status, an optional label that refines it and the site where it
arose.
-/

namespace TestScheduler

inductive Status where
  | inconclusive | skipped | passed | failed
  deriving DecidableEq, Repr

namespace Status

def symbol : Status → String
  | inconclusive => "?"
  | skipped => "○"
  | passed => "✓"
  | failed => "✗"

def title : Status → String
  | inconclusive => "Inconclusive"
  | skipped => "Skipped"
  | passed => "Passed"
  | failed => "Failed"

def keyword : Status → String
  | inconclusive => "inconclusive"
  | skipped => "skipped"
  | passed => "passed"
  | failed => "failed"

def all : List Status := [inconclusive, skipped, passed, failed]

def ofKeyword? (word : String) : Option Status := all.find? (·.keyword = word)

end Status

inductive Label where
  | ignored | explicit | error | cancelled | invalid
  deriving DecidableEq, Repr

namespace Label

def title : Label → String
  | ignored => "Ignored"
  | explicit => "Explicit"
  | error => "Error"
  | cancelled => "Cancelled"
  | invalid => "Invalid"

def keyword : Label → String
  | ignored => "ignored"
  | explicit => "explicit"
  | error => "error"
  | cancelled => "cancelled"
  | invalid => "invalid"

def all : List Label := [ignored, explicit, error, cancelled, invalid]

def ofKeyword? (word : String) : Option Label := all.find? (·.keyword = word)

end Label

inductive Site where
  | test | setUp | tearDown | parent | child
  deriving DecidableEq, Repr

namespace Site

def keyword : Site → String
  | test => "test"
  | setUp => "setup"
  | tearDown => "teardown"
  | parent => "parent"
  | child => "child"

def all : List Site := [test, setUp, tearDown, parent, child]

def ofKeyword? (word : String) : Option Site := all.find? (·.keyword = word)

end Site

structure Verdict where
  status : Status
  label : Option Label := none
  site : Site := .test
  deriving DecidableEq, Repr

namespace Verdict

def inconclusive : Verdict := { status := .inconclusive }
def skipped : Verdict := { status := .skipped }
def ignored : Verdict := { status := .skipped, label := some .ignored }
def explicit : Verdict := { status := .skipped, label := some .explicit }
def success : Verdict := { status := .passed }
def failure : Verdict := { status := .failed }
def error : Verdict := { status := .failed, label := some .error }
def cancelled : Verdict := { status := .failed, label := some .cancelled }
def notRunnable : Verdict := { status := .failed, label := some .invalid }
def childFailure : Verdict := { status := .failed, site := .child }

def atSite (v : Verdict) (site : Site) : Verdict := { v with site := site }

def isCancelled (v : Verdict) : Bool := v.label = some .cancelled

def title (v : Verdict) : String :=
  match v.label with
  | some label => v.status.title ++ ":" ++ label.title
  | none => v.status.title

end Verdict

end TestScheduler

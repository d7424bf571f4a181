/-! # Runnability

Whether and how a test may be run, from free to run to never run. Requests only ever tighten the
state of a test.
-/

namespace TestScheduler

inductive Runnability where
  | runnable | explicit | skipped | ignored | notRunnable
  deriving DecidableEq, Repr

namespace Runnability

def rank : Runnability → Nat
  | runnable => 0
  | explicit => 1
  | skipped => 2
  | ignored => 3
  | notRunnable => 4

/-- The states in which a test may start, if only on request. -/
def isRunnable : Runnability → Bool
  | runnable => true
  | explicit => true
  | _ => false

/-- The stricter of two states. -/
def tighten (current requested : Runnability) : Runnability :=
  if current.rank ≤ requested.rank then requested else current

theorem rank_tighten (a b : Runnability) : (a.tighten b).rank = max a.rank b.rank := by
  cases a <;> cases b <;> rfl

theorem rank_injective {a b : Runnability} (h : a.rank = b.rank) : a = b := by
  cases a <;> cases b <;> simp_all [rank]

def title : Runnability → String
  | runnable => "Runnable"
  | explicit => "Explicit"
  | skipped => "Skipped"
  | ignored => "Ignored"
  | notRunnable => "NotRunnable"

/-- The name of a state in data files. -/
def keyword : Runnability → String
  | runnable => "runnable"
  | explicit => "explicit"
  | skipped => "skipped"
  | ignored => "ignored"
  | notRunnable => "not_runnable"

def all : List Runnability := [runnable, explicit, skipped, ignored, notRunnable]

def ofKeyword? (word : String) : Option Runnability := all.find? (·.keyword = word)

end Runnability

end TestScheduler

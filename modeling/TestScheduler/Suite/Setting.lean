/-! # Settings

Ambient settings that a suite applies before its own setup. They are kept in order of priority;
settings of one priority keep the order in which they were declared.
-/

namespace TestScheduler

inductive Setting where
  | culture (name : String)
  | uiCulture (name : String)
  | randomSeed (seed : UInt64)
  | property (key value : String)
  deriving DecidableEq, Repr

namespace Setting

/-- Lower values are applied first. -/
def priority : Setting → Nat
  | culture _ => 0
  | uiCulture _ => 1
  | randomSeed _ => 2
  | property _ _ => 3

theorem priority_lt (s : Setting) : s.priority < 4 := by
  cases s <;> simp [priority]

/-- The settings of each priority in turn. -/
def inOrder (settings : List Setting) : List Setting :=
  (List.range 4).flatMap fun p => settings.filter (·.priority = p)

end Setting

end TestScheduler

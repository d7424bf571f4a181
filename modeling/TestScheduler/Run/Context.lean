import TestScheduler.Suite.Node
import TestScheduler.Suite.Randomizer
import TestScheduler.Text.Dictionary

/-! # Contexts

A context is what a hook sees of a run. Each child starts from a copy of its suite's context, and
what a hook changes is confined to the ambient part.
-/

namespace TestScheduler

/-- The part of a context that settings and hooks may change. -/
structure Ambient where
  fixture : Option String := none
  culture : String
  uiCulture : String
  randomizer : Randomizer
  properties : Dictionary String := {}
  deriving DecidableEq

namespace Ambient

/-- The culture of a run for which none is chosen. -/
def invariantCulture : String := "invariant"

/-- The seed from which the randomizer was last started. -/
def randomSeed (a : Ambient) : UInt64 := a.randomizer.seed

def reseed (a : Ambient) (seed : UInt64) : Ambient := { a with randomizer := { seed } }

def setProperty (a : Ambient) (key value : String) : Ambient :=
  { a with properties := a.properties.insert key value }

def apply (a : Ambient) : Setting → Ambient
  | .culture name => { a with culture := name }
  | .uiCulture name => { a with uiCulture := name }
  | .randomSeed seed => a.reseed seed
  | .property key value => a.setProperty key value

def applyAll (a : Ambient) (settings : List Setting) : Ambient := settings.foldl apply a

end Ambient

structure Context extends Ambient where
  current : Option Node := none
  /-- The suites set up and not yet torn down, outermost first. -/
  activeSetups : List TestId := []
  stopOnError : Bool := false
  workers : Nat := 0
  deriving DecidableEq

namespace Context

/-- A context at the start of a run. -/
def initial (seed : UInt64) : Context :=
  { culture := Ambient.invariantCulture, uiCulture := Ambient.invariantCulture
    randomizer := { seed } }

/-- Takes a culture for texts and for the user interface. -/
def withCulture (c : Context) (culture : String) : Context :=
  { c with culture, uiCulture := culture }

/-- The context of a node below; its random numbers depend on the node alone. -/
def forChild (c : Context) (n : Node) : Context :=
  { c with toAmbient := c.toAmbient.reseed n.seed, current := some n }

def withSettings (c : Context) (settings : List Setting) : Context :=
  { c with toAmbient := c.toAmbient.applyAll settings }

def pushSetup (c : Context) (suite : TestId) : Context :=
  { c with activeSetups := c.activeSetups ++ [suite] }

def popSetup (c : Context) : Context := { c with activeSetups := c.activeSetups.dropLast }

def isParallel (c : Context) : Bool := 1 < c.workers

end Context

end TestScheduler

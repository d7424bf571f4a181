/-! # Random numbers

A randomizer is a seed with the number of draws made so far, so equal randomizers continue equally.
Which words are drawn is up to a generator.
-/

namespace TestScheduler

/-- Tells each word that is drawn from a seed, given the number of earlier draws. -/
abbrev Generator := (seed : UInt64) → (drawn : Nat) → UInt64

namespace Generator

/-- Spreads the bits of a word over the whole word. -/
def mix (word : UInt64) : UInt64 :=
  let a := (word ^^^ (word >>> 30)) * 0xbf58476d1ce4e5b9
  let b := (a ^^^ (a >>> 27)) * 0x94d049bb133111eb
  b ^^^ (b >>> 31)

def step : UInt64 := 0x9e3779b97f4a7c15

/-- Draws the mixed multiples of a fixed odd step. -/
def mixing : Generator := fun seed drawn => mix (mix seed + UInt64.ofNat (drawn + 1) * step)

end Generator

structure Randomizer where
  seed : UInt64
  drawn : Nat := 0
  deriving DecidableEq, Repr

/-- Draws one word. -/
def Randomizer.next (r : Randomizer) (generator : Generator) : UInt64 × Randomizer :=
  (generator r.seed r.drawn, { r with drawn := r.drawn + 1 })

end TestScheduler

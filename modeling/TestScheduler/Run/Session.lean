import TestScheduler.Run.Context
import TestScheduler.Run.Outcome

/-! # Sessions

A session is what the parts of a run share: the stop flag, the time and the log of events.
Hooks are played by an invoker, which may answer in any way that depends on the log so far.
-/

namespace TestScheduler

inductive Hook where
  | setUp | test | tearDown
  deriving DecidableEq, Repr

/-- What an invoker is given. -/
structure Call where
  hook : Hook
  node : Node
  context : Context
  /-- Whether the run has been stopped. -/
  stopped : Bool
  deriving DecidableEq

inductive Event where
  | started (node : Node)
  | called (call : Call)
  | finished (result : ResultTree)
  deriving DecidableEq

/-- What a hook gives back. Invokers are taken to keep to this: a hook changes the ambient state of
its context and may raise the stop flag, but it leaves the rest of the context in place, so that the
flag, the policy on errors and the suites that are set up stay those of the run. -/
structure Response where
  ending : Ending
  /-- The ambient state that the hook leaves behind. -/
  ambient : Ambient
  /-- Whether the hook stops the run. -/
  stops : Bool := false
  elapsedMs : Nat := 0
  deriving DecidableEq

abbrev Invoker := (log : List Event) → Call → Response

/-- Tells the milliseconds since 1970, given the number of earlier readings and the milliseconds
that hooks have taken. -/
abbrev Clock := (readings elapsedMs : Nat) → Nat

/-- A clock that moves while hooks run. -/
def Clock.from (startMs : Nat) : Clock := fun _ elapsedMs => startMs + elapsedMs

structure Session where
  stopped : Bool := false
  elapsedMs : Nat := 0
  readings : Nat := 0
  events : List Event := []
  deriving DecidableEq

namespace Session

def record (s : Session) (e : Event) : Session := { s with events := s.events ++ [e] }

def stopIf (s : Session) (condition : Bool) : Session :=
  { s with stopped := s.stopped || condition }

/-- The time, with the session after the reading. -/
def readClock (s : Session) (clock : Clock) : Nat × Session :=
  (clock s.readings s.elapsedMs, { s with readings := s.readings + 1 })

/-- Plays a hook and logs the call. -/
def call (s : Session) (invoker : Invoker) (hook : Hook) (node : Node) (context : Context) :
    Except Failure Outcome × Context × Session :=
  let call : Call := { hook, node, context, stopped := s.stopped }
  let response := invoker s.events call
  (response.ending.guarded, { context with toAmbient := response.ambient },
    { s with
      stopped := s.stopped || response.stops
      elapsedMs := s.elapsedMs + response.elapsedMs
      events := s.events ++ [.called call] })

end Session

end TestScheduler

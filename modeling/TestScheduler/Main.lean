import Std.Time.DateTime.Timestamp
import TestScheduler.Cli.Program

/-! # The command line -/

namespace TestScheduler

def FileError.ofIO : IO.Error → FileError
  | .noFileOrDirectory .. => .notFound
  | .inappropriateType .. => .notADirectory
  | e => .other (toString e)

namespace Action

def attemptIO (act : IO α) : IO (Except FileError α) := do
  try
    return .ok (← act)
  catch e =>
    return .error (.ofIO e)

/-- Carries an action out on the files of the computer. -/
def perform : Action α → IO α
  | done result => pure result
  | readFile path next => do (next (← attemptIO (IO.FS.readFile path))).perform
  | isPresent path next => do
    let handle ← attemptIO (IO.FS.Handle.mk path .read)
    (next (match handle with
      | .error .notFound => false
      | .error .notADirectory => false
      | _ => true)).perform
  | makeDirectory path next => do (next (← attemptIO (IO.FS.createDirAll path))).perform
  | writeFile path text next => do (next (← attemptIO (IO.FS.writeFile path text))).perform
  | print text next => do
    IO.print text
    (next ()).perform

end Action

end TestScheduler

open TestScheduler in
def main (words : List String) : IO UInt32 := do
  let known ← Environment.variableNames.filterMapM fun name => do
    return (← IO.getEnv (Environment.namePrefix ++ name)).map (name, ·)
  let now ← Std.Time.Timestamp.now
  let exit ← (Program.action {
    words
    variableValue := fun name => List.lookup name known
    home := ← IO.getEnv "HOME"
    clock := Clock.from now.toMillisecondsSinceUnixEpoch.toInt.toNat
    seed := UInt64.ofNat (← IO.monoNanosNow) }).perform
  IO.eprint exit.complaint
  return exit.code.toUInt32

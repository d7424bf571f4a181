import TestScheduler.Report.Status
import TestScheduler.Result.Basic

/-! # Outlines

One line per result in pre-order, indented by two blanks per level.
-/

namespace TestScheduler

namespace Text

def indentation (depth : Nat) : String := String.join (List.replicate depth "  ")

/-- The text before the first line break; a carriage return before the break belongs to it. -/
def firstLine (s : String) : String :=
  let cs := s.toList
  let line := cs.takeWhile (· ≠ '\n')
  match line.reverse with
  | '\r' :: before => if line.length < cs.length then String.ofList before.reverse else s
  | _ => String.ofList line

end Text

namespace ResultTree

def outlineLine (isColoured : Bool) (depth : Nat) (r : Result) : String :=
  let note := match r.message with
    | some message => " - " ++ Text.firstLine message
    | none => ""
  Text.indentation depth ++ r.verdict.badge isColoured ++ " " ++ r.name ++ " [" ++
    toString r.durationMs ++ "ms]" ++ note ++ "\n"

def outline (isColoured : Bool) (t : ResultTree) : String :=
  String.join <| t.preorderWithDepth.map fun (depth, r) => outlineLine isColoured depth r

end ResultTree

end TestScheduler

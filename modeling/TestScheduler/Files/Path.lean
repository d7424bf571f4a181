import TestScheduler.Text.Split

/-! # Paths

Paths are texts whose parts are separated by slashes. Empty parts and single dots name no step.
-/

namespace TestScheduler.Path

def parts (path : String) : List String := (Text.splitOn '/' path.toList).map String.ofList

def isStep (part : String) : Bool := part ≠ "" && part ≠ "."

def isAbsolute (path : String) : Bool := path.toList.head? = some '/'

/-- The name of a file or directory, unless the path ends by going up. -/
def fileName? (path : String) : Option String :=
  ((parts path).filter isStep).getLast?.filter (· ≠ "..")

/-- The text after the last dot of the file name; a name that only begins with a dot has none. -/
def extension? (path : String) : Option String := do
  let name ← fileName? path
  match name.toList.reverse.span (· ≠ '.') with
  | (after, '.' :: _ :: _) => some (String.ofList after.reverse)
  | _ => none

/-- The path without its last step. -/
def parent? (path : String) : Option String :=
  let trimmed := (parts path).reverse.dropWhile (!isStep ·)
  match trimmed with
  | [] => none
  | _ :: before =>
    match before.dropWhile (!isStep ·) with
    | [] =>
      if isAbsolute path then some "/"
      else if before.contains "." then some "."
      else some ""
    | steps => some ("/".intercalate steps.reverse)

end TestScheduler.Path

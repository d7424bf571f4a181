/-! # Splitting

A text falls into the parts between its separators; there is always one part more than there are
separators.
-/

namespace TestScheduler.Text

/-- The parts of a text between separators. -/
def splitOn (separator : Char) : List Char → List (List Char)
  | [] => [[]]
  | c :: cs =>
    if c = separator then [] :: splitOn separator cs
    else
      match splitOn separator cs with
      | part :: parts => (c :: part) :: parts
      | [] => [[c]]

end TestScheduler.Text

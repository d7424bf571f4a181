/-! # Columns

Texts are brought to a width, counted in characters; longer texts stay as they are.
-/

namespace TestScheduler.Text

def blanks (n : Nat) : String := String.ofList (List.replicate n ' ')

/-- Blanks before a text up to a width. -/
def padLeft (width : Nat) (s : String) : String := blanks (width - s.length) ++ s

/-- Blanks after a text up to a width. -/
def padRight (width : Nat) (s : String) : String := s ++ blanks (width - s.length)

end TestScheduler.Text

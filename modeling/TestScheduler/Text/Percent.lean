/-! # Percentages

A share is written in percent with one decimal. The share and its hundredfold are each rounded to
53 significant bits, and of two nearest values the even one is taken throughout.
-/

namespace TestScheduler.Text

/-- The quotient rounded to the nearest whole number, a half to the even one. -/
def roundedQuotient (n d : Nat) : Nat :=
  let q := n / d
  let r := n % d
  if 2 * r < d then q
  else if d < 2 * r then q + 1
  else q + q % 2

/-- A quotient rounded to 53 significant bits, again as a quotient. -/
def roundedToBits (n d : Nat) : Nat × Nat :=
  if n = 0 then (0, 1)
  else
    let places : Int := 53 - (n.log2 : Int) + d.log2
    let scaled (places : Int) : Nat × Nat :=
      (n <<< places.toNat, d <<< (-places).toNat)
    let (a, b) := scaled places
    let places := if a / b < 1 <<< 53 then places else places - 1
    let (a, b) := scaled places
    (roundedQuotient a b <<< (-places).toNat, 1 <<< places.toNat)

/-- Tenths of a percent that `part` makes of `whole`. -/
def permille (part whole : Nat) : Nat :=
  if whole = 0 then 0
  else
    let (a, b) := roundedToBits part whole
    let (a, b) := roundedToBits (a * 100) b
    roundedQuotient (a * 10) b

def percent (part whole : Nat) : String :=
  let tenths := permille part whole
  toString (tenths / 10) ++ "." ++ toString (tenths % 10)

end TestScheduler.Text

import TestScheduler.Text.CharTable
import TestScheduler.Text.Numeral

/-! # Timestamps

An instant is a number of seconds since 1970 with a fraction in nanoseconds; a leap second is a
fraction of one second or more. Instants are written in UTC, with as few groups of three fraction
digits as are needed.
-/

namespace TestScheduler

structure Timestamp where
  seconds : Int
  nanoseconds : Nat := 0
  deriving DecidableEq, Repr

namespace Timestamp

/-- The instant that lies a number of milliseconds after the beginning of 1970. -/
def ofMilliseconds (ms : Nat) : Timestamp := ⟨ms / 1000, ms % 1000 * 1000000⟩

/-- The number of days from 1970-01-01 to a date of the proleptic Gregorian calendar. -/
def daysFromDate (year : Int) (month day : Nat) : Int :=
  let y := if month ≤ 2 then year - 1 else year
  let era := y.fdiv 400
  let yearOfEra := y - era * 400
  let dayOfYear : Int := (153 * (if 2 < month then month - 3 else month + 9) + 2) / 5 + day - 1
  let dayOfEra := yearOfEra * 365 + yearOfEra / 4 - yearOfEra / 100 + dayOfYear
  era * 146097 + dayOfEra - 719468

/-- The year, month and day that lie a number of days after 1970-01-01. -/
def dateFromDays (days : Int) : Int × Nat × Nat :=
  let z := days + 719468
  let era := z.fdiv 146097
  let dayOfEra := (z - era * 146097).toNat
  let yearOfEra := (dayOfEra - dayOfEra / 1460 + dayOfEra / 36524 - dayOfEra / 146096) / 365
  let dayOfYear := dayOfEra - (365 * yearOfEra + yearOfEra / 4 - yearOfEra / 100)
  let shifted := (5 * dayOfYear + 2) / 153
  let day := dayOfYear - (153 * shifted + 2) / 5 + 1
  let month := if shifted < 10 then shifted + 3 else shifted - 9
  let year := (yearOfEra : Int) + era * 400
  (if month ≤ 2 then year + 1 else year, month, day)

def isLeapYear (year : Int) : Bool := year % 4 = 0 && (year % 100 ≠ 0 || year % 400 = 0)

def daysInMonth (year : Int) (month : Nat) : Nat :=
  if month = 2 then (if isLeapYear year then 29 else 28)
  else if [4, 6, 9, 11].contains month then 30
  else 31

/-! ## Writing -/

def padded (width n : Nat) : String :=
  let digits := toString n
  String.ofList (List.replicate (width - digits.length) '0') ++ digits

def yearText (year : Int) : String :=
  if 0 ≤ year ∧ year ≤ 9999 then padded 4 year.toNat
  else (if year < 0 then "-" else "+") ++ padded 4 year.natAbs

/-- A fraction of a second in 0, 3, 6 or 9 digits. -/
def fractionText (nanoseconds : Nat) : String :=
  if nanoseconds = 0 then ""
  else if nanoseconds % 1000000 = 0 then "." ++ padded 3 (nanoseconds / 1000000)
  else if nanoseconds % 1000 = 0 then "." ++ padded 6 (nanoseconds / 1000)
  else "." ++ padded 9 nanoseconds

def toText (t : Timestamp) : String :=
  let (year, month, day) := dateFromDays (t.seconds.fdiv 86400)
  let second := (t.seconds.fmod 86400).toNat
  yearText year ++ "-" ++ padded 2 month ++ "-" ++ padded 2 day ++ "T" ++
    padded 2 (second / 3600) ++ ":" ++ padded 2 (second / 60 % 60) ++ ":" ++
    padded 2 (second % 60 + t.nanoseconds / 1000000000) ++
    fractionText (t.nanoseconds % 1000000000) ++ "Z"

/-! ## Reading -/

namespace Reader

def skipBlanks (cs : List Char) : List Char := cs.dropWhile Text.isBlank

/-- A number of at least one and at most `width` digits. -/
def number? (width : Nat) (cs : List Char) : Option (Nat × List Char) :=
  let digits := (cs.take width).takeWhile Char.isDigit
  (Text.number? 10 digits).map fun n => (n, cs.drop digits.length)

/-- A number between two bounds, after blanks. -/
def part? (low high : Nat) (cs : List Char) : Option (Nat × List Char) := do
  let (n, rest) ← number? 2 (skipBlanks cs)
  guard (low ≤ n && n ≤ high)
  some (n, rest)

def year? (cs : List Char) : Option (Int × List Char) :=
  match skipBlanks cs with
  | '-' :: cs => (number? cs.length cs).map fun (n, rest) => (-(n : Int), rest)
  | '+' :: cs => (number? cs.length cs).map fun (n, rest) => ((n : Int), rest)
  | cs => (number? 4 cs).map fun (n, rest) => ((n : Int), rest)

/-- A separator with blanks before it. -/
def mark? (mark : Char) (cs : List Char) : Option (List Char) :=
  match skipBlanks cs with
  | c :: rest => if c = mark then some rest else none
  | [] => none

/-- Nanoseconds after a point; digits beyond the ninth are dropped. -/
def fraction? (cs : List Char) : Option (Nat × List Char) :=
  match cs with
  | '.' :: cs => do
    let (n, rest) ← number? 9 cs
    let read := cs.length - rest.length
    some (n * Nat.pow 10 (9 - read), rest.dropWhile Char.isDigit)
  | cs => some (0, cs)

/-- Minutes east of Greenwich. -/
def offset? (cs : List Char) : Option (Int × List Char) :=
  match cs with
  | 'Z' :: rest => some (0, rest)
  | 'z' :: rest => some (0, rest)
  | sign :: h :: h' :: rest =>
    if ['U', 'u'].contains sign && ['T', 't'].contains h && ['C', 'c'].contains h' then
      some (0, rest)
    else do
      guard (['+', '-', '\u2212'].contains sign)
      guard (h.isDigit && h'.isDigit)
      let (hours, _) ← number? 2 [h, h']
      match rest.dropWhile fun c => c = ':' || Text.isBlank c with
      | m :: m' :: rest =>
        guard (m.isDigit && m'.isDigit)
        let (minutes, _) ← number? 2 [m, m']
        guard (minutes < 60 && hours < 24)
        let total : Int := hours * 60 + minutes
        some (if sign = '+' then total else -total, rest)
      | _ => none
  | _ => none

end Reader

open Reader in
/-- Reads a date and a time of day with their offset from UTC. Blanks may stand before each
part. -/
def ofText? (text : String) : Option Timestamp := do
  let (year, rest) ← year? text.toList
  let (month, rest) ← part? 1 12 (← mark? '-' rest)
  let (day, rest) ← part? 1 31 (← mark? '-' rest)
  guard (day ≤ daysInMonth year month && year.natAbs ≤ 262142)
  let rest ← match rest with
    | c :: rest => if ['T', 't', ' '].contains c then some rest else none
    | [] => none
  let (hour, rest) ← part? 0 23 rest
  let (minute, rest) ← part? 0 59 (← mark? ':' rest)
  let (second, rest) ← part? 0 60 (← mark? ':' rest)
  let (nanoseconds, rest) ← fraction? rest
  let (offset, rest) ← offset? (skipBlanks rest)
  guard (skipBlanks rest).isEmpty
  let leap := second / 60
  some {
    seconds := daysFromDate year month day * 86400 + hour * 3600 + minute * 60 + second - leap -
      offset * 60
    nanoseconds := nanoseconds + leap * 1000000000 }

end Timestamp

end TestScheduler

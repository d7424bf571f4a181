import TestScheduler.Json.Value
import TestScheduler.Json.Printer
import TestScheduler.Text.Split
import TestScheduler.Yaml.Typing

/-! # Writing YAML

Collections are written as blocks, the items of a sequence at the column of its key. A text is
written plain if it then reads as the same text, as a literal block if it has several lines, and
in quotes otherwise.
-/

namespace TestScheduler.Yaml

/-! ## Spellings of other types -/

/-- A whole number with a sign or in another radix, below a bound for the size of its value. -/
def isWholeNumber (s : String) : Bool :=
  match s.toList with
  | '-' :: rest => !isPaddedDigits rest && (unsigned? rest).any (· ≤ Nat.pow 2 127)
  | _ => (natural? s).any (· < Nat.pow 2 128)

/-- The digits before and after the point and the power of ten of a decimal number. -/
def decimal? (cs : List Char) : Option (List Char × List Char × Int) := do
  let whole := cs.takeWhile Char.isDigit
  let rest := cs.dropWhile Char.isDigit
  let (part, rest) := match rest with
    | '.' :: rest => (rest.takeWhile Char.isDigit, rest.dropWhile Char.isDigit)
    | rest => ([], rest)
  guard (!(whole.isEmpty && part.isEmpty))
  match rest with
  | [] => some (whole, part, 0)
  | e :: rest =>
    guard (e = 'e' || e = 'E')
    let (isNegative, digits) := match rest with
      | '-' :: digits => (true, digits)
      | '+' :: digits => (false, digits)
      | digits => (false, digits)
    let power ← Text.number? 10 digits
    some (whole, part, if isNegative then -power else power)

/-- Whether a decimal number is below the largest finite double, half a unit added. -/
def isFinite (whole part : List Char) (power : Int) : Bool :=
  let digits := (whole ++ part).dropWhile (· = '0')
  let exponent : Int := power - part.length
  if digits.isEmpty then true
  else if 310 < digits.length + exponent then false
  else if digits.length + exponent < 300 then true
  else
    let limit := Nat.pow 2 1024 - Nat.pow 2 970
    (Text.number? 10 digits).any fun n =>
      n * Nat.pow 10 exponent.toNat < limit * Nat.pow 10 (-exponent).toNat

def isFloat (s : String) : Bool :=
  let unsigned := match s.toList with
    | '+' :: rest => rest
    | cs => cs
  let digits := match unsigned with
    | '-' :: rest => if s.toList.head? = some '+' then [] else rest
    | '+' :: _ => []
    | cs => cs
  [".inf", ".Inf", ".INF"].contains (String.ofList digits) ||
    [".nan", ".NaN", ".NAN"].contains s ||
    (decimal? digits).any fun (whole, part, power) => isFinite whole part power

/-- Whether a plain text would be taken for something else. -/
def readsAsOther (s : String) : Bool :=
  s = "" || isNullWord s || (truth? s).isSome || isWholeNumber s || isFloat s ||
    isPaddedDigits s.toList

/-! ## Forms of a text -/

/-- Characters written as they are, outside escapes. -/
def isPrintable (c : Char) : Bool :=
  c = '\n' || (' ' ≤ c && c ≤ '~') || ('\xa0' ≤ c && c.toNat ≤ 0xFFFF && c.toNat ≠ 0xFEFF &&
    c.toNat < 0xFFFE)

/-- Whether a text holds two characters in a row. -/
def hasPair (p q : Char → Bool) : List Char → Bool
  | a :: b :: rest => (p a && q b) || hasPair p q (b :: rest)
  | _ => false

/-- Characters that give a text another meaning at its beginning. -/
def isIndicator (c : Char) : Bool :=
  ['#', ',', '[', ']', '\x7b', '\x7d', '&', '*', '!', '|', '>', '\'', '"', '%', '@',
    '\x60'].contains c

def startsWithIndicator : List Char → Bool
  | [] => false
  | c :: rest => isIndicator c || (['?', ':', '-'].contains c && isGap rest)

/-- Whether a colon before a gap or a number sign after one stands inside a text. -/
def holdsIndicator : List Char → Bool
  | c :: d :: rest =>
    (d = ':' && isGap rest) || (d = '#' && isGap [c]) || holdsIndicator (d :: rest)
  | _ => false

def isSpace (c : Char) : Bool := c = ' '

def isPlainAllowed (cs : List Char) : Bool :=
  !(["---".toList, "...".toList].any (·.isPrefixOf cs) || startsWithIndicator cs ||
    holdsIndicator cs || cs.any isBreak || !cs.all isPrintable ||
    cs.head?.any isSpace || cs.getLast?.any isSpace)

def isSingleQuotedAllowed (cs : List Char) : Bool :=
  cs.all isPrintable && !hasPair isSpace isBreak cs && !hasPair isBreak isSpace cs

def isBlockAllowed (cs : List Char) : Bool :=
  !cs.isEmpty && cs.all isPrintable && !hasPair isSpace isBreak cs && !cs.getLast?.any isSpace

def singleQuoted (cs : List Char) : String :=
  String.ofList (['\''] ++ cs.flatMap (fun c => if c = '\'' then ['\'', '\''] else [c]) ++ ['\''])

/-- A number in capital hexadecimal digits. -/
def hexText (width n : Nat) : List Char :=
  let digits := (Nat.toDigits 16 n).map Char.toUpper
  List.replicate (width - digits.length) '0' ++ digits

def escapedChar (c : Char) : List Char :=
  match c with
  | '\x00' => ['\\', '0']
  | '\x07' => ['\\', 'a']
  | '\x08' => ['\\', 'b']
  | '\t' => ['\\', 't']
  | '\n' => ['\\', 'n']
  | '\x0b' => ['\\', 'v']
  | '\x0c' => ['\\', 'f']
  | '\r' => ['\\', 'r']
  | '\x1b' => ['\\', 'e']
  | '"' => ['\\', '"']
  | '\\' => ['\\', '\\']
  | '\x85' => ['\\', 'N']
  | '\u2028' => ['\\', 'L']
  | '\u2029' => ['\\', 'P']
  | c =>
    if isPrintable c then [c]
    else if c.toNat ≤ 0xFF then ['\\', 'x'] ++ hexText 2 c.toNat
    else if c.toNat ≤ 0xFFFF then ['\\', 'u'] ++ hexText 4 c.toNat
    else ['\\', 'U'] ++ hexText 8 c.toNat

def doubleQuoted (cs : List Char) : String :=
  String.ofList (['"'] ++ cs.flatMap escapedChar ++ ['"'])

/-- A text on one line. -/
def inlineText (s : String) : String :=
  let cs := s.toList
  if cs.any isBreak then doubleQuoted cs
  else if !readsAsOther s && isPlainAllowed cs then s
  else if isSingleQuotedAllowed cs then singleQuoted cs
  else doubleQuoted cs

/-- The head of a literal block: a hint where the text begins with white space, and how it ends. -/
def literalHead (cs : List Char) : String :=
  let hint := if cs.head?.any fun c => isSpace c || isBreak c then "2" else ""
  let ending := match cs.reverse with
    | '\n' :: '\n' :: _ => "+"
    | ['\n'] => "+"
    | '\n' :: _ => ""
    | _ => "-"
  "|" ++ hint ++ ending

/-- The lines of a text, the first of which may follow a key. -/
def textLines (s : String) : List String :=
  let cs := s.toList
  if cs.contains '\n' && isBlockAllowed cs then
    let lines := Text.splitOn '\n' cs
    let lines := if cs.getLast? = some '\n' then lines.dropLast else lines
    literalHead cs :: lines.map fun line => String.ofList line
  else if cs.contains '\n' then [doubleQuoted cs]
  else [inlineText s]

/-! ## Collections -/

/-- Whether a key may stand on one line with its value. -/
def isInlineKey (name : String) : Bool := name.utf8ByteSize ≤ 128 && !name.toList.any isBreak

/-- Indents lines that are not empty. -/
def indented (lines : List String) : List String :=
  lines.map fun line => if line = "" then line else "  " ++ line

/-- Puts the first line behind a lead and indents the others. -/
def behind (lead : String) : List String → List String
  | [] => []
  | line :: lines => (lead ++ line) :: indented lines

mutual

def lines : Json → List String
  | .null => ["null"]
  | .boolean b => [if b then "true" else "false"]
  | .integer n => [toString n]
  | .fraction spelling => [spelling]
  | .text s => textLines s
  | .array [] => ["[]"]
  | .array items => itemLines items
  | .object [] => ["\x7b\x7d"]
  | .object members => memberLines members

def itemLines : List Json → List String
  | [] => []
  | j :: js => behind "- " (lines j) ++ itemLines js

def memberLines : List (String × Json) → List String
  | [] => []
  | (name, j) :: members =>
    if isInlineKey name then valueLines (inlineText name ++ ":") j ++ memberLines members
    else behind "? " (textLines name) ++ behind ": " (lines j) ++ memberLines members

/-- The lines of a member whose key has been written. -/
def valueLines (key : String) : Json → List String
  | .array (item :: items) => key :: itemLines (item :: items)
  | .object (member :: members) => key :: indented (memberLines (member :: members))
  | j => behind (key ++ " ") (lines j)

end

/-- The document of a value. -/
def document (j : Json) : String := String.join ((lines j).map (· ++ "\n"))

end TestScheduler.Yaml

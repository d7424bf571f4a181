import TestScheduler.Json.Value

/-! # Writing JSON

The compact form has no blanks. The pretty form puts every item and member on a line of its own,
indented by two blanks per level.
-/

namespace TestScheduler.Json

def hexDigit (n : Nat) : Char := if n < 10 then Char.ofNat (48 + n) else Char.ofNat (87 + n)

def escapeChar (c : Char) : String :=
  match c with
  | '"' => "\\\""
  | '\\' => "\\\\"
  | '\n' => "\\n"
  | '\r' => "\\r"
  | '\t' => "\\t"
  | '\x08' => "\\b"
  | '\x0c' => "\\f"
  | c =>
    if c.toNat < 32 then
      String.ofList ['\\', 'u', '0', '0', hexDigit (c.toNat / 16), hexDigit (c.toNat % 16)]
    else c.toString

def quote (s : String) : String :=
  s.foldl (fun out c => out ++ escapeChar c) "\"" ++ "\""

mutual

def compact : Json → String
  | null => "null"
  | boolean b => if b then "true" else "false"
  | integer n => toString n
  | fraction s => s
  | text s => quote s
  | array items => "[" ++ ",".intercalate (compactEach items) ++ "]"
  | object members => "\x7b" ++ ",".intercalate (compactMembers members) ++ "\x7d"

def compactEach : List Json → List String
  | [] => []
  | j :: js => compact j :: compactEach js

def compactMembers : List (String × Json) → List String
  | [] => []
  | (name, j) :: members => (quote name ++ ":" ++ compact j) :: compactMembers members

end

/-- Puts items on lines of their own between brackets; no items leave the brackets empty. -/
def block (indent opening closing : String) (items : List String) : String :=
  if items.isEmpty then opening ++ closing
  else
    opening ++ "\n" ++ indent ++ "  " ++ (",\n" ++ indent ++ "  ").intercalate items ++
      "\n" ++ indent ++ closing

mutual

def prettyFrom (indent : String) : Json → String
  | array items => block indent "[" "]" (prettyEach (indent ++ "  ") items)
  | object members => block indent "\x7b" "\x7d" (prettyMembers (indent ++ "  ") members)
  | null => "null"
  | boolean b => if b then "true" else "false"
  | integer n => toString n
  | fraction s => s
  | text s => quote s

def prettyEach (indent : String) : List Json → List String
  | [] => []
  | j :: js => prettyFrom indent j :: prettyEach indent js

def prettyMembers (indent : String) : List (String × Json) → List String
  | [] => []
  | (name, j) :: members =>
    (quote name ++ ": " ++ prettyFrom indent j) :: prettyMembers indent members

end

def pretty (j : Json) : String := prettyFrom "" j

end TestScheduler.Json

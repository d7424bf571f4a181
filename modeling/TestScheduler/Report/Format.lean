/-! # Report formats -/

namespace TestScheduler

inductive ReportFormat where
  | table | tree | json | jsonPretty | csv | summary
  deriving DecidableEq, Repr

namespace ReportFormat

def name : ReportFormat → String
  | table => "table"
  | tree => "tree"
  | json => "json"
  | jsonPretty => "json-pretty"
  | csv => "csv"
  | summary => "summary"

def all : List ReportFormat := [table, tree, json, jsonPretty, csv, summary]

/-- The format with a name in any letter case; the hyphen may be left out. -/
def ofName? (word : String) : Option ReportFormat :=
  let word := word.map Char.toLower
  if word = "jsonpretty" then some jsonPretty else all.find? (·.name = word)

def unknownMessage (word : String) : String :=
  "unknown output format '" ++ word ++ "' (expected one of: " ++
    ", ".intercalate (all.map name) ++ ")"

end ReportFormat

end TestScheduler

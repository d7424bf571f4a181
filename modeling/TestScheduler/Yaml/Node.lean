import TestScheduler.Yaml.Token

/-! # YAML nodes

The tokens of a document form one node. An alias stands for the node that last bore its anchor.
-/

namespace TestScheduler.Yaml

inductive Node where
  | scalar (text : String) (isPlain : Bool) (tag : Option String)
  | sequence (items : List Node)
  | mapping (entries : List (Node × Node))
  deriving Repr

namespace Node

/-- What is written where nothing is. -/
def empty : Node := scalar "" true none

abbrev Anchors := List (String × Node)

/-- What was read, the tokens behind it and the anchors known there. -/
abbrev Step (α : Type) := α × List Token × Anchors

/-- Where a node may stand: block collections may begin in a block, and below the key of a block
mapping entries of a sequence may also stand at the column of the key. -/
inductive Place where
  | flow | block | blockMapping
  deriving DecidableEq

def isIn (stops : List Token) : List Token → Bool
  | [] => true
  | t :: _ => stops.contains t

/-- The anchor and the tag before a node, each at most once. -/
def properties (anchor tag : Option String) :
    List Token → Option String × Option String × List Token
  | .anchor name :: ts =>
    if anchor.isNone then properties (some name) tag ts else (anchor, tag, .anchor name :: ts)
  | .tag text :: ts =>
    if tag.isNone then properties anchor (some text) ts else (anchor, tag, .tag text :: ts)
  | ts => (anchor, tag, ts)

mutual

def read (place : Place) : Nat → List Token → Anchors → Option (Step Node)
  | 0, _, _ => none
  | fuel + 1, ts, known =>
    match ts with
    | .alias name :: rest => do some (← known.lookup name, rest, known)
    | _ => do
      let (anchor, tag, rest) := properties none none ts
      let (node, rest, known) ← readContent place fuel tag (anchor.isSome || tag.isSome) rest known
      match anchor with
      | some name => some (node, rest, (name, node) :: known)
      | none => some (node, rest, known)

def readContent (place : Place) :
    Nat → Option String → Bool → List Token → Anchors → Option (Step Node)
  | 0, _, _, _, _ => none
  | fuel + 1, tag, hasProperties, ts, known =>
    match ts with
    | .scalar text isPlain :: rest => some (scalar text isPlain tag, rest, known)
    | .flowSequenceStart :: rest => do
      let (items, rest, known) ← flowItems fuel true rest known
      some (sequence items, rest, known)
    | .flowMappingStart :: rest => do
      let (entries, rest, known) ← flowEntries fuel true rest known
      some (mapping entries, rest, known)
    | .blockSequenceStart :: rest =>
      if place = .flow then none
      else do
        let (items, rest, known) ← blockItems false fuel rest known
        some (sequence items, rest, known)
    | .blockMappingStart :: rest =>
      if place = .flow then none
      else do
        let (entries, rest, known) ← blockEntries fuel rest known
        some (mapping entries, rest, known)
    | ts =>
      if place = .blockMapping && ts.head? = some .blockEntry then do
        let (items, rest, known) ← blockItems true fuel ts known
        some (sequence items, rest, known)
      else if hasProperties then some (scalar "" true tag, ts, known)
      else none

/-- A node, or an empty scalar before one of some tokens. -/
def readUnless (place : Place) (stops : List Token) :
    Nat → List Token → Anchors → Option (Step Node)
  | 0, _, _ => none
  | fuel + 1, ts, known =>
    if isIn stops ts then some (empty, ts, known) else read place fuel ts known

/-- The items of a block sequence. One at the column of its key has no closing token. -/
def blockItems (isOpen : Bool) : Nat → List Token → Anchors → Option (Step (List Node))
  | 0, _, _ => none
  | fuel + 1, ts, known =>
    match ts with
    | .blockEntry :: rest => do
      let stops : List Token :=
        if isOpen then [.blockEntry, .key, .value, .blockEnd] else [.blockEntry, .blockEnd]
      let (item, rest, known) ← readUnless .block stops fuel rest known
      let (items, rest, known) ← blockItems isOpen fuel rest known
      some (item :: items, rest, known)
    | ts =>
      if isOpen then some ([], ts, known)
      else
        match ts with
        | .blockEnd :: rest => some ([], rest, known)
        | _ => none

def blockEntries : Nat → List Token → Anchors → Option (Step (List (Node × Node)))
  | 0, _, _ => none
  | fuel + 1, ts, known =>
    match ts with
    | .blockEnd :: rest => some ([], rest, known)
    | .key :: rest => do
      let stops : List Token := [.key, .value, .blockEnd]
      let (key, rest, known) ← readUnless .blockMapping stops fuel rest known
      let (value, rest, known) ← match rest with
        | .value :: rest => readUnless .blockMapping stops fuel rest known
        | rest => some (empty, rest, known)
      let (entries, rest, known) ← blockEntries fuel rest known
      some ((key, value) :: entries, rest, known)
    | _ => none

def flowItems : Nat → Bool → List Token → Anchors → Option (Step (List Node))
  | 0, _, _, _ => none
  | fuel + 1, isFirst, ts, known =>
    match ts with
    | .flowSequenceEnd :: rest => some ([], rest, known)
    | _ => do
      let ts ← if isFirst then some ts else
        match ts with
        | .flowEntry :: rest => some rest
        | _ => none
      match ts with
      | .flowSequenceEnd :: rest => some ([], rest, known)
      | .key :: rest => do
        let (key, rest, known) ←
          readUnless .flow [.value, .flowEntry, .flowSequenceEnd] fuel rest known
        let (value, rest, known) ← match rest with
          | .value :: rest => readUnless .flow [.flowEntry, .flowSequenceEnd] fuel rest known
          | rest => some (empty, rest, known)
        let (items, rest, known) ← flowItems fuel false rest known
        some (mapping [(key, value)] :: items, rest, known)
      | ts => do
        let (item, rest, known) ← read .flow fuel ts known
        let (items, rest, known) ← flowItems fuel false rest known
        some (item :: items, rest, known)

def flowEntries : Nat → Bool → List Token → Anchors → Option (Step (List (Node × Node)))
  | 0, _, _, _ => none
  | fuel + 1, isFirst, ts, known =>
    match ts with
    | .flowMappingEnd :: rest => some ([], rest, known)
    | _ => do
      let ts ← if isFirst then some ts else
        match ts with
        | .flowEntry :: rest => some rest
        | _ => none
      match ts with
      | .flowMappingEnd :: rest => some ([], rest, known)
      | .key :: rest => do
        let (key, rest, known) ←
          readUnless .flow [.value, .flowEntry, .flowMappingEnd] fuel rest known
        let (value, rest, known) ← match rest with
          | .value :: rest => readUnless .flow [.flowEntry, .flowMappingEnd] fuel rest known
          | rest => some (empty, rest, known)
        let (entries, rest, known) ← flowEntries fuel false rest known
        some ((key, value) :: entries, rest, known)
      | ts => do
        let (key, rest, known) ← read .flow fuel ts known
        let (entries, rest, known) ← flowEntries fuel false rest known
        some ((key, empty) :: entries, rest, known)

end

/-- The node of a document. There must be no second document. -/
def ofTokens? (ts : List Token) : Option Node := do
  let ts := ts.dropWhile (· = .documentEnd)
  let isExplicit := isIn [.directive, .documentStart] ts && !ts.isEmpty
  let body := ts.dropWhile (· = .directive)
  let body ← if isExplicit then
      match body with
      | .documentStart :: rest => some rest
      | _ => none
    else some body
  let fuel := 4 * ts.length + 4
  let (node, rest, _) ←
    readUnless .block [.directive, .documentStart, .documentEnd] fuel body []
  guard (rest.dropWhile (· = .documentEnd)).isEmpty
  some node

def ofText? (text : String) : Option Node := do ofTokens? (← Token.ofText? text)

end Node

end TestScheduler.Yaml

import TestScheduler.Files.Path
import TestScheduler.Text.Dictionary

/-! # File stores

A file store holds the texts of files; relative paths start at its working directory. A path is
walked step by step, and every step but the last must lead to a directory. A directory is there
once it is made or holds files.
-/

namespace TestScheduler

inductive FileError where
  | notFound
  | notADirectory
  | isADirectory
  | alreadyPresent
  | other (text : String)
  deriving DecidableEq, Repr

def FileError.message : FileError → String
  | notFound => "No such file or directory (os error 2)"
  | notADirectory => "Not a directory (os error 20)"
  | isADirectory => "Is a directory (os error 21)"
  | alreadyPresent => "File exists (os error 17)"
  | other text => text

structure FileStore where
  /-- The texts of the files, by their steps joined with slashes. -/
  files : Dictionary String := {}
  /-- Directories that have been made, in the same form. -/
  directories : List String := []
  deriving DecidableEq

namespace FileStore

/-- What stands at a place in the store. -/
inductive Entry where
  | file (text : String)
  | directory
  | nothing
  deriving DecidableEq

def key (steps : List String) : String := "/".intercalate steps

def entry (s : FileStore) (steps : List String) : Entry :=
  if steps.isEmpty || steps = [""] || s.directories.contains (key steps) then .directory
  else
    match s.files.get? (key steps) with
    | some text => .file text
    | none =>
      if s.files.entries.any fun (name, _) => (key steps ++ "/").toList.isPrefixOf name.toList then
        .directory
      else .nothing

/-- The empty step that leads to the root of all paths. -/
def root : List String := [""]

/-- Where the walk along a path begins. -/
def start (path : String) : List String := if Path.isAbsolute path then root else []

/-- Takes one step after those already taken, which are given last first. -/
def step (s : FileStore) (taken : List String) (part : String) :
    Except FileError (List String) :=
  match s.entry taken.reverse with
  | .file _ => .error .notADirectory
  | .nothing => .error .notFound
  | .directory =>
    if !Path.isStep part then .ok taken
    else if part = ".." then
      match taken with
      | [] => .error .notFound
      | [_] => .ok (if taken = root then root else [])
      | _ :: taken => .ok taken
    else .ok (part :: taken)

/-- The steps to the place that a path names. -/
def walk (s : FileStore) (path : String) : Except FileError (List String) := do
  if path = "" then .error .notFound
  else .ok (← (Path.parts path).foldlM s.step (start path)).reverse

def read (s : FileStore) (path : String) : Except FileError String := do
  match s.entry (← s.walk path) with
  | .file text => .ok text
  | .directory => .error .isADirectory
  | .nothing => .error .notFound

def isPresent (s : FileStore) (path : String) : Bool :=
  match s.walk path with
  | .ok steps => s.entry steps ≠ .nothing
  | .error _ => false

/-- Writes a file in a directory that is there. -/
def write (s : FileStore) (path text : String) : Except FileError FileStore := do
  let steps ← s.walk path
  match s.entry steps with
  | .directory => .error .isADirectory
  | _ => .ok { s with files := s.files.insert (key steps) text }

/-- Takes one step, making a directory where nothing is. -/
def stepMaking (s : FileStore) (taken : List String) (part : String) :
    Except FileError (FileStore × List String) := do
  let taken ← s.step taken part
  match s.entry taken.reverse with
  | .nothing => .ok ({ s with directories := key taken.reverse :: s.directories }, taken)
  | _ => .ok (s, taken)

/-- Makes a directory, and those above it that are missing. -/
def makeDirectory (s : FileStore) (path : String) : Except FileError FileStore := do
  let (s, taken) ← (Path.parts path).foldlM (fun (s, taken) part => s.stepMaking taken part)
    (s, start path)
  match s.entry taken.reverse with
  | .file _ => .error .alreadyPresent
  | _ => .ok s

end FileStore

end TestScheduler

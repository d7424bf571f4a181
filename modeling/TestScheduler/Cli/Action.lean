import TestScheduler.Files.Store

/-! # Actions

An action says step by step what a program reads, writes and prints, and how it goes on. It can be
carried out on a file store or on the files of a computer.
-/

namespace TestScheduler

inductive Action (α : Type) where
  | done (result : α)
  | readFile (path : String) (next : Except FileError String → Action α)
  | isPresent (path : String) (next : Bool → Action α)
  | makeDirectory (path : String) (next : Except FileError Unit → Action α)
  | writeFile (path text : String) (next : Except FileError Unit → Action α)
  | print (text : String) (next : Unit → Action α)

namespace Action

def bind (a : Action α) (f : α → Action β) : Action β :=
  match a with
  | done result => f result
  | readFile path next => readFile path fun answer => (next answer).bind f
  | isPresent path next => isPresent path fun answer => (next answer).bind f
  | makeDirectory path next => makeDirectory path fun answer => (next answer).bind f
  | writeFile path text next => writeFile path text fun answer => (next answer).bind f
  | print text next => print text fun answer => (next answer).bind f

instance : Monad Action where
  pure := done
  bind := bind

def read (path : String) : Action (Except FileError String) := readFile path done

def test (path : String) : Action Bool := isPresent path done

def make (path : String) : Action (Except FileError Unit) := makeDirectory path done

def write (path text : String) : Action (Except FileError Unit) := writeFile path text done

def say (text : String) : Action Unit := print text done

/-- Carries an action out on a file store, and collects what it prints. -/
def runOn (a : Action α) (files : FileStore) (printed : String) : α × FileStore × String :=
  match a with
  | done result => (result, files, printed)
  | readFile path next => (next (files.read path)).runOn files printed
  | isPresent path next => (next (files.isPresent path)).runOn files printed
  | makeDirectory path next =>
    match files.makeDirectory path with
    | .ok files => (next (.ok ())).runOn files printed
    | .error e => (next (.error e)).runOn files printed
  | writeFile path text next =>
    match files.write path text with
    | .ok files => (next (.ok ())).runOn files printed
    | .error e => (next (.error e)).runOn files printed
  | print text next => (next ()).runOn files (printed ++ text)

end Action

end TestScheduler

import StagedBuild.Supervision
import StagedBuild.World.Program

/-! The state that a build works on: files, what is left to read, and a record of what happened. -/
namespace StagedBuild

structure Call where
  location : Location
  arguments : List String
  deriving DecidableEq, Repr

/-- What the machine has a say in: the home directory on record for the user, why the end of a command
cannot be learned, and what a command that gets killed has written to its file by then. -/
structure Machine where
  home : Option String := none
  lost : Task → Option Fault := fun _ => none
  cut : Task → Option ByteArray := fun _ => none

structure Session where
  store : Store
  machine : Machine := {}
  searchPath : List String := []
  input : ByteArray := .empty
  output : ByteArray := .empty
  started : List Task := []
  calls : List Call := []
  events : List Event := []

namespace Session

def log (s : Session) (events : List Event) : Session := { s with events := s.events ++ events }

def start (s : Session) (task : Task) : Except Fault Program :=
  s.store.start s.searchPath task.invocation

def inputAfter (input : ByteArray) : List Outcome → ByteArray
  | [] => input
  | first :: _ => if first.taken then .empty else input

def storeAfter (store : Store) (outcomes : List Outcome) : Store :=
  match outcomes.getLast? with
  | some last => last.store
  | none => store

def writtenBy (outcomes : List Outcome) : ByteArray :=
  match outcomes.getLast? with
  | some last => last.written
  | none => .empty

def after (s : Session) (programs : List Program) : Session :=
  let outcomes := flow s.store s.input programs
  { s with
    store := storeAfter s.store outcomes
    input := inputAfter s.input outcomes
    output := s.output ++ writtenBy outcomes
    calls := s.calls ++ programs.map fun p => ⟨p.location, p.arguments⟩ }

end Session

end StagedBuild

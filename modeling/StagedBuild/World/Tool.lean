import StagedBuild.Status

/-! Tools: programs whose whole behaviour is written down. What one does depends on its arguments and
its input alone. -/
namespace StagedBuild

inductive Intake where
  | leave
  | drain
  | copy
  deriving DecidableEq, Repr

inductive Sink where
  | file
  | stream
  deriving DecidableEq, Repr

structure Behaviour where
  intake : Intake := .leave
  sink : Sink := .stream
  text : ByteArray := .empty
  zeros : Nat := 0
  signal : Option Nat := none
  exit : UInt8 := 0

structure Tool where
  cases : List (String × Behaviour) := []
  usual : Behaviour := {}

def Tool.behaviour (t : Tool) (arguments : List String) : Behaviour :=
  match t.cases.find? fun (word, _) => arguments.contains word with
  | some (_, behaviour) => behaviour
  | none => t.usual

def lastOutput? : List String → Option String
  | [] => none
  | [_] => none
  | a :: b :: rest =>
    match lastOutput? (b :: rest) with
    | some value => some value
    | none => if a = "-o" then some b else none

def harmlessSignals : List Nat := [17, 18, 19, 20, 21, 22, 23, 28]

def isFatal (signal : Nat) : Bool :=
  1 ≤ signal && signal ≤ 64 && !harmlessSignals.contains signal

def Behaviour.status (b : Behaviour) : Status :=
  match b.signal with
  | some signal => if isFatal signal then .killed signal else .exited b.exit
  | none => .exited b.exit

end StagedBuild

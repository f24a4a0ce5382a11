import StagedBuild.Plan
import StagedBuild.World.Store

/-! Programs: a tool of a store, called with arguments. -/
namespace StagedBuild

structure Program where
  location : Location
  tool : Tool
  arguments : List String

namespace Store

def executable (s : Store) (path : String) : Except Fault (Location × Tool) :=
  match s.find path with
  | .error fault => .error fault
  | .ok (l, .tool tool) => .ok (l, tool)
  | .ok (_, .file _ true) => .error .badFormat
  | .ok (_, _) => .error .noAccess

def search (s : Store) (name : String) : Fault → List String → Except Fault (Location × Tool)
  | fault, [] => .error fault
  | fault, directory :: rest =>
    match s.executable (Path.join directory name) with
    | .ok found => .ok found
    | .error next =>
      -- A place without permission is remembered, and decides if no other directory has the name.
      if next = .noAccess then s.search name .noAccess rest
      else if next = .noEntry ∨ next = .notDirectory then
        s.search name (if fault = .noAccess then fault else next) rest
      else .error next

def lookUp (s : Store) (searchPath : List String) (name : String) : Except Fault (Location × Tool) :=
  if name = "" then .error .noEntry
  else if name.toList.contains '/' then s.executable name
  else s.search name .noEntry searchPath

def start (s : Store) (searchPath : List String) (i : Invocation) : Except Fault Program :=
  if (i.program :: i.arguments).any hasNul then .error .nulInCommand
  else match s.lookUp searchPath i.program with
    | .error fault => .error fault
    | .ok (l, tool) => .ok ⟨l, tool, i.arguments⟩

end Store

structure Outcome where
  store : Store
  taken : Bool
  written : ByteArray
  status : Status

def pipeCapacity : Nat := 65536

def zeroBytes (n : Nat) : ByteArray := ⟨Array.replicate n 0⟩

namespace Program

def behaviour (p : Program) : Behaviour := p.tool.behaviour p.arguments

def target (p : Program) : String := (lastOutput? p.arguments).getD ""

def content (p : Program) (input : ByteArray) : ByteArray :=
  if p.behaviour.intake = .copy then p.behaviour.text ++ input else p.behaviour.text

def passes (heeded : Bool) (bytes : Nat) : Bool := heeded || bytes ≤ pipeCapacity

def finish (p : Program) (heeded : Bool) (store : Store) (taken : Bool) (written : ByteArray) :
    Outcome :=
  let zeros := p.behaviour.zeros
  if 0 < zeros ∧ ¬ passes heeded (written.size + zeros) then
    ⟨store, taken, written, .exited (UInt8.ofNat (128 + Status.pipeSignal))⟩
  else ⟨store, taken, written ++ zeroBytes zeros, p.behaviour.status⟩

/-- Runs a program on an input. It is heeded if the reader of its output reads to the end. A text that
does not go through kills it; a copy of the input that does not is given up. -/
def run (p : Program) (store : Store) (input : ByteArray) (heeded : Bool) : Outcome :=
  let drained := p.behaviour.intake = .drain
  match p.behaviour.sink with
  | .file =>
    match store.write p.target (p.content input) with
    | .ok store => p.finish heeded store (p.behaviour.intake != .leave) .empty
    | .error _ => p.finish heeded store drained .empty
  | .stream =>
    let taken := p.behaviour.intake != .leave
    if passes heeded p.behaviour.text.size then p.finish heeded store taken (p.content input)
    else ⟨store, taken, p.behaviour.text, .killed Status.pipeSignal⟩

def heeds (p : Program) (store : Store) (heeded : Bool) : Bool :=
  match p.behaviour.intake, p.behaviour.sink with
  | .leave, _ => false
  | .drain, _ => true
  | .copy, .file => store.canWrite p.target
  | .copy, .stream => heeded

end Program

def heeded (store : Store) : List Program → Bool
  | [] => true
  | p :: rest => p.heeds store (heeded store rest)

def flow (store : Store) (input : ByteArray) : List Program → List Outcome
  | [] => []
  | p :: rest =>
    let outcome := p.run store input (heeded store rest)
    outcome :: flow outcome.store outcome.written rest

end StagedBuild

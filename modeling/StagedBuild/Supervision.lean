import StagedBuild.Event

/-! Starting the members of a pipe, waiting for them, and telling which of them is to blame if it
fails. What becomes of each member is given beforehand. -/
namespace StagedBuild

/-- What becomes of a member: it cannot be started, how it ended cannot be learned, or it ended. -/
inductive Fate where
  | refused (fault : Fault)
  | lost (fault : Fault)
  | ended (status : Status)
  deriving DecidableEq, Repr

structure Member where
  task : Task
  fate : Fate
  deriving DecidableEq, Repr

inductive Deed where
  | joined (position : Nat)
  | started (position : Nat)
  | killed (position : Nat)
  | waited (position : Nat)
  deriving DecidableEq, Repr

structure Child where
  member : Member
  outlet : Bool
  deriving DecidableEq, Repr

structure Supervised where
  result : Except Failure Unit
  deeds : List Deed
  events : List Event

/-- The position of the member to blame: the first that failed, but not one whose reader had gone if
a later one failed too. -/
def blamed? : List Status → Option Nat
  | [] => none
  | s :: rest =>
    if s.succeeded then (blamed? rest).map (· + 1)
    else match blamed? rest with
      | some later => if s.brokenPipe then some (later + 1) else some 0
      | none => some 0

def verdict (task : Task) (status : Status) : Except Failure Unit :=
  if status.succeeded then .ok ()
  else .error (.stageFailed task.stage task.invocation.program status.code)

namespace Supervision

def takeOutlet : List Child → Option (List Child)
  | [] => some []
  | [child] => if child.outlet then some [{ child with outlet := false }] else none
  | child :: rest => (takeOutlet rest).map (child :: ·)

def joinDeed (children : List Child) : List Deed :=
  if children.isEmpty then [] else [.joined children.length]

structure Launch where
  children : List Child
  failure : Option Failure
  deeds : List Deed
  events : List Event

def launch (children : List Child) : List Member → Launch
  | [] => ⟨children, none, [], []⟩
  | m :: rest =>
    match takeOutlet children with
    | none => ⟨children, some (.disconnected m.task.stage), [], [.startingPiped m.task]⟩
    | some joined =>
      match m.fate with
      | .refused fault =>
        ⟨joined, some (.cannotStart m.task.stage m.task.invocation.program fault),
          joinDeed joined, [.startingPiped m.task]⟩
      | _ =>
        let later := launch (joined ++ [⟨m, !rest.isEmpty⟩]) rest
        { later with
          deeds := joinDeed joined ++ .started joined.length :: later.deeds
          events := .startingPiped m.task :: later.events }

def abortDeeds : Nat → List Child → List Deed
  | _, [] => []
  | n, _ :: rest => .killed n :: .waited n :: abortDeeds (n + 1) rest

def waitDeeds : Nat → List Child → List Deed
  | _, [] => []
  | n, _ :: rest => .waited n :: waitDeeds (n + 1) rest

def statuses : List Child → Except Failure (List Status)
  | [] => .ok []
  | child :: rest =>
    match child.member.fate with
    | .ended status => (statuses rest).map (status :: ·)
    | .lost fault | .refused fault =>
      .error (.cannotWait child.member.task.stage child.member.task.invocation.program fault)

def judge (tasks : List Task) (statuses : List Status) : Except Failure Unit × List Event :=
  match blamed? statuses with
  | none => (.ok (), [])
  | some n => match tasks[n]?, statuses[n]? with
    | some task, some status => (verdict task status, [.exited task.stage status])
    | _, _ => (.ok (), [])

end Supervision

open Supervision in
def supervise (members : List Member) : Supervised :=
  let launched := launch [] members
  match launched.failure with
  | some failure =>
    ⟨.error failure, launched.deeds ++ abortDeeds 0 launched.children, launched.events⟩
  | none =>
    let deeds := launched.deeds ++ waitDeeds 0 launched.children
    match statuses launched.children with
    | .error failure => ⟨.error failure, deeds, launched.events⟩
    | .ok statuses =>
      let (result, events) := judge (members.map Member.task) statuses
      ⟨result, deeds, launched.events ++ events⟩

end StagedBuild

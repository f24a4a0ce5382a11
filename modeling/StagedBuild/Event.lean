import StagedBuild.Failure
import StagedBuild.Status

/-! What a build reports while it runs, and how it is written in a log. -/
namespace StagedBuild

inductive Level where
  | error
  | warn
  | info
  | debug
  | trace
  deriving DecidableEq, Repr

namespace Level

def label : Level → String
  | .error => "ERROR"
  | .warn => "WARN"
  | .info => "INFO"
  | .debug => "DEBUG"
  | .trace => "TRACE"

def rank : Level → Nat
  | .error => 1
  | .warn => 2
  | .info => 3
  | .debug => 4
  | .trace => 5

end Level

inductive Event where
  | notice (n : Notice)
  | planned (shape : Shape) (input output : Option String) (processes : Nat)
  | executing (shape : Shape) (steps : Nat)
  | starting (task : Task)
  | startingPiped (task : Task)
  | exited (stage : Stage) (status : Status)
  | removed (path : String)
  | notRemoved (path : String) (fault : Fault)
  | settingsIgnored (error : SettingsError)
  deriving DecidableEq, Repr

namespace Event

def level : Event → Level
  | .notice _ => .warn
  | .planned .. => .debug
  | .executing .. => .debug
  | .starting _ => .debug
  | .startingPiped _ => .debug
  | .exited .. => .trace
  | .removed _ => .debug
  | .notRemoved .. => .warn
  | .settingsIgnored _ => .warn

def target : Event → String
  | .notice _ => "precc::driver"
  | .planned .. => "precc::driver"
  | .executing .. => "precc::exec::runner"
  | .starting _ => "precc::exec::runner"
  | .startingPiped _ => "precc::exec::runner"
  | .exited .. => "precc::exec::runner"
  | .removed _ => "precc::exec::runner"
  | .notRemoved .. => "precc::exec::runner"
  | .settingsIgnored _ => "precc"

def bracedCode (c : Char) : List Char :=
  "\\u\x7b".toList ++ Nat.toDigits 16 c.toNat ++ "\x7d".toList

def spelledOut (c : Char) : List Char :=
  if c = '\x1b' then "\\x1b".toList
  else if c = '\x07' then "\\x07".toList
  else if c = '\x08' then "\\x08".toList
  else if c = '\x0c' then "\\x0c".toList
  else if c = '\x7f' then "\\x7f".toList
  else if 0x80 ≤ c.toNat ∧ c.toNat ≤ 0x9f then bracedCode c
  else [c]

def quotedCharacter (c : Char) : List Char :=
  if c = '"' ∨ c = '\\' then ['\\', c]
  else if c = '\n' then ['\\', 'n']
  else if c = '\r' then ['\\', 'r']
  else if c = '\t' then ['\\', 't']
  else if c = '\x00' then ['\\', '0']
  else if c.toNat < 0x20 ∨ c.toNat = 0x7f then bracedCode c
  else [c]

def quoted (s : String) : String := "\"" ++ String.ofList (s.toList.flatMap quotedCharacter) ++ "\""

def quotedOption : Option String → String
  | some s => "Some(" ++ quoted s ++ ")"
  | none => "None"

def message : Event → String
  | .notice n => n.message
  | .planned .. => "Planned build"
  | .executing .. => "Executing build plan"
  | .starting _ => "Spawning"
  | .startingPiped _ => "Spawning piped stage"
  | .exited .. => "Stage exited"
  | .removed _ => "Removed incomplete output"
  | .notRemoved .. => "Failed to remove incomplete output"
  | .settingsIgnored _ => "Ignoring config for pass-through invocation, using defaults"

def values : Event → List (String × String)
  | .notice _ => []
  | .planned shape input output processes =>
    [ ("shape", shape.label), ("input", quotedOption input), ("output", quotedOption output),
      ("processes", toString processes) ]
  | .executing shape steps => [("shape", shape.label), ("steps", toString steps)]
  | .starting task => [("stage", task.stage.label), ("command", task.invocation.text)]
  | .startingPiped task => [("stage", task.stage.label), ("command", task.invocation.text)]
  | .exited stage status => [("stage", stage.label), ("status", status.text)]
  | .removed path => [("path", path)]
  | .notRemoved path fault => [("path", path), ("error", fault.message)]
  | .settingsIgnored error => [("error", error.message)]

def valueNames (e : Event) : List String := "message" :: e.values.map Prod.fst

def lineWith (e : Event) (message : String) : String :=
  e.level.label ++ " " ++ e.target ++ ": " ++ message ++
    String.join (e.values.map fun (name, value) => " " ++ name ++ "=" ++ value)

def line (e : Event) : String := e.lineWith e.message

def terminalLine (e : Event) : String :=
  e.lineWith (String.ofList (e.message.toList.flatMap spelledOut))

end Event

end StagedBuild

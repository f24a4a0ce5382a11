/-! How a process ended, as the system reports it: thirty-two bits of which the lowest seven are zero
after an exit and otherwise the number of a signal. -/
namespace StagedBuild

structure Status where
  raw : Int32
  deriving DecidableEq, Repr

namespace Status

def bits (s : Status) : Nat := s.raw.toUInt32.toNat

def signalBits (s : Status) : Nat := s.bits % 128

def exitBits (s : Status) : Nat := s.bits / 256 % 256

def dumpedCore (s : Status) : Bool := s.bits / 128 % 2 == 1

def ofInt (n : Int) : Status := ⟨Int32.ofInt n⟩

def exited (code : UInt8) : Status := ofInt (code.toNat * 256)

def killed (signal : Nat) : Status := ofInt signal

def exitCode? (s : Status) : Option Nat := if s.signalBits = 0 then some s.exitBits else none

def signal? (s : Status) : Option Nat :=
  -- All seven bits set mean that the process has not ended.
  if s.signalBits = 0 ∨ s.signalBits = 127 then none else some s.signalBits

def succeeded (s : Status) : Bool := s.bits == 0

def code (s : Status) : Nat :=
  match s.exitCode? with
  | some code => code
  | none => match s.signal? with
    | some signal => 128 + signal
    | none => 1

def pipeSignal : Nat := 13

def brokenPipe (s : Status) : Bool := s.code == 128 + pipeSignal

def signalName? : Nat → Option String
  | 1 => some "SIGHUP"
  | 2 => some "SIGINT"
  | 3 => some "SIGQUIT"
  | 4 => some "SIGILL"
  | 5 => some "SIGTRAP"
  | 6 => some "SIGABRT"
  | 7 => some "SIGBUS"
  | 8 => some "SIGFPE"
  | 9 => some "SIGKILL"
  | 10 => some "SIGUSR1"
  | 11 => some "SIGSEGV"
  | 12 => some "SIGUSR2"
  | 13 => some "SIGPIPE"
  | 14 => some "SIGALRM"
  | 15 => some "SIGTERM"
  | 16 => some "SIGSTKFLT"
  | 17 => some "SIGCHLD"
  | 18 => some "SIGCONT"
  | 19 => some "SIGSTOP"
  | 20 => some "SIGTSTP"
  | 21 => some "SIGTTIN"
  | 22 => some "SIGTTOU"
  | 23 => some "SIGURG"
  | 24 => some "SIGXCPU"
  | 25 => some "SIGXFSZ"
  | 26 => some "SIGVTALRM"
  | 27 => some "SIGPROF"
  | 28 => some "SIGWINCH"
  | 29 => some "SIGIO"
  | 30 => some "SIGPWR"
  | 31 => some "SIGSYS"
  | _ => none

def signalText (signal : Nat) : String :=
  match signalName? signal with
  | some name => toString signal ++ " (" ++ name ++ ")"
  | none => toString signal

def text (s : Status) : String :=
  match s.exitCode? with
  | some code => "exit status: " ++ toString code
  | none => match s.signal? with
    | some signal =>
      "signal: " ++ signalText signal ++ (if s.dumpedCore then " (core dumped)" else "")
    | none =>
      if s.bits % 256 = 127 then "stopped (not terminated) by signal: " ++ signalText s.exitBits
      else "continued (WIFCONTINUED)"

end Status

end StagedBuild

import StagedBuild.Request
import StagedBuild.Settings

/-! Putting together the arguments of a command. -/
namespace StagedBuild

structure Assembly where
  words : List String := []
  deriving DecidableEq, Repr

namespace Assembly

def empty : Assembly := {}

def ofPassthrough (r : Request) : Assembly := ⟨r.passthrough⟩

def irFlags (a : Assembly) (s : Settings) : Assembly := ⟨a.words ++ s.compile.irFlags⟩

def optimizer (a : Assembly) (s : Settings) : Assembly :=
  let stats := if s.optimizer.stats then a.words ++ ["-stats"] else a.words
  ⟨stats ++ ["-load", s.optimizer.plugin] ++ s.optimizer.passes.map ("-" ++ ·)⟩

def codegen (a : Assembly) (s : Settings) : Assembly :=
  ⟨a.words ++ ["-filetype=" ++ s.codegen.filetype]⟩

def input (a : Assembly) : Option String → Assembly
  | some word => ⟨a.words ++ [word]⟩
  | none => a

def output (a : Assembly) (path : String) : Assembly := ⟨a.words ++ ["-o", path]⟩

def standardOutput (a : Assembly) : Assembly := a.output "-"

def extra (a : Assembly) (words : List String) : Assembly := ⟨a.words ++ words⟩

end Assembly

inductive Addition where
  | irFlags (settings : Settings)
  | optimizer (settings : Settings)
  | codegen (settings : Settings)
  | input (word : Option String)
  | output (path : String)
  | standardOutput
  | extra (words : List String)
  deriving DecidableEq, Repr

namespace Assembly

def add (a : Assembly) : Addition → Assembly
  | .irFlags settings => a.irFlags settings
  | .optimizer settings => a.optimizer settings
  | .codegen settings => a.codegen settings
  | .input word => a.input word
  | .output path => a.output path
  | .standardOutput => a.standardOutput
  | .extra words => a.extra words

def states (a : Assembly) : List Addition → List (List String)
  | [] => [a.words]
  | addition :: rest => a.words :: states (a.add addition) rest

end Assembly

end StagedBuild

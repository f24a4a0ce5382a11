import StagedBuild.Settings
import StagedBuild.Text.WhiteSpace

/-! Which settings can be used. Of several violations the first in reading order is reported. -/
namespace StagedBuild

inductive ToolKey where
  | cc
  | opt
  | llc
  deriving DecidableEq, Repr

def ToolKey.label : ToolKey → String
  | .cc => "toolchain.cc"
  | .opt => "toolchain.opt"
  | .llc => "toolchain.llc"

inductive Violation where
  | blankTool (key : ToolKey)
  | emptyPass
  | dashedPass (name : String)
  | emptyFiletype
  deriving DecidableEq, Repr

def Violation.message : Violation → String
  | .blankTool key => key.label ++ " must not be empty"
  | .emptyPass => "optimizer.passes must not contain empty names"
  | .dashedPass name => "Pass '" ++ name ++ "' must be given without a leading '-'"
  | .emptyFiletype => "codegen.filetype must not be empty"

def toolViolation? (key : ToolKey) (program : String) : Option Violation :=
  if isBlankText program then some (.blankTool key) else none

def passViolation? (name : String) : Option Violation :=
  match name.toList with
  | [] => some .emptyPass
  | c :: _ => if c = '-' then some (.dashedPass name) else none

def filetypeViolation? (filetype : String) : Option Violation :=
  if filetype = "" then some .emptyFiletype else none

def Settings.violation? (s : Settings) : Option Violation :=
  (toolViolation? .cc s.toolchain.cc).or <|
  (toolViolation? .opt s.toolchain.opt).or <|
  (toolViolation? .llc s.toolchain.llc).or <|
  (s.optimizer.passes.findSome? passViolation?).or <|
  filetypeViolation? s.codegen.filetype

end StagedBuild

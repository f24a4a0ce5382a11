import StagedBuild.Plan

/-! A plan as lines for a shell: one for each step, each to succeed before the next is run. -/
namespace StagedBuild

def isShellPlain (c : Char) : Bool := c.isAlphanum || "-_./=+,:@%".toList.contains c

def shellQuoted (c : Char) : List Char := if c = '\'' then "'\\''".toList else [c]

def shellWord (word : String) : String :=
  if word ≠ "" ∧ word.toList.all isShellPlain then word
  else "'" ++ String.ofList (word.toList.flatMap shellQuoted) ++ "'"

def Invocation.script (i : Invocation) : String :=
  String.intercalate " " ((i.program :: i.arguments).map shellWord)

def Step.script (s : Step) : String :=
  String.intercalate " | " (s.tasks.map fun task => task.invocation.script)

def Plan.script (p : Plan) : List String := p.steps.map Step.script

end StagedBuild

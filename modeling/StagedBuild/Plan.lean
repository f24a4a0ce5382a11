import StagedBuild.Path
import StagedBuild.Request

/-! A plan: the commands of a build, in order, and which of them are joined by pipes. -/
namespace StagedBuild

inductive Stage where
  | compile
  | optimize
  | codegen
  | link
  | passThrough
  deriving DecidableEq, Repr

def Stage.label : Stage → String
  | .compile => "compile"
  | .optimize => "optimize"
  | .codegen => "codegen"
  | .link => "link"
  | .passThrough => "pass-through"

def Stage.all : List Stage := [.compile, .optimize, .codegen, .link, .passThrough]

structure Invocation where
  program : String
  arguments : List String := []
  deriving DecidableEq, Repr

def Invocation.text (i : Invocation) : String := String.intercalate " " (i.program :: i.arguments)

structure Task where
  stage : Stage
  invocation : Invocation
  deriving DecidableEq, Repr

/-- A step runs one command, or several at once of which each reads what the one before writes. The
output of a pipe is the file that it is to leave. -/
inductive Step where
  | run (task : Task)
  | pipe (tasks : List Task) (output : String)
  deriving DecidableEq, Repr

structure Plan where
  shape : Shape
  steps : List Step := []
  deriving DecidableEq, Repr

namespace Step

def tasks : Step → List Task
  | .run task => [task]
  | .pipe tasks _ => tasks

def stages : Step → List Stage
  | .run task => [task.stage]
  | .pipe tasks _ => tasks.map Task.stage

def invocation? (stage : Stage) : Step → Option Invocation
  | .run task => if task.stage = stage then some task.invocation else none
  | .pipe tasks _ => (tasks.find? fun task => task.stage = stage).map Task.invocation

def processCount : Step → Nat
  | .run _ => 1
  | .pipe tasks _ => tasks.length

def agrees : Step → Step → Bool
  | .run a, .run b => a == b
  | .pipe a out, .pipe b out' => a == b && Path.same out out'
  | _, _ => false

end Step

namespace Plan

def tasks (p : Plan) : List Task := p.steps.flatMap Step.tasks

def invocation? (p : Plan) (stage : Stage) : Option Invocation :=
  p.steps.findSome? (Step.invocation? stage)

def processCount (p : Plan) : Nat := (p.steps.map Step.processCount).foldr (· + ·) 0

def stepsAgree : List Step → List Step → Bool
  | [], [] => true
  | a :: as, b :: bs => a.agrees b && stepsAgree as bs
  | _, _ => false

def agrees (a b : Plan) : Bool := a.shape == b.shape && stepsAgree a.steps b.steps

end Plan

end StagedBuild

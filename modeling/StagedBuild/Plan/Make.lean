import StagedBuild.Assembly
import StagedBuild.Plan

/-! The plan for a command line. -/
namespace StagedBuild

def objectPipe (settings : Settings) (request : Request) : Step :=
  let compile := ((Assembly.empty.irFlags settings).extra request.passthrough).input request.input
  let codegen := (Assembly.empty.codegen settings).output request.object
  .pipe
    [ ⟨.compile, settings.toolchain.cc, compile.standardOutput.words⟩,
      ⟨.optimize, settings.toolchain.opt, (Assembly.empty.optimizer settings).words⟩,
      ⟨.codegen, settings.toolchain.llc, codegen.words⟩ ]
    request.object

def linkStep (settings : Settings) (request : Request) (input : Option String) (output : String) :
    Step :=
  .run ⟨.link, settings.toolchain.cc,
    (((Assembly.ofPassthrough request).input input).output output).words⟩

def compileSteps (settings : Settings) (request : Request) : List Step :=
  if request.toObject then [objectPipe settings request]
  else [objectPipe settings request,
    linkStep settings request (some request.object) (request.output.getD "")]

def stepsFor (settings : Settings) (words : List String) (request : Request) : List Step :=
  match request.shape with
  | .compileFromSource => compileSteps settings request
  | .linkObject => [linkStep settings request request.input (request.output.getD "")]
  | .passThrough => [.run ⟨.passThrough, settings.toolchain.cc, words⟩]

structure Planned where
  plan : Plan
  reading : Reading
  deriving DecidableEq, Repr

def makePlan (settings : Settings) (words : List String) : Planned :=
  let reading := readWords words
  ⟨⟨reading.request.shape, stepsFor settings words reading.request⟩, reading⟩

end StagedBuild

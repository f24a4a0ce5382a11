import StagedBuild.Plan.Make
import StagedBuild.Session.Run

/-! A whole build: a command line is planned and the plan is run. -/
namespace StagedBuild

def Planned.events (p : Planned) : List Event :=
  p.reading.notices.map .notice ++
    [.planned p.plan.shape p.reading.request.input p.reading.request.output p.plan.processCount]

def Session.build (s : Session) (settings : Settings) (words : List String) : Session.Result :=
  let planned := makePlan settings words
  (s.log planned.events).execute planned.plan

end StagedBuild

import StagedBuild.Session

/-! Running a plan, step by step, up to the first that fails. -/
namespace StagedBuild.Session

abbrev Result := Except Failure Unit × Session

def runTask (s : Session) (task : Task) : Result :=
  let s := s.log [.starting task]
  match s.start task with
  | .error fault => (.error (.cannotStart task.stage task.invocation.program fault), s)
  | .ok program =>
    let status := (program.run s.store s.input true).status
    let ran := { s with started := s.started ++ [task] }.after [program]
    -- Starting and waiting are one call here, and a failure of either is reported alike.
    match s.machine.lost task with
    | some fault => (.error (.cannotStart task.stage task.invocation.program fault), ran)
    | none => (verdict task status, ran.log [.exited task.stage status])

def fate (s : Session) (task : Task) (status : Status) : Fate :=
  match s.machine.lost task with
  | some fault => .lost fault
  | none => .ended status

def stopped (s : Session) (task : Task) : Fate :=
  match s.start task with
  | .ok _ => .ended (.killed 9)
  | .error fault => .refused fault

def fates (s : Session) (tasks : List Task) : List Fate :=
  match tasks.mapM s.start with
  | .ok programs => List.zipWith s.fate tasks ((flow s.store s.input programs).map Outcome.status)
  | .error _ => tasks.map s.stopped

def begun (s : Session) (tasks : List Task) : List Task :=
  tasks.takeWhile fun task => (s.start task).toBool

def cutShort (s : Session) (store : Store) (task : Task) : Store :=
  match lastOutput? task.invocation.arguments, s.machine.cut task with
  | some path, some content => store.overwrite path content
  | _, _ => store

def afterPipe (s : Session) (tasks : List Task) : Session :=
  match tasks.mapM s.start with
  | .ok programs => s.after programs
  | .error _ => { s with store := (s.begun tasks).foldl s.cutShort s.store }

def startedBy (tasks : List Task) (deeds : List Deed) : List Task :=
  deeds.filterMap fun
    | .started n => tasks[n]?
    | _ => none

def members (s : Session) (tasks : List Task) : List Member :=
  List.zipWith Member.mk tasks (s.fates tasks)

def supervised (s : Session) (members : List Member) : Result :=
  let supervised := supervise members
  (supervised.result,
    { s with
      started := s.started ++ startedBy (members.map Member.task) supervised.deeds
      events := s.events ++ supervised.events })

def removeIncomplete (s : Session) (path : String) : Session :=
  match s.store.remove path with
  | .ok store => { s with store }.log [.removed path]
  | .error fault => if fault.kind = .notFound then s else s.log [.notRemoved path fault]

def cleanedUp (output : String) : Result → Result
  | (.ok _, s) => (.ok (), s)
  | (.error failure, s) => (.error failure, s.removeIncomplete output)

def endPipe (s : Session) (members : List Member) (output : String) : Result :=
  cleanedUp output (s.supervised members)

def runPipe (s : Session) (tasks : List Task) (output : String) : Result :=
  (s.afterPipe tasks).endPipe (s.members tasks) output

def runStep (s : Session) : Step → Result
  | .run task => s.runTask task
  | .pipe tasks output => s.runPipe tasks output

def runSteps (s : Session) : List Step → Result
  | [] => (.ok (), s)
  | step :: rest =>
    match s.runStep step with
    | (.ok _, s) => s.runSteps rest
    | (.error failure, s) => (.error failure, s)

def execute (s : Session) (plan : Plan) : Result :=
  (s.log [.executing plan.shape plan.steps.length]).runSteps plan.steps

end StagedBuild.Session

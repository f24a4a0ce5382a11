import StagedBuild.Proofs.Attempts
import StagedBuild.Proofs.Cleanup
import StagedBuild.Session.Build

/-! The log of a build. Each step reports the commands that it tries, in order, then the one exit that
decides, if it was learned, and after a failed pipe what became of its output; what is logged can therefore
be read back as the run of the plan. -/
namespace StagedBuild

def Event.exit? : Event → Option (Stage × Status)
  | .exited stage status => some (stage, status)
  | _ => none

def exits (events : List Event) : List (Stage × Status) := events.filterMap Event.exit?

@[simp] theorem exitsAppend (first second : List Event) :
    exits (first ++ second) = exits first ++ exits second := List.filterMap_append

theorem attemptShown (event : Event) {task : Task} (attempt : event.attempt? = some task) :
    event.values = [("stage", task.stage.label), ("command", task.invocation.text)] := by
  cases event <;> cases attempt <;> rfl

def Step.starting : Step → Task → Event
  | .run _ => .starting
  | .pipe _ _ => .startingPiped

def Unstarted (result : Except Failure Unit) : Prop :=
  ∃ stage program fault, result = .error (.cannotStart stage program fault)

def StageFails (result : Except Failure Unit) : Prop :=
  ∃ stage program code, result = .error (.stageFailed stage program code)

namespace Supervision

theorem superviseStoppedEvents {before rest : List Member} {m : Member} {fault : Fault}
    (begun : ∀ b ∈ before, b.fate.starts = true) (fate : m.fate = .refused fault) :
    (supervise (before ++ m :: rest)).events = (before ++ [m]).map fun b => .startingPiped b.task := by
  simp only [supervise, launchStopped begun fate, List.map_append, List.map_cons, List.map_nil]

theorem superviseLostEvents {before rest : List Member} {m : Member} {fault : Fault}
    (ended : ∀ b ∈ before, ∃ status, b.fate = .ended status) (fate : m.fate = .lost fault)
    (begun : ∀ b ∈ before ++ m :: rest, b.fate.starts = true) :
    (supervise (before ++ m :: rest)).events =
      (before ++ m :: rest).map fun b => .startingPiped b.task := by
  simp only [supervise, launchComplete begun, statusesLost ended fate]

theorem superviseEndedEvents (runs : List (Task × Status)) :
    (supervise (runs.map endedMember)).events = (runs.map Prod.fst).map .startingPiped ++
      (judge (runs.map Prod.fst) (runs.map Prod.snd)).2 := by
  have launched := launchComplete (endedStarts runs)
  have learned : statuses (launch [] (runs.map endedMember)).children = .ok (runs.map Prod.snd) := by
    rw [launched]
    exact statusesEnded (by simp [handed, Function.comp_def])
  have tasks : (runs.map endedMember).map Member.task = runs.map Prod.fst := by
    simp [endedMember, Function.comp_def]
  rw [superviseJudged (refusalEnded runs) learned, tasks, launched]
  simp [endedMember, Function.comp_def]

end Supervision

namespace Session
open Supervision

inductive CleanupLog (output : String) : List Event → Prop where
  | absent : CleanupLog output []
  | removed : CleanupLog output [.removed output]
  | refused (fault : Fault) : CleanupLog output [.notRemoved output fault]

def endings (s : Session) (programs : List Program) : List Status :=
  (flow s.store s.input programs).map Outcome.status

inductive StepLog (s : Session) : Step → Except Failure Unit → List Event → Prop where
  | refused {task fault} (start : s.start task = .error fault) :
      StepLog s (.run task) (.error (.cannotStart task.stage task.invocation.program fault))
        [.starting task]
  | unheard {task program fault} (start : s.start task = .ok program)
      (lost : s.machine.lost task = some fault) :
      StepLog s (.run task) (.error (.cannotStart task.stage task.invocation.program fault))
        [.starting task]
  | ran {task program status} (start : s.start task = .ok program) (heard : s.Hears [task])
      (ended : (program.run s.store s.input true).status = status) :
      StepLog s (.run task) (verdict task status) [.starting task, .exited task.stage status]
  | pipeRefused {before task rest output fault cleanup}
      (begun : ∀ other ∈ before, ∃ program, s.start other = .ok program)
      (start : s.start task = .error fault) (cleaned : CleanupLog output cleanup) :
      StepLog s (.pipe (before ++ task :: rest) output)
        (.error (.cannotStart task.stage task.invocation.program fault))
        ((before ++ [task]).map .startingPiped ++ cleanup)
  | pipeUnheard {before task rest output programs fault cleanup}
      (start : (before ++ task :: rest).mapM s.start = .ok programs) (heard : s.Hears before)
      (lost : s.machine.lost task = some fault) (cleaned : CleanupLog output cleanup) :
      StepLog s (.pipe (before ++ task :: rest) output)
        (.error (.cannotWait task.stage task.invocation.program fault))
        ((before ++ task :: rest).map .startingPiped ++ cleanup)
  | pipePassed {tasks output programs} (start : tasks.mapM s.start = .ok programs)
      (heard : s.Hears tasks) (passed : ∀ status ∈ s.endings programs, status.succeeded = true) :
      StepLog s (.pipe tasks output) (.ok ()) (tasks.map .startingPiped)
  | pipeFailed {tasks output programs n task status cleanup}
      (start : tasks.mapM s.start = .ok programs) (heard : s.Hears tasks)
      (blame : FirstAlone (s.endings programs) n ∨ LastBroken (s.endings programs) n)
      (named : tasks[n]? = some task) (ended : (s.endings programs)[n]? = some status)
      (cleaned : CleanupLog output cleanup) :
      StepLog s (.pipe tasks output)
        (.error (.stageFailed task.stage task.invocation.program status.code))
        (tasks.map .startingPiped ++ .exited task.stage status :: cleanup)

theorem removalLogged (s : Session) (path : String) :
    ∃ cleanup, CleanupLog path cleanup ∧ (s.removeIncomplete path).events = s.events ++ cleanup := by
  have attempt := removal s path
  generalize s.removeIncomplete path = t at attempt
  cases attempt with
  | removed gone => exact ⟨_, .removed, rfl⟩
  | absent missing kind => exact ⟨[], .absent, by simp⟩
  | refused denied kind => exact ⟨_, .refused _, rfl⟩

theorem passedPipeEvents {s : Session} {tasks : List Task} {output : String}
    (passed : (supervise (s.members tasks)).result = .ok ()) :
    (s.runPipe tasks output).2.events = s.events ++ (supervise (s.members tasks)).events := by
  rw [runPipe, endPipeOk passed, supervised, afterPipeEvents]

theorem failedPipeEvents {s : Session} {tasks : List Task} {failure : Failure} (output : String)
    (failed : (supervise (s.members tasks)).result = .error failure) :
    ∃ cleanup, CleanupLog output cleanup ∧ (s.runPipe tasks output).2.events =
      s.events ++ ((supervise (s.members tasks)).events ++ cleanup) := by
  obtain ⟨cleanup, cleaned, logged⟩ :=
    removalLogged ((s.afterPipe tasks).supervised (s.members tasks)).2 output
  refine ⟨cleanup, cleaned, ?_⟩
  rw [runPipe, endPipeFailed failed, logged, supervised, afterPipeEvents, List.append_assoc]

theorem refusedPipeLogged {s : Session} {tasks : List Task} {fault : Fault} (output : String)
    (stopped : tasks.mapM s.start = .error fault) :
    ∃ events, (s.runPipe tasks output).2.events = s.events ++ events ∧
      StepLog s (.pipe tasks output) (s.runPipe tasks output).1 events := by
  obtain ⟨started, task, later, split, begun, start⟩ := membersStopped stopped
  have starts : ∀ m ∈ started, m.fate.starts = true := fun m member => (begun m member).1
  have order : tasks = started.map Member.task ++ task :: later.map Member.task := by
    rw [← membersTasks s tasks, split, List.map_append, List.map_cons]
  have result : (supervise (s.members tasks)).result =
      .error (.cannotStart task.stage task.invocation.program fault) := by
    rw [split]
    exact (superviseStopped starts rfl).1
  have tried : (supervise (s.members tasks)).events =
      (started.map Member.task ++ [task]).map .startingPiped := by
    rw [split, superviseStoppedEvents starts rfl]
    simp
  obtain ⟨cleanup, cleaned, logged⟩ := failedPipeEvents output result
  rw [pipeResult, result, logged, tried]
  refine ⟨_, rfl, ?_⟩
  rw [order]
  refine .pipeRefused (fun other member => ?_) start cleaned
  obtain ⟨m, inside, rfl⟩ := List.mem_map.mp member
  exact (begun m inside).2

theorem unheardPipeResult {s : Session} {before rest : List Task} {task : Task}
    {programs : List Program} {fault : Fault}
    (start : (before ++ task :: rest).mapM s.start = .ok programs) (heard : s.Hears before)
    (lost : s.machine.lost task = some fault) :
    (supervise (s.members (before ++ task :: rest))).result =
        .error (.cannotWait task.stage task.invocation.program fault) ∧
      (supervise (s.members (before ++ task :: rest))).events =
        (before ++ task :: rest).map .startingPiped := by
  obtain ⟨ended, later, split, learned⟩ := membersUnheard start heard lost
  have begun := membersBegun start
  have order := congrArg (List.map Event.startingPiped) (membersTasks s (before ++ task :: rest))
  rw [List.map_map, split] at order
  rw [split] at begun ⊢
  rw [superviseLostEvents learned rfl begun]
  exact ⟨(courseSound (.lost learned rfl fun b member => begun b (by simp [member]))).1, order⟩

theorem unheardPipeLogged {s : Session} {before rest : List Task} {task : Task}
    {programs : List Program} {fault : Fault} (output : String)
    (start : (before ++ task :: rest).mapM s.start = .ok programs) (heard : s.Hears before)
    (lost : s.machine.lost task = some fault) :
    ∃ events, (s.runPipe (before ++ task :: rest) output).2.events = s.events ++ events ∧
      StepLog s (.pipe (before ++ task :: rest) output)
        (s.runPipe (before ++ task :: rest) output).1 events := by
  obtain ⟨result, tried⟩ := unheardPipeResult start heard lost
  obtain ⟨cleanup, cleaned, logged⟩ := failedPipeEvents output result
  rw [pipeResult, result, logged, tried]
  exact ⟨_, rfl, .pipeUnheard start heard lost cleaned⟩

theorem startedPipeLogged {s : Session} {tasks : List Task} {programs : List Program} (output : String)
    (start : tasks.mapM s.start = .ok programs) (heard : s.Hears tasks) :
    ∃ events, (s.runPipe tasks output).2.events = s.events ++ events ∧
      StepLog s (.pipe tasks output) (s.runPipe tasks output).1 events := by
  have sizes : tasks.length = (s.endings programs).length := (statusesLength start).symm
  have ended : s.members tasks = (tasks.zip (s.endings programs)).map endedMember :=
    membersEnded start heard
  have result := superviseEnded (tasks.zip (s.endings programs))
  have events := superviseEndedEvents (tasks.zip (s.endings programs))
  rw [← ended, List.map_fst_zip (Nat.le_of_eq sizes), List.map_snd_zip (Nat.le_of_eq sizes.symm)]
    at result events
  cases blame : blamed? (s.endings programs) with
  | none =>
    simp only [judge, blame, List.append_nil] at result events
    rw [pipeResult, passedPipeEvents result, result, events]
    exact ⟨_, rfl, .pipePassed start heard ((blamedNone _).mp blame)⟩
  | some n =>
    obtain ⟨status, found, bad⟩ := blamedFailed blame
    obtain ⟨task, named⟩ : ∃ task, tasks[n]? = some task := by
      obtain ⟨inside, _⟩ := List.getElem?_eq_some_iff.mp found
      exact ⟨tasks[n], List.getElem?_eq_getElem (by omega)⟩
    simp only [judge, blame, named, found, verdictFailed bad] at result events
    obtain ⟨cleanup, cleaned, logged⟩ := failedPipeEvents output result
    rw [pipeResult, result, logged, events, List.append_assoc]
    exact ⟨_, rfl, .pipeFailed start heard ((blamedExact _ n).mp blame) named found cleaned⟩

theorem stepLogged (s : Session) (step : Step) :
    ∃ events, (s.runStep step).2.events = s.events ++ events ∧
      StepLog s step (s.runStep step).1 events := by
  cases step with
  | run task =>
    rw [runStep]
    cases start : s.start task with
    | error fault =>
      rw [taskRefused start]
      exact ⟨_, rfl, .refused start⟩
    | ok program =>
      cases heard : s.machine.lost task with
      | some fault =>
        rw [taskLost start heard]
        exact ⟨_, rfl, .unheard start heard⟩
      | none =>
        rw [taskStarted start heard]
        exact ⟨_, List.append_assoc .., .ran start (by simpa [Hears] using heard) rfl⟩
  | pipe tasks output =>
    rw [runStep]
    cases start : tasks.mapM s.start with
    | error fault => exact refusedPipeLogged output start
    | ok programs =>
      rcases hearsOrLost s tasks with heard | ⟨before, task, rest, fault, rfl, heard, lost⟩
      · exact startedPipeLogged output start heard
      · exact unheardPipeLogged output start heard lost

/- What a step has reported, seen from its result: a command counts as started unless the result is that
it could not be run, and a stage as failed if the result says so. A session that learns how its commands
end takes for started just those that can be. -/
structure StepReport (s : Session) (step : Step) (result : Except Failure Unit)
    (events : List Event) : Prop where
  order : ∃ tried cleanup, tried <+: step.tasks ∧
    events = tried.map step.starting ++ (exits events).map (fun e => .exited e.1 e.2) ++ cleanup ∧
    (cleanup = [] ∨ ∃ tasks output failure, step = .pipe tasks output ∧ result = .error failure ∧
      CleanupLog output cleanup)
  unstarted : Unstarted result → exits events = []
  single : ∀ task, step = .run task → ¬ Unstarted result →
    ∃ status, exits events = [(task.stage, status)] ∧ result = verdict task status
  blamed : ∀ stage program code, result = .error (.stageFailed stage program code) →
    ∃ status, exits events = [(stage, status)] ∧ status.succeeded = false ∧ status.code = code
  nobody : ∀ tasks output, step = .pipe tasks output → ¬ StageFails result → exits events = []
  started : s.Hears step.tasks →
    (¬ Unstarted result ↔ ∀ task ∈ step.tasks, ∃ program, s.start task = .ok program)

theorem cleanupExits {output : String} {cleanup : List Event} (cleaned : CleanupLog output cleanup) :
    exits cleanup = [] := by
  cases cleaned <;> rfl

theorem pipedExits (tasks : List Task) : exits (tasks.map .startingPiped) = [] := by
  rw [exits, List.filterMap_map]
  exact List.filterMap_eq_nil_iff.mpr fun _ _ => rfl

theorem verdictStarts (task : Task) (status : Status) : ¬ Unstarted (verdict task status) := by
  rintro ⟨stage, program, fault, same⟩
  cases (verdictError same).2

theorem refusedTaskReport {s : Session} {task : Task} {program : String} {fault : Fault}
    (heard : s.Hears [task] → ∃ fault, s.start task = .error fault) :
    StepReport s (.run task) (.error (.cannotStart task.stage program fault)) [.starting task] where
  order := ⟨[task], [], List.prefix_rfl, rfl, .inl rfl⟩
  unstarted _ := rfl
  single _ _ started := absurd ⟨_, _, _, rfl⟩ started
  blamed := by simp
  nobody := by simp
  started hears := by
    obtain ⟨other, refused⟩ := heard hears
    refine iff_of_false (fun started => started ⟨_, _, _, rfl⟩) fun all => ?_
    obtain ⟨program, accepted⟩ := all task (by simp [Step.tasks])
    simp [refused] at accepted

theorem ranTaskReport {s : Session} {task : Task} {program : Program} (status : Status)
    (start : s.start task = .ok program) :
    StepReport s (.run task) (verdict task status) [.starting task, .exited task.stage status] where
  order := ⟨[task], [], List.prefix_rfl, rfl, .inl rfl⟩
  unstarted refused := absurd refused (verdictStarts task status)
  single other same _ := by
    cases same
    exact ⟨status, rfl, rfl⟩
  blamed stage other code failed := by
    obtain ⟨bad, same⟩ := verdictError failed
    cases same
    exact ⟨status, rfl, bad, rfl⟩
  nobody := by simp
  started _ := by
    refine iff_of_true (verdictStarts task status) fun other member => ?_
    obtain rfl : other = task := by simpa [Step.tasks] using member
    exact ⟨program, start⟩

theorem pipeExits (tasks : List Task) (ended : List (Stage × Status)) {output : String}
    {cleanup : List Event} (cleaned : CleanupLog output cleanup) :
    exits (tasks.map .startingPiped ++ ended.map (fun e => .exited e.1 e.2) ++ cleanup) = ended := by
  have told : exits (ended.map fun e => .exited e.1 e.2) = ended := by
    rw [exits, List.filterMap_map]
    exact List.filterMap_some
  rw [exitsAppend, exitsAppend, pipedExits, told, cleanupExits cleaned, List.append_nil, List.nil_append]

theorem silentPipeReport {s : Session} {tasks tried : List Task} {output : String} {failure : Failure}
    {cleanup : List Event} (inOrder : tried <+: tasks) (cleaned : CleanupLog output cleanup)
    (unblamed : ¬ StageFails (.error failure))
    (started : s.Hears tasks → (¬ Unstarted (.error failure) ↔
      ∀ task ∈ tasks, ∃ program, s.start task = .ok program)) :
    StepReport s (.pipe tasks output) (.error failure) (tried.map .startingPiped ++ cleanup) := by
  have none : exits (tried.map .startingPiped ++ cleanup) = [] := by
    simpa using pipeExits tried [] cleaned
  refine ⟨⟨tried, cleanup, inOrder, ?_, .inr ⟨_, _, _, rfl, rfl, cleaned⟩⟩, fun _ => none, by simp,
    fun _ _ _ failed => absurd ⟨_, _, _, failed⟩ unblamed, fun _ _ _ _ => none, started⟩
  rw [none]
  simp [Step.starting]

theorem stepReported {s : Session} {step : Step} {result : Except Failure Unit} {events : List Event}
    (log : StepLog s step result events) : StepReport s step result events := by
  cases log with
  | refused start => exact refusedTaskReport fun _ => ⟨_, start⟩
  | unheard start lost =>
    refine refusedTaskReport fun heard => ?_
    simp [heard _ (List.mem_singleton.mpr rfl)] at lost
  | ran start heard ended => exact ranTaskReport _ start
  | @pipeRefused before task rest output fault cleanup begun start cleaned =>
    refine silentPipeReport ⟨rest, by simp⟩ cleaned (by simp [StageFails]) fun _ => ?_
    refine iff_of_false (fun started => started ⟨_, _, _, rfl⟩) fun all => ?_
    obtain ⟨program, accepted⟩ := all _ (List.mem_append_right _ (List.mem_cons_self ..))
    simp [start] at accepted
  | pipeUnheard start heard lost cleaned =>
    refine silentPipeReport List.prefix_rfl cleaned (by simp [StageFails]) fun heard => ?_
    simp [heard _ (List.mem_append_right _ (List.mem_cons_self ..))] at lost
  | @pipePassed tasks output programs start heard passed =>
    have none := pipedExits tasks
    refine ⟨⟨tasks, [], List.prefix_rfl, ?_, .inl rfl⟩, fun _ => none, by simp, by simp,
      fun _ _ _ _ => none, fun _ => iff_of_true (by simp [Unstarted]) (startedEach start)⟩
    rw [none]
    simp [Step.starting]
  | @pipeFailed tasks output programs n task status cleanup start heard blame named ended cleaned =>
    have told : exits (tasks.map .startingPiped ++ .exited task.stage status :: cleanup) =
        [(task.stage, status)] := by
      simpa using pipeExits tasks [(task.stage, status)] cleaned
    obtain ⟨other, found, bad⟩ := blamedFailed ((blamedExact _ n).mpr blame)
    cases Option.some.inj (found.symm.trans ended)
    refine ⟨⟨tasks, cleanup, List.prefix_rfl, ?_, .inr ⟨_, _, _, rfl, rfl, cleaned⟩⟩, by simp [Unstarted],
      by simp, fun stage program code failed => ?_, fun _ _ _ nobody => absurd ⟨_, _, _, rfl⟩ nobody,
      fun _ => iff_of_true (by simp [Unstarted]) (startedEach start)⟩
    · rw [told]
      simp [Step.starting]
    · cases failed
      exact ⟨status, told, bad, rfl⟩

inductive Stepwise (Says : Session → Step → Except Failure Unit → List Event → Prop) :
    Session → List Step → Except Failure Unit → List Event → Prop where
  | done (s : Session) : Stepwise Says s [] (.ok ()) []
  | failed {s step rest failure events} (log : Says s step (.error failure) events) :
      Stepwise Says s (step :: rest) (.error failure) events
  | passed {s mid step rest result first later} (log : Says s step (.ok ()) first)
      (run : s.runStep step = (.ok (), mid)) (next : Stepwise Says mid rest result later) :
      Stepwise Says s (step :: rest) result (first ++ later)

theorem runLogged (s : Session) (steps : List Step) :
    ∃ events, (s.runSteps steps).2.events = s.events ++ events ∧
      Stepwise StepLog s steps (s.runSteps steps).1 events := by
  induction steps generalizing s with
  | nil => exact ⟨[], by simp [runSteps], .done s⟩
  | cons step rest ih =>
    obtain ⟨first, reported, log⟩ := stepLogged s step
    cases ran : s.runStep step with
    | mk result mid =>
      rw [ran] at reported log
      cases result with
      | error failure =>
        have stopped : s.runSteps (step :: rest) = (.error failure, mid) := by simp only [runSteps, ran]
        rw [stopped]
        exact ⟨first, reported, .failed log⟩
      | ok passed =>
        have next : s.runSteps (step :: rest) = mid.runSteps rest := by simp only [runSteps, ran]
        obtain ⟨later, reportedLater, logLater⟩ := ih mid
        rw [next]
        refine ⟨first ++ later, ?_, .passed log ran logLater⟩
        rw [reportedLater, reported, List.append_assoc]

theorem runReported {s : Session} {steps : List Step} {result : Except Failure Unit} {events : List Event}
    (log : Stepwise StepLog s steps result events) : Stepwise StepReport s steps result events := by
  induction log with
  | done s => exact .done s
  | failed log => exact .failed (stepReported log)
  | passed log run next ih => exact .passed (stepReported log) run ih

def BlamedExit (events : List Event) (stage : Stage) (code : Int) : Prop :=
  ∃ status, (exits events).getLast? = some (stage, status) ∧ status.succeeded = false ∧ status.code = code

theorem stepsBlamedExit {s : Session} {steps : List Step} {stage : Stage} {program : String} {code : Int}
    {events : List Event}
    (report : Stepwise StepReport s steps (.error (.stageFailed stage program code)) events) :
    BlamedExit events stage code := by
  generalize result : (Except.error (.stageFailed stage program code) : Except Failure Unit) = r at report
  induction report with
  | done s => contradiction
  | failed report =>
    cases result
    obtain ⟨status, only, bad, same⟩ := report.blamed _ _ _ rfl
    exact ⟨status, by rw [only]; rfl, bad, same⟩
  | passed report run next ih =>
    obtain ⟨status, last, bad, same⟩ := ih result
    exact ⟨status, by simp [List.getLast?_append, last], bad, same⟩

structure Reports (s : Session) (plan : Plan) (result : Except Failure Unit) (events : List Event) : Prop where
  steps : Stepwise StepLog s plan.steps result events
  told : Stepwise StepReport s plan.steps result events
  inOrder : attempts events <+: plan.tasks
  shown : ∀ event ∈ events, ∀ task, event.attempt? = some task →
    event.values = [("stage", task.stage.label), ("command", task.invocation.text)]
  complete : result = .ok () → attempts events = plan.tasks ∧ (attempts events).length = plan.processCount
  blamed : ∀ stage program code, result = .error (.stageFailed stage program code) →
    BlamedExit events stage code

theorem planReports (s : Session) (plan : Plan) :
    ∃ events, (s.runSteps plan.steps).2.events = s.events ++ events ∧
      Reports s plan (s.runSteps plan.steps).1 events := by
  obtain ⟨events, logged, steps⟩ := runLogged s plan.steps
  obtain ⟨tried, tries⟩ := stepsTry s plan.steps
  have attempted : attempts events = tried := by
    have reported := tries.reported
    rw [logged, attemptsAppend] at reported
    exact List.append_cancel_left reported
  have told := runReported steps
  refine ⟨events, logged, steps, told, attempted ▸ tries.inOrder, fun event _ _ => attemptShown event,
    fun passed => ?_, fun _ _ _ failed => ?_⟩
  · have all : attempts events = plan.tasks := attempted.trans (tries.complete passed).1
    exact ⟨all, by rw [all, processCountTasks]⟩
  · rw [failed] at told
    exact stepsBlamedExit told

end Session

end StagedBuild

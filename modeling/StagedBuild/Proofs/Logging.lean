import StagedBuild.Session.Run

/-! What was reported before does not matter to a run: the same steps are taken with the same outcome,
and what they report comes behind what there was. -/
namespace StagedBuild.Session

def reporting (s : Session) (events : List Event) : Session := { s with events }

def Unheeding (s : Session) (run : Session → Result) : Prop :=
  ∃ (result : Except Failure Unit) (t : Session) (later : List Event),
    ∀ events, run (s.reporting events) = (result, t.reporting (events ++ later))

theorem taskRefused {s : Session} {task : Task} {fault : Fault} (refused : s.start task = .error fault) :
    s.runTask task =
      (.error (.cannotStart task.stage task.invocation.program fault), s.log [.starting task]) := by
  have begins : (s.log [.starting task]).start task = .error fault := refused
  simp only [runTask, begins]

theorem taskLost {s : Session} {task : Task} {program : Program} {fault : Fault}
    (accepted : s.start task = .ok program) (lost : s.machine.lost task = some fault) :
    s.runTask task = (.error (.cannotStart task.stage task.invocation.program fault),
      { s.log [.starting task] with started := s.started ++ [task] }.after [program]) := by
  have begins : (s.log [.starting task]).start task = .ok program := accepted
  have unheard : (s.log [.starting task]).machine.lost task = some fault := lost
  simp only [runTask, begins, unheard]
  rfl

theorem taskStarted {s : Session} {task : Task} {program : Program}
    (accepted : s.start task = .ok program) (heard : s.machine.lost task = none) :
    s.runTask task = (verdict task (program.run s.store s.input true).status,
      ({ s.log [.starting task] with started := s.started ++ [task] }.after [program]).log
        [.exited task.stage (program.run s.store s.input true).status]) := by
  have begins : (s.log [.starting task]).start task = .ok program := accepted
  have known : (s.log [.starting task]).machine.lost task = none := heard
  simp only [runTask, begins, known]
  rfl

theorem taskRan {s : Session} {task : Task} {program : Program} (accepted : s.start task = .ok program) :
    ∃ result events, s.runTask task =
      (result, ({ s with started := s.started ++ [task] }.after [program]).log events) := by
  cases heard : s.machine.lost task with
  | some fault =>
    rw [taskLost accepted heard]
    exact ⟨_, [.starting task], rfl⟩
  | none =>
    rw [taskStarted accepted heard]
    exact ⟨verdict task (program.run s.store s.input true).status,
      [.starting task, .exited task.stage (program.run s.store s.input true).status],
      by simp [log, after]⟩

theorem taskUnheeding (s : Session) (task : Task) : s.Unheeding (·.runTask task) := by
  cases begins : s.start task with
  | error fault =>
    refine ⟨.error (.cannotStart task.stage task.invocation.program fault), s, [.starting task], ?_⟩
    intro events
    have refused : (s.reporting events).start task = .error fault := begins
    exact taskRefused refused
  | ok program =>
    have accepted (events : List Event) : (s.reporting events).start task = .ok program := begins
    cases heard : s.machine.lost task with
    | some fault =>
      refine ⟨.error (.cannotStart task.stage task.invocation.program fault),
        { s with started := s.started ++ [task] }.after [program], [.starting task], fun events => ?_⟩
      have unheard : (s.reporting events).machine.lost task = some fault := heard
      simp only [taskLost (accepted events) unheard]
      rfl
    | none =>
      refine ⟨verdict task (program.run s.store s.input true).status,
        { s with started := s.started ++ [task] }.after [program],
        [.starting task, .exited task.stage (program.run s.store s.input true).status], fun events => ?_⟩
      have known : (s.reporting events).machine.lost task = none := heard
      simp only [taskStarted (accepted events) known]
      simp [log, reporting, after]

theorem afterPipeReporting (s : Session) (tasks : List Task) (events : List Event) :
    (s.reporting events).afterPipe tasks = (s.afterPipe tasks).reporting events := by
  have begins : tasks.mapM (s.reporting events).start = tasks.mapM s.start := rfl
  unfold afterPipe
  rw [begins]
  split <;> rfl

theorem removalUnheeding (s : Session) (path : String) :
    ∃ (t : Session) (later : List Event), ∀ events,
      (s.reporting events).removeIncomplete path = t.reporting (events ++ later) := by
  cases attempt : s.store.remove path with
  | ok store =>
    refine ⟨{ s with store }, [.removed path], fun events => ?_⟩
    have removed : (s.reporting events).store.remove path = .ok store := attempt
    simp only [removeIncomplete, removed]
    rfl
  | error fault =>
    by_cases absent : fault.kind = .notFound
    · refine ⟨s, [], fun events => ?_⟩
      have missing : (s.reporting events).store.remove path = .error fault := attempt
      simp [removeIncomplete, missing, absent]
    · refine ⟨s, [.notRemoved path fault], fun events => ?_⟩
      have denied : (s.reporting events).store.remove path = .error fault := attempt
      simp only [removeIncomplete, denied, if_neg absent]
      rfl

theorem supervisedReporting (s : Session) (members : List Member) (events : List Event) :
    (s.reporting events).supervised members = ((supervise members).result,
      (s.supervised members).2.reporting (events ++ (supervise members).events)) := rfl

theorem pipeUnheeding (s : Session) (tasks : List Task) (output : String) :
    s.Unheeding (·.runPipe tasks output) := by
  have members : ∀ events, (s.reporting events).members tasks = s.members tasks := fun _ => rfl
  cases result : (supervise (s.members tasks)).result with
  | ok passed =>
    refine ⟨.ok (), ((s.afterPipe tasks).supervised (s.members tasks)).2,
      (supervise (s.members tasks)).events, fun events => ?_⟩
    simp only [runPipe, endPipe, members, afterPipeReporting, supervisedReporting, result, cleanedUp]
  | error failure =>
    obtain ⟨t, later, removed⟩ :=
      removalUnheeding ((s.afterPipe tasks).supervised (s.members tasks)).2 output
    refine ⟨.error failure, t, (supervise (s.members tasks)).events ++ later, fun events => ?_⟩
    simp only [runPipe, endPipe, members, afterPipeReporting, supervisedReporting, result, cleanedUp,
      removed, List.append_assoc]

theorem stepUnheeding (s : Session) (step : Step) : s.Unheeding (·.runStep step) := by
  cases step with
  | run task => exact taskUnheeding s task
  | pipe tasks output => exact pipeUnheeding s tasks output

theorem stepsUnheeding (s : Session) (steps : List Step) : s.Unheeding (·.runSteps steps) := by
  induction steps generalizing s with
  | nil => exact ⟨.ok (), s, [], fun events => by simp [runSteps]⟩
  | cons step rest ih =>
    obtain ⟨result, mid, first, head⟩ := stepUnheeding s step
    simp only at head
    cases result with
    | error failure =>
      exact ⟨.error failure, mid, first, fun events => by simp only [runSteps, head]⟩
    | ok passed =>
      obtain ⟨result, t, later, tail⟩ := ih mid
      refine ⟨result, t, first ++ later, fun events => ?_⟩
      simp only at tail
      simp only [runSteps, head, tail, List.append_assoc]

structure SameDone (s t : Session) : Prop where
  store : s.store = t.store
  machine : s.machine = t.machine
  searchPath : s.searchPath = t.searchPath
  input : s.input = t.input
  output : s.output = t.output
  started : s.started = t.started
  calls : s.calls = t.calls

theorem SameDone.refl (s : Session) : SameDone s s := ⟨rfl, rfl, rfl, rfl, rfl, rfl, rfl⟩

theorem SameDone.trans {s t u : Session} (first : SameDone s t) (second : SameDone t u) : SameDone s u where
  store := first.store.trans second.store
  machine := first.machine.trans second.machine
  searchPath := first.searchPath.trans second.searchPath
  input := first.input.trans second.input
  output := first.output.trans second.output
  started := first.started.trans second.started
  calls := first.calls.trans second.calls

theorem logDone (s : Session) (events : List Event) : SameDone (s.log events) s :=
  ⟨rfl, rfl, rfl, rfl, rfl, rfl, rfl⟩

theorem SameDone.reported {s t : Session} (same : SameDone s t) : s = t.reporting s.events := by
  obtain ⟨_, _, _, _, _, _, _, _⟩ := s
  obtain ⟨rfl, rfl, rfl, rfl, rfl, rfl, rfl⟩ := same
  rfl

theorem stepsDone {s t : Session} (same : SameDone s t) (steps : List Step) :
    (s.runSteps steps).1 = (t.runSteps steps).1 ∧
      SameDone (s.runSteps steps).2 (t.runSteps steps).2 := by
  obtain ⟨result, u, later, run⟩ := stepsUnheeding t steps
  have plain : t.runSteps steps = (result, u.reporting (t.events ++ later)) := run t.events
  have other : s.runSteps steps = (result, u.reporting (s.events ++ later)) := by
    rw [same.reported]
    exact run s.events
  rw [plain, other]
  exact ⟨rfl, rfl, rfl, rfl, rfl, rfl, rfl, rfl⟩

theorem stepsLogged (s : Session) (earlier : List Event) (steps : List Step) :
    ((s.log earlier).runSteps steps).1 = (s.runSteps steps).1 := by
  obtain ⟨result, t, later, run⟩ := stepsUnheeding s steps
  have plain : s.runSteps steps = (result, t.reporting (s.events ++ later)) := run s.events
  have logged : (s.log earlier).runSteps steps = (result, t.reporting (s.events ++ earlier ++ later)) :=
    run (s.events ++ earlier)
  rw [plain, logged]

end StagedBuild.Session

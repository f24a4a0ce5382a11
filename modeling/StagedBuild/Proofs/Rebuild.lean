import StagedBuild.Proofs.Alike

/-! Building twice. What the first build leaves is alike to what it began with as long as it touches no tool,
so that the second starts the same commands, and these make the same edits again, which changes nothing. -/
namespace StagedBuild.Session
open Supervision

def holding (s : Session) (store : Store) : Session := { s with store }

theorem stepStarts {s : Session} {step : Step}
    (begun : ∀ stage program fault, (s.runStep step).1 ≠ .error (.cannotStart stage program fault)) :
    ∃ programs, step.tasks.mapM s.start = .ok programs := by
  cases started : step.tasks.mapM s.start with
  | ok programs => exact ⟨programs, rfl⟩
  | error fault =>
    cases step with
    | run task =>
      rw [Step.tasks, startSingle] at started
      cases begins : s.start task with
      | ok program => simp [begins, Except.map] at started
      | error other =>
        have refused := congrArg Prod.fst (taskRefused begins)
        exact absurd refused (begun _ _ _)
    | pipe tasks output =>
      obtain ⟨task, _, _, why⟩ := membersRefused started
      have refused : (s.runStep (.pipe tasks output)).1 =
          .error (.cannotStart task.stage task.invocation.program fault) := by
        rw [Step.tasks] at why
        rw [runStep, pipeResult, superviseRefused why]
      exact absurd refused (begun _ _ _)

theorem judgeSingle (task : Task) (status : Status) : (judge [task] [status]).1 = verdict task status := by
  cases passed : status.succeeded <;> simp [judge, blamed?, verdict, passed]

section
variable {s : Session} {step : Step} {programs : List Program}
  (started : step.tasks.mapM s.start = .ok programs)
include started

theorem stepResult (heard : s.Hears step.tasks) :
    (s.runStep step).1 = (judge step.tasks (s.endings programs)).1 := by
  cases step with
  | run task =>
    rw [Step.tasks, startSingle] at started
    cases begins : s.start task with
    | error fault => simp [begins, Except.map] at started
    | ok program =>
      obtain rfl : [program] = programs := by simpa [begins, Except.map] using started
      rw [runStep, taskStarted begins (heard task (List.mem_singleton.mpr rfl)), Step.tasks]
      exact (judgeSingle task _).symm
  | pipe tasks output =>
    rw [Step.tasks] at started
    have sizes := statusesLength started
    rw [runStep, pipeResult, membersEnded started heard, superviseEnded,
      List.map_fst_zip (Nat.le_of_eq sizes.symm), List.map_snd_zip (Nat.le_of_eq sizes)]
    rfl

theorem stepDone : SameDone (s.runStep step).2
    ({ s.after programs with started := s.started ++ step.tasks }.holding
      (s.store.edited (s.stepEdits step))) := by
  have store := stepStore s step
  have begun := stepBegins s step
  rw [begunAll started] at begun
  cases step with
  | run task =>
    rw [Step.tasks, startSingle] at started
    cases begins : s.start task with
    | error fault => simp [begins, Except.map] at started
    | ok program =>
      obtain rfl : [program] = programs := by simpa [begins, Except.map] using started
      obtain ⟨result, events, ran⟩ := taskRan begins
      rw [runStep, ran] at store ⊢
      exact ⟨store, rfl, rfl, rfl, rfl, rfl, rfl⟩
  | pipe tasks output =>
    have left : s.afterPipe tasks = s.after programs := by
      rw [Step.tasks] at started
      rw [afterPipe, started]
    have conduct := cleanedUpConduct output ((s.after programs).supervised (s.members tasks))
    rw [runStep, runPipe, left] at store begun ⊢
    exact ⟨store, conduct.machine, conduct.searchPath, conduct.input, conduct.output, begun, conduct.calls⟩

end

theorem startsAlike {s : Session} {b : Store} (alike : s.store.Alike b) {tasks : List Task}
    {programs : List Program} (started : tasks.mapM s.start = .ok programs) :
    tasks.mapM (s.holding b).start = .ok programs := by
  rw [startsAll] at started ⊢
  rw [← started]
  refine List.map_congr_left fun task member => ?_
  cases first : s.start task with
  | error fault =>
    obtain ⟨program, accepted⟩ := startedEach (startsAll.mpr started) task member
    simp [first] at accepted
  | ok program => exact alike.start first

theorem shownInput {first second : List Outcome}
    (same : first.map Outcome.shown = second.map Outcome.shown) (input : ByteArray) :
    inputAfter input first = inputAfter input second := by
  cases first with
  | nil =>
    obtain rfl : second = [] := by simpa using same.symm
    rfl
  | cons one rest =>
    cases second with
    | nil => simp at same
    | cons other later =>
      have taken : one.taken = other.taken := congrArg Prod.fst (List.cons.inj same).1
      simp only [inputAfter, taken]

theorem shownOutput {first second : List Outcome}
    (same : first.map Outcome.shown = second.map Outcome.shown) : writtenBy first = writtenBy second := by
  have last := congrArg List.getLast? same
  rw [List.getLast?_map, List.getLast?_map] at last
  unfold writtenBy
  cases one : first.getLast? with
  | none =>
    cases other : second.getLast? with
    | none => rfl
    | some outcome => simp [one, other] at last
  | some outcome =>
    cases other : second.getLast? with
    | none => simp [one, other] at last
    | some also =>
      have shown : outcome.shown = also.shown := by simpa [one, other] using last
      exact congrArg (fun o => o.2.1) shown

theorem shownStatuses {first second : List Outcome}
    (same : first.map Outcome.shown = second.map Outcome.shown) :
    first.map Outcome.status = second.map Outcome.status := by
  have statuses := congrArg (List.map fun o => o.2.2) same
  simpa [Function.comp_def, Outcome.shown] using statuses

theorem commandsAlike {s : Session} {b : Store} (alike : s.store.Alike b) {tasks : List Task}
    {programs : List Program} (started : tasks.mapM s.start = .ok programs) :
    (s.holding b).commandEdits tasks = s.commandEdits tasks := by
  simp only [commandEdits, started, startsAlike alike started]
  exact (flowSame alike.toSamePlaces s.input programs).1.symm

theorem cleanupAlike {s : Session} {b : Store} (places : s.store.SamePlaces b) {step : Step}
    (result : ((s.holding b).runStep step).1 = (s.runStep step).1) :
    (s.holding b).cleanupEdits step = s.cleanupEdits step := by
  have removals (path : String) : b.removals path = s.store.removals path := by
    simp only [Store.removals, places.editable]
  simp only [cleanupEdits, result]
  split
  · exact removals _
  · rfl

theorem resultAlike {s : Session} {b : Store} {step : Step} {programs : List Program}
    (started : step.tasks.mapM s.start = .ok programs)
    (also : step.tasks.mapM (s.holding b).start = .ok programs)
    (same : (s.holding b).endings programs = s.endings programs)
    (begun : ∀ stage program fault, (s.runStep step).1 ≠ .error (.cannotStart stage program fault)) :
    ((s.holding b).runStep step).1 = (s.runStep step).1 := by
  rcases hearsOrLost s step.tasks with heard | ⟨before, task, rest, fault, split, heard, lost⟩
  · rw [stepResult also heard, stepResult started heard, same]
  · cases step with
    | run other =>
      obtain ⟨rfl, rfl⟩ : before = [] ∧ other = task := by
        cases before <;> simp_all [Step.tasks]
      obtain ⟨program, accepted⟩ := startedEach started other (by simp [Step.tasks])
      exact absurd (congrArg Prod.fst (taskLost accepted lost)) (begun _ _ _)
    | pipe tasks output =>
      obtain rfl : tasks = before ++ task :: rest := split
      have unheard : (s.holding b).machine.lost task = some fault := lost
      rw [runStep, runStep, pipeResult, pipeResult, (unheardPipeResult started heard lost).1]
      exact (unheardPipeResult also heard unheard).1

theorem stepAgain {s : Session} {b : Store} (alike : s.store.Alike b) {step : Step}
    (begun : ∀ stage program fault, (s.runStep step).1 ≠ .error (.cannotStart stage program fault)) :
    ((s.holding b).runStep step).1 = (s.runStep step).1 ∧
      SameDone ((s.holding b).runStep step).2 ((s.runStep step).2.holding (b.edited (s.stepEdits step))) := by
  obtain ⟨programs, started⟩ := stepStarts begun
  have also := startsAlike alike started
  have shown := (flowSame alike.toSamePlaces s.input programs).2
  have result : ((s.holding b).runStep step).1 = (s.runStep step).1 :=
    resultAlike started also (shownStatuses shown).symm begun
  have same : (s.holding b).stepEdits step = s.stepEdits step := by
    rw [stepEdits, commandsAlike alike started, cleanupAlike alike.toSamePlaces result]
    rfl
  have first := stepDone started
  have second := stepDone also
  refine ⟨result, ?_, second.machine.trans first.machine.symm,
    second.searchPath.trans first.searchPath.symm, ?_, ?_,
    second.started.trans first.started.symm, second.calls.trans first.calls.symm⟩
  · rw [second.store, same]
    rfl
  · exact second.input.trans ((shownInput shown s.input).symm.trans first.input.symm)
  · rw [second.output]
    refine Eq.trans ?_ first.output.symm
    exact congrArg (s.output ++ ·) (shownOutput shown).symm

structure Repeats (s : Session) (steps : List Step) (edits : List Edit) : Prop where
  allowed : s.store.Allows edits
  store : (s.runSteps steps).2.store = s.store.edited edits
  again : ∀ b, s.store.Alike b → ((s.holding b).runSteps steps).1 = (s.runSteps steps).1 ∧
    SameDone ((s.holding b).runSteps steps).2 ((s.runSteps steps).2.holding (b.edited edits))

theorem stepsRepeat {s : Session} {steps : List Step}
    (begun : ∀ stage program fault, (s.runSteps steps).1 ≠ .error (.cannotStart stage program fault)) :
    ∃ edits, s.Repeats steps edits := by
  induction steps generalizing s with
  | nil => exact ⟨[], by simp [Store.Allows], rfl, fun b _ => ⟨rfl, rfl, rfl, rfl, rfl, rfl, rfl, rfl⟩⟩
  | cons step rest ih =>
    cases result : (s.runStep step).1 with
    | error failure =>
      rw [runStepsStop result] at begun
      refine ⟨s.stepEdits step, stepAllows s step, ?_, fun b alike => ?_⟩
      · rw [runStepsStop result]
        exact stepStore s step
      · obtain ⟨same, done⟩ := stepAgain alike (result ▸ begun)
        rw [runStepsStop result, runStepsStop (same.trans result)]
        exact ⟨rfl, done⟩
    | ok passed =>
      rw [runStepsNext result] at begun
      obtain ⟨edits, tail⟩ := ih begun
      refine ⟨s.stepEdits step ++ edits, ?_, ?_, fun b alike => ?_⟩
      · intro e member
        rcases List.mem_append.mp member with early | late
        · exact stepAllows s step e early
        · exact fun directory => tail.allowed e late (((stepPlaces s step).directories e.place).mp directory)
      · rw [runStepsNext result, tail.store, stepStore, Store.editedAppend]
      · have middle : (s.runStep step).2.store.Alike (b.edited (s.stepEdits step)) := by
          rw [stepStore]
          exact alike.edited (stepAllows s step)
        have starts : ∀ stage program fault,
            (s.runStep step).1 ≠ .error (.cannotStart stage program fault) := by simp [result]
        obtain ⟨same, done⟩ := stepAgain alike starts
        obtain ⟨results, files⟩ := tail.again _ middle
        obtain ⟨also, later⟩ := stepsDone done rest
        rw [runStepsNext result, runStepsNext (same.trans result), Store.editedAppend]
        exact ⟨also.trans results, later.trans files⟩

structure SameBuild (first second : Result) : Prop where
  result : second.1 = first.1
  started : second.2.started = first.2.started
  calls : second.2.calls = first.2.calls
  output : second.2.output = first.2.output
  here : second.2.store.here = first.2.store.here
  files : ∀ l, second.2.store.get? l = first.2.store.get? l

theorem rebuildRepeatsBuild (s : Session) (settings : Settings) (words : List String)
    (begun : ∀ stage program fault,
      (s.build settings words).1 ≠ .error (.cannotStart stage program fault))
    (spared : ∀ l tool, s.store.get? l = some (.tool tool) →
      (s.build settings words).2.store.get? l = some (.tool tool)) :
    SameBuild (s.build settings words)
      ((s.holding (s.build settings words).2.store).build settings words) := by
  obtain ⟨result, done⟩ := s.buildDone settings words
  rw [result] at begun
  -- An edit puts no tool anywhere, so a build that leaves all tools has edited none of their places.
  obtain ⟨edits, run⟩ := stepsRepeat begun
  have left : (s.build settings words).2.store = s.store.edited edits := done.store.trans run.store
  rw [left] at spared ⊢
  obtain ⟨again, doneAgain⟩ := (s.holding (s.store.edited edits)).buildDone settings words
  obtain ⟨same, files⟩ := run.again _ (Store.editedAlike run.allowed spared)
  refine ⟨?_, ?_, ?_, ?_, ?_, ?_⟩
  · rw [again, same, result]
  · rw [doneAgain.started, files.started, done.started]
    rfl
  · rw [doneAgain.calls, files.calls, done.calls]
    rfl
  · rw [doneAgain.output, files.output, done.output]
    rfl
  · rw [doneAgain.store, files.store, left]
    exact Store.editedHere ..
  · intro l
    rw [doneAgain.store, files.store, left]
    exact s.store.editsAgain edits l

/- The code generator writes over a stale object and fails, so that the object is removed; the second build
does not find it. -/
theorem staleObjectRebuilt :
    let front : Tool := { usual := { intake := .drain } }
    let back : Tool := { usual := { intake := .copy, sink := .file, exit := 3 } }
    let s : Session := {
      store := ⟨["work"], [([], .directory), (["work"], .directory), (["bin"], .directory),
        (["bin", "clang"], .tool front), (["bin", "opt"], .tool front), (["bin", "llc"], .tool back),
        (["work", "prog.o"], .file .empty false)]⟩
      searchPath := ["/bin"] }
    let words := ["-o", "prog", "main.c"]
    (s.build {} words).1 = .error (.stageFailed .codegen "llc" 3) ∧
      ((s.build {} words).2.store.get? ["work", "prog.o"]).isNone ∧
      SameBuild (s.build {} words) ((s.holding (s.build {} words).2.store).build {} words) := by
  intro front back s words
  let compile : Task := ⟨.compile, "clang", ["-c", "-O0", "-emit-llvm", "main.c", "-o", "-"]⟩
  let optimize : Task := ⟨.optimize, "opt", ["-stats", "-load", "PREviaLCM.so", "-reassociate", "-newgvn"]⟩
  let codegen : Task := ⟨.codegen, "llc", ["-filetype=obj", "-o", "prog.o"]⟩
  let pipe : Step := .pipe [compile, optimize, codegen] "prog.o"
  let programs : List Program := [⟨["bin", "clang"], front, compile.invocation.arguments⟩,
    ⟨["bin", "opt"], front, optimize.invocation.arguments⟩,
    ⟨["bin", "llc"], back, codegen.invocation.arguments⟩]
  have planned : (makePlan {} words).plan.steps =
    [pipe, .run ⟨.link, "clang", ["prog.o", "-o", "prog"]⟩] := by decide
  have cc : s.store.lookUp s.searchPath "clang" = .ok (["bin", "clang"], front) := rfl
  have opt : s.store.lookUp s.searchPath "opt" = .ok (["bin", "opt"], front) := rfl
  have llc : s.store.lookUp s.searchPath "llc" = .ok (["bin", "llc"], back) := rfl
  have first : s.start compile = .ok ⟨_, _, _⟩ := startFound (by decide) cc
  have second : s.start optimize = .ok ⟨_, _, _⟩ := startFound (by decide) opt
  have third : s.start codegen = .ok ⟨_, _, _⟩ := startFound (by decide) llc
  have started : pipe.tasks.mapM s.start = .ok programs := by
    simp only [pipe, Step.tasks, List.mapM_cons, List.mapM_nil, first, second, third]
    rfl
  have statuses : s.endings programs = [.exited 0, .exited 0, .exited 3] := by decide +kernel
  have failed : (s.runStep pipe).1 = .error (.stageFailed .codegen "llc" 3) := by
    have good : (Status.exited 0).succeeded = true := by decide
    have bad : (Status.exited 3).succeeded = false := by decide
    have code : (Status.exited 3).code = 3 := by decide
    rw [stepResult started fun _ _ => rfl, statuses]
    simp [judge, blamed?, verdict, good, bad, code, pipe, Step.tasks, codegen]
  have places : (s.stepEdits pipe).map Edit.place = [["work", "prog.o"], ["work", "prog.o"]] := by
    decide +kernel
  have removed : ((s.build {} words).2.store.get? ["work", "prog.o"]).isNone = true := by decide +kernel
  have stale : s.store.get? ["work", "prog.o"] = some (.file .empty false) := rfl
  obtain ⟨result, done⟩ := s.buildDone {} words
  rw [planned, runStepsStop failed] at result done
  refine ⟨result, removed, rebuildRepeatsBuild s {} words (by simp [result]) ?_⟩
  intro l tool held
  have elsewhere : ∀ e ∈ s.stepEdits pipe, e.place ≠ l := by
    intro e member here
    have listed : l ∈ (s.stepEdits pipe).map Edit.place := here ▸ List.mem_map_of_mem member
    have same : l = ["work", "prog.o"] := by simpa [places] using listed
    rw [same, stale] at held
    simp at held
  rw [done.store, stepStore, Store.editedElsewhere elsewhere, held]

end StagedBuild.Session

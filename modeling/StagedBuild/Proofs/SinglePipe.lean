import StagedBuild.Proofs.StepEdits

/-! Pipes of one command. Such a pipe does what the command does that is run alone, and then cleans up if it
failed; a pipe of none does nothing. Whether the commands of a plan stand in pipes of their own can therefore be
told by the log and by an output that is gone after a failure, and by nothing else. -/
namespace StagedBuild

structure Store.Without (before : Store) (path : String) (after : Store) : Prop where
  here : after.here = before.here
  vacant : ∀ l node, after.find path = .ok (l, node) → node = .directory
  elsewhere : ∀ k, before.locate path ≠ .ok k → after.get? k = before.get? k
  directory : ∀ l, before.find path = .ok (l, .directory) → after = before

theorem Store.clearWithout (s : Store) (path : String) : s.Without path (s.clear path) := by
  unfold clear
  cases attempt : s.remove path with
  | ok t =>
    have gone := removedFind attempt
    refine ⟨?_, ?_, fun k elsewhere => removedFrame attempt elsewhere, ?_⟩
    · obtain ⟨l, node, _, _, _, rfl⟩ := removedPlace attempt
      rfl
    · intro l node found
      simp [gone] at found
    · intro l found
      simp [remove, found] at attempt
  | error fault =>
    refine ⟨rfl, ?_, fun _ _ => rfl, fun _ _ => rfl⟩
    intro l node found
    cases node with
    | directory => rfl
    | file content executable => simp [remove, found] at attempt
    | tool tool => simp [remove, found] at attempt

theorem Store.clearNothing {s : Store} {path : String}
    (absent : ∀ l, s.locate path = .ok l → s.get? l = none) : s.clear path = s := by
  have missing : ∃ fault, s.find path = .error fault := by
    unfold find
    cases reached : s.locate path with
    | error fault => exact ⟨fault, rfl⟩
    | ok l => exact ⟨.noEntry, by simp [nodeAt, absent l reached]⟩
  obtain ⟨fault, missing⟩ := missing
  simp only [clear, remove, missing]

namespace Session
open Supervision

theorem superviseEndedAlone (task : Task) (status : Status) :
    supervise [⟨task, .ended status⟩] = ⟨verdict task status, [.started 0, .waited 0],
      .startingPiped task :: if status.succeeded then [] else [.exited task.stage status]⟩ := by
  cases passed : status.succeeded <;>
    simp [supervise, launch, takeOutlet, joinDeed, waitDeeds, statuses, Except.map, judge, blamed?, verdict,
      passed]

theorem superviseRefusedAlone (task : Task) (fault : Fault) :
    supervise [⟨task, .refused fault⟩] =
      ⟨.error (.cannotStart task.stage task.invocation.program fault), [], [.startingPiped task]⟩ := rfl

theorem pipeOfOne {s : Session} {task : Task} (heard : s.Hears [task]) (output : String) :
    ∃ result t alone piped, s.runTask task = (result, log t alone) ∧
      s.runPipe [task] output = cleanedUp output (result, log t piped) := by
  cases begins : s.start task with
  | error fault =>
    have stopped : [task].mapM s.start = .error fault := by
      rw [startSingle, begins]
      rfl
    have none : s.begun [task] = [] := by simp [begunAlone, begins, Except.toBool]
    have members : s.members [task] = [⟨task, .refused fault⟩] := by
      simp [membersRefusing stopped, Session.stopped, begins]
    refine ⟨_, s, [.starting task], [.startingPiped task], taskRefused begins, ?_⟩
    rw [runPipe, endPipe, members, supervised, superviseRefusedAlone]
    simp [afterPipe, stopped, none, startedBy, log]
  | ok program =>
    let status := (program.run s.store s.input true).status
    let later : List Event := if status.succeeded then [] else [.exited task.stage status]
    have started : [task].mapM s.start = .ok [program] := startedAlone begins
    have members : s.members [task] = [⟨task, .ended status⟩] := membersEnded started heard
    refine ⟨verdict task status, { s with started := s.started ++ [task] }.after [program],
      [.starting task, .exited task.stage status], .startingPiped task :: later, ?_, ?_⟩
    · rw [taskStarted begins (heard task (List.mem_singleton.mpr rfl))]
      simp [log, after, status]
    · rw [runPipe, endPipe, members, supervised, superviseEndedAlone]
      simp [afterPipe, started, startedBy, log, after, later]

structure SinglePipe (s : Session) (task : Task) (output : String) : Prop where
  conduct : SameConduct (s.runStep (.run task)) (s.runStep (.pipe [task] output))
  passed : (s.runStep (.run task)).1 = .ok () →
    (s.runStep (.pipe [task] output)).2.store = (s.runStep (.run task)).2.store
  failed : ∀ failure, (s.runStep (.run task)).1 = .error failure →
    (s.runStep (.pipe [task] output)).2.store = (s.runStep (.run task)).2.store.clear output ∧
    (s.runStep (.run task)).2.store.Without output (s.runStep (.pipe [task] output)).2.store

theorem singlePipe {s : Session} {task : Task} (heard : s.Hears [task]) (output : String) :
    SinglePipe s task output := by
  obtain ⟨result, t, alone, piped, ran, run⟩ := pipeOfOne heard output
  have conduct := cleanedUpConduct output (result, t.log piped)
  have store := cleanedUpStore output (result, t.log piped)
  rw [← run] at conduct store
  refine ⟨?_, ?_, ?_⟩
  · rw [runStep, runStep, ran]
    exact ⟨conduct.result, conduct.machine, conduct.searchPath, conduct.input, conduct.output, conduct.started, conduct.calls⟩
  · intro passed
    rw [runStep, ran] at passed
    rw [runStep, runStep, ran, store, passed]
    rfl
  · intro failure failed
    rw [runStep, ran] at failed
    have cleared : (s.runStep (.pipe [task] output)).2.store =
        (s.runStep (.run task)).2.store.clear output := by
      rw [runStep, runStep, ran, store, failed]
      rfl
    refine ⟨cleared, ?_⟩
    rw [cleared]
    exact Store.clearWithout ..

theorem emptyPipe (s : Session) (output : String) : s.runStep (.pipe [] output) = (.ok (), s) := by
  have nothing : s.runStep (.pipe [] output) =
      (.ok (), { s with
        output := s.output ++ .empty
        started := s.started ++ []
        calls := s.calls ++ []
        events := s.events ++ [] }) := rfl
  simpa using nothing

end Session

/- Steps of which some single commands are put into pipes of their own, with empty pipes in between. The
outputs are those of these pipes. -/
inductive Repiped : List Step → List Step → List String → Prop where
  | nil : Repiped [] [] []
  | kept {steps others outputs} (step : Step) (tail : Repiped steps others outputs) :
      Repiped (step :: steps) (step :: others) outputs
  | piped {steps others outputs} (task : Task) (output : String) (tail : Repiped steps others outputs) :
      Repiped (.run task :: steps) (.pipe [task] output :: others) (output :: outputs)
  | inserted {steps others outputs} (output : String) (tail : Repiped steps others outputs) :
      Repiped steps (.pipe [] output :: others) (output :: outputs)

namespace Session

theorem hearsNow {s : Session} {step : Step} {rest : List Step}
    (heard : s.Hears ((step :: rest).flatMap Step.tasks)) : s.Hears step.tasks :=
  fun task member => heard task (by simp [member])

theorem hearsLater {s : Session} {step : Step} {rest : List Step}
    (heard : s.Hears ((step :: rest).flatMap Step.tasks)) :
    (s.runStep step).2.Hears (rest.flatMap Step.tasks) := by
  intro task member
  rw [stepMachine]
  exact heard task (List.mem_append_right _ member)

structure Imitates (outputs : List String) (r q : Result) : Prop where
  conduct : SameConduct r q
  store : q.2.store = r.2.store ∨ ∃ failure, r.1 = .error failure ∧
    ∃ output ∈ outputs, q.2.store = r.2.store.clear output

theorem Imitates.refl (outputs : List String) (r : Result) : Imitates outputs r r :=
  ⟨⟨rfl, rfl, rfl, rfl, rfl, rfl, rfl⟩, .inl rfl⟩

theorem Imitates.more {outputs : List String} {r q : Result} (imitates : Imitates outputs r q)
    (output : String) : Imitates (output :: outputs) r q := by
  refine ⟨imitates.conduct, ?_⟩
  rcases imitates.store with same | ⟨failure, failed, removed, member, store⟩
  · exact .inl same
  · exact .inr ⟨failure, failed, removed, List.mem_cons_of_mem _ member, store⟩

theorem Imitates.done {outputs : List String} {r q r' q' : Result} (imitates : Imitates outputs r q)
    (left : r'.1 = r.1 ∧ SameDone r'.2 r.2) (right : q'.1 = q.1 ∧ SameDone q'.2 q.2) :
    Imitates outputs r' q' := by
  obtain ⟨result, done⟩ := left
  obtain ⟨result', done'⟩ := right
  have conduct := imitates.conduct
  refine ⟨⟨?_, ?_, ?_, ?_, ?_, ?_, ?_⟩, ?_⟩
  · rw [result', result, conduct.result]
  · rw [done'.machine, done.machine, conduct.machine]
  · rw [done'.searchPath, done.searchPath, conduct.searchPath]
  · rw [done'.input, done.input, conduct.input]
  · rw [done'.output, done.output, conduct.output]
  · rw [done'.started, done.started, conduct.started]
  · rw [done'.calls, done.calls, conduct.calls]
  · rw [done'.store, done.store, result]
    exact imitates.store

theorem repipedRuns {steps others : List Step} {outputs : List String}
    (repiped : Repiped steps others outputs) (s : Session) (heard : s.Hears (steps.flatMap Step.tasks)) :
    Imitates outputs (s.runSteps steps) (s.runSteps others) := by
  induction repiped generalizing s with
  | nil => exact .refl [] _
  | @kept steps others outputs step tail ih =>
    cases result : (s.runStep step).1 with
    | error failure =>
      rw [runStepsStop result, runStepsStop result]
      exact .refl outputs _
    | ok passed =>
      rw [runStepsNext result, runStepsNext result]
      exact ih (s.runStep step).2 (hearsLater heard)
  | @piped steps others outputs task output tail ih =>
    have pipe := singlePipe (hearsNow heard) output
    have conduct := pipe.conduct
    cases result : (s.runStep (.run task)).1 with
    | error failure =>
      rw [runStepsStop result, runStepsStop (conduct.result.trans result)]
      refine ⟨⟨rfl, conduct.machine, conduct.searchPath, conduct.input, conduct.output, conduct.started,
        conduct.calls⟩, ?_⟩
      exact .inr ⟨failure, rfl, output, by simp, (pipe.failed failure result).1⟩
    | ok passed =>
      rw [runStepsNext result, runStepsNext (conduct.result.trans result)]
      have same : SameDone (s.runStep (.pipe [task] output)).2 (s.runStep (.run task)).2 :=
        ⟨pipe.passed result, conduct.machine, conduct.searchPath, conduct.input, conduct.output,
          conduct.started, conduct.calls⟩
      -- The two sessions differ in what was reported, so the rest is compared from the one without the pipe.
      have later := ih (s.runStep (.run task)).2 (hearsLater heard)
      exact (later.done ⟨rfl, .refl _⟩ (stepsDone same others)).more output
  | @inserted steps others outputs output tail ih =>
    have passed := congrArg Prod.fst (emptyPipe s output)
    have left := congrArg Prod.snd (emptyPipe s output)
    rw [runStepsNext passed, left]
    exact (ih s heard).more output

theorem executeDone (s : Session) (plan : Plan) :
    (s.execute plan).1 = (s.runSteps plan.steps).1 ∧ SameDone (s.execute plan).2 (s.runSteps plan.steps).2 :=
  stepsDone (s.logDone _) plan.steps

def Unused (s : Session) (steps : List Step) (path : String) : Prop :=
  ∀ l, s.store.locate path = .ok l → s.store.get? l = none ∧
    ∀ done step mid, Begins s steps done step mid → ∀ e ∈ mid.commandEdits step.tasks, e.place ≠ l

theorem stepStaysEmpty {s : Session} {step : Step} {l : Location} (absent : s.store.get? l = none)
    (unwritten : ∀ e ∈ s.commandEdits step.tasks, e.place ≠ l) :
    (s.runStep step).2.store.get? l = none := by
  have written : (s.afterPipe step.tasks).store.get? l = none := by
    rw [commandStore, Store.editedElsewhere unwritten, absent]
  rcases stepFiles s step with same | ⟨tasks, output, failure, rfl, _, gone⟩
  · rw [same, written]
  · obtain ⟨place, _, _, _, _, erased⟩ := Store.removedPlace gone
    have before : (s.afterPipe tasks).store.get? l = none := written
    simp [erased, before]

theorem unusedStaysEmpty {s : Session} {steps : List Step} {path : String}
    (unused : s.Unused steps path) :
    ∀ l, (s.runSteps steps).2.store.locate path = .ok l → (s.runSteps steps).2.store.get? l = none := by
  induction steps generalizing s with
  | nil => exact fun l reached => (unused l reached).1
  | cons step rest ih =>
    -- A step moves no directories, so the path leads to the same place before it and after it.
    have places := stepPlaces s step
    have stays (l : Location) (reached : (s.runStep step).2.store.locate path = .ok l) :
        (s.runStep step).2.store.get? l = none := by
      obtain ⟨absent, unwritten⟩ := unused l ((places.locate path l).mpr reached)
      exact stepStaysEmpty absent (unwritten [] step s (beginsNow s step rest))
    cases result : (s.runStep step).1 with
    | error failure =>
      rw [runStepsStop result]
      exact stays
    | ok passed =>
      have head : s.runStep step = (.ok (), (s.runStep step).2) := Prod.ext result rfl
      rw [runStepsNext result]
      refine ih fun l reached => ⟨stays l reached, ?_⟩
      intro done next mid begins
      have unwritten := (unused l ((places.locate path l).mpr reached)).2
      exact unwritten (step :: done) next mid (beginsLater head begins)

structure RunsAlike (s : Session) (plan other : Plan) (outputs : List String) : Prop where
  conduct : SameConduct (s.execute plan) (s.execute other)
  passed : (s.execute plan).1 = .ok () → (s.execute other).2.store = (s.execute plan).2.store
  failed : ∀ failure, (s.execute plan).1 = .error failure →
    (s.execute other).2.store = (s.execute plan).2.store ∨
      ∃ output ∈ outputs, (s.execute plan).2.store.Without output (s.execute other).2.store
  unused : (∀ output ∈ outputs, s.Unused plan.steps output) →
    (s.execute other).2.store = (s.execute plan).2.store

theorem repipedRunsAlike {plan other : Plan} {outputs : List String}
    (repiped : Repiped plan.steps other.steps outputs) {s : Session} (heard : s.Hears plan.tasks) :
    RunsAlike s plan other outputs := by
  have imitates := (repipedRuns repiped s heard).done (executeDone s plan) (executeDone s other)
  refine ⟨imitates.conduct, ?_, ?_, ?_⟩
  · intro passed
    rcases imitates.store with same | ⟨failure, failed, _⟩
    · exact same
    · simp [passed] at failed
  · intro failure failed
    rcases imitates.store with same | ⟨_, _, output, member, store⟩
    · exact .inl same
    · refine .inr ⟨output, member, ?_⟩
      rw [store]
      exact Store.clearWithout ..
  · intro unused
    rcases imitates.store with same | ⟨_, _, output, member, store⟩
    · exact same
    · have empty := unusedStaysEmpty (unused output member)
      rw [← (executeDone s plan).2.store] at empty
      rw [store, Store.clearNothing empty]

theorem singlePipesRunAlike :
    (∀ task status, (supervise [⟨task, .ended status⟩]).result = verdict task status) ∧
    (∀ task fault, (supervise [⟨task, .refused fault⟩]).result =
      .error (.cannotStart task.stage task.invocation.program fault)) ∧
    (∀ (s : Session) task output, s.Hears [task] → SinglePipe s task output) ∧
    (∀ (s : Session) output, s.runStep (.pipe [] output) = (.ok (), s)) ∧
    ∀ (s : Session) plan other outputs, s.Hears plan.tasks →
      Repiped plan.steps other.steps outputs → RunsAlike s plan other outputs := by
  refine ⟨?_, ?_, ?_, emptyPipe, ?_⟩
  · intro task status
    rw [superviseEndedAlone]
  · intro task fault
    rw [superviseRefusedAlone]
  · exact fun s task output heard => singlePipe heard output
  · exact fun s plan other outputs heard repiped => repipedRunsAlike repiped heard

/- The one command dies of a broken pipe, which is to be blamed on nobody else. -/
theorem brokenPipeAlone :
    let cc : Tool := { usual := { sink := .file, signal := some 13 } }
    let s : Session := {
      store := ⟨["work"], [([], .directory), (["work"], .directory), (["bin"], .directory),
        (["bin", "cc"], .tool cc)]⟩
      searchPath := ["/bin"] }
    let task : Task := ⟨.link, "cc", ["-o", "prog"]⟩
    let plan : Plan := ⟨.linkObject, [.run task]⟩
    let other : Plan := ⟨.linkObject, [.pipe [] "none.o", .pipe [task] "gone.o"]⟩
    Repiped plan.steps other.steps ["none.o", "gone.o"] ∧ s.Unused plan.steps "none.o" ∧
      s.Unused plan.steps "gone.o" ∧ (s.execute plan).1 = .error (.stageFailed .link "cc" 141) ∧
      (s.execute other).1 = .error (.stageFailed .link "cc" 141) ∧
      (s.execute other).2.store = (s.execute plan).2.store := by
  intro cc s task plan other
  let program : Program := ⟨["bin", "cc"], cc, ["-o", "prog"]⟩
  have found : s.store.lookUp s.searchPath "cc" = .ok (["bin", "cc"], cc) := rfl
  have started : s.start task = .ok program := startFound (by decide) found
  have killed : (program.run s.store s.input true).status = .killed 13 := by decide +kernel
  have failed : (s.runStep (.run task)).1 = .error (.stageFailed .link "cc" 141) := by
    have bad : (Status.killed 13).succeeded = false := by decide
    have code : (Status.killed 13).code = 141 := by decide
    simp [runStep, taskStarted started rfl, killed, verdict, bad, code, task]
  have result : (s.execute plan).1 = .error (.stageFailed .link "cc" 141) := by
    rw [(executeDone s plan).1, runStepsStop failed]
  have places : (s.commandEdits [task]).map Edit.place = [["work", "prog"]] := by decide +kernel
  have unused {path name : String} (reached : s.store.locate path = .ok ["work", name])
      (absent : s.store.get? ["work", name] = none) (other : name ≠ "prog") : s.Unused plan.steps path := by
    intro l found
    obtain rfl := Except.ok.inj (reached.symm.trans found)
    refine ⟨absent, fun done step mid begins e member here => ?_⟩
    obtain ⟨⟨rest, split⟩, run⟩ := begins
    cases run with
    | nil =>
      obtain ⟨rfl, _⟩ := List.cons.inj split
      have listed : ["work", name] ∈ (s.commandEdits [task]).map Edit.place :=
        here ▸ List.mem_map_of_mem member
      simp [places, other] at listed
    | cons head tail => simp [plan] at split
  have unusedNone : s.Unused plan.steps "none.o" := unused rfl rfl (by decide)
  have unusedGone : s.Unused plan.steps "gone.o" := unused rfl rfl (by decide)
  have repiped : Repiped plan.steps other.steps ["none.o", "gone.o"] := .inserted _ (.piped _ _ .nil)
  have alike := singlePipesRunAlike.2.2.2.2 s plan other _ (fun _ _ => rfl) repiped
  exact ⟨repiped, unusedNone, unusedGone, result, alike.conduct.result.trans result,
    alike.unused (by simp [unusedNone, unusedGone])⟩

end Session

end StagedBuild

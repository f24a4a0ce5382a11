import StagedBuild.Proofs.CommandLine
import StagedBuild.Proofs.RunLog
import StagedBuild.Proofs.StatusCode

/-! The exit code of the program. It is zero if and only if every command of the plan was run, is
known to have ended and succeeded, and otherwise the code of the failure, which always is one that a process can have. -/
namespace StagedBuild

theorem Behaviour.statusTerminated (b : Behaviour) : b.status.Terminated := by
  unfold status
  cases b.signal with
  | none => exact .inl ⟨b.exit, rfl⟩
  | some signal =>
    by_cases fatal : isFatal signal = true
    · have range : 1 ≤ signal ∧ signal ≤ 64 := by
        simp only [isFatal, Bool.and_eq_true, decide_eq_true_eq] at fatal
        exact fatal.1
      simp only [if_pos fatal]
      exact .inr ⟨signal, range.1, by omega, .inl rfl⟩
    · simp only [if_neg fatal]
      exact .inl ⟨b.exit, rfl⟩

theorem Program.finishTerminated (p : Program) (heeded : Bool) (store : Store) (taken : Bool)
    (written : ByteArray) : (p.finish heeded store taken written).status.Terminated := by
  unfold finish
  dsimp only
  split
  · exact .inl ⟨_, rfl⟩
  · exact p.behaviour.statusTerminated

theorem Program.runTerminated (p : Program) (store : Store) (input : ByteArray) (heeded : Bool) :
    (p.run store input heeded).status.Terminated := by
  unfold run
  cases p.behaviour.sink with
  | file => cases store.write p.target (p.content input) <;> exact finishTerminated ..
  | stream =>
    dsimp only
    split
    · exact finishTerminated ..
    · exact .inr ⟨Status.pipeSignal, by decide, by decide, .inl rfl⟩

theorem flowTerminated (store : Store) (input : ByteArray) (programs : List Program) :
    ∀ outcome ∈ flow store input programs, outcome.status.Terminated := by
  induction programs generalizing store input with
  | nil => simp [flow]
  | cons p rest ih =>
    intro outcome member
    simp only [flow, List.mem_cons] at member
    rcases member with rfl | later
    · exact p.runTerminated ..
    · exact ih _ _ outcome later

def Failure.Telling (f : Failure) : Prop := 1 ≤ f.exitCode ∧ f.exitCode ≤ 255

theorem oneTelling {f : Failure} (one : f.exitCode = 1) : f.Telling := by
  unfold Failure.Telling
  omega

theorem cannotStartTelling (stage : Stage) (program : String) (fault : Fault) :
    (Failure.cannotStart stage program fault).Telling := by
  unfold Failure.Telling Failure.exitCode
  dsimp only
  split <;> omega

theorem stageFailedTelling {status : Status} (stage : Stage) (program : String)
    (terminated : status.Terminated) (bad : status.succeeded = false) :
    (Failure.stageFailed stage program status.code).Telling := by
  have byte := status.codeRule.byte
  have nonzero : status.code ≠ 0 := fun zero => by
    simp [(Status.terminatedCode terminated).mp zero] at bad
  unfold Failure.Telling Failure.exitCode
  dsimp only
  omega

open Supervision in
theorem superviseTelling {members : List Member} {failure : Failure}
    (terminated : ∀ m ∈ members, ∀ status, m.fate = .ended status → status.Terminated)
    (failed : (supervise members).result = .error failure) : failure.Telling := by
  obtain ⟨result, deeds, course⟩ := courseExists members
  rw [(courseSound course).1] at failed
  cases course with
  | refused begun fate =>
    cases failed
    exact cannotStartTelling ..
  | lost ended fate begun =>
    cases failed
    exact oneTelling rfl
  | succeeded nobody => contradiction
  | @blamed runs n run position found =>
    have inside : run ∈ runs := List.mem_of_getElem? found
    have ended : run.2.Terminated :=
      terminated (endedMember run) (List.mem_map_of_mem inside) run.2 rfl
    obtain ⟨bad, rfl⟩ := verdictError failed
    exact stageFailedTelling _ _ ended bad

namespace Session
open Supervision

/- Why a step of a plan fails: one of its commands cannot be started, or all are and how one of them ended
is not learned, or it is learned of all and one of them ended badly. A single command of which it is not
learned is reported as one that cannot be started. -/
inductive Fails (s : Session) : Step → Failure → Prop where
  | refused {step task fault} (member : task ∈ step.tasks) (refused : s.start task = .error fault) :
      Fails s step (.cannotStart task.stage task.invocation.program fault)
  | unheard {task program fault} (started : s.start task = .ok program)
      (lost : s.machine.lost task = some fault) :
      Fails s (.run task) (.cannotStart task.stage task.invocation.program fault)
  | lost {tasks output programs task fault} (started : tasks.mapM s.start = .ok programs)
      (member : task ∈ tasks) (lost : s.machine.lost task = some fault) :
      Fails s (.pipe tasks output) (.cannotWait task.stage task.invocation.program fault)
  | ended {step} {programs : List Program} {n : Nat} {task : Task} {status : Status}
      (started : step.tasks.mapM s.start = .ok programs) (heard : s.Hears step.tasks)
      (atTask : step.tasks[n]? = some task) (atStatus : (s.endings programs)[n]? = some status)
      (bad : status.succeeded = false) :
      Fails s step (.stageFailed task.stage task.invocation.program status.code)

def StepSucceeds (s : Session) (step : Step) : Prop :=
  s.Hears step.tasks ∧ ∃ programs, step.tasks.mapM s.start = .ok programs ∧
    ∀ status ∈ s.endings programs, status.succeeded = true

def AllSucceed (s : Session) : List Step → Prop
  | [] => True
  | step :: rest => s.StepSucceeds step ∧ (s.runStep step).2.AllSucceed rest

theorem endingsTerminated (s : Session) (programs : List Program) :
    ∀ status ∈ s.endings programs, status.Terminated := by
  intro status member
  obtain ⟨outcome, inside, rfl⟩ := List.mem_map.mp member
  exact flowTerminated _ _ _ outcome inside

theorem failsTelling {s : Session} {step : Step} {failure : Failure}
    (fails : Fails s step failure) : failure.Telling := by
  cases fails with
  | refused member refused => exact cannotStartTelling ..
  | unheard started lost => exact cannotStartTelling ..
  | lost started member lost => exact oneTelling rfl
  | ended started heard atTask atStatus bad =>
    exact stageFailedTelling _ _ (s.endingsTerminated _ _ (List.mem_of_getElem? atStatus)) bad

theorem startedAlone {s : Session} {task : Task} {program : Program} (start : s.start task = .ok program) :
    [task].mapM s.start = .ok [program] := by
  rw [startSingle, start]
  rfl

theorem stepFails {s : Session} {step : Step} {failure : Failure}
    (failed : (s.runStep step).1 = .error failure) : Fails s step failure := by
  obtain ⟨events, _, log⟩ := stepLogged s step
  rw [failed] at log
  generalize result : (Except.error failure : Except Failure Unit) = r at log
  cases log with
  | refused start =>
    cases result
    exact .refused (by simp [Step.tasks]) start
  | unheard start lost =>
    cases result
    exact .unheard start lost
  | @ran task program status start heard ended =>
    obtain ⟨bad, rfl⟩ := verdictError result.symm
    exact .ended (n := 0) (startedAlone start) heard rfl (congrArg some ended) bad
  | pipeRefused begun start cleaned =>
    cases result
    exact .refused (by simp [Step.tasks]) start
  | pipeUnheard start heard lost cleaned =>
    cases result
    exact .lost start (by simp) lost
  | pipePassed start heard passed => contradiction
  | pipeFailed start heard blame named ended cleaned =>
    cases result
    obtain ⟨other, found, bad⟩ := blamedFailed ((blamedExact _ _).mpr blame)
    cases Option.some.inj (found.symm.trans ended)
    exact .ended start heard named ended bad

theorem stepPasses {s : Session} {step : Step} (passed : (s.runStep step).1 = .ok ()) :
    s.StepSucceeds step := by
  obtain ⟨events, _, log⟩ := stepLogged s step
  rw [passed] at log
  generalize result : (Except.ok () : Except Failure Unit) = r at log
  cases log with
  | refused start => contradiction
  | unheard start lost => contradiction
  | @ran task program status start heard ended =>
    refine ⟨heard, [program], startedAlone start, fun other member => ?_⟩
    obtain rfl : other = status := (List.mem_singleton.mp member).trans ended
    exact verdictPassed result.symm
  | pipeRefused begun start cleaned => contradiction
  | pipeUnheard start heard lost cleaned => contradiction
  | pipePassed start heard all => exact ⟨heard, _, start, all⟩
  | pipeFailed start heard blame named ended cleaned => contradiction

theorem stepSucceeds (s : Session) (step : Step) :
    (s.runStep step).1 = .ok () ↔ s.StepSucceeds step := by
  refine ⟨stepPasses, ?_⟩
  rintro ⟨heard, programs, started, all⟩
  cases result : (s.runStep step).1 with
  | ok passed => rfl
  | error failure =>
    cases stepFails result with
    | refused member refused =>
      obtain ⟨program, accepted⟩ := startedEach started _ member
      simp [refused] at accepted
    | unheard _ lost => simp [heard _ (List.mem_singleton.mpr rfl)] at lost
    | lost _ member lost => simp [heard _ member] at lost
    | ended again _ _ atStatus bad =>
      rw [started] at again
      cases again
      simp [all _ (List.mem_of_getElem? atStatus)] at bad

theorem stepsSucceed (s : Session) (steps : List Step) :
    (s.runSteps steps).1 = .ok () ↔ s.AllSucceed steps := by
  induction steps generalizing s with
  | nil => simp [runSteps, AllSucceed]
  | cons step rest ih =>
    rw [AllSucceed, ← stepSucceeds, ← ih]
    cases ran : s.runStep step with
    | mk result mid =>
      simp only [runSteps, ran]
      cases result <;> simp

end Session

namespace CommandLine

theorem exitByteTelling {failure : Failure} (telling : failure.Telling) :
    ((exitByte failure).toNat : Int) = failure.exitCode := by
  obtain ⟨low, high⟩ := telling
  have range : 0 ≤ failure.exitCode ∧ failure.exitCode ≤ 255 := ⟨by omega, high⟩
  have small : failure.exitCode.toNat % 256 = failure.exitCode.toNat := by omega
  simp only [exitByte, if_pos range, UInt8.toNat_ofNat']
  omega

variable {s : Session} {e : Environment} {words : List String}

theorem chosenError {loaded : Except SettingsError Settings} {failure : Failure}
    (refused : chooseSettings loaded words = .error failure) :
    ∃ error, loaded = .error error ∧ failure = .settings error := by
  unfold chooseSettings at refused
  cases loaded with
  | ok settings => contradiction
  | error error =>
    dsimp only at refused
    split at refused
    · contradiction
    · cases refused
      exact ⟨error, rfl, rfl⟩

theorem runResult {settings : Settings} {events : List Event} (given : words ≠ [])
    (chosen : chooseSettings (s.settingsFor e) words = .ok (settings, events)) :
    (run s e words).result = (s.runSteps (makePlan settings words).plan.steps).1 := by
  have built : (run s e words).result = ((s.log events).build settings words).1 := by
    rw [runGiven given]
    simp only [build, chosen]
  rw [built, (s.buildLogged events settings words).1, s.buildRuns]
  exact s.stepsLogged _ _

theorem runUnsettled {failure : Failure} (given : words ≠ [])
    (refused : chooseSettings (s.settingsFor e) words = .error failure) :
    (run s e words).result = .error failure := by
  rw [runGiven given]
  simp only [build, refused]

theorem runSucceeds (given : words ≠ []) :
    (run s e words).result = .ok () ↔
      ∃ settings events, chooseSettings (s.settingsFor e) words = .ok (settings, events) ∧
        s.AllSucceed (makePlan settings words).plan.steps := by
  cases chosen : chooseSettings (s.settingsFor e) words with
  | error failure => simp [runUnsettled given chosen]
  | ok choice =>
    obtain ⟨settings, events⟩ := choice
    rw [runResult given chosen, s.stepsSucceed]
    simp

theorem runFails {failure : Failure} (given : words ≠ [])
    (failed : (run s e words).result = .error failure) :
    (∃ error, s.settingsFor e = .error error ∧ failure = .settings error) ∨
      ∃ settings events done step mid,
        chooseSettings (s.settingsFor e) words = .ok (settings, events) ∧
        Session.Begins s (makePlan settings words).plan.steps done step mid ∧
        Session.Fails mid step failure := by
  cases chosen : chooseSettings (s.settingsFor e) words with
  | error other =>
    rw [runUnsettled given chosen, Except.error.injEq] at failed
    exact .inl (failed ▸ chosenError chosen)
  | ok choice =>
    obtain ⟨settings, events⟩ := choice
    rw [runResult given chosen] at failed
    obtain ⟨done, step, mid, begins, last⟩ :=
      (Session.runStepsError s _ _ failure).mp (Prod.ext failed rfl)
    exact .inr ⟨settings, events, done, step, mid, rfl, begins, Session.stepFails (by rw [last])⟩

theorem runTelling {failure : Failure} (given : words ≠ [])
    (failed : (run s e words).result = .error failure) : failure.Telling := by
  rcases runFails given failed with ⟨error, _, rfl⟩ | ⟨_, _, _, _, _, _, _, fails⟩
  · exact oneTelling rfl
  · exact Session.failsTelling fails

theorem runCode {failure : Failure} (given : words ≠ [])
    (failed : (run s e words).result = .error failure) :
    ((run s e words).code.toNat : Int) = failure.exitCode := by
  simp only [Finish.code, failed]
  exact exitByteTelling (runTelling given failed)

theorem notFoundCode (failure : Failure) : failure.exitCode = 127 ↔
    (∃ stage program, failure = .stageFailed stage program 127) ∨
      ∃ stage program fault, failure = .cannotStart stage program fault ∧ fault.kind = .notFound := by
  cases failure with
  | settings error => simp [Failure.exitCode]
  | cannotStart stage program fault =>
    by_cases absent : fault.kind = .notFound
    · have code : (Failure.cannotStart stage program fault).exitCode = 127 := by
        simp [Failure.exitCode, absent]
      exact ⟨fun _ => .inr ⟨stage, program, fault, rfl, absent⟩, fun _ => code⟩
    · simp [Failure.exitCode, absent]
  | stageFailed stage program code => simp [Failure.exitCode]
  | cannotWait stage program fault => simp [Failure.exitCode]
  | disconnected stage => simp [Failure.exitCode]

structure ExitsByResult (s : Session) (e : Environment) (words : List String) : Prop where
  zero : (run s e words).code = 0 ↔ (run s e words).result = .ok ()
  succeeded : (run s e words).result = .ok () ↔
    ∃ settings events, chooseSettings (s.settingsFor e) words = .ok (settings, events) ∧
      s.AllSucceed (makePlan settings words).plan.steps
  untruncated : ∀ failure, (run s e words).result = .error failure →
    ((run s e words).code.toNat : Int) = failure.exitCode ∧ (run s e words).code ≠ 0
  printed : ∀ stage program code, (run s e words).result = .error (.stageFailed stage program code) →
    (Failure.stageFailed stage program code).message = stage.label ++ " stage '" ++ program ++
      "' failed with exit code " ++ toString (run s e words).code.toNat
  notFound : ∀ failure, (run s e words).result = .error failure →
    ((run s e words).code = 127 ↔
      (∃ stage program, failure = .stageFailed stage program 127) ∨
        ∃ stage program fault, failure = .cannotStart stage program fault ∧ fault.kind = .notFound)
  settings : ∀ error, (run s e words).result = .error (.settings error) → (run s e words).code = 1
  origin : ∀ failure, (run s e words).result = .error failure →
    (∃ error, s.settingsFor e = .error error ∧ failure = .settings error) ∨
      ∃ settings events done step mid,
        chooseSettings (s.settingsFor e) words = .ok (settings, events) ∧
        Session.Begins s (makePlan settings words).plan.steps done step mid ∧
        Session.Fails mid step failure

theorem runNonzero {failure : Failure} (given : words ≠ [])
    (failed : (run s e words).result = .error failure) : (run s e words).code ≠ 0 := by
  intro zero
  have code := runCode given failed
  have low := (runTelling given failed).1
  rw [zero, UInt8.toNat_zero] at code
  omega

theorem exitsByResult (given : words ≠ []) : ExitsByResult s e words where
  zero := by
    constructor
    · intro zero
      cases result : (run s e words).result with
      | ok passed => rfl
      | error failure => exact absurd zero (runNonzero given result)
    · intro passed
      simp only [Finish.code, passed]
  succeeded := runSucceeds given
  untruncated _ failed := ⟨runCode given failed, runNonzero given failed⟩
  printed stage program code failed := by
    have same : ((run s e words).code.toNat : Int) = code := runCode given failed
    rw [← same]
    rfl
  notFound failure failed := by
    have code := runCode given failed
    have value : (run s e words).code = 127 ↔ (run s e words).code.toNat = 127 := by
      rw [← UInt8.toNat_inj]
      rfl
    rw [value, ← notFoundCode, ← code]
    omega
  settings error failed := by
    simp only [Finish.code, failed]
    rfl
  origin _ := runFails given

end CommandLine

end StagedBuild

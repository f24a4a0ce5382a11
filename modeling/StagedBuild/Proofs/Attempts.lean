import StagedBuild.Proofs.Execution
import StagedBuild.Proofs.Logging
import StagedBuild.Proofs.PipeCourse

/-! The commands that a run tries to start, whether it can or not. Each is reported when its turn comes;
they are those of the plan, in order, and the one that a failure names is among them. -/
namespace StagedBuild

def Event.attempt? : Event → Option Task
  | .starting task => some task
  | .startingPiped task => some task
  | _ => none

def attempts (events : List Event) : List Task := events.filterMap Event.attempt?

@[simp] theorem attemptsAppend (first second : List Event) :
    attempts (first ++ second) = attempts first ++ attempts second := List.filterMap_append

theorem attemptsNone {events : List Event} (none : ∀ event ∈ events, event.attempt? = none) :
    attempts events = [] := List.filterMap_eq_nil_iff.mpr none

namespace Supervision

/- The members whose turn has come: those that were started, and the one that could not be. -/
def reached (members : List Member) : List Member := members.take ((startable members).length + 1)

theorem attemptsPiped (members : List Member) :
    attempts (members.map fun m => .startingPiped m.task) = members.map Member.task := by
  induction members with
  | nil => rfl
  | cons m rest ih => simpa [attempts, Event.attempt?] using ih

theorem superviseAttempts (members : List Member) :
    attempts (supervise members).events = (reached members).map Member.task := by
  have launched : attempts (launch [] members).events = (reached members).map Member.task := by
    rw [launchedEvents (launchTrace members), attemptsPiped, reached]
  have judged (found : List Status) : attempts (judge (members.map Member.task) found).2 = [] := by
    refine attemptsNone fun event member => ?_
    obtain ⟨stage, status, rfl⟩ := judgeEvents _ _ event member
    rfl
  cases refused : refusal? members with
  | some failure => rw [superviseRefused refused, launched]
  | none =>
    cases learned : statuses (launch [] members).children with
    | error failure => rw [superviseLost refused learned, launched]
    | ok found => rw [superviseJudged refused learned, attemptsAppend, judged, launched, List.append_nil]

theorem startableReached (members : List Member) : startable members <+: reached members := by
  have before : startable members <+: members := List.takeWhile_prefix _
  rw [List.prefix_iff_eq_take.mp before]
  exact List.take_prefix_take_left (by omega)

theorem reachedAll {members : List Member} (all : startable members = members) :
    reached members = members := by
  rw [reached, all]
  exact List.take_of_length_le (by omega)

theorem passedStarted {members : List Member} (passed : (supervise members).result = .ok ()) :
    startable members = members := by
  rcases refusedOrBegun members with ⟨before, m, rest, fault, rfl, begun, fate⟩ | begun
  · simp [(superviseStopped begun fate).1] at passed
  · exact startableBegun begun

theorem failureReached {members : List Member} {failure : Failure}
    (failed : (supervise members).result = .error failure) :
    ∃ m ∈ reached members, failure.Names m.task := by
  rcases refusedOrBegun members with ⟨before, m, rest, fault, rfl, begun, fate⟩ | begun
  · have last : m ∈ reached (before ++ m :: rest) := by
      simp [reached, startableBefore begun fate, List.take_append]
    rw [(superviseStopped begun fate).1] at failed
    cases failed
    exact ⟨m, last, rfl, rfl⟩
  · rw [reachedAll (startableBegun begun)]
    exact failureNamesMember failed

end Supervision

namespace Session
open Supervision

structure Tries (s : Session) (tasks tried : List Task) (r : Result) : Prop where
  inOrder : tried <+: tasks
  reported : attempts r.2.events = attempts s.events ++ tried
  started : ∃ begun, begun <+: tried ∧ r.2.started = s.started ++ begun
  failed : ∀ failure, r.1 = .error failure → ∃ task ∈ tried, failure.Names task
  complete : r.1 = .ok () → tried = tasks ∧ r.2.started = s.started ++ tasks

theorem taskTries (s : Session) (task : Task) : Tries s [task] [task] (s.runTask task) := by
  have blamed : ∀ failure, (s.runTask task).1 = .error failure → ∃ named ∈ [task], failure.Names named := by
    intro failure failed
    have step : (s.runStep (.run task)).1 = .error failure := failed
    exact stepBlame step
  cases begins : s.start task with
  | error fault =>
    rw [taskRefused begins] at blamed ⊢
    refine ⟨List.prefix_rfl, ?_, ⟨[], List.nil_prefix, by simp [log]⟩, blamed, by simp⟩
    simp [log, attempts, Event.attempt?]
  | ok program =>
    have reported : attempts (s.runTask task).2.events = attempts s.events ++ [task] := by
      cases heard : s.machine.lost task with
      | some fault => simp [taskLost begins heard, log, after, attempts, Event.attempt?]
      | none => simp [taskStarted begins heard, log, after, attempts, Event.attempt?]
    have started : (s.runTask task).2.started = s.started ++ [task] := by
      obtain ⟨result, events, ran⟩ := taskRan begins
      simp [ran, log, after]
    exact ⟨List.prefix_rfl, reported, ⟨[task], List.prefix_rfl, started⟩, blamed, fun _ => ⟨rfl, started⟩⟩

theorem afterPipeEvents (s : Session) (tasks : List Task) : (s.afterPipe tasks).events = s.events := by
  unfold afterPipe
  split <;> rfl

theorem removalAttempts (s : Session) (path : String) :
    attempts (s.removeIncomplete path).events = attempts s.events := by
  unfold removeIncomplete
  split
  · simp [log, attempts, Event.attempt?]
  · split
    · rfl
    · simp [log, attempts, Event.attempt?]

theorem pipeAttempts (s : Session) (tasks : List Task) (output : String) :
    attempts (s.runPipe tasks output).2.events =
      attempts s.events ++ (reached (s.members tasks)).map Member.task := by
  have ended : attempts ((s.afterPipe tasks).supervised (s.members tasks)).2.events =
      attempts s.events ++ (reached (s.members tasks)).map Member.task := by
    simp [supervised, afterPipeEvents, superviseAttempts]
  have cleaned (r : Result) : attempts (cleanedUp output r).2.events = attempts r.2.events := by
    obtain ⟨result, t⟩ := r
    cases result with
    | ok passed => rfl
    | error failure => exact removalAttempts t output
  rw [runPipe, endPipe, cleaned, ended]

theorem pipeTries (s : Session) (tasks : List Task) (output : String) :
    Tries s tasks ((reached (s.members tasks)).map Member.task) (s.runPipe tasks output) where
  inOrder := by
    have prefixed : reached (s.members tasks) <+: s.members tasks := List.take_prefix _ _
    simpa [membersTasks] using prefixed.map Member.task
  reported := pipeAttempts s tasks output
  started := by
    have tried := (startableReached (s.members tasks)).map Member.task
    rw [startableBegins] at tried
    exact ⟨s.begun tasks, tried, pipeStarted s tasks output⟩
  failed failure failed := by
    rw [pipeResult] at failed
    obtain ⟨m, member, named⟩ := failureReached failed
    exact ⟨m.task, List.mem_map_of_mem member, named⟩
  complete passed := by
    rw [pipeResult] at passed
    have all := passedStarted passed
    rw [reachedAll all, membersTasks, pipeStarted, ← startableBegins, all, membersTasks]
    exact ⟨rfl, rfl⟩

theorem stepTries (s : Session) (step : Step) : ∃ tried, Tries s step.tasks tried (s.runStep step) := by
  cases step with
  | run task => exact ⟨_, taskTries s task⟩
  | pipe tasks output => exact ⟨_, pipeTries s tasks output⟩

theorem stepsTry (s : Session) (steps : List Step) :
    ∃ tried, Tries s (steps.flatMap Step.tasks) tried (s.runSteps steps) := by
  induction steps generalizing s with
  | nil =>
    exact ⟨[], List.nil_prefix, by simp [runSteps], ⟨[], by simp [runSteps]⟩, by simp [runSteps],
      by simp [runSteps]⟩
  | cons step rest ih =>
    obtain ⟨first, head⟩ := stepTries s step
    cases ran : s.runStep step with
    | mk result mid =>
      rw [ran] at head
      cases result with
      | error failure =>
        have stopped : s.runSteps (step :: rest) = (.error failure, mid) := by simp only [runSteps, ran]
        rw [stopped]
        refine ⟨first, ?_, head.reported, head.started, head.failed, by simp⟩
        exact head.inOrder.trans (by simp)
      | ok passed =>
        have next : s.runSteps (step :: rest) = mid.runSteps rest := by simp only [runSteps, ran]
        obtain ⟨later, tail⟩ := ih mid
        obtain ⟨rfl, startedAll⟩ := head.complete rfl
        obtain ⟨begun, onlyTried, startedLater⟩ := tail.started
        rw [next]
        refine ⟨step.tasks ++ later, ?_, ?_, ⟨step.tasks ++ begun, ?_, ?_⟩, ?_, ?_⟩
        · simpa using tail.inOrder
        · rw [tail.reported, head.reported, List.append_assoc]
        · simpa using onlyTried
        · rw [startedLater, startedAll, List.append_assoc]
        · intro failure failed
          obtain ⟨task, member, named⟩ := tail.failed failure failed
          exact ⟨task, List.mem_append_right _ member, named⟩
        · intro passed
          obtain ⟨rfl, started⟩ := tail.complete passed
          rw [started, startedAll]
          simp

end Session

end StagedBuild

import StagedBuild.Proofs.Execution

/-! The output of a pipe that failed. It is removed once every member has ended, nothing else is, and
that it could not be removed is reported without hiding why the pipe failed. -/
namespace StagedBuild.Session
open Supervision

theorem cutShortKeeps (s : Session) (store : Store) (task : Task) :
    store.Keeps (s.cutShort store task) := by
  unfold cutShort
  split
  · exact Store.overwriteKeeps store _ _
  · exact .refl store

theorem afterPipeKeeps (s : Session) (tasks : List Task) :
    s.store.Keeps (s.afterPipe tasks).store := by
  have cut (store : Store) (begun : List Task) : store.Keeps (begun.foldl s.cutShort store) := by
    induction begun generalizing store with
    | nil => exact .refl store
    | cons task rest ih => exact (cutShortKeeps s store task).trans (ih _)
  unfold afterPipe
  split
  · exact afterKeeps s _
  · exact cut s.store (s.begun tasks)

theorem taskStore (s : Session) (task : Task) :
    (s.runTask task).2.store = (s.afterPipe [task]).store := by
  cases begins : s.start task with
  | error fault =>
    have none : s.begun [task] = [] := by simp [begunAlone, begins, Except.toBool]
    simp only [taskRefused begins, afterPipe, startSingle, begins, Except.map, none, List.foldl_nil]
    rfl
  | ok program =>
    obtain ⟨result, events, ran⟩ := taskRan begins
    simp only [ran, afterPipe, startSingle, begins, Except.map]
    rfl

inductive Removal (s : Session) (path : String) : Session → Prop where
  | removed {store : Store} (gone : s.store.remove path = .ok store) :
      Removal s path ({ s with store }.log [.removed path])
  | absent {fault : Fault} (missing : s.store.remove path = .error fault)
      (kind : fault.kind = .notFound) : Removal s path s
  | refused {fault : Fault} (denied : s.store.remove path = .error fault)
      (kind : fault.kind ≠ .notFound) : Removal s path (s.log [.notRemoved path fault])

theorem removal (s : Session) (path : String) : Removal s path (s.removeIncomplete path) := by
  unfold removeIncomplete
  cases attempt : s.store.remove path with
  | ok store => exact .removed attempt
  | error fault =>
    dsimp only
    split
    · exact .absent attempt (by assumption)
    · exact .refused attempt (by assumption)

def cleanupWarnings (events : List Event) : List Event :=
  events.filter fun e => e.level = .warn && e.message == "Failed to remove incomplete output"

theorem superviseWarnsOfNone (members : List Member) :
    cleanupWarnings (supervise members).events = [] := by
  simp only [cleanupWarnings, List.filter_eq_nil_iff]
  intro event member
  rcases superviseEvents members event member with ⟨task, rfl⟩ | ⟨stage, status, rfl⟩
  · simp [Event.level]
  · simp [Event.level]

theorem endPipeOk {left : Session} {members : List Member} {output : String}
    (ok : (supervise members).result = .ok ()) :
    (left.endPipe members output).2 = (left.supervised members).2 := by
  simp only [endPipe, supervised, ok, cleanedUp]

theorem endPipeFailed {left : Session} {members : List Member} {output : String} {failure : Failure}
    (failed : (supervise members).result = .error failure) :
    (left.endPipe members output).2 = (left.supervised members).2.removeIncomplete output := by
  simp only [endPipe, supervised, failed, cleanedUp]

structure Cleared (s : Session) (path : String) (t : Session) : Prop where
  vacant : ∃ fault, t.store.find path = .error fault ∧ fault.kind = .notFound
  elsewhere : ∀ k, s.store.locate path ≠ .ok k → t.store.get? k = s.store.get? k
  quiet : cleanupWarnings t.events = cleanupWarnings s.events

structure Refused (s : Session) (path : String) (t : Session) : Prop where
  denied : ∃ fault, s.store.remove path = .error fault ∧ fault.kind ≠ .notFound ∧
    cleanupWarnings t.events = cleanupWarnings s.events ++ [.notRemoved path fault]
  unchanged : t.store = s.store

theorem removalOutcome {s t : Session} {path : String} (attempt : Removal s path t) :
    Cleared s path t ∨ Refused s path t := by
  cases attempt with
  | removed gone =>
    refine .inl ⟨⟨_, Store.removedFind gone, rfl⟩, ?_, ?_⟩
    · exact fun k elsewhere => Store.removedFrame gone elsewhere
    · simp [log, cleanupWarnings, Event.level]
  | absent missing kind =>
    exact .inl ⟨⟨_, Store.absentFind missing kind, kind⟩, fun _ _ => rfl, rfl⟩
  | refused denied kind =>
    refine .inr ⟨⟨_, denied, kind, ?_⟩, rfl⟩
    simp [log, cleanupWarnings, Event.level, Event.message]

theorem endPipeCleanup {left : Session} {members : List Member} {output : String} {failure : Failure}
    (failed : (supervise members).result = .error failure) :
    Cleared left output (left.endPipe members output).2 ∨
      Refused left output (left.endPipe members output).2 := by
  have warnings : cleanupWarnings (left.supervised members).2.events = cleanupWarnings left.events := by
    have none := superviseWarnsOfNone members
    simp only [cleanupWarnings] at none ⊢
    simp [supervised, none]
  rw [endPipeFailed failed]
  rcases removalOutcome (removal (left.supervised members).2 output) with cleared | refused
  · exact .inl ⟨cleared.vacant, cleared.elsewhere, cleared.quiet.trans warnings⟩
  · obtain ⟨fault, denied, kind, reported⟩ := refused.denied
    exact .inr ⟨⟨fault, denied, kind, by rw [reported, warnings]⟩, refused.unchanged⟩

theorem stepFiles (s : Session) (step : Step) :
    (s.runStep step).2.store = (s.afterPipe step.tasks).store ∨
      ∃ tasks output failure, step = .pipe tasks output ∧ (s.runStep step).1 = .error failure ∧
        (s.afterPipe tasks).store.remove output = .ok (s.runStep step).2.store := by
  cases step with
  | run task => exact .inl (taskStore s task)
  | pipe tasks output =>
    cases result : (supervise (s.members tasks)).result with
    | ok passed =>
      have kept : (s.runPipe tasks output).2 = ((s.afterPipe tasks).supervised (s.members tasks)).2 :=
        endPipeOk result
      exact .inl (congrArg (fun t => t.store) kept)
    | error failure =>
      have cleaned : (s.runPipe tasks output).2 =
          ((s.afterPipe tasks).supervised (s.members tasks)).2.removeIncomplete output :=
        endPipeFailed result
      have attempt := removal ((s.afterPipe tasks).supervised (s.members tasks)).2 output
      rw [← cleaned] at attempt
      generalize ended : (s.runPipe tasks output).2 = t at attempt
      cases attempt with
      | removed gone =>
        refine .inr ⟨tasks, output, failure, rfl, (pipeResult s tasks output).trans result, ?_⟩
        simp only [runStep, ended]
        exact gone
      | absent missing kind => exact .inl (congrArg (fun t => t.store) ended)
      | refused denied kind => exact .inl (congrArg (fun t => t.store) ended)

/- A place is deleted in a step if its commands left something there and it is empty in the end. -/
def Deletes (s : Session) (step : Step) (l : Location) : Prop :=
  ((s.afterPipe step.tasks).store.get? l).isSome ∧ (s.runStep step).2.store.get? l = none

theorem deletesOutput {s : Session} {step : Step} {l : Location} (deleted : Deletes s step l) :
    ∃ tasks output failure, step = .pipe tasks output ∧ (s.runStep step).1 = .error failure ∧
      (s.afterPipe tasks).store.locate output = .ok l := by
  obtain ⟨held, empty⟩ := deleted
  rcases stepFiles s step with same | ⟨tasks, output, failure, rfl, failed, gone⟩
  · simp [← same, empty] at held
  · obtain ⟨place, node, reached, _, _, erased⟩ := Store.removedPlace gone
    by_cases here : l = place
    · exact ⟨tasks, output, failure, rfl, failed, here ▸ reached⟩
    · have kept : (s.afterPipe tasks).store.get? l = none := by simpa [erased, here] using empty
      simp [Step.tasks, kept] at held

theorem notDeletedFrame {s : Session} {step : Step} {l : Location} (kept : ¬ Deletes s step l) :
    (s.runStep step).2.store.get? l = (s.afterPipe step.tasks).store.get? l := by
  rcases stepFiles s step with same | ⟨tasks, output, failure, rfl, failed, gone⟩
  · rw [same]
  · obtain ⟨place, node, _, held, _, erased⟩ := Store.removedPlace gone
    have other : l ≠ place := by
      rintro rfl
      exact kept ⟨by simp [Step.tasks, held], by simp [erased]⟩
    simp [erased, other, Step.tasks]

theorem succeedsKeeps {s t : Session} {steps : List Step} (run : Succeeds s steps t) :
    s.store.Keeps t.store := by
  induction run with
  | nil s => exact .refl s.store
  | @cons s mid t step rest head tail ih =>
    refine Store.Keeps.trans ?_ ih
    rcases stepFiles s step with same | ⟨_, _, failure, _, failed, _⟩
    · rw [head] at same
      rw [show mid.store = (s.afterPipe step.tasks).store from same]
      exact afterPipeKeeps s step.tasks
    · simp [head] at failed

structure EndsCleanly (left : Session) (members : List Member) (output : String) : Prop where
  result : (left.endPipe members output).1 = (supervise members).result
  waited : (supervise members).deeds.filterMap waitedPosition? =
    (supervise members).deeds.filterMap startedPosition?
  kept : (supervise members).result = .ok () →
    (left.endPipe members output).2 = (left.supervised members).2 ∧
      (left.endPipe members output).2.store = left.store
  removed : ∀ failure, (supervise members).result = .error failure →
    (left.endPipe members output).2 = (left.supervised members).2.removeIncomplete output ∧
      (Cleared left output (left.endPipe members output).2 ∨
        Refused left output (left.endPipe members output).2)

theorem pipeEndsCleanly (left : Session) (members : List Member) (output : String) :
    EndsCleanly left members output where
  result := by simp [endPipe, supervised]
  waited := by rw [waitedPositions, startedPositions]
  kept ok := by
    rw [endPipeOk ok]
    exact ⟨rfl, rfl⟩
  removed _ failed := ⟨endPipeFailed failed, endPipeCleanup failed⟩

/- Over a whole plan at most one place is deleted, and it is the output of the pipe that failed. What
was there after some of the steps is there when a single command fails later. -/
structure DeletesFailedOutput (s : Session) (plan : Plan) : Prop where
  output : ∀ {done step mid l}, Begins (s.announced plan) plan.steps done step mid →
    Deletes mid step l → ∃ tasks output failure, step = .pipe tasks output ∧
      s.execute plan = (.error failure, (mid.runStep step).2) ∧
      (mid.afterPipe tasks).store.locate output = .ok l
  once : ∀ {done step mid l done' step' mid' l'},
    Begins (s.announced plan) plan.steps done step mid → Deletes mid step l →
    Begins (s.announced plan) plan.steps done' step' mid' → Deletes mid' step' l' →
    step = step' ∧ mid = mid' ∧ l = l'
  elsewhere : ∀ {done step mid l}, Begins (s.announced plan) plan.steps done step mid →
    ¬ Deletes mid step l →
    (mid.runStep step).2.store.get? l = (mid.afterPipe step.tasks).store.get? l
  single : ∀ {done task mid failure t}, Begins (s.announced plan) plan.steps done (.run task) mid →
    mid.runStep (.run task) = (.error failure, t) →
    s.execute plan = (.error failure, t) ∧ t.store = (mid.afterPipe [task]).store ∧
      ∀ {earlier later before}, done = earlier ++ later →
        Succeeds (s.announced plan) earlier before → before.store.Keeps t.store

theorem planDeletesFailedOutput (s : Session) (plan : Plan) : DeletesFailedOutput s plan where
  output begins deleted := by
    obtain ⟨tasks, output, failure, rfl, failed, reached⟩ := deletesOutput deleted
    exact ⟨tasks, output, failure, rfl, beginsFailed begins failed, reached⟩
  once begins deleted begins' deleted' := by
    obtain ⟨tasks, output, failure, shape, failed, reached⟩ := deletesOutput deleted
    obtain ⟨tasks', output', failure', shape', failed', reached'⟩ := deletesOutput deleted'
    obtain ⟨rfl, rfl⟩ := beginsUnique begins failed begins' failed'
    subst shape
    cases shape'
    exact ⟨rfl, rfl, Except.ok.inj (reached.symm.trans reached')⟩
  elsewhere _ kept := notDeletedFrame kept
  single := by
    intro done task mid failure t begins failed
    have store : t.store = (mid.afterPipe [task]).store := by
      have left := taskStore mid task
      rw [show mid.runTask task = (.error failure, t) from failed] at left
      exact left
    refine ⟨beginsRun begins failed, store, ?_⟩
    rintro earlier later before rfl first
    have between := succeedsKeeps (succeedsAfter first begins.2)
    rw [store]
    exact between.trans (afterPipeKeeps mid [task])

theorem failedPipeCleanup :
    (∀ left members output, EndsCleanly left members output) ∧
    (∀ (s : Session) (tasks : List Task) (output : String), s.runPipe tasks output =
      (s.afterPipe tasks).endPipe (s.members tasks) output) ∧
    ∀ s plan, DeletesFailedOutput s plan :=
  ⟨pipeEndsCleanly, fun _ _ _ => rfl, planDeletesFailedOutput⟩

theorem staleOutputCleanup :
    let left : Session := { store := ⟨["work"], [([], .directory), (["work"], .directory),
      (["work", "prog.o"], .file .empty false)]⟩ }
    let members : List Member := [⟨⟨.compile, "clang", []⟩, .ended (.killed 9)⟩,
      ⟨⟨.optimize, "opt", []⟩, .refused .noEntry⟩]
    left.store.find "prog.o" = .ok (["work", "prog.o"], .file .empty false) ∧
      (supervise members).result = .error (.cannotStart .optimize "opt" .noEntry) ∧
      Cleared left "prog.o" (left.endPipe members "prog.o").2 := by
  intro left members
  have failed : (supervise members).result = .error (.cannotStart .optimize "opt" .noEntry) := rfl
  refine ⟨rfl, failed, ?_⟩
  rcases ((failedPipeCleanup.1 left members "prog.o").removed _ failed).2 with cleared | refused
  · exact cleared
  · have removed : left.store.remove "prog.o" = .ok (left.store.erase ["work", "prog.o"]) := rfl
    obtain ⟨fault, denied, _⟩ := refused.denied
    simp [removed] at denied

end StagedBuild.Session

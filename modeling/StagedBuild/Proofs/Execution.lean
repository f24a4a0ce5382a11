import Mathlib.Data.List.TakeWhile
import StagedBuild.Proofs.Flow
import StagedBuild.Proofs.Logging
import StagedBuild.Proofs.Supervision
import StagedBuild.Session.Run

/-! Running a plan. A step is begun in the session that the steps before it have left, all of which
succeeded; the commands that are started are those of the plan, in order, up to the step that fails. -/
namespace StagedBuild.Session
open Supervision

inductive Succeeds : Session → List Step → Session → Prop where
  | nil (s : Session) : Succeeds s [] s
  | cons {s mid t step rest} (head : s.runStep step = (.ok (), mid)) (tail : Succeeds mid rest t) :
      Succeeds s (step :: rest) t

def Begins (s : Session) (steps done : List Step) (step : Step) (mid : Session) : Prop :=
  (∃ rest, steps = done ++ step :: rest) ∧ Succeeds s done mid

theorem beginsNow (s : Session) (step : Step) (rest : List Step) : Begins s (step :: rest) [] step s :=
  ⟨⟨rest, rfl⟩, .nil s⟩

theorem beginsLater {s next mid : Session} {first step : Step} {rest done : List Step}
    (head : s.runStep first = (.ok (), next)) (begins : Begins next rest done step mid) :
    Begins s (first :: rest) (first :: done) step mid := by
  obtain ⟨⟨left, split⟩, run⟩ := begins
  exact ⟨⟨left, by rw [split, List.cons_append]⟩, .cons head run⟩

theorem succeedsRun {s t : Session} {steps : List Step} (run : Succeeds s steps t) :
    s.runSteps steps = (.ok (), t) := by
  induction run with
  | nil s => rfl
  | cons head tail ih => simp only [runSteps, head, ih]

theorem runStepsStop {s : Session} {step : Step} {failure : Failure}
    (failed : (s.runStep step).1 = .error failure) (rest : List Step) :
    s.runSteps (step :: rest) = (.error failure, (s.runStep step).2) := by
  have ran : s.runStep step = (.error failure, (s.runStep step).2) := Prod.ext failed rfl
  rw [runSteps, ran]

theorem runStepsNext {s : Session} {step : Step} (passed : (s.runStep step).1 = .ok ())
    (rest : List Step) : s.runSteps (step :: rest) = (s.runStep step).2.runSteps rest := by
  have ran : s.runStep step = (.ok (), (s.runStep step).2) := Prod.ext passed rfl
  rw [runSteps, ran]

theorem runStepsAppend (s : Session) (first second : List Step) :
    s.runSteps (first ++ second) =
      match s.runSteps first with
      | (.ok _, t) => t.runSteps second
      | (.error failure, t) => (.error failure, t) := by
  induction first generalizing s with
  | nil => rfl
  | cons step rest ih =>
    simp only [List.cons_append, runSteps]
    cases ran : s.runStep step with
    | mk result mid =>
      cases result with
      | ok passed => exact ih mid
      | error failure => rfl

theorem runStepsCases (s : Session) (steps : List Step) :
    (∃ t, s.runSteps steps = (.ok (), t) ∧ Succeeds s steps t) ∨
      ∃ failure t done step mid, s.runSteps steps = (.error failure, t) ∧
        Begins s steps done step mid ∧ mid.runStep step = (.error failure, t) := by
  induction steps generalizing s with
  | nil => exact .inl ⟨s, rfl, .nil s⟩
  | cons step rest ih =>
    cases ran : s.runStep step with
    | mk result mid =>
      cases result with
      | error failure =>
        exact .inr ⟨failure, mid, [], step, s, by simp only [runSteps, ran], beginsNow s step rest, ran⟩
      | ok passed =>
        have next : s.runSteps (step :: rest) = mid.runSteps rest := by simp only [runSteps, ran]
        rw [next]
        rcases ih mid with ⟨t, run, all⟩ | ⟨failure, t, done, last, before, run, begins, failed⟩
        · exact .inl ⟨t, run, .cons ran all⟩
        · exact .inr ⟨failure, t, step :: done, last, before, run, beginsLater ran begins, failed⟩

theorem runStepsOk (s t : Session) (steps : List Step) :
    s.runSteps steps = (.ok (), t) ↔ Succeeds s steps t := by
  refine ⟨fun run => ?_, succeedsRun⟩
  rcases runStepsCases s steps with ⟨other, ran, all⟩ | ⟨failure, other, _, _, _, ran, _, _⟩
  · rw [run] at ran
    cases ran
    exact all
  · simp [run] at ran

theorem beginsRun {s mid t : Session} {steps done : List Step} {step : Step} {failure : Failure}
    (begins : Begins s steps done step mid) (failed : mid.runStep step = (.error failure, t)) :
    s.runSteps steps = (.error failure, t) := by
  obtain ⟨⟨rest, rfl⟩, succeeded⟩ := begins
  rw [runStepsAppend, succeedsRun succeeded]
  simp only [runSteps, failed]

theorem runStepsError (s t : Session) (steps : List Step) (failure : Failure) :
    s.runSteps steps = (.error failure, t) ↔
      ∃ done step mid, Begins s steps done step mid ∧ mid.runStep step = (.error failure, t) := by
  constructor
  · intro run
    rcases runStepsCases s steps with ⟨other, ran, _⟩ | ⟨_, _, done, step, mid, ran, begins, failed⟩
    · simp [run] at ran
    · rw [run] at ran
      cases ran
      exact ⟨done, step, mid, begins, failed⟩
  · rintro ⟨done, step, mid, begins, failed⟩
    exact beginsRun begins failed

theorem succeedsAfter {s before mid : Session} {earlier later : List Step}
    (first : Succeeds s earlier before) (all : Succeeds s (earlier ++ later) mid) :
    Succeeds before later mid := by
  have run := succeedsRun all
  rw [runStepsAppend, succeedsRun first] at run
  exact (runStepsOk before mid later).mp run

theorem beginsUnique {s mid mid' : Session} {steps done done' : List Step} {step step' : Step}
    {failure failure' : Failure} (begins : Begins s steps done step mid)
    (failed : (mid.runStep step).1 = .error failure) (begins' : Begins s steps done' step' mid')
    (failed' : (mid'.runStep step').1 = .error failure') : step = step' ∧ mid = mid' := by
  obtain ⟨⟨rest, split⟩, run⟩ := begins
  obtain ⟨⟨rest', split'⟩, run'⟩ := begins'
  induction run generalizing steps done' with
  | nil s =>
    cases run' with
    | nil s =>
      simp only [List.nil_append] at split split'
      rw [split] at split'
      exact ⟨(List.cons.inj split').1, rfl⟩
    | cons head tail =>
      rw [split] at split'
      obtain ⟨rfl, _⟩ := List.cons.inj split'
      simp [head] at failed
  | cons head tail ih =>
    cases run' with
    | nil s =>
      rw [split] at split'
      obtain ⟨rfl, _⟩ := List.cons.inj split'
      simp [head] at failed'
    | cons head' tail' =>
      rw [split] at split'
      obtain ⟨rfl, later⟩ := List.cons.inj split'
      rw [head] at head'
      cases head'
      exact ih failed rfl tail' later

theorem startedByPositions (tasks : List Task) (deeds : List Deed) :
    startedBy tasks deeds = (deeds.filterMap startedPosition?).filterMap fun n => tasks[n]? := by
  rw [List.filterMap_filterMap, startedBy]
  congr
  funext deed
  cases deed <;> rfl

theorem rangeTakes (tasks : List Task) (n : Nat) :
    ((List.range n).filterMap fun i => tasks[i]?) = tasks.take n := by
  induction n with
  | zero => rfl
  | succ n ih =>
    rw [List.range_succ, List.filterMap_append, ih, List.take_add_one]
    cases found : tasks[n]? <;> simp [found]

theorem startedBySupervision (members : List Member) :
    startedBy (members.map Member.task) (supervise members).deeds =
      (startable members).map Member.task := by
  have before : startable members <+: members := List.takeWhile_prefix _
  rw [startedByPositions, startedPositions, rangeTakes, ← List.map_take]
  exact congrArg _ (List.prefix_iff_eq_take.mp before).symm

theorem startArguments {s : Session} {task : Task} {program : Program}
    (ok : s.start task = .ok program) : program.arguments = task.invocation.arguments := by
  unfold start Store.start at ok
  split at ok
  · contradiction
  · cases found : s.store.lookUp s.searchPath task.invocation.program with
    | error fault => simp [found] at ok
    | ok tool =>
      simp only [found, Except.ok.injEq] at ok
      subst program
      rfl

theorem startsAll {s : Session} {tasks : List Task} {programs : List Program} :
    tasks.mapM s.start = .ok programs ↔ tasks.map s.start = programs.map .ok := by
  induction tasks generalizing programs with
  | nil => cases programs <;> simp [pure, Except.pure]
  | cons task rest ih =>
    simp only [List.mapM_cons, bind, Except.bind]
    cases first : s.start task with
    | error fault => cases programs <;> simp [first]
    | ok program =>
      cases programs with
      | nil => cases rest.mapM s.start <;> simp [pure, Except.pure]
      | cons other others =>
        cases later : rest.mapM s.start with
        | error fault => simp [first, ← ih, later]
        | ok found => simp [first, ← ih, later, pure, Except.pure]

theorem startsUpTo {s : Session} {tasks : List Task} {fault : Fault}
    (stopped : tasks.mapM s.start = .error fault) :
    ∃ before task rest, tasks = before ++ task :: rest ∧
      (∀ other ∈ before, ∃ program, s.start other = .ok program) ∧ s.start task = .error fault := by
  induction tasks with
  | nil => simp [pure, Except.pure] at stopped
  | cons first rest ih =>
    simp only [List.mapM_cons, bind, Except.bind] at stopped
    cases head : s.start first with
    | error other =>
      simp only [head, Except.error.injEq] at stopped
      subst other
      exact ⟨[], first, rest, rfl, by simp, head⟩
    | ok program =>
      cases later : rest.mapM s.start with
      | ok programs => simp [head, later, pure, Except.pure] at stopped
      | error other =>
        simp only [head, later, Except.error.injEq] at stopped
        subst other
        obtain ⟨before, task, behind, rfl, begun, refused⟩ := ih later
        refine ⟨first :: before, task, behind, rfl, ?_, refused⟩
        intro other member
        rcases List.mem_cons.mp member with rfl | inside
        · exact ⟨program, head⟩
        · exact begun other inside

theorem startAllArguments {s : Session} {tasks : List Task} {programs : List Program}
    (ok : tasks.mapM s.start = .ok programs) :
    programs.map Program.arguments = tasks.map fun task => task.invocation.arguments := by
  rw [startsAll] at ok
  induction tasks generalizing programs with
  | nil =>
    obtain rfl : programs = [] := by simpa using ok.symm
    rfl
  | cons task rest ih =>
    obtain ⟨program, others, rfl, first, later⟩ := List.map_eq_cons_iff.mp ok.symm
    rw [List.map_cons, List.map_cons, startArguments first.symm, ih later.symm]

/- The session learns how each of the commands ends. -/
def Hears (s : Session) (tasks : List Task) : Prop := ∀ task ∈ tasks, s.machine.lost task = none

theorem fateHeard {s : Session} {task : Task} (heard : s.machine.lost task = none) (status : Status) :
    s.fate task status = .ended status := by
  simp only [fate, heard]

theorem fateLost {s : Session} {task : Task} {fault : Fault} (lost : s.machine.lost task = some fault)
    (status : Status) : s.fate task status = .lost fault := by
  simp only [fate, lost]

theorem fateStarts (s : Session) (task : Task) (status : Status) : (s.fate task status).starts = true := by
  unfold fate
  split <;> rfl

theorem statusesLength {s : Session} {tasks : List Task} {programs : List Program}
    (ok : tasks.mapM s.start = .ok programs) :
    ((flow s.store s.input programs).map Outcome.status).length = tasks.length := by
  simpa [flowLength] using congrArg List.length (startAllArguments ok)

theorem fatesLength (s : Session) (tasks : List Task) : (s.fates tasks).length = tasks.length := by
  unfold fates
  cases started : tasks.mapM s.start with
  | error fault => simp
  | ok programs => simp only [List.length_zipWith, statusesLength started, Nat.min_self]

theorem membersTasks (s : Session) (tasks : List Task) :
    (s.members tasks).map Member.task = tasks := by
  have paired (tasks : List Task) (fates : List Fate) (sizes : fates.length = tasks.length) :
      (List.zipWith Member.mk tasks fates).map Member.task = tasks := by
    induction tasks generalizing fates with
    | nil => rfl
    | cons task rest ih =>
      cases fates with
      | nil => simp at sizes
      | cons fate fates => simp [ih fates (by simpa using sizes)]
  exact paired tasks (s.fates tasks) (fatesLength s tasks)

def ranMember (s : Session) (run : Task × Status) : Member := ⟨run.1, s.fate run.1 run.2⟩

theorem membersRan {s : Session} {tasks : List Task} {programs : List Program}
    (ok : tasks.mapM s.start = .ok programs) :
    s.members tasks =
      (tasks.zip ((flow s.store s.input programs).map Outcome.status)).map s.ranMember := by
  have paired (tasks : List Task) (statuses : List Status) :
      List.zipWith Member.mk tasks (List.zipWith s.fate tasks statuses) =
        (tasks.zip statuses).map s.ranMember := by
    induction tasks generalizing statuses with
    | nil => rfl
    | cons task rest ih =>
      cases statuses with
      | nil => rfl
      | cons status statuses => simp [ih, ranMember]
  simp only [members, fates, ok]
  exact paired tasks _

theorem membersBegun {s : Session} {tasks : List Task} {programs : List Program}
    (ok : tasks.mapM s.start = .ok programs) : ∀ m ∈ s.members tasks, m.fate.starts = true := by
  intro m member
  rw [membersRan ok] at member
  obtain ⟨run, _, rfl⟩ := List.mem_map.mp member
  exact fateStarts s run.1 run.2

theorem membersEnded {s : Session} {tasks : List Task} {programs : List Program}
    (ok : tasks.mapM s.start = .ok programs) (heard : s.Hears tasks) :
    s.members tasks =
      (tasks.zip ((flow s.store s.input programs).map Outcome.status)).map endedMember := by
  rw [membersRan ok]
  refine List.map_congr_left fun run inside => ?_
  simp only [ranMember, endedMember, fateHeard (heard _ (List.of_mem_zip inside).1)]

theorem hearsOrLost (s : Session) (tasks : List Task) :
    s.Hears tasks ∨ ∃ before task rest fault, tasks = before ++ task :: rest ∧ s.Hears before ∧
      s.machine.lost task = some fault := by
  induction tasks with
  | nil => exact .inl (by simp [Hears])
  | cons task rest ih =>
    cases heard : s.machine.lost task with
    | some fault => exact .inr ⟨[], task, rest, fault, rfl, by simp [Hears], heard⟩
    | none =>
      rcases ih with all | ⟨before, other, later, fault, rfl, earlier, lost⟩
      · exact .inl (List.forall_mem_cons.mpr ⟨heard, all⟩)
      · exact .inr ⟨task :: before, other, later, fault, rfl,
          List.forall_mem_cons.mpr ⟨heard, earlier⟩, lost⟩

theorem membersUnheard {s : Session} {before rest : List Task} {task : Task}
    {programs : List Program} {fault : Fault}
    (ok : (before ++ task :: rest).mapM s.start = .ok programs) (heard : s.Hears before)
    (lost : s.machine.lost task = some fault) :
    ∃ ended later, s.members (before ++ task :: rest) = ended ++ ⟨task, .lost fault⟩ :: later ∧
      ∀ m ∈ ended, ∃ status, m.fate = .ended status := by
  have sizes := statusesLength ok
  rw [membersRan ok]
  obtain ⟨first, last, split, same⟩ : ∃ first last : List Status,
      (flow s.store s.input programs).map Outcome.status = first ++ last ∧
        first.length = before.length :=
    ⟨_, _, (List.take_append_drop before.length _).symm, by simp only [List.length_take, sizes]; simp⟩
  rw [split] at sizes ⊢
  obtain ⟨status, later, rfl⟩ : ∃ status later, last = status :: later :=
    List.exists_cons_of_ne_nil (by rintro rfl; simp [same] at sizes)
  have unheard : s.ranMember (task, status) = ⟨task, .lost fault⟩ := by
    simp only [ranMember, fateLost lost]
  rw [List.zip_append same.symm, List.map_append, List.zip_cons_cons, List.map_cons, unheard]
  refine ⟨_, _, rfl, fun m member => ?_⟩
  obtain ⟨run, inside, rfl⟩ := List.mem_map.mp member
  exact ⟨run.2, fateHeard (heard _ (List.of_mem_zip inside).1) run.2⟩

theorem membersRefusing {s : Session} {tasks : List Task} {fault : Fault}
    (stopped : tasks.mapM s.start = .error fault) :
    s.members tasks = tasks.map fun task => ⟨task, s.stopped task⟩ := by
  simp only [members, fates, stopped, List.zipWith_map_right, List.zipWith_self]

theorem membersStopped {s : Session} {tasks : List Task} {fault : Fault}
    (stopped : tasks.mapM s.start = .error fault) :
    ∃ started task later, s.members tasks = started ++ ⟨task, .refused fault⟩ :: later ∧
      (∀ m ∈ started, m.fate.starts = true ∧ ∃ program, s.start m.task = .ok program) ∧
      s.start task = .error fault := by
  rw [membersRefusing stopped]
  obtain ⟨before, task, rest, rfl, begun, start⟩ := startsUpTo stopped
  have refused : s.stopped task = .refused fault := by simp only [Session.stopped, start]
  rw [List.map_append, List.map_cons, refused]
  refine ⟨_, _, _, rfl, ?_, start⟩
  intro m member
  obtain ⟨other, inside, rfl⟩ := List.mem_map.mp member
  obtain ⟨program, accepted⟩ := begun other inside
  exact ⟨by simp only [Session.stopped, accepted, Fate.starts], program, accepted⟩

theorem startedEach {s : Session} {tasks : List Task} {programs : List Program}
    (ok : tasks.mapM s.start = .ok programs) : ∀ task ∈ tasks, ∃ program, s.start task = .ok program := by
  intro task member
  have among : s.start task ∈ programs.map .ok := startsAll.mp ok ▸ List.mem_map_of_mem member
  obtain ⟨program, _, same⟩ := List.mem_map.mp among
  exact ⟨program, same.symm⟩

theorem begunAll {s : Session} {tasks : List Task} {programs : List Program}
    (ok : tasks.mapM s.start = .ok programs) : s.begun tasks = tasks := by
  refine List.takeWhile_eq_self_iff.mpr fun task member => ?_
  obtain ⟨program, accepted⟩ := startedEach ok task member
  rw [accepted]
  rfl

theorem startableBegins (s : Session) (tasks : List Task) :
    (startable (s.members tasks)).map Member.task = s.begun tasks := by
  cases begins : tasks.mapM s.start with
  | ok programs =>
    have all : startable (s.members tasks) = s.members tasks :=
      List.takeWhile_eq_self_iff.mpr (membersBegun begins)
    rw [all, membersTasks, begunAll begins]
  | error fault =>
    rw [membersRefusing begins, startable, List.takeWhile_map, List.map_map, begun]
    have same (task : Task) : (s.stopped task).starts = (s.start task).toBool := by
      cases start : s.start task <;> simp only [Session.stopped, start, Fate.starts, Except.toBool]
    simp only [Function.comp_def, same, List.map_id']

theorem refusalBehind {before : List Member} (begun : ∀ m ∈ before, m.fate.starts = true)
    (rest : List Member) : refusal? (before ++ rest) = refusal? rest := by
  induction before with
  | nil => rfl
  | cons m before ih =>
    obtain ⟨here, later⟩ := List.forall_mem_cons.mp begun
    rw [List.cons_append, refusalSkips _ here, ih later]

theorem membersRefused {s : Session} {tasks : List Task} {fault : Fault}
    (stopped : tasks.mapM s.start = .error fault) :
    ∃ task ∈ tasks, s.start task = .error fault ∧ refusal? (s.members tasks) =
      some (.cannotStart task.stage task.invocation.program fault) := by
  obtain ⟨started, task, later, split, begun, refused⟩ := membersStopped stopped
  have member : task ∈ tasks := by
    rw [← membersTasks s tasks, split]
    simp
  refine ⟨task, member, refused, ?_⟩
  rw [split, refusalBehind fun m inside => (begun m inside).1]
  exact refusalStops later rfl

@[simp] theorem cleanedUpResult (output : String) (r : Result) : (cleanedUp output r).1 = r.1 := by
  obtain ⟨result, s⟩ := r
  cases result <;> rfl

structure SameConduct (r q : Result) : Prop where
  result : q.1 = r.1
  machine : q.2.machine = r.2.machine
  searchPath : q.2.searchPath = r.2.searchPath
  input : q.2.input = r.2.input
  output : q.2.output = r.2.output
  started : q.2.started = r.2.started
  calls : q.2.calls = r.2.calls

theorem cleanedUpConduct (output : String) (r : Result) : SameConduct r (cleanedUp output r) := by
  obtain ⟨result, s⟩ := r
  cases result with
  | ok passed => exact ⟨rfl, rfl, rfl, rfl, rfl, rfl, rfl⟩
  | error failure =>
    simp only [cleanedUp, removeIncomplete]
    split
    · exact ⟨rfl, rfl, rfl, rfl, rfl, rfl, rfl⟩
    · split <;> exact ⟨rfl, rfl, rfl, rfl, rfl, rfl, rfl⟩

structure Progress (s : Session) (tasks begun called : List Task) (r : Result) : Prop where
  inOrder : begun <+: tasks
  onlyBegun : called <+: begun
  started : r.2.started = s.started ++ begun
  calls : r.2.calls.map Call.arguments =
    s.calls.map Call.arguments ++ called.map fun task => task.invocation.arguments
  complete : r.1 = .ok () → called = tasks

theorem startSingle (s : Session) (task : Task) :
    [task].mapM s.start = (s.start task).map fun program => [program] := by
  cases begins : s.start task with
  | error fault => simp [List.mapM_cons, begins, bind, Except.bind, Except.map]
  | ok program => simp [List.mapM_cons, begins, bind, Except.bind, pure, Except.pure, Except.map]

theorem begunAlone (s : Session) (task : Task) :
    s.begun [task] = if (s.start task).toBool then [task] else [] := by
  cases begins : (s.start task).toBool <;> simp [begun, begins]

theorem taskProgress (s : Session) (task : Task) :
    ∃ called, Progress s [task] (s.begun [task]) called (s.runTask task) := by
  rw [begunAlone]
  cases begins : s.start task with
  | error fault =>
    rw [taskRefused begins]
    exact ⟨[], by simp [Except.toBool], by simp, by simp [log, Except.toBool], by simp [log], by simp⟩
  | ok program =>
    obtain ⟨result, events, ran⟩ := taskRan begins
    rw [ran]
    refine ⟨[task], by simp [Except.toBool], by simp [Except.toBool], by simp [log, after, Except.toBool],
      ?_, by simp⟩
    simp [log, after, startArguments begins]

theorem pipeStarted (s : Session) (tasks : List Task) (output : String) :
    (s.runPipe tasks output).2.started = s.started ++ s.begun tasks := by
  have before : (s.afterPipe tasks).started = s.started := by
    unfold afterPipe
    split <;> rfl
  have started := startedBySupervision (s.members tasks)
  rw [startableBegins] at started
  rw [runPipe, endPipe, (cleanedUpConduct output _).started, supervised, started, before]

theorem pipeResult (s : Session) (tasks : List Task) (output : String) :
    (s.runPipe tasks output).1 = (supervise (s.members tasks)).result := by
  simp [runPipe, endPipe, supervised]

theorem pipeProgress (s : Session) (tasks : List Task) (output : String) :
    ∃ called, Progress s tasks (s.begun tasks) called (s.runPipe tasks output) := by
  have records : (s.runPipe tasks output).2.calls = (s.afterPipe tasks).calls := by
    rw [runPipe, endPipe, (cleanedUpConduct output _).calls, supervised]
  have started := pipeStarted s tasks output
  cases begins : tasks.mapM s.start with
  | error fault =>
    obtain ⟨task, _, _, refused⟩ := membersRefused begins
    refine ⟨[], List.takeWhile_prefix _, List.nil_prefix, started, ?_, ?_⟩
    · simp [records, afterPipe, begins]
    · simp [pipeResult, superviseRefused refused]
  | ok programs =>
    rw [begunAll begins] at started ⊢
    refine ⟨tasks, List.prefix_rfl, List.prefix_rfl, started, ?_, fun _ => rfl⟩
    have arguments := startAllArguments begins
    simp only [records, afterPipe, begins, after, List.map_append, List.map_map, ← arguments]
    rfl

theorem stepProgress (s : Session) (step : Step) :
    ∃ called, Progress s step.tasks (s.begun step.tasks) called (s.runStep step) := by
  cases step with
  | run task => exact taskProgress s task
  | pipe tasks output => exact pipeProgress s tasks output

theorem stepBegins (s : Session) (step : Step) :
    (s.runStep step).2.started = s.started ++ s.begun step.tasks := by
  obtain ⟨_, progress⟩ := stepProgress s step
  exact progress.started

theorem afterPipeMachine (s : Session) (tasks : List Task) : (s.afterPipe tasks).machine = s.machine := by
  unfold afterPipe
  split <;> rfl

theorem stepMachine (s : Session) (step : Step) : (s.runStep step).2.machine = s.machine := by
  cases step with
  | run task =>
    cases begins : s.start task with
    | error fault =>
      rw [runStep, taskRefused begins]
      rfl
    | ok program =>
      obtain ⟨result, events, ran⟩ := taskRan begins
      rw [runStep, ran]
      rfl
  | pipe tasks output =>
    rw [runStep, runPipe, endPipe, (cleanedUpConduct output _).machine, supervised, afterPipeMachine]

theorem stepBlame {s : Session} {step : Step} {failure : Failure}
    (failed : (s.runStep step).1 = .error failure) : ∃ task ∈ step.tasks, failure.Names task := by
  cases step with
  | run task =>
    refine ⟨task, by simp [Step.tasks], ?_⟩
    rw [runStep] at failed
    cases begins : s.start task with
    | error fault =>
      rw [taskRefused begins] at failed
      cases failed
      exact ⟨rfl, rfl⟩
    | ok program =>
      cases heard : s.machine.lost task with
      | some fault =>
        rw [taskLost begins heard] at failed
        cases failed
        exact ⟨rfl, rfl⟩
      | none =>
        rw [taskStarted begins heard] at failed
        obtain ⟨_, rfl⟩ := verdictError failed
        exact ⟨rfl, rfl⟩
  | pipe tasks output =>
    rw [runStep, pipeResult] at failed
    obtain ⟨m, member, named⟩ := failureNamesMember failed
    have inside : m.task ∈ (s.members tasks).map Member.task := List.mem_map_of_mem member
    rw [membersTasks] at inside
    exact ⟨m.task, inside, named⟩

theorem succeedsProgress {s t : Session} {steps : List Step} (run : Succeeds s steps t) :
    t.started = s.started ++ steps.flatMap Step.tasks ∧
      t.calls.map Call.arguments = s.calls.map Call.arguments ++
        (steps.flatMap Step.tasks).map fun task => task.invocation.arguments := by
  induction run with
  | nil s => simp
  | @cons s mid t step rest head tail ih =>
    obtain ⟨called, progress⟩ := stepProgress s step
    have all : called = step.tasks := progress.complete (by rw [head])
    have both : s.begun step.tasks = step.tasks := by
      have forward := progress.onlyBegun
      rw [all] at forward
      exact (progress.inOrder.eq_of_length_le forward.length_le)
    have started := progress.started
    have calls := progress.calls
    rw [head] at started calls
    simp only at started calls
    rw [ih.1, ih.2, started, calls, all, both]
    simp

theorem processCountTasks (plan : Plan) : plan.tasks.length = plan.processCount := by
  have counted (steps : List Step) : (steps.flatMap Step.tasks).length =
      (steps.map Step.processCount).foldr (· + ·) 0 := by
    induction steps with
    | nil => rfl
    | cons step rest ih =>
      have head : step.tasks.length = step.processCount := by cases step <;> rfl
      simp [ih, head]
  exact counted plan.steps

def announced (s : Session) (plan : Plan) : Session :=
  s.log [.executing plan.shape plan.steps.length]

theorem beginsFailed {s mid : Session} {plan : Plan} {done : List Step} {step : Step}
    {failure : Failure} (begins : Begins (s.announced plan) plan.steps done step mid)
    (failed : (mid.runStep step).1 = .error failure) :
    s.execute plan = (.error failure, (mid.runStep step).2) :=
  beginsRun begins (Prod.ext failed rfl)

theorem beginsTasks {s mid : Session} {plan : Plan} {done : List Step} {step : Step}
    {begun : List Task} (begins : Begins s plan.steps done step mid) (inOrder : begun <+: step.tasks) :
    done.flatMap Step.tasks ++ begun <+: plan.tasks := by
  obtain ⟨⟨rest, split⟩, _⟩ := begins
  obtain ⟨left, tasks⟩ := inOrder
  refine ⟨left ++ rest.flatMap Step.tasks, ?_⟩
  simp [Plan.tasks, split, ← tasks]

theorem failureProgress {s mid t : Session} {plan : Plan} {done : List Step} {step : Step}
    {failure : Failure} (begins : Begins (s.announced plan) plan.steps done step mid)
    (failed : mid.runStep step = (.error failure, t)) :
    ∃ begun called, begun <+: step.tasks ∧ called <+: begun ∧
      t.started = s.started ++ (done.flatMap Step.tasks ++ begun) ∧
      t.calls.map Call.arguments = s.calls.map Call.arguments ++
        (done.flatMap Step.tasks ++ called).map fun task => task.invocation.arguments := by
  obtain ⟨called, progress⟩ := stepProgress mid step
  obtain ⟨started, calls⟩ := succeedsProgress begins.2
  have startedLast := progress.started
  have callsLast := progress.calls
  rw [failed] at startedLast callsLast
  simp only at startedLast callsLast
  refine ⟨mid.begun step.tasks, called, progress.inOrder, progress.onlyBegun, ?_, ?_⟩
  · simp [startedLast, started, announced, log]
  · simp [callsLast, calls, announced, log]

theorem executionStopsAtFailure :
    (∀ (s : Session) (first second : List Step), s.runSteps (first ++ second) =
      match s.runSteps first with
      | (.ok _, t) => t.runSteps second
      | (.error failure, t) => (.error failure, t)) ∧
    ∀ (s : Session) (plan : Plan),
      (∀ t, s.execute plan = (.ok (), t) ↔ Succeeds (s.announced plan) plan.steps t) ∧
      (∀ failure t, s.execute plan = (.error failure, t) ↔
        ∃ done step mid, Begins (s.announced plan) plan.steps done step mid ∧
          mid.runStep step = (.error failure, t)) ∧
      (∀ t, s.execute plan = (.ok (), t) →
        t.started = s.started ++ plan.tasks ∧
        t.calls.map Call.arguments = s.calls.map Call.arguments ++
          plan.tasks.map (fun task => task.invocation.arguments) ∧
        plan.tasks.length = plan.processCount) ∧
      ∀ failure t done step mid, Begins (s.announced plan) plan.steps done step mid →
        mid.runStep step = (.error failure, t) →
        ∃ begun called, begun <+: step.tasks ∧ called <+: begun ∧
          done.flatMap Step.tasks ++ begun <+: plan.tasks ∧
          t.started = s.started ++ (done.flatMap Step.tasks ++ begun) ∧
          t.calls.map Call.arguments = s.calls.map Call.arguments ++
            (done.flatMap Step.tasks ++ called).map (fun task => task.invocation.arguments) ∧
          ∃ task ∈ step.tasks, failure.stage? = some task.stage ∧
            failure.program? = some task.invocation.program := by
  refine ⟨runStepsAppend, fun s plan => ⟨?_, ?_, ?_, ?_⟩⟩
  · intro t
    exact runStepsOk (s.announced plan) t plan.steps
  · intro failure t
    exact runStepsError (s.announced plan) t plan.steps failure
  · intro t run
    obtain ⟨started, calls⟩ := succeedsProgress ((runStepsOk _ t plan.steps).mp run)
    exact ⟨started, calls, processCountTasks plan⟩
  · intro failure t done step mid begins failed
    obtain ⟨begun, called, inOrder, onlyBegun, started, calls⟩ := failureProgress begins failed
    have blame : ∃ task ∈ step.tasks, failure.Names task := stepBlame (by rw [failed])
    exact ⟨begun, called, inOrder, onlyBegun, beginsTasks begins inOrder, started, calls, blame⟩

theorem executionStopsAtSecondStep :
    let s : Session := {
      store := ⟨["work"], [([], .directory), (["work"], .directory), (["bin"], .directory),
        (["bin", "cc"], .tool {}), (["bin", "llc"], .tool {}),
        (["bin", "ld"], .tool { usual := { exit := 1 } })]⟩
      searchPath := ["/bin"] }
    let plan : Plan := ⟨.compileFromSource, [.pipe [⟨.compile, "cc", []⟩, ⟨.codegen, "llc", []⟩] "prog.o",
      .run ⟨.link, "ld", ["prog.o"]⟩, .run ⟨.passThrough, "cc", []⟩]⟩
    let failure : Failure := .stageFailed .link "ld" 1
    ∃ t done step mid begun, s.execute plan = (.error failure, t) ∧
      Begins (s.announced plan) plan.steps done step mid ∧ begun <+: step.tasks ∧
      t.started = done.flatMap Step.tasks ++ begun ∧
      t.started = [⟨.compile, "cc", []⟩, ⟨.codegen, "llc", []⟩, ⟨.link, "ld", ["prog.o"]⟩] := by
  intro s plan failure
  have result : (s.execute plan).1 = .error failure := by decide +kernel
  have all : (s.execute plan).2.started =
      [⟨.compile, "cc", []⟩, ⟨.codegen, "llc", []⟩, ⟨.link, "ld", ["prog.o"]⟩] := by decide +kernel
  have run : s.execute plan = (.error failure, (s.execute plan).2) := by rw [← result]
  obtain ⟨_, stops, _, progress⟩ := executionStopsAtFailure.2 s plan
  obtain ⟨done, step, mid, begins, failed⟩ := (stops failure _).mp run
  obtain ⟨begun, _, inOrder, _, _, started, _⟩ := progress failure _ done step mid begins failed
  exact ⟨_, done, step, mid, begun, run, begins, inOrder, started, all⟩

end StagedBuild.Session

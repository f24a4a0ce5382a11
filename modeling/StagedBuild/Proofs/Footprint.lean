import StagedBuild.Proofs.Attempts
import StagedBuild.Proofs.PlanSettings
import StagedBuild.Proofs.StepEdits

/-! The files that a build may change. Each is named by the last `-o` of a command that was started, or is the
output of the pipe that failed; which names these are can be told from the command line. -/
namespace StagedBuild

namespace Session

def FailedPipe (s : Session) (steps : List Step) (output : String) : Prop :=
  ∃ done tasks mid failure, Begins s steps done (.pipe tasks output) mid ∧
    (mid.runStep (.pipe tasks output)).1 = .error failure

def Accounted (s : Session) (steps : List Step) (begun : List Task) (l : Location) : Prop :=
  (∃ task ∈ begun, Names s.store task l) ∨
    ∃ output, s.FailedPipe steps output ∧ s.store.locate output = .ok l

structure Leaves (s : Session) (steps : List Step) (edits : List Edit) (begun : List Task)
    (t : Session) : Prop where
  store : t.store = s.store.edited edits
  started : t.started = s.started ++ begun
  places : s.store.SamePlaces t.store
  accounted : ∀ e ∈ edits, s.Accounted steps begun e.place

theorem stepLeaves (s : Session) (step : Step) (rest : List Step) :
    s.Leaves (step :: rest) (s.stepEdits step) (s.begun step.tasks) (s.runStep step).2 := by
  refine ⟨stepStore s step, stepBegins s step, stepPlaces s step, ?_⟩
  intro e member
  rcases List.mem_append.mp member with command | cleanup
  · exact .inl (commandAimed command).2
  · obtain ⟨tasks, output, failure, rfl, failed, editable⟩ := cleanupAimed cleanup
    exact .inr ⟨output, ⟨[], tasks, s, failure, beginsNow s _ rest, failed⟩,
      ((Store.editableIff ..).mp editable).1⟩

theorem accountedLater {s mid : Session} {step : Step} {rest : List Step} {before begun : List Task}
    {l : Location} (head : s.runStep step = (.ok (), mid)) (places : s.store.SamePlaces mid.store)
    (later : mid.Accounted rest begun l) : s.Accounted (step :: rest) (before ++ begun) l := by
  rcases later with ⟨task, listed, path, last, reached⟩ | ⟨output, failed, reached⟩
  · exact .inl ⟨task, List.mem_append_right _ listed, path, last, (places.locate path l).mpr reached⟩
  · obtain ⟨done, tasks, at', failure, begins, failed⟩ := failed
    exact .inr ⟨output, ⟨step :: done, tasks, at', failure, beginsLater head begins, failed⟩,
      (places.locate output l).mpr reached⟩

theorem stepsLeave (s : Session) (steps : List Step) :
    ∃ edits begun, s.Leaves steps edits begun (s.runSteps steps).2 := by
  induction steps generalizing s with
  | nil => exact ⟨[], [], rfl, by simp [runSteps], .refl s.store, by simp⟩
  | cons step rest ih =>
    have first := stepLeaves s step rest
    cases result : (s.runStep step).1 with
    | error failure =>
      rw [runStepsStop result]
      exact ⟨_, _, first⟩
    | ok passed =>
      have head : s.runStep step = (.ok (), (s.runStep step).2) := Prod.ext result rfl
      obtain ⟨edits, begun, tail⟩ := ih (s.runStep step).2
      rw [runStepsNext result]
      refine ⟨s.stepEdits step ++ edits, s.begun step.tasks ++ begun, ?_, ?_, first.places.trans tail.places, ?_⟩
      · rw [tail.store, first.store, Store.editedAppend]
      · rw [tail.started, first.started, List.append_assoc]
      · intro e member
        rcases List.mem_append.mp member with early | late
        · rcases first.accounted e early with ⟨task, listed, names⟩ | failed
          · exact .inl ⟨task, List.mem_append_left _ listed, names⟩
          · exact .inr failed
        · exact accountedLater head first.places (tail.accounted e late)

end Session

structure Settings.Unredirected (s : Settings) : Prop where
  plugin : s.optimizer.plugin ≠ "-o"
  passes : ∀ pass ∈ s.optimizer.passes, "-" ++ pass ≠ "-o"

theorem lastOutputNone {words : List String} (none : "-o" ∉ words) : lastOutput? words = Option.none := by
  induction words with
  | nil => rfl
  | cons first rest ih =>
    simp only [List.mem_cons, not_or] at none
    cases rest with
    | nil => rfl
    | cons second rest =>
      rw [lastOutput?, ih none.2]
      simp [Ne.symm none.1]

theorem optimizerWritesNothing {settings : Settings} (plain : settings.Unredirected) :
    lastOutput? (Assembly.empty.optimizer settings).words = none := by
  refine lastOutputNone ?_
  rw [optimizerWords]
  intro member
  rcases List.mem_append.mp member with stats | loaded
  · unfold statsWords at stats
    split at stats <;> simp at stats
  · simp only [List.mem_cons, List.mem_map] at loaded
    rcases loaded with load | plugin | ⟨pass, listed, same⟩
    · simp at load
    · exact plain.plugin plugin.symm
    · exact plain.passes pass listed same

open Session (Names)

theorem objectTaskNames {settings : Settings} (plain : settings.Unredirected) {r : Request}
    {source : String} {task : Task} (listed : task ∈ objectTasks settings r source) {store : Store}
    {l : Location} (names : Names store task l) :
    store.locate "-" = .ok l ∨ store.locate r.object = .ok l := by
  obtain ⟨path, last, reached⟩ := names
  simp only [objectTasks, List.mem_cons, List.not_mem_nil, or_false] at listed
  rcases listed with rfl | rfl | rfl
  · have dash : lastOutput? (compileCommand settings r source).arguments = some "-" := by
      have split : (compileCommand settings r source).arguments =
          (settings.compile.irFlags ++ r.passthrough ++ [source]) ++ ["-o", "-"] := by simp [compileCommand]
      rw [split, lastOutputAppend]
    rw [dash, Option.some.injEq] at last
    exact .inl (last ▸ reached)
  · simp [optimizerWritesNothing plain] at last
  · have object : lastOutput? (codegenCommand settings r).arguments = some r.object :=
      lastOutputAppend ["-filetype=" ++ settings.codegen.filetype] r.object
    rw [object, Option.some.injEq] at last
    exact .inr (last ▸ reached)

def Request.Asks (r : Request) (store : Store) (l : Location) : Prop :=
  ∃ path, r.output = some path ∧ store.locate path = .ok l

theorem linkNames {r : Request} {task : Task} (front : List String)
    (arguments : task.invocation.arguments = front ++ ["-o", r.output.getD ""]) {store : Store}
    {l : Location} (names : Names store task l) : r.Asks store l := by
  obtain ⟨path, last, reached⟩ := names
  rw [arguments, lastOutputAppend, Option.some.injEq] at last
  subst path
  cases given : r.output with
  | none =>
    rw [given] at reached
    exact absurd reached (store.locateEmpty l)
  | some path =>
    rw [given] at reached
    exact ⟨path, given, reached⟩

namespace Session

theorem leavesInOrder {s : Session} {steps : List Step} {edits : List Edit} {begun : List Task}
    (leaves : s.Leaves steps edits begun (s.runSteps steps).2) : begun <+: steps.flatMap Step.tasks := by
  obtain ⟨tried, tries⟩ := stepsTry s steps
  obtain ⟨started, before, same⟩ := tries.started
  have all : begun = started := List.append_cancel_left (leaves.started.symm.trans same)
  exact all ▸ before.trans tries.inOrder

theorem failedPipeFirst {s : Session} {tasks : List Task} {object output : String}
    {links : List Invocation}
    (failed : s.FailedPipe (.pipe tasks object :: links.map fun link => .run ⟨.link, link⟩) output) :
    output = object ∧ ∃ failure, (s.runStep (.pipe tasks object)).1 = .error failure := by
  obtain ⟨done, others, mid, failure, ⟨⟨rest, split⟩, run⟩, failed⟩ := failed
  cases run with
  | nil s =>
    obtain ⟨same, _⟩ := List.cons.inj split
    cases same
    exact ⟨rfl, failure, failed⟩
  | cons head tail =>
    obtain ⟨_, later⟩ := List.cons.inj split
    have inside : .pipe others output ∈ links.map fun link => Step.run ⟨.link, link⟩ := by
      rw [later]
      simp
    simp at inside

def Changes (s : Session) (settings : Settings) (words : List String) (l : Location) : Prop :=
  (s.build settings words).2.store.get? l ≠ s.store.get? l

structure Footprint (s : Session) (settings : Settings) (words : List String) (begun : List Task) :
    Prop where
  started : (s.build settings words).2.started = s.started ++ begun
  places : ∀ path l, (s.build settings words).2.store.locate path = .ok l ↔ s.store.locate path = .ok l
  named : ∀ l, s.Changes settings words l → s.Accounted (makePlan settings words).plan.steps begun l
  compiled : (makePlan settings words).plan.shape = .compileFromSource → settings.Unredirected →
    ∀ l, s.Changes settings words l →
      s.store.locate "-" = .ok l ∨ s.store.locate (readWords words).request.object = .ok l ∨
        (∃ task ∈ begun, task.stage = .link) ∧ (readWords words).request.Asks s.store l
  linked : (makePlan settings words).plan.shape = .linkObject →
    ∀ l, s.Changes settings words l → (readWords words).request.Asks s.store l
  failed : (makePlan settings words).plan.shape = .compileFromSource → settings.Unredirected →
    s.FailedPipe (makePlan settings words).plan.steps (readWords words).request.object →
    ∀ l, (readWords words).request.Asks s.store l →
      s.store.locate (readWords words).request.object ≠ .ok l → s.store.locate "-" ≠ .ok l →
      (s.build settings words).2.store.get? l = s.store.get? l

theorem compiledAccounted {s : Session} {settings : Settings} (plain : settings.Unredirected)
    {r : Request} {source : String} {links : List Invocation} {begun : List Task} {l : Location}
    (accounted : s.Accounted (.pipe (objectTasks settings r source) r.object ::
      links.map fun link => .run ⟨.link, link⟩) begun l) :
    s.store.locate "-" = .ok l ∨ s.store.locate r.object = .ok l ∨
      ∃ task ∈ begun, task ∉ objectTasks settings r source ∧ Names s.store task l := by
  rcases accounted with ⟨task, listed, names⟩ | ⟨output, failed, reached⟩
  · by_cases member : task ∈ objectTasks settings r source
    · rcases objectTaskNames plain member names with dash | object
      · exact .inl dash
      · exact .inr (.inl object)
    · exact .inr (.inr ⟨task, listed, member, names⟩)
  · rw [(failedPipeFirst failed).1] at reached
    exact .inr (.inl reached)

theorem otherNames {settings : Settings} {r : Request} {source : String} {begun : List Task}
    (listed : begun <+: (.pipe (objectTasks settings r source) r.object ::
      (linkCommands settings r).map fun link => .run ⟨.link, link⟩ : List Step).flatMap Step.tasks)
    {task : Task} (member : task ∈ begun) (other : task ∉ objectTasks settings r source) {store : Store}
    {l : Location} (names : Names store task l) : task.stage = .link ∧ r.Asks store l := by
  have inside := listed.subset member
  simp only [List.flatMap_cons, Step.tasks, List.mem_append, List.mem_flatMap, List.mem_map] at inside
  rcases inside with inPipe | ⟨step, ⟨link, given, rfl⟩, here⟩
  · exact absurd inPipe other
  · obtain rfl := List.mem_singleton.mp here
    rw [linkCommandsOnly given] at names
    refine ⟨rfl, linkNames r.linked ?_ names⟩
    simp [linkCommand, Request.linked]

theorem failedPipeStarts {s : Session} {tasks : List Task} {output : String} {rest : List Step}
    {edits : List Edit} {begun : List Task} {failure : Failure}
    (failed : (s.runStep (.pipe tasks output)).1 = .error failure)
    (leaves : s.Leaves (.pipe tasks output :: rest) edits begun
      (s.runSteps (.pipe tasks output :: rest)).2) : begun <+: tasks := by
  have same := leaves.started
  rw [runStepsStop failed] at same
  have all : begun = s.begun tasks := List.append_cancel_left (same.symm.trans (stepBegins s _))
  exact all ▸ List.takeWhile_prefix _

theorem linkAccounted {s : Session} {settings : Settings} {r : Request} {begun : List Task} {l : Location}
    (listed : begun <+: [linkStep settings r r.input (r.output.getD "")].flatMap Step.tasks)
    (accounted : s.Accounted [linkStep settings r r.input (r.output.getD "")] begun l) :
    r.Asks s.store l := by
  rw [linkStepWords] at listed accounted
  rcases accounted with ⟨task, member, names⟩ | ⟨output, ⟨done, tasks, _, _, ⟨⟨rest, split⟩, _⟩, _⟩, _⟩
  · obtain rfl := List.mem_singleton.mp (listed.subset member)
    exact linkNames (r.passthrough ++ r.input.toList) rfl names
  · have pipe : Step.pipe tasks output ∈ done ++ .pipe tasks output :: rest := by simp
    rw [← split] at pipe
    simp at pipe

theorem linkSteps {settings : Settings} {words : List String}
    (shape : (makePlan settings words).plan.shape = .linkObject) :
    (makePlan settings words).plan.steps =
      [linkStep settings (readWords words).request (readWords words).request.input
        ((readWords words).request.output.getD "")] := by
  have request : (readWords words).request.shape = .linkObject := shape
  simp only [makePlan, stepsFor, request]

section
variable {s : Session} {settings : Settings} {words : List String} {edits : List Edit} {begun : List Task}
  (leaves : s.Leaves (makePlan settings words).plan.steps edits begun
    (s.runSteps (makePlan settings words).plan.steps).2)
include leaves

theorem changeAccounted {l : Location} (changed : s.Changes settings words l) :
    s.Accounted (makePlan settings words).plan.steps begun l := by
  rw [Changes, (s.buildDone settings words).2.store, leaves.store] at changed
  obtain ⟨e, member, rfl⟩ := Store.changedByEdit changed
  exact leaves.accounted e member

theorem compiledChange (shape : (makePlan settings words).plan.shape = .compileFromSource)
    (plain : settings.Unredirected) {l : Location} (changed : s.Changes settings words l) :
    s.store.locate "-" = .ok l ∨ s.store.locate (readWords words).request.object = .ok l ∨
      (∃ task ∈ begun, task.stage = .link) ∧ (readWords words).request.Asks s.store l := by
  obtain ⟨source, input, _⟩ := Request.sourceOfShape shape
  have why := changeAccounted leaves changed
  have listed := leavesInOrder leaves
  rw [sourceSteps settings shape input] at why listed
  rcases compiledAccounted plain why with dash | object | ⟨task, member, other, names⟩
  · exact .inl dash
  · exact .inr (.inl object)
  · obtain ⟨link, asks⟩ := otherNames listed member other names
    exact .inr (.inr ⟨⟨task, member, link⟩, asks⟩)

theorem linkedChange (shape : (makePlan settings words).plan.shape = .linkObject) {l : Location}
    (changed : s.Changes settings words l) : (readWords words).request.Asks s.store l := by
  have why := changeAccounted leaves changed
  have listed := leavesInOrder leaves
  rw [linkSteps shape] at why listed
  exact linkAccounted listed why

theorem failedPipeChange (shape : (makePlan settings words).plan.shape = .compileFromSource)
    (plain : settings.Unredirected)
    (failed : s.FailedPipe (makePlan settings words).plan.steps (readWords words).request.object)
    {l : Location} (changed : s.Changes settings words l) :
    s.store.locate "-" = .ok l ∨ s.store.locate (readWords words).request.object = .ok l := by
  obtain ⟨source, input, _⟩ := Request.sourceOfShape shape
  have why := changeAccounted leaves changed
  rw [sourceSteps settings shape input] at why failed leaves
  obtain ⟨failure, failed⟩ := (failedPipeFirst failed).2
  have inPipe := failedPipeStarts failed leaves
  rcases compiledAccounted plain why with dash | object | ⟨task, member, other, _⟩
  · exact .inl dash
  · exact .inr object
  · exact absurd (inPipe.subset member) other

end

theorem buildFootprint (s : Session) (settings : Settings) (words : List String) :
    ∃ begun, s.Footprint settings words begun := by
  obtain ⟨edits, begun, leaves⟩ := s.stepsLeave (makePlan settings words).plan.steps
  have done := (s.buildDone settings words).2
  refine ⟨begun, by rw [done.started, leaves.started], ?_, fun _ => changeAccounted leaves,
    fun shape plain _ => compiledChange leaves shape plain, fun shape _ => linkedChange leaves shape, ?_⟩
  · intro path l
    rw [done.store]
    exact (leaves.places.locate path l).symm
  · intro shape plain failed l _ notObject notDash
    refine Classical.byContradiction fun changed => ?_
    rcases failedPipeChange leaves shape plain failed changed with dash | object
    · exact notDash dash
    · exact notObject object

theorem failedBuildKeepsOutput :
    let front : Tool := { usual := { intake := .drain } }
    let back : Tool := { usual := { intake := .copy, sink := .file, exit := 3 } }
    let s : Session := {
      store := ⟨["work"], [([], .directory), (["work"], .directory), (["bin"], .directory),
        (["bin", "clang"], .tool front), (["bin", "opt"], .tool front), (["bin", "llc"], .tool back),
        (["work", "prog"], .file .empty true)]⟩
      searchPath := ["/bin"] }
    let words := ["-o", "prog", "main.c"]
    ({} : Settings).Unredirected ∧ s.FailedPipe (makePlan {} words).plan.steps "prog.o" ∧
      (s.build {} words).2.store.get? ["work", "prog"] = some (.file .empty true) := by
  intro front back s words
  let compile : Task := ⟨.compile, "clang", ["-c", "-O0", "-emit-llvm", "main.c", "-o", "-"]⟩
  let optimize : Task := ⟨.optimize, "opt", ["-stats", "-load", "PREviaLCM.so", "-reassociate", "-newgvn"]⟩
  let codegen : Task := ⟨.codegen, "llc", ["-filetype=obj", "-o", "prog.o"]⟩
  let last : Program := ⟨["bin", "llc"], back, codegen.invocation.arguments⟩
  have plain : ({} : Settings).Unredirected := ⟨by decide, by decide⟩
  have planned : (makePlan {} words).plan.steps = [.pipe [compile, optimize, codegen] "prog.o",
    .run ⟨.link, "clang", ["prog.o", "-o", "prog"]⟩] := by decide
  have cc : s.store.lookUp s.searchPath "clang" = .ok (["bin", "clang"], front) := rfl
  have opt : s.store.lookUp s.searchPath "opt" = .ok (["bin", "opt"], front) := rfl
  have llc : s.store.lookUp s.searchPath "llc" = .ok (["bin", "llc"], back) := rfl
  have first : s.start compile = .ok ⟨["bin", "clang"], front, compile.invocation.arguments⟩ :=
    startFound (by decide) cc
  have second : s.start optimize = .ok ⟨["bin", "opt"], front, optimize.invocation.arguments⟩ :=
    startFound (by decide) opt
  have third : s.start codegen = .ok last := startFound (by decide) llc
  have started : [compile, optimize, codegen].mapM s.start =
      .ok [⟨["bin", "clang"], front, compile.invocation.arguments⟩,
        ⟨["bin", "opt"], front, optimize.invocation.arguments⟩, last] := by
    simp only [List.mapM_cons, List.mapM_nil, first, second, third]
    rfl
  have status (store : Store) (input : ByteArray) :
      (last.run store input true).status = .exited 3 := by
    unfold Program.run
    cases store.write last.target (last.content input) <;> rfl
  have failed : s.FailedPipe (makePlan {} words).plan.steps "prog.o" := by
    rw [planned]
    cases result : (s.runStep (.pipe [compile, optimize, codegen] "prog.o")).1 with
    | error failure => exact ⟨[], _, s, failure, ⟨⟨_, rfl⟩, .nil s⟩, result⟩
    | ok passed =>
      obtain ⟨_, programs, again, all⟩ := (stepSucceeds s _).mp result
      obtain rfl := Except.ok.inj (started.symm.trans again)
      have good := all _ (List.mem_cons_of_mem _ (List.mem_cons_of_mem _ List.mem_cons_self))
      rw [heeded, status] at good
      contradiction
  obtain ⟨begun, footprint⟩ := buildFootprint s {} words
  have named : (readWords words).request.object = "prog.o" := by decide
  have kept := footprint.failed (by decide) plain
  rw [named] at kept
  have held := kept failed ["work", "prog"] ⟨"prog", by decide, rfl⟩
  have object : s.store.locate "prog.o" = .ok ["work", "prog.o"] := rfl
  have dash : s.store.locate "-" = .ok ["work", "-"] := rfl
  have notObject : s.store.locate "prog.o" ≠ .ok ["work", "prog"] := by
    rw [object]
    simp
  have notDash : s.store.locate "-" ≠ .ok ["work", "prog"] := by
    rw [dash]
    simp
  exact ⟨plain, failed, held notObject notDash⟩

end Session

end StagedBuild

import Mathlib.Data.List.Basic
import StagedBuild.Plan.Make
import StagedBuild.Proofs.Execution

/-! What is asked of a plan, told by its commands in order. A step without the stage that is looked for is passed
over, so that the first command of that stage is found wherever it stands; and in a plan for some words no
stage comes twice, so that the answers for all stages make up the plan. -/
namespace StagedBuild

def firstOf? (tasks : List Task) (stage : Stage) : Option Task := tasks.find? fun task => task.stage = stage

theorem firstOfStage {tasks : List Task} {stage : Stage} {task : Task}
    (found : firstOf? tasks stage = some task) : task.stage = stage := by
  simpa using List.find?_some found

theorem firstOfNone {tasks : List Task} {stage : Stage} :
    firstOf? tasks stage = none ↔ stage ∉ tasks.map Task.stage := by
  simp [firstOf?]

theorem tasksByStage {tasks : List Task} {stages : List Stage}
    (ordered : (tasks.map Task.stage).Sublist stages) (distinct : stages.Nodup) :
    stages.filterMap (firstOf? tasks) = tasks := by
  induction stages generalizing tasks with
  | nil =>
    have none : tasks = [] := by simpa using ordered
    simp [none]
  | cons stage rest ih =>
    obtain ⟨fresh, later⟩ := List.nodup_cons.mp distinct
    rcases List.sublist_cons_iff.mp ordered with inRest | ⟨stages, heads, inRest⟩
    · have absent : stage ∉ tasks.map Task.stage := fun member => fresh (inRest.subset member)
      rw [List.filterMap_cons_none (firstOfNone.mpr absent), ih inRest later]
    · obtain ⟨task, others, rfl, rfl, rfl⟩ := List.map_eq_cons_iff.mp heads
      have first : firstOf? (task :: others) task.stage = some task := by simp [firstOf?]
      have behind : rest.filterMap (firstOf? (task :: others)) = rest.filterMap (firstOf? others) := by
        refine List.filterMap_congr fun stage member => ?_
        have other : task.stage ≠ stage := fun same => fresh (same ▸ member)
        simp [firstOf?, other]
      rw [List.filterMap_cons_some first, behind, ih inRest later]

namespace Step

theorem invocationFirst (step : Step) (stage : Stage) :
    step.invocation? stage = (firstOf? step.tasks stage).map Task.invocation := by
  cases step with
  | run task => by_cases same : task.stage = stage <;> simp [invocation?, tasks, firstOf?, same]
  | pipe tasks output => rfl

theorem stagesOfTasks (step : Step) : step.stages = step.tasks.map Task.stage := by
  cases step <;> rfl

end Step

namespace Plan

theorem invocationFirst (plan : Plan) (stage : Stage) :
    plan.invocation? stage = (firstOf? plan.tasks stage).map Task.invocation := by
  have steps : Step.invocation? stage =
      Option.map Task.invocation ∘ fun step => firstOf? step.tasks stage := by
    funext step
    exact step.invocationFirst stage
  rw [invocation?, tasks, firstOf?, List.find?_flatMap, List.map_findSome?, steps]
  rfl

theorem taskFound (plan : Plan) (stage : Stage) :
    (plan.invocation? stage).map (Task.mk stage) = firstOf? plan.tasks stage := by
  rw [invocationFirst]
  cases found : firstOf? plan.tasks stage with
  | none => rfl
  | some task =>
    rw [← firstOfStage found]
    rfl

theorem invocationAbsent (plan : Plan) (stage : Stage) :
    plan.invocation? stage = none ↔ stage ∉ plan.tasks.map Task.stage := by
  rw [invocationFirst, Option.map_eq_none_iff, firstOfNone]

theorem invocationAt (plan : Plan) (stage : Stage) (i : Invocation) :
    plan.invocation? stage = some i ↔ ∃ before after, plan.tasks = before ++ ⟨stage, i⟩ :: after ∧
      stage ∉ before.map Task.stage := by
  have asTask : plan.invocation? stage = some i ↔ firstOf? plan.tasks stage = some ⟨stage, i⟩ := by
    rw [← taskFound]
    cases plan.invocation? stage <;> simp
  rw [asTask, firstOf?, List.find?_eq_some_iff_append]
  simp

theorem stepPassedOver {stage : Stage} {step : Step} (without : stage ∉ step.stages) (shape : Shape)
    (before after : List Step) :
    (Plan.mk shape (before ++ step :: after)).invocation? stage =
      (Plan.mk shape (before ++ after)).invocation? stage := by
  have nothing : step.invocation? stage = none := by
    rw [step.invocationFirst, Option.map_eq_none_iff, firstOfNone, ← step.stagesOfTasks]
    exact without
  simp [invocation?, List.findSome?_append, nothing]

theorem stagesOfTasks (plan : Plan) : plan.steps.flatMap Step.stages = plan.tasks.map Task.stage := by
  rw [tasks, List.map_flatMap]
  exact congrArg (plan.steps.flatMap ·) (funext Step.stagesOfTasks)

end Plan

structure AnswersByTasks (plan : Plan) : Prop where
  first : ∀ stage i, plan.invocation? stage = some i ↔
    ∃ before after, plan.tasks = before ++ ⟨stage, i⟩ :: after ∧ stage ∉ before.map Task.stage
  absent : ∀ stage, plan.invocation? stage = none ↔ stage ∉ plan.tasks.map Task.stage
  passedOver : ∀ stage before step after, plan.steps = before ++ step :: after → stage ∉ step.stages →
    plan.invocation? stage = (Plan.mk plan.shape (before ++ after)).invocation? stage
  stages : plan.steps.flatMap Step.stages = plan.tasks.map Task.stage
  count : plan.processCount = plan.tasks.length

theorem answersByTasks (plan : Plan) : AnswersByTasks plan where
  first := plan.invocationAt
  absent := plan.invocationAbsent
  passedOver stage before step after split without := by
    have whole : plan = ⟨plan.shape, before ++ step :: after⟩ := by rw [← split]
    rw [whole]
    exact Plan.stepPassedOver without ..
  stages := plan.stagesOfTasks
  count := (Session.processCountTasks plan).symm

def Shape.stages (shape : Shape) (toObject : Bool) : List Stage :=
  match shape with
  | .compileFromSource => [.compile, .optimize, .codegen] ++ if toObject then [] else [.link]
  | .linkObject => [.link]
  | .passThrough => [.passThrough]

theorem plannedStages (settings : Settings) (words : List String) :
    (makePlan settings words).plan.tasks.map Task.stage =
      (readWords words).request.shape.stages (readWords words).request.toObject := by
  rw [← Plan.stagesOfTasks]
  simp only [makePlan, stepsFor, Shape.stages]
  cases (readWords words).request.shape with
  | compileFromSource =>
    simp only [compileSteps]
    split <;> rfl
  | linkObject => rfl
  | passThrough => rfl

theorem stagesInOrder (shape : Shape) (toObject : Bool) : (shape.stages toObject).Sublist Stage.all := by
  cases shape <;> cases toObject <;> decide

structure AnswersMakePlan (plan : Plan) : Prop where
  distinct : (plan.tasks.map Task.stage).Nodup
  listed : plan.tasks = Stage.all.filterMap fun stage => (plan.invocation? stage).map (Task.mk stage)
  member : ∀ task, task ∈ plan.tasks ↔ plan.invocation? task.stage = some task.invocation
  count : plan.processCount = Stage.all.countP fun stage => (plan.invocation? stage).isSome

theorem answersMakePlan {plan : Plan} (ordered : (plan.tasks.map Task.stage).Sublist Stage.all) :
    AnswersMakePlan plan := by
  have distinct : Stage.all.Nodup := by decide
  have every (stage : Stage) : stage ∈ Stage.all := by cases stage <;> decide
  have listed : plan.tasks = Stage.all.filterMap fun stage =>
      (plan.invocation? stage).map (Task.mk stage) := by
    simp only [Plan.taskFound]
    exact (tasksByStage ordered distinct).symm
  refine ⟨distinct.sublist ordered, listed, fun task => ?_, ?_⟩
  · rw [listed, List.mem_filterMap]
    constructor
    · rintro ⟨stage, _, found⟩
      obtain ⟨i, given, rfl⟩ := Option.map_eq_some_iff.mp found
      exact given
    · intro given
      exact ⟨task.stage, every task.stage, by rw [given]; rfl⟩
  · have counted := congrArg List.length listed
    rw [Session.processCountTasks, List.length_filterMap_eq_countP] at counted
    simpa using counted

theorem planAnswersByTasks :
    (∀ plan, AnswersByTasks plan) ∧ (∀ stage, stage ∈ Stage.all) ∧ Stage.all.Nodup ∧
      ∀ settings words, AnswersMakePlan (makePlan settings words).plan := by
  refine ⟨answersByTasks, ?_, ?_, fun settings words => ?_⟩
  · intro stage
    cases stage <;> decide
  · decide
  · refine answersMakePlan ?_
    rw [plannedStages]
    exact stagesInOrder ..

/- Neither an empty pipe nor one without the stage ends the search, and of two commands the first counts. -/
theorem linkBehindPipes :
    let empty : Step := .pipe [] "a.o"
    let pipe : Step := .pipe [⟨.compile, "clang", []⟩, ⟨.compile, "gcc", []⟩] "b.o"
    let link : Step := .run ⟨.link, "ld", []⟩
    let plan : Plan := ⟨.compileFromSource, [empty, pipe, link]⟩
    plan.invocation? .link = (Plan.mk .compileFromSource [empty, link]).invocation? .link ∧
      plan.invocation? .link = some ⟨"ld", []⟩ ∧ plan.invocation? .compile = some ⟨"clang", []⟩ ∧
      plan.invocation? .codegen = none ∧ plan.processCount = 3 := by
  intro empty pipe link plan
  have answers := planAnswersByTasks.1 plan
  refine ⟨answers.passedOver .link [empty] pipe [link] rfl (by decide), ?_, ?_, ?_, answers.count⟩
  · exact (answers.first .link _).mpr
      ⟨[⟨.compile, "clang", []⟩, ⟨.compile, "gcc", []⟩], [], rfl, by decide⟩
  · exact (answers.first .compile _).mpr ⟨[], _, rfl, by decide⟩
  · exact (answers.absent .codegen).mpr (by decide)

end StagedBuild

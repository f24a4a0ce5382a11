import StagedBuild.Proofs.PlanSettings

/-! Two command lines and the plans that they give under the same settings. The words of the commands tell
what was asked for, and the pipe is told apart by what its last command writes, so that comparing outputs
as paths never takes two plans for one. -/
namespace StagedBuild

def Step.NamesOutput : Step → Prop
  | .run _ => True
  | .pipe tasks output =>
    ∃ last, tasks.getLast? = some last ∧ lastOutput? last.invocation.arguments = some output

theorem stepAgrees {a b : Step} (left : a.NamesOutput) (right : b.NamesOutput)
    (agrees : a.agrees b = true) : a = b := by
  cases a with
  | run task =>
    cases b with
    | run other => simpa [Step.agrees] using agrees
    | pipe tasks output => simp [Step.agrees] at agrees
  | pipe tasks output =>
    cases b with
    | run other => simp [Step.agrees] at agrees
    | pipe others output' =>
      simp only [Step.agrees, Bool.and_eq_true, beq_iff_eq] at agrees
      obtain ⟨rfl, _⟩ := agrees
      obtain ⟨last, found, written⟩ := left
      obtain ⟨last', found', written'⟩ := right
      cases Option.some.inj (found.symm.trans found')
      rw [Option.some.inj (written.symm.trans written')]

theorem stepsAgreeEqual {a b : List Step} (left : ∀ step ∈ a, step.NamesOutput)
    (right : ∀ step ∈ b, step.NamesOutput) (agrees : Plan.stepsAgree a b = true) : a = b := by
  induction a generalizing b with
  | nil =>
    cases b with
    | nil => rfl
    | cons step rest => simp [Plan.stepsAgree] at agrees
  | cons first as ih =>
    cases b with
    | nil => simp [Plan.stepsAgree] at agrees
    | cons second bs =>
      simp only [Plan.stepsAgree, Bool.and_eq_true] at agrees
      have heads := stepAgrees (left first (by simp)) (right second (by simp)) agrees.1
      have tails := ih (fun step member => left step (by simp [member]))
        (fun step member => right step (by simp [member])) agrees.2
      rw [heads, tails]

theorem objectTasksLast (settings : Settings) (r : Request) (source : String) :
    (objectTasks settings r source).getLast? = some ⟨.codegen, codegenCommand settings r⟩ := rfl

theorem planNamesOutputs (settings : Settings) (words : List String) :
    ∀ step ∈ (makePlan settings words).plan.steps, step.NamesOutput := by
  intro step member
  by_cases shape : (readWords words).request.shape = .compileFromSource
  · obtain ⟨source, input, _⟩ := Request.sourceOfShape shape
    rw [sourceSteps settings shape input] at member
    rcases List.mem_cons.mp member with rfl | linked
    · exact ⟨_, objectTasksLast settings _ source, lastOutputAppend [_] _⟩
    · obtain ⟨link, _, rfl⟩ := List.mem_map.mp linked
      trivial
  · obtain ⟨stage, arguments, _, runs⟩ := otherSteps shape
    rw [runs, List.mem_singleton] at member
    subst member
    trivial

theorem plansAgreeEqual (s t : Settings) (a b : List String) :
    (makePlan s a).plan.agrees (makePlan t b).plan = true ↔ (makePlan s a).plan = (makePlan t b).plan := by
  refine (agreesIff (fun agrees => ?_) id).1
  simp only [Plan.agrees, Bool.and_eq_true, beq_iff_eq] at agrees
  have steps := stepsAgreeEqual (planNamesOutputs s a) (planNamesOutputs t b) agrees.2
  cases first : (makePlan s a).plan
  cases second : (makePlan t b).plan
  simp_all

theorem Request.toObjectGiven (r : Request) : r.toObject = isObject (r.output.getD "") := by
  have empty : isObject "" = false := by decide
  cases given : r.output with
  | none => simp [toObject, given, empty]
  | some path => simp [toObject, given]

structure Request.SameSource (r q : Request) : Prop where
  input : r.input = q.input
  passthrough : r.passthrough = q.passthrough
  output : r.output.getD "" = q.output.getD ""

theorem compileStepsShared (settings : Settings) {r q : Request} (same : r.SameSource q) :
    compileSteps settings r = compileSteps settings q := by
  have object : r.object = q.object := by simp only [Request.object, same.output]
  have asked : r.toObject = q.toObject := by simp only [Request.toObjectGiven, same.output]
  have linked (input : Option String) (output : String) :
      linkStep settings r input output = linkStep settings q input output := by
    simp only [linkStep, Assembly.ofPassthrough, same.passthrough]
  have piped : objectPipe settings r = objectPipe settings q := by
    simp only [objectPipe, same.input, same.passthrough, object]
  simp only [compileSteps, asked, piped, linked, object, same.output]

theorem compileCommandTells {settings : Settings} {r q : Request} {source source' : String}
    (same : compileCommand settings r source = compileCommand settings q source') :
    r.passthrough = q.passthrough ∧ source = source' := by
  have words := congrArg Invocation.arguments same
  obtain ⟨front, back⟩ := List.append_inj' words rfl
  exact ⟨List.append_cancel_left front, (List.cons.inj back).1⟩

theorem linkCommandsTell {settings : Settings} {r q : Request} (object : r.object = q.object)
    (same : linkCommands settings r = linkCommands settings q) :
    r.output.getD "" = q.output.getD "" := by
  cases asked : r.toObject with
  | true =>
    have left := r.toObjectExact.mp asked
    have right : q.output = some q.object := by
      rw [(linkCommandsNone settings r).mpr left] at same
      exact (linkCommandsNone settings q).mp same.symm
    rw [left, right, object]
  | false =>
    have linked : linkCommands settings r = [linkCommand settings r] := by simp [linkCommands, asked]
    have other : linkCommand settings r = linkCommand settings q := by
      rw [linked] at same
      exact linkCommandsOnly (same ▸ List.mem_singleton_self _)
    have words := congrArg Invocation.arguments other
    obtain ⟨_, back⟩ := List.append_inj' words rfl
    exact (List.cons.inj (List.cons.inj (List.cons.inj back).2).2).1

theorem compileStepsTell {settings : Settings} {r q : Request} {source source' : String}
    (left : r.input = some source) (right : q.input = some source')
    (same : compileSteps settings r = compileSteps settings q) : r.SameSource q := by
  rw [compileStepsCommands settings left, compileStepsCommands settings right] at same
  obtain ⟨pipe, links⟩ := List.cons.inj same
  obtain ⟨tasks, object⟩ := Step.pipe.inj pipe
  have compile : compileCommand settings r source = compileCommand settings q source' :=
    (Task.mk.inj (List.cons.inj tasks).1).2
  obtain ⟨passthrough, sources⟩ := compileCommandTells compile
  have commands : linkCommands settings r = linkCommands settings q := by
    refine (List.map_inj_right fun one other equal => ?_).mp links
    simpa using equal
  exact ⟨by rw [left, right, sources], passthrough, linkCommandsTell object commands⟩

theorem linkStepTells {settings : Settings} {r q : Request} {output output' : String} (left : r.Sorted)
    (right : q.Sorted) (given : r.output = some output) (given' : q.output = some output')
    (same : linkStep settings r r.input output = linkStep settings q q.input output') : r = q := by
  have complete {request : Request} {path : String} (there : request.output = some path) :
      (⟨some path, request.input, request.passthrough⟩ : Request) = request := by rw [← there]
  rw [linkStepWords, linkStepWords, complete given, complete given'] at same
  have words : r.words = q.words := by simpa using same
  have read := readBack left
  rw [words, readBack right] at read
  exact (Reading.mk.inj read).1.symm

def AskAlike (shape : Shape) (a b : List String) : Prop :=
  match shape with
  | .passThrough => a = b
  | .linkObject => (readWords a).request = (readWords b).request
  | .compileFromSource => (readWords a).request.SameSource (readWords b).request

theorem linkGiven {r : Request} (shape : r.shape = .linkObject) : ∃ output, r.output = some output := by
  cases given : r.output with
  | none =>
    unfold Request.shape at shape
    split at shape
    · contradiction
    · simp [given] at shape
  | some output => exact ⟨output, rfl⟩

theorem stepsTellWords (settings : Settings) {a b : List String} {shape : Shape}
    (left : (readWords a).request.shape = shape) (right : (readWords b).request.shape = shape) :
    (makePlan settings a).plan.steps = (makePlan settings b).plan.steps ↔ AskAlike shape a b := by
  simp only [makePlan, stepsFor, left, right]
  cases shape with
  | passThrough => simp [AskAlike]
  | linkObject =>
    obtain ⟨output, given⟩ := linkGiven left
    obtain ⟨output', given'⟩ := linkGiven right
    simp only [given, given', Option.getD_some, List.cons.injEq, and_true]
    refine ⟨linkStepTells (readSorted a) (readSorted b) given given', fun same => ?_⟩
    have alike : (readWords a).request = (readWords b).request := same
    rw [alike, given', Option.some.injEq] at given
    rw [alike, given]
  | compileFromSource =>
    obtain ⟨source, input, _⟩ := Request.sourceOfShape left
    obtain ⟨source', input', _⟩ := Request.sourceOfShape right
    exact ⟨compileStepsTell input input', compileStepsShared settings⟩

theorem plansTellWords :
    (∀ (settings : Settings) (a b : List String),
      (makePlan settings a).plan.agrees (makePlan settings b).plan = true ↔
        (makePlan settings a).plan.shape = (makePlan settings b).plan.shape ∧
        AskAlike (makePlan settings a).plan.shape a b) ∧
    ∀ (s t : Settings) (a b : List String),
      (makePlan s a).plan.agrees (makePlan t b).plan = true ↔
        (makePlan s a).plan = (makePlan t b).plan := by
  refine ⟨fun settings a b => ?_, plansAgreeEqual⟩
  rw [plansAgreeEqual, Plan.mk.injEq]
  constructor
  · rintro ⟨shape, steps⟩
    exact ⟨shape, (stepsTellWords settings rfl shape.symm).mp steps⟩
  · rintro ⟨shape, alike⟩
    exact ⟨shape, (stepsTellWords settings rfl shape.symm).mpr alike⟩

example : Path.same "a//b.o" "a/b.o" = true ∧
    (makePlan {} ["-o", "a//b.o", "m.c"]).plan.agrees (makePlan {} ["-o", "a/b.o", "m.c"]).plan = false := by
  decide

end StagedBuild

import StagedBuild.Plan.Make
import StagedBuild.Proofs.Reading

/-! Commands that a plan runs outside a pipe, read as a command line again. Nothing is built from source
then, and the one command that comes out is the one that went in. -/
namespace StagedBuild

theorem linkStepWords (settings : Settings) (r : Request) (input : Option String) (output : String) :
    linkStep settings r input output = .run ⟨.link, settings.toolchain.cc,
      Request.words ⟨some output, input, r.passthrough⟩⟩ := by
  cases input <;> simp [linkStep, Assembly.ofPassthrough, Assembly.input, Assembly.output, Request.words]

theorem readBackSteps {r : Request} {output : String} (settings : Settings) (sorted : r.Sorted)
    (given : r.output = some output) (noSource : r.fromSource = false) :
    (makePlan settings r.words).plan.shape = (if output = "" then .passThrough else .linkObject) ∧
      (makePlan settings r.words).plan.steps =
        [.run ⟨if output = "" then .passThrough else .link, settings.toolchain.cc, r.words⟩] := by
  have shape : r.shape = if output = "" then .passThrough else .linkObject := by
    by_cases empty : output = "" <;> simp [Request.shape, noSource, given, empty]
  have planned : makePlan settings r.words =
      ⟨⟨r.shape, stepsFor settings r.words r⟩, ⟨r, []⟩⟩ := by simp only [makePlan, readBack sorted]
  refine ⟨by rw [planned, shape], ?_⟩
  rw [planned]
  by_cases empty : output = ""
  · simp [stepsFor, shape, empty]
  · have same : (⟨some output, r.input, r.passthrough⟩ : Request) = r := by
      obtain ⟨_, _, _⟩ := r
      simp only at given
      rw [given]
    simp [stepsFor, shape, empty, linkStepWords, given, same]

theorem emittedWords {settings : Settings} {words : List String} {task : Task}
    (emitted : .run task ∈ (makePlan settings words).plan.steps) :
    task = ⟨.passThrough, settings.toolchain.cc, words⟩ ∧
        (readWords words).request.shape = .passThrough ∨
      ∃ r : Request, r.Sorted ∧ r.output = some ((readWords words).request.output.getD "") ∧
        r.fromSource = false ∧ task = ⟨.link, settings.toolchain.cc, r.words⟩ := by
  have sorted := readSorted words
  simp only [makePlan, stepsFor] at emitted
  generalize (readWords words).request = request at sorted emitted ⊢
  cases shape : request.shape with
  | passThrough =>
    simp only [shape, List.mem_singleton, Step.run.injEq] at emitted
    exact .inl ⟨emitted, rfl⟩
  | linkObject =>
    simp only [shape, linkStepWords, List.mem_singleton, Step.run.injEq] at emitted
    have noSource : request.fromSource = false := by
      cases source : request.fromSource with
      | false => rfl
      | true => simp [Request.shape, source] at shape
    exact .inr ⟨⟨some (request.output.getD ""), request.input, request.passthrough⟩,
      ⟨sorted.plain, sorted.input⟩, rfl, noSource, emitted⟩
  | compileFromSource =>
    simp only [shape, compileSteps, linkStepWords, objectPipe] at emitted
    have object := request.objectIsObject
    split at emitted
    · simp at emitted
    · have linked : task = ⟨.link, settings.toolchain.cc, Request.words
          ⟨some (request.output.getD ""), some request.object, request.passthrough⟩⟩ := by
        simpa using emitted
      refine .inr ⟨⟨some (request.output.getD ""), some request.object, request.passthrough⟩,
        ⟨sorted.plain, ?_⟩, rfl, ?_, linked⟩
      · intro word same
        exact Option.some.inj same ▸ objectIsInput object
      · simp [Request.fromSource, objectNotSource object]

theorem emittedCommandStays (settings : Settings) (words : List String) (task : Task)
    (emitted : .run task ∈ (makePlan settings words).plan.steps) :
    ∃ stage, (makePlan settings task.invocation.arguments).plan.steps =
        [.run ⟨stage, task.invocation⟩] ∧
      (makePlan settings task.invocation.arguments).plan.shape ≠ .compileFromSource ∧
      (stage = task.stage ∨ stage = .passThrough ∧ (readWords words).request.output.getD "" = "") := by
  rcases emittedWords emitted with ⟨rfl, shape⟩ | ⟨r, sorted, given, noSource, rfl⟩
  · refine ⟨.passThrough, ?_, ?_, .inl rfl⟩
    · simp [makePlan, stepsFor, shape]
    · simp [makePlan, shape]
  · obtain ⟨shape, steps⟩ := readBackSteps settings sorted given noSource
    refine ⟨_, steps, ?_, ?_⟩
    · rw [shape]
      split <;> simp
    · split
      · exact .inr ⟨rfl, by assumption⟩
      · exact .inl rfl

theorem emittedLinkWithoutOutput :
    .run ⟨.link, "clang", ["-Wall", ".o", "-o", ""]⟩ ∈ (makePlan {} ["-Wall", "main.c"]).plan.steps ∧
      ∃ stage, (makePlan {} ["-Wall", ".o", "-o", ""]).plan.steps =
          [.run ⟨stage, "clang", ["-Wall", ".o", "-o", ""]⟩] ∧
        (makePlan {} ["-Wall", ".o", "-o", ""]).plan.shape ≠ .compileFromSource ∧
        (stage = .link ∨ stage = .passThrough ∧
          (readWords ["-Wall", "main.c"]).request.output.getD "" = "") :=
  ⟨by decide, emittedCommandStays {} ["-Wall", "main.c"]
    ⟨.link, "clang", ["-Wall", ".o", "-o", ""]⟩ (by decide)⟩

end StagedBuild

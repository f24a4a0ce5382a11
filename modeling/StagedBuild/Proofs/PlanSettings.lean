import StagedBuild.Proofs.Additions
import StagedBuild.Proofs.ObjectPath

/-! Two settings and the plans that they give for the same words. A build from source tells the settings
apart wherever they differ; all other plans only depend on the compiler. -/
namespace StagedBuild

def statsWords (o : Optimizer) : List String := if o.stats then ["-stats"] else []

theorem optimizerWords (settings : Settings) :
    (Assembly.empty.optimizer settings).words = statsWords settings.optimizer ++
      "-load" :: settings.optimizer.plugin :: settings.optimizer.passes.map ("-" ++ ·) :=
  Assembly.empty.addWords (.optimizer settings)

theorem statsTold {a b : Optimizer} {left right : List String}
    (same : statsWords a ++ "-load" :: left = statsWords b ++ "-load" :: right) :
    a.stats = b.stats ∧ left = right := by
  unfold statsWords at same
  cases first : a.stats <;> cases second : b.stats <;> simp [first, second] at same
  · exact ⟨rfl, same⟩
  · exact ⟨rfl, same⟩

theorem optimizerTold {a b : Settings}
    (same : (Assembly.empty.optimizer a).words = (Assembly.empty.optimizer b).words) :
    a.optimizer = b.optimizer := by
  rw [optimizerWords, optimizerWords] at same
  obtain ⟨stats, words⟩ := statsTold same
  obtain ⟨plugin, passes⟩ := List.cons.inj words
  have dashes : ∀ x y : String, "-" ++ x = "-" ++ y → x = y := fun _ _ => (String.append_right_inj "-").mp
  cases first : a.optimizer
  cases second : b.optimizer
  simp_all [List.map_inj_right dashes]

def objectTasks (settings : Settings) (r : Request) (source : String) : List Task :=
  [⟨.compile, compileCommand settings r source⟩,
    ⟨.optimize, settings.toolchain.opt, (Assembly.empty.optimizer settings).words⟩,
    ⟨.codegen, codegenCommand settings r⟩]

theorem objectTasksTell {a b : Settings} {r : Request} {source : String}
    (same : objectTasks a r source = objectTasks b r source) : a = b := by
  simp only [objectTasks, compileCommand, codegenCommand, List.cons.injEq, Task.mk.injEq,
    Invocation.mk.injEq, true_and, and_true, List.append_left_inj, String.append_right_inj] at same
  obtain ⟨⟨cc, irFlags⟩, ⟨opt, words⟩, llc, filetype⟩ := same
  have optimizer := optimizerTold words
  obtain ⟨⟨_, _, _⟩, ⟨_⟩, _, ⟨_⟩⟩ := a
  obtain ⟨⟨_, _, _⟩, ⟨_⟩, _, ⟨_⟩⟩ := b
  simp_all

theorem agreesSelf (plan : Plan) : plan.agrees plan = true := by
  have step (s : Step) : s.agrees s = true := by cases s <;> simp [Step.agrees, Path.same]
  have steps (list : List Step) : Plan.stepsAgree list list = true := by
    induction list with
    | nil => rfl
    | cons s rest ih => simp [Plan.stepsAgree, step, ih]
  simp [Plan.agrees, steps]

theorem agreesIff {p q : Plan} {same : Prop} (told : p.agrees q = true → same) (made : same → p = q) :
    (p.agrees q = true ↔ same) ∧ (p = q ↔ same) := by
  have equal : p = q → p.agrees q = true := by
    rintro rfl
    exact agreesSelf p
  exact ⟨⟨told, fun h => equal (made h)⟩, fun h => told (equal h), made⟩

theorem sourceSteps (settings : Settings) {words : List String} {source : String}
    (shape : (readWords words).request.shape = .compileFromSource)
    (input : (readWords words).request.input = some source) :
    (makePlan settings words).plan.steps =
      .pipe (objectTasks settings (readWords words).request source) (readWords words).request.object ::
        (linkCommands settings (readWords words).request).map fun link => .run ⟨.link, link⟩ := by
  simp only [makePlan, stepsFor, shape]
  exact compileStepsCommands settings input

theorem sourcePlans (a b : Settings) {words : List String}
    (shape : (readWords words).request.shape = .compileFromSource) :
    ((makePlan a words).plan.agrees (makePlan b words).plan = true ↔ a = b) ∧
      ((makePlan a words).plan = (makePlan b words).plan ↔ a = b) := by
  obtain ⟨source, input, _⟩ := Request.sourceOfShape shape
  refine agreesIff (fun agrees => ?_) fun same => by rw [same]
  simp only [Plan.agrees, sourceSteps a shape input, sourceSteps b shape input, Plan.stepsAgree,
    Step.agrees, Bool.and_eq_true, beq_iff_eq] at agrees
  exact objectTasksTell agrees.2.1.1

theorem otherSteps {words : List String} (shape : (readWords words).request.shape ≠ .compileFromSource) :
    ∃ stage arguments, (stage = .link ∨ stage = .passThrough) ∧ ∀ settings,
      (makePlan settings words).plan.steps = [.run ⟨stage, settings.toolchain.cc, arguments⟩] := by
  cases kind : (readWords words).request.shape with
  | compileFromSource => exact absurd kind shape
  | linkObject =>
    let r := (readWords words).request
    let link := ((Assembly.ofPassthrough r).input r.input).output (r.output.getD "")
    refine ⟨.link, link.words, .inl rfl, fun settings => ?_⟩
    simp only [makePlan, stepsFor, kind]
    rfl
  | passThrough =>
    refine ⟨.passThrough, words, .inr rfl, fun settings => ?_⟩
    simp only [makePlan, stepsFor, kind]

theorem otherPlans (a b : Settings) {words : List String}
    (shape : (readWords words).request.shape ≠ .compileFromSource) :
    ((makePlan a words).plan.agrees (makePlan b words).plan = true ↔ a.toolchain.cc = b.toolchain.cc) ∧
      ((makePlan a words).plan = (makePlan b words).plan ↔ a.toolchain.cc = b.toolchain.cc) := by
  obtain ⟨stage, arguments, _, runs⟩ := otherSteps shape
  refine agreesIff (fun agrees => ?_) fun same => ?_
  · simp only [Plan.agrees, runs, Plan.stepsAgree, Step.agrees, Bool.and_eq_true, beq_iff_eq,
      Task.mk.injEq, Invocation.mk.injEq] at agrees
    exact agrees.2.1.2.1
  · have steps : (makePlan a words).plan.steps = (makePlan b words).plan.steps := by
      rw [runs, runs, same]
    exact congrArg (Plan.mk (readWords words).request.shape) steps

structure Separates (words : List String) (a b : Settings) : Prop where
  shape : (makePlan a words).plan.shape = (makePlan b words).plan.shape
  notices : (makePlan a words).reading.notices = (makePlan b words).reading.notices
  compiled : (makePlan a words).plan.shape = .compileFromSource →
    ((makePlan a words).plan.agrees (makePlan b words).plan = true ↔ a = b) ∧
    ((makePlan a words).plan = (makePlan b words).plan ↔ a = b)
  others : (makePlan a words).plan.shape = .linkObject ∨ (makePlan a words).plan.shape = .passThrough →
    ((makePlan a words).plan.agrees (makePlan b words).plan = true ↔
      a.toolchain.cc = b.toolchain.cc) ∧
    ((makePlan a words).plan = (makePlan b words).plan ↔ a.toolchain.cc = b.toolchain.cc)

theorem plansSeparateSettings (words : List String) (a b : Settings) : Separates words a b where
  shape := rfl
  notices := rfl
  compiled shape := sourcePlans a b shape
  others shape := by
    refine otherPlans a b ?_
    intro source
    rcases shape with link | passed
    · exact Shape.noConfusion (source.symm.trans link)
    · exact Shape.noConfusion (source.symm.trans passed)

theorem statsAndFlagsSeparated :
    let a : Settings := { compile := ⟨["-stats"]⟩, optimizer := { passes := ["load"], stats := false } }
    let b : Settings := { compile := ⟨[]⟩, optimizer := { passes := [], stats := true } }
    (makePlan a ["-stats", "main.c"]).plan.agrees (makePlan b ["-stats", "main.c"]).plan = false ∧
      (makePlan a ["-stats", "main.o", "-o", "main"]).plan =
        (makePlan b ["-stats", "main.o", "-o", "main"]).plan := by
  intro a b
  have different : a ≠ b := by decide
  have compiled := (plansSeparateSettings ["-stats", "main.c"] a b).compiled (by decide)
  have linked := (plansSeparateSettings ["-stats", "main.o", "-o", "main"] a b).others (by decide)
  exact ⟨by simpa [different] using compiled.1, linked.2.mpr rfl⟩

end StagedBuild

import StagedBuild.Settings.Load

/-! Checking the settings. They pass if every tool, every pass and the kind of file are given as they should be;
otherwise the first of these that is not is reported, and who sets it right gets further. -/
namespace StagedBuild

def Visible (s : String) : Prop := ∃ c ∈ s.toList, isWhiteSpace c = false

def IsPassName (name : String) : Prop := name ≠ "" ∧ name.toList.head? ≠ some '-'

theorem visibleUnlessBlank (key : ToolKey) (program : String) :
    toolViolation? key program = none ↔ Visible program := by
  simp [toolViolation?, isBlankText, Visible]

theorem passNamed (name : String) : passViolation? name = none ↔ IsPassName name := by
  unfold passViolation? IsPassName
  rw [Ne, ← String.toList_eq_nil_iff]
  cases name.toList with
  | nil => simp
  | cons c rest => simp

theorem filetypeNamed (filetype : String) : filetypeViolation? filetype = none ↔ filetype ≠ "" := by
  simp [filetypeViolation?]

theorem blankReported {key : ToolKey} {program : String} {violation : Violation} :
    toolViolation? key program = some violation ↔ ¬ Visible program ∧ violation = .blankTool key := by
  rw [← visibleUnlessBlank key]
  unfold toolViolation?
  split <;> simp [eq_comm]

theorem passReported {name : String} {violation : Violation} :
    passViolation? name = some violation ↔ name = "" ∧ violation = .emptyPass ∨
      name.toList.head? = some '-' ∧ violation = .dashedPass name := by
  unfold passViolation?
  rw [← String.toList_eq_nil_iff]
  cases name.toList with
  | nil => simp [eq_comm]
  | cons c rest => simp [eq_comm]

theorem filetypeReported {filetype : String} {violation : Violation} :
    filetypeViolation? filetype = some violation ↔ filetype = "" ∧ violation = .emptyFiletype := by
  simp [filetypeViolation?, eq_comm]

inductive Check where
  | tool (key : ToolKey)
  | pass (index : Nat)
  | filetype
  deriving DecidableEq, Repr

def Toolchain.program (t : Toolchain) : ToolKey → String
  | .cc => t.cc
  | .opt => t.opt
  | .llc => t.llc

namespace Settings

structure Sound (s : Settings) : Prop where
  cc : Visible s.toolchain.cc
  opt : Visible s.toolchain.opt
  llc : Visible s.toolchain.llc
  passes : ∀ name ∈ s.optimizer.passes, IsPassName name
  filetype : s.codegen.filetype ≠ ""

theorem validateSound (s : Settings) : s.validate = .ok () ↔ s.Sound := by
  have checked : s.validate = .ok () ↔ s.violation? = none := by
    unfold validate
    cases s.violation? <;> simp
  rw [checked]
  simp only [violation?, Option.or_eq_none_iff, List.findSome?_eq_none_iff, visibleUnlessBlank, passNamed,
    filetypeNamed]
  constructor
  · rintro ⟨cc, opt, llc, passes, filetype⟩
    exact ⟨cc, opt, llc, passes, filetype⟩
  · rintro ⟨cc, opt, llc, passes, filetype⟩
    exact ⟨cc, opt, llc, passes, filetype⟩

def checks (s : Settings) : List Check :=
  [.tool .cc, .tool .opt, .tool .llc] ++ (List.range s.optimizer.passes.length).map .pass ++ [.filetype]

inductive Violates (s : Settings) : Check → String → Prop where
  | tool {key} (blank : ¬ Visible (s.toolchain.program key)) :
      Violates s (.tool key) (key.label ++ " must not be empty")
  | emptyPass {n} (given : s.optimizer.passes[n]? = some "") :
      Violates s (.pass n) "optimizer.passes must not contain empty names"
  | dashedPass {n name} (given : s.optimizer.passes[n]? = some name)
      (dashed : name.toList.head? = some '-') :
      Violates s (.pass n) ("Pass '" ++ name ++ "' must be given without a leading '-'")
  | filetype (empty : s.codegen.filetype = "") :
      Violates s .filetype "codegen.filetype must not be empty"

def violationAt? (s : Settings) : Check → Option Violation
  | .tool key => toolViolation? key (s.toolchain.program key)
  | .pass n => s.optimizer.passes[n]?.bind passViolation?
  | .filetype => filetypeViolation? s.codegen.filetype

theorem violatesIff {s : Settings} {check : Check} {text : String} :
    s.Violates check text ↔ ∃ violation, s.violationAt? check = some violation ∧ violation.message = text := by
  constructor
  · intro violated
    cases violated with
    | tool blank => exact ⟨_, blankReported.mpr ⟨blank, rfl⟩, rfl⟩
    | emptyPass given =>
      exact ⟨_, Option.bind_eq_some_iff.mpr ⟨_, given, passReported.mpr (.inl ⟨rfl, rfl⟩)⟩, rfl⟩
    | dashedPass given dashed =>
      exact ⟨_, Option.bind_eq_some_iff.mpr ⟨_, given, passReported.mpr (.inr ⟨dashed, rfl⟩)⟩, rfl⟩
    | filetype empty => exact ⟨_, filetypeReported.mpr ⟨empty, rfl⟩, rfl⟩
  · rintro ⟨violation, found, rfl⟩
    cases check with
    | tool key =>
      obtain ⟨blank, rfl⟩ := blankReported.mp found
      exact .tool blank
    | pass n =>
      obtain ⟨name, given, wrong⟩ := Option.bind_eq_some_iff.mp found
      rcases passReported.mp wrong with ⟨rfl, rfl⟩ | ⟨dashed, rfl⟩
      · exact .emptyPass given
      · exact .dashedPass given dashed
    | filetype =>
      obtain ⟨empty, rfl⟩ := filetypeReported.mp found
      exact .filetype empty

theorem passesByIndex (passes : List String) : passes.findSome? passViolation? =
    (List.range passes.length).findSome? fun n => passes[n]?.bind passViolation? := by
  induction passes with
  | nil => rfl
  | cons name rest ih =>
    rw [List.findSome?_cons, ih, List.length_cons, List.range_succ_eq_map, List.findSome?_cons,
      List.findSome?_map]
    rfl

theorem violationInOrder (s : Settings) : s.violation? = s.checks.findSome? s.violationAt? := by
  have next (check : Check) (rest : List Check) : (check :: rest).findSome? s.violationAt? =
      (s.violationAt? check).or (rest.findSome? s.violationAt?) := by
    cases found : s.violationAt? check <;> simp [found]
  have passes : ((List.range s.optimizer.passes.length).map .pass).findSome? s.violationAt? =
      s.optimizer.passes.findSome? passViolation? := by
    rw [List.findSome?_map, passesByIndex]
    rfl
  simp only [checks, List.findSome?_append, next, passes, List.findSome?_nil, Option.or_none, Option.or_assoc]
  rfl

structure Reports (s : Settings) (front : List Check) (check : Check) (text : String) : Prop where
  order : front ++ [check] <+: s.checks
  violated : s.Violates check text
  sound : ∀ earlier ∈ front, ∀ other, ¬ s.Violates earlier other

theorem soundAt {s : Settings} {check : Check} :
    (∀ text, ¬ s.Violates check text) ↔ s.violationAt? check = none := by
  simp only [violatesIff, not_exists, not_and]
  cases s.violationAt? check <;> simp

theorem reportFound (s : Settings) (violation : Violation) : s.violation? = some violation ↔
    ∃ front check, front ++ [check] <+: s.checks ∧ s.violationAt? check = some violation ∧
      ∀ earlier ∈ front, s.violationAt? earlier = none := by
  rw [violationInOrder, List.findSome?_eq_some_iff]
  constructor
  · rintro ⟨front, check, rest, order, found, sound⟩
    exact ⟨front, check, ⟨rest, by simp [order]⟩, found, sound⟩
  · rintro ⟨front, check, ⟨rest, order⟩, found, sound⟩
    exact ⟨front, check, rest, by simp [← order], found, sound⟩

theorem validateReports (s : Settings) (error : SettingsError) : s.validate = .error error ↔
    ∃ front check text, s.Reports front check text ∧ error = .invalid text := by
  have reported : s.validate = .error error ↔
      ∃ violation, s.violation? = some violation ∧ error = .invalid violation.message := by
    unfold validate
    cases s.violation? <;> simp [eq_comm]
  rw [reported]
  constructor
  · rintro ⟨violation, found, rfl⟩
    obtain ⟨front, check, order, here, sound⟩ := (reportFound s violation).mp found
    exact ⟨front, check, _, ⟨order, violatesIff.mpr ⟨violation, here, rfl⟩,
      fun earlier member => soundAt.mpr (sound earlier member)⟩, rfl⟩
  · rintro ⟨front, check, text, report, rfl⟩
    obtain ⟨violation, here, rfl⟩ := violatesIff.mp report.violated
    exact ⟨violation, (reportFound s violation).mpr ⟨front, check, report.order, here,
      fun earlier member => soundAt.mp (report.sound earlier member)⟩, rfl⟩

theorem reportBehind {s : Settings} {front good : List Check} {check : Check} {text : String}
    (report : s.Reports front check text) (order : good <+: s.checks)
    (sound : ∀ earlier ∈ good, ∀ other, ¬ s.Violates earlier other) : good <+: front := by
  rcases List.prefix_or_prefix_of_prefix order report.order with before | behind
  · rcases List.prefix_concat_iff.mp before with rfl | shorter
    · exact absurd report.violated (sound check (by simp) text)
    · exact shorter
  · have member : check ∈ good := behind.subset (by simp)
    exact absurd report.violated (sound check member text)

theorem reportedOnce {s : Settings} {front front' : List Check} {check check' : Check}
    {text text' : String} (report : s.Reports front check text) (report' : s.Reports front' check' text') :
    front = front' ∧ check = check' ∧ text = text' := by
  have shorter := reportBehind report' ((List.prefix_append ..).trans report.order) report.sound
  have longer := reportBehind report ((List.prefix_append ..).trans report'.order) report'.sound
  obtain rfl : front = front' := shorter.eq_of_length_le longer.length_le
  have same : front ++ [check] = front ++ [check'] := by
    have along := List.prefix_of_prefix_length_le report.order report'.order (by simp)
    exact along.eq_of_length_le (by simp)
  obtain rfl : check = check' := by simpa using same
  obtain ⟨violation, found, rfl⟩ := violatesIff.mp report.violated
  obtain ⟨violation', found', rfl⟩ := violatesIff.mp report'.violated
  cases Option.some.inj (found.symm.trans found')
  exact ⟨rfl, rfl, rfl⟩

def withTool (s : Settings) (key : ToolKey) (program : String) : Settings :=
  match key with
  | .cc => { s with toolchain := { s.toolchain with cc := program } }
  | .opt => { s with toolchain := { s.toolchain with opt := program } }
  | .llc => { s with toolchain := { s.toolchain with llc := program } }

def withPass (s : Settings) (n : Nat) (name : String) : Settings :=
  { s with optimizer := { s.optimizer with passes := s.optimizer.passes.set n name } }

inductive Fixes (s : Settings) : Check → Settings → Prop where
  | tool {key program} (visible : Visible program) : Fixes s (.tool key) (s.withTool key program)
  | pass {n name} (named : IsPassName name) : Fixes s (.pass n) (s.withPass n name)
  | filetype {kind} (given : kind ≠ "") : Fixes s .filetype { s with codegen := ⟨kind⟩ }

theorem withToolProgram (s : Settings) (key other : ToolKey) (program : String) :
    (s.withTool key program).toolchain.program other =
      if other = key then program else s.toolchain.program other := by
  cases key <;> cases other <;> rfl

theorem withPassAt (s : Settings) (n m : Nat) {name : String} (named : IsPassName name) :
    (s.withPass n name).violationAt? (.pass m) = if m = n then none else s.violationAt? (.pass m) := by
  simp only [violationAt?, withPass, List.getElem?_set]
  by_cases here : n = m
  · subst here
    have passed := (passNamed name).mpr named
    simp only [if_true]
    split <;> simp [passed]
  · simp [here, Ne.symm here]

theorem fixedViolations {s t : Settings} {check : Check} (fixed : s.Fixes check t) (other : Check) :
    t.violationAt? other = if other = check then none else s.violationAt? other := by
  cases fixed with
  | @tool key program visible =>
    have passed (key : ToolKey) := (visibleUnlessBlank key program).mpr visible
    cases other with
    | tool other =>
      simp only [violationAt?, withToolProgram]
      by_cases here : other = key <;> simp [here, passed]
    | pass n => cases key <;> rfl
    | filetype => cases key <;> rfl
  | @pass n name named =>
    cases other with
    | tool other => rfl
    | pass m => simpa using withPassAt s n m named
    | filetype => rfl
  | @filetype kind given =>
    have passed := (filetypeNamed kind).mpr given
    cases other with
    | tool other => rfl
    | pass m => rfl
    | filetype => simpa [violationAt?] using passed

theorem fixedChecks {s t : Settings} {check : Check} (fixed : s.Fixes check t) : t.checks = s.checks := by
  cases fixed with
  | @tool key program visible => cases key <;> rfl
  | pass named => simp [checks, withPass]
  | filetype given => rfl

theorem fixAdvances {s t : Settings} {front : List Check} {check : Check} {text : String}
    (report : s.Reports front check text) (fixed : s.Fixes check t) :
    t.validate = .ok () ∨
      ∃ later other text', t.Reports later other text' ∧ front ++ [check] <+: later := by
  cases result : t.validate with
  | ok passed => exact .inl rfl
  | error error =>
    obtain ⟨later, other, text', next, _⟩ := (validateReports t error).mp result
    refine .inr ⟨later, other, text', next, reportBehind next ?_ ?_⟩
    · rw [fixedChecks fixed]
      exact report.order
    · intro earlier member
      rw [soundAt, fixedViolations fixed]
      split
      · rfl
      · rename_i different
        have inFront : earlier ∈ front := by simpa [different] using member
        exact soundAt.mp (report.sound earlier inFront)

end Settings

structure ChecksInOrder (s : Settings) : Prop where
  accepted : s.validate = .ok () ↔ s.Sound
  refused : ∀ error, s.validate = .error error ↔
    ∃ front check text, s.Reports front check text ∧ error = .invalid text
  once : ∀ {front check text front' check' text'}, s.Reports front check text →
    s.Reports front' check' text' → front = front' ∧ check = check' ∧ text = text'
  advances : ∀ {front check text t}, s.Reports front check text → s.Fixes check t →
    t.validate = .ok () ∨
      ∃ later other text', t.Reports later other text' ∧ front ++ [check] <+: later

theorem firstViolationReported (s : Settings) : ChecksInOrder s where
  accepted := s.validateSound
  refused := s.validateReports
  once := Settings.reportedOnce
  advances := Settings.fixAdvances

/- With the optimizer named by a wide blank only, nothing is said of the passes and of the kind of file until
the optimizer has a name. -/
theorem blankOptimizerFirst :
    let s : Settings := { toolchain := { opt := "\u3000" }, optimizer := { passes := ["a", "-b", ""] }
                          codegen := ⟨""⟩ }
    let t := s.withTool .opt "opt"
    s.validate = .error (.invalid "toolchain.opt must not be empty") ∧
      s.Reports [.tool .cc] (.tool .opt) "toolchain.opt must not be empty" ∧ s.Fixes (.tool .opt) t ∧
      t.validate = .error (.invalid "Pass '-b' must be given without a leading '-'") ∧
      ∃ later other text, t.Reports later other text ∧ [.tool .cc, .tool .opt] <+: later := by
  intro s t
  have found : s.violationAt? (.tool .opt) = some (.blankTool .opt) := by decide
  have before : s.violationAt? (.tool .cc) = none := by decide
  have report : s.Reports [.tool .cc] (.tool .opt) "toolchain.opt must not be empty" := by
    refine ⟨by decide, Settings.violatesIff.mpr ⟨_, found, by decide⟩, fun earlier member => ?_⟩
    rw [List.mem_singleton.mp member]
    exact Settings.soundAt.mpr before
  have fixed : s.Fixes (.tool .opt) t := .tool ⟨'o', by decide, by decide⟩
  have first : s.validate = .error (.invalid "toolchain.opt must not be empty") :=
    ((firstViolationReported s).refused _).mpr ⟨_, _, _, report, rfl⟩
  have wrong : t.violation? = some (.dashedPass "-b") := by decide
  have next : t.validate = .error (.invalid "Pass '-b' must be given without a leading '-'") := by
    simp only [Settings.validate, wrong]
    rfl
  refine ⟨first, report, fixed, next, ?_⟩
  rcases (firstViolationReported s).advances report fixed with passed | advanced
  · simp [next] at passed
  · exact advanced

end StagedBuild

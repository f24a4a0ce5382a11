import StagedBuild.Proofs.Attempts
import StagedBuild.Proofs.FirstViolation
import StagedBuild.Proofs.PlanSettings
import StagedBuild.Proofs.ProcessExit

/-! Settings are checked wherever they come from, so that no command is tried whose program is blank or
whose passes and kind of file are not named. -/
namespace StagedBuild

namespace Settings

theorem checkedValid {s t : Settings} (accepted : s.checked = .ok t) : t.validate = .ok () := by
  unfold checked at accepted
  cases valid : s.validate with
  | error error => simp [valid, Except.map] at accepted
  | ok passed =>
    simp only [valid, Except.map, Except.ok.injEq] at accepted
    rw [← accepted, valid]

theorem ofBytesValid {path : String} {bytes : ByteArray} {s : Settings}
    (loaded : ofBytes path bytes = .ok s) : s.validate = .ok () := by
  unfold ofBytes ofText at loaded
  split at loaded
  · contradiction
  · split at loaded
    · contradiction
    · exact checkedValid loaded

theorem defaultsValid : ({} : Settings).validate = .ok () := by
  have sound : ({} : Settings).violation? = none := by decide
  simp only [validate, sound]

end Settings

theorem Store.loadedValid {store : Store} {path : String} {s : Settings}
    (loaded : store.loadSettings path = .ok s) : s.validate = .ok () := by
  unfold loadSettings at loaded
  split at loaded
  · cases loaded
    exact Settings.defaultsValid
  · contradiction
  · exact Settings.ofBytesValid loaded
  · contradiction

theorem CommandLine.chosenValid {s : Session} {e : Environment} {words : List String} {settings : Settings}
    {events : List Event} (chosen : chooseSettings (s.settingsFor e) words = .ok (settings, events)) :
    settings.validate = .ok () ∧ attempts events = [] := by
  unfold chooseSettings at chosen
  split at chosen
  · rename_i loaded
    rw [Session.settingsFor, Store.settingsFor] at loaded
    cases chosen
    exact ⟨Store.loadedValid loaded, rfl⟩
  · split at chosen
    · cases chosen
      exact ⟨Settings.defaultsValid, rfl⟩
    · contradiction

structure Usable (settings : Settings) (task : Task) : Prop where
  program : Visible task.invocation.program
  optimize : task.stage = .optimize →
    task.invocation.arguments = (if settings.optimizer.stats then ["-stats"] else []) ++
      ["-load", settings.optimizer.plugin] ++ settings.optimizer.passes.map ("-" ++ ·) ∧
    ∀ name ∈ settings.optimizer.passes, IsPassName name
  codegen : task.stage = .codegen → ∃ kind rest, kind ≠ "" ∧
    task.invocation.arguments = ("-filetype=" ++ kind) :: rest

theorem objectTasksUsable {settings : Settings} (sound : settings.Sound) (r : Request) (source : String) :
    ∀ task ∈ objectTasks settings r source, Usable settings task := by
  intro task member
  simp only [objectTasks, List.mem_cons, List.not_mem_nil, or_false] at member
  rcases member with rfl | rfl | rfl
  · exact ⟨sound.cc, by simp, by simp⟩
  · refine ⟨sound.opt, fun _ => ⟨?_, sound.passes⟩, by simp⟩
    simpa [statsWords] using optimizerWords settings
  · exact ⟨sound.llc, by simp, fun _ => ⟨settings.codegen.filetype, _, sound.filetype, rfl⟩⟩

theorem compilerUsable {settings : Settings} (sound : settings.Sound) {task : Task}
    (stage : task.stage = .link ∨ task.stage = .passThrough)
    (program : task.invocation.program = settings.toolchain.cc) : Usable settings task := by
  refine ⟨program ▸ sound.cc, ?_, ?_⟩
  · rcases stage with link | passed <;> simp_all
  · rcases stage with link | passed <;> simp_all

theorem planUsable {settings : Settings} (sound : settings.Sound) (words : List String) :
    ∀ task ∈ (makePlan settings words).plan.tasks, Usable settings task := by
  intro task member
  by_cases shape : (readWords words).request.shape = .compileFromSource
  · obtain ⟨source, input, _⟩ := Request.sourceOfShape shape
    simp only [Plan.tasks, sourceSteps settings shape input, List.flatMap_cons, List.mem_append,
      Step.tasks] at member
    rcases member with piped | linked
    · exact objectTasksUsable sound _ source task piped
    · obtain ⟨link, inside, rfl⟩ : ∃ link ∈ linkCommands settings (readWords words).request,
          ⟨.link, link⟩ = task := by
        simpa [List.flatMap_map, Step.tasks, eq_comm] using linked
      exact compilerUsable sound (.inl rfl) (by rw [linkCommandsOnly inside]; rfl)
  · obtain ⟨stage, arguments, kind, runs⟩ := otherSteps shape
    have same : task = ⟨stage, settings.toolchain.cc, arguments⟩ := by
      simpa [Plan.tasks, runs, Step.tasks] using member
    subst same
    exact compilerUsable sound kind rfl

theorem Planned.preludeAttempts (p : Planned) : attempts p.prelude = [] := by
  refine attemptsNone fun event member => ?_
  simp only [prelude, events, List.mem_append, List.mem_map, List.mem_singleton] at member
  rcases member with (⟨notice, _, rfl⟩ | rfl) | rfl <;> rfl

namespace CommandLine

structure TriesUsable (s : Session) (e : Environment) (words : List String) (tried : List Task) : Prop where
  reported : attempts (run s e words).session.events = attempts s.events ++ tried
  started : ∃ begun, begun <+: tried ∧ (run s e words).session.started = s.started ++ begun
  failed : ∀ failure, (run s e words).result = .error failure →
    (∃ error, failure = .settings error) ∨ ∃ task ∈ tried, failure.Names task
  usable : ∀ task ∈ tried, ∃ settings events,
    chooseSettings (s.settingsFor e) words = .ok (settings, events) ∧
    settings.validate = .ok () ∧ Usable settings task

theorem runTriesUsable (s : Session) (e : Environment) {words : List String} (given : words ≠ []) :
    ∃ tried, TriesUsable s e words tried := by
  cases chosen : chooseSettings (s.settingsFor e) words with
  | error failure =>
    obtain ⟨error, _, rfl⟩ := chosenError chosen
    have stopped : run s e words = ⟨.error (.settings error), s⟩ := by
      rw [runGiven given]
      simp only [build, chosen]
    refine ⟨[], by simp [stopped], ⟨[], by simp [stopped]⟩, fun failure failed => .inl ⟨error, ?_⟩, by simp⟩
    simpa [stopped] using failed.symm
  | ok choice =>
    obtain ⟨settings, events⟩ := choice
    obtain ⟨valid, quiet⟩ := chosenValid chosen
    have built : run s e words = ⟨((s.log events).build settings words).1,
        ((s.log events).build settings words).2⟩ := by
      rw [runGiven given]
      simp only [build, chosen]
    rw [Session.buildRuns] at built
    obtain ⟨tried, tries⟩ := Session.stepsTry
      ((s.log events).log (makePlan settings words).prelude) (makePlan settings words).plan.steps
    have before : attempts ((s.log events).log (makePlan settings words).prelude).events =
        attempts s.events := by
      simp [Session.log, quiet, Planned.preludeAttempts]
    refine ⟨tried, ?_, ?_, ?_, ?_⟩
    · rw [built, tries.reported, before]
    · rw [built]
      exact tries.started
    · rw [built]
      exact fun failure failed => .inr (tries.failed failure failed)
    · intro task member
      have sound := (Settings.validateSound settings).mp valid
      exact ⟨settings, events, chosen, valid,
        planUsable sound words task (tries.inOrder.subset member)⟩

end CommandLine

theorem onlyUsableCommandsTried :
    (∀ path bytes settings, Settings.ofBytes path bytes = .ok settings → settings.validate = .ok ()) ∧
    (∀ (store : Store) path settings, store.loadSettings path = .ok settings →
      settings.validate = .ok ()) ∧
    ∀ s e words, words ≠ [] → ∃ tried, CommandLine.TriesUsable s e words tried :=
  ⟨fun _ _ _ => Settings.ofBytesValid, fun _ _ _ => Store.loadedValid,
    fun s e _ => CommandLine.runTriesUsable s e⟩

open CommandLine in
theorem fallbackCommandTried :
    let s : Session := { store := ⟨["work"], [([], .directory), (["work"], .directory),
      (["work", "settings"], .directory)]⟩ }
    let e : Environment := ⟨[("PRECC_CONFIG", "settings")]⟩
    let words := ["--version"]
    s.store.loadSettings "absent" = .ok {} ∧ ({} : Settings).validate = .ok () ∧
      s.settingsFor e = .error (.unreadable "settings" .isDirectory) ∧
      ∃ task ∈ attempts (run s e words).session.events,
        task.stage = .passThrough ∧ task.invocation.program = "clang" ∧
        Visible task.invocation.program := by
  intro s e words
  have file : e.settingsFile s.machine.home = "settings" := by decide
  have found : s.store.find "settings" = .ok (["work", "settings"], .directory) := rfl
  have loaded : s.settingsFor e = .error (.unreadable "settings" .isDirectory) := by
    simp only [Session.settingsFor, Store.settingsFor, file, Store.loadSettings, found]
  have shape : (readWords words).request.shape = .passThrough := by decide
  have chosen : chooseSettings (s.settingsFor e) words =
      .ok ({}, [.settingsIgnored (.unreadable "settings" .isDirectory)]) := by
    simp only [loaded, chooseSettings, if_pos shape]
  have clear : (["clang", "--version"]).any hasNul = false := by decide
  have refused : s.start ⟨.passThrough, "clang", words⟩ = .error .noEntry := by
    simp only [Session.start, Store.start, words, clear]
    rfl
  have failed : (run s e words).result = .error (.cannotStart .passThrough "clang" .noEntry) := by
    rw [runResult (by decide) chosen, passedOnSteps {} shape, s.runAlone, Session.taskRefused refused]
  have absent : s.store.loadSettings "absent" = .ok {} := rfl
  obtain ⟨_, fileValid, allTried⟩ := onlyUsableCommandsTried
  obtain ⟨tried, tries⟩ := allTried s e words (by decide)
  obtain ⟨_, settled⟩ | ⟨task, member, named⟩ := tries.failed _ failed
  · contradiction
  · obtain ⟨_, _, _, _, usable⟩ := tries.usable task member
    have stage : task.stage = .passThrough := (Option.some.inj named.1).symm
    have program : task.invocation.program = "clang" := (Option.some.inj named.2).symm
    refine ⟨absent, fileValid _ _ _ absent, loaded, task, ?_, stage, program, usable.program⟩
    rw [tries.reported]
    exact List.mem_append_right _ member

end StagedBuild

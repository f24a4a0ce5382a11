import StagedBuild.CommandLine
import StagedBuild.Proofs.Logging

/-! The program beside the build it calls. Usable settings give exactly that build; a request that is
only passed on gives it with the default settings; in all other cases nothing is done at all. -/
namespace StagedBuild

def Planned.prelude (p : Planned) : List Event :=
  p.events ++ [.executing p.plan.shape p.plan.steps.length]

theorem Session.buildRuns (s : Session) (settings : Settings) (words : List String) :
    s.build settings words =
      (s.log (makePlan settings words).prelude).runSteps (makePlan settings words).plan.steps := by
  simp [build, execute, Planned.prelude, log]

theorem Session.buildDone (s : Session) (settings : Settings) (words : List String) :
    (s.build settings words).1 = (s.runSteps (makePlan settings words).plan.steps).1 ∧
      SameDone (s.build settings words).2 (s.runSteps (makePlan settings words).plan.steps).2 := by
  rw [buildRuns]
  exact stepsDone (s.logDone _) _

theorem Session.buildLogged (s : Session) (earlier : List Event) (settings : Settings)
    (words : List String) :
    ((s.log earlier).build settings words).1 = (s.build settings words).1 ∧
      SameDone ((s.log earlier).build settings words).2 (s.build settings words).2 := by
  obtain ⟨result, t, later, run⟩ := stepsUnheeding s (makePlan settings words).plan.steps
  have logged : ((s.log earlier).log (makePlan settings words).prelude).runSteps _ = _ :=
    run (s.events ++ earlier ++ (makePlan settings words).prelude)
  have plain : (s.log (makePlan settings words).prelude).runSteps _ = _ :=
    run (s.events ++ (makePlan settings words).prelude)
  rw [buildRuns, buildRuns, logged, plain]
  exact ⟨rfl, rfl, rfl, rfl, rfl, rfl, rfl, rfl⟩

theorem Session.runAlone (s : Session) (task : Task) : s.runSteps [.run task] = s.runTask task := by
  simp only [runSteps, runStep]
  split
  · rename_i passed t ran
    rw [ran]
  · rename_i failure t ran
    rw [ran]

namespace CommandLine

variable {s : Session} {e : Environment} {words : List String}

theorem runGiven (given : words ≠ []) : run s e words = build s e words := by
  have some : words.isEmpty = false := by simpa using given
  simp [run, some]

theorem runUsable {settings : Settings} (given : words ≠ [])
    (loaded : s.settingsFor e = .ok settings) :
    run s e words = ⟨(s.build settings words).1, (s.build settings words).2⟩ := by
  have same : s.log [] = s := by simp [Session.log]
  rw [runGiven given]
  simp only [build, loaded, chooseSettings, same]

theorem runPassedOn {error : SettingsError} (given : words ≠ [])
    (loaded : s.settingsFor e = .error error)
    (shape : (readWords words).request.shape = .passThrough) :
    run s e words = ⟨((s.log [.settingsIgnored error]).build {} words).1,
      ((s.log [.settingsIgnored error]).build {} words).2⟩ := by
  rw [runGiven given]
  simp only [build, loaded, chooseSettings, if_pos shape]

theorem runRefused {error : SettingsError} (given : words ≠ [])
    (loaded : s.settingsFor e = .error error)
    (shape : (readWords words).request.shape ≠ .passThrough) :
    run s e words = ⟨.error (.settings error), s⟩ := by
  rw [runGiven given]
  simp only [build, loaded, chooseSettings, if_neg shape]

structure StartsAlone (s : Session) (task : Task) (r : Session.Result) : Prop where
  started : ∀ program, s.start task = .ok program → r.2.started = s.started ++ [task]
  refused : ∀ fault, s.start task = .error fault →
    r.2.started = s.started ∧ r.1 = .error (.cannotStart task.stage task.invocation.program fault)

theorem singleStarted (s : Session) (task : Task) : StartsAlone s task (s.runSteps [.run task]) where
  started program begins := by
    obtain ⟨result, events, ran⟩ := Session.taskRan begins
    rw [s.runAlone, ran]
    rfl
  refused fault begins := by
    rw [s.runAlone, Session.taskRefused begins]
    exact ⟨rfl, rfl⟩

theorem passedOnSteps (settings : Settings) (shape : (readWords words).request.shape = .passThrough) :
    (makePlan settings words).plan.steps = [.run ⟨.passThrough, settings.toolchain.cc, words⟩] := by
  simp only [makePlan, stepsFor, shape]

theorem passedOnBuild {error : SettingsError} (given : words ≠ [])
    (loaded : s.settingsFor e = .error error)
    (shape : (readWords words).request.shape = .passThrough) :
    (run s e words).result = (s.build {} words).1 ∧
      Session.SameDone (run s e words).session (s.build {} words).2 := by
  rw [runPassedOn given loaded shape]
  exact s.buildLogged [.settingsIgnored error] {} words

theorem passedOnStarted (s : Session) (shape : (readWords words).request.shape = .passThrough) :
    StartsAlone s ⟨.passThrough, "clang", words⟩ (s.build {} words) := by
  have alone := singleStarted (s.log (makePlan {} words).prelude) ⟨.passThrough, "clang", words⟩
  rw [s.buildRuns, passedOnSteps {} shape]
  exact ⟨alone.started, alone.refused⟩

structure FollowsBuild (s : Session) (e : Environment) (words : List String) : Prop where
  usable : ∀ settings, s.settingsFor e = .ok settings →
    run s e words = ⟨(s.build settings words).1, (s.build settings words).2⟩
  passedOn : ∀ error settings, s.settingsFor e = .error error →
    (makePlan settings words).plan.shape = .passThrough →
    (run s e words).result = (s.build {} words).1 ∧
    Session.SameDone (run s e words).session (s.build {} words).2 ∧
    (makePlan {} words).plan.steps = [.run ⟨.passThrough, "clang", words⟩] ∧
    StartsAlone s ⟨.passThrough, "clang", words⟩ ((run s e words).result, (run s e words).session)
  refused : ∀ error settings, s.settingsFor e = .error error →
    (makePlan settings words).plan.shape ≠ .passThrough →
    (run s e words).session = s ∧ (run s e words).code = 1 ∧
    ∀ filter, (run s e words).report filter = (filter.passed s.events).map Event.terminalLine ++
      ["precc: error: Configuration error: " ++ error.message]

theorem followsBuild (given : words ≠ []) : FollowsBuild s e words where
  usable _ loaded := runUsable given loaded
  passedOn error settings loaded shape := by
    obtain ⟨result, done⟩ := passedOnBuild given loaded shape
    have alone := passedOnStarted s shape
    refine ⟨result, done, passedOnSteps {} shape, ?_, ?_⟩
    · exact fun program begins => done.started.trans (alone.started program begins)
    · intro fault begins
      obtain ⟨none, why⟩ := alone.refused fault begins
      exact ⟨done.started.trans none, result.trans why⟩
  refused error settings loaded shape := by
    rw [runRefused given loaded shape]
    refine ⟨rfl, rfl, fun filter => ?_⟩
    have text : complaint (.settings error) =
        "precc: error: " ++ ("Configuration error: " ++ error.message) := rfl
    simp only [Finish.report, text, ← String.append_assoc]
    rfl

theorem programFollowsBuild :
    (∀ s e words, words ≠ [] → FollowsBuild s e words) ∧
    ∀ (s : Session) (e : Environment),
      run s e [] = ⟨.ok (), { s with output := s.output ++ "our clang wrapper\n".toUTF8 }⟩ ∧
      (run s e []).code = 0 ∧
      ∀ filter, (run s e []).report filter = (filter.passed s.events).map Event.terminalLine := by
  refine ⟨fun s e words given => followsBuild given, fun s e => ⟨rfl, rfl, fun filter => ?_⟩⟩
  simp [Finish.report, run]

theorem brokenSettingsStopBuild :
    let s : Session := { store := ⟨["work"], [([], .directory), (["work"], .directory),
      (["work", "settings"], .directory), (["work", "prog.o"], .file .empty false)]⟩ }
    let e : Environment := ⟨[("PRECC_CONFIG", "settings")]⟩
    let words := ["-o", "prog", "main.c"]
    s.settingsFor e = .error (.unreadable "settings" .isDirectory) ∧
      (makePlan {} words).plan.shape = .compileFromSource ∧
      (run s e words).session = s ∧ (run s e words).code = 1 := by
  intro s e words
  have file : e.settingsFile s.machine.home = "settings" := by decide
  have found : s.store.find "settings" = .ok (["work", "settings"], .directory) := rfl
  have loaded : s.settingsFor e = .error (.unreadable "settings" .isDirectory) := by
    simp only [Session.settingsFor, Store.settingsFor, file, Store.loadSettings, found]
  have shape : (makePlan {} words).plan.shape = .compileFromSource := by decide
  have other : (makePlan {} words).plan.shape ≠ .passThrough := by rw [shape]; decide
  obtain ⟨untouched, code, _⟩ :=
    (programFollowsBuild.1 s e words (by decide)).refused _ {} loaded other
  exact ⟨loaded, shape, untouched, code⟩

end CommandLine

end StagedBuild

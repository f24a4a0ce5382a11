import StagedBuild.Proofs.Cleanup
import StagedBuild.Proofs.Edits
import StagedBuild.Proofs.ProcessExit

/-! What a step does to the files, as edits. A program edits the place that its last `-o` names, also if it
is killed, and a pipe that fails removes its output; no directory is touched, so that paths lead where they led before. -/
namespace StagedBuild

theorem Store.editableAllows {s : Store} {edits : List Edit}
    (aimed : ∀ e ∈ edits, ∃ path, s.editable? path = some e.place) : s.Allows edits := by
  intro e member
  obtain ⟨path, editable⟩ := aimed e member
  exact ((Store.editableIff s path e.place).mp editable).2

namespace Program

def edits (p : Program) (store : Store) (input : ByteArray) : List Edit :=
  match p.behaviour.sink with
  | .file => (store.editable? p.target).toList.map fun l => .write l (p.content input)
  | .stream => []

theorem runStore (p : Program) (store : Store) (input : ByteArray) (heeded : Bool) :
    (p.run store input heeded).store = store.edited (p.edits store input) := by
  unfold run edits
  cases p.behaviour.sink with
  | file =>
    cases place : store.editable? p.target with
    | some l => simp [Store.writeEditable place, finishStore]
    | none =>
      obtain ⟨fault, refused⟩ := Store.writeRefused place (p.content input)
      simp [refused, finishStore]
  | stream =>
    dsimp only
    split
    · exact finishStore ..
    · rfl

theorem editsAimed {p : Program} {store : Store} {input : ByteArray} {e : Edit}
    (member : e ∈ p.edits store input) : store.editable? p.target = some e.place := by
  unfold edits at member
  split at member
  · simp only [List.mem_map, Option.mem_toList] at member
    obtain ⟨l, editable, rfl⟩ := member
    exact editable
  · contradiction

theorem runPlaces (p : Program) (store : Store) (input : ByteArray) (heeded : Bool) :
    store.SamePlaces (p.run store input heeded).store := by
  rw [runStore]
  exact Store.editedPlaces (Store.editableAllows fun e member => ⟨_, editsAimed member⟩)

end Program

def flowEdits (store : Store) (input : ByteArray) : List Program → List Edit
  | [] => []
  | p :: rest =>
    let outcome := p.run store input (heeded store rest)
    p.edits store input ++ flowEdits outcome.store outcome.written rest

theorem flowStore (store : Store) (input : ByteArray) (programs : List Program) :
    Session.storeAfter store (flow store input programs) =
      store.edited (flowEdits store input programs) := by
  have next (store : Store) (outcome : Outcome) (rest : List Outcome) :
      Session.storeAfter store (outcome :: rest) = Session.storeAfter outcome.store rest := by
    cases rest with
    | nil => rfl
    | cons second rest => simp [Session.storeAfter, List.getLast?_cons]
  induction programs generalizing store input with
  | nil => rfl
  | cons p rest ih =>
    simp only [flow, flowEdits]
    rw [next, ih, Store.editedAppend, p.runStore]

theorem flowAimed (store : Store) (input : ByteArray) (programs : List Program) :
    ∀ e ∈ flowEdits store input programs,
      ∃ p ∈ programs, store.editable? p.target = some e.place := by
  induction programs generalizing store input with
  | nil => simp [flowEdits]
  | cons p rest ih =>
    intro e member
    simp only [flowEdits, List.mem_append] at member
    rcases member with first | later
    · exact ⟨p, by simp, Program.editsAimed first⟩
    · obtain ⟨q, inside, editable⟩ := ih _ _ e later
      rw [← (p.runPlaces store input (heeded store rest)).editable] at editable
      exact ⟨q, by simp [inside], editable⟩

namespace Session
open Supervision

def cutEdits (s : Session) (store : Store) (task : Task) : List Edit :=
  match lastOutput? task.invocation.arguments, s.machine.cut task with
  | some path, some content => (store.editable? path).toList.map fun l => .write l content
  | _, _ => []

theorem cutShortStore (s : Session) (store : Store) (task : Task) :
    s.cutShort store task = store.edited (s.cutEdits store task) := by
  unfold cutShort cutEdits
  cases lastOutput? task.invocation.arguments with
  | none => rfl
  | some path =>
    cases s.machine.cut task with
    | none => rfl
    | some content => exact store.overwriteEdited path content

theorem cutAimed {s : Session} {store : Store} {task : Task} {e : Edit}
    (member : e ∈ s.cutEdits store task) : ∃ path,
      lastOutput? task.invocation.arguments = some path ∧ store.editable? path = some e.place := by
  unfold cutEdits at member
  split at member
  · rename_i path content named _
    simp only [List.mem_map, Option.mem_toList] at member
    obtain ⟨l, editable, rfl⟩ := member
    exact ⟨path, named, editable⟩
  · contradiction

theorem cutPlaces (s : Session) (store : Store) (task : Task) :
    store.SamePlaces (s.cutShort store task) := by
  rw [cutShortStore]
  refine Store.editedPlaces (Store.editableAllows fun e member => ?_)
  obtain ⟨path, _, editable⟩ := cutAimed member
  exact ⟨path, editable⟩

theorem cutAllStore (s : Session) (store : Store) (tasks : List Task) :
    tasks.foldl s.cutShort store = store.edited (tasks.flatMap (s.cutEdits store)) := by
  induction tasks generalizing store with
  | nil => rfl
  | cons task rest ih =>
    have same (other : Task) : s.cutEdits (s.cutShort store task) other = s.cutEdits store other := by
      simp only [cutEdits, (s.cutPlaces store task).editable]
    rw [List.foldl_cons, ih, List.flatMap_cons, Store.editedAppend, ← cutShortStore, funext same]

def commandEdits (s : Session) (tasks : List Task) : List Edit :=
  match tasks.mapM s.start with
  | .ok programs => flowEdits s.store s.input programs
  | .error _ => (s.begun tasks).flatMap (s.cutEdits s.store)

def cleanupEdits (s : Session) (step : Step) : List Edit :=
  match step, (s.runStep step).1 with
  | .pipe _ output, .error _ => s.store.removals output
  | _, _ => []

def stepEdits (s : Session) (step : Step) : List Edit := s.commandEdits step.tasks ++ s.cleanupEdits step

theorem commandStore (s : Session) (tasks : List Task) :
    (s.afterPipe tasks).store = s.store.edited (s.commandEdits tasks) := by
  unfold afterPipe commandEdits
  cases tasks.mapM s.start with
  | ok programs => exact flowStore ..
  | error fault => exact cutAllStore s s.store (s.begun tasks)

theorem removalStore (s : Session) (path : String) :
    (s.removeIncomplete path).store = s.store.clear path := by
  unfold removeIncomplete Store.clear
  cases s.store.remove path with
  | ok store => rfl
  | error fault =>
    dsimp only
    split <;> rfl

theorem cleanedUpStore (output : String) (r : Result) : (cleanedUp output r).2.store =
    match r.1 with
    | .ok _ => r.2.store
    | .error _ => r.2.store.clear output := by
  obtain ⟨result, s⟩ := r
  cases result with
  | ok passed => rfl
  | error failure => exact removalStore s output

def Names (store : Store) (task : Task) (l : Location) : Prop :=
  ∃ path, lastOutput? task.invocation.arguments = some path ∧ store.locate path = .ok l

theorem flowNames {s : Session} {tasks : List Task} {programs : List Program}
    (started : tasks.mapM s.start = .ok programs) {e : Edit}
    (member : e ∈ flowEdits s.store s.input programs) :
    s.store.get? e.place ≠ some .directory ∧ ∃ task ∈ tasks, Names s.store task e.place := by
  obtain ⟨p, inside, editable⟩ := flowAimed _ _ _ e member
  obtain ⟨reached, file⟩ := (Store.editableIff ..).mp editable
  have arguments : p.arguments ∈ tasks.map fun task => task.invocation.arguments := by
    rw [← startAllArguments started]
    exact List.mem_map_of_mem inside
  obtain ⟨task, listed, same⟩ := List.mem_map.mp arguments
  refine ⟨file, task, listed, ?_⟩
  unfold Program.target at reached
  rw [← same] at reached
  cases named : lastOutput? task.invocation.arguments with
  | none =>
    rw [named] at reached
    exact absurd reached (s.store.locateEmpty e.place)
  | some path =>
    rw [named] at reached
    exact ⟨path, named, reached⟩

theorem commandAimed {s : Session} {tasks : List Task} {e : Edit} (member : e ∈ s.commandEdits tasks) :
    s.store.get? e.place ≠ some .directory ∧ ∃ task ∈ s.begun tasks, Names s.store task e.place := by
  unfold commandEdits at member
  cases started : tasks.mapM s.start with
  | error fault =>
    simp only [started] at member
    obtain ⟨task, begun, cut⟩ := List.mem_flatMap.mp member
    obtain ⟨path, named, editable⟩ := cutAimed cut
    obtain ⟨reached, file⟩ := (Store.editableIff ..).mp editable
    exact ⟨file, task, begun, path, named, reached⟩
  | ok programs =>
    simp only [started] at member
    rw [begunAll started]
    exact flowNames started member

theorem commandPlaces (s : Session) (tasks : List Task) :
    s.store.SamePlaces (s.afterPipe tasks).store := by
  rw [commandStore]
  exact Store.editedPlaces fun e member => (commandAimed member).1

theorem stepStore (s : Session) (step : Step) :
    (s.runStep step).2.store = s.store.edited (s.stepEdits step) := by
  unfold stepEdits cleanupEdits
  rw [Store.editedAppend, ← commandStore]
  cases step with
  | run task => exact taskStore s task
  | pipe tasks output =>
    have result : (s.runStep (.pipe tasks output)).1 = (supervise (s.members tasks)).result :=
      pipeResult s tasks output
    have left : (s.runStep (.pipe tasks output)).2.store =
        match (supervise (s.members tasks)).result with
        | .ok _ => (s.afterPipe tasks).store
        | .error _ => (s.afterPipe tasks).store.clear output := cleanedUpStore output _
    rw [left]
    cases ended : (supervise (s.members tasks)).result with
    | ok passed => simp only [result, ended, Store.editedNone, Step.tasks]
    | error failure =>
      simp only [result, ended, Step.tasks]
      rw [Store.clearEdited, Store.removals, ← (commandPlaces s tasks).editable]
      rfl

theorem cleanupAimed {s : Session} {step : Step} {e : Edit} (member : e ∈ s.cleanupEdits step) :
    ∃ tasks output failure, step = .pipe tasks output ∧ (s.runStep step).1 = .error failure ∧
      s.store.editable? output = some e.place := by
  unfold cleanupEdits at member
  split at member
  · rename_i tasks output failure failed
    simp only [Store.removals, List.mem_map, Option.mem_toList] at member
    obtain ⟨l, editable, rfl⟩ := member
    exact ⟨tasks, output, failure, rfl, failed, editable⟩
  · contradiction

theorem stepAllows (s : Session) (step : Step) : s.store.Allows (s.stepEdits step) := by
  intro e member
  rcases List.mem_append.mp member with command | cleanup
  · exact (commandAimed command).1
  · obtain ⟨_, output, _, _, _, editable⟩ := cleanupAimed cleanup
    exact ((Store.editableIff ..).mp editable).2

theorem stepPlaces (s : Session) (step : Step) : s.store.SamePlaces (s.runStep step).2.store := by
  rw [stepStore]
  exact Store.editedPlaces (stepAllows s step)

theorem startFound {s : Session} {task : Task} {l : Location} {tool : Tool}
    (clear : (task.invocation.program :: task.invocation.arguments).any hasNul = false)
    (found : s.store.lookUp s.searchPath task.invocation.program = .ok (l, tool)) :
    s.start task = .ok ⟨l, tool, task.invocation.arguments⟩ := by
  simp only [start, Store.start, clear, found]
  rfl

end Session

end StagedBuild

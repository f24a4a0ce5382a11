import StagedBuild.Proofs.Cleanup
import StagedBuild.Proofs.ProcessExit

/-! What goes through a pipe. Each program reads what the one before has written, only the last writes
to the output of the session, and that is all that a run writes there. -/
namespace StagedBuild

structure Joined (store : Store) (input : ByteArray) (programs : List Program)
    (outcomes : List Outcome) : Prop where
  all : outcomes.length = programs.length
  first : ∀ p, programs[0]? = some p →
    outcomes[0]? = some (p.run store input (heeded store (programs.drop 1)))
  next : ∀ k p before, programs[k + 1]? = some p → outcomes[k]? = some before →
    outcomes[k + 1]? = some
      (p.run before.store before.written (heeded before.store (programs.drop (k + 2))))

theorem flowJoined (store : Store) (input : ByteArray) (programs : List Program) :
    Joined store input programs (flow store input programs) := by
  induction programs generalizing store input with
  | nil => exact ⟨rfl, by simp, by simp⟩
  | cons p rest ih =>
    have tail := ih (p.run store input (heeded store rest)).store
      (p.run store input (heeded store rest)).written
    refine ⟨flowLength store input _, ?_, ?_⟩
    · intro first found
      obtain rfl : p = first := by simpa using found
      rfl
    · intro k q before found ended
      simp only [List.getElem?_cons_succ] at found
      cases k with
      | zero =>
        obtain rfl : p.run store input (heeded store rest) = before := by simpa [flow] using ended
        exact tail.first q found
      | succ k => exact tail.next k q before found ended

namespace Program

structure Relays (p : Program) : Prop where
  copies : p.behaviour.intake = .copy
  nothingElse : p.behaviour.zeros = 0
  succeeds : p.behaviour.status.succeeded = true

variable {p : Program}

theorem Relays.finished (relays : p.Relays) (heeded : Bool) (store : Store) (taken : Bool)
    (written : ByteArray) :
    p.finish heeded store taken written = ⟨store, taken, written, p.behaviour.status⟩ := by
  have none : zeroBytes 0 = ByteArray.empty := rfl
  simp [finish, relays.nothingElse, none]

theorem Relays.content (relays : p.Relays) (input : ByteArray) :
    p.content input = p.behaviour.text ++ input := by
  simp [Program.content, relays.copies]

theorem Relays.toReader (relays : p.Relays) (sink : p.behaviour.sink = .stream) (store : Store)
    (input : ByteArray) :
    p.run store input true = ⟨store, true, p.behaviour.text ++ input, p.behaviour.status⟩ := by
  simp [run, sink, passes, relays.finished, relays.content, relays.copies]

theorem Relays.toFile (relays : p.Relays) (sink : p.behaviour.sink = .file) {store after : Store}
    {input : ByteArray} (written : store.write p.target (p.behaviour.text ++ input) = .ok after)
    (heeded : Bool) : p.run store input heeded = ⟨after, true, .empty, p.behaviour.status⟩ := by
  simp [run, sink, relays.content, written, relays.finished, relays.copies]

structure Emits (p : Program) (input : ByteArray) (outcome : Outcome) : Prop where
  succeeded : outcome.status.succeeded = true
  toOutput : p.behaviour.sink = .stream → outcome.written = p.behaviour.text ++ input
  toFile : p.behaviour.sink = .file → outcome.written = .empty ∧ ∃ l executable,
    outcome.store.find p.target = .ok (l, .file (p.behaviour.text ++ input) executable)

theorem Relays.emits (relays : p.Relays) {store : Store} (input : ByteArray)
    (writable : p.behaviour.sink = .file → store.canWrite p.target = true) :
    p.Emits input (p.run store input true) := by
  cases sink : p.behaviour.sink with
  | file =>
    obtain ⟨after, written⟩ := Store.canWriteAny (writable sink) (p.behaviour.text ++ input)
    rw [relays.toFile sink written]
    exact ⟨relays.succeeds, by simp [sink], fun _ => ⟨rfl, Store.writtenFind written⟩⟩
  | stream =>
    rw [relays.toReader sink]
    exact ⟨relays.succeeds, fun _ => rfl, by simp [sink]⟩

theorem Relays.heeds (relays : p.Relays) (sink : p.behaviour.sink = .stream) (store : Store)
    (heeded : Bool) : p.heeds store heeded = heeded := by
  simp [Program.heeds, relays.copies, sink]

end Program

def relayed (programs : List Program) (input : ByteArray) : ByteArray :=
  (programs.reverse.map fun p => p.behaviour.text).foldr (· ++ ·) input

theorem relayedCons (p : Program) (rest : List Program) (input : ByteArray) :
    relayed (p :: rest) input = relayed rest (p.behaviour.text ++ input) := by
  simp [relayed]

theorem relayedLast (early : List Program) (last : Program) (input : ByteArray) :
    relayed (early ++ [last]) input = last.behaviour.text ++ relayed early input := by
  simp [relayed]

section
variable {early : List Program} (relay : ∀ p ∈ early, p.Relays ∧ p.behaviour.sink = .stream)
include relay

theorem relayHeeded (store : Store) (rest : List Program) :
    heeded store (early ++ rest) = heeded store rest := by
  induction early with
  | nil => rfl
  | cons p early ih =>
    obtain ⟨relays, sink⟩ := relay p (by simp)
    rw [List.cons_append, heeded, relays.heeds sink]
    exact ih fun q member => relay q (by simp [member])

theorem relayFlow (store : Store) (input : ByteArray) {rest : List Program}
    (read : heeded store rest = true) :
    ∃ outcomes, (∀ outcome ∈ outcomes, outcome.status.succeeded = true) ∧
      flow store input (early ++ rest) = outcomes ++ flow store (relayed early input) rest := by
  induction early generalizing input with
  | nil => exact ⟨[], by simp, rfl⟩
  | cons p early ih =>
    obtain ⟨relays, sink⟩ := relay p (by simp)
    have later : ∀ q ∈ early, q.Relays ∧ q.behaviour.sink = .stream :=
      fun q member => relay q (by simp [member])
    have ran : p.run store input (heeded store (early ++ rest)) =
        ⟨store, true, p.behaviour.text ++ input, p.behaviour.status⟩ := by
      rw [relayHeeded later, read]
      exact relays.toReader sink store input
    obtain ⟨outcomes, all, tail⟩ := ih later (p.behaviour.text ++ input)
    refine ⟨p.run store input (heeded store (early ++ rest)) :: outcomes, ?_, ?_⟩
    · intro outcome member
      rcases List.mem_cons.mp member with rfl | inside
      · rw [ran]
        exact relays.succeeds
      · exact all outcome inside
    · simp only [List.cons_append, flow, ran, tail, relayedCons]

end

namespace Session
open Supervision

def lastWrote (s : Session) (step : Step) : ByteArray :=
  match step.tasks.mapM s.start with
  | .ok programs => writtenBy (flow s.store s.input programs)
  | .error _ => .empty

theorem supervisedOutput (s : Session) (members : List Member) :
    (s.supervised members).2.output = s.output := rfl

theorem stepOutput (s : Session) (step : Step) :
    (s.runStep step).2.output = s.output ++ s.lastWrote step := by
  cases step with
  | run task =>
    cases begins : s.start task with
    | error fault =>
      have nothing : s.lastWrote (.run task) = .empty := by
        rw [lastWrote, Step.tasks, startSingle, begins]
        rfl
      simp [runStep, taskRefused begins, nothing, log]
    | ok program =>
      have wrote : s.lastWrote (.run task) = writtenBy (flow s.store s.input [program]) := by
        rw [lastWrote, Step.tasks, startSingle, begins]
        rfl
      obtain ⟨result, events, ran⟩ := taskRan begins
      simp [runStep, ran, wrote, log, after]
  | pipe tasks output =>
    rw [runStep, runPipe, endPipe, (cleanedUpConduct output _).output, supervisedOutput]
    unfold afterPipe lastWrote
    simp only [Step.tasks]
    cases tasks.mapM s.start with
    | error fault => simp
    | ok programs => rfl

def stepsRun (s : Session) : List Step → List (Session × Step)
  | [] => []
  | step :: rest =>
    (s, step) :: match s.runStep step with
      | (.ok _, t) => t.stepsRun rest
      | (.error _, _) => []

def wroteInOrder (ran : List (Session × Step)) : ByteArray :=
  (ran.map fun (t, step) => t.lastWrote step).foldr (· ++ ·) .empty

theorem wroteAlone (s : Session) (step : Step) :
    wroteInOrder (s.stepsRun [step]) = s.lastWrote step := by
  have alone : s.stepsRun [step] = [(s, step)] := by
    unfold stepsRun
    split <;> rfl
  simp [alone, wroteInOrder]

theorem stepsOutput (s : Session) (steps : List Step) :
    (s.runSteps steps).2.output = s.output ++ wroteInOrder (s.stepsRun steps) := by
  induction steps generalizing s with
  | nil => simp [runSteps, stepsRun, wroteInOrder]
  | cons step rest ih =>
    have head := stepOutput s step
    cases ran : s.runStep step with
    | mk result mid =>
      rw [ran] at head
      cases result with
      | error failure => simpa [runSteps, stepsRun, ran, wroteInOrder] using head
      | ok passed =>
        have gained : mid.output = s.output ++ s.lastWrote step := head
        simp only [runSteps, stepsRun, ran, ih mid, gained, wroteInOrder, List.map_cons, List.foldr_cons,
          ByteArray.append_assoc]

theorem stepsRunInOrder (s : Session) (steps : List Step) :
    (s.stepsRun steps).map Prod.snd <+: steps := by
  induction steps generalizing s with
  | nil => exact List.nil_prefix
  | cons step rest ih =>
    cases ran : s.runStep step with
    | mk result mid =>
      cases result with
      | error failure => simp [stepsRun, ran]
      | ok passed => simpa [stepsRun, ran] using ih mid

theorem stepsRunBegin (s : Session) (steps : List Step) (mid : Session) (step : Step) :
    (mid, step) ∈ s.stepsRun steps ↔ ∃ done, Begins s steps done step mid := by
  induction steps generalizing s with
  | nil => simp [stepsRun, Begins]
  | cons first rest ih =>
    constructor
    · intro member
      rcases List.mem_cons.mp member with here | later
      · cases here
        exact ⟨[], ⟨rest, rfl⟩, .nil _⟩
      · cases ran : s.runStep first with
        | mk result next =>
          cases result with
          | error failure => simp [ran] at later
          | ok passed =>
            simp only [ran] at later
            obtain ⟨done, ⟨left, split⟩, run⟩ := (ih next).mp later
            exact ⟨first :: done, ⟨left, by simp [split]⟩, .cons ran run⟩
    · rintro ⟨done, ⟨left, split⟩, run⟩
      cases run with
      | nil s =>
        obtain ⟨rfl, _⟩ := List.cons.inj split
        exact List.mem_cons_self
      | @cons _ next _ head done ran run =>
        obtain ⟨rfl, later⟩ := List.cons.inj split
        have begun : (mid, step) ∈ next.stepsRun rest := (ih next).mpr ⟨done, ⟨left, later⟩, run⟩
        simp only [stepsRun, ran]
        exact List.mem_cons_of_mem _ begun

theorem wroteReporting (s : Session) (events : List Event) (steps : List Step) :
    wroteInOrder ((s.reporting events).stepsRun steps) = wroteInOrder (s.stepsRun steps) := by
  induction steps generalizing s events with
  | nil => rfl
  | cons step rest ih =>
    obtain ⟨result, mid, later, head⟩ := stepUnheeding s step
    have plain : s.runStep step = (result, mid.reporting (s.events ++ later)) := head s.events
    have other : (s.reporting events).runStep step = (result, mid.reporting (events ++ later)) :=
      head events
    have same : (s.reporting events).lastWrote step = s.lastWrote step := rfl
    cases result with
    | error failure => simp [stepsRun, plain, other, wroteInOrder, same]
    | ok passed =>
      have tail : wroteInOrder ((mid.reporting (events ++ later)).stepsRun rest) =
          wroteInOrder ((mid.reporting (s.events ++ later)).stepsRun rest) := by rw [ih mid, ih mid]
      unfold wroteInOrder at tail ⊢
      simp only [stepsRun, plain, other, List.map_cons, List.foldr_cons, same, tail]

theorem buildOutput (s : Session) (settings : Settings) (words : List String) :
    (s.build settings words).2.output =
      s.output ++ wroteInOrder (s.stepsRun (makePlan settings words).plan.steps) := by
  rw [buildRuns, stepsOutput]
  exact congrArg (s.output ++ ·) (s.wroteReporting _ _)

/- What a member reads by the deeds of its supervisor: what the one before has written if it was joined to
it, and else the input. -/
def fedBy (deeds : List Deed) (input : ByteArray) (outcomes : List Outcome) (n : Nat) : ByteArray :=
  if .joined n ∈ deeds then ((outcomes[n - 1]?).map Outcome.written).getD .empty else input

def leftBy (deeds : List Deed) (outcomes : List Outcome) : ByteArray :=
  ((outcomes.zipIdx.filter fun o => !decide (.joined (o.2 + 1) ∈ deeds)).map fun o => o.1.written).foldr
    (· ++ ·) .empty

structure Plumbed (s : Session) (tasks : List Task) (output : String) (programs : List Program)
    (outcomes : List Outcome) : Prop where
  wired : (supervise (s.members tasks)).deeds.filterMap joinedPosition? = (List.range tasks.length).tail
  closed : (launch [] (s.members tasks)).children = handed (s.members tasks)
  joined : Joined s.store s.input programs outcomes
  fed : ∀ (k : Nat) (p : Program), programs[k]? = some p → ∃ store, outcomes[k]? = some (p.run store
    (fedBy (supervise (s.members tasks)).deeds s.input outcomes k)
    (heeded store (programs.drop (k + 1))))
  ended : s.fates tasks = List.zipWith s.fate tasks (outcomes.map Outcome.status)
  gained : ∃ last, outcomes.getLast? = some last ∧
    leftBy (supervise (s.members tasks)).deeds outcomes = last.written ∧
    (s.runStep (.pipe tasks output)).2.output = s.output ++ last.written

theorem joinedDeed (deeds : List Deed) (n : Nat) :
    .joined n ∈ deeds ↔ n ∈ deeds.filterMap joinedPosition? := by
  rw [List.mem_filterMap]
  constructor
  · exact fun member => ⟨_, member, rfl⟩
  · rintro ⟨deed, member, found⟩
    cases deed <;> cases found
    exact member

theorem wiredDeed {deeds : List Deed} {count : Nat}
    (wired : deeds.filterMap joinedPosition? = (List.range count).tail) (n : Nat) :
    .joined n ∈ deeds ↔ 0 < n ∧ n < count := by
  rw [joinedDeed, wired]
  cases count with
  | zero => simp
  | succ count =>
    rw [List.range_succ_eq_map, List.tail_cons, List.mem_map]
    constructor
    · rintro ⟨m, member, rfl⟩
      exact ⟨Nat.succ_pos m, Nat.succ_lt_succ (List.mem_range.mp member)⟩
    · rintro ⟨positive, inside⟩
      exact ⟨n - 1, List.mem_range.mpr (by omega), by omega⟩

theorem wiredFeeds {store : Store} {input : ByteArray} {programs : List Program}
    {outcomes : List Outcome} {deeds : List Deed} (flows : Joined store input programs outcomes)
    (wired : deeds.filterMap joinedPosition? = (List.range programs.length).tail) (k : Nat) (p : Program)
    (found : programs[k]? = some p) :
    ∃ before, outcomes[k]? =
      some (p.run before (fedBy deeds input outcomes k) (heeded before (programs.drop (k + 1)))) := by
  cases k with
  | zero =>
    have first : .joined 0 ∉ deeds := by simp [wiredDeed wired]
    rw [fedBy, if_neg first]
    exact ⟨store, flows.first p found⟩
  | succ k =>
    obtain ⟨inside, _⟩ := List.getElem?_eq_some_iff.mp found
    have joined : .joined (k + 1) ∈ deeds := (wiredDeed wired _).mpr ⟨Nat.succ_pos k, inside⟩
    have size := flows.all
    obtain ⟨before, ended⟩ : ∃ before, outcomes[k]? = some before :=
      ⟨outcomes[k], List.getElem?_eq_getElem (by omega)⟩
    have read : fedBy deeds input outcomes (k + 1) = before.written := by
      simp [fedBy, joined, ended]
    rw [read]
    exact ⟨before.store, flows.next k p before found ended⟩

theorem wiredLeaves {deeds : List Deed} {outcomes : List Outcome} {last : Outcome}
    (wired : deeds.filterMap joinedPosition? = (List.range outcomes.length).tail)
    (found : outcomes.getLast? = some last) : leftBy deeds outcomes = last.written := by
  obtain ⟨early, rfl⟩ := List.getLast?_eq_some_iff.mp found
  have taken : early.zipIdx.filter (fun o => !decide (.joined (o.2 + 1) ∈ deeds)) = [] := by
    refine List.filter_eq_nil_iff.mpr fun o member => ?_
    obtain ⟨inside, _⟩ := List.getElem?_eq_some_iff.mp (List.mem_zipIdx_iff_getElem?.mp member)
    simp [wiredDeed wired, inside]
  have free : .joined (early.length + 1) ∉ deeds := by simp [wiredDeed wired]
  simp [leftBy, List.zipIdx_append, taken, free]

theorem pipePlumbed {s : Session} {tasks : List Task} {programs : List Program} (output : String)
    (given : tasks ≠ []) (started : tasks.mapM s.start = .ok programs) :
    s.Plumbed tasks output programs (flow s.store s.input programs) := by
  have size : programs.length = tasks.length := by
    simpa using congrArg List.length (startAllArguments started)
  have wired : (supervise (s.members tasks)).deeds.filterMap joinedPosition? =
      (List.range tasks.length).tail := by
    have all : tried (s.members tasks) = tasks.length := by
      rw [tried, startableBegun (membersBegun started)]
      simpa using congrArg List.length (membersTasks s tasks)
    rw [joinedPositions, all]
  have flows := flowJoined s.store s.input programs
  have some : flow s.store s.input programs ≠ [] := by
    intro none
    have zero := congrArg List.length none
    rw [flowLength, size] at zero
    exact given (List.length_eq_zero_iff.mp zero)
  refine ⟨wired, by rw [launchComplete (membersBegun started)], flows,
    wiredFeeds flows (size ▸ wired), by simp only [fates, started], ?_⟩
  have found := List.getLast?_eq_some_getLast some
  have wrote : s.lastWrote (.pipe tasks output) =
      ((flow s.store s.input programs).getLast some).written := by
    simp only [lastWrote, Step.tasks, started, writtenBy, found]
  rw [← size, ← flowLength s.store s.input programs] at wired
  exact ⟨_, found, wiredLeaves wired found, by rw [stepOutput, wrote]⟩

structure PassesOn (s : Session) (step : Step) (programs : List Program) (last : Program) : Prop where
  toOutput : last.behaviour.sink = .stream →
    (s.runStep step).2.output = s.output ++ relayed programs s.input
  toFile : last.behaviour.sink = .file →
    (s.runStep step).2.output = s.output ∧ ∃ l executable,
      (s.afterPipe step.tasks).store.find last.target = .ok (l, .file (relayed programs s.input) executable)
  succeeds : s.Hears step.tasks → (s.runStep step).1 = .ok () ∧
    (s.runStep step).2.store = (s.afterPipe step.tasks).store

theorem pipePassesOn {s : Session} {tasks : List Task} {early : List Program} {last : Program}
    (output : String) (started : tasks.mapM s.start = .ok (early ++ [last]))
    (relay : ∀ p ∈ early, p.Relays ∧ p.behaviour.sink = .stream) (relays : last.Relays)
    (writable : last.behaviour.sink = .file → s.store.canWrite last.target = true) :
    s.PassesOn (.pipe tasks output) (early ++ [last]) last := by
  have read : heeded s.store [last] = true := by
    cases sink : last.behaviour.sink with
    | file => simp [heeded, Program.heeds, relays.copies, sink, writable sink]
    | stream => rw [heeded, relays.heeds sink, heeded]
  obtain ⟨outcomes, all, flows⟩ := relayFlow relay s.store s.input read
  have emits := relays.emits (relayed early s.input) writable
  generalize ended : last.run s.store (relayed early s.input) true = outcome at emits
  have final : flow s.store s.input (early ++ [last]) = outcomes ++ [outcome] := by
    rw [flows, ← ended]
    rfl
  have wrote : s.lastWrote (.pipe tasks output) = outcome.written := by
    simp [lastWrote, Step.tasks, started, writtenBy, final]
  have left : (s.afterPipe tasks).store = outcome.store := by
    simp [afterPipe, started, after, storeAfter, final]
  refine ⟨fun sink => ?_, fun sink => ?_, fun heard => ?_⟩
  · rw [stepOutput, wrote, emits.toOutput sink, relayedLast]
  · obtain ⟨nothing, found⟩ := emits.toFile sink
    rw [stepOutput, wrote, nothing, Step.tasks, left, relayedLast]
    exact ⟨ByteArray.append_empty, found⟩
  · have passed : (s.runStep (.pipe tasks output)).1 = .ok () := by
      refine (stepSucceeds s _).mpr ⟨heard, _, started, fun status member => ?_⟩
      rw [endings, final] at member
      obtain ⟨other, inside, rfl⟩ := List.mem_map.mp member
      rcases List.mem_append.mp inside with before | here
      · exact all other before
      · obtain rfl := List.mem_singleton.mp here
        exact emits.succeeded
    refine ⟨passed, ?_⟩
    rw [runStep, pipeResult] at passed
    rw [runStep, runPipe, endPipeOk passed]
    rfl

end Session

namespace CommandLine

structure PrintsLast (s : Session) (e : Environment) (words : List String) : Prop where
  built : ∀ settings events, chooseSettings (s.settingsFor e) words = .ok (settings, events) →
    (run s e words).session.output =
      s.output ++ Session.wroteInOrder (s.stepsRun (makePlan settings words).plan.steps)
  unsettled : ∀ failure, chooseSettings (s.settingsFor e) words = .error failure →
    (run s e words).session.output = s.output

theorem printsLast (s : Session) (e : Environment) {words : List String} (given : words ≠ []) :
    PrintsLast s e words where
  built settings events chosen := by
    rw [runGiven given]
    simp only [build, chosen, Session.buildOutput]
    exact congrArg (s.output ++ ·) (s.wroteReporting _ _)
  unsettled failure refused := by
    rw [runGiven given]
    simp only [build, refused]

end CommandLine

theorem pipesCarryOutput :
    (∀ (s : Session) tasks output programs, tasks ≠ [] → tasks.mapM s.start = .ok programs →
      ∃ outcomes, s.Plumbed tasks output programs outcomes) ∧
    (∀ (s : Session) tasks output early last, tasks.mapM s.start = .ok (early ++ [last]) →
      (∀ p ∈ early, p.Relays ∧ p.behaviour.sink = .stream) → last.Relays →
      (last.behaviour.sink = .file → s.store.canWrite last.target = true) →
      s.PassesOn (.pipe tasks output) (early ++ [last]) last) ∧
    (∀ (s : Session) steps, (s.stepsRun steps).map Prod.snd <+: steps ∧
      ∀ mid step, (mid, step) ∈ s.stepsRun steps ↔ ∃ done, s.Begins steps done step mid) ∧
    (∀ (s : Session) settings words, (s.build settings words).2.output =
      s.output ++ Session.wroteInOrder (s.stepsRun (makePlan settings words).plan.steps)) ∧
    ∀ s e words, words ≠ [] → CommandLine.PrintsLast s e words := by
  refine ⟨?_, ?_, ?_, Session.buildOutput, ?_⟩
  · intro s tasks output programs given started
    exact ⟨_, Session.pipePlumbed output given started⟩
  · intro s tasks output early last started relay relays writable
    exact Session.pipePassesOn output started relay relays writable
  · intro s steps
    exact ⟨s.stepsRunInOrder steps, s.stepsRunBegin steps⟩
  · intro s e words given
    exact CommandLine.printsLast s e given

open CommandLine in
theorem textsCarriedIntoFile :
    let front : Tool := { usual := { intake := .copy, text := "ir ".toUTF8 } }
    let back : Tool := { usual := { intake := .copy, sink := .file, text := "obj ".toUTF8 } }
    let s : Session := {
      store := ⟨["work"], [([], .directory), (["work"], .directory), (["bin"], .directory),
        (["bin", "clang"], .tool front), (["bin", "llc"], .tool back)]⟩
      searchPath := ["/bin"]
      input := "int".toUTF8 }
    let tasks : List Task := [⟨.compile, "clang", []⟩, ⟨.codegen, "llc", ["-o", "a.o"]⟩]
    let first : Program := ⟨["bin", "clang"], front, []⟩
    let last : Program := ⟨["bin", "llc"], back, ["-o", "a.o"]⟩
    let e : Environment := ⟨[("PRECC_CONFIG", "none")]⟩
    tasks.mapM s.start = .ok ([first] ++ [last]) ∧
      (∃ l executable, (s.runStep (.pipe tasks "a.o")).2.store.find "a.o" =
        .ok (l, .file ("obj ".toUTF8 ++ ("ir ".toUTF8 ++ "int".toUTF8)) executable)) ∧
      (∃ outcomes, s.Plumbed tasks "a.o" ([first] ++ [last]) outcomes) ∧
      (run s e ["--version"]).session.output = "ir ".toUTF8 ++ "int".toUTF8 := by
  intro front back s tasks first last e
  have started : tasks.mapM s.start = .ok ([first] ++ [last]) := rfl
  have zero : (Status.exited 0).succeeded = true := by decide
  have relay : ∀ p ∈ [first], p.Relays ∧ p.behaviour.sink = .stream := by
    intro p member
    obtain rfl := List.mem_singleton.mp member
    exact ⟨⟨rfl, rfl, zero⟩, rfl⟩
  have relays : last.Relays := ⟨rfl, rfl, zero⟩
  have file : e.settingsFile s.machine.home = "none" := by decide
  have absent : s.store.find "none" = .error .noEntry := rfl
  have chosen : chooseSettings (s.settingsFor e) ["--version"] = .ok ({}, []) := by
    simp only [Session.settingsFor, Store.settingsFor, file, Store.loadSettings, absent, chooseSettings]
  have writable : s.store.canWrite "a.o" = true := rfl
  obtain ⟨plumbed, carried, _, _, printed⟩ := pipesCarryOutput
  have passes := carried s tasks "a.o" _ _ started relay relays fun _ => writable
  have inFile := (passes.toFile rfl).2
  rw [← (passes.succeeds fun _ _ => rfl).2] at inFile
  have shown := (printed s e ["--version"] (by decide)).built {} [] chosen
  rw [passedOnSteps {} (by decide), s.wroteAlone] at shown
  have wrote : s.lastWrote (.run ⟨.passThrough, "clang", ["--version"]⟩) =
      "ir ".toUTF8 ++ "int".toUTF8 := rfl
  exact ⟨started, inFile, plumbed s tasks "a.o" _ (by simp [tasks]) started,
    shown.trans (by rw [wrote]; exact ByteArray.empty_append)⟩

end StagedBuild

import StagedBuild.Supervision

/-! What supervision comes to, for any fates of the members: which are started, in which order, what
is learned of them, and whom a failure names. The output of a member is always there for the next. -/
namespace StagedBuild

def Fate.starts : Fate → Bool
  | .refused _ => false
  | _ => true

theorem Fate.startsOrRefused (f : Fate) : f.starts = true ∨ ∃ fault, f = .refused fault := by
  cases f with
  | refused fault => exact .inr ⟨fault, rfl⟩
  | lost fault => exact .inl rfl
  | ended status => exact .inl rfl

def Failure.program? : Failure → Option String
  | .cannotStart _ program _ => some program
  | .stageFailed _ program _ => some program
  | .cannotWait _ program _ => some program
  | _ => none

def Failure.Names (f : Failure) (task : Task) : Prop :=
  f.stage? = some task.stage ∧ f.program? = some task.invocation.program

theorem verdictPassed {task : Task} {status : Status} (passed : verdict task status = .ok ()) :
    status.succeeded = true := by
  unfold verdict at passed
  split at passed
  · assumption
  · contradiction

theorem verdictError {task : Task} {status : Status} {failure : Failure}
    (failed : verdict task status = .error failure) :
    status.succeeded = false ∧
      failure = .stageFailed task.stage task.invocation.program status.code := by
  unfold verdict at failed
  split at failed
  · contradiction
  · rename_i bad
    cases failed
    exact ⟨by simpa using bad, rfl⟩

namespace Supervision

def startable (members : List Member) : List Member := members.takeWhile fun m => m.fate.starts

def refusal? : List Member → Option Failure
  | [] => none
  | m :: rest =>
    match m.fate with
    | .refused fault => some (.cannotStart m.task.stage m.task.invocation.program fault)
    | _ => refusal? rest

theorem refusalSkips {m : Member} (rest : List Member) (fate : m.fate.starts = true) :
    refusal? (m :: rest) = refusal? rest := by
  cases kind : m.fate with
  | refused fault => simp [kind, Fate.starts] at fate
  | lost fault => simp [refusal?, kind]
  | ended status => simp [refusal?, kind]

theorem refusalStops {m : Member} {fault : Fault} (rest : List Member)
    (fate : m.fate = .refused fault) : refusal? (m :: rest) =
      some (.cannotStart m.task.stage m.task.invocation.program fault) := by
  simp [refusal?, fate]

theorem startableSplit (members : List Member) :
    refusal? members = none ∧ startable members = members ∨
      ∃ m fault rest, members = startable members ++ m :: rest ∧ m.fate = .refused fault ∧
        refusal? members = some (.cannotStart m.task.stage m.task.invocation.program fault) := by
  induction members with
  | nil => exact .inl ⟨rfl, rfl⟩
  | cons m rest ih =>
    rcases m.fate.startsOrRefused with starts | ⟨fault, refused⟩
    · have head : startable (m :: rest) = m :: startable rest := by simp [startable, starts]
      rw [refusalSkips rest starts, head]
      rcases ih with ⟨none, all⟩ | ⟨other, fault, later, split, fate, why⟩
      · exact .inl ⟨none, by rw [all]⟩
      · exact .inr ⟨other, fault, later, by rw [List.cons_append, ← split], fate, why⟩
    · have head : startable (m :: rest) = [] := by simp [startable, refused, Fate.starts]
      exact .inr ⟨m, fault, rest, by rw [head, List.nil_append], refused, refusalStops rest refused⟩

theorem startableAll {members : List Member} (accepted : refusal? members = none) :
    startable members = members := by
  rcases startableSplit members with ⟨_, all⟩ | ⟨_, _, _, _, _, refused⟩
  · exact all
  · simp [accepted] at refused

theorem refusalNamesMember {members : List Member} {failure : Failure}
    (refused : refusal? members = some failure) : ∃ m ∈ members, failure.Names m.task := by
  rcases startableSplit members with ⟨none, _⟩ | ⟨m, fault, rest, split, _, why⟩
  · simp [none] at refused
  · rw [refused] at why
    cases Option.some.inj why
    exact ⟨m, by rw [split]; simp, rfl, rfl⟩

/- While members are left, the output of the last child is there to be taken. -/
def Ready (children : List Child) (members : List Member) : Prop :=
  members ≠ [] → ∀ child, children.getLast? = some child → child.outlet = true

theorem outletTaken {children : List Child}
    (there : ∀ child, children.getLast? = some child → child.outlet = true) :
    ∃ joined, takeOutlet children = some joined ∧
      joined.map Child.member = children.map Child.member := by
  induction children with
  | nil => exact ⟨[], rfl, rfl⟩
  | cons child rest ih =>
    cases rest with
    | nil =>
      have outlet : child.outlet = true := there child rfl
      exact ⟨[{ child with outlet := false }], by simp [takeOutlet, outlet], rfl⟩
    | cons next rest =>
      obtain ⟨joined, taken, same⟩ := ih (fun last found => there last (by simpa using found))
      exact ⟨child :: joined, by simp [takeOutlet, taken], by simp [same]⟩

inductive Launched : List Child → List Member → Launch → Prop where
  | done (children : List Child) : Launched children [] ⟨children, none, [], []⟩
  | refused {children joined m rest fault} (same : joined.map Child.member = children.map Child.member)
      (fate : m.fate = .refused fault) :
      Launched children (m :: rest) ⟨joined,
        some (.cannotStart m.task.stage m.task.invocation.program fault),
        joinDeed joined, [.startingPiped m.task]⟩
  | started {children joined m rest later} (same : joined.map Child.member = children.map Child.member)
      (fate : m.fate.starts = true)
      (next : Launched (joined ++ [⟨m, !rest.isEmpty⟩]) rest later) :
      Launched children (m :: rest) ⟨later.children, later.failure,
        joinDeed joined ++ .started joined.length :: later.deeds,
        .startingPiped m.task :: later.events⟩

theorem launchSound (members : List Member) (children : List Child) (ready : Ready children members) :
    Launched children members (launch children members) := by
  induction members generalizing children with
  | nil => exact .done children
  | cons m rest ih =>
    obtain ⟨joined, taken, same⟩ := outletTaken (ready (by simp))
    have next : Ready (joined ++ [⟨m, !rest.isEmpty⟩]) rest := by
      intro left child found
      have last : child = ⟨m, !rest.isEmpty⟩ := by simpa using found.symm
      simpa [last] using left
    simp only [launch, taken]
    cases fate : m.fate with
    | refused fault => exact .refused same fate
    | lost fault => exact .started same (by simp [fate, Fate.starts]) (ih _ next)
    | ended status => exact .started same (by simp [fate, Fate.starts]) (ih _ next)

theorem launchTrace (members : List Member) : Launched [] members (launch [] members) :=
  launchSound members [] (by intro _ child found; simp at found)

theorem launchedChildren {children members launched} (h : Launched children members launched) :
    launched.children.map Child.member = children.map Child.member ++ startable members := by
  induction h with
  | done children => simp [startable]
  | refused same fate => simp [startable, same, fate, Fate.starts]
  | started same fate next ih => simpa [startable, same, fate] using ih

theorem launchedFailure {children members launched} (h : Launched children members launched) :
    launched.failure = refusal? members := by
  induction h with
  | done children => rfl
  | refused same fate => exact (refusalStops _ fate).symm
  | started same fate next ih => exact ih.trans (refusalSkips _ fate).symm

def startedPosition? : Deed → Option Nat
  | .started n => some n
  | _ => none

theorem joinDeedUnseen {f : Deed → Option Nat} (blind : ∀ n, f (.joined n) = none)
    (children : List Child) : (joinDeed children).filterMap f = [] := by
  cases children with
  | nil => rfl
  | cons child rest => simp [joinDeed, blind]

theorem launchedPositions {children members launched} (h : Launched children members launched) :
    launched.deeds.filterMap startedPosition? =
      List.range' children.length (startable members).length := by
  induction h with
  | done children => simp [startable]
  | @refused children joined m rest fault same fate =>
    have none : startable (m :: rest) = [] := by simp [startable, fate, Fate.starts]
    simp [joinDeedUnseen (f := startedPosition?) (fun _ => rfl), none]
  | @started children joined m rest later same fate next ih =>
    have size : joined.length = children.length := by simpa using congrArg List.length same
    have join : (joinDeed joined).filterMap startedPosition? = [] := joinDeedUnseen (fun _ => rfl) _
    simp only [List.filterMap_append, join, List.nil_append, List.filterMap_cons,
      startedPosition?, ih, size, List.length_append, List.length_singleton]
    simp [startable, fate, List.range'_succ]

theorem statusesHead (child : Child) (rest : List Child) :
    (∃ status, statuses (child :: rest) = (statuses rest).map (status :: ·)) ∨
      ∃ fault, statuses (child :: rest) = .error (.cannotWait child.member.task.stage
        child.member.task.invocation.program fault) := by
  cases fate : child.member.fate with
  | ended status => exact .inl ⟨status, by simp [statuses, fate]⟩
  | lost fault => exact .inr ⟨fault, by simp [statuses, fate]⟩
  | refused fault => exact .inr ⟨fault, by simp [statuses, fate]⟩

theorem lostNamesMember {children : List Child} {failure : Failure}
    (lost : statuses children = .error failure) :
    ∃ m ∈ children.map Child.member, failure.Names m.task := by
  induction children with
  | nil => simp [statuses] at lost
  | cons child rest ih =>
    rcases statusesHead child rest with ⟨status, learned⟩ | ⟨fault, stopped⟩
    · rw [learned] at lost
      cases later : statuses rest with
      | ok found => simp [later, Except.map] at lost
      | error other =>
        simp only [later, Except.map, Except.error.injEq] at lost
        subst other
        obtain ⟨m, member, named⟩ := ih later
        exact ⟨m, List.mem_cons_of_mem _ member, named⟩
    · rw [stopped] at lost
      cases lost
      exact ⟨child.member, by simp, rfl, rfl⟩

theorem judgeNamesTask {tasks : List Task} {found : List Status} {failure : Failure}
    (blamed : (judge tasks found).1 = .error failure) : ∃ task ∈ tasks, failure.Names task := by
  unfold judge at blamed
  cases position : blamed? found with
  | none => simp [position] at blamed
  | some n =>
    cases atTask : tasks[n]? with
    | none => simp [position, atTask] at blamed
    | some task =>
      cases atStatus : found[n]? with
      | none => simp [position, atTask, atStatus] at blamed
      | some status =>
        simp only [position, atTask, atStatus] at blamed
        obtain ⟨_, rfl⟩ := verdictError blamed
        exact ⟨task, List.mem_of_getElem? atTask, rfl, rfl⟩

theorem superviseRefused {members : List Member} {failure : Failure}
    (refused : refusal? members = some failure) :
    supervise members = ⟨.error failure,
      (launch [] members).deeds ++ abortDeeds 0 (launch [] members).children,
      (launch [] members).events⟩ := by
  have stopped := (launchedFailure (launchTrace members)).trans refused
  simp only [supervise, stopped]

theorem superviseLost {members : List Member} {failure : Failure}
    (accepted : refusal? members = none)
    (lost : statuses (launch [] members).children = .error failure) :
    supervise members = ⟨.error failure,
      (launch [] members).deeds ++ waitDeeds 0 (launch [] members).children,
      (launch [] members).events⟩ := by
  have complete := (launchedFailure (launchTrace members)).trans accepted
  simp only [supervise, complete, lost]

theorem superviseJudged {members : List Member} {found : List Status}
    (accepted : refusal? members = none)
    (learned : statuses (launch [] members).children = .ok found) :
    supervise members = ⟨(judge (members.map Member.task) found).1,
      (launch [] members).deeds ++ waitDeeds 0 (launch [] members).children,
      (launch [] members).events ++ (judge (members.map Member.task) found).2⟩ := by
  have complete := (launchedFailure (launchTrace members)).trans accepted
  simp only [supervise, complete, learned]

theorem failureNamesMember {members : List Member} {failure : Failure}
    (failed : (supervise members).result = .error failure) :
    ∃ m ∈ members, failure.Names m.task := by
  cases refused : refusal? members with
  | some other =>
    have same : other = failure := by simpa [superviseRefused refused] using failed
    exact refusalNamesMember (same ▸ refused)
  | none =>
    cases learned : statuses (launch [] members).children with
    | error other =>
      have same : other = failure := by simpa [superviseLost refused learned] using failed
      obtain ⟨m, member, named⟩ := lostNamesMember learned
      rw [launchedChildren (launchTrace members), startableAll refused] at member
      exact ⟨m, by simpa using member, same ▸ named⟩
    | ok found =>
      rw [superviseJudged refused learned] at failed
      obtain ⟨task, member, named⟩ := judgeNamesTask failed
      obtain ⟨m, inside, same⟩ := List.mem_map.mp member
      exact ⟨m, inside, same ▸ named⟩

def endedMember (run : Task × Status) : Member := ⟨run.1, .ended run.2⟩

theorem statusesEnded {children : List Child} {runs : List (Task × Status)}
    (ended : children.map Child.member = runs.map endedMember) :
    statuses children = .ok (runs.map Prod.snd) := by
  induction children generalizing runs with
  | nil =>
    have empty : runs = [] := by simpa using ended.symm
    simp [empty, statuses]
  | cons child rest ih =>
    cases runs with
    | nil => simp at ended
    | cons run runs =>
      simp only [List.map_cons, List.cons.injEq] at ended
      simp [statuses, ended.1, endedMember, ih ended.2, Except.map]

theorem refusalEnded (runs : List (Task × Status)) : refusal? (runs.map endedMember) = none := by
  induction runs with
  | nil => rfl
  | cons run rest ih => simpa [refusal?, endedMember] using ih

theorem superviseEnded (runs : List (Task × Status)) :
    (supervise (runs.map endedMember)).result =
      (judge (runs.map Prod.fst) (runs.map Prod.snd)).1 := by
  have accepted := refusalEnded runs
  have children := launchedChildren (launchTrace (runs.map endedMember))
  rw [startableAll accepted] at children
  have learned : statuses (launch [] (runs.map endedMember)).children = .ok (runs.map Prod.snd) :=
    statusesEnded (by simpa using children)
  have tasks : (runs.map endedMember).map Member.task = runs.map Prod.fst := by
    simp [endedMember, Function.comp_def]
  rw [superviseJudged accepted learned, tasks]

theorem launchedEvents {children members launched} (h : Launched children members launched) :
    launched.events =
      (members.take ((startable members).length + 1)).map fun m => .startingPiped m.task := by
  induction h with
  | done children => rfl
  | refused same fate => simp [startable, fate, Fate.starts]
  | started same fate next ih => simp [startable, fate, ih]

theorem judgeEvents (tasks : List Task) (found : List Status) :
    ∀ event ∈ (judge tasks found).2, ∃ stage status, event = .exited stage status := by
  unfold judge
  cases blamed? found with
  | none => simp
  | some n =>
    dsimp only
    split
    · rename_i task status _ _
      intro event member
      exact ⟨task.stage, status, by simpa using member⟩
    · simp

theorem superviseEvents (members : List Member) : ∀ event ∈ (supervise members).events,
    (∃ task, event = .startingPiped task) ∨ ∃ stage status, event = .exited stage status := by
  have launched : ∀ event ∈ (launch [] members).events, ∃ task, event = .startingPiped task := by
    intro event member
    rw [launchedEvents (launchTrace members)] at member
    obtain ⟨m, _, rfl⟩ := List.mem_map.mp member
    exact ⟨m.task, rfl⟩
  cases refused : refusal? members with
  | some failure =>
    rw [superviseRefused refused]
    exact fun event member => .inl (launched event member)
  | none =>
    cases learned : statuses (launch [] members).children with
    | error failure =>
      rw [superviseLost refused learned]
      exact fun event member => .inl (launched event member)
    | ok found =>
      rw [superviseJudged refused learned]
      intro event member
      rcases List.mem_append.mp member with before | last
      · exact .inl (launched event before)
      · exact .inr (judgeEvents _ _ event last)

def waitedPosition? : Deed → Option Nat
  | .waited n => some n
  | _ => none

theorem waitPositions (n : Nat) (children : List Child) :
    (waitDeeds n children).filterMap startedPosition? = [] ∧
      (waitDeeds n children).filterMap waitedPosition? = List.range' n children.length := by
  induction children generalizing n with
  | nil => exact ⟨rfl, rfl⟩
  | cons child rest ih =>
    obtain ⟨started, waited⟩ := ih (n + 1)
    simp only [waitDeeds, List.filterMap_cons, startedPosition?, waitedPosition?, started, waited,
      List.length_cons, List.range'_succ]
    exact ⟨trivial, trivial⟩

theorem abortWaits {f : Deed → Option Nat} (blind : ∀ n, f (.killed n) = none) (n : Nat)
    (children : List Child) :
    (abortDeeds n children).filterMap f = (waitDeeds n children).filterMap f := by
  induction children generalizing n with
  | nil => rfl
  | cons child rest ih => simp only [abortDeeds, waitDeeds, List.filterMap_cons, blind, ih]

theorem launchWaitsForNone {children members launched} (h : Launched children members launched) :
    launched.deeds.filterMap waitedPosition? = [] := by
  have join : ∀ children, (joinDeed children).filterMap waitedPosition? = [] :=
    joinDeedUnseen (fun _ => rfl)
  induction h with
  | done children => rfl
  | refused same fate => exact join _
  | started same fate next ih =>
    simp only [List.filterMap_append, join, List.filterMap_cons, waitedPosition?, ih, List.nil_append]

theorem superviseDeeds (members : List Member) :
    ∃ ending, (supervise members).deeds = (launch [] members).deeds ++ ending ∧
      ending.filterMap startedPosition? = [] ∧
      ending.filterMap waitedPosition? = List.range (startable members).length := by
  have size : (launch [] members).children.length = (startable members).length := by
    simpa using congrArg List.length (launchedChildren (launchTrace members))
  have waited := waitPositions 0 (launch [] members).children
  have aborted : (abortDeeds 0 (launch [] members).children).filterMap startedPosition? = [] ∧
      (abortDeeds 0 (launch [] members).children).filterMap waitedPosition? =
        List.range' 0 (launch [] members).children.length := by
    rw [abortWaits (fun _ => rfl), abortWaits (fun _ => rfl)]
    exact waited
  rw [size, ← List.range_eq_range'] at aborted waited
  cases refused : refusal? members with
  | some failure => exact ⟨_, by rw [superviseRefused refused], aborted⟩
  | none =>
    cases learned : statuses (launch [] members).children with
    | error failure => exact ⟨_, by rw [superviseLost refused learned], waited⟩
    | ok found => exact ⟨_, by rw [superviseJudged refused learned], waited⟩

theorem startedPositions (members : List Member) :
    (supervise members).deeds.filterMap startedPosition? =
      List.range (startable members).length := by
  obtain ⟨ending, deeds, started, _⟩ := superviseDeeds members
  rw [deeds, List.filterMap_append, launchedPositions (launchTrace members), started]
  simp [List.range_eq_range']

theorem waitedPositions (members : List Member) :
    (supervise members).deeds.filterMap waitedPosition? =
      List.range (startable members).length := by
  obtain ⟨ending, deeds, _, waited⟩ := superviseDeeds members
  rw [deeds, List.filterMap_append, launchWaitsForNone (launchTrace members), waited]
  rfl

end Supervision

end StagedBuild

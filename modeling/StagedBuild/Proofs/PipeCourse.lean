import StagedBuild.Proofs.Blame

/-! The supervision of a pipe, deed by deed. The output of a member is there until the next one takes it
and is gone afterwards; who is started, killed and waited for, and what comes of it, follows from the
first member that cannot be started, the first whose end cannot be learned, or else from the blame. -/
namespace StagedBuild.Supervision

def handed (members : List Member) : List Child := members.map fun m => ⟨m, false⟩

/- Members that were started, when the turn of another has come: the last output waits for it. -/
def handing : List Member → List Child
  | [] => []
  | [m] => [⟨m, true⟩]
  | m :: rest => ⟨m, false⟩ :: handing rest

def childrenBefore (done : List Member) : List Member → List Child
  | [] => handed done
  | _ :: _ => handing done

theorem handingTaken (done : List Member) : takeOutlet (handing done) = some (handed done) := by
  induction done with
  | nil => rfl
  | cons m rest ih =>
    cases rest with
    | nil => rfl
    | cons next rest =>
      cases later : handing (next :: rest) with
      | nil => cases rest <;> simp [handing] at later
      | cons child children =>
        rw [later] at ih
        simp [handing, later, takeOutlet, ih, handed]

theorem handingAppend (done : List Member) (m : Member) :
    handing (done ++ [m]) = handed done ++ [⟨m, true⟩] := by
  induction done with
  | nil => rfl
  | cons first rest ih =>
    cases rest with
    | nil => rfl
    | cons next rest =>
      simp only [List.cons_append, handing, handed, List.map_cons, List.cons.injEq, true_and]
      exact ih

theorem childAdded (done : List Member) (m : Member) (rest : List Member) :
    handed done ++ [⟨m, !rest.isEmpty⟩] = childrenBefore (done ++ [m]) rest := by
  cases rest with
  | nil => simp [childrenBefore, handed]
  | cons next rest => simp [childrenBefore, handingAppend]

def joinDeeds (n : Nat) : List Deed := if n = 0 then [] else [.joined n]

def startDeeds (first count : Nat) : List Deed :=
  (List.range' first count).flatMap fun n => joinDeeds n ++ [.started n]

def reapDeeds (count : Nat) : List Deed := (List.range count).map .waited

def killDeeds (count : Nat) : List Deed := (List.range count).flatMap fun n => [.killed n, .waited n]

theorem joinDeedHanded (done : List Member) : joinDeed (handed done) = joinDeeds done.length := by
  cases done with
  | nil => rfl
  | cons m rest => simp [joinDeed, joinDeeds, handed]

theorem waitDeedsExact (first : Nat) (children : List Child) :
    waitDeeds first children = (List.range' first children.length).map .waited := by
  induction children generalizing first with
  | nil => rfl
  | cons child rest ih => simp [waitDeeds, ih, List.range'_succ]

theorem abortDeedsExact (first : Nat) (children : List Child) :
    abortDeeds first children =
      (List.range' first children.length).flatMap fun n => [.killed n, .waited n] := by
  induction children generalizing first with
  | nil => rfl
  | cons child rest ih => simp [abortDeeds, ih, List.range'_succ]

def Launch.behind (l : Launch) (deeds : List Deed) (events : List Event) : Launch :=
  ⟨l.children, l.failure, deeds ++ l.deeds, events ++ l.events⟩

theorem launchStarts {m : Member} (done rest : List Member) (starts : m.fate.starts = true) :
    launch (handing done) (m :: rest) = (launch (childrenBefore (done ++ [m]) rest) rest).behind
      (joinDeeds done.length ++ [.started done.length]) [.startingPiped m.task] := by
  have size : (handed done).length = done.length := by simp [handed]
  simp only [launch, handingTaken, ← childAdded, joinDeedHanded, size]
  cases fate : m.fate with
  | refused fault => simp [fate, Fate.starts] at starts
  | lost fault => simp [Launch.behind]
  | ended status => simp [Launch.behind]

theorem launchRefused {m : Member} {fault : Fault} (done rest : List Member)
    (fate : m.fate = .refused fault) :
    launch (handing done) (m :: rest) = ⟨handed done,
      some (.cannotStart m.task.stage m.task.invocation.program fault),
      joinDeeds done.length, [.startingPiped m.task]⟩ := by
  simp only [launch, handingTaken, joinDeedHanded, fate]

theorem launchReaches (done before after : List Member) (begun : ∀ b ∈ before, b.fate.starts = true) :
    launch (childrenBefore done (before ++ after)) (before ++ after) =
      (launch (childrenBefore (done ++ before) after) after).behind
        (startDeeds done.length before.length) (before.map fun m => .startingPiped m.task) := by
  induction before generalizing done with
  | nil => simp [Launch.behind, startDeeds]
  | cons m rest ih =>
    have starts := begun m (by simp)
    have later : ∀ b ∈ rest, b.fate.starts = true := fun b member => begun b (by simp [member])
    have head : launch (childrenBefore done (m :: (rest ++ after))) (m :: (rest ++ after)) = _ :=
      launchStarts done (rest ++ after) starts
    rw [List.cons_append, head, ih (done ++ [m]) later]
    simp [Launch.behind, startDeeds, List.range'_succ]

theorem launchFromStart (members : List Member) :
    launch [] members = launch (childrenBefore [] members) members := by
  cases members <;> rfl

theorem launchComplete {members : List Member} (begun : ∀ m ∈ members, m.fate.starts = true) :
    launch [] members = ⟨handed members, none, startDeeds 0 members.length,
      members.map fun m => .startingPiped m.task⟩ := by
  have run := launchReaches [] members [] begun
  rw [List.append_nil, ← launchFromStart] at run
  rw [run]
  simp [launch, childrenBefore, Launch.behind]

theorem launchStopped {before rest : List Member} {m : Member} {fault : Fault}
    (begun : ∀ b ∈ before, b.fate.starts = true) (fate : m.fate = .refused fault) :
    launch [] (before ++ m :: rest) = ⟨handed before,
      some (.cannotStart m.task.stage m.task.invocation.program fault),
      startDeeds 0 before.length ++ joinDeeds before.length,
      before.map (fun m => .startingPiped m.task) ++ [.startingPiped m.task]⟩ := by
  have run := launchReaches [] before (m :: rest) begun
  rw [← launchFromStart] at run
  rw [run]
  simp only [childrenBefore, List.nil_append, launchRefused before rest fate, Launch.behind]
  rfl

inductive Course : List Member → Except Failure Unit → List Deed → Prop where
  | refused {before m rest fault} (begun : ∀ b ∈ before, b.fate.starts = true)
      (fate : m.fate = .refused fault) :
      Course (before ++ m :: rest)
        (.error (.cannotStart m.task.stage m.task.invocation.program fault))
        (startDeeds 0 before.length ++ joinDeeds before.length ++ killDeeds before.length)
  | lost {before m rest fault} (ended : ∀ b ∈ before, ∃ status, b.fate = .ended status)
      (fate : m.fate = .lost fault) (begun : ∀ b ∈ rest, b.fate.starts = true) :
      Course (before ++ m :: rest)
        (.error (.cannotWait m.task.stage m.task.invocation.program fault))
        (startDeeds 0 (before ++ m :: rest).length ++ reapDeeds (before ++ m :: rest).length)
  | succeeded {runs : List (Task × Status)} (nobody : blamed? (runs.map Prod.snd) = none) :
      Course (runs.map endedMember) (.ok ()) (startDeeds 0 runs.length ++ reapDeeds runs.length)
  | blamed {runs : List (Task × Status)} {n run} (position : blamed? (runs.map Prod.snd) = some n)
      (found : runs[n]? = some run) :
      Course (runs.map endedMember) (verdict run.1 run.2)
        (startDeeds 0 runs.length ++ reapDeeds runs.length)

theorem statusesLost {before rest : List Member} {m : Member} {fault : Fault}
    (ended : ∀ b ∈ before, ∃ status, b.fate = .ended status) (fate : m.fate = .lost fault) :
    statuses (handed (before ++ m :: rest)) =
      .error (.cannotWait m.task.stage m.task.invocation.program fault) := by
  induction before with
  | nil => simp [handed, statuses, fate]
  | cons first before ih =>
    obtain ⟨status, last⟩ := ended first (by simp)
    have later := ih fun b member => ended b (by simp [member])
    have head : handed (first :: before ++ m :: rest) = ⟨first, false⟩ :: handed (before ++ m :: rest) :=
      rfl
    simp only [head, statuses, last, later, Except.map]

theorem superviseStopped {before rest : List Member} {m : Member} {fault : Fault}
    (begun : ∀ b ∈ before, b.fate.starts = true) (fate : m.fate = .refused fault) :
    (supervise (before ++ m :: rest)).result =
        .error (.cannotStart m.task.stage m.task.invocation.program fault) ∧
      (supervise (before ++ m :: rest)).deeds =
        startDeeds 0 before.length ++ joinDeeds before.length ++ killDeeds before.length := by
  simp only [supervise, launchStopped begun fate, abortDeedsExact, true_and]
  simp [killDeeds, handed, List.range_eq_range']

theorem superviseComplete {members : List Member} (begun : ∀ m ∈ members, m.fate.starts = true) :
    (supervise members).deeds = startDeeds 0 members.length ++ reapDeeds members.length := by
  have waits : waitDeeds 0 (handed members) = reapDeeds members.length := by
    rw [waitDeedsExact]
    simp [reapDeeds, handed, List.range_eq_range']
  simp only [supervise, launchComplete begun, waits]
  split <;> rfl

theorem endedStarts (runs : List (Task × Status)) :
    ∀ m ∈ runs.map endedMember, m.fate.starts = true := by
  intro m member
  obtain ⟨run, _, rfl⟩ := List.mem_map.mp member
  rfl

theorem courseSound {members : List Member} {result : Except Failure Unit} {deeds : List Deed}
    (course : Course members result deeds) :
    (supervise members).result = result ∧ (supervise members).deeds = deeds := by
  cases course with
  | refused begun fate => exact superviseStopped begun fate
  | @lost before m rest fault ended fate begun =>
    have all : ∀ b ∈ before ++ m :: rest, b.fate.starts = true := by
      intro b member
      rcases List.mem_append.mp member with early | late
      · obtain ⟨status, last⟩ := ended b early
        rw [last]
        rfl
      · rcases List.mem_cons.mp late with rfl | later
        · rw [fate]
          rfl
        · exact begun b later
    refine ⟨?_, superviseComplete all⟩
    simp only [supervise, launchComplete all, statusesLost ended fate]
  | @succeeded runs nobody =>
    have complete := superviseComplete (endedStarts runs)
    rw [List.length_map] at complete
    refine ⟨?_, complete⟩
    rw [superviseEnded, judge, nobody]
  | @blamed runs n run position found =>
    have complete := superviseComplete (endedStarts runs)
    rw [List.length_map] at complete
    refine ⟨?_, complete⟩
    have atTask : (runs.map Prod.fst)[n]? = some run.1 := by simp [found]
    have atStatus : (runs.map Prod.snd)[n]? = some run.2 := by simp [found]
    rw [superviseEnded]
    simp only [judge, position, atTask, atStatus]

theorem blamedRun {runs : List (Task × Status)} {n : Nat}
    (position : blamed? (runs.map Prod.snd) = some n) :
    ∃ run, runs[n]? = some run ∧ run.2.succeeded = false := by
  obtain ⟨status, atStatus, bad⟩ := blamedFailed position
  have pair : ∃ run, runs[n]? = some run ∧ run.2 = status := by simpa using atStatus
  obtain ⟨run, found, same⟩ := pair
  exact ⟨run, found, same ▸ bad⟩

theorem lostOrEnded {members : List Member} (begun : ∀ m ∈ members, m.fate.starts = true) :
    (∃ before m rest fault, members = before ++ m :: rest ∧
      (∀ b ∈ before, ∃ status, b.fate = .ended status) ∧ m.fate = .lost fault) ∨
      ∃ runs : List (Task × Status), members = runs.map endedMember := by
  induction members with
  | nil => exact .inr ⟨[], rfl⟩
  | cons m rest ih =>
    cases fate : m.fate with
    | refused fault =>
      have starts := begun m (by simp)
      simp [fate, Fate.starts] at starts
    | lost fault => exact .inl ⟨[], m, rest, fault, rfl, by simp, fate⟩
    | ended status =>
      rcases ih fun b member => begun b (by simp [member]) with
        ⟨before, other, later, fault, rfl, ended, lost⟩ | ⟨runs, rfl⟩
      · refine .inl ⟨m :: before, other, later, fault, rfl, ?_, lost⟩
        intro b member
        rcases List.mem_cons.mp member with rfl | inside
        · exact ⟨status, fate⟩
        · exact ended b inside
      · refine .inr ⟨(m.task, status) :: runs, ?_⟩
        obtain ⟨task, _⟩ := m
        simp only at fate
        simp [endedMember, fate]

theorem refusedOrBegun (members : List Member) :
    (∃ before m rest fault, members = before ++ m :: rest ∧
      (∀ b ∈ before, b.fate.starts = true) ∧ m.fate = .refused fault) ∨
      ∀ m ∈ members, m.fate.starts = true := by
  have begun : ∀ m ∈ startable members, m.fate.starts = true := List.all_eq_true.mp List.all_takeWhile
  rcases startableSplit members with ⟨_, all⟩ | ⟨m, fault, rest, split, fate, _⟩
  · rw [all] at begun
    exact .inr begun
  · exact .inl ⟨startable members, m, rest, fault, split, begun, fate⟩

theorem courseExists (members : List Member) : ∃ result deeds, Course members result deeds := by
  rcases refusedOrBegun members with ⟨before, m, rest, fault, rfl, begun, fate⟩ | begun
  · exact ⟨_, _, .refused begun fate⟩
  · rcases lostOrEnded begun with ⟨before, m, rest, fault, rfl, ended, lost⟩ | ⟨runs, rfl⟩
    · exact ⟨_, _, .lost ended lost fun b member => begun b (by simp [member])⟩
    · cases position : blamed? (runs.map Prod.snd) with
      | none => exact ⟨_, _, .succeeded position⟩
      | some n =>
        obtain ⟨run, found, _⟩ := blamedRun position
        exact ⟨_, _, .blamed position found⟩

theorem courseExact (members : List Member) (result : Except Failure Unit) (deeds : List Deed) :
    Course members result deeds ↔
      (supervise members).result = result ∧ (supervise members).deeds = deeds := by
  refine ⟨courseSound, ?_⟩
  rintro ⟨rfl, rfl⟩
  obtain ⟨result, deeds, course⟩ := courseExists members
  obtain ⟨same, done⟩ := courseSound course
  rw [same, done]
  exact course

theorem startableBefore {before rest : List Member} {m : Member} {fault : Fault}
    (begun : ∀ b ∈ before, b.fate.starts = true) (fate : m.fate = .refused fault) :
    startable (before ++ m :: rest) = before := by
  rw [startable, List.takeWhile_append_of_pos begun]
  simp [fate, Fate.starts]

theorem startableBegun {members : List Member} (begun : ∀ m ∈ members, m.fate.starts = true) :
    startable members = members := by
  have whole : (members ++ []).takeWhile (fun m => m.fate.starts) = members ++ [] :=
    List.takeWhile_append_of_pos begun
  simpa [startable] using whole

theorem childrenHanded (members : List Member) :
    (launch [] members).children = handed (startable members) := by
  rcases refusedOrBegun members with ⟨before, m, rest, fault, rfl, begun, fate⟩ | begun
  · rw [launchStopped begun fate, startableBefore begun fate]
  · rw [launchComplete begun, startableBegun begun]

def joinedPosition? : Deed → Option Nat
  | .joined n => some n
  | _ => none

theorem startJoins (count : Nat) :
    (startDeeds 0 count).filterMap joinedPosition? = (List.range count).tail := by
  induction count with
  | zero => rfl
  | succ count ih =>
    have last : startDeeds 0 (count + 1) = startDeeds 0 count ++ (joinDeeds count ++ [.started count]) := by
      simp [startDeeds, List.range'_1_concat]
    rw [last, List.filterMap_append, ih, List.range_succ]
    cases count with
    | zero => rfl
    | succ count => simp [joinDeeds, joinedPosition?, List.range_succ_eq_map]

def tried (members : List Member) : Nat := (members.take ((startable members).length + 1)).length

theorem joinedPositions (members : List Member) :
    (supervise members).deeds.filterMap joinedPosition? = (List.range (tried members)).tail := by
  rcases refusedOrBegun members with ⟨before, m, rest, fault, rfl, begun, fate⟩ | begun
  · have kills : (killDeeds before.length).filterMap joinedPosition? = [] := by
      rw [List.filterMap_eq_nil_iff]
      intro deed member
      obtain ⟨n, _, rfl | rfl⟩ : ∃ n, n < before.length ∧ (deed = .killed n ∨ deed = .waited n) := by
        simpa [killDeeds] using member
      · rfl
      · rfl
    have count : tried (before ++ m :: rest) = before.length + 1 := by
      simp [tried, startableBefore begun fate, List.take_append]
    rw [(superviseStopped begun fate).2, List.filterMap_append, kills, count, ← startJoins]
    simp [startDeeds, List.range'_1_concat, joinedPosition?]
  · have reaps : (reapDeeds members.length).filterMap joinedPosition? = [] := by
      simp [reapDeeds, joinedPosition?]
    have count : tried members = members.length := by simp [tried, startableBegun begun]
    rw [superviseComplete begun, List.filterMap_append, reaps, count, List.append_nil, startJoins]

theorem killedRefused {members : List Member} {n : Nat} (killed : .killed n ∈ (supervise members).deeds) :
    ∃ stage program fault, (supervise members).result = .error (.cannotStart stage program fault) := by
  rcases refusedOrBegun members with ⟨before, m, rest, fault, rfl, begun, fate⟩ | begun
  · exact ⟨_, _, _, (superviseStopped begun fate).1⟩
  · rw [superviseComplete begun] at killed
    simp [startDeeds, joinDeeds, reapDeeds] at killed

theorem neverDisconnected (members : List Member) (stage : Stage) :
    (supervise members).result ≠ .error (.disconnected stage) := by
  obtain ⟨result, deeds, course⟩ := courseExists members
  rw [(courseSound course).1]
  cases course with
  | refused begun fate => simp
  | lost ended fate begun => simp
  | succeeded nobody => simp
  | blamed position found =>
    intro failed
    cases (verdictError failed).2

structure Supervises (members : List Member) : Prop where
  connected : ∀ stage, (supervise members).result ≠ .error (.disconnected stage)
  waiting : ∀ before m rest, members = before ++ m :: rest → (∀ b ∈ before, b.fate.starts = true) →
    takeOutlet (handing before) = some (handed before) ∧
    launch [] members = (launch (handing before) (m :: rest)).behind (startDeeds 0 before.length)
      (before.map fun b => .startingPiped b.task)
  taken : (launch [] members).children = handed (startable members)
  joined : (supervise members).deeds.filterMap joinedPosition? = (List.range (tried members)).tail
  started : (supervise members).deeds.filterMap startedPosition? =
    List.range (startable members).length
  waited : (supervise members).deeds.filterMap waitedPosition? =
    (supervise members).deeds.filterMap startedPosition?
  killed : ∀ n, .killed n ∈ (supervise members).deeds →
    ∃ stage program fault, (supervise members).result = .error (.cannotStart stage program fault)
  course : ∀ result deeds, Course members result deeds ↔
    (supervise members).result = result ∧ (supervise members).deeds = deeds

theorem pipeSupervision (members : List Member) : Supervises members where
  connected := neverDisconnected members
  waiting := by
    rintro before m rest rfl begun
    refine ⟨handingTaken before, ?_⟩
    rw [launchFromStart]
    exact launchReaches [] before (m :: rest) begun
  taken := childrenHanded members
  joined := joinedPositions members
  started := startedPositions members
  waited := by rw [waitedPositions, startedPositions]
  killed _ := killedRefused
  course := courseExact members

theorem supervisionOfLostMember :
    let members : List Member := [⟨⟨.compile, "clang", []⟩, .ended (.exited 1)⟩,
      ⟨⟨.optimize, "opt", []⟩, .lost (.system 10)⟩, ⟨⟨.codegen, "llc", []⟩, .lost (.system 4)⟩]
    Course members (.error (.cannotWait .optimize "opt" (.system 10)))
        [.started 0, .joined 1, .started 1, .joined 2, .started 2, .waited 0, .waited 1, .waited 2] ∧
      (supervise members).result = .error (.cannotWait .optimize "opt" (.system 10)) := by
  intro members
  have result : (supervise members).result = .error (.cannotWait .optimize "opt" (.system 10)) := rfl
  exact ⟨((pipeSupervision members).course _ _).mpr ⟨result, rfl⟩, result⟩

end StagedBuild.Supervision

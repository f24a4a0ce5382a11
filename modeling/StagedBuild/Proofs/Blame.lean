import StagedBuild.Proofs.Supervision

/-! Who is blamed for a pipe that failed. The search from left to right comes to a rule by position:
the first member that failed by itself, and without one the last that failed. -/
namespace StagedBuild

def FailedAt (statuses : List Status) (n : Nat) : Prop :=
  ∃ s, statuses[n]? = some s ∧ s.succeeded = false

/- A failure other than that of a writer without a reader. -/
def FailedAloneAt (statuses : List Status) (n : Nat) : Prop :=
  ∃ s, statuses[n]? = some s ∧ s.succeeded = false ∧ s.code ≠ 141

def FirstAlone (statuses : List Status) (n : Nat) : Prop :=
  FailedAloneAt statuses n ∧ ∀ m < n, ¬ FailedAloneAt statuses m

def LastBroken (statuses : List Status) (n : Nat) : Prop :=
  (∀ m, ¬ FailedAloneAt statuses m) ∧ FailedAt statuses n ∧ ∀ m, n < m → ¬ FailedAt statuses m

theorem Status.brokenPipeCode (s : Status) : s.brokenPipe = true ↔ s.code = 141 := by
  simp [brokenPipe, pipeSignal]

@[simp] theorem failedAtHead (s : Status) (rest : List Status) :
    FailedAt (s :: rest) 0 ↔ s.succeeded = false := by
  simp [FailedAt]

@[simp] theorem failedAtTail (s : Status) (rest : List Status) (n : Nat) :
    FailedAt (s :: rest) (n + 1) ↔ FailedAt rest n := by
  simp [FailedAt]

@[simp] theorem failedAloneAtHead (s : Status) (rest : List Status) :
    FailedAloneAt (s :: rest) 0 ↔ s.succeeded = false ∧ s.code ≠ 141 := by
  simp [FailedAloneAt]

@[simp] theorem failedAloneAtTail (s : Status) (rest : List Status) (n : Nat) :
    FailedAloneAt (s :: rest) (n + 1) ↔ FailedAloneAt rest n := by
  simp [FailedAloneAt]

theorem failedAloneFailed {statuses : List Status} {n : Nat} (alone : FailedAloneAt statuses n) :
    FailedAt statuses n := by
  obtain ⟨s, found, failed, _⟩ := alone
  exact ⟨s, found, failed⟩

theorem failedAtSome {statuses : List Status} {n : Nat} (failed : FailedAt statuses n) :
    ¬ ∀ s ∈ statuses, s.succeeded = true := by
  obtain ⟨s, found, bad⟩ := failed
  intro all
  simp [all s (List.mem_of_getElem? found)] at bad

theorem blamedNone (statuses : List Status) :
    blamed? statuses = none ↔ ∀ s ∈ statuses, s.succeeded = true := by
  induction statuses with
  | nil => simp [blamed?]
  | cons s rest ih =>
    cases good : s.succeeded with
    | true => simp [blamed?, good, ih]
    | false =>
      simp only [blamed?, good, Bool.false_eq_true, if_false, List.mem_cons, forall_eq_or_imp,
        false_and, iff_false]
      cases blamed? rest with
      | none => simp
      | some later => cases s.brokenPipe <;> simp

theorem ruleShifted {s : Status} {rest : List Status} {n : Nat}
    (rule : FirstAlone rest n ∨ LastBroken rest n) (head : ¬ (s.succeeded = false ∧ s.code ≠ 141)) :
    FirstAlone (s :: rest) (n + 1) ∨ LastBroken (s :: rest) (n + 1) := by
  rcases rule with ⟨alone, earlier⟩ | ⟨none, failed, later⟩
  · refine .inl ⟨by simpa using alone, ?_⟩
    intro m before
    cases m with
    | zero => simpa using head
    | succ m => simpa using earlier m (by omega)
  · refine .inr ⟨?_, by simpa using failed, ?_⟩
    · intro m
      cases m with
      | zero => simpa using head
      | succ m => simpa using none m
    · intro m after
      cases m with
      | zero => omega
      | succ m => simpa using later m (by omega)

theorem ruleAtHead {s : Status} {rest : List Status} (bad : s.succeeded = false) :
    (s.code ≠ 141 → FirstAlone (s :: rest) 0) ∧
      (s.code = 141 → (∀ t ∈ rest, t.succeeded = true) → LastBroken (s :: rest) 0) := by
  refine ⟨fun alone => ⟨by simp [bad, alone], by omega⟩, fun broken all => ⟨?_, by simp [bad], ?_⟩⟩
  · intro m
    cases m with
    | zero => simp [broken]
    | succ m => exact fun alone => failedAtSome (failedAloneFailed (by simpa using alone)) all
  · intro m after
    cases m with
    | zero => omega
    | succ m => exact fun failed => failedAtSome (by simpa using failed) all

theorem blamedSound {statuses : List Status} {n : Nat} (blamed : blamed? statuses = some n) :
    FirstAlone statuses n ∨ LastBroken statuses n := by
  induction statuses generalizing n with
  | nil => simp [blamed?] at blamed
  | cons s rest ih =>
    cases good : s.succeeded with
    | true =>
      simp only [blamed?, good, if_true, Option.map_eq_some_iff] at blamed
      obtain ⟨later, found, rfl⟩ := blamed
      exact ruleShifted (ih found) (by simp [good])
    | false =>
      simp only [blamed?, good, Bool.false_eq_true, if_false] at blamed
      cases found : blamed? rest with
      | none =>
        simp only [found, Option.some.injEq] at blamed
        subst n
        by_cases broken : s.code = 141
        · exact .inr ((ruleAtHead good).2 broken ((blamedNone rest).mp found))
        · exact .inl ((ruleAtHead good).1 broken)
      | some later =>
        simp only [found] at blamed
        cases broken : s.brokenPipe with
        | true =>
          simp only [broken, if_true, Option.some.injEq] at blamed
          subst n
          exact ruleShifted (ih found) (by simp [s.brokenPipeCode.mp broken])
        | false =>
          simp only [broken, Bool.false_eq_true, if_false, Option.some.injEq] at blamed
          subst n
          have alone : s.code ≠ 141 := fun code => by simp [s.brokenPipeCode.mpr code] at broken
          exact .inl ((ruleAtHead good).1 alone)

theorem ruleUnique {statuses : List Status} {n m : Nat}
    (left : FirstAlone statuses n ∨ LastBroken statuses n)
    (right : FirstAlone statuses m ∨ LastBroken statuses m) : n = m := by
  rcases left with ⟨aloneN, earlierN⟩ | ⟨noneN, failedN, laterN⟩ <;>
    rcases right with ⟨aloneM, earlierM⟩ | ⟨noneM, failedM, laterM⟩
  · rcases Nat.lt_trichotomy n m with before | same | after
    · exact absurd aloneN (earlierM n before)
    · exact same
    · exact absurd aloneM (earlierN m after)
  · exact absurd aloneN (noneM n)
  · exact absurd aloneM (noneN m)
  · rcases Nat.lt_trichotomy n m with before | same | after
    · exact absurd failedM (laterN m before)
    · exact same
    · exact absurd failedN (laterM n after)

theorem blamedExact (statuses : List Status) (n : Nat) :
    blamed? statuses = some n ↔ FirstAlone statuses n ∨ LastBroken statuses n := by
  refine ⟨blamedSound, fun rule => ?_⟩
  have failed : FailedAt statuses n := by
    rcases rule with first | last
    · exact failedAloneFailed first.1
    · exact last.2.1
  cases found : blamed? statuses with
  | none => exact absurd ((blamedNone statuses).mp found) (failedAtSome failed)
  | some other => rw [ruleUnique (blamedSound found) rule]

theorem blamedFailed {statuses : List Status} {n : Nat} (blamed : blamed? statuses = some n) :
    ∃ s, statuses[n]? = some s ∧ s.succeeded = false := by
  rcases blamedSound blamed with first | last
  · exact failedAloneFailed first.1
  · exact last.2.1

theorem verdictFailed {task : Task} {status : Status} (bad : status.succeeded = false) :
    verdict task status =
      .error (.stageFailed task.stage task.invocation.program status.code) := by
  simp [verdict, bad]

namespace Supervision

theorem judgeBlamed {runs : List (Task × Status)} {n : Nat}
    (blamed : blamed? (runs.map Prod.snd) = some n) :
    ∃ task status, (runs.map Prod.fst)[n]? = some task ∧ (runs.map Prod.snd)[n]? = some status ∧
      status.succeeded = false ∧
      (judge (runs.map Prod.fst) (runs.map Prod.snd)).1 = verdict task status := by
  obtain ⟨status, found, bad⟩ := blamedFailed blamed
  have pair : ∃ run, runs[n]? = some run ∧ run.2 = status := by simpa using found
  obtain ⟨run, atRun, _⟩ := pair
  have atTask : (runs.map Prod.fst)[n]? = some run.1 := by simp [atRun]
  exact ⟨run.1, status, atTask, found, bad, by simp only [judge, blamed, atTask, found]⟩

end Supervision

open Supervision in
theorem pipeBlame :
    (∀ statuses : List Status,
      (blamed? statuses = none ↔ ∀ s ∈ statuses, s.succeeded = true) ∧
      ∀ n, blamed? statuses = some n ↔ FirstAlone statuses n ∨ LastBroken statuses n) ∧
    ∀ runs : List (Task × Status),
      ((supervise (runs.map endedMember)).result = .ok () ↔ ∀ run ∈ runs, run.2.succeeded = true) ∧
      ∀ n, blamed? (runs.map Prod.snd) = some n →
        ∃ task status, (runs.map Prod.fst)[n]? = some task ∧ (runs.map Prod.snd)[n]? = some status ∧
          verdict task status ≠ .ok () ∧
          (supervise (runs.map endedMember)).result =
            .error (.stageFailed task.stage task.invocation.program status.code) := by
  refine ⟨fun statuses => ⟨blamedNone statuses, blamedExact statuses⟩, fun runs => ⟨?_, ?_⟩⟩
  · rw [superviseEnded]
    have all := blamedNone (runs.map Prod.snd)
    simp only [List.mem_map, forall_exists_index, and_imp, forall_apply_eq_imp_iff₂] at all
    rw [← all]
    cases blamed : blamed? (runs.map Prod.snd) with
    | none => simp [judge, blamed]
    | some n =>
      obtain ⟨task, status, _, _, bad, judged⟩ := judgeBlamed blamed
      simp [judged, verdictFailed bad]
  · intro n blamed
    obtain ⟨task, status, atTask, atStatus, bad, judged⟩ := judgeBlamed blamed
    refine ⟨task, status, atTask, atStatus, by simp [verdictFailed bad], ?_⟩
    rw [superviseEnded, judged, verdictFailed bad]

open Supervision in
theorem blameBehindBrokenPipes :
    let runs : List (Task × Status) :=
      [(⟨.compile, ⟨"clang", []⟩⟩, .killed 13), (⟨.optimize, ⟨"opt", []⟩⟩, .exited 141),
        (⟨.codegen, ⟨"llc", []⟩⟩, .exited 3), (⟨.link, ⟨"clang", []⟩⟩, .exited 1)]
    blamed? (runs.map Prod.snd) = some 2 ∧
      (supervise (runs.map endedMember)).result = .error (.stageFailed .codegen "llc" 3) := by
  intro runs
  have position : blamed? (runs.map Prod.snd) = some 2 := by decide
  obtain ⟨task, status, atTask, atStatus, _, failed⟩ := (pipeBlame.2 runs).2 2 position
  cases Option.some.inj atTask
  cases Option.some.inj atStatus
  exact ⟨position, failed⟩

end StagedBuild

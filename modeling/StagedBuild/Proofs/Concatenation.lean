import StagedBuild.Proofs.Positions

/-! Two command lines read one behind the other. Only an `-o` that still waits for its value at the end of
the first reaches over the cut; otherwise each is read as it would be alone, and of their inputs those next
to the cut are the only ones that meet. -/
namespace StagedBuild

theorem pendingAppend (value : Bool) (a b : List String) :
    pending value (a ++ b) = pending (pending value a) b := by
  induction a generalizing value with
  | nil => rfl
  | cons word rest ih => exact ih (valueNext value word)

theorem rolesAppend (value : Bool) (a b : List String) :
    rolesFrom value (a ++ b) = rolesFrom value a ++ rolesFrom (pending value a) b := by
  induction a generalizing value with
  | nil => rfl
  | cons word rest ih => simp only [List.cons_append, rolesFrom, pending, ih]

theorem pickedAppend (role : Role) (value : Bool) (a b : List String) :
    picked role value (a ++ b) = picked role value a ++ picked role (pending value a) b := by
  simp only [picked, rolesAppend, List.filter_append, List.map_append]

theorem wordsOfAppend {a : List String} (complete : endsInFlag a = false) (role : Role) (b : List String) :
    wordsOf role (a ++ b) = wordsOf role a ++ wordsOf role b := by
  rw [endsInFlagPending] at complete
  simp only [wordsOfPicked, pickedAppend, complete]

theorem endsInFlagAppend {a : List String} (complete : endsInFlag a = false) (b : List String) :
    endsInFlag (a ++ b) = endsInFlag b := by
  rw [endsInFlagPending] at complete
  simp only [endsInFlagPending, pendingAppend, complete]

theorem wordsOfValue {a : List String} (waits : endsInFlag a = true) (role : Role) (value : String) :
    wordsOf role (a ++ [value]) = wordsOf role a ++ if role = .value then [value] else [] := by
  have alone : picked role true [value] = if role = .value then [value] else [] := by
    have taken : roleOf true value = .value := rfl
    simp only [pickedNext, taken, eq_comm (a := Role.value)]
    exact List.append_nil _
  rw [endsInFlagPending] at waits
  simp only [wordsOfPicked, pickedAppend, waits, alone]

theorem endsInFlagValue {a : List String} (waits : endsInFlag a = true) (value : String) :
    endsInFlag (a ++ [value]) = false := by
  rw [endsInFlagPending] at waits
  simp [endsInFlagPending, pendingAppend, waits, pending, valueNext]

def bridge (last first : Option String) : List Notice :=
  match last, first with
  | some previous, some kept => [.dropped kept previous]
  | _, _ => []

theorem replacementsAppend (a b : List String) :
    replacements (a ++ b) = replacements a ++ bridge a.getLast? b.head? ++ replacements b := by
  induction a with
  | nil => rfl
  | cons first rest ih =>
    cases rest with
    | nil =>
      cases b with
      | nil => rfl
      | cons next b => rfl
    | cons second rest =>
      simp only [List.cons_append, replacementsNext, List.getLast?_cons_cons] at ih ⊢
      rw [ih]

theorem replacementsDropOnly (inputs : List String) : .missingValue ∉ replacements inputs := by
  induction inputs with
  | nil => simp [replacements]
  | cons first rest ih =>
    cases rest with
    | nil => simp [replacements]
    | cons second rest => simpa [replacementsNext] using ih

theorem missingNoticed (words : List String) :
    .missingValue ∈ (readWords words).notices ↔ endsInFlag words = true := by
  rw [readByRole, List.mem_append]
  cases endsInFlag words <;> simp [replacementsDropOnly]

def Reading.joined (a b : Reading) (first : Option String) : Reading where
  request :=
    { output := b.request.output.or a.request.output
      input := b.request.input.or a.request.input
      passthrough := a.request.passthrough ++ b.request.passthrough }
  notices := a.notices ++ bridge a.request.input first ++ b.notices

theorem readJoined {a : List String} (complete : endsInFlag a = false) (b : List String) :
    readWords (a ++ b) = (readWords a).joined (readWords b) (wordsOf .input b).head? := by
  rw [readByRole (a ++ b), readByRole a, readByRole b]
  simp only [wordsOfAppend complete, endsInFlagAppend complete, complete, replacementsAppend,
    List.getLast?_append, Reading.joined, Bool.false_eq_true, if_false, List.append_nil,
    List.append_assoc]

theorem readValue {a : List String} (waits : endsInFlag a = true) (value : String) :
    readWords (a ++ [value]) =
      ⟨{ (readWords a).request with output := some value }, (readWords a).notices.dropLast⟩ := by
  rw [readByRole (a ++ [value]), readByRole a]
  simp only [wordsOfValue waits, endsInFlagValue waits, waits, reduceCtorEq, if_true, if_false,
    List.append_nil, List.getLast?_concat, Bool.false_eq_true, List.dropLast_concat]

structure Concatenates (a : List String) : Prop where
  apart : .missingValue ∉ (readWords a).notices → ∀ b,
    readWords (a ++ b) = (readWords a).joined (readWords b) (wordsOf .input b).head?
  waiting : .missingValue ∈ (readWords a).notices → ∃ earlier,
    (readWords a).notices = earlier ++ [.missingValue] ∧ .missingValue ∉ earlier ∧ ∀ value,
      readWords (a ++ [value]) = ⟨{ (readWords a).request with output := some value }, earlier⟩ ∧
      ∀ b, readWords (a ++ value :: b) =
        (readWords (a ++ [value])).joined (readWords b) (wordsOf .input b).head?

theorem wordsConcatenate (a : List String) : Concatenates a where
  apart complete b := by
    rw [missingNoticed, Bool.not_eq_true] at complete
    exact readJoined complete b
  waiting missing := by
    have waits := (missingNoticed a).mp missing
    have ends : (readWords a).notices = replacements (wordsOf .input a) ++ [.missingValue] := by
      rw [readByRole, waits]
      rfl
    refine ⟨_, ends, replacementsDropOnly _, fun value => ⟨?_, fun b => ?_⟩⟩
    · rw [readValue waits, ends, List.dropLast_concat]
    · rw [← readJoined (endsInFlagValue waits value), List.append_assoc, List.singleton_append]

theorem bridgeBehindValue :
    let a := ["a.c", "-Wall", "b.o", "-o"]
    let b := ["c.o", "-o", "d.c", "-g", "e.c", "-o"]
    let all : Reading := ⟨⟨some "d.c", some "e.c", ["-Wall", "-g"]⟩,
      [.dropped "b.o" "a.c", .dropped "c.o" "b.o", .dropped "e.c" "c.o", .missingValue]⟩
    .missingValue ∈ (readWords a).notices ∧ readWords (a ++ "x.c" :: b) = all ∧
      .missingValue ∉ (readWords (a ++ ["x.c"])).notices ∧ readWords (a ++ ["x.c"] ++ b) = all := by
  intro a b all
  have waits : .missingValue ∈ (readWords a).notices := by decide
  have taken : .missingValue ∉ (readWords (a ++ ["x.c"])).notices := by decide
  obtain ⟨_, _, _, valued⟩ := (wordsConcatenate a).waiting waits
  refine ⟨waits, ?_, taken, ?_⟩
  · rw [(valued "x.c").2 b]
    decide
  · rw [(wordsConcatenate (a ++ ["x.c"])).apart taken b]
    decide

end StagedBuild

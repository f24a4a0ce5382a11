import StagedBuild.Proofs.Reading

/-! The words of a command line by their positions. Whether a word is the value of an `-o` can be told from
the run of `-o` right before it; every word then has one role in what is read, and none has two. -/
namespace StagedBuild

def flagRun (before : List String) : Nat := (before.reverse.takeWhile (· == "-o")).length

def isValueAt (words : List String) (i : Nat) : Bool := flagRun (words.take i) % 2 == 1

inductive Role where
  | value
  | flag
  | input
  | plain
  deriving DecidableEq, Repr

def roleOf (value : Bool) (word : String) : Role :=
  if value then .value
  else if word = "-o" then .flag
  else if isInput word then .input
  else .plain

def wordsOf (role : Role) (words : List String) : List String :=
  (words.zipIdx.filter fun (word, i) => roleOf (isValueAt words i) word = role).map Prod.fst

def endsInFlag (words : List String) : Bool :=
  words.getLast? = some "-o" && !isValueAt words (words.length - 1)

def replacements (inputs : List String) : List Notice :=
  List.zipWith (fun previous kept => .dropped kept previous) inputs inputs.tail

def Notice.discarded? : Notice → Option String
  | .dropped _ previous => some previous
  | .missingValue => none

def valueNext (value : Bool) (word : String) : Bool := word = "-o" && !value

theorem flagRunNext (before : List String) (word : String) :
    (flagRun (before ++ [word]) % 2 == 1) = valueNext (flagRun before % 2 == 1) word := by
  by_cases flag : word = "-o"
  · have longer : flagRun (before ++ [word]) = flagRun before + 1 := by
      simp [flagRun, flag]
    rw [longer]
    rcases Nat.mod_two_eq_zero_or_one (flagRun before) with even | odd
    · simp [valueNext, flag, Nat.add_mod, even]
    · simp [valueNext, flag, Nat.add_mod, odd]
  · have none : flagRun (before ++ [word]) = 0 := by
      simp [flagRun, flag]
    simp [none, valueNext, flag]

def rolesFrom (value : Bool) : List String → List (Role × String)
  | [] => []
  | word :: rest => (roleOf value word, word) :: rolesFrom (valueNext value word) rest

def pending (value : Bool) : List String → Bool
  | [] => value
  | word :: rest => pending (valueNext value word) rest

theorem rolesAt (before rest : List String) :
    (rest.zipIdx before.length).map
        (fun (word, i) => (roleOf (isValueAt (before ++ rest) i) word, word)) =
      rolesFrom (flagRun before % 2 == 1) rest := by
  induction rest generalizing before with
  | nil => rfl
  | cons word rest ih =>
    have tail := ih (before ++ [word])
    have here : isValueAt (before ++ word :: rest) before.length = (flagRun before % 2 == 1) := by
      simp [isValueAt]
    simp only [List.length_append, List.length_singleton, List.append_assoc, List.singleton_append,
      flagRunNext] at tail
    rw [List.zipIdx_cons, List.map_cons, tail]
    simp only [here, rolesFrom]

theorem pendingAt (before rest : List String) :
    pending (flagRun before % 2 == 1) rest = (flagRun (before ++ rest) % 2 == 1) := by
  induction rest generalizing before with
  | nil => simp [pending]
  | cons word rest ih =>
    rw [pending, ← flagRunNext, ih, List.append_assoc, List.singleton_append]

def picked (role : Role) (value : Bool) (words : List String) : List String :=
  ((rolesFrom value words).filter fun entry => entry.1 = role).map Prod.snd

theorem wordsOfPicked (role : Role) (words : List String) : wordsOf role words = picked role false words := by
  have told := rolesAt [] words
  rw [List.nil_append, List.length_nil] at told
  have start : (flagRun [] % 2 == 1) = false := rfl
  rw [start] at told
  rw [picked, ← told, List.filter_map, List.map_map]
  rfl

theorem endsInFlagPending (words : List String) : endsInFlag words = pending false words := by
  have start : (flagRun [] % 2 == 1) = false := rfl
  rw [← start, pendingAt, List.nil_append]
  rcases List.eq_nil_or_concat words with rfl | ⟨before, word, rfl⟩
  · rfl
  · rw [List.concat_eq_append, flagRunNext]
    simp [endsInFlag, isValueAt, valueNext]

theorem pickedNext (role : Role) (value : Bool) (word : String) (rest : List String) :
    picked role value (word :: rest) =
      (if roleOf value word = role then [word] else []) ++ picked role (valueNext value word) rest := by
  simp only [picked, rolesFrom, List.filter_cons]
  split <;> simp_all

theorem pickedPair (role : Role) (word : String) (rest : List String) :
    picked role false ("-o" :: word :: rest) =
      (if role = .flag then ["-o"] else []) ++ (if role = .value then [word] else []) ++
        picked role false rest := by
  have flag : roleOf false "-o" = .flag := rfl
  have value : roleOf true word = .value := rfl
  have waits : valueNext false "-o" = true := rfl
  have taken : valueNext true word = false := by simp [valueNext]
  rw [pickedNext, pickedNext, flag, waits, value, taken, List.append_assoc]
  simp only [eq_comm]

theorem pickedOrdinary (role : Role) {word : String} (rest : List String) (ordinary : word ≠ "-o") :
    picked role false (word :: rest) =
      (if role = (if isInput word then .input else .plain) then [word] else []) ++
        picked role false rest := by
  have next : valueNext false word = false := by simp [valueNext, ordinary]
  rw [pickedNext, next]
  simp only [roleOf, ordinary, Bool.false_eq_true, if_false, eq_comm]

theorem replacementsNext (first second : String) (rest : List String) :
    replacements (first :: second :: rest) = .dropped second first :: replacements (second :: rest) := rfl

def missing (words : List String) : List Notice := if pending false words then [.missingValue] else []

theorem missingPair (word : String) (rest : List String) : missing ("-o" :: word :: rest) = missing rest := by
  have waits : valueNext false "-o" = true := rfl
  have taken : valueNext true word = false := by simp [valueNext]
  simp [missing, pending, waits, taken]

theorem missingOrdinary {word : String} (rest : List String) (ordinary : word ≠ "-o") :
    missing (word :: rest) = missing rest := by
  have next : valueNext false word = false := by simp [valueNext, ordinary]
  simp [missing, pending, next]

theorem replacementsSingle (input : Option String) : replacements input.toList = [] := by
  cases input <;> rfl

theorem addWordsByRole (r : Reading) (words : List String) :
    r.addWords words =
      ⟨⟨(picked .value false words).getLast?.or r.request.output,
          (picked .input false words).getLast?.or r.request.input,
          r.request.passthrough ++ picked .plain false words⟩,
        r.notices ++ replacements (r.request.input.toList ++ picked .input false words) ++
          missing words⟩ := by
  fun_induction Reading.addWords r words with
  | case1 r =>
    have none (role : Role) : picked role false [] = [] := rfl
    have complete : missing [] = [] := rfl
    simp [none, complete, replacementsSingle]
  | case2 r =>
    have noValue : picked .value false ["-o"] = [] := rfl
    have noInput : picked .input false ["-o"] = [] := rfl
    have noPlain : picked .plain false ["-o"] = [] := rfl
    have waits : missing ["-o"] = [.missingValue] := rfl
    simp [noValue, noInput, noPlain, waits, replacementsSingle, Reading.missValue]
  | case3 r value rest ih =>
    rw [ih, missingPair]
    simp only [pickedPair, Reading.setOutput]
    simp [List.getLast?_cons]
  | case4 r word rest ordinary ih =>
    rw [ih, missingOrdinary rest ordinary]
    simp only [pickedOrdinary _ rest ordinary]
    unfold Reading.addWord
    split
    · cases before : r.request.input with
      | none => simp [Reading.setInput, before, List.getLast?_cons]
      | some previous => simp [Reading.setInput, before, List.getLast?_cons, replacementsNext]
    · simp [Reading.passOn]

theorem pickedLength (role : Role) (value : Bool) (word : String) (rest : List String) :
    (picked role value (word :: rest)).length =
      (if roleOf value word = role then 1 else 0) + (picked role (valueNext value word) rest).length := by
  rw [pickedNext, List.length_append]
  split <;> rfl

theorem waitingStep (value : Bool) (word : String) :
    (if roleOf value word = .flag then 1 else 0) + value.toNat =
      (if roleOf value word = .value then 1 else 0) + (valueNext value word).toNat := by
  cases value with
  | true => simp [roleOf, valueNext]
  | false =>
    by_cases flag : word = "-o"
    · simp [roleOf, valueNext, flag]
    · by_cases isIn : isInput word = true <;> simp [roleOf, valueNext, flag, isIn]

theorem flagsPaired (value : Bool) (words : List String) :
    (picked .flag value words).length + value.toNat =
      (picked .value value words).length + (pending value words).toNat := by
  induction words generalizing value with
  | nil => simp [picked, rolesFrom, pending]
  | cons word rest ih =>
    have step := waitingStep value word
    have tail := ih (valueNext value word)
    rw [pickedLength, pickedLength, pending]
    omega

theorem everyWordPicked (value : Bool) (words : List String) :
    words.length = (picked .value value words).length + (picked .flag value words).length +
      (picked .input value words).length + (picked .plain value words).length := by
  induction words generalizing value with
  | nil => rfl
  | cons word rest ih =>
    have tail := ih (valueNext value word)
    simp only [pickedLength, List.length_cons]
    cases roleOf value word <;> simp <;> omega

theorem replacementsDiscard (inputs : List String) :
    (replacements inputs).filterMap Notice.discarded? = inputs.dropLast := by
  induction inputs with
  | nil => rfl
  | cons first rest ih =>
    cases rest with
    | nil => rfl
    | cons second rest =>
      simp only [replacementsNext, List.filterMap_cons, Notice.discarded?, List.dropLast_cons_cons, ih]

theorem readByRole (words : List String) :
    readWords words =
      ⟨⟨(wordsOf .value words).getLast?, (wordsOf .input words).getLast?, wordsOf .plain words⟩,
        replacements (wordsOf .input words) ++ if endsInFlag words then [.missingValue] else []⟩ := by
  have read : readWords words = _ := addWordsByRole {} words
  simpa [← wordsOfPicked, missing, ← endsInFlagPending] using read

structure ReadByPosition (words : List String) : Prop where
  output : (readWords words).request.output = (wordsOf .value words).getLast?
  input : (readWords words).request.input = (wordsOf .input words).getLast?
  passthrough : (readWords words).request.passthrough = wordsOf .plain words
  notices : (readWords words).notices = replacements (wordsOf .input words) ++
    if endsInFlag words then [.missingValue] else []
  texts : (readWords words).notices.map Notice.message =
    List.zipWith (fun previous kept =>
        kept ++ ": multiple inputs, ignoring earlier input '" ++ previous ++ "'")
      (wordsOf .input words) (wordsOf .input words).tail ++
    if endsInFlag words then ["-o: missing required value"] else []
  accounted : words.length = 2 * (wordsOf .value words).length + (endsInFlag words).toNat +
    (wordsOf .input words).length + (readWords words).request.passthrough.length
  plain : ∀ word ∈ (readWords words).request.passthrough, word ≠ "-o" ∧ isInput word = false
  discarded : (readWords words).notices.filterMap Notice.discarded? = (wordsOf .input words).dropLast

theorem wordsReadByPosition (words : List String) : ReadByPosition words where
  output := by rw [readByRole]
  input := by rw [readByRole]
  passthrough := by rw [readByRole]
  notices := by rw [readByRole]
  texts := by
    rw [readByRole]
    cases endsInFlag words <;> simp [replacements, List.map_zipWith, Notice.message]
  accounted := by
    have all := everyWordPicked false words
    have paired := flagsPaired false words
    simp only [← wordsOfPicked, ← endsInFlagPending, Bool.toNat_false] at all paired
    have passed : (readWords words).request.passthrough = wordsOf .plain words := by rw [readByRole]
    rw [passed]
    omega
  plain := (readSorted words).plain
  discarded := by
    rw [readByRole, List.filterMap_append, replacementsDiscard]
    cases endsInFlag words <;> simp [Notice.discarded?]

example : (readWords ["a.c", "-o", "-o", "-o", "b.o", "-Wall", "c.o", "-o"]).request =
    ⟨some "b.o", some "c.o", ["-Wall"]⟩ := by decide

end StagedBuild

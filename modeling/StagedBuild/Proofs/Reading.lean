import StagedBuild.Request

/-! What reading a command line keeps: no passed word is `-o` or an input, and the input is one. A
request in this state can be written out as words, and reading these gives it back. -/
namespace StagedBuild

theorem suffixesAgree {α : Type} {a b whole : List α} (left : a <:+ whole) (right : b <:+ whole)
    (sizes : a.length = b.length) : a = b :=
  (List.suffix_of_suffix_length_le left right (by omega)).eq_of_length sizes

theorem hasEndingSuffix {ending s : String} (ends : hasEnding ending s = true) :
    ending.toList <:+ s.toList :=
  List.isSuffixOf_iff_suffix.mp ends

theorem objectNotSource {word : String} (object : isObject word = true) : isSource word = false := by
  cases source : isSource word with
  | false => rfl
  | true =>
    have same := suffixesAgree (hasEndingSuffix object) (hasEndingSuffix source) (by decide)
    exact absurd same (by decide)

theorem objectIsInput {word : String} (object : isObject word = true) : isInput word = true := by
  simp [isInput, object]

theorem inputNotFlag {word : String} (input : isInput word = true) : word ≠ "-o" := by
  rintro rfl
  exact absurd input (by decide)

theorem Request.objectIsObject (r : Request) : isObject r.object = true := by
  unfold object
  dsimp only
  split
  · assumption
  · simp [isObject, hasEnding, String.toList_append]

structure Request.Sorted (r : Request) : Prop where
  plain : ∀ word ∈ r.passthrough, word ≠ "-o" ∧ isInput word = false
  input : ∀ word, r.input = some word → isInput word = true

namespace Reading

theorem addWordSorted {r : Reading} {word : String} (sorted : r.request.Sorted)
    (ordinary : word ≠ "-o") : (r.addWord word).request.Sorted := by
  unfold addWord
  split
  · rename_i isIn
    exact ⟨sorted.plain, fun other same => Option.some.inj same ▸ isIn⟩
  · rename_i notIn
    refine ⟨?_, sorted.input⟩
    intro other member
    rcases List.mem_append.mp member with before | last
    · exact sorted.plain other before
    · have same : other = word := by simpa using last
      exact same ▸ ⟨ordinary, by simpa using notIn⟩

theorem addWordsSorted (r : Reading) (words : List String) (sorted : r.request.Sorted) :
    (r.addWords words).request.Sorted := by
  fun_induction addWords r words with
  | case1 r => exact sorted
  | case2 r => exact ⟨sorted.plain, sorted.input⟩
  | case3 r value rest ih => exact ih ⟨sorted.plain, sorted.input⟩
  | case4 r word rest ordinary ih => exact ih (addWordSorted sorted ordinary)

theorem addOrdinary (r : Reading) {word : String} (rest : List String) (ordinary : word ≠ "-o") :
    r.addWords (word :: rest) = (r.addWord word).addWords rest := by
  rw [addWords.eq_def]
  simp only [if_neg ordinary]

theorem addOutput (r : Reading) (value : String) (rest : List String) :
    r.addWords ("-o" :: value :: rest) = (r.setOutput value).addWords rest := by
  rw [addWords.eq_def]
  simp only [if_true]

theorem addWordsPlain (r : Reading) (words rest : List String)
    (plain : ∀ word ∈ words, word ≠ "-o" ∧ isInput word = false) :
    r.addWords (words ++ rest) = addWords
      { r with request := { r.request with passthrough := r.request.passthrough ++ words } } rest := by
  induction words generalizing r with
  | nil => simp
  | cons word words ih =>
    obtain ⟨ordinary, notIn⟩ := plain word (by simp)
    have later : ∀ other ∈ words, other ≠ "-o" ∧ isInput other = false :=
      fun other member => plain other (by simp [member])
    rw [List.cons_append, addOrdinary r _ ordinary, ih _ later]
    simp [addWord, notIn, passOn]

end Reading

theorem readSorted (words : List String) : (readWords words).request.Sorted :=
  Reading.addWordsSorted {} words ⟨by simp, by simp⟩

def Request.words (r : Request) : List String :=
  r.passthrough ++ r.input.toList ++
    match r.output with
    | some path => ["-o", path]
    | none => []

theorem readBack {r : Request} (sorted : r.Sorted) : readWords r.words = ⟨r, []⟩ := by
  obtain ⟨output, input, passthrough⟩ := r
  unfold readWords Request.words
  rw [List.append_assoc, Reading.addWordsPlain {} passthrough _ sorted.plain]
  have read (r : Reading) : r.addWords [] = r := rfl
  cases input with
  | none =>
    cases output with
    | none => simp [read]
    | some path => simp [Reading.addOutput, Reading.setOutput, read]
  | some word =>
    have isIn := sorted.input word rfl
    have ordinary := inputNotFlag isIn
    simp only [Option.toList_some, List.singleton_append]
    rw [Reading.addOrdinary _ _ ordinary]
    cases output with
    | none => simp [Reading.addWord, isIn, Reading.setInput, read]
    | some path =>
      simp [Reading.addWord, isIn, Reading.setInput, Reading.addOutput, Reading.setOutput, read]

end StagedBuild

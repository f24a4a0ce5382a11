import StagedBuild.Plan.Make
import StagedBuild.Proofs.Positions

/-! Command lines that ask for the same. What is read from some words can be written as words again, in a
fixed order and with nothing left over; the plan is the same unless the words are only passed on. -/
namespace StagedBuild

def canonical (words : List String) : List String := (readWords words).request.words

/- The same outputs, the same inputs and the same other words, each in the same order; how they stand
between each other does not count. -/
structure Rearranged (a b : List String) : Prop where
  outputs : wordsOf .value a = wordsOf .value b
  inputs : wordsOf .input a = wordsOf .input b
  others : wordsOf .plain a = wordsOf .plain b

theorem canonicalRead (words : List String) :
    readWords (canonical words) = ⟨(readWords words).request, []⟩ := readBack (readSorted words)

theorem rearrangedRequest {a b : List String} (rearranged : Rearranged a b) :
    (readWords a).request = (readWords b).request := by
  rw [readByRole a, readByRole b, rearranged.outputs, rearranged.inputs, rearranged.others]

theorem planByRequest (settings : Settings) {a b : List String}
    (same : (readWords a).request = (readWords b).request)
    (shape : (makePlan settings b).plan.shape ≠ .passThrough) :
    (makePlan settings a).plan = (makePlan settings b).plan := by
  have steps (r : Request) (other : r.shape ≠ .passThrough) :
      stepsFor settings a r = stepsFor settings b r := by
    unfold stepsFor
    split
    · rfl
    · rfl
    · contradiction
  simp only [makePlan, same, steps _ shape]

structure CanonicalForm (words : List String) : Prop where
  read : readWords (canonical words) = ⟨(readWords words).request, []⟩
  again : canonical (canonical words) = canonical words
  planned : ∀ settings, (makePlan settings words).plan.shape ≠ .passThrough →
    (makePlan settings (canonical words)).plan = (makePlan settings words).plan
  rearranged : ∀ settings other, Rearranged other words →
    (makePlan settings words).plan.shape ≠ .passThrough →
    (makePlan settings other).plan = (makePlan settings words).plan

theorem wordsHaveCanonicalForm (words : List String) : CanonicalForm words where
  read := canonicalRead words
  again := by
    rw [canonical, canonicalRead]
    rfl
  planned settings shape := planByRequest settings (by rw [canonicalRead]) shape
  rearranged settings _ same shape := planByRequest settings (rearrangedRequest same) shape

theorem canonicalFormOfRepeatedFlags :
    let words := ["a.o", "-o", "x.o", "-Wall", "-o", "-o", "b.c", "-g", "-o"]
    let other := ["-Wall", "-o", "x.o", "-g", "a.o", "b.c", "-o", "-o"]
    canonical words = ["-Wall", "-g", "b.c", "-o", "-o"] ∧
      (makePlan {} words).plan.shape = .compileFromSource ∧ Rearranged other words ∧
      (makePlan {} (canonical words)).plan = (makePlan {} words).plan ∧
      (makePlan {} other).plan = (makePlan {} words).plan := by
  intro words other
  have compiled : (makePlan {} words).plan.shape = .compileFromSource := by decide
  have planned : (makePlan {} words).plan.shape ≠ .passThrough := by
    rw [compiled]
    exact Shape.noConfusion
  have same : Rearranged other words := ⟨by decide, by decide, by decide⟩
  have form := wordsHaveCanonicalForm words
  exact ⟨by decide, compiled, same, form.planned {} planned, form.rearranged {} other same planned⟩

end StagedBuild

import StagedBuild.Proofs.Reading
import StagedBuild.Proofs.Store

/-! The last name of a path. A path that ends like an input does so in its last name, and so does every
place that it leads to, whatever the directories are. -/
namespace StagedBuild

theorem splitOnPlain {separator : Char} {s : List Char} (plain : separator ∉ s) :
    splitOn separator s = [s] := by
  induction s with
  | nil => rfl
  | cons c rest ih =>
    simp only [List.mem_cons, not_or] at plain
    obtain ⟨other, later⟩ := plain
    simp only [splitOn, if_neg (Ne.symm other), ih later]

theorem splitOnLast {separator : Char} {ending s : List Char} (plain : separator ∉ ending)
    (ends : ending <:+ s) : ∃ front last, splitOn separator s = front ++ [last] ∧ ending <:+ last := by
  induction s with
  | nil => exact ⟨[], [], rfl, ends⟩
  | cons c rest ih =>
    rcases List.suffix_cons_iff.mp ends with whole | inRest
    · subst ending
      exact ⟨[], c :: rest, splitOnPlain plain, List.suffix_rfl⟩
    · obtain ⟨front, last, split, ends⟩ := ih inRest
      simp only [splitOn, split]
      by_cases cut : c = separator
      · exact ⟨[] :: front, last, by simp [cut], ends⟩
      · cases front with
        | nil => exact ⟨[], c :: last, by simp [cut], List.suffix_cons_iff.mpr (.inr ends)⟩
        | cons first more => exact ⟨(c :: first) :: more, last, by simp [cut], ends⟩

def EndsIn (ending : String) (names : List String) : Prop :=
  ∃ front name, names = front ++ [name] ∧ hasEnding ending name = true

def inputEndings : List String := [".c", ".o"]

theorem endsInApart {names : List String} (object : EndsIn ".o" names) : ¬ EndsIn ".c" names := by
  rintro ⟨front', name', split', source⟩
  obtain ⟨front, name, split, object⟩ := object
  rw [split] at split'
  have same : name = name' := by simpa using List.append_inj_right' split' rfl
  have notSource : isSource name = false := objectNotSource object
  rw [same, isSource, source] at notSource
  contradiction

theorem endingOrdinary {ending name : String} (known : ending ∈ inputEndings)
    (ends : hasEnding ending name = true) : name ≠ "" ∧ name ≠ "." ∧ name ≠ ".." := by
  -- The names that a walk passes over are too short to end like an input.
  simp only [inputEndings, List.mem_cons, List.not_mem_nil, or_false] at known
  rcases known with rfl | rfl <;>
    exact ⟨by rintro rfl; exact absurd ends (by decide), by rintro rfl; exact absurd ends (by decide),
      by rintro rfl; exact absurd ends (by decide)⟩

theorem piecesEndIn {ending path : String} (known : ending ∈ inputEndings)
    (ends : hasEnding ending path = true) : EndsIn ending (pieces '/' path) := by
  have plain : '/' ∉ ending.toList := by
    simp only [inputEndings, List.mem_cons, List.not_mem_nil, or_false] at known
    rcases known with rfl | rfl <;> decide
  obtain ⟨front, last, split, inLast⟩ := splitOnLast plain (hasEndingSuffix ends)
  refine ⟨front.map String.ofList, String.ofList last, by simp [pieces, split], ?_⟩
  simpa [hasEnding] using inLast

theorem Path.componentsEndIn {ending path : String} (known : ending ∈ inputEndings)
    (ends : hasEnding ending path = true) : EndsIn ending (Path.components path).names := by
  obtain ⟨front, name, split, ends⟩ := piecesEndIn known ends
  obtain ⟨given, notHere, _⟩ := endingOrdinary known ends
  exact ⟨front.filter fun part => part != "" && part != ".", name,
    by simp [Path.components, split, given, notHere], ends⟩

theorem Path.objectNotSame {object source : String} (isObj : isObject object = true)
    (isSrc : isSource source = true) : Path.same object source = false := by
  have apart : Path.components object ≠ Path.components source := by
    intro same
    have left : EndsIn ".o" (Path.components object).names := componentsEndIn (by decide) isObj
    rw [same] at left
    exact endsInApart left (componentsEndIn (by decide) isSrc)
  simpa [Path.same] using apart

namespace Store

theorem walkEndIn {s : Store} {ending : String} (known : ending ∈ inputEndings) {names : List String}
    (ends : EndsIn ending names) {l m : Location} (reached : s.walk l names = .ok m) :
    EndsIn ending m := by
  obtain ⟨front, name, rfl, ends⟩ := ends
  obtain ⟨given, notHere, notUp⟩ := endingOrdinary known ends
  induction front generalizing l with
  | nil =>
    obtain ⟨directory, next, along, _ | _ | _ | below⟩ := walkStep reached
    · contradiction
    · contradiction
    · contradiction
    · rw [List.nil_append, along s directory, below] at reached
      cases reached
      exact ⟨l, name, rfl, ends⟩
  | cons first rest ih =>
    rw [List.cons_append] at reached
    obtain ⟨directory, next, along, _⟩ := walkStep reached
    rw [along s directory] at reached
    exact ih reached

theorem locateEndIn {s : Store} {ending path : String} (known : ending ∈ inputEndings)
    (ends : hasEnding ending path = true) {l : Location} (reached : s.locate path = .ok l) :
    EndsIn ending l := by
  unfold locate at reached
  split at reached
  · contradiction
  · split at reached
    · contradiction
    · split at reached
      · contradiction
      · exact walkEndIn known (piecesEndIn known ends) reached

end Store

end StagedBuild

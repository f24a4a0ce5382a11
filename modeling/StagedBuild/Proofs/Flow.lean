import StagedBuild.Proofs.Store
import StagedBuild.Session

/-! What joined programs do to the files: each writes to one place at most, and none removes anything. -/
namespace StagedBuild

theorem Program.finishStore (p : Program) (heeded : Bool) (store : Store) (taken : Bool)
    (written : ByteArray) : (p.finish heeded store taken written).store = store := by
  unfold finish
  dsimp only
  split <;> rfl

theorem Program.runKeeps (p : Program) (store : Store) (input : ByteArray) (heeded : Bool) :
    store.Keeps (p.run store input heeded).store := by
  unfold run
  cases p.behaviour.sink with
  | file =>
    cases written : store.write p.target (p.content input) with
    | ok after =>
      simp only [finishStore]
      exact Store.writtenKeeps written
    | error fault =>
      simp only [finishStore]
      exact .refl store
  | stream =>
    dsimp only
    split
    · rw [finishStore]
      exact .refl store
    · exact .refl store

theorem flowKeeps (store : Store) (input : ByteArray) (programs : List Program) :
    ∀ outcome ∈ flow store input programs, store.Keeps outcome.store := by
  induction programs generalizing store input with
  | nil => simp [flow]
  | cons p rest ih =>
    intro outcome member
    have first := p.runKeeps store input (heeded store rest)
    simp only [flow, List.mem_cons] at member
    rcases member with rfl | later
    · exact first
    · exact first.trans (ih _ _ outcome later)

theorem flowLength (store : Store) (input : ByteArray) (programs : List Program) :
    (flow store input programs).length = programs.length := by
  induction programs generalizing store input with
  | nil => rfl
  | cons program rest ih => simp [flow, ih]

theorem Session.afterKeeps (s : Session) (programs : List Program) :
    s.store.Keeps (s.after programs).store := by
  simp only [after, storeAfter]
  cases last : (flow s.store s.input programs).getLast? with
  | none => exact .refl s.store
  | some outcome => exact flowKeeps _ _ _ outcome (List.mem_of_getLast? last)

end StagedBuild

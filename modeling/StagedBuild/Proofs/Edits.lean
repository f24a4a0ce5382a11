import StagedBuild.Proofs.Store
import StagedBuild.World.Layout

/-! Edits of a tree of files: a file is written, or what is there is removed, at a place that is no
directory. Writing and clearing a path are such edits; to make the same ones again changes nothing. -/
namespace StagedBuild

inductive Edit where
  | write (place : Location) (content : ByteArray)
  | remove (place : Location)

def isRunnable : Option Node → Bool
  | some (.file _ executable) => executable
  | some (.tool _) => true
  | _ => false

namespace Edit

def place : Edit → Location
  | .write l _ => l
  | .remove l => l

def node (old : Option Node) : Edit → Option Node
  | .write _ content => some (.file content (isRunnable old))
  | .remove _ => none

end Edit

namespace Store

def edit (s : Store) : Edit → Store
  | .write l content => s.set l (.file content (isRunnable (s.get? l)))
  | .remove l => s.erase l

def edited (s : Store) (edits : List Edit) : Store := edits.foldl edit s

@[simp] theorem editedNone (s : Store) : s.edited [] = s := rfl

@[simp] theorem editedFirst (s : Store) (e : Edit) (rest : List Edit) :
    s.edited (e :: rest) = (s.edit e).edited rest := rfl

theorem editedAppend (s : Store) (first second : List Edit) :
    s.edited (first ++ second) = (s.edited first).edited second := List.foldl_append

theorem editGet (s : Store) (e : Edit) (k : Location) :
    (s.edit e).get? k = if k = e.place then e.node (s.get? k) else s.get? k := by
  cases e with
  | write l content =>
    by_cases here : k = l <;> simp [edit, Edit.place, Edit.node, here]
  | remove l =>
    by_cases here : k = l <;> simp [edit, Edit.place, Edit.node, here]

theorem editedHere (s : Store) (edits : List Edit) : (s.edited edits).here = s.here := by
  induction edits generalizing s with
  | nil => rfl
  | cons e rest ih =>
    rw [editedFirst, ih]
    cases e <;> rfl

theorem editedElsewhere {s : Store} {edits : List Edit} {k : Location}
    (elsewhere : ∀ e ∈ edits, e.place ≠ k) : (s.edited edits).get? k = s.get? k := by
  induction edits generalizing s with
  | nil => rfl
  | cons e rest ih =>
    have other : k ≠ e.place := Ne.symm (elsewhere e (by simp))
    rw [editedFirst, ih fun later member => elsewhere later (by simp [member]), editGet, if_neg other]

theorem changedByEdit {s : Store} {edits : List Edit} {k : Location}
    (changed : (s.edited edits).get? k ≠ s.get? k) : ∃ e ∈ edits, e.place = k :=
  Classical.byContradiction fun none =>
    changed (editedElsewhere fun e member here => none ⟨e, member, here⟩)

/- What edits make of a place: they leave it alone, or a file is written there and can be run if what was
there could be, or what they leave has nothing to do with what was there. -/
inductive Course (edits : List Edit) (k : Location) : Prop where
  | untouched (left : ∀ s : Store, (s.edited edits).get? k = s.get? k)
  | rewritten (content : ByteArray)
      (left : ∀ s : Store, (s.edited edits).get? k = some (.file content (isRunnable (s.get? k))))
  | written (content : ByteArray)
      (left : ∀ s : Store, (s.edited edits).get? k = some (.file content false))
  | removed (left : ∀ s : Store, (s.edited edits).get? k = none)

theorem editsCourse (edits : List Edit) (k : Location) : Course edits k := by
  induction edits with
  | nil => exact .untouched fun _ => rfl
  | cons e rest ih =>
    have first (s : Store) := editGet s e k
    cases ih with
    | untouched left =>
      by_cases here : k = e.place
      · simp only [if_pos here] at first
        cases e with
        | write l content => exact .rewritten content fun s => (left _).trans (first s)
        | remove l => exact .removed fun s => (left _).trans (first s)
      · simp only [if_neg here] at first
        exact .untouched fun s => (left _).trans (first s)
    | rewritten content left =>
      by_cases here : k = e.place
      · cases e with
        | write l old =>
          refine .rewritten content fun s => ?_
          rw [editedFirst, left, first, if_pos here]
          rfl
        | remove l =>
          refine .written content fun s => ?_
          rw [editedFirst, left, first, if_pos here]
          rfl
      · refine .rewritten content fun s => ?_
        rw [editedFirst, left, first, if_neg here]
    | written content left => exact .written content fun s => left _
    | removed left => exact .removed fun s => left _

theorem editsAgain (s : Store) (edits : List Edit) (k : Location) :
    ((s.edited edits).edited edits).get? k = (s.edited edits).get? k := by
  cases editsCourse edits k with
  | untouched left => exact left _
  | rewritten content left =>
    rw [left, left]
    rfl
  | written content left => rw [left, left]
  | removed left => rw [left, left]

theorem editedRunnable {s : Store} {edits : List Edit} {k : Location}
    (runnable : isRunnable ((s.edited edits).get? k) = true) : isRunnable (s.get? k) = true := by
  cases editsCourse edits k with
  | untouched left => rwa [left] at runnable
  | rewritten content left => rwa [left] at runnable
  | written content left => simp [left, isRunnable] at runnable
  | removed left => simp [left, isRunnable] at runnable

theorem editedHeld {s : Store} {edits : List Edit} {k : Location} {node : Node}
    (held : (s.edited edits).get? k = some node) (noFile : ∀ content runs, node ≠ .file content runs) :
    s.get? k = some node := by
  cases editsCourse edits k with
  | untouched left => rwa [left] at held
  | rewritten content left => exact absurd (Option.some.inj (held.symm.trans (left s))) (noFile _ _)
  | written content left => exact absurd (Option.some.inj (held.symm.trans (left s))) (noFile _ _)
  | removed left => simp [left] at held

structure SamePlaces (a b : Store) : Prop where
  here : a.here = b.here
  directories : ∀ k, a.get? k = some .directory ↔ b.get? k = some .directory

theorem SamePlaces.refl (a : Store) : a.SamePlaces a := ⟨rfl, fun _ => .rfl⟩

theorem SamePlaces.trans {a b c : Store} (first : a.SamePlaces b) (second : b.SamePlaces c) :
    a.SamePlaces c :=
  ⟨first.here.trans second.here, fun k => (first.directories k).trans (second.directories k)⟩

theorem SamePlaces.locate {a b : Store} (same : a.SamePlaces b) (path : String) (l : Location) :
    a.locate path = .ok l ↔ b.locate path = .ok l :=
  ⟨locateAlong same.here.symm fun k => (same.directories k).mp,
    locateAlong same.here fun k => (same.directories k).mpr⟩

def Allows (s : Store) (edits : List Edit) : Prop := ∀ e ∈ edits, s.get? e.place ≠ some .directory

theorem editedPlaces {s : Store} {edits : List Edit} (allowed : s.Allows edits) :
    s.SamePlaces (s.edited edits) where
  here := (s.editedHere edits).symm
  directories k := by
    constructor
    · intro directory
      have elsewhere : ∀ e ∈ edits, e.place ≠ k := by
        intro e member here
        exact allowed e member (here ▸ directory)
      rw [editedElsewhere elsewhere, directory]
    · exact fun directory => editedHeld directory (by simp)

theorem locateEmpty (s : Store) (l : Location) : s.locate "" ≠ .ok l := by
  have noNul : hasNul "" = false := rfl
  simp [locate, noNul]

def editable? (s : Store) (path : String) : Option Location :=
  match s.locate path with
  | .error _ => none
  | .ok l => match s.get? l with
    | some .directory => none
    | _ => some l

theorem editableIff (s : Store) (path : String) (l : Location) :
    s.editable? path = some l ↔ s.locate path = .ok l ∧ s.get? l ≠ some .directory := by
  unfold editable?
  cases s.locate path with
  | error fault => simp
  | ok place =>
    dsimp only
    split
    · rename_i directory
      simp only [reduceCtorEq, Except.ok.injEq, false_iff, not_and]
      intro here file
      exact file (here ▸ directory)
    · rename_i other
      simp only [Option.some.injEq, Except.ok.injEq, ne_eq]
      constructor
      · intro here
        exact ⟨here, here ▸ other⟩
      · exact fun both => both.1

theorem SamePlaces.editable {a b : Store} (same : a.SamePlaces b) (path : String) :
    a.editable? path = b.editable? path := by
  refine Option.ext fun l => ?_
  rw [editableIff, editableIff, same.locate, ne_eq, ne_eq, same.directories]

theorem writeEditable {s : Store} {path : String} {l : Location} (editable : s.editable? path = some l)
    (content : ByteArray) : s.write path content = .ok (s.edit (.write l content)) := by
  obtain ⟨reached, file⟩ := (editableIff s path l).mp editable
  unfold write
  simp only [reached, edit]
  cases held : s.get? l with
  | none => rfl
  | some node =>
    cases node with
    | directory => exact absurd held file
    | file old executable => rfl
    | tool tool => rfl

theorem writeRefused {s : Store} {path : String} (refused : s.editable? path = none)
    (content : ByteArray) : ∃ fault, s.write path content = .error fault := by
  cases attempt : s.write path content with
  | error fault => exact ⟨fault, rfl⟩
  | ok t =>
    obtain ⟨l, _, reached, file, _⟩ := writtenFile attempt
    simp [(editableIff s path l).mpr ⟨reached, file⟩] at refused

theorem overwriteEdited (s : Store) (path : String) (content : ByteArray) :
    s.overwrite path content = s.edited ((s.editable? path).toList.map fun l => .write l content) := by
  unfold overwrite
  cases place : s.editable? path with
  | some l =>
    rw [writeEditable place]
    rfl
  | none =>
    obtain ⟨fault, refused⟩ := writeRefused place content
    rw [refused]
    rfl

theorem canWriteEditable (s : Store) (path : String) : s.canWrite path = (s.editable? path).isSome := by
  unfold canWrite
  cases place : s.editable? path with
  | some l =>
    rw [writeEditable place]
    rfl
  | none =>
    obtain ⟨fault, refused⟩ := writeRefused place .empty
    rw [refused]
    rfl

theorem eraseAbsent {s : Store} {l : Location} (absent : s.get? l = none) : s.erase l = s := by
  have none : ∀ entry ∈ s.entries, (entry.1 != l) = true := by
    intro entry member
    rw [bne_comm]
    exact List.lookup_eq_none_iff.mp absent entry member
  simp only [erase, List.filter_eq_self.mpr none]

def removals (s : Store) (path : String) : List Edit := (s.editable? path).toList.map .remove

theorem clearEdited (s : Store) (path : String) : s.clear path = s.edited (s.removals path) := by
  unfold clear removals
  cases place : s.editable? path with
  | some l =>
    obtain ⟨reached, file⟩ := (editableIff s path l).mp place
    simp only [Option.toList_some, List.map_cons, List.map_nil, editedFirst, editedNone, edit]
    cases held : s.get? l with
    | none => simp [remove, find, reached, nodeAt, held, eraseAbsent held]
    | some node =>
      cases node with
      | directory => exact absurd held file
      | file old executable => simp [remove, find, reached, nodeAt, held]
      | tool tool => simp [remove, find, reached, nodeAt, held]
  | none =>
    cases attempt : s.remove path with
    | error fault => rfl
    | ok t =>
      obtain ⟨l, node, reached, held, file, _⟩ := removedPlace attempt
      have editable := (editableIff s path l).mpr ⟨reached, by simpa [held] using file⟩
      simp [editable] at place

end Store

end StagedBuild

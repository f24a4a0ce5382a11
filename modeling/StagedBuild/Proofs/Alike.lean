import StagedBuild.Proofs.StepEdits

/-! Trees of files in which the same commands do the same. Directories and tools are alike in both, and what is
no tool can be run in the second only if it can be in the first; all other files may differ. -/
namespace StagedBuild

namespace Store

theorem SamePlaces.symm {a b : Store} (same : a.SamePlaces b) : b.SamePlaces a :=
  ⟨same.here.symm, fun k => (same.directories k).symm⟩

structure Alike (a b : Store) : Prop extends SamePlaces a b where
  tools : ∀ k tool, a.get? k = some (.tool tool) ↔ b.get? k = some (.tool tool)
  runnable : ∀ k, isRunnable (b.get? k) = true → isRunnable (a.get? k) = true

theorem editedAlike {s : Store} {edits : List Edit} (allowed : s.Allows edits)
    (tools : ∀ k tool, s.get? k = some (.tool tool) → (s.edited edits).get? k = some (.tool tool)) :
    s.Alike (s.edited edits) where
  toSamePlaces := editedPlaces allowed
  tools k tool := ⟨tools k tool, fun held => editedHeld held (by simp)⟩
  runnable _ := editedRunnable

theorem Alike.edited {a b : Store} (alike : a.Alike b) {edits : List Edit} (allowed : a.Allows edits) :
    (a.edited edits).Alike (b.edited edits) where
  toSamePlaces := by
    have other : b.Allows edits := fun e member directory =>
      allowed e member ((alike.directories e.place).mpr directory)
    exact (editedPlaces allowed).symm.trans (alike.toSamePlaces.trans (editedPlaces other))
  tools k tool := by
    cases editsCourse edits k with
    | untouched left => rw [left, left, alike.tools]
    | rewritten content left => simp [left]
    | written content left => simp [left]
    | removed left => simp [left]
  runnable k := by
    cases editsCourse edits k with
    | untouched left => simpa [left] using alike.runnable k
    | rewritten content left => simpa [left, isRunnable] using alike.runnable k
    | written content left => simp [left, isRunnable]
    | removed left => simp [left, isRunnable]

def isPassedOver (fault : Fault) : Prop := fault = .noAccess ∨ fault = .noEntry ∨ fault = .notDirectory

theorem SamePlaces.walkFault {a b : Store} (same : a.SamePlaces b) {fault : Fault}
    (stops : ¬ isPassedOver fault) {names : List String} {l : Location}
    (failed : b.walk l names = .error fault) : a.walk l names = .error fault := by
  induction names generalizing l with
  | nil => simp [walk] at failed
  | cons name rest ih =>
    simp only [walk] at failed ⊢
    cases held : b.get? l with
    | none =>
      simp only [held, Except.error.injEq] at failed
      exact absurd (.inr (.inl failed.symm)) stops
    | some node =>
      cases node with
      | directory =>
        simp only [held, (same.directories l).mpr held] at failed ⊢
        grind
      | file content executable =>
        simp only [held, Except.error.injEq] at failed
        exact absurd (.inr (.inr failed.symm)) stops
      | tool tool =>
        simp only [held, Except.error.injEq] at failed
        exact absurd (.inr (.inr failed.symm)) stops

theorem SamePlaces.locateFault {a b : Store} (same : a.SamePlaces b) {fault : Fault}
    (stops : ¬ isPassedOver fault) {path : String} (failed : b.locate path = .error fault) :
    a.locate path = .error fault := by
  have base : a.base path = b.base path := by simp [Store.base, same.here]
  have walked : b.walk (b.base path) (pieces '/' path) = .error fault →
      a.walk (b.base path) (pieces '/' path) = .error fault := same.walkFault stops
  unfold Store.locate at failed ⊢
  rw [base]
  grind

inductive Trial (s : Store) (path : String) : Except Fault (Location × Tool) → Prop where
  | tool {l tool} (reached : s.locate path = .ok l) (held : s.get? l = some (.tool tool)) :
      Trial s path (.ok (l, tool))
  | unreached {fault} (failed : s.locate path = .error fault) : Trial s path (.error fault)
  | noTool {l content} (reached : s.locate path = .ok l) (held : s.get? l = some (.file content true)) :
      Trial s path (.error .badFormat)
  | closed {l fault} (reached : s.locate path = .ok l) (plain : isRunnable (s.get? l) = false)
      (next : isPassedOver fault) : Trial s path (.error fault)

theorem trial (s : Store) (path : String) : Trial s path (s.executable path) := by
  unfold executable find
  cases reached : s.locate path with
  | error fault => exact .unreached reached
  | ok l =>
    dsimp only [nodeAt]
    cases held : s.get? l with
    | none => exact .closed reached (by simp [held, isRunnable]) (.inr (.inl rfl))
    | some node =>
      cases node with
      | directory => exact .closed reached (by simp [held, isRunnable]) (.inl rfl)
      | tool tool => exact .tool reached held
      | file content executable =>
        cases executable with
        | true => exact .noTool reached held
        | false => exact .closed reached (by simp [held, isRunnable]) (.inl rfl)

theorem Alike.executable {a b : Store} (alike : a.Alike b) {path : String} {found : Location × Tool}
    (ran : a.executable path = .ok found) : b.executable path = .ok found := by
  have first := trial a path
  rw [ran] at first
  cases first with
  | @tool l tool reached held =>
    have there := (alike.locate path l).mp reached
    have kept := (alike.tools l tool).mp held
    simp [Store.executable, find, there, nodeAt, kept]

theorem Alike.passedOver {a b : Store} (alike : a.Alike b) {path : String} {fault : Fault}
    (refused : a.executable path = .error fault) (next : isPassedOver fault) :
    ∃ other, b.executable path = .error other ∧ isPassedOver other := by
  have first := trial a path
  have second := trial b path
  rw [refused] at first
  generalize b.executable path = result at second
  cases second with
  | @tool l tool reached held =>
    have ran : a.executable path = .ok (l, tool) := by
      simp [Store.executable, find, (alike.locate path l).mpr reached, nodeAt, (alike.tools l tool).mpr held]
    simp [ran] at refused
  | @unreached other failed =>
    refine ⟨other, rfl, Classical.byContradiction fun stops => ?_⟩
    have same : a.executable path = .error other := by
      simp [Store.executable, find, alike.locateFault stops failed]
    exact stops (Except.error.inj (refused.symm.trans same) ▸ next)
  | @noTool l content reached held =>
    have runs : isRunnable (a.get? l) = true := alike.runnable l (by simp [held, isRunnable])
    have there := (alike.locate path l).mpr reached
    cases first with
    | unreached failed => simp [there] at failed
    | noTool _ _ => exact absurd next (by unfold isPassedOver; decide)
    | closed again plain _ =>
      obtain rfl := Except.ok.inj (there.symm.trans again)
      simp [runs] at plain
  | @closed l other reached plain passed => exact ⟨other, rfl, passed⟩

theorem searchStep (s : Store) (name directory : String) (fault : Fault) (rest : List String) :
    s.search name fault (directory :: rest) =
      match s.executable (Path.join directory name) with
      | .ok found => .ok found
      | .error next =>
        if next = .noAccess then s.search name .noAccess rest
        else if next = .noEntry ∨ next = .notDirectory then
          s.search name (if fault = .noAccess then fault else next) rest
        else .error next := by
  rfl

theorem searchNext {s : Store} {name directory : String} {next : Fault}
    (refused : s.executable (Path.join directory name) = .error next) (passed : isPassedOver next)
    (fault : Fault) (rest : List String) :
    ∃ remembered, s.search name fault (directory :: rest) = s.search name remembered rest := by
  simp only [searchStep, refused]
  by_cases access : next = .noAccess
  · exact ⟨.noAccess, if_pos access⟩
  · have missing := passed.resolve_left access
    exact ⟨if fault = .noAccess then fault else next, by rw [if_neg access, if_pos missing]⟩

theorem Alike.search {a b : Store} (alike : a.Alike b) {name : String} {directories : List String}
    {fault other : Fault} {found : Location × Tool} (ran : a.search name fault directories = .ok found) :
    b.search name other directories = .ok found := by
  -- The remembered faults may differ, since a search that finds something returns none of them.
  induction directories generalizing fault other with
  | nil => contradiction
  | cons directory rest ih =>
    cases tried : a.executable (Path.join directory name) with
    | ok first =>
      simp only [searchStep, tried] at ran
      simp only [searchStep, alike.executable tried, ran]
    | error next =>
      by_cases passed : isPassedOver next
      · obtain ⟨remembered, later⟩ := searchNext tried passed fault rest
        obtain ⟨also, refused, skipped⟩ := alike.passedOver tried passed
        obtain ⟨kept, again⟩ := searchNext refused skipped other rest
        rw [later] at ran
        rw [again]
        exact ih ran
      · obtain ⟨access, missing⟩ := not_or.mp passed
        simp only [searchStep, tried, if_neg access, if_neg missing] at ran
        contradiction

theorem Alike.lookUp {a b : Store} (alike : a.Alike b) {directories : List String} {name : String}
    {found : Location × Tool} (ran : a.lookUp directories name = .ok found) :
    b.lookUp directories name = .ok found := by
  unfold Store.lookUp at ran ⊢
  split at ran
  · contradiction
  · rename_i given
    rw [if_neg given]
    split at ran
    · rename_i slash
      rw [if_pos slash]
      exact alike.executable ran
    · rename_i plain
      rw [if_neg plain]
      exact alike.search ran

theorem Alike.start {a b : Store} (alike : a.Alike b) {directories : List String} {i : Invocation}
    {program : Program} (ran : a.start directories i = .ok program) :
    b.start directories i = .ok program := by
  unfold Store.start at ran ⊢
  split at ran
  · contradiction
  · rename_i clear
    rw [if_neg clear]
    cases found : a.lookUp directories i.program with
    | error fault => simp [found] at ran
    | ok entry => simpa [alike.lookUp found, found] using ran

end Store

def Outcome.shown (o : Outcome) : Bool × ByteArray × Status := (o.taken, o.written, o.status)

namespace Program

theorem finishShown (p : Program) (heeded : Bool) (a b : Store) (taken : Bool) (written : ByteArray) :
    (p.finish heeded a taken written).shown = (p.finish heeded b taken written).shown := by
  unfold finish
  dsimp only
  split <;> rfl

variable {a b : Store} (same : a.SamePlaces b)
include same

theorem sameEdits (p : Program) (input : ByteArray) : p.edits a input = p.edits b input := by
  unfold edits
  rw [same.editable]

theorem sameShown (p : Program) (input : ByteArray) (heeded : Bool) :
    (p.run a input heeded).shown = (p.run b input heeded).shown := by
  unfold run
  cases p.behaviour.sink with
  | file =>
    cases place : a.editable? p.target with
    | some l =>
      rw [Store.writeEditable place, Store.writeEditable (same.editable p.target ▸ place)]
      exact p.finishShown ..
    | none =>
      obtain ⟨fault, refused⟩ := Store.writeRefused place (p.content input)
      obtain ⟨other, also⟩ := Store.writeRefused (same.editable p.target ▸ place) (p.content input)
      rw [refused, also]
      exact p.finishShown ..
  | stream =>
    dsimp only
    split
    · exact p.finishShown ..
    · rfl

theorem sameHeeds (p : Program) (heeded : Bool) : p.heeds a heeded = p.heeds b heeded := by
  unfold heeds
  rw [Store.canWriteEditable, Store.canWriteEditable, same.editable]

end Program

theorem heededSame {a b : Store} (same : a.SamePlaces b) (programs : List Program) :
    heeded a programs = heeded b programs := by
  induction programs with
  | nil => rfl
  | cons p rest ih => rw [heeded, heeded, ih, p.sameHeeds same]

theorem flowSame {a b : Store} (same : a.SamePlaces b) (input : ByteArray) (programs : List Program) :
    flowEdits a input programs = flowEdits b input programs ∧
      (flow a input programs).map Outcome.shown = (flow b input programs).map Outcome.shown := by
  induction programs generalizing a b input with
  | nil => exact ⟨rfl, rfl⟩
  | cons p rest ih =>
    have shown := p.sameShown same input (heeded b rest)
    have written : (p.run a input (heeded b rest)).written = (p.run b input (heeded b rest)).written :=
      congrArg (fun o => o.2.1) shown
    have places : (p.run a input (heeded b rest)).store.SamePlaces (p.run b input (heeded b rest)).store :=
      (p.runPlaces a input _).symm.trans (same.trans (p.runPlaces b input _))
    obtain ⟨edits, later⟩ := ih places (p.run b input (heeded b rest)).written
    simp only [flow, flowEdits, List.map_cons, heededSame same, written, shown, p.sameEdits same, edits,
      later, and_self]

end StagedBuild

import StagedBuild.World.Store

/-! What writing and removing do to a tree of files, place by place. Neither touches a directory, so
that a path which could be followed before leads to the same place after it. -/
namespace StagedBuild.Store

theorem lookupEntry (place k : Location) (node : Node) (rest : List (Location × Node)) :
    ((place, node) :: rest).lookup k = if k = place then some node else rest.lookup k := by
  by_cases same : k = place
  · simp [same]
  · have other : (k == place) = false := beq_false_of_ne same
    simp [List.lookup_cons, other, same]

theorem lookupSetIn (l k : Location) (n : Node) (entries : List (Location × Node)) :
    (setIn l n entries).lookup k = if k = l then some n else entries.lookup k := by
  induction entries with
  | nil => exact lookupEntry l k n []
  | cons entry rest ih =>
    obtain ⟨place, old⟩ := entry
    by_cases here : place = l
    · subst place
      simp only [setIn, if_true, lookupEntry]
      by_cases same : k = l <;> simp [same]
    · simp only [setIn, if_neg here, lookupEntry, ih]
      by_cases same : k = place
      · subst k
        simp [here]
      · simp [same]

@[simp] theorem getSet (s : Store) (l k : Location) (n : Node) :
    (s.set l n).get? k = if k = l then some n else s.get? k :=
  lookupSetIn l k n s.entries

theorem lookupFilter (l k : Location) (entries : List (Location × Node)) :
    (entries.filter fun entry => entry.1 != l).lookup k =
      if k = l then none else entries.lookup k := by
  induction entries with
  | nil => simp
  | cons entry rest ih =>
    obtain ⟨place, node⟩ := entry
    by_cases here : place = l
    · subst place
      simp only [List.filter_cons, bne_self_eq_false, Bool.false_eq_true, if_false, lookupEntry, ih]
      by_cases same : k = l <;> simp [same]
    · simp only [List.filter_cons, bne_iff_ne, ne_eq, here, not_false_eq_true, if_true, lookupEntry, ih]
      by_cases same : k = place
      · subst k
        simp [here]
      · simp [same]

@[simp] theorem getErase (s : Store) (l k : Location) :
    (s.erase l).get? k = if k = l then none else s.get? k :=
  lookupFilter l k s.entries

theorem walkStep {s : Store} {name : String} {rest : List String} {l m : Location}
    (reached : s.walk l (name :: rest) = .ok m) :
    s.get? l = some .directory ∧ ∃ next,
      (∀ t : Store, t.get? l = some .directory → t.walk l (name :: rest) = t.walk next rest) ∧
      (name = "" ∨ name = "." ∨ name = ".." ∨ next = l ++ [name]) := by
  simp only [walk] at reached ⊢
  cases held : s.get? l with
  | none => simp [held] at reached
  | some node =>
    cases node with
    | file content executable => simp [held] at reached
    | tool tool => simp [held] at reached
    | directory =>
      simp only [held] at reached
      refine ⟨rfl, ?_⟩
      split at reached
      · rename_i stays
        refine ⟨l, fun t directory => by simp [directory, stays], ?_⟩
        rcases stays with none | here
        · exact .inl none
        · exact .inr (.inl here)
      · rename_i leaves
        split at reached
        · rename_i up
          exact ⟨l.dropLast, fun t directory => by simp [directory, up], .inr (.inr (.inl up))⟩
        · rename_i down
          split at reached
          · contradiction
          · rename_i short
            exact ⟨l ++ [name], fun t directory => by simp only [directory, if_neg leaves, if_neg down,
              if_neg short], .inr (.inr (.inr rfl))⟩

theorem walkAlong {s t : Store}
    (directories : ∀ k, s.get? k = some .directory → t.get? k = some .directory)
    {names : List String} {l m : Location} (reached : s.walk l names = .ok m) :
    t.walk l names = .ok m := by
  induction names generalizing l with
  | nil => exact reached
  | cons name rest ih =>
    obtain ⟨directory, next, along, _⟩ := walkStep reached
    rw [along s directory] at reached
    rw [along t (directories l directory)]
    exact ih reached

theorem locateAlong {s t : Store} (here : t.here = s.here)
    (directories : ∀ k, s.get? k = some .directory → t.get? k = some .directory)
    {path : String} {l : Location} (reached : s.locate path = .ok l) : t.locate path = .ok l := by
  unfold locate at reached ⊢
  split at reached
  · contradiction
  · split at reached
    · contradiction
    · split at reached
      · contradiction
      · rename_i named given short
        rw [if_neg named, if_neg given, if_neg short]
        have base : t.base path = s.base path := by simp [base, here]
        rw [base]
        exact walkAlong directories reached

theorem findPlace {s : Store} {path : String} {l : Location} {node : Node}
    (found : s.find path = .ok (l, node)) : s.locate path = .ok l ∧ s.get? l = some node := by
  unfold find at found
  cases reached : s.locate path with
  | error fault => simp [reached] at found
  | ok place =>
    simp only [reached, nodeAt] at found
    cases held : s.get? place with
    | none => simp [held] at found
    | some other =>
      simp only [held, Except.ok.injEq, Prod.mk.injEq] at found
      obtain ⟨rfl, rfl⟩ := found
      exact ⟨rfl, held⟩

theorem removedPlace {s t : Store} {path : String} (removed : s.remove path = .ok t) :
    ∃ l node, s.locate path = .ok l ∧ s.get? l = some node ∧ node ≠ .directory ∧ t = s.erase l := by
  unfold remove at removed
  cases found : s.find path with
  | error fault => simp [found] at removed
  | ok entry =>
    obtain ⟨l, node⟩ := entry
    obtain ⟨reached, held⟩ := findPlace found
    cases node with
    | directory => simp [found] at removed
    | file content executable =>
      simp only [found, Except.ok.injEq] at removed
      exact ⟨l, _, reached, held, by simp, removed.symm⟩
    | tool tool =>
      simp only [found, Except.ok.injEq] at removed
      exact ⟨l, _, reached, held, by simp, removed.symm⟩

theorem removedFind {s t : Store} {path : String} (removed : s.remove path = .ok t) :
    t.find path = .error .noEntry := by
  obtain ⟨l, node, reached, held, file, rfl⟩ := removedPlace removed
  have directories : ∀ k, s.get? k = some .directory → (s.erase l).get? k = some .directory := by
    intro k directory
    have other : k ≠ l := by
      rintro rfl
      exact file (Option.some.inj (held.symm.trans directory))
    simp [other, directory]
  have here : (s.erase l).here = s.here := rfl
  have again : (s.erase l).locate path = .ok l := locateAlong here directories reached
  simp [find, again, nodeAt]

theorem removedFrame {s t : Store} {path : String} (removed : s.remove path = .ok t) {k : Location}
    (elsewhere : s.locate path ≠ .ok k) : t.get? k = s.get? k := by
  obtain ⟨l, node, reached, _, _, rfl⟩ := removedPlace removed
  have other : k ≠ l := by
    rintro rfl
    exact elsewhere reached
  simp [other]

theorem absentFind {s : Store} {path : String} {fault : Fault}
    (refused : s.remove path = .error fault) (absent : fault.kind = .notFound) :
    s.find path = .error fault := by
  unfold remove at refused
  cases found : s.find path with
  | error other => simpa [found] using refused
  | ok entry =>
    obtain ⟨l, node⟩ := entry
    cases node with
    | directory =>
      simp only [found, Except.error.injEq] at refused
      subst fault
      simp [Fault.kind, Fault.isDirectory] at absent
    | file content executable => simp [found] at refused
    | tool tool => simp [found] at refused

theorem writtenFile {s t : Store} {path : String} {content : ByteArray}
    (written : s.write path content = .ok t) :
    ∃ l executable, s.locate path = .ok l ∧ s.get? l ≠ some .directory ∧
      t = s.set l (.file content executable) := by
  unfold write at written
  cases reached : s.locate path with
  | error fault => simp [reached] at written
  | ok l =>
    simp only [reached] at written
    cases held : s.get? l with
    | none =>
      simp only [held, writtenNode, Except.map, Except.ok.injEq] at written
      exact ⟨l, false, rfl, by simp [held], written.symm⟩
    | some node =>
      cases node with
      | directory => simp [held, writtenNode, Except.map] at written
      | file old executable =>
        simp only [held, writtenNode, Except.map, Except.ok.injEq] at written
        exact ⟨l, executable, rfl, by simp [held], written.symm⟩
      | tool tool =>
        simp only [held, writtenNode, Except.map, Except.ok.injEq] at written
        exact ⟨l, true, rfl, by simp [held], written.symm⟩

theorem writtenPlace {s t : Store} {path : String} {content : ByteArray}
    (written : s.write path content = .ok t) :
    ∃ l node, s.locate path = .ok l ∧ t = s.set l node := by
  obtain ⟨l, executable, reached, _, same⟩ := writtenFile written
  exact ⟨l, _, reached, same⟩

theorem writtenFind {s t : Store} {path : String} {content : ByteArray}
    (written : s.write path content = .ok t) :
    ∃ l executable, t.find path = .ok (l, .file content executable) := by
  obtain ⟨l, executable, reached, file, rfl⟩ := writtenFile written
  have directories : ∀ k, s.get? k = some .directory →
      (s.set l (.file content executable)).get? k = some .directory := by
    intro k directory
    have other : k ≠ l := by
      rintro rfl
      exact file directory
    simp [other, directory]
  have here : (s.set l (.file content executable)).here = s.here := rfl
  have again : (s.set l (.file content executable)).locate path = .ok l :=
    locateAlong here directories reached
  exact ⟨l, executable, by simp [find, again, nodeAt]⟩

theorem canWriteAny {store : Store} {path : String} (can : store.canWrite path = true)
    (content : ByteArray) : ∃ after, store.write path content = .ok after := by
  unfold canWrite write at can
  unfold write
  cases reached : store.locate path with
  | error fault => simp [reached, Except.toBool] at can
  | ok l =>
    simp only [reached] at can ⊢
    cases held : store.get? l with
    | none => exact ⟨_, rfl⟩
    | some node =>
      cases node with
      | directory => simp [held, writtenNode, Except.map, Except.toBool] at can
      | file old executable => exact ⟨_, rfl⟩
      | tool tool => exact ⟨_, rfl⟩

def Keeps (s t : Store) : Prop := ∀ l, (s.get? l).isSome → (t.get? l).isSome

theorem Keeps.refl (s : Store) : s.Keeps s := fun _ held => held

theorem Keeps.trans {s t u : Store} (first : s.Keeps t) (second : t.Keeps u) : s.Keeps u :=
  fun l held => second l (first l held)

theorem writtenKeeps {s t : Store} {path : String} {content : ByteArray}
    (written : s.write path content = .ok t) : s.Keeps t := by
  obtain ⟨l, node, _, rfl⟩ := writtenPlace written
  intro k held
  by_cases same : k = l
  · simp [same]
  · simpa [same] using held

theorem overwriteKeeps (s : Store) (path : String) (content : ByteArray) :
    s.Keeps (s.overwrite path content) := by
  unfold overwrite
  split
  · exact writtenKeeps (by assumption)
  · exact .refl s

end StagedBuild.Store

import StagedBuild.Document.Reader

/-! No table of a document has a key twice, however deep it lies and however it was written. A key is only
ever added where it is not found, and what is changed later keeps its keys. -/
namespace StagedBuild.Document

inductive Value.WellKeyed : Value → Prop where
  | text (content : String) : WellKeyed (.text content)
  | integer (n : Option Int) : WellKeyed (.integer n)
  | float (overflows : Bool) : WellKeyed (.float overflows)
  | boolean (flag : Bool) : WellKeyed (.boolean flag)
  | moment (spelling : String) : WellKeyed (.moment spelling)
  | array {elements} (each : ∀ v ∈ elements, WellKeyed v) : WellKeyed (.array elements)
  | table {entries} (keys : (entries.map Prod.fst).Nodup) (each : ∀ e ∈ entries, WellKeyed e.2) :
      WellKeyed (.table entries)

inductive Draft.WellKeyed : Draft → Prop where
  | value {v} (finished : v.WellKeyed) : WellKeyed (.value v)
  | table {origin entries} (keys : (entries.map Prod.fst).Nodup) (each : ∀ e ∈ entries, WellKeyed e.2) :
      WellKeyed (.table origin entries)
  | tables {earlier last} (rowKeys : ∀ row ∈ earlier, (row.map Prod.fst).Nodup)
      (rows : ∀ row ∈ earlier, ∀ e ∈ row, WellKeyed e.2) (keys : (last.map Prod.fst).Nodup)
      (each : ∀ e ∈ last, WellKeyed e.2) : WellKeyed (.tables earlier last)

structure KeyedDrafts (drafts : Drafts) : Prop where
  keys : (drafts.map Prod.fst).Nodup
  each : ∀ e ∈ drafts, e.2.WellKeyed

theorem keyedNone : KeyedDrafts [] := ⟨List.nodup_nil, by simp⟩

theorem absentKey {α : Type} {entries : List (String × α)} {key : String}
    (absent : entries.lookup key = none) : key ∉ entries.map Prod.fst := by
  intro member
  obtain ⟨entry, inside, rfl⟩ := List.mem_map.mp member
  simpa using List.lookup_eq_none_iff.mp absent entry inside

theorem foundEntry {α : Type} {entries : List (String × α)} {key : String} {value : α}
    (found : entries.lookup key = some value) : (key, value) ∈ entries := by
  obtain ⟨before, after, rfl, _⟩ := List.lookup_eq_some_iff.mp found
  simp

theorem lookupMember {α : Type} {entries : List (String × α)} (keys : (entries.map Prod.fst).Nodup)
    {key : String} {value : α} : entries.lookup key = some value ↔ (key, value) ∈ entries := by
  refine ⟨foundEntry, fun member => ?_⟩
  obtain ⟨before, after, rfl⟩ := List.append_of_mem member
  have fresh : key ∉ before.map Prod.fst := by
    intro inside
    rw [List.map_append, List.nodup_append] at keys
    exact keys.2.2 key inside key (by simp) rfl
  refine List.lookup_eq_some_iff.mpr ⟨before, after, rfl, fun e inside => ?_⟩
  have other : key ≠ e.1 := by
    rintro rfl
    exact fresh (List.mem_map_of_mem inside)
  simpa using other

theorem lookupPerm {α : Type} {entries others : List (String × α)} (keys : (entries.map Prod.fst).Nodup)
    (order : entries.Perm others) (key : String) : entries.lookup key = others.lookup key := by
  have otherKeys : (others.map Prod.fst).Nodup := (order.map Prod.fst).nodup_iff.mp keys
  refine Option.ext fun value => ?_
  rw [lookupMember keys, lookupMember otherKeys]
  exact order.mem_iff

theorem keyedAdded {drafts : Drafts} {key : String} {draft : Draft} (keyed : KeyedDrafts drafts)
    (absent : drafts.lookup key = none) (added : draft.WellKeyed) :
    KeyedDrafts (drafts ++ [(key, draft)]) where
  keys := by
    have fresh := absentKey absent
    rw [List.map_append, List.map_singleton, List.nodup_append]
    refine ⟨keyed.keys, by simp, ?_⟩
    rintro other inside last member rfl
    obtain rfl : other = key := List.mem_singleton.mp member
    exact fresh inside
  each := by
    intro e member
    rcases List.mem_append.mp member with inside | last
    · exact keyed.each e inside
    · obtain rfl := List.mem_singleton.mp last
      exact added

theorem replaceKeys (key : String) (draft : Draft) (drafts : Drafts) :
    (replace key draft drafts).map Prod.fst = drafts.map Prod.fst := by
  rw [replace, List.map_map]
  refine List.map_congr_left fun entry _ => ?_
  simp only [Function.comp_apply]
  split <;> rfl

theorem keyedReplaced {drafts : Drafts} {draft : Draft} (keyed : KeyedDrafts drafts) (key : String)
    (changed : draft.WellKeyed) : KeyedDrafts (replace key draft drafts) where
  keys := by
    rw [replaceKeys]
    exact keyed.keys
  each := by
    intro e member
    obtain ⟨entry, inside, rfl⟩ := List.mem_map.mp member
    dsimp only
    split
    · exact changed
    · exact keyed.each entry inside

theorem keyedFound {drafts : Drafts} {key : String} {draft : Draft} (keyed : KeyedDrafts drafts)
    (found : drafts.lookup key = some draft) : draft.WellKeyed :=
  keyed.each _ (foundEntry found)

theorem keyedTable {drafts : Drafts} (keyed : KeyedDrafts drafts) (origin : Origin) :
    Draft.WellKeyed (.table origin drafts) := .table keyed.keys keyed.each

theorem tableEntries {origin : Origin} {entries : Drafts} (keyed : Draft.WellKeyed (.table origin entries)) :
    KeyedDrafts entries := by
  cases keyed with
  | table keys each => exact ⟨keys, each⟩

theorem tablesLast {earlier : List Drafts} {last : Drafts} (keyed : Draft.WellKeyed (.tables earlier last)) :
    KeyedDrafts last := by
  cases keyed with
  | tables rowKeys rows keys each => exact ⟨keys, each⟩

theorem tablesChanged {earlier : List Drafts} {last next : Drafts}
    (keyed : Draft.WellKeyed (.tables earlier last)) (changed : KeyedDrafts next) :
    Draft.WellKeyed (.tables earlier next) := by
  cases keyed with
  | tables rowKeys rows keys each => exact .tables rowKeys rows changed.keys changed.each

theorem withinKeyed {change : Drafts → Option Drafts}
    (kept : ∀ before after, KeyedDrafts before → change before = some after → KeyedDrafts after)
    (parents : List String) {drafts after : Drafts} (keyed : KeyedDrafts drafts)
    (ok : within change parents drafts = some after) : KeyedDrafts after := by
  -- on the way down a table is added under a name that is not found, or changed under its own
  induction parents generalizing drafts after with
  | nil => exact kept drafts after keyed ok
  | cons key parents ih =>
    rw [within] at ok
    split at ok
    · rename_i absent
      obtain ⟨inner, changed, last⟩ := Option.bind_eq_some_iff.mp ok
      cases last
      exact keyedAdded keyed absent (keyedTable (ih keyedNone changed) .implied)
    · rename_i origin entries found
      obtain ⟨inner, changed, last⟩ := Option.bind_eq_some_iff.mp ok
      cases last
      exact keyedReplaced keyed key
        (keyedTable (ih (tableEntries (keyedFound keyed found)) changed) origin)
    · rename_i earlier entries found
      obtain ⟨inner, changed, last⟩ := Option.bind_eq_some_iff.mp ok
      cases last
      have rows := keyedFound keyed found
      exact keyedReplaced keyed key (tablesChanged rows (ih (tablesLast rows) changed))
    · contradiction

theorem assignKeyed {own : Bool} {last : String} {value : Value} (finished : value.WellKeyed)
    (parents : List String) {drafts after : Drafts} (keyed : KeyedDrafts drafts)
    (ok : assignTo own last value parents drafts = some after) : KeyedDrafts after := by
  induction parents generalizing own drafts after with
  | nil =>
    rw [assignTo] at ok
    split at ok
    · rename_i allowed
      cases ok
      have absent : drafts.lookup last = none := by simpa using (Bool.and_eq_true_iff.mp allowed).2
      exact keyedAdded keyed absent (.value finished)
    · contradiction
  | cons key parents ih =>
    rw [assignTo] at ok
    split at ok
    · rename_i absent
      obtain ⟨inner, changed, last⟩ := Option.bind_eq_some_iff.mp ok
      cases last
      exact keyedAdded keyed absent (keyedTable (ih keyedNone changed) .dotted)
    · contradiction
    · rename_i entries found
      obtain ⟨inner, changed, last⟩ := Option.bind_eq_some_iff.mp ok
      cases last
      exact keyedReplaced keyed key
        (keyedTable (ih (tableEntries (keyedFound keyed found)) changed) .implied)
    · rename_i entries found
      obtain ⟨inner, changed, last⟩ := Option.bind_eq_some_iff.mp ok
      cases last
      exact keyedReplaced keyed key
        (keyedTable (ih (tableEntries (keyedFound keyed found)) changed) .dotted)
    · rename_i earlier entries found
      obtain ⟨inner, changed, last⟩ := Option.bind_eq_some_iff.mp ok
      cases last
      have rows := keyedFound keyed found
      exact keyedReplaced keyed key (tablesChanged rows (ih (tablesLast rows) changed))
    · contradiction

theorem openTableKeyed {key : String} {drafts after : Drafts} (keyed : KeyedDrafts drafts)
    (ok : openTable key drafts = some after) : KeyedDrafts after := by
  unfold openTable at ok
  split at ok
  · rename_i absent
    cases ok
    exact keyedAdded keyed absent (keyedTable keyedNone .header)
  · rename_i entries found
    cases ok
    exact keyedReplaced keyed key (keyedTable (tableEntries (keyedFound keyed found)) .header)
  · contradiction

theorem openElementKeyed {key : String} {drafts after : Drafts} (keyed : KeyedDrafts drafts)
    (ok : openElement key drafts = some after) : KeyedDrafts after := by
  unfold openElement at ok
  split at ok
  · rename_i absent
    cases ok
    exact keyedAdded keyed absent (.tables (by simp) (by simp) List.nodup_nil (by simp))
  · rename_i earlier last found
    cases ok
    have rows := keyedFound keyed found
    cases rows with
    | tables rowKeys rows keys each =>
      refine keyedReplaced keyed key (.tables ?_ ?_ List.nodup_nil (by simp))
      · intro row member
        rcases List.mem_append.mp member with inside | here
        · exact rowKeys row inside
        · exact List.mem_singleton.mp here ▸ keys
      · intro row member
        rcases List.mem_append.mp member with inside | here
        · exact rows row inside
        · exact List.mem_singleton.mp here ▸ each
  · contradiction

def Statement.WellKeyed : Statement → Prop
  | .assign _ value => value.WellKeyed
  | .header _ => True
  | .arrayHeader _ => True

theorem addKeyed {p next : Progress} {statement : Statement} (keyed : KeyedDrafts p.drafts)
    (brought : statement.WellKeyed) (ok : p.add statement = some next) : KeyedDrafts next.drafts := by
  cases statement with
  | assign path value =>
    obtain ⟨drafts, changed, last⟩ := Option.bind_eq_some_iff.mp ok
    cases last
    exact withinKeyed (fun _ _ before => assignKeyed brought path.parents before) p.current keyed changed
  | header path =>
    obtain ⟨drafts, changed, last⟩ := Option.bind_eq_some_iff.mp ok
    cases last
    exact withinKeyed (fun _ _ => openTableKeyed) path.parents keyed changed
  | arrayHeader path =>
    obtain ⟨drafts, changed, last⟩ := Option.bind_eq_some_iff.mp ok
    cases last
    exact withinKeyed (fun _ _ => openElementKeyed) path.parents keyed changed

theorem addAllKeyed {statements : List Statement} (brought : ∀ s ∈ statements, s.WellKeyed)
    {p last : Progress} (keyed : KeyedDrafts p.drafts)
    (ok : statements.foldlM Progress.add p = some last) : KeyedDrafts last.drafts := by
  induction statements generalizing p with
  | nil =>
    cases ok
    exact keyed
  | cons statement statements ih =>
    rw [List.foldlM_cons] at ok
    obtain ⟨next, added, rest⟩ := Option.bind_eq_some_iff.mp ok
    have here := brought statement List.mem_cons_self
    exact ih (fun s member => brought s (List.mem_cons_of_mem _ member)) (addKeyed keyed here added) rest

theorem finishAllMap (drafts : Drafts) : finishAll drafts = drafts.map fun e => (e.1, e.2.finish) := by
  induction drafts with
  | nil => rfl
  | cons e rest ih => rw [finishAll, ih, List.map_cons]

theorem finishRowsMap (rows : List Drafts) : finishRows rows = rows.map fun row => .table (finishAll row) := by
  induction rows with
  | nil => rfl
  | cons row rest ih => rw [finishRows, ih, List.map_cons]

theorem finishAllKeys (drafts : Drafts) : (finishAll drafts).map Prod.fst = drafts.map Prod.fst := by
  rw [finishAllMap, List.map_map]
  rfl

theorem tableFinished {drafts : Drafts} (keys : (drafts.map Prod.fst).Nodup)
    (each : ∀ e ∈ drafts, e.2.finish.WellKeyed) : Value.WellKeyed (.table (finishAll drafts)) := by
  refine .table (by rw [finishAllKeys]; exact keys) fun e member => ?_
  rw [finishAllMap] at member
  obtain ⟨draft, inside, rfl⟩ := List.mem_map.mp member
  exact each draft inside

theorem finishKeyed {draft : Draft} (keyed : draft.WellKeyed) : draft.finish.WellKeyed := by
  induction keyed with
  | value finished => exact finished
  | table keys each ih => exact tableFinished keys ih
  | tables rowKeys rows keys each rowsFinished lastFinished =>
    refine .array fun v member => ?_
    rcases List.mem_append.mp member with earlier | last
    · rw [finishRowsMap] at earlier
      obtain ⟨row, inside, rfl⟩ := List.mem_map.mp earlier
      exact tableFinished (rowKeys row inside) (rowsFinished row inside)
    · obtain rfl := List.mem_singleton.mp last
      exact tableFinished keys lastFinished

theorem statementsKeyed {statements : List Statement} (brought : ∀ s ∈ statements, s.WellKeyed)
    {entries : Entries} (ok : ofStatements? statements = some entries) :
    Value.WellKeyed (.table entries) := by
  obtain ⟨progress, added, last⟩ := Option.bind_eq_some_iff.mp ok
  cases last
  have keyed := addAllKeyed brought keyedNone added
  exact tableFinished keyed.keys fun e member => finishKeyed (keyed.each e member)

theorem pairsKeyed {list : List (KeyPath × Value)} (brought : ∀ p ∈ list, p.2.WellKeyed)
    {entries : Entries} (ok : ofPairs? list = some entries) : Value.WellKeyed (.table entries) := by
  refine statementsKeyed (fun s member => ?_) ok
  obtain ⟨pair, inside, rfl⟩ := List.mem_map.mp member
  exact brought pair inside

def Gives (reader : Reader α) (property : α → Prop) : Prop :=
  ∀ cs result rest, reader cs = some (result, rest) → property result

theorem measureKeyed {cs : List Char} {v : Value} (ok : measure? cs = some v) : v.WellKeyed := by
  unfold measure? at ok
  rcases Option.or_eq_some_iff.mp ok with found | ⟨_, found⟩
  · obtain ⟨n, _, rfl⟩ := Option.map_eq_some_iff.mp found
    exact .integer n
  · rcases Option.or_eq_some_iff.mp found with found | ⟨_, found⟩
    · obtain ⟨overflows, _, rfl⟩ := Option.map_eq_some_iff.mp found
      exact .float overflows
    · split at found
      · cases found
        exact .moment _
      · contradiction

theorem simpleGives : Gives simpleValue Value.WellKeyed := by
  intro cs v rest ok
  unfold simpleValue at ok
  split at ok
  · obtain ⟨read, _, same⟩ := Option.map_eq_some_iff.mp ok
    cases same
    exact .text _
  · obtain ⟨read, _, same⟩ := Option.map_eq_some_iff.mp ok
    cases same
    exact .text _
  · unfold scalar at ok
    dsimp only at ok
    split at ok
    · cases ok
      exact .boolean true
    · split at ok
      · cases ok
        exact .boolean false
      · obtain ⟨read, found, same⟩ := Option.map_eq_some_iff.mp ok
        cases same
        exact measureKeyed found

section
variable {item : Reader Value} (items : Gives item Value.WellKeyed)
include items

theorem elementsGive (n : Nat) : Gives (elements item n) fun vs => ∀ v ∈ vs, v.WellKeyed := by
  induction n with
  | zero => intro cs vs rest ok; contradiction
  | succ n ih =>
    intro cs vs rest ok
    rw [elements] at ok
    obtain ⟨behind, _, ok⟩ := Option.bind_eq_some_iff.mp ok
    split at ok
    · cases ok
      simp
    · obtain ⟨⟨v, tail⟩, first, ok⟩ := Option.bind_eq_some_iff.mp ok
      have here := items _ _ _ first
      obtain ⟨behind, _, ok⟩ := Option.bind_eq_some_iff.mp ok
      split at ok
      · obtain ⟨⟨more, tail⟩, later, ok⟩ := Option.bind_eq_some_iff.mp ok
        cases ok
        exact List.forall_mem_cons.mpr ⟨here, ih _ _ _ later⟩
      · cases ok
        simpa using here
      · contradiction

theorem pairsGive (limit n : Nat) : Gives (pairs limit item n) fun list => ∀ p ∈ list, p.2.WellKeyed := by
  induction n with
  | zero => intro cs list rest ok; contradiction
  | succ n ih =>
    intro cs list rest ok
    rw [pairs] at ok
    obtain ⟨behind, _, ok⟩ := Option.bind_eq_some_iff.mp ok
    split at ok
    · cases ok
      simp
    · obtain ⟨⟨path, tail⟩, _, ok⟩ := Option.bind_eq_some_iff.mp ok
      obtain ⟨behind, _, ok⟩ := Option.bind_eq_some_iff.mp ok
      split at ok
      · obtain ⟨start, _, ok⟩ := Option.bind_eq_some_iff.mp ok
        obtain ⟨⟨v, tail⟩, first, ok⟩ := Option.bind_eq_some_iff.mp ok
        have here := items _ _ _ first
        obtain ⟨behind, _, ok⟩ := Option.bind_eq_some_iff.mp ok
        split at ok
        · obtain ⟨⟨more, tail⟩, later, ok⟩ := Option.bind_eq_some_iff.mp ok
          cases ok
          exact List.forall_mem_cons.mpr ⟨here, ih _ _ _ later⟩
        · cases ok
          simpa using here
        · contradiction
      · contradiction

theorem nestedGives (limit count : Nat) : Gives (nestedValue limit count item) Value.WellKeyed := by
  intro cs v rest ok
  unfold nestedValue at ok
  split at ok
  · obtain ⟨⟨vs, tail⟩, found, same⟩ := Option.map_eq_some_iff.mp ok
    cases same
    exact .array (elementsGive items count _ _ _ found)
  · obtain ⟨⟨list, tail⟩, found, ok⟩ := Option.bind_eq_some_iff.mp ok
    obtain ⟨entries, made, ok⟩ := Option.bind_eq_some_iff.mp ok
    cases ok
    exact pairsKeyed (pairsGive items limit count _ _ _ found) made
  · exact simpleGives _ _ _ ok

end

theorem valueGives (limit count depth : Nat) : Gives (value limit count depth) Value.WellKeyed := by
  induction depth with
  | zero => exact simpleGives
  | succ depth ih => exact nestedGives ih limit count

theorem statementGives (limit count : Nat) : Gives (statement limit count) Statement.WellKeyed := by
  intro cs s rest ok
  unfold statement at ok
  split at ok
  · obtain ⟨⟨path, tail⟩, _, ok⟩ := Option.bind_eq_some_iff.mp ok
    split at ok
    · obtain ⟨behind, _, ok⟩ := Option.bind_eq_some_iff.mp ok
      cases ok
      trivial
    · contradiction
  · obtain ⟨⟨path, tail⟩, _, ok⟩ := Option.bind_eq_some_iff.mp ok
    split at ok
    · obtain ⟨behind, _, ok⟩ := Option.bind_eq_some_iff.mp ok
      cases ok
      trivial
    · contradiction
  · obtain ⟨⟨path, tail⟩, _, ok⟩ := Option.bind_eq_some_iff.mp ok
    split at ok
    · obtain ⟨⟨v, tail⟩, found, ok⟩ := Option.bind_eq_some_iff.mp ok
      obtain ⟨behind, _, ok⟩ := Option.bind_eq_some_iff.mp ok
      cases ok
      exact valueGives limit count limit _ _ _ found
    · contradiction

theorem allStatementsGiven (limit count n : Nat) {cs : List Char} {list : List Statement}
    (ok : statements limit count n cs = some list) : ∀ s ∈ list, s.WellKeyed := by
  induction n generalizing cs list with
  | zero => contradiction
  | succ n ih =>
    rw [statements] at ok
    obtain ⟨behind, _, ok⟩ := Option.bind_eq_some_iff.mp ok
    split at ok
    · cases ok
      simp
    · obtain ⟨⟨first, tail⟩, found, ok⟩ := Option.bind_eq_some_iff.mp ok
      obtain ⟨more, later, ok⟩ := Option.bind_eq_some_iff.mp ok
      cases ok
      exact List.forall_mem_cons.mpr ⟨statementGives limit count _ _ _ found, ih later⟩

theorem documentKeyed {limit : Nat} {text : String} {entries : Entries}
    (ok : readWithin? limit text = some entries) : Value.WellKeyed (.table entries) := by
  obtain ⟨list, found, made⟩ := Option.bind_eq_some_iff.mp ok
  exact statementsKeyed (allStatementsGiven _ _ _ found) made

end StagedBuild.Document

import StagedBuild.Proofs.DistinctKeys
import StagedBuild.Proofs.Nesting
import StagedBuild.Proofs.SettingKeys

/-! Documents that hold only some of the settings, in any order, and other things besides. Each setting
has what the document says of it, or else its default. What else there is does not matter, as long as it
can be held and does not nest too deep. -/
namespace StagedBuild
open Document (Value Entries entriesHeld)

def isTabular (d : Entries) : Bool :=
  sectionNames.all fun heading =>
    match d.lookup heading with
    | none => true
    | some (.table _) => true
    | some _ => false

theorem heldEntries {entries : Entries} :
    entriesHeld entries = true ↔ ∀ e ∈ entries, e.2.isHeld = true := by
  induction entries with
  | nil => simp [entriesHeld]
  | cons e rest ih => rw [entriesHeld, Bool.and_eq_true, ih, List.forall_mem_cons]

structure Orderly (d : Entries) : Prop where
  keys : (d.map Prod.fst).Nodup
  tables : ∀ heading ∈ sectionNames, ∀ v, (heading, v) ∈ d →
    ∃ fields, v = .table fields ∧ (fields.map Prod.fst).Nodup

theorem orderlyHeld {text : String} {d : Entries} (holds : Document.Holds text d)
    (tabular : isTabular d = true) : Orderly d := by
  obtain ⟨limit, read⟩ := holds
  have keyed := Document.documentKeyed read
  cases keyed with
  | table keys each =>
    refine ⟨keys, fun heading member v inside => ?_⟩
    have isTable := List.all_eq_true.mp tabular heading member
    rw [(Document.lookupMember keys).mpr inside] at isTable
    cases v with
    | table fields =>
      have inner := each _ inside
      cases inner with
      | table fieldKeys _ => exact ⟨fields, rfl, fieldKeys⟩
    | _ => contradiction

theorem orderlyCons {heading : String} {v : Value} {d : Entries} :
    Orderly ((heading, v) :: d) ↔ heading ∉ d.map Prod.fst ∧
      (heading ∈ sectionNames → ∃ fields, v = .table fields ∧ (fields.map Prod.fst).Nodup) ∧
      Orderly d := by
  constructor
  · rintro ⟨keys, tables⟩
    obtain ⟨fresh, rest⟩ := List.nodup_cons.mp keys
    exact ⟨fresh, fun member => tables heading member v List.mem_cons_self,
      rest, fun other member w inside => tables other member w (List.mem_cons_of_mem _ inside)⟩
  · rintro ⟨fresh, here, rest⟩
    refine ⟨List.nodup_cons.mpr ⟨fresh, rest.keys⟩, fun other member w inside => ?_⟩
    rcases List.mem_cons.mp inside with same | later
    · cases same
      exact here member
    · exact rest.tables other member w later

theorem Orderly.sections {d : Entries} (orderly : Orderly d) {heading : String}
    (member : heading ∈ sectionNames) :
    Fields.of? (d.lookup heading) = some (.named (tableAt d heading)) := by
  unfold tableAt
  cases found : d.lookup heading with
  | none => rfl
  | some v =>
    obtain ⟨fields, rfl, _⟩ := orderly.tables heading member v (Document.foundEntry found)
    rfl

theorem sectionMade {d : Entries} (orderly : Orderly d) {heading : String}
    (member : heading ∈ sectionNames) {α : Type} {make : Fields → Option α} {x : α} :
    (section? d heading >>= make) = some x ↔
      entriesHeld (tableAt d heading) = true ∧ make (.named (tableAt d heading)) = some x := by
  have found {fields : Fields} : section? d heading = some fields ↔
      entriesHeld (tableAt d heading) = true ∧ .named (tableAt d heading) = fields := by
    rw [section?, orderly.sections member, Option.bind_eq_bind, Option.bind_some,
      Option.ite_none_right_eq_some, Option.some.injEq]
    rfl
  rw [Option.bind_eq_bind, Option.bind_eq_some_iff]
  constructor
  · rintro ⟨fields, there, made⟩
    obtain ⟨held, rfl⟩ := found.mp there
    exact ⟨held, made⟩
  · rintro ⟨held, made⟩
    exact ⟨_, found.mpr ⟨held, rfl⟩, made⟩

theorem heldParts {d : Entries} (orderly : Orderly d) :
    entriesHeld d = true ↔ (∀ heading ∈ sectionNames, entriesHeld (tableAt d heading) = true) ∧
      entriesHeld (besides d) = true := by
  constructor
  · intro held
    have each := heldEntries.mp held
    refine ⟨fun heading member => ?_, heldEntries.mpr fun e inside => each e (List.mem_filter.mp inside).1⟩
    unfold tableAt
    split
    · rename_i fields found
      exact each _ (Document.foundEntry found)
    · rfl
  · rintro ⟨sections, others⟩
    refine heldEntries.mpr fun e inside => ?_
    obtain ⟨heading, v⟩ := e
    by_cases member : heading ∈ sectionNames
    -- a name comes once, so this entry is the one that is looked up
    · have held := sections heading member
      obtain ⟨fields, rfl, _⟩ := orderly.tables heading member v inside
      rw [tableAt, (Document.lookupMember orderly.keys).mpr inside] at held
      exact held
    · exact heldEntries.mp others _ (List.mem_filter.mpr ⟨inside, by simpa using member⟩)

namespace Settings

theorem documentSections {d : Entries} (orderly : Orderly d) {s : Settings} :
    ofDocument? d = some s ↔ entriesHeld d = true ∧ s.Sectioned d := by
  rw [heldParts orderly]
  constructor
  · intro ok
    obtain ⟨toolchain, first, ok⟩ := Option.bind_eq_some_iff.mp ok
    obtain ⟨compile, second, ok⟩ := Option.bind_eq_some_iff.mp ok
    obtain ⟨optimizer, third, ok⟩ := Option.bind_eq_some_iff.mp ok
    obtain ⟨codegen, fourth, ok⟩ := Option.bind_eq_some_iff.mp ok
    obtain ⟨others, same⟩ := Option.ite_none_right_eq_some.mp ok
    cases same
    obtain ⟨toolchainHeld, toolchainMade⟩ := (sectionMade orderly (by decide)).mp first
    obtain ⟨compileHeld, compileMade⟩ := (sectionMade orderly (by decide)).mp second
    obtain ⟨optimizerHeld, optimizerMade⟩ := (sectionMade orderly (by decide)).mp third
    obtain ⟨codegenHeld, codegenMade⟩ := (sectionMade orderly (by decide)).mp fourth
    refine ⟨⟨?_, others⟩, toolchainMade, compileMade, optimizerMade, codegenMade⟩
    simp [sectionNames, toolchainHeld, compileHeld, optimizerHeld, codegenHeld]
  · rintro ⟨⟨held, others⟩, sections⟩
    have made {heading : String} (member : heading ∈ sectionNames) {α : Type} {make : Fields → Option α}
        {x : α} (given : make (.named (tableAt d heading)) = some x) :
        (section? d heading >>= make) = some x :=
      (sectionMade orderly member).mpr ⟨held heading member, given⟩
    have toolchain := made (by decide) sections.toolchain
    have compile := made (by decide) sections.compile
    have optimizer := made (by decide) sections.optimizer
    have codegen := made (by decide) sections.codegen
    simp only [ofDocument?, toolchain, compile, optimizer, codegen, others, Option.bind_eq_bind,
      Option.bind_some, if_pos]

theorem documentDecoded {d : Entries} (orderly : Orderly d) {s : Settings} :
    ofDocument? d = some s ↔ entriesHeld d = true ∧ s.Follows d := by
  rw [documentSections orderly, followsSections]

end Settings

/- The same settings said in another way: sections and fields in another order, with other sections and
fields besides, or with a section that says nothing. -/
inductive Restated : Entries → Entries → Prop where
  | order {d e} (same : d.Perm e) : Restated d e
  | fieldOrder {heading fields others d} (same : fields.Perm others) :
      Restated ((heading, .table fields) :: d) ((heading, .table others) :: d)
  | addSection {name v d} (strange : name ∉ sectionNames) (fresh : name ∉ d.map Prod.fst)
      (held : v.isHeld = true) : Restated d ((name, v) :: d)
  | addField {heading name v fields d} (strange : ∀ key : Key, key.heading = heading → key.name ≠ name)
      (fresh : name ∉ fields.map Prod.fst) (held : v.isHeld = true) :
      Restated ((heading, .table fields) :: d) ((heading, .table ((name, v) :: fields)) :: d)
  | addHeading {heading d} (fresh : heading ∉ d.map Prod.fst) : Restated d ((heading, .table []) :: d)
  | symm {d e} (other : Restated d e) : Restated e d
  | trans {d e f} (first : Restated d e) (second : Restated e f) : Restated d f

structure SameSaid (d e : Entries) : Prop where
  orderly : Orderly d ↔ Orderly e
  held : entriesHeld d = entriesHeld e
  values : Orderly d → ∀ key : Key, key.valueIn d = key.valueIn e

theorem valueBehind {key : Key} {heading : String} (other : key.heading ≠ heading) (v : Value)
    (d : Entries) : key.valueIn ((heading, v) :: d) = key.valueIn d := by
  have differs : (key.heading == heading) = false := by simpa using other
  simp only [Key.valueIn, tableAt, List.lookup_cons, differs]

theorem valueAhead (key : Key) (fields d : Entries) :
    key.valueIn ((key.heading, .table fields) :: d) = fields.lookup key.name := by
  simp only [Key.valueIn, tableAt, List.lookup_cons_self]

theorem valueMissing {key : Key} {d : Entries} (fresh : key.heading ∉ d.map Prod.fst) :
    key.valueIn d = none := by
  have absent : d.lookup key.heading = none := by
    refine List.lookup_eq_none_iff.mpr fun e inside => ?_
    have other : key.heading ≠ e.1 := fun same => fresh (same ▸ List.mem_map_of_mem inside)
    simpa using other
  simp only [Key.valueIn, tableAt, absent, List.lookup_nil]

theorem heldPerm {d e : Entries} (order : d.Perm e) : entriesHeld d = entriesHeld e := by
  rw [Bool.eq_iff_iff, heldEntries, heldEntries]
  exact ⟨fun each x inside => each x (order.mem_iff.mpr inside),
    fun each x inside => each x (order.mem_iff.mp inside)⟩

theorem orderSaid {d e : Entries} (order : d.Perm e) : SameSaid d e where
  orderly := by
    have kept {a b : Entries} (same : a.Perm b) (orderly : Orderly a) : Orderly b :=
      ⟨(same.map Prod.fst).nodup_iff.mp orderly.keys, fun heading member v inside =>
        orderly.tables heading member v (same.mem_iff.mpr inside)⟩
    exact ⟨kept order, kept order.symm⟩
  held := heldPerm order
  values orderly key := by
    simp only [Key.valueIn, tableAt, Document.lookupPerm orderly.keys order]

theorem sectionSaid {heading : String} {fields others d : Entries}
    (keys : (fields.map Prod.fst).Nodup ↔ (others.map Prod.fst).Nodup)
    (held : entriesHeld fields = entriesHeld others)
    (values : (fields.map Prod.fst).Nodup → ∀ key : Key, key.heading = heading →
      fields.lookup key.name = others.lookup key.name) :
    SameSaid ((heading, .table fields) :: d) ((heading, .table others) :: d) where
  orderly := by simp [orderlyCons, keys]
  held := by simp only [entriesHeld, Value.isHeld, held]
  values orderly key := by
    by_cases same : key.heading = heading
    · subst same
      obtain ⟨fieldsTable, table, distinct⟩ := (orderlyCons.mp orderly).2.1 key.headingMember
      cases table
      rw [valueAhead, valueAhead, values distinct key rfl]
    · rw [valueBehind same, valueBehind same]

theorem restatedSaid {d e : Entries} (restated : Restated d e) : SameSaid d e := by
  induction restated with
  | order same => exact orderSaid same
  | fieldOrder same =>
    exact sectionSaid (same.map Prod.fst).nodup_iff (heldPerm same)
      fun keys key _ => Document.lookupPerm keys same key.name
  | addSection strange fresh held =>
    refine ⟨by simp [orderlyCons, strange, fresh], by simp [entriesHeld, held], fun _ key => ?_⟩
    refine (valueBehind ?_ _ _).symm
    rintro rfl
    exact strange key.headingMember
  | @addField heading name v fields d strange fresh held =>
    refine sectionSaid ?_ (by simp [entriesHeld, held]) fun _ key same => ?_
    · rw [List.map_cons, List.nodup_cons]
      exact ⟨fun keys => ⟨fresh, keys⟩, fun keys => keys.2⟩
    · have differs : (key.name == name) = false := by simpa using strange key same
      rw [List.lookup_cons, differs]
  | @addHeading heading d fresh =>
    refine ⟨by simp [orderlyCons, fresh], by simp [entriesHeld, Value.isHeld], fun _ key => ?_⟩
    by_cases same : key.heading = heading
    · subst same
      rw [valueAhead, valueMissing fresh, List.lookup_nil]
    · rw [valueBehind same]
  | symm other said =>
    exact ⟨said.orderly.symm, said.held.symm,
      fun orderly key => (said.values (said.orderly.mpr orderly) key).symm⟩
  | trans first second said later =>
    exact ⟨said.orderly.trans later.orderly, said.held.trans later.held, fun orderly key =>
      (said.values orderly key).trans (later.values (said.orderly.mp orderly) key)⟩

theorem restatedDecoded {d e : Entries} (orderly : Orderly d) (restated : Restated d e) :
    Settings.ofDocument? e = Settings.ofDocument? d := by
  have said := restatedSaid restated
  refine Option.ext fun s => ?_
  rw [Settings.documentDecoded orderly, Settings.documentDecoded (said.orderly.mp orderly), said.held]
  simp only [Settings.Follows, said.values orderly]

theorem checkedIff {settings s : Settings} :
    settings.checked = .ok s ↔ settings = s ∧ s.validate = .ok () := by
  rw [(checkedReadsBack settings).accepted]
  constructor
  · rintro ⟨valid, rfl⟩
    exact ⟨rfl, valid⟩
  · rintro ⟨rfl, valid⟩
    exact ⟨valid, rfl⟩

structure DecodesByKey (text : String) (d : Entries) : Prop where
  read : Document.read? text = some d
  succeeds : (∃ s, Settings.ofDocument? d = some s) ↔ isTyped d = true ∧ entriesHeld d = true
  follows : ∀ s, Settings.ofDocument? d = some s → s.Follows d
  restated : ∀ e, Restated d e → Settings.ofDocument? e = Settings.ofDocument? d
  rewritten : ∀ other e path, Document.Holds other e → Document.NestsWithin Document.depthLimit other →
    Restated d e → Settings.ofText path other = Settings.ofText path text
  loaded : ∀ (store : Store) (path : String) (place : Location) (content : ByteArray) (executable : Bool),
    store.find path = .ok (place, .file content executable) → String.fromUTF8? content = some text →
    (∀ s, store.loadSettings path = .ok s ↔ Settings.ofDocument? d = some s ∧ s.validate = .ok ()) ∧
    (store.loadSettings path = .error (.malformed path) ↔ Settings.ofDocument? d = none)

theorem readHolds {text : String} {p : Entries → Prop} [DecidablePred p] (limit : Nat)
    (check : (Document.readWithin? limit text).any (fun d => decide (p d)) = true) :
    ∃ d, Document.Holds text d ∧ Document.NestsWithin limit text ∧ p d := by
  obtain ⟨d, read, holds⟩ := (Option.any_eq_true _ _).mp check
  have known : Document.Holds text d := ⟨limit, read⟩
  exact ⟨d, known, (Document.nestsWithinIff known limit).mpr read, of_decide_eq_true holds⟩

theorem decodesByKey {text : String} {d : Entries} (read : Document.read? text = some d)
    (tabular : isTabular d = true) : DecodesByKey text d := by
  have orderly := orderlyHeld ⟨_, read⟩ tabular
  refine ⟨read, ?_, fun s ok => ((Settings.documentDecoded orderly).mp ok).2,
    fun e => restatedDecoded orderly, ?_, ?_⟩
  · simp only [Settings.documentDecoded orderly, exists_and_left, Settings.followsTyped]
    exact And.comm
  · intro other e path holds nests restated
    have also : Document.read? other = some e := (Document.nestsWithinIff holds _).mp nests
    simp only [Settings.ofText, read, also, Option.bind_eq_bind, Option.bind_some,
      restatedDecoded orderly restated]
  · intro store path place content executable found decoded
    have loaded : store.loadSettings path = Settings.ofText path text := by
      simp only [Store.loadSettings, found, Settings.ofBytes, decoded]
    rw [loaded, Settings.ofText, read, Option.bind_eq_bind, Option.bind_some]
    cases ok : Settings.ofDocument? d with
    | none => simp
    | some settings =>
      refine ⟨fun s => ?_, ?_⟩
      · rw [Option.some.injEq]
        exact checkedIff
      · simpa using (checkedReadsBack settings).wellFormed path

theorem deepRefused {text : String} (deep : ¬ Document.NestsWithin Document.depthLimit text)
    (path : String) : Settings.ofText path text = .error (.malformed path) := by
  have unread : Document.read? text = none := Option.not_isSome_iff_eq_none.mp deep
  rw [Settings.ofText, unread]
  rfl

end StagedBuild

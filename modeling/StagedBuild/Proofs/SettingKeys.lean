import StagedBuild.Proofs.SettingsText

/-! The eight settings, each under the name of its section and its own, with the kind of value that it
takes. Settings are made of a document key by key: what it has of each, or else the default. -/
namespace StagedBuild
open Document (Value Entries)

inductive Kind where
  | text
  | texts
  | flag
  deriving DecidableEq

def isText : Value → Bool
  | .text _ => true
  | _ => false

def Kind.fits : Kind → Value → Bool
  | .text, v => isText v
  | .texts, .array elements => elements.all isText
  | .flag, .boolean _ => true
  | _, _ => false

namespace Setting

def kind : Setting → Kind
  | .text _ => .text
  | .texts _ => .texts
  | .flag _ => .flag

def HasForm (x : Setting) : Kind → Prop
  | .text => ∃ s, x = .text s
  | .texts => ∃ ss, x = .texts ss
  | .flag => ∃ b, x = .flag b

theorem hasForm (x : Setting) : x.HasForm x.kind := by
  cases x <;> exact ⟨_, rfl⟩

end Setting

theorem textsFit {elements : List Value} (all : ∀ v ∈ elements, isText v = true) :
    ∃ ss : List String, elements = ss.map .text := by
  induction elements with
  | nil => exact ⟨[], rfl⟩
  | cons v rest ih =>
    obtain ⟨here, later⟩ := List.forall_mem_cons.mp all
    obtain ⟨ss, rfl⟩ := ih later
    cases v with
    | text s => exact ⟨s :: ss, rfl⟩
    | _ => contradiction

theorem fitsSetting {k : Kind} {v : Value} :
    k.fits v = true ↔ ∃ x : Setting, x.kind = k ∧ x.value = v := by
  constructor
  · intro fits
    cases k with
    | text =>
      cases v with
      | text s => exact ⟨.text s, rfl, rfl⟩
      | _ => contradiction
    | texts =>
      cases v with
      | array elements =>
        obtain ⟨ss, rfl⟩ := textsFit (List.all_eq_true.mp fits)
        exact ⟨.texts ss, rfl, rfl⟩
      | _ => contradiction
    | flag =>
      cases v with
      | boolean b => exact ⟨.flag b, rfl, rfl⟩
      | _ => contradiction
  · rintro ⟨x, rfl, rfl⟩
    cases x with
    | text s => rfl
    | texts ss => simp [Setting.kind, Setting.value, Kind.fits, isText]
    | flag b => rfl

inductive Key where
  | cc
  | opt
  | llc
  | irFlags
  | plugin
  | passes
  | stats
  | filetype
  deriving DecidableEq

namespace Key

def all : List Key := [cc, opt, llc, irFlags, plugin, passes, stats, filetype]

def heading : Key → String
  | cc | opt | llc => "toolchain"
  | irFlags => "compile"
  | plugin | passes | stats => "optimizer"
  | filetype => "codegen"

def name : Key → String
  | cc => "cc"
  | opt => "opt"
  | llc => "llc"
  | irFlags => "ir_flags"
  | plugin => "plugin"
  | passes => "passes"
  | stats => "stats"
  | filetype => "filetype"

def kind : Key → Kind
  | irFlags | passes => .texts
  | stats => .flag
  | _ => .text

theorem memAll (key : Key) : key ∈ all := by cases key <;> decide

theorem headingMember (key : Key) : key.heading ∈ sectionNames := by cases key <;> decide

end Key

def Settings.get (s : Settings) : Key → Setting
  | .cc => .text s.toolchain.cc
  | .opt => .text s.toolchain.opt
  | .llc => .text s.toolchain.llc
  | .irFlags => .texts s.compile.irFlags
  | .plugin => .text s.optimizer.plugin
  | .passes => .texts s.optimizer.passes
  | .stats => .flag s.optimizer.stats
  | .filetype => .text s.codegen.filetype

theorem getKind (s : Settings) (key : Key) : (s.get key).kind = key.kind := by cases key <;> rfl

theorem settingsChosen (chosen : Key → Setting) (kinds : ∀ key, (chosen key).kind = key.kind) :
    ∃ s : Settings, ∀ key, s.get key = chosen key := by
  have form (key : Key) : (chosen key).HasForm key.kind := kinds key ▸ (chosen key).hasForm
  obtain ⟨cc, isCc⟩ := form .cc
  obtain ⟨opt, isOpt⟩ := form .opt
  obtain ⟨llc, isLlc⟩ := form .llc
  obtain ⟨irFlags, areFlags⟩ := form .irFlags
  obtain ⟨plugin, isPlugin⟩ := form .plugin
  obtain ⟨passes, arePasses⟩ := form .passes
  obtain ⟨stats, isStats⟩ := form .stats
  obtain ⟨filetype, isFiletype⟩ := form .filetype
  refine ⟨⟨⟨cc, opt, llc⟩, ⟨irFlags⟩, ⟨plugin, passes, stats⟩, ⟨filetype⟩⟩, fun key => ?_⟩
  cases key <;> simp only [Settings.get, *]

def tableAt (d : Entries) (heading : String) : Entries :=
  match d.lookup heading with
  | some (.table fields) => fields
  | _ => []

def Key.valueIn (key : Key) (d : Entries) : Option Value := (tableAt d key.heading).lookup key.name

def isTyped (d : Entries) : Bool := Key.all.all fun key => (key.valueIn d).all key.kind.fits

theorem typedIff {d : Entries} :
    isTyped d = true ↔ ∀ key v, Key.valueIn key d = some v → key.kind.fits v = true := by
  unfold isTyped
  rw [List.all_eq_true]
  constructor
  · intro typed key v found
    simpa [found] using typed key key.memAll
  · intro typed key _
    cases found : key.valueIn d with
    | none => rfl
    | some v => exact typed key v found

theorem readGiven {α : Type} {as? : Value → Option α} {written : α → Value}
    (inverse : ∀ v x, as? v = some x ↔ written x = v) {fields : Entries} {name : String} {position : Nat}
    {usual x : α} :
    (Fields.named fields).read as? name position usual = some x ↔
      written x = (fields.lookup name).getD (written usual) := by
  cases found : fields.lookup name with
  | none =>
    have missing : (Fields.named fields).read as? name position usual = some usual := by
      simp only [Fields.read, Fields.get?, found]
    rw [missing, Option.getD_none, ← inverse, (inverse (written usual) usual).mpr rfl]
  | some v =>
    have present : (Fields.named fields).read as? name position usual = as? v := by
      simp only [Fields.read, Fields.get?, found]
    rw [present, Option.getD_some, inverse]

theorem textExact (v : Value) (x : String) : textOf? v = some x ↔ (Setting.text x).value = v := by
  cases v <;> simp [textOf?, Setting.value, eq_comm]

theorem flagExact (v : Value) (x : Bool) : flagOf? v = some x ↔ (Setting.flag x).value = v := by
  cases v <;> simp [flagOf?, Setting.value, eq_comm]

theorem textsExact (v : Value) (x : List String) : textsOf? v = some x ↔ (Setting.texts x).value = v := by
  have elementsExact (elements : List Value) (x : List String) :
      elements.mapM textOf? = some x → x.map .text = elements := by
    induction elements generalizing x with
    | nil =>
      intro ok
      cases ok
      rfl
    | cons e rest ih =>
      intro ok
      rw [List.mapM_cons] at ok
      obtain ⟨s, first, ok⟩ := Option.bind_eq_some_iff.mp ok
      obtain ⟨ss, later, ok⟩ := Option.bind_eq_some_iff.mp ok
      cases ok
      rw [List.map_cons, ih ss later]
      exact congrArg (· :: rest) ((textExact e s).mp first)
  constructor
  · intro ok
    cases v with
    | array elements => exact congrArg Value.array (elementsExact elements x ok)
    | _ => contradiction
  · rintro rfl
    exact textsRead x

theorem Toolchain.ofFieldsIff {f : Fields} {t : Toolchain} :
    Toolchain.ofFields? f = some t ↔ f.read textOf? "cc" 0 ({} : Toolchain).cc = some t.cc ∧
      f.read textOf? "opt" 1 ({} : Toolchain).opt = some t.opt ∧
      f.read textOf? "llc" 2 ({} : Toolchain).llc = some t.llc := by
  simp only [Toolchain.ofFields?, Option.bind_eq_bind, Option.bind_eq_some_iff]
  constructor
  · rintro ⟨cc, first, opt, second, llc, third, same⟩
    cases same
    exact ⟨first, second, third⟩
  · rintro ⟨first, second, third⟩
    exact ⟨_, first, _, second, _, third, rfl⟩

theorem Compile.ofFieldsIff {f : Fields} {c : Compile} :
    Compile.ofFields? f = some c ↔
      f.read textsOf? "ir_flags" 0 ({} : Compile).irFlags = some c.irFlags := by
  simp only [Compile.ofFields?, Option.bind_eq_bind, Option.bind_eq_some_iff]
  constructor
  · rintro ⟨irFlags, first, same⟩
    cases same
    exact first
  · intro first
    exact ⟨_, first, rfl⟩

theorem Optimizer.ofFieldsIff {f : Fields} {o : Optimizer} :
    Optimizer.ofFields? f = some o ↔ f.read textOf? "plugin" 0 ({} : Optimizer).plugin = some o.plugin ∧
      f.read textsOf? "passes" 1 ({} : Optimizer).passes = some o.passes ∧
      f.read flagOf? "stats" 2 ({} : Optimizer).stats = some o.stats := by
  simp only [Optimizer.ofFields?, Option.bind_eq_bind, Option.bind_eq_some_iff]
  constructor
  · rintro ⟨plugin, first, passes, second, stats, third, same⟩
    cases same
    exact ⟨first, second, third⟩
  · rintro ⟨first, second, third⟩
    exact ⟨_, first, _, second, _, third, rfl⟩

theorem Codegen.ofFieldsIff {f : Fields} {c : Codegen} :
    Codegen.ofFields? f = some c ↔
      f.read textOf? "filetype" 0 ({} : Codegen).filetype = some c.filetype := by
  simp only [Codegen.ofFields?, Option.bind_eq_bind, Option.bind_eq_some_iff]
  constructor
  · rintro ⟨filetype, first, same⟩
    cases same
    exact first
  · intro first
    exact ⟨_, first, rfl⟩

namespace Settings

def Follows (s : Settings) (d : Entries) : Prop :=
  ∀ key : Key, (s.get key).value = (key.valueIn d).getD (({} : Settings).get key).value

structure Sectioned (s : Settings) (d : Entries) : Prop where
  toolchain : Toolchain.ofFields? (.named (tableAt d "toolchain")) = some s.toolchain
  compile : Compile.ofFields? (.named (tableAt d "compile")) = some s.compile
  optimizer : Optimizer.ofFields? (.named (tableAt d "optimizer")) = some s.optimizer
  codegen : Codegen.ofFields? (.named (tableAt d "codegen")) = some s.codegen

theorem followsSections {s : Settings} {d : Entries} : s.Follows d ↔ s.Sectioned d := by
  constructor
  · intro follows
    exact {
      toolchain := Toolchain.ofFieldsIff.mpr ⟨(readGiven textExact).mpr (follows .cc),
        (readGiven textExact).mpr (follows .opt), (readGiven textExact).mpr (follows .llc)⟩
      compile := Compile.ofFieldsIff.mpr ((readGiven textsExact).mpr (follows .irFlags))
      optimizer := Optimizer.ofFieldsIff.mpr ⟨(readGiven textExact).mpr (follows .plugin),
        (readGiven textsExact).mpr (follows .passes), (readGiven flagExact).mpr (follows .stats)⟩
      codegen := Codegen.ofFieldsIff.mpr ((readGiven textExact).mpr (follows .filetype)) }
  · intro sections key
    obtain ⟨cc, opt, llc⟩ := Toolchain.ofFieldsIff.mp sections.toolchain
    obtain ⟨plugin, passes, stats⟩ := Optimizer.ofFieldsIff.mp sections.optimizer
    cases key with
    | cc => exact (readGiven textExact).mp cc
    | opt => exact (readGiven textExact).mp opt
    | llc => exact (readGiven textExact).mp llc
    | irFlags => exact (readGiven textsExact).mp (Compile.ofFieldsIff.mp sections.compile)
    | plugin => exact (readGiven textExact).mp plugin
    | passes => exact (readGiven textsExact).mp passes
    | stats => exact (readGiven flagExact).mp stats
    | filetype => exact (readGiven textExact).mp (Codegen.ofFieldsIff.mp sections.codegen)

theorem followsTyped {d : Entries} : (∃ s : Settings, s.Follows d) ↔ isTyped d = true := by
  rw [typedIff]
  constructor
  · rintro ⟨s, follows⟩ key v found
    refine fitsSetting.mpr ⟨s.get key, getKind s key, ?_⟩
    rw [follows key, found, Option.getD_some]
  · intro typed
    have each (key : Key) : ∃ x : Setting, x.kind = key.kind ∧
        x.value = (key.valueIn d).getD (({} : Settings).get key).value := by
      cases found : key.valueIn d with
      | none => exact ⟨_, getKind {} key, rfl⟩
      | some v => exact fitsSetting.mp (typed key v found)
    obtain ⟨chosen, all⟩ := Classical.skolem.mp each
    obtain ⟨s, gets⟩ := settingsChosen chosen fun key => (all key).1
    refine ⟨s, fun key => ?_⟩
    rw [gets key]
    exact (all key).2

end Settings

end StagedBuild

import StagedBuild.Proofs.Sections
import StagedBuild.Proofs.Store
import StagedBuild.Proofs.WrittenDocument
import StagedBuild.World.SettingsFile

/-! Settings that are written as a document and read again. Whatever they hold, the document gives back
the same settings, so that only the check of what they say can refuse them. -/
namespace StagedBuild
open Document (Value Entries Section Line Written IsBare isBareName)

inductive Setting where
  | text (s : String)
  | texts (ss : List String)
  | flag (b : Bool)

namespace Setting

def value : Setting → Value
  | .text s => .text s
  | .texts ss => .array (ss.map .text)
  | .flag b => .boolean b

def write : Setting → List Char
  | .text s => writeText s
  | .texts ss => writeTexts ss
  | .flag b => writeFlag b

theorem written (x : Setting) : Written x.write x.value := by
  cases x with
  | text s => exact Document.textWritten s
  | texts ss => exact Document.textsWritten ss
  | flag b => exact Document.flagWritten b

end Setting

structure Part where
  name : String
  fields : List (String × Setting)

namespace Part

def toSection (p : Part) : Section := ⟨p.name, p.fields.map fun (name, x) => (name, x.value)⟩

def fieldLine (field : String × Setting) : Line :=
  ⟨writeField field.1 field.2.write, .assign ⟨[], field.1⟩ field.2.value⟩

def lines (above : List Char) (p : Part) : List Line :=
  ⟨above ++ writeHeader p.name, .header ⟨[], p.name⟩⟩ :: p.fields.map fieldLine

def Bare (p : Part) : Prop := IsBare p.name ∧ ∀ field ∈ p.fields, IsBare field.1

theorem linesRead {p : Part} (bare : p.Bare) {above : List Char} (gap : above = [] ∨ above = ['\n']) :
    ∀ l ∈ p.lines above, l.Reads := by
  intro l member
  rcases List.mem_cons.mp member with rfl | later
  · have header := Document.headerReads bare.1
    rcases gap with rfl | rfl
    · exact header
    · exact header.below
  · obtain ⟨field, inside, rfl⟩ := List.mem_map.mp later
    exact Document.fieldReads (bare.2 field inside) field.2.written

theorem linesStatements (p : Part) (above : List Char) :
    (p.lines above).map Line.statement = p.toSection.statements := by
  simp [lines, Section.statements, toSection, fieldLine, Document.assignment, Function.comp_def]

def allLines : List Part → List Line
  | [] => []
  | p :: rest => p.lines [] ++ rest.flatMap (lines ['\n'])

theorem allLinesRead {parts : List Part} (bare : ∀ p ∈ parts, p.Bare) : ∀ l ∈ allLines parts, l.Reads := by
  cases parts with
  | nil => simp [allLines]
  | cons p rest =>
    intro l member
    rcases List.mem_append.mp member with first | later
    · exact linesRead (bare p (by simp)) (.inl rfl) l first
    · obtain ⟨q, inside, line⟩ := List.mem_flatMap.mp later
      exact linesRead (bare q (by simp [inside])) (.inr rfl) l line

theorem allLinesStatements (parts : List Part) :
    (allLines parts).map Line.statement = (parts.map toSection).flatMap Section.statements := by
  cases parts with
  | nil => rfl
  | cons p rest =>
    simp [allLines, linesStatements, List.map_flatMap, List.flatMap_map]

end Part

def Toolchain.part (t : Toolchain) : Part :=
  ⟨"toolchain", [("cc", .text t.cc), ("opt", .text t.opt), ("llc", .text t.llc)]⟩

def Compile.part (c : Compile) : Part := ⟨"compile", [("ir_flags", .texts c.irFlags)]⟩

def Optimizer.part (o : Optimizer) : Part :=
  ⟨"optimizer", [("plugin", .text o.plugin), ("passes", .texts o.passes), ("stats", .flag o.stats)]⟩

def Codegen.part (c : Codegen) : Part := ⟨"codegen", [("filetype", .text c.filetype)]⟩

namespace Settings

def parts (s : Settings) : List Part :=
  [s.toolchain.part, s.compile.part, s.optimizer.part, s.codegen.part]

def layout : List (String × List String) :=
  (parts {}).map fun p => (p.name, p.fields.map Prod.fst)

theorem partLayout {s : Settings} {p : Part} (member : p ∈ s.parts) :
    (p.name, p.fields.map Prod.fst) ∈ layout := by
  have same : s.parts.map (fun p => (p.name, p.fields.map Prod.fst)) = layout := rfl
  rw [← same]
  exact List.mem_map_of_mem member

theorem partBare {s : Settings} {p : Part} (member : p ∈ s.parts) : p.Bare := by
  have all : layout.all (fun entry => (entry.1 :: entry.2).all isBareName) = true := by decide
  have names := List.all_eq_true.mp (List.all_eq_true.mp all _ (partLayout member))
  have bare (name : String) (inside : name ∈ p.name :: p.fields.map Prod.fst) : IsBare name :=
    Document.bareChecked (names name inside)
  exact ⟨bare _ (by simp), fun field inside => bare _ (by simp [List.mem_map_of_mem inside])⟩

theorem documentLines (s : Settings) :
    s.toDocument.toList = (Part.allLines s.parts).flatMap Line.text := by
  simp [toDocument, parts, Part.allLines, Part.lines, Part.fieldLine, Setting.write, Toolchain.part,
    Toolchain.write, Compile.part, Compile.write, Optimizer.part, Optimizer.write, Codegen.part,
    Codegen.write]

theorem documentEntries (s : Settings) :
    Document.read? s.toDocument = some (s.parts.map fun p => p.toSection.entry) := by
  have reads := Part.allLinesRead fun p (member : p ∈ s.parts) => partBare member
  have mark : s.toDocument.toList.head? ≠ some '\ufeff' := by
    rw [documentLines]
    simp [parts, Part.allLines, Part.lines, Toolchain.part, writeHeader]
  have names : ((s.parts.map Part.toSection).map Section.name).Nodup := by
    have same : (s.parts.map Part.toSection).map Section.name = layout.map Prod.fst := rfl
    rw [same]
    decide
  have fields : ∀ q ∈ s.parts.map Part.toSection, (q.fields.map Prod.fst).Nodup := by
    intro q member
    obtain ⟨p, inside, rfl⟩ := List.mem_map.mp member
    have all : ∀ entry ∈ layout, entry.2.Nodup := by decide
    have distinct := all _ (partLayout inside)
    simpa [Part.toSection, Function.comp_def] using distinct
  rw [Document.documentRead reads (documentLines s) mark, Part.allLinesStatements,
    Document.ofSections _ names fields, List.map_map]
  rfl

end Settings

theorem textsRead (ss : List String) : textsOf? (.array (ss.map .text)) = some ss := by
  have all : (ss.map Value.text).mapM textOf? = some ss := by
    induction ss with
    | nil => rfl
    | cons s ss ih => simp [ih, textOf?]
  exact all

theorem Setting.valueHeld (x : Setting) : x.value.isHeld = true := by
  cases x with
  | text s => rfl
  | flag b => rfl
  | texts ss =>
    have all : Document.areHeld (ss.map .text) = true := by
      induction ss with
      | nil => rfl
      | cons s ss ih => simpa [Document.areHeld, Value.isHeld] using ih
    exact all

def Part.named (p : Part) : Fields := .named p.toSection.fields

theorem Part.namedHeld (p : Part) : p.named.areHeld = true := by
  have all (fields : List (String × Setting)) :
      Document.entriesHeld (fields.map fun (name, x) => (name, x.value)) = true := by
    induction fields with
    | nil => rfl
    | cons field fields ih => simp [Document.entriesHeld, field.2.valueHeld, ih]
  exact all p.fields

theorem partFound {document : Entries} {p : Part} (found : document.lookup p.name =
    some p.toSection.entry.2) : section? document p.name = some p.named := by
  have held := p.namedHeld
  simp only [section?, found, Section.entry, Fields.of?, bind, Option.bind]
  exact if_pos held

theorem Toolchain.decoded (t : Toolchain) : Toolchain.ofFields? t.part.named = some t := rfl

theorem Compile.decoded (c : Compile) : Compile.ofFields? c.part.named = some c := by
  have flags : c.part.named.read textsOf? "ir_flags" 0 ({} : Compile).irFlags = some c.irFlags :=
    textsRead c.irFlags
  simp only [Compile.ofFields?, flags]
  rfl

theorem Optimizer.decoded (o : Optimizer) : Optimizer.ofFields? o.part.named = some o := by
  have passes : o.part.named.read textsOf? "passes" 1 ({} : Optimizer).passes = some o.passes :=
    textsRead o.passes
  simp only [Optimizer.ofFields?, passes]
  rfl

theorem Codegen.decoded (c : Codegen) : Codegen.ofFields? c.part.named = some c := rfl

theorem textOfBytes (text : String) : String.fromUTF8? text.toUTF8 = some text := by
  unfold String.fromUTF8?
  rw [String.toUTF8_eq_toByteArray, dif_pos text.isValidUTF8]
  rfl

namespace Settings

theorem entriesDecoded (s : Settings) :
    ofDocument? (s.parts.map fun p => p.toSection.entry) = some s := by
  have toolchain : section? (s.parts.map fun p => p.toSection.entry) "toolchain" =
      some s.toolchain.part.named := partFound (p := s.toolchain.part) rfl
  have compile : section? (s.parts.map fun p => p.toSection.entry) "compile" =
      some s.compile.part.named := partFound (p := s.compile.part) rfl
  have optimizer : section? (s.parts.map fun p => p.toSection.entry) "optimizer" =
      some s.optimizer.part.named := partFound (p := s.optimizer.part) rfl
  have codegen : section? (s.parts.map fun p => p.toSection.entry) "codegen" =
      some s.codegen.part.named := partFound (p := s.codegen.part) rfl
  have nothing : besides (s.parts.map fun p => p.toSection.entry) = [] := rfl
  simp [ofDocument?, toolchain, compile, optimizer, codegen, nothing, Toolchain.decoded,
    Compile.decoded, Optimizer.decoded, Codegen.decoded, Document.entriesHeld]

theorem writtenDecoded (s : Settings) (path : String) :
    ofBytes path s.toDocument.toUTF8 = s.checked := by
  simp only [ofBytes, textOfBytes, ofText, documentEntries, Option.bind_eq_bind, Option.bind_some,
    entriesDecoded]

theorem validateCases (s : Settings) :
    s.validate = .ok () ∨ ∃ reason, s.validate = .error (.invalid reason) := by
  unfold validate
  cases s.violation? with
  | none => exact .inl rfl
  | some violation => exact .inr ⟨_, rfl⟩

end Settings

structure ReadsBack (settings : Settings) (loaded : Except SettingsError Settings) : Prop where
  accepted : ∀ other, loaded = .ok other ↔ settings.validate = .ok () ∧ other = settings
  refused : ∀ error, loaded = .error error ↔ settings.validate = .error error
  readable : ∀ path fault, loaded ≠ .error (.unreadable path fault)
  wellFormed : ∀ path, loaded ≠ .error (.malformed path)

theorem checkedReadsBack (settings : Settings) : ReadsBack settings settings.checked := by
  rcases settings.validateCases with passed | ⟨reason, failed⟩
  · have kept : settings.checked = .ok settings := by simp [Settings.checked, passed, Except.map]
    rw [kept]
    exact ⟨by simp [passed, eq_comm], by simp [passed], by simp, by simp⟩
  · have lost : settings.checked = .error (.invalid reason) := by
      simp [Settings.checked, failed, Except.map]
    rw [lost]
    exact ⟨by simp [failed], by simp [failed], by simp, by simp⟩

theorem writtenSettingsReadBack (settings : Settings) :
    (∀ path, ReadsBack settings (Settings.ofBytes path settings.toDocument.toUTF8)) ∧
    ∀ (store after : Store) (path : String), store.write path settings.toDocument.toUTF8 = .ok after →
      ReadsBack settings (after.loadSettings path) := by
  constructor
  · intro path
    rw [Settings.writtenDecoded]
    exact checkedReadsBack settings
  · intro store after path written
    obtain ⟨l, executable, found⟩ := Store.writtenFind written
    simp only [Store.loadSettings, found, Settings.writtenDecoded]
    exact checkedReadsBack settings

theorem settingsWithEscapesReadBack :
    let settings : Settings := {
      toolchain := { cc := "\x00\r\n\"\"\"", opt := "'''\\ \n" }
      compile := ⟨[]⟩
      optimizer := { plugin := "\"'", passes := ["\x7f", "''\\", "é "], stats := false } }
    let store : Store := ⟨["work"], [([], .directory), (["work"], .directory),
      (["work", "config.toml"], .file .empty true)]⟩
    let after := store.set ["work", "config.toml"] (.file settings.toDocument.toUTF8 true)
    store.write "config.toml" settings.toDocument.toUTF8 = .ok after ∧
      after.loadSettings "config.toml" = .ok settings := by
  intro settings store after
  have written : store.write "config.toml" settings.toDocument.toUTF8 = .ok after := rfl
  have sound : settings.violation? = none := by decide
  have valid : settings.validate = .ok () := by simp only [Settings.validate, sound]
  exact ⟨written,
    (((writtenSettingsReadBack settings).2 store after "config.toml" written).accepted _).mpr ⟨valid, rfl⟩⟩

end StagedBuild

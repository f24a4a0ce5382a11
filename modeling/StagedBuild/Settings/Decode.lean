import StagedBuild.Document.Value
import StagedBuild.Settings

/-! The settings that a document gives. Every section and every field may be missing. What the document
holds besides is passed over, but its numbers must be such that they can be held. -/
namespace StagedBuild
open Document (Value Entries)

def textOf? : Value → Option String
  | .text s => some s
  | _ => none

def flagOf? : Value → Option Bool
  | .boolean b => some b
  | _ => none

def textsOf? : Value → Option (List String)
  | .array vs => vs.mapM textOf?
  | _ => none

inductive Fields where
  | named (entries : Entries)
  | listed (elements : List Value)

def Fields.of? : Option Value → Option Fields
  | none => some (.named [])
  | some (.table entries) => some (.named entries)
  | some (.array elements) => some (.listed elements)
  -- A moment is taken for a table without fields.
  | some (.moment _) => some (.named [])
  | some _ => none

def Fields.get? (fields : Fields) (name : String) (position : Nat) : Option Value :=
  match fields with
  | .named entries => entries.lookup name
  | .listed elements => elements[position]?

def Fields.read (fields : Fields) (as? : Value → Option α) (name : String) (position : Nat)
    (default : α) : Option α :=
  match fields.get? name position with
  | none => some default
  | some v => as? v

def Fields.areHeld : Fields → Bool
  | .named entries => Document.entriesHeld entries
  -- What stands behind the last setting of an array is never looked at.
  | .listed _ => true

def section? (document : Entries) (name : String) : Option Fields := do
  let fields ← Fields.of? (document.lookup name)
  if fields.areHeld then some fields else none

def sectionNames : List String := ["toolchain", "compile", "optimizer", "codegen"]

def besides (document : Entries) : Entries :=
  document.filter fun (name, _) => !sectionNames.contains name

def Toolchain.ofFields? (f : Fields) : Option Toolchain := do
  let usual : Toolchain := {}
  let cc ← f.read textOf? "cc" 0 usual.cc
  let opt ← f.read textOf? "opt" 1 usual.opt
  let llc ← f.read textOf? "llc" 2 usual.llc
  some { cc, opt, llc }

def Compile.ofFields? (f : Fields) : Option Compile := do
  let usual : Compile := {}
  let irFlags ← f.read textsOf? "ir_flags" 0 usual.irFlags
  some { irFlags }

def Optimizer.ofFields? (f : Fields) : Option Optimizer := do
  let usual : Optimizer := {}
  let plugin ← f.read textOf? "plugin" 0 usual.plugin
  let passes ← f.read textsOf? "passes" 1 usual.passes
  let stats ← f.read flagOf? "stats" 2 usual.stats
  some { plugin, passes, stats }

def Codegen.ofFields? (f : Fields) : Option Codegen := do
  let usual : Codegen := {}
  let filetype ← f.read textOf? "filetype" 0 usual.filetype
  some { filetype }

def Settings.ofDocument? (document : Entries) : Option Settings := do
  let toolchain ← section? document "toolchain" >>= Toolchain.ofFields?
  let compile ← section? document "compile" >>= Compile.ofFields?
  let optimizer ← section? document "optimizer" >>= Optimizer.ofFields?
  let codegen ← section? document "codegen" >>= Codegen.ofFields?
  if Document.entriesHeld (besides document) then
    some { toolchain, compile, optimizer, codegen }
  else none

end StagedBuild

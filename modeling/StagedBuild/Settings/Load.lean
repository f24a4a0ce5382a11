import StagedBuild.Document.Reader
import StagedBuild.Fault
import StagedBuild.Settings.Decode
import StagedBuild.Settings.Validity

/-! Settings from the bytes of a file. The first of reading, decoding and checking that fails decides
the error. -/
namespace StagedBuild

inductive SettingsError where
  | unreadable (path : String) (fault : Fault)
  | malformed (path : String)
  | invalid (reason : String)
  deriving DecidableEq, Repr

def SettingsError.message : SettingsError → String
  | .unreadable path fault => "Failed to read config file '" ++ path ++ "': " ++ fault.message
  | .malformed path => "Failed to parse config file '" ++ path ++ "': "
  | .invalid reason => "Config validation failed: " ++ reason

def Settings.validate (s : Settings) : Except SettingsError Unit :=
  match s.violation? with
  | none => .ok ()
  | some violation => .error (.invalid violation.message)

def Settings.checked (s : Settings) : Except SettingsError Settings := s.validate.map fun _ => s

def Settings.ofText (path text : String) : Except SettingsError Settings :=
  match Document.read? text >>= Settings.ofDocument? with
  | none => .error (.malformed path)
  | some settings => settings.checked

def Settings.ofBytes (path : String) (bytes : ByteArray) : Except SettingsError Settings :=
  match String.fromUTF8? bytes with
  | none => .error (.unreadable path .notText)
  | some text => Settings.ofText path text

end StagedBuild

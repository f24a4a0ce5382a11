import StagedBuild.Environment
import StagedBuild.Settings.Load
import StagedBuild.World.Store

/-! Settings from a file of a store. -/
namespace StagedBuild.Store

def loadSettings (s : Store) (path : String) : Except SettingsError Settings :=
  match s.find path with
  | .error _ => .ok {}
  | .ok (_, .directory) => .error (.unreadable path .isDirectory)
  | .ok (_, .file content _) => Settings.ofBytes path content
  | .ok (_, .tool _) => .error (.malformed path)

def settingsFor (s : Store) (e : Environment) (recorded : Option String := none) :
    Except SettingsError Settings := s.loadSettings (e.settingsFile recorded)

end StagedBuild.Store

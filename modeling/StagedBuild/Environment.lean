import StagedBuild.Path

/-! The environment of a process, and where it says that the settings are. -/
namespace StagedBuild

structure Environment where
  bindings : List (String × String) := []
  deriving DecidableEq, Repr

namespace Environment

def get? (e : Environment) (name : String) : Option String := e.bindings.lookup name

def home? (e : Environment) (recorded : Option String) : Option String :=
  ((e.get? "HOME").filter (· != "")).or (recorded.filter (· != ""))

/-- The directory for settings of all programs. A relative one in the environment does not count, and
without a home it is the working directory. -/
def settingsDirectory (e : Environment) (recorded : Option String) : String :=
  match (e.get? "XDG_CONFIG_HOME").filter Path.isAbsolute with
  | some directory => directory
  | none => match e.home? recorded with
    | some home => Path.join home ".config"
    | none => "."

def settingsFile (e : Environment) (recorded : Option String := none) : String :=
  match (e.get? "PRECC_CONFIG").filter (· != "") with
  | some path => path
  | none => Path.join (Path.join (e.settingsDirectory recorded) "precc") "config.toml"

end Environment

end StagedBuild

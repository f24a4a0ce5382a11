import StagedBuild.CommandLine
import StagedBuild.Plan.Script

/-! The program as it is called. It decides what is to be built and with which settings, and leaves the
running of the commands to a shell. -/
namespace StagedBuild.CommandLine

def readVariable (name : String) : IO (Option (String × String)) := do
  return (← IO.getEnv name).map (name, ·)

def readEnvironment : IO Environment := do
  return ⟨(← ["PRECC_CONFIG", "PRECC_LOG", "XDG_CONFIG_HOME", "HOME"].mapM readVariable).filterMap id⟩

def readSettings (path : String) : IO (Except SettingsError Settings) := do
  match ← (IO.FS.readBinFile path).toBaseIO with
  | .ok bytes => return Settings.ofBytes path bytes
  | .error (.noFileOrDirectory ..) => return .ok {}
  | .error e => return .error (.unreadable path (.described .other (toString e)))

end StagedBuild.CommandLine

open StagedBuild StagedBuild.CommandLine in
def main (words : List String) : IO UInt32 := do
  if words.isEmpty then
    IO.print identification
    return 0
  let environment ← readEnvironment
  match chooseSettings (← readSettings environment.settingsFile) words with
  | .error failure =>
    IO.eprintln (complaint failure)
    return (exitByte failure).toUInt32
  | .ok (settings, events) =>
    let planned := makePlan settings words
    for event in (filterFor environment).passed (events ++ planned.events) do
      IO.eprintln event.terminalLine
    for line in planned.plan.script do IO.println line
    return 0

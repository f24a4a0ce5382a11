import StagedBuild.Plan
import StagedBuild.Settings.Load

/-! Why a build did not succeed. -/
namespace StagedBuild

inductive Failure where
  | settings (error : SettingsError)
  | cannotStart (stage : Stage) (program : String) (fault : Fault)
  | stageFailed (stage : Stage) (program : String) (code : Int)
  | cannotWait (stage : Stage) (program : String) (fault : Fault)
  | disconnected (stage : Stage)
  deriving DecidableEq, Repr

namespace Failure

def message : Failure → String
  | .settings error => "Configuration error: " ++ error.message
  | .cannotStart stage program fault =>
    "failed to run " ++ stage.label ++ " stage '" ++ program ++ "': " ++ fault.message
  | .stageFailed stage program code =>
    stage.label ++ " stage '" ++ program ++ "' failed with exit code " ++ toString code
  | .cannotWait stage program fault =>
    "failed to wait for " ++ stage.label ++ " stage '" ++ program ++ "': " ++ fault.message
  | .disconnected stage =>
    "failed to connect " ++ stage.label ++ " stage to the previous stage's output"

def exitCode : Failure → Int
  | .stageFailed _ _ code => code
  | .cannotStart _ _ fault => if fault.kind = .notFound then 127 else 1
  | _ => 1

def stage? : Failure → Option Stage
  | .settings _ => none
  | .cannotStart stage _ _ => some stage
  | .stageFailed stage _ _ => some stage
  | .cannotWait stage _ _ => some stage
  | .disconnected stage => some stage

end Failure

end StagedBuild

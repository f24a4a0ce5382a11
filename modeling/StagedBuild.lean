import StagedBuild.Main
import StagedBuild.Proofs.Blame
import StagedBuild.Settings.Encode
import StagedBuild.Text.Lossy
import StagedBuild.World.Layout
import StagedBuild.Proofs.Execution
import StagedBuild.Proofs.Store
import StagedBuild.Proofs.Cleanup
import StagedBuild.Proofs.Reading
import StagedBuild.Proofs.Reentry
import StagedBuild.Proofs.LastName
import StagedBuild.Proofs.ObjectPath
import StagedBuild.Proofs.PipeCourse
import StagedBuild.Proofs.Logging
import StagedBuild.Proofs.StatusCode
import StagedBuild.Proofs.CommandLine
import StagedBuild.Proofs.ProcessExit
import StagedBuild.Proofs.StringForms
import StagedBuild.Proofs.WrittenDocument
import StagedBuild.Proofs.Sections
import StagedBuild.Proofs.SettingsText
import StagedBuild.Proofs.Attempts
import StagedBuild.Proofs.PlanSettings
import StagedBuild.Proofs.UsableCommands
import StagedBuild.Proofs.PipeFlow
import StagedBuild.Proofs.Positions
import StagedBuild.Proofs.Canonical
import StagedBuild.Proofs.Edits
import StagedBuild.Proofs.StepEdits
import StagedBuild.Proofs.Footprint
import StagedBuild.Proofs.Alike
import StagedBuild.Proofs.Rebuild
import StagedBuild.Proofs.Concatenation
import StagedBuild.Proofs.PlanWords
import StagedBuild.Proofs.RunLog
import StagedBuild.Proofs.DistinctKeys
import StagedBuild.Proofs.SettingKeys
import StagedBuild.Proofs.PartialSettings
import StagedBuild.Proofs.Additions
import StagedBuild.Proofs.PlanQueries
import StagedBuild.Proofs.FirstViolation
import StagedBuild.Proofs.SinglePipe
import StagedBuild.Proofs.Nesting

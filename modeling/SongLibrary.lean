import SongLibrary.Audio.Comment
import SongLibrary.Audio.File
import SongLibrary.Audio.Record
import SongLibrary.Audio.Tags
import SongLibrary.Classifier
import SongLibrary.CommandLine.Arguments
import SongLibrary.CommandLine.Commands
import SongLibrary.CommandLine.Usage
import SongLibrary.Config.Basic
import SongLibrary.Config.File
import SongLibrary.Config.Read
import SongLibrary.Config.Write
import SongLibrary.Failure
import SongLibrary.FileTree.Basic
import SongLibrary.FileTree.Change
import SongLibrary.FileTree.Fault
import SongLibrary.FileTree.Lookup
import SongLibrary.FileTree.Walk
import SongLibrary.Itunes
import SongLibrary.Json.Basic
import SongLibrary.Json.Number
import SongLibrary.Json.Parser
import SongLibrary.Json.Printer
import SongLibrary.Location
import SongLibrary.Main
import SongLibrary.Organize
import SongLibrary.Path
import SongLibrary.Placement
import SongLibrary.Proofs.Audio.Writing
import SongLibrary.Proofs.Emptied
import SongLibrary.Proofs.FailedMove
import SongLibrary.Proofs.Reconcile.CheckingNew
import SongLibrary.Proofs.Reconcile.Conservation
import SongLibrary.Proofs.Reconcile.Conversation
import SongLibrary.Proofs.Reconcile.Covering
import SongLibrary.Proofs.Reconcile.Deriving
import SongLibrary.Proofs.Reconcile.Destination
import SongLibrary.Proofs.Reconcile.Distinct
import SongLibrary.Proofs.Reconcile.Flagged
import SongLibrary.Proofs.Reconcile.InPlace
import SongLibrary.Proofs.Reconcile.Lines
import SongLibrary.Proofs.Reconcile.Numbering
import SongLibrary.Proofs.Reconcile.Pointing
import SongLibrary.Proofs.Reconcile.Previewing
import SongLibrary.Proofs.Reconcile.Rebuilding
import SongLibrary.Proofs.Reconcile.Records
import SongLibrary.Proofs.Reconcile.Rerunning
import SongLibrary.Proofs.Reconcile.Scanning
import SongLibrary.Proofs.Reconcile.Stopping
import SongLibrary.Proofs.Reconcile.Tuning
import SongLibrary.Proofs.SongTable.Saving
import SongLibrary.Proofs.Template.Asking
import SongLibrary.Proofs.Template.Behind
import SongLibrary.Proofs.Template.Division
import SongLibrary.Proofs.Template.Fitting
import SongLibrary.Proofs.Template.Numbers
import SongLibrary.Proofs.Template.Parsing
import SongLibrary.Proofs.Template.Rereading
import SongLibrary.Reconcile.Candidate
import SongLibrary.Reconcile.Counters
import SongLibrary.Reconcile.Derive
import SongLibrary.Reconcile.Drive
import SongLibrary.Reconcile.Job
import SongLibrary.Reconcile.Message
import SongLibrary.Reconcile.Mode
import SongLibrary.Reconcile.Queue
import SongLibrary.Reconcile.Run
import SongLibrary.Reconcile.Services
import SongLibrary.Reconcile.Step
import SongLibrary.Reference
import SongLibrary.Sanitizer
import SongLibrary.Snapshot
import SongLibrary.Song
import SongLibrary.SongTable.Basic
import SongLibrary.SongTable.File
import SongLibrary.SongTable.Page
import SongLibrary.Tag
import SongLibrary.Tag.Json
import SongLibrary.Template.Basic
import SongLibrary.Template.Field
import SongLibrary.Template.Pattern
import SongLibrary.Template.Reading
import SongLibrary.Template.Rendering
import SongLibrary.Text.CaseData
import SongLibrary.Text.DecimalDigit
import SongLibrary.Text.Hexadecimal
import SongLibrary.Text.Hundredths
import SongLibrary.Text.Lowercase
import SongLibrary.Text.Trim
import SongLibrary.Text.Utf8
import SongLibrary.Toml.Basic
import SongLibrary.Toml.Number
import SongLibrary.Toml.Parser
import SongLibrary.Toml.Printer
import SongLibrary.Toml.Text

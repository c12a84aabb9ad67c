import ReleaseFlags.Flag.State
import ReleaseFlags.Path
import ReleaseFlags.Text.Words
import ReleaseFlags.Json.Reader
import ReleaseFlags.Json.Printer
import ReleaseFlags.Toml.Reader
import ReleaseFlags.Toml.Printer
import ReleaseFlags.Message.Release
import ReleaseFlags.Message.File
import ReleaseFlags.FileTree.Walk
import ReleaseFlags.FileTree.Write
import ReleaseFlags.Registry.Load
import ReleaseFlags.Resolution.Basic
import ReleaseFlags.Report.Write
import ReleaseFlags.Main
import ReleaseFlags.Proofs.NameMap
import ReleaseFlags.Proofs.Outcome
import ReleaseFlags.Proofs.Resolution.Plan
import ReleaseFlags.Proofs.Resolution.Anew
import ReleaseFlags.Proofs.Registry.Scanned
import ReleaseFlags.Proofs.Resolution.Memo
import ReleaseFlags.Proofs.Resolution.Session
import ReleaseFlags.Proofs.Calls
import ReleaseFlags.Proofs.Registry.Aliases
import ReleaseFlags.Proofs.Resolution.Compile
import ReleaseFlags.Proofs.Resolution.Loops
import ReleaseFlags.Proofs.Flag
import ReleaseFlags.Proofs.Words
import ReleaseFlags.Proofs.Registry.Files
import ReleaseFlags.Proofs.Resolution.Flags
import ReleaseFlags.Proofs.Resolution.Merges
import ReleaseFlags.Proofs.Resolution.Provenance
import ReleaseFlags.Proofs.Resolution.Settled
import ReleaseFlags.Proofs.Resolution.Redaction
import ReleaseFlags.Proofs.Resolution.Hidden
import ReleaseFlags.Proofs.Resolution.Legality
import ReleaseFlags.Proofs.Resolution.ValueSetLine
import ReleaseFlags.Proofs.Resolution.ValueSets
import ReleaseFlags.Proofs.Resolution.LostValueSets
import ReleaseFlags.Proofs.Resolution.Files
import ReleaseFlags.Proofs.Resolution.Remembered
import ReleaseFlags.Proofs.Resolution.Unread
import ReleaseFlags.Proofs.Registry.WellFormed
import ReleaseFlags.Proofs.Registry.Steps
import ReleaseFlags.Proofs.Registry.Contents
import ReleaseFlags.Proofs.Registry.Names
import ReleaseFlags.Proofs.Registry.Lookup
import ReleaseFlags.Proofs.Registry.Linking
import ReleaseFlags.Proofs.Resolution.Partitions
import ReleaseFlags.Proofs.Resolution.OneMoreFlag
import ReleaseFlags.Proofs.Resolution.UnusedFlag
import ReleaseFlags.Proofs.Resolution.Failures
import ReleaseFlags.Proofs.Resolution.Shape
import ReleaseFlags.Proofs.FlagHistory
import ReleaseFlags.Proofs.Components
import ReleaseFlags.Proofs.Resolution.Directories
import ReleaseFlags.Proofs.Resolution.ExclusiveDirectories
import ReleaseFlags.Proofs.Resolution.Blame
import ReleaseFlags.Proofs.Report.Combined
import ReleaseFlags.Proofs.Resolution.Lockstep
import ReleaseFlags.Proofs.Resolution.Settings
import ReleaseFlags.Proofs.Json.Literals
import ReleaseFlags.Proofs.Json.Values
import ReleaseFlags.Proofs.Message.Fields
import ReleaseFlags.Proofs.Message.RoundTrip
import ReleaseFlags.Proofs.Lines
import ReleaseFlags.Proofs.Report.Variables
import ReleaseFlags.Proofs.Report.FragmentLines
import ReleaseFlags.Proofs.Report.Fragment
import ReleaseFlags.Proofs.Report.Exports
import ReleaseFlags.Proofs.FileTree.Ways
import ReleaseFlags.Proofs.FileTree.Growth
import ReleaseFlags.Proofs.FileTree.Written
import ReleaseFlags.Proofs.Report.Outputs
import ReleaseFlags.Proofs.Report.PartitionFiles
import ReleaseFlags.Proofs.Report.Edges
import ReleaseFlags.Proofs.Report.Emits
import ReleaseFlags.Proofs.CommandLine.Outputs
import ReleaseFlags.Proofs.InputFiles
import ReleaseFlags.Proofs.NormalPath
import ReleaseFlags.Proofs.FileName
import ReleaseFlags.Proofs.Registry.Places
import ReleaseFlags.Proofs.Registry.Relocation
import ReleaseFlags.Proofs.Json.Tokens
import ReleaseFlags.Proofs.Json.Grammar
import ReleaseFlags.Proofs.Message.Strict

import ConfigDrive.Proofs.Config.Layers
import ConfigDrive.Proofs.Config.Loading
import ConfigDrive.Proofs.Run.Mounters
import ConfigDrive.Proofs.Run.Trace
import ConfigDrive.Proofs.Account
import ConfigDrive.Proofs.Config.Remains
import ConfigDrive.Proofs.Yaml.OfText
import ConfigDrive.Main
import ConfigDrive.CommandLine
import ConfigDrive.CommandLine.Help
import ConfigDrive.CommandLine.Program
import ConfigDrive.Machine
import ConfigDrive.Bench
import ConfigDrive.Script
import ConfigDrive.Shell
import ConfigDrive.StandIn
import ConfigDrive.Execution
import ConfigDrive.FileTree
import ConfigDrive.FileTree.Walk
import ConfigDrive.Handoff
import ConfigDrive.Run.Question
import ConfigDrive.Run.Locate
import ConfigDrive.Run.Variant
import ConfigDrive.Host
import ConfigDrive.Utilities
import ConfigDrive.Config.Load
import ConfigDrive.RunError
import ConfigDrive.Procedure
import ConfigDrive.Log
import ConfigDrive.WaitStatus
import ConfigDrive.Text.Json
import ConfigDrive.Drive.Label
import ConfigDrive.Drive.FilesystemType
import ConfigDrive.Drive.MountFailure
import ConfigDrive.Drive.MountTable
import ConfigDrive.Drive.Detection
import ConfigDrive.SearchPath
import ConfigDrive.Config
import ConfigDrive.Config.Fault
import ConfigDrive.Config.Source
import ConfigDrive.Config.OfValue
import ConfigDrive.Config.OfText
import ConfigDrive.Text.Unprintable
import ConfigDrive.Text.Quoted
import ConfigDrive.Config.Merge
import ConfigDrive.Yaml.Plain
import ConfigDrive.Yaml.Read
import ConfigDrive.Yaml.Node
import ConfigDrive.Yaml.Document
import ConfigDrive.Yaml.Layout
import ConfigDrive.Yaml.Token
import ConfigDrive.Yaml.Scalar
import ConfigDrive.Yaml.Value
import ConfigDrive.Decimal.Shortest
import ConfigDrive.Decimal.Binary64
import ConfigDrive.Path
import ConfigDrive.Errno
import ConfigDrive.SystemError
import ConfigDrive.Text.Blank
import ConfigDrive.Text.Lines
import ConfigDrive.Text.Octal
import ConfigDrive.Text.Pieces
import ConfigDrive.Text.Utf8
import ConfigDrive.Proofs.Run.Orderly
import ConfigDrive.Proofs.Run.Moments
import ConfigDrive.Proofs.Run.Confinement
import ConfigDrive.Proofs.Run.ExitStatus
import ConfigDrive.Proofs.Run.Detecting
import ConfigDrive.Proofs.Run.Racing
import ConfigDrive.Proofs.Run.Classifying
import ConfigDrive.Proofs.CommandLine.Forwarding
import ConfigDrive.Proofs.FileTree.Locality
import ConfigDrive.Proofs.Host.Enumeration
import ConfigDrive.Proofs.Text.Utf8Order
import ConfigDrive.Proofs.Config.Reads
import ConfigDrive.Proofs.Config.Agreeing
import ConfigDrive.Proofs.Config.Overlay
import ConfigDrive.Proofs.Config.Projecting
import ConfigDrive.Proofs.Config.Associating
import ConfigDrive.Proofs.Config.SameSettings
import ConfigDrive.Proofs.Config.Commuting
import ConfigDrive.Proofs.Path
import ConfigDrive.Proofs.FileTree.Ways
import ConfigDrive.Proofs.FileTree.Growth
import ConfigDrive.Proofs.FileTree.Making
import ConfigDrive.Proofs.Run.Preparing
import ConfigDrive.Proofs.CommandLine.Touching
import ConfigDrive.Proofs.Config.Determining
import ConfigDrive.Proofs.Config.Filling
import ConfigDrive.Proofs.Config.Repeating
import ConfigDrive.Proofs.Config.Erasing
import ConfigDrive.Proofs.Config.Accepting
import ConfigDrive.Proofs.Config.Refusing
import ConfigDrive.Proofs.Config.IdleTags
import ConfigDrive.Proofs.Drive.Layout
import ConfigDrive.Proofs.Run.Framing

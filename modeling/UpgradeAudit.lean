import UpgradeAudit.Audit.Analysis
import UpgradeAudit.Audit.Configs
import UpgradeAudit.Audit.Resolution
import UpgradeAudit.Audit.Settings
import UpgradeAudit.Audit.Workspace
import UpgradeAudit.Capability
import UpgradeAudit.Change
import UpgradeAudit.Command
import UpgradeAudit.CommandLine.Log
import UpgradeAudit.CommandLine.Printed
import UpgradeAudit.CommandLine.Request
import UpgradeAudit.CommandLine.Run
import UpgradeAudit.CommandLine.Switches
import UpgradeAudit.Comparison
import UpgradeAudit.Decimal.Binary64
import UpgradeAudit.Decimal.Shortest
import UpgradeAudit.Diff
import UpgradeAudit.Failure
import UpgradeAudit.FanIn
import UpgradeAudit.Host.Action
import UpgradeAudit.Host.FileTree
import UpgradeAudit.Host.World
import UpgradeAudit.Issue
import UpgradeAudit.Json.Basic
import UpgradeAudit.Json.Encoding
import UpgradeAudit.Json.Reader
import UpgradeAudit.Json.Schema
import UpgradeAudit.Json.Stream
import UpgradeAudit.Json.Writer
import UpgradeAudit.Manifest.Directives
import UpgradeAudit.Manifest.Snapshot
import UpgradeAudit.Manifest.Transaction
import UpgradeAudit.Manifest.Turns
import UpgradeAudit.ModulePath
import UpgradeAudit.Output.CallPaths
import UpgradeAudit.Output.CheckStream
import UpgradeAudit.Output.Document
import UpgradeAudit.Output.LintReport
import UpgradeAudit.Package.Listing
import UpgradeAudit.Package.Scope
import UpgradeAudit.Path
import UpgradeAudit.Proofs.Agreement
import UpgradeAudit.Proofs.Audit.Accounting
import UpgradeAudit.Proofs.Audit.Analyses
import UpgradeAudit.Proofs.Audit.Collection
import UpgradeAudit.Proofs.Audit.Containment
import UpgradeAudit.Proofs.Audit.Directories
import UpgradeAudit.Proofs.Audit.Endings
import UpgradeAudit.Proofs.Audit.Environments
import UpgradeAudit.Proofs.Audit.Gate
import UpgradeAudit.Proofs.Audit.Independence
import UpgradeAudit.Proofs.Audit.Programs
import UpgradeAudit.Proofs.Audit.Repetition
import UpgradeAudit.Proofs.Audit.Restoration
import UpgradeAudit.Proofs.Audit.Sessions
import UpgradeAudit.Proofs.Audit.Setup
import UpgradeAudit.Proofs.Audit.SideBySide
import UpgradeAudit.Proofs.Audit.Stages
import UpgradeAudit.Proofs.CanonicalOrder
import UpgradeAudit.Proofs.Changes
import UpgradeAudit.Proofs.Classification
import UpgradeAudit.Proofs.Command
import UpgradeAudit.Proofs.CommandLine.Tasks
import UpgradeAudit.Proofs.Comparisons
import UpgradeAudit.Proofs.Conservation
import UpgradeAudit.Proofs.Counts
import UpgradeAudit.Proofs.Escaping
import UpgradeAudit.Proofs.Failures
import UpgradeAudit.Proofs.FanIn
import UpgradeAudit.Proofs.Gathering
import UpgradeAudit.Proofs.Host.Actions
import UpgradeAudit.Proofs.Host.Directories
import UpgradeAudit.Proofs.Host.Files
import UpgradeAudit.Proofs.Host.Twins
import UpgradeAudit.Proofs.Joining
import UpgradeAudit.Proofs.Json.Ascii
import UpgradeAudit.Proofs.Json.Fields
import UpgradeAudit.Proofs.Json.Grammar
import UpgradeAudit.Proofs.Json.Numbers
import UpgradeAudit.Proofs.Json.Parsing
import UpgradeAudit.Proofs.Json.Reading
import UpgradeAudit.Proofs.Json.Streams
import UpgradeAudit.Proofs.Json.Strings
import UpgradeAudit.Proofs.Json.Values
import UpgradeAudit.Proofs.Manifest.Comments
import UpgradeAudit.Proofs.Manifest.Copies
import UpgradeAudit.Proofs.Manifest.Exclusion
import UpgradeAudit.Proofs.Manifest.Layouts
import UpgradeAudit.Proofs.Manifest.Outcomes
import UpgradeAudit.Proofs.Manifest.Repetition
import UpgradeAudit.Proofs.Manifest.Restoring
import UpgradeAudit.Proofs.Manifest.Steady
import UpgradeAudit.Proofs.Manifest.Transactions
import UpgradeAudit.Proofs.Matching
import UpgradeAudit.Proofs.Mirror
import UpgradeAudit.Proofs.ModulePaths
import UpgradeAudit.Proofs.OtherModules
import UpgradeAudit.Proofs.Output.CacheLocation
import UpgradeAudit.Proofs.Output.Documents
import UpgradeAudit.Proofs.Output.Faults
import UpgradeAudit.Proofs.Output.Readers
import UpgradeAudit.Proofs.Output.Redecoding
import UpgradeAudit.Proofs.Output.SourceLines
import UpgradeAudit.Proofs.Output.Spellings
import UpgradeAudit.Proofs.Output.VersionBump
import UpgradeAudit.Proofs.Package.Listings
import UpgradeAudit.Proofs.Package.Scopes
import UpgradeAudit.Proofs.Package.Uses
import UpgradeAudit.Proofs.Path.Below
import UpgradeAudit.Proofs.Path.Canonical
import UpgradeAudit.Proofs.Path.Components
import UpgradeAudit.Proofs.Path.Names
import UpgradeAudit.Proofs.Reordering
import UpgradeAudit.Proofs.Report.Records
import UpgradeAudit.Proofs.Sorting
import UpgradeAudit.Proofs.Strictness
import UpgradeAudit.Proofs.Tables
import UpgradeAudit.Proofs.Text.Blanks
import UpgradeAudit.Proofs.Text.Decoding
import UpgradeAudit.Proofs.Text.Lines
import UpgradeAudit.Proofs.Text.Occurrences
import UpgradeAudit.Proofs.Text.Order
import UpgradeAudit.Proofs.Text.Spelling
import UpgradeAudit.Recording.Programs
import UpgradeAudit.Recording.Reader
import UpgradeAudit.Report.Record
import UpgradeAudit.Report.Text
import UpgradeAudit.Table
import UpgradeAudit.Text.Blank
import UpgradeAudit.Text.CodingFault
import UpgradeAudit.Text.Hex
import UpgradeAudit.Text.Lines
import UpgradeAudit.Text.Points
import UpgradeAudit.Text.Printable
import UpgradeAudit.Text.Quoted
import UpgradeAudit.Text.Search
import UpgradeAudit.Text.Utf16
import UpgradeAudit.Text.Utf8
import UpgradeAudit.Totals
import UpgradeAudit.Main

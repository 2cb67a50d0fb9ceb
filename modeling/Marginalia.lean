import Marginalia.Ignore
import Marginalia.Priority
import Marginalia.Remark.Metadata
import Marginalia.Remark.Observation
import Marginalia.Config.Load
import Marginalia.Scan.Listing
import Marginalia.Snapshot.Reader
import Marginalia.Snapshot.Unchecked
import Marginalia.Snapshot.Writer
import Marginalia.Journal.Archive
import Marginalia.Journal.Database
import Marginalia.Journal.Operations
import Marginalia.Files.Replace
import Marginalia.Engine
import Marginalia.Tool.Service
import Marginalia.CommandLine
import Marginalia.Main
import Marginalia.Proofs.Remark.Comment
import Marginalia.Proofs.Remark.Grammar
import Marginalia.Proofs.Journal.Sync
import Marginalia.Proofs.Journal.Lifecycle
import Marginalia.Proofs.Journal.Rollback
import Marginalia.Proofs.Engine.Sync
import Marginalia.Proofs.Journal.Regular
import Marginalia.Proofs.Snapshot.RoundTrip
import Marginalia.Proofs.Journal.Rescan
import Marginalia.Proofs.Journal.Identity
import Marginalia.Proofs.Files.Frame
import Marginalia.Proofs.Engine.Frame
import Marginalia.Proofs.Tool.Frame
import Marginalia.Proofs.Text.Utf8
import Marginalia.Proofs.Remark.Parts
import Marginalia.Proofs.Scan.Found
import Marginalia.Proofs.Snapshot.Scanned
import Marginalia.Proofs.Files.Replacement
import Marginalia.Proofs.Engine.Snapshot
import Marginalia.Proofs.Files.Growth
import Marginalia.Proofs.Files.Locks
import Marginalia.Proofs.Files.Writers
import Marginalia.Proofs.Files.Whole
import Marginalia.Proofs.Files.Names
import Marginalia.Proofs.Scan.DataDirectory
import Marginalia.Proofs.Config.Usable
import Marginalia.Proofs.Remark.Decomposition
import Marginalia.Proofs.Journal.Ready
import Marginalia.Proofs.Journal.Repeated
import Marginalia.Proofs.Journal.Permuted
import Marginalia.Proofs.Journal.Stops
import Marginalia.Proofs.CommandLine.Options
import Marginalia.Proofs.Engine.Stops
import Marginalia.Proofs.CommandLine.Exit
import Marginalia.Proofs.Remark.NormalForms
import Marginalia.Proofs.Snapshot.Lines
import Marginalia.Proofs.Scan.Positions
import Marginalia.Proofs.Snapshot.Older
import Marginalia.Proofs.Snapshot.Alignment
import Marginalia.Proofs.Remark.MoreTags
import Marginalia.Proofs.Journal.Missing
import Marginalia.Proofs.Time.Order
import Marginalia.Proofs.Journal.Listing
import Marginalia.Proofs.Journal.Pages
import Marginalia.Proofs.Journal.Totals
import Marginalia.Proofs.Text.Damage
import Marginalia.Proofs.Scan.Lines
import Marginalia.Proofs.Engine.Scans
import Marginalia.Proofs.Scan.Damage
import Marginalia.Proofs.Config.Spellings
import Marginalia.Proofs.Files.Siblings
import Marginalia.Proofs.Journal.Reopening

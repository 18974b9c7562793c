import Ownly.Lib.KeyMap
import Ownly.Lib.KeyTotal
import Ownly.Lib.MachineInt
import Ownly.Lib.Schedule
import Ownly.Lib.Splice
import Ownly.Lib.Cursor
import Ownly.Lib.Bag
import Ownly.Lib.Slots
import Ownly.Lib.RowVersion
import Ownly.Lib.Reorder
import Ownly.Lib.Digits
import Ownly.Lib.Text
import Ownly.Collab.Types
import Ownly.Collab.OtText
import Ownly.Collab.Document
import Ownly.Collab.Spreadsheet
import Ownly.Collab.Engine
import Ownly.Collab.Store
import Ownly.Collab.CasAtomicity
import Ownly.Collab.Timeline
import Ownly.Collab.SnapshotText
import Ownly.Collab.History
import Ownly.Collab.Locks
import Ownly.Collab.Concurrent
import Ownly.Collab.Replicas
import Ownly.Collab.Client
import Ownly.Collab.Convergence
import Ownly.Collab.Pipelining
import Ownly.Collab.Delivery
import Ownly.Collab.Submission
import Ownly.Collab.LockedText
import Ownly.Collab.OneSession
import Ownly.Sheets.Workbook
import Ownly.Sheets.Grid
import Ownly.Sheets.WorkbookOps
import Ownly.Sheets.CollabOps
import Ownly.Sheets.Hook
import Ownly.Sheets.Record
import Ownly.Sheets.Compaction
import Ownly.Sheets.Handover
import Ownly.Sheets.Peers
import Ownly.Sheets.Independent
import Ownly.Sheets.Agreement
import Ownly.AppError
import Ownly.Uploads.Store
import Ownly.Uploads.Sessions
import Ownly.Uploads.Parts
import Ownly.Uploads.Ledger
import Ownly.Uploads.Accounting
import Ownly.Uploads.Resume
import Ownly.Uploads.Quota
import Ownly.Uploads.Charges
import Ownly.Uploads.Reservation
import Ownly.Jobs.Store
import Ownly.Jobs.Queue
import Ownly.Jobs.Workers
import Ownly.Jobs.Enqueue
import Ownly.Storage.Placement
import Ownly.Storage.Router
import Ownly.Storage.Effects
import Ownly.Storage.ReadYourWrites
import Ownly.Storage.Sidecars
import Ownly.Hls.Playlist
import Ownly.Hls.Agreement
import Ownly.Files.Store
import Ownly.Files.Finalize
import Ownly.Files.AllOrNothing
import Ownly.Files.Purge
import Ownly.Files.PurgeSafety
import Ownly.Files.Writes
import Ownly.Files.Drive
import Ownly.Files.Isolation
import Ownly.Files.ReadBack
import Ownly.Lib.Ancestry
import Ownly.Lib.Worklist
import Ownly.Authz.Catalog
import Ownly.Folders.Store
import Ownly.Authz.Resolver
import Ownly.Authz.Decision
import Ownly.Authz.Grants
import Ownly.Folders.Listing
import Ownly.Folders.Changes
import Ownly.Folders.RecycleBin
import Ownly.Folders.RoundTrip
import Ownly.Folders.Trash
import Ownly.Folders.Interleaved
import Ownly.Folders.Names
import Ownly.Files.Usage
import Ownly.Files.Waveforms
import Ownly.Auth.Revocation
import Ownly.Auth.RevocationRaces
import Ownly.Authz.GrantKeys
import Ownly.Tray.Pipeline
import Ownly.Tray.Invariant
import Ownly.Tray.Pressure
import Ownly.Tray.Settled
import Ownly.Tray.Resumable
import Ownly.Rtf.Text
import Ownly.Sheets.Undo
import Ownly.Sheets.Markings
import Ownly.Shares.Scope
import Ownly.Hls.ExportsCovered
import Ownly.Migration.Coverage
import Ownly.Migration.Machine
import Ownly.Hls.EncodesCoherent
import Ownly.Sheets.PassthroughApart
import Ownly.Collab.BothEdits
import Ownly.Collab.Arithmetic
import Ownly.Collab.PlainDiff
import Ownly.Sheets.SheetNames
import Ownly.Sheets.SpillsApart
import Ownly.Sheets.StringLiterals
import Ownly.Sheets.Aggregates
import Ownly.Sheets.Cycles
import Ownly.Sheets.Settled
import Ownly.Uploads.Assemble
import Ownly.Storage.Capacity
import Ownly.Sheets.MergedRegions
import Ownly.Sheets.Filling
import Ownly.Sheets.Pasting
import Ownly.Sheets.CsvImport
import Ownly.Sheets.Sorting
import Ownly.Sheets.Nesting
import Ownly.Storage.StreamRecords
import Ownly.Jobs.QueueRecovery
import Ownly.Hls.SegmentOrder
import Ownly.Hls.Rewriting
import Ownly.Folders.TrashStatements
import Ownly.Rtf.SentenceRange
import Ownly.Rtf.TextOps
import Ownly.Files.NaturalSort
import Ownly.Sheets.ZipEntries
import Ownly.RateLimit
import Ownly.Files.ListedPages
import Ownly.Sheets.Labels

import LogSequencing.Log.Memory
import LogSequencing.Main
import LogSequencing.Storage.Faulty
import LogSequencing.Storage.Metered
import LogSequencing.Proofs.Storage.Lawful
import LogSequencing.Proofs.Checkpoint.Batch
import LogSequencing.Proofs.Log.Reopening
import LogSequencing.Proofs.Log.Agreement
import LogSequencing.Proofs.Flusher
import LogSequencing.Proofs.Flusher.Session
import LogSequencing.Proofs.Sequencer.Exclusion
import LogSequencing.Proofs.Sequencer.Stopping
import LogSequencing.Proofs.Life
import LogSequencing.Proofs.Life.Outline
import LogSequencing.Proofs.Life.Draft
import LogSequencing.Proofs.Life.Serving
import LogSequencing.Proofs.Life.Bounds
import LogSequencing.Proofs.Life.Numbers
import LogSequencing.Proofs.Life.Ledger
import LogSequencing.Proofs.Life.Consistency
import LogSequencing.Proofs.Life.Reissue
import LogSequencing.Proofs.Storage.KeyRange
import LogSequencing.Proofs.Checkpoint.Range
import LogSequencing.Proofs.RecoveryPoint
import LogSequencing.Proofs.Views
import LogSequencing.Proofs.Engine
import LogSequencing.Proofs.Engine.Single
import LogSequencing.Proofs.Engine.Calls
import LogSequencing.Proofs.Flusher.Carrying
import LogSequencing.Proofs.Engine.Building
import LogSequencing.Proofs.Log.Partitions
import LogSequencing.Proofs.Command.Deployment
import LogSequencing.Proofs.Command.Committing
import LogSequencing.Proofs.Command.Accumulation
import LogSequencing.Proofs.Sequencer.Finality
import LogSequencing.Proofs.Registry.Session
import LogSequencing.Proofs.Registry.Succession
import LogSequencing.Proofs.Checkpoint.Coalescing
import LogSequencing.Proofs.Log.Resumption
import LogSequencing.Proofs.Log.Faults
import LogSequencing.Proofs.RecoveryPoint.Sync
import LogSequencing.Proofs.RecoveryPoint.Replay
import LogSequencing.Proofs.Checkpoint.Replay
import LogSequencing.Proofs.Flusher.Threshold
import LogSequencing.Proofs.Sequencer.Attendance
import LogSequencing.Proofs.Sequencer.Completion
import LogSequencing.Proofs.Sequencer.Attempts
import LogSequencing.Proofs.Sequencer.Backoff
import LogSequencing.Proofs.Checkpoint.Unknown
import LogSequencing.Proofs.Transience
import LogSequencing.Proofs.Storage.Interchange
import LogSequencing.Proofs.Storage.Wrappers
import LogSequencing.Proofs.Config
import LogSequencing.Proofs.Log.Onward
import LogSequencing.Proofs.Log.Overlong
import LogSequencing.Proofs.Command.Resync

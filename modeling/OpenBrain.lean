import OpenBrain.Clients.SpoolLock
import OpenBrain.Nats.Agreement
import OpenBrain.Server.Transport.Admission
import OpenBrain.Server.Maintenance.QueueSafety
import OpenBrain.Clients.Spool.RetryMerge
import OpenBrain.Server.CandidateReview.DedupeSafety
import OpenBrain.Server.Auth.NamespacePolicy
import OpenBrain.Provider.Gate.RecallOrder
import OpenBrain.Server.ContextPack.BurstWalk
import OpenBrain.Server.ContextPack.CitationBijection
import OpenBrain.Provider.Gate.RecoveryCommand
import OpenBrain.Receipts.ReceiptLock
import OpenBrain.Canon.Convergence
import OpenBrain.Server.Distill.SweepCoverage
import OpenBrain.Memory.Spool.Transplant
import OpenBrain.Server.Distill.BacklogDrain
import OpenBrain.Server.SourceRegistry.Lifecycle
import OpenBrain.Clients.Session.Lifecycle
import OpenBrain.Server.Maintenance.RunnerLifecycle
import OpenBrain.Server.Search.Pages
import OpenBrain.Server.Promotion.Screened
import OpenBrain.Server.Entries.LiveOnce
import OpenBrain.Server.Realtime.WorkingSetRun
import OpenBrain.Server.Realtime.RecoveryIds
import OpenBrain.Server.Realtime.Compaction
import OpenBrain.Clients.Spool.Octets
import OpenBrain.Memory.Spool.AppendFile
import OpenBrain.Server.CandidateReview.Undo
import OpenBrain.Server.Rem.Grading
import OpenBrain.Server.Distill.FullContext
import OpenBrain.Server.ContextPack.SuppressionKeys
import OpenBrain.Server.ContextPack.GuidanceReplay
import OpenBrain.Server.DreamRoute.BatchOrder
import OpenBrain.Server.Embedding.Chunking
import OpenBrain.Server.Logging.RotatingFile
import OpenBrain.Bulk.Resume
import OpenBrain.Bulk.TurnIdentity
import OpenBrain.Capture.PendingReplay
import OpenBrain.Capture.OutageWindows
import OpenBrain.Memory.Recall.Prompt
import OpenBrain.Provider.Gate.PolicyKeys
import OpenBrain.Clients.Session.Scanner
import OpenBrain.Server.DreamLight.LightSweeps
import OpenBrain.Provider.Gate.DidWork
import OpenBrain.Provider.Guard.Oversized
import OpenBrain.Provider.Policy.HookRaises
import OpenBrain.Server.Graph.AdjacentContext
import OpenBrain.Server.Session.CitationRecall
import OpenBrain.Server.DreamDeep.ReviewBundles
import OpenBrain.Server.RepoFacts.FallbackMerge
import OpenBrain.Server.Jev.Execution
import OpenBrain.Server.Tiering.TierHistory
import OpenBrain.Server.Session.FindOrCreate
import OpenBrain.Server.Security.SecretGates
import OpenBrain.Server.Capture.DropDiscovery
import OpenBrain.Server.Capture.DropIngest
import OpenBrain.Core.Occurrences
import OpenBrain.Provider.Gate.CompactBoundaries
import OpenBrain.Server.Entries.SessionSave
import OpenBrain.Server.Entries.DuplicateScan
import OpenBrain.Server.Capture.RawTurnIngest

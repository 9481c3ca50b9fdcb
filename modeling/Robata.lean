import Robata.Adjudication.ConflictJustification
import Robata.Admission.DecisionChains
import Robata.Backpressure.Recovery
import Robata.Candidates.CandidateReducer
import Robata.EventPipeline.RegistryRuns
import Robata.Fusion.ReducerAgreement
import Robata.Inference.BarrierReplay
import Robata.LogicalNodes.OpeningSafety
import Robata.Media.NeighborTargets
import Robata.Media.RingBounds
import Robata.Orchestration.CallPartition
import Robata.Orchestration.DuplicateDelivery
import Robata.Orchestration.MicrobatchResults
import Robata.Outbox.OneProtocol
import Robata.Perception.ArtifactRuns
import Robata.Perception.DeadlineTexts
import Robata.Perception.Lineage
import Robata.Publication.PublicationRecovery
import Robata.QaPipeline.Aggregate
import Robata.QaPipeline.CompletionGate
import Robata.QaPipeline.FastDetector
import Robata.QaPipeline.SuspicionReducer
import Robata.Queue.CascadeConfluence
import Robata.Queue.Fencing
import Robata.RecordingAssociation.AssociationEvidence
import Robata.Retrieval.PagedRetrieval
import Robata.Retrieval.ProjectionReplay
import Robata.Review.FencedQueue
import Robata.Sampling.FrameBudget
import Robata.Sampling.SharedFrames
import Robata.Shadow.ShadowSteps
import Robata.Stream.TwoLedgers
import Robata.Upcasting.UpcastComposition

import TopicTracker.RetrievalOrder
import TopicTracker.StepMachine
import TopicTracker.BootstrapTransition
import TopicTracker.BootstrapProcess
import TopicTracker.BootstrapOutcome
import TopicTracker.BootstrapPublishing
import TopicTracker.BootstrapReads
import TopicTracker.PeerDiscovery
import TopicTracker.SlotCapacity
import TopicTracker.TopicLifetime
import TopicTracker.KeySeparation
import TopicTracker.PeerMerging
import TopicTracker.TopicStartup
import TopicTracker.JoinCandidates
import TopicTracker.JoinFanOut
import TopicTracker.BroadcastChannel
import TopicTracker.GossipReceiver
import TopicTracker.RecordAdvertising
import TopicTracker.JoinWakeup
import TopicTracker.ReceiverShutdown
import TopicTracker.PartitionDetection
import TopicTracker.MessageWindow
import TopicTracker.MinuteSlots
import TopicTracker.JitteredIntervals
import TopicTracker.DhtRetries
import TopicTracker.WindowSelection
import TopicTracker.MinimalDisruption
import TopicTracker.JoinedReports
import TopicTracker.EventDelivery
import TopicTracker.BootstrapShutdown
import TopicTracker.PartitionHealing
import TopicTracker.GroupIsolation
import TopicTracker.WorkerLoop
import TopicTracker.WorkerStartup
import TopicTracker.DhtClient
import TopicTracker.SilentNodes
import TopicTracker.BootstrapProgress
import TopicTracker.SlotFreshness
import TopicTracker.WorkerShutdown
import TopicTracker.SlotFilling
import TopicTracker.WorkerProgress
import TopicTracker.MutualDiscovery

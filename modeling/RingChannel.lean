import RingChannel.Session
import RingChannel.Proofs.Soundness
import RingChannel.Proofs.Bounded
import RingChannel.Proofs.Unbounded
import RingChannel.Proofs.Ownership.Session
import RingChannel.Proofs.Reachable
import RingChannel.Proofs.StaleWindow
import RingChannel.Proofs.Queue.Reserve
import RingChannel.Proofs.FailedGrowth
import RingChannel.Proofs.Queue.Inside
import RingChannel.Proofs.CapacityStep
import RingChannel.Proofs.CapacityHistory
import RingChannel.Proofs.Queue.InTurn
import RingChannel.Proofs.Linearization
import RingChannel.Proofs.Transcript
import RingChannel.Proofs.Counting.Sightings
import RingChannel.Proofs.Counting.Balance
import RingChannel.Proofs.Counting.Offers
import RingChannel.Proofs.Queue.Uncounted
import RingChannel.Proofs.Configuration
import RingChannel.Proofs.Regrowth
import RingChannel.Proofs.BrokenRelease
import RingChannel.Proofs.ChunkedTransfer
import RingChannel.Proofs.AwaitedGrowth
import RingChannel.Proofs.LazyInsert
import RingChannel.Proofs.Refinement.Listening
import RingChannel.Proofs.WritePaths
import RingChannel.Proofs.ReadPaths
import RingChannel.Proofs.Borrowing
import RingChannel.Proofs.AllOrNothing
import RingChannel.Proofs.WholeChunk
import RingChannel.Proofs.Retry
import RingChannel.Proofs.Forecast
import RingChannel.Proofs.WordGrowth
import RingChannel.Proofs.GrowthTarget
import RingChannel.Proofs.WaitingAlone
import RingChannel.Proofs.DistinctSlots
import RingChannel.Proofs.Attempts
import RingChannel.Proofs.Patience

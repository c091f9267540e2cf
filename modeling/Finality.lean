import Finality.Feed.Dispatcher
import Finality.Json.Writer
import Finality.Log
import Finality.Main
import Finality.Proofs.Feed.Boundary
import Finality.Proofs.Feed.Epoch
import Finality.Proofs.Feed.Family
import Finality.Proofs.Feed.Octets
import Finality.Proofs.Feed.RoundTrip
import Finality.Proofs.Feed.Transaction
import Finality.Proofs.Height
import Finality.Proofs.Matrix.Index
import Finality.Proofs.Matrix.Lending
import Finality.Proofs.Matrix.Stretch
import Finality.Proofs.Replay.Ending
import Finality.Proofs.Tracker.Accounting
import Finality.Proofs.Tracker.Capture
import Finality.Proofs.Tracker.ConfigFile
import Finality.Proofs.Tracker.EarlyStop
import Finality.Proofs.Tracker.Extrapolation
import Finality.Proofs.Tracker.Filled
import Finality.Proofs.Tracker.Heights
import Finality.Proofs.Tracker.Isolation
import Finality.Proofs.Tracker.LateVote
import Finality.Proofs.Tracker.Loading
import Finality.Proofs.Tracker.Locality
import Finality.Proofs.Tracker.MarkedOnce
import Finality.Proofs.Tracker.Rows
import Finality.Proofs.Tracker.Permutation
import Finality.Proofs.Tracker.Pointer
import Finality.Proofs.Tracker.Recovery
import Finality.Proofs.Tracker.Repetition
import Finality.Proofs.Tracker.Seen
import Finality.Proofs.Tracker.Table
import Finality.Proofs.Tracker.WellFormed
import Finality.Replay.Program
import Finality.Tracker.ConfigFile
import Finality.Tracker.Snapshot
import Finality.Tracker.Summary

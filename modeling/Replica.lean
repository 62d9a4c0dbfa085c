import Replica.Config.Files
import Replica.Intake
import Replica.Json.Reader
import Replica.Json.Writer
import Replica.Pipeline
import Replica.Store
import Replica.Wire
import Replica.Proofs.Store.Run
import Replica.Proofs.Store.Diff
import Replica.Proofs.Store.Membership
import Replica.Proofs.Store.Convergence
import Replica.Proofs.Filter.Equality
import Replica.Proofs.View.Lag
import Replica.Proofs.View.Tandem
import Replica.Proofs.View.Agreement
import Replica.Proofs.Store.Relisting
import Replica.Proofs.Filter.Acceptance
import Replica.Proofs.Hub.Moves
import Replica.Proofs.Network.Scopes
import Replica.Proofs.Hub.Membership
import Replica.Proofs.Hub.Reader
import Replica.Proofs.Hub.Seat
import Replica.Proofs.Hub.Run
import Replica.Proofs.Hub.FanOut
import Replica.Proofs.Hub.Turn
import Replica.Proofs.Observer.History
import Replica.Proofs.Observer.Outlook
import Replica.Proofs.Observer.Overlap
import Replica.Proofs.Observer.Calls
import Replica.Proofs.Follower.Trace
import Replica.Proofs.Follower.Pursuit
import Replica.Proofs.Follower.Outputs
import Replica.Proofs.Follower.Isolation
import Replica.Proofs.Follower.Retries
import Replica.Proofs.Network.Run
import Replica.Proofs.Network.Frame
import Replica.Proofs.Follower.Turn
import Replica.Proofs.Follower.Run
import Replica.Proofs.Observer.Turn
import Replica.Proofs.Poller.Pacing
import Replica.Proofs.Poller.Turn
import Replica.Proofs.View.Vantage
import Replica.Proofs.View.Readiness
import Replica.Proofs.View.Turn
import Replica.Proofs.View.Run
import Replica.Proofs.Coordinator.Upkeep
import Replica.Proofs.Coordinator.Change
import Replica.Proofs.Coordinator.Course
import Replica.Proofs.Coordinator.Standing
import Replica.Proofs.Network.Beginning
import Replica.Proofs.Coordinator.Turn
import Replica.Proofs.Network.Firing
import Replica.Proofs.Closure.Tree
import Replica.Proofs.Closure.Plan
import Replica.Proofs.Closure.Steps
import Replica.Proofs.Closure.Acts
import Replica.Proofs.Closure.Listening
import Replica.Proofs.Closure.Coordination
import Replica.Proofs.Closure.Distribution
import Replica.Proofs.Closure.Extension
import Replica.Proofs.Closure.Growth
import Replica.Proofs.Closure.Making
import Replica.Proofs.Closure.Turns
import Replica.Proofs.Closure.Shutdown
import Replica.Proofs.Closure.Run
import Replica.Proofs.Closure.Beginning
import Replica.Proofs.Closure.Operations
import Replica.Proofs.Closure.Spread
import Replica.Proofs.Wire.Canonical
import Replica.Proofs.Wire.RoundTrip
import Replica.Proofs.Store.Reconciliation
import Replica.Proofs.Store.Skipping
import Replica.Proofs.Store.Departures
import Replica.Proofs.Store.Aging
import Replica.Proofs.Store.Delivery
import Replica.Proofs.Filter.Parts
import Replica.Proofs.Filter.NormalForm
import Replica.Proofs.Key
import Replica.Proofs.Session.Reception
import Replica.Proofs.Follower.Receipts
import Replica.Proofs.Toml.Strings
import Replica.Proofs.Toml.Numbers
import Replica.Proofs.Toml.Documents
import Replica.Proofs.Files
import Replica.Proofs.Config.Saving
import Replica.Proofs.Config.Layers
import Replica.Proofs.Config.RoundTrip

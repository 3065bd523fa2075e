import Restock.Config.Place
import Restock.Feed
import Restock.Rehearsal.Basic
import Restock.Rehearsal.Waiting
import Restock.Supervisor.Builder
import Restock.Supervisor.Calls
import Restock.Supervisor.Status
import Restock.Brief.Script
import Restock.Rehearsal.Record
import Restock.Proofs.Monitor.RisingEdge
import Restock.Proofs.Rehearsal.Rousing
import Restock.Proofs.Pool.Election
import Restock.Proofs.Supervisor.SharedLogin
import Restock.Proofs.Bus.Endpoints
import Restock.Proofs.Bus.Subscriptions
import Restock.Proofs.Task.Product
import Restock.Proofs.Task.Verdict
import Restock.Proofs.World.Feeds
import Restock.Proofs.World.Delivery
import Restock.Proofs.Supervisor.Service
import Restock.Proofs.Supervisor.Deliveries
import Restock.Proofs.Stock.Limits
import Restock.Proofs.World.Carts
import Restock.Proofs.Supervisor.Purchases
import Restock.Proofs.Supervisor.Shutdown
import Restock.Proofs.Monitor.Stopping
import Restock.Proofs.Monitor.Statuses
import Restock.Proofs.Supervisor.Observers
import Restock.Proofs.Supervisor.Rolls
import Restock.Proofs.Supervisor.Retirement
import Restock.Proofs.Supervisor.Reports
import Restock.Proofs.Config.Rules
import Restock.Proofs.Config.RoundTrip
import Restock.Proofs.Pool.Separation
import Restock.Proofs.Pool.Notices
import Restock.Proofs.Bus.Log
import Restock.Proofs.Supervisor.Assembly
import Restock.Proofs.Supervisor.Refusals
import Restock.Proofs.Task.Ceilings
import Restock.Proofs.Retry.Delays
import Restock.Proofs.Retry.Caps
import Restock.Proofs.Config.Breakdowns
import Restock.Proofs.Feed.Readers
import Restock.Proofs.Ulid.Ids

import Regroup.Collector.Run
import Regroup.Delivery.Network
import Regroup.LockTable
import Regroup.Message.Edit
import Regroup.Message.Text
import Regroup.Policy.Combine
import Regroup.Proofs.Collector.Aggregates
import Regroup.Proofs.Collector.Conservation
import Regroup.Proofs.Collector.Continuity
import Regroup.Proofs.Collector.CountRelease
import Regroup.Proofs.Collector.Departures
import Regroup.Proofs.Collector.Expiry
import Regroup.Proofs.Collector.IssuedKeys
import Regroup.Proofs.Collector.LateArrivals
import Regroup.Proofs.Collector.Log
import Regroup.Proofs.Collector.Occasions
import Regroup.Proofs.Collector.Origin
import Regroup.Proofs.Collector.Outgoing
import Regroup.Proofs.Collector.PassThrough
import Regroup.Proofs.Collector.Readiness
import Regroup.Proofs.Collector.Redelivery
import Regroup.Proofs.Collector.Refusal
import Regroup.Proofs.Collector.Separation
import Regroup.Proofs.Collector.Settled
import Regroup.Proofs.Collector.StoredGroups
import Regroup.Proofs.Collector.StrictSize
import Regroup.Proofs.Collector.WholeRelease
import Regroup.Proofs.Delivery.Prefix
import Regroup.Proofs.Delivery.Steady
import Regroup.Proofs.Group.Partition
import Regroup.Proofs.Locks.Visits
import Regroup.Proofs.Message.Equality
import Regroup.Proofs.Resequencing.ArrivalOrder
import Regroup.Proofs.Resequencing.Ascending
import Regroup.Proofs.Resequencing.Draining
import Regroup.Proofs.Resequencing.Modes
import Regroup.Proofs.Resequencing.Runs
import Regroup.Proofs.Resequencing.Whole
import Regroup.Proofs.Settings.Reading
import Regroup.Proofs.Store.Contents
import Regroup.Proofs.Store.Operations
import Regroup.Proofs.Time.Overflow
import Regroup.Proofs.Watch.Calls
import Regroup.Proofs.Watch.Deadlines
import Regroup.Proofs.Watch.Steps
import Regroup.Settings.Document
import Regroup.Time.DurationGrammar
import Regroup.Watch.Session

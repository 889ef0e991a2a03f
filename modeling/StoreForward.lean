import StoreForward.Text.Fields
import StoreForward.Timestamp
import StoreForward.Reading
import StoreForward.Batch
import StoreForward.Batcher
import StoreForward.Fifo
import StoreForward.Outbox
import StoreForward.Phase
import StoreForward.Fault
import StoreForward.Settings
import StoreForward.Status
import StoreForward.CallError
import StoreForward.Wake
import StoreForward.Crew
import StoreForward.Notice
import StoreForward.Journal
import StoreForward.Link
import StoreForward.Worker
import StoreForward.Site
import StoreForward.Site.Move
import StoreForward.Site.Effort
import StoreForward.Site.Descent
import StoreForward.Site.Poll
import StoreForward.Crew.Script
import StoreForward.Crew.Rehearsal
import StoreForward.World
import StoreForward.World.Chain
import StoreForward.Proofs.Turn
import StoreForward.Proofs.Moment
import StoreForward.Proofs.Chronicle
import StoreForward.Proofs.Delivery
import StoreForward.Proofs.Bracketing
import StoreForward.Proofs.Ledger
import StoreForward.Proofs.Table
import StoreForward.Proofs.WakeUp
import StoreForward.Proofs.Drive
import StoreForward.Proofs.LiveSession
import StoreForward.Proofs.Blame
import StoreForward.Proofs.Rest
import StoreForward.Proofs.Recovery
import StoreForward.Proofs.Verdict
import StoreForward.Proofs.Patience
import StoreForward.Proofs.Stepwise
import StoreForward.Proofs.Observers
import StoreForward.Proofs.Halt
import StoreForward.Proofs.Hints
import StoreForward.Proofs.Tallies
import StoreForward.Proofs.Conservation
import StoreForward.Proofs.Idling
import StoreForward.Proofs.Reports
import StoreForward.Proofs.Signals
import StoreForward.Proofs.Refusal
import StoreForward.Proofs.Retries
import StoreForward.Proofs.Drain
import StoreForward.Proofs.Batching
import StoreForward.Proofs.Concern
import StoreForward.Proofs.ClockSync
import StoreForward.Proofs.Settling
import StoreForward.Proofs.Indifference
import StoreForward.Proofs.Turnover
import StoreForward.Proofs.Instants
import StoreForward.Proofs.LowPower
import StoreForward.Proofs.Rehearsing
import StoreForward.Proofs.Replies

import Lockspace.Config.Environment
import Lockspace.Json.Normal
import Lockspace.Session.Run
import Lockspace.Trial
import Lockspace.Proofs.StoreSum
import Lockspace.Proofs.BucketEntries
import Lockspace.Proofs.HashRange
import Lockspace.Proofs.Tally
import Lockspace.Proofs.TableSteps
import Lockspace.Proofs.TableReleases
import Lockspace.Proofs.Endings
import Lockspace.Proofs.Standing
import Lockspace.Proofs.QuietActs
import Lockspace.Proofs.Concurrent.Interleaving
import Lockspace.Proofs.Concurrent.InOrder
import Lockspace.Proofs.Unlinking
import Lockspace.Proofs.SpaceLife
import Lockspace.Proofs.Concurrent.LockSteps
import Lockspace.Proofs.Concurrent.Reached
import Lockspace.Proofs.Concurrent.CreationRaces
import Lockspace.Proofs.Concurrent.Conservation
import Lockspace.Proofs.Concurrent.HoldCount
import Lockspace.Proofs.Sequential.Queued
import Lockspace.Proofs.Sequential.Orderly
import Lockspace.Proofs.Sequential.WholeTable
import Lockspace.Proofs.Sequential.ResourceCalls
import Lockspace.Proofs.Sequential.LockCalls
import Lockspace.Proofs.Sequential.Draining
import Lockspace.Proofs.Sequential.Freeing
import Lockspace.Proofs.Sequential.Tasks
import Lockspace.Proofs.Sequential.Runs
import Lockspace.Proofs.Concurrent.Undisturbed
import Lockspace.Proofs.Outcomes
import Lockspace.Proofs.Steady
import Lockspace.Proofs.SteadyActs
import Lockspace.Proofs.Queueing.Seated
import Lockspace.Proofs.Queueing.Moves
import Lockspace.Proofs.Queueing.Books
import Lockspace.Proofs.Queueing.Destruction
import Lockspace.Proofs.Queueing.Runs
import Lockspace.Proofs.Queueing.Membership
import Lockspace.Proofs.Queueing.Homes
import Lockspace.Proofs.InwardActs
import Lockspace.Proofs.Notices.Spared
import Lockspace.Proofs.Notices.Telling
import Lockspace.Proofs.Migration.Lockless
import Lockspace.Proofs.Migration.Placement
import Lockspace.Proofs.Migration.Filling
import Lockspace.Proofs.Migration.Migrating
import Lockspace.Proofs.Rolls.SameRoll
import Lockspace.Proofs.Rolls.Listed
import Lockspace.Proofs.Rolls.RollCalls
import Lockspace.Proofs.Rolls.Enrolled
import Lockspace.Proofs.Concurrent.StepFrames
import Lockspace.Proofs.Concurrent.Freeing
import Lockspace.Proofs.Concurrent.Racing
import Lockspace.Proofs.TeardownFrames
import Lockspace.Proofs.Rolls.Teardowns
import Lockspace.Proofs.Rolls.FreeCalls
import Lockspace.Proofs.Quiescence.Preparing
import Lockspace.Proofs.Rolls.Operated
import Lockspace.Proofs.Draining.Forced
import Lockspace.Proofs.Draining.LogBlind
import Lockspace.Proofs.Draining.Seats
import Lockspace.Proofs.Draining.Touching
import Lockspace.Proofs.Draining.Sweeps
import Lockspace.Proofs.Draining.Turns
import Lockspace.Proofs.Draining.Traces
import Lockspace.Proofs.UnusedOrder
import Lockspace.Proofs.Draining.Emptying
import Lockspace.Proofs.Indices.Indexed
import Lockspace.Proofs.CallFrames
import Lockspace.Proofs.Indices.IndexedActs
import Lockspace.Proofs.Indices.Agreement
import Lockspace.Proofs.Commuting.Commute
import Lockspace.Proofs.Concurrent.Notifiers
import Lockspace.Proofs.Concurrent.Vigils
import Lockspace.Proofs.Replay.Calls
import Lockspace.Proofs.Replay.Replayed
import Lockspace.Proofs.Unused.ConnectFlags
import Lockspace.Proofs.Unused.Victims
import Lockspace.Proofs.Unused.Resizing
import Lockspace.Proofs.Unused.Marking
import Lockspace.Proofs.Unused.Notifying
import Lockspace.Proofs.Destruction.Unmaking
import Lockspace.Proofs.Destruction.Wholes
import Lockspace.Proofs.Destruction.Disburdened
import Lockspace.Proofs.Estimates.Timing
import Lockspace.Proofs.ValueBlocks
import Lockspace.Proofs.Documents.Settings
import Lockspace.Proofs.Listings
import Lockspace.Proofs.Documents.Ages
import Lockspace.Proofs.Unused.Refinement
import Lockspace.Proofs.Rolls.Patrols
import Lockspace.Proofs.Retries.Retrying

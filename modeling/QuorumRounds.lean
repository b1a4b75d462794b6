import QuorumRounds.Binary64.Basic
import QuorumRounds.Binary64.Decimal
import QuorumRounds.Block
import QuorumRounds.Confirmations
import QuorumRounds.Decision
import QuorumRounds.Duration
import QuorumRounds.Error
import QuorumRounds.Machine.Application
import QuorumRounds.Machine.Basic
import QuorumRounds.Machine.Calls
import QuorumRounds.Machine.Config
import QuorumRounds.Machine.Spread
import QuorumRounds.Named
import QuorumRounds.Overflow
import QuorumRounds.Params
import QuorumRounds.Payload.Basic
import QuorumRounds.Payload.Registry
import QuorumRounds.PriceOracle.Basic
import QuorumRounds.PriceOracle.Data
import QuorumRounds.PriceOracle.Payload
import QuorumRounds.PriceOracle.Round
import QuorumRounds.Proofs.Ballot.Agreement
import QuorumRounds.Proofs.Ballot.Decisions
import QuorumRounds.Proofs.Ballot.InStep
import QuorumRounds.Proofs.Ballot.Order
import QuorumRounds.Proofs.Ballot.Reach
import QuorumRounds.Proofs.Ballot.Votes
import QuorumRounds.Proofs.Checked
import QuorumRounds.Proofs.Gathering.Decisions
import QuorumRounds.Proofs.Gathering.Payloads
import QuorumRounds.Proofs.Machine.Alike
import QuorumRounds.Proofs.Machine.Calls
import QuorumRounds.Proofs.Machine.Deadlines
import QuorumRounds.Proofs.Machine.Itinerary
import QuorumRounds.Proofs.Machine.Overdue
import QuorumRounds.Proofs.Machine.Progress
import QuorumRounds.Proofs.Machine.Refused
import QuorumRounds.Proofs.Machine.Restart
import QuorumRounds.Proofs.Machine.Spread
import QuorumRounds.Proofs.Machine.Steps
import QuorumRounds.Proofs.Machine.Stopped
import QuorumRounds.Proofs.Payload.Registry
import QuorumRounds.Proofs.Payload.Same
import QuorumRounds.Proofs.PriceOracle.Aborted
import QuorumRounds.Proofs.PriceOracle.Acceptance
import QuorumRounds.Proofs.PriceOracle.Account
import QuorumRounds.Proofs.PriceOracle.Backed
import QuorumRounds.Proofs.PriceOracle.Bounds
import QuorumRounds.Proofs.PriceOracle.Completes
import QuorumRounds.Proofs.PriceOracle.Configs
import QuorumRounds.Proofs.PriceOracle.Deadlines
import QuorumRounds.Proofs.PriceOracle.Encoding
import QuorumRounds.Proofs.PriceOracle.Endurance
import QuorumRounds.Proofs.PriceOracle.Identical
import QuorumRounds.Proofs.PriceOracle.Itinerary
import QuorumRounds.Proofs.PriceOracle.Lifecycle
import QuorumRounds.Proofs.PriceOracle.Outlines
import QuorumRounds.Proofs.PriceOracle.Periods
import QuorumRounds.Proofs.PriceOracle.Rejections
import QuorumRounds.Proofs.PriceOracle.Reorder
import QuorumRounds.Proofs.PriceOracle.Replay
import QuorumRounds.Proofs.PriceOracle.Results
import QuorumRounds.Proofs.PriceOracle.Rounds
import QuorumRounds.Proofs.PriceOracle.Running
import QuorumRounds.Proofs.PriceOracle.Service
import QuorumRounds.Proofs.PriceOracle.Sessions
import QuorumRounds.Proofs.PriceOracle.Sound
import QuorumRounds.Proofs.PriceOracle.Transitions
import QuorumRounds.Proofs.PriceOracle.Turnout
import QuorumRounds.Proofs.PriceOracle.Twins
import QuorumRounds.Proofs.PriceOracle.Unsigned
import QuorumRounds.Proofs.PriceOracle.Voting
import QuorumRounds.Proofs.PriceOracle.Winnable
import QuorumRounds.Proofs.Quorum
import QuorumRounds.Proofs.Replica.Abort
import QuorumRounds.Proofs.Replica.Alike
import QuorumRounds.Proofs.Replica.Endings
import QuorumRounds.Proofs.Replica.Endurance
import QuorumRounds.Proofs.Replica.Invariant
import QuorumRounds.Proofs.Replica.Journal
import QuorumRounds.Proofs.Replica.Lifecycle
import QuorumRounds.Proofs.Replica.Log
import QuorumRounds.Proofs.Replica.Numbered
import QuorumRounds.Proofs.Replica.Overdue
import QuorumRounds.Proofs.Replica.Partition
import QuorumRounds.Proofs.Replica.Reorder
import QuorumRounds.Proofs.Replica.Replay
import QuorumRounds.Proofs.Replica.Runs
import QuorumRounds.Proofs.Replica.Spread
import QuorumRounds.Proofs.Replica.Steps
import QuorumRounds.Proofs.Replica.Stopped
import QuorumRounds.Proofs.Replica.Transitions
import QuorumRounds.Proofs.Round.Admission
import QuorumRounds.Proofs.Round.Confirmations
import QuorumRounds.Proofs.Round.Poll
import QuorumRounds.Proofs.SortedMap.Domain
import QuorumRounds.Proofs.Store.Plain
import QuorumRounds.Proofs.Store.Reads
import QuorumRounds.Proofs.Store.Retention
import QuorumRounds.Proofs.Store.Window
import QuorumRounds.Proofs.Tally.Counted
import QuorumRounds.Proofs.Tally.Groups
import QuorumRounds.Proofs.Tally.Leader
import QuorumRounds.Proofs.Tally.Votes
import QuorumRounds.Proofs.Thresholds
import QuorumRounds.Proofs.Timeouts
import QuorumRounds.Proofs.Timeouts.Agenda
import QuorumRounds.Proofs.Timeouts.Ranked
import QuorumRounds.Proofs.Value.Arranged
import QuorumRounds.Proofs.Wire.Blocks
import QuorumRounds.Proofs.Wire.Configs
import QuorumRounds.Proofs.Wire.Forms
import QuorumRounds.Proofs.Wire.Readers
import QuorumRounds.Proofs.Wire.Values
import QuorumRounds.Replica
import QuorumRounds.Replica.Calls
import QuorumRounds.Replica.Numbered
import QuorumRounds.Replica.Spread
import QuorumRounds.Round.Ballot
import QuorumRounds.Round.Gathering
import QuorumRounds.Round.Poll
import QuorumRounds.SortedMap.Basic
import QuorumRounds.SortedMap.Lemmas
import QuorumRounds.Store.Archive
import QuorumRounds.Store.Basic
import QuorumRounds.Store.Index
import QuorumRounds.Tally
import QuorumRounds.Text.Hex
import QuorumRounds.Text.Hidden
import QuorumRounds.Text.Quoted
import QuorumRounds.Timeouts
import QuorumRounds.Timeouts.Calls
import QuorumRounds.Timeouts.Ranked
import QuorumRounds.TransitionTable
import QuorumRounds.Value.Basic
import QuorumRounds.Value.Display
import QuorumRounds.Value.Wire
import QuorumRounds.Wire.Basic
import QuorumRounds.Workflow

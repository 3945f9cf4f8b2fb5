import McpTelegram.Export.Checkpoint
import McpTelegram.Export.Resume
import McpTelegram.Export.Progress
import McpTelegram.Drafts.Contracts
import McpTelegram.Drafts.Store
import McpTelegram.Drafts.History
import McpTelegram.Drafts.Projection
import McpTelegram.Drafts.Bookkeeping
import McpTelegram.Drafts.Outcomes
import McpTelegram.Drafts.World
import McpTelegram.Drafts.Order
import McpTelegram.Drafts.Recovery
import McpTelegram.Foundations.Dictionary
import McpTelegram.Foundations.Failing
import McpTelegram.Foundations.LongestSuffix
import McpTelegram.Foundations.Run
import McpTelegram.Foundations.Table
import McpTelegram.Foundations.Revision
import McpTelegram.Foundations.LastWriter
import McpTelegram.Messages.Contracts
import McpTelegram.Messages.Media
import McpTelegram.Messages.Store
import McpTelegram.Messages.Bundle
import McpTelegram.Messages.Hydration
import McpTelegram.Messages.Operations
import McpTelegram.Messages.Deletion
import McpTelegram.Messages.Single
import McpTelegram.Messages.Convergence
import McpTelegram.Messages.MediaPairs
import McpTelegram.Messages.Transcribed
import McpTelegram.Messages.EditHistory
import McpTelegram.Messages.Sequential
import McpTelegram.Reactions.Store
import McpTelegram.Reactions.Aggregates
import McpTelegram.Reactions.Convergence
import McpTelegram.Reactions.Detail
import McpTelegram.Reactions.Settling
import McpTelegram.Reactions.Publication
import McpTelegram.Reactions.Acquisition
import McpTelegram.Safety.Recovery
import McpTelegram.Safety.Record
import McpTelegram.Safety.Ledger
import McpTelegram.Safety.Operations
import McpTelegram.Safety.World
import McpTelegram.Safety.Changes
import McpTelegram.Safety.Floors
import McpTelegram.Safety.Restrictions
import McpTelegram.Safety.Trials
import McpTelegram.Safety.TrialRuns
import McpTelegram.Scheduled.Store
import McpTelegram.Scheduled.World
import McpTelegram.Scheduled.Publication
import McpTelegram.Scheduled.Mirror
import McpTelegram.Scheduler.Core
import McpTelegram.Scheduler.World
import McpTelegram.Scheduler.Moves
import McpTelegram.Scheduler.Valid
import McpTelegram.Scheduler.Steps
import McpTelegram.Scheduler.Pace
import McpTelegram.Scheduler.Slots
import McpTelegram.Scheduler.Settlement
import McpTelegram.Scheduler.Fairness
import McpTelegram.Scheduler.Wakeup
import McpTelegram.Updates.Ring
import McpTelegram.Updates.Credit
import McpTelegram.Updates.RingAccounting
import McpTelegram.Updates.Store
import McpTelegram.Updates.StoreBounds
import McpTelegram.Hydration.Runs
import McpTelegram.Navigation.Families
import McpTelegram.Topics.Convergence
import McpTelegram.Topics.Completion
import McpTelegram.Trace.Pages
import McpTelegram.Transactions.Atomic
import McpTelegram.Transactions.WriterRuns
import McpTelegram.Activity.ColdDemand
import McpTelegram.Activity.ColdRuns
import McpTelegram.Activity.HotRuns
import McpTelegram.Scheduled.QueuePaging
import McpTelegram.Scheduled.CommandRuns
import McpTelegram.Demand.Turns
import McpTelegram.Demand.Invocations
import McpTelegram.Directory.Traversal
import McpTelegram.Directory.Pins
import McpTelegram.Delta.DeletionCoverage
import McpTelegram.History.Row
import McpTelegram.History.GapFill
import McpTelegram.Receipts.Runs
import McpTelegram.Reading.Budget
import McpTelegram.Reading.MixedSearch
import McpTelegram.Updates.DeliveryRuns
import McpTelegram.Hydration.Batching
import McpTelegram.Export.BaseImport
import McpTelegram.Hydration.Repair
import McpTelegram.Access.Revocations
import McpTelegram.Reading.ContextWindow
import McpTelegram.Flood.KillSwitch
import McpTelegram.Folders.Wire
import McpTelegram.History.RawPages
import McpTelegram.History.PeerSelection

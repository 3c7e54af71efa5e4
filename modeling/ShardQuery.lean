import ShardQuery.Chunked.Rehearsal
import ShardQuery.Cli.Folder
import ShardQuery.Identifier.Fleet
import ShardQuery.Main
import ShardQuery.Proofs.Identifier.SnowflakeText
import ShardQuery.Proofs.Identifier.TickOrder
import ShardQuery.Scan.Describe
import ShardQuery.Proofs.Identifier.IssueLog
import ShardQuery.Proofs.Identifier.LocalIssue
import ShardQuery.Proofs.Identifier.Succession
import ShardQuery.Proofs.Chunked.CursorTrace
import ShardQuery.Proofs.Chunked.Tracing
import ShardQuery.Proofs.Chunked.CursorDiscipline
import ShardQuery.Proofs.Chunked.LimitInEffect
import ShardQuery.Proofs.Chunked.TracedRun
import ShardQuery.Proofs.Chunked.Scenario
import ShardQuery.Proofs.Chunked.ScenarioRun
import ShardQuery.Proofs.Identifier.RadixText
import ShardQuery.Proofs.Identifier.HashText
import ShardQuery.Proofs.Identifier.IdentifierText
import ShardQuery.Proofs.Identifier.SharedCache
import ShardQuery.Proofs.Identifier.FailedCall
import ShardQuery.Proofs.Chunked.FaultFree
import ShardQuery.Proofs.Chunked.FaultFreeRun
import ShardQuery.Proofs.Holes.Sweep
import ShardQuery.Proofs.Chunked.StreamRun
import ShardQuery.Proofs.Chunked.CallRecord
import ShardQuery.Proofs.Chunked.Chapters
import ShardQuery.Proofs.Chunked.ChunkCalls
import ShardQuery.Proofs.Chunked.Bookkeeping
import ShardQuery.Proofs.Chunked.KeptBooks
import ShardQuery.Proofs.Chunked.Accounting
import ShardQuery.Proofs.Chunked.FinishedStream
import ShardQuery.Proofs.Chunked.Completeness
import ShardQuery.Proofs.Query.Atoms
import ShardQuery.Proofs.Query.Normalization
import ShardQuery.Proofs.Holes.PointLookup
import ShardQuery.Proofs.Scan.WriteLog
import ShardQuery.Proofs.Text.Padding
import ShardQuery.Proofs.Scan.Visibility
import ShardQuery.Proofs.Identifier.ExtraLimit
import ShardQuery.Proofs.Holes.CalendarDays
import ShardQuery.Proofs.Query.IntegerSpelling
import ShardQuery.Proofs.Query.ComparisonNodes
import ShardQuery.Proofs.Scan.SessionIdentity
import ShardQuery.Proofs.Scan.SessionLife
import ShardQuery.Proofs.Chunked.Conversation
import ShardQuery.Proofs.Chunked.ConversationRun
import ShardQuery.Proofs.Identifier.SnowflakeOrder
import ShardQuery.Proofs.Identifier.ShardPortion
import ShardQuery.Proofs.Cli.ReadBack
import ShardQuery.Proofs.Holes.ListedFields
import ShardQuery.Proofs.Log.LineText
import ShardQuery.Proofs.Query.LiteralText
import ShardQuery.Proofs.Query.TreeText
import ShardQuery.Proofs.Scan.SingleRow
import ShardQuery.Proofs.Identifier.Restart
import ShardQuery.Proofs.Identifier.RadixSpelling
import ShardQuery.Proofs.Config.Acceptance

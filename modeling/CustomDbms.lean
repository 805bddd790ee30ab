import CustomDbms.Index.Refinement
import CustomDbms.Core.EngineAtomicity
import CustomDbms.Core.EngineHistory
import CustomDbms.Core.Sessions
import CustomDbms.Core.RejectedLoad
import CustomDbms.Core.IndexConsistency
import CustomDbms.Core.WalLog
import CustomDbms.Core.WhereContainment
import CustomDbms.Network.Protocol
import CustomDbms.Server.Mediation
import CustomDbms.Server.RbacReload
import CustomDbms.Server.AtomicCommit
import CustomDbms.Server.ShardedReads
import CustomDbms.Server.ShardPlacement
import CustomDbms.Server.SplitInsert
import CustomDbms.Server.WriteContainment
import CustomDbms.Server.MetadataAgreement
import CustomDbms.Server.MetadataSync
import CustomDbms.Execution.ValueOrder
import CustomDbms.Catalog.GrantHistory
import CustomDbms.Runtime.JobProtocol
import CustomDbms.Parser.WherePrinting
import CustomDbms.Index.CanonicalShape
import CustomDbms.Core.RevertHistory
import CustomDbms.Execution.AssignmentOrder
import CustomDbms.Execution.ExactAggregates
import CustomDbms.Server.Heartbeat
import CustomDbms.Cli.SplitStatements
import CustomDbms.Planner.AccessPath
import CustomDbms.Server.JsonAnswers
import CustomDbms.Versioning.TimestampOrder
import CustomDbms.Core.ExecutorSafety
import CustomDbms.Core.RowIdReuse
import CustomDbms.Core.SerialCommits
import CustomDbms.Core.Durability
import CustomDbms.Parser.StatementGrammar
import CustomDbms.Server.ClusterTelemetry
import CustomDbms.Cli.InteractiveMode
import CustomDbms.Index.HeightBound
import CustomDbms.Core.RelationalRefinement
import CustomDbms.Server.SocketMoves

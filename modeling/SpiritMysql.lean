import SpiritMysql.AsyncAction
import SpiritMysql.AuthRun
import SpiritMysql.BufferOwners
import SpiritMysql.ByteCodec
import SpiritMysql.ByteSends
import SpiritMysql.ChunkCursor
import SpiritMysql.CivilDate
import SpiritMysql.ColoredSql
import SpiritMysql.ColumnValues
import SpiritMysql.CommandEnd
import SpiritMysql.CommandFrame
import SpiritMysql.Commands
import SpiritMysql.CommitHandler
import SpiritMysql.CompressedRun
import SpiritMysql.CompressedSpace
import SpiritMysql.Conn
import SpiritMysql.ConnAttempts
import SpiritMysql.ConnRun
import SpiritMysql.Coupling
import SpiritMysql.DanglingXa
import SpiritMysql.DeadConns
import SpiritMysql.DecimalText
import SpiritMysql.Deferral
import SpiritMysql.DiscardRun
import SpiritMysql.DiscardedPackets
import SpiritMysql.Disconnected
import SpiritMysql.DsnName
import SpiritMysql.DsnRuns
import SpiritMysql.Ed25519Signatures
import SpiritMysql.Errors
import SpiritMysql.EventSystem
import SpiritMysql.FetchRun
import SpiritMysql.FramedSends
import SpiritMysql.HealthStatus
import SpiritMysql.IntervalRun
import SpiritMysql.LazyRun
import SpiritMysql.LeftoverPacket
import SpiritMysql.LenencRun
import SpiritMysql.LogLimitsRun
import SpiritMysql.NamedVariables
import SpiritMysql.PacketReads
import SpiritMysql.PacketStream
import SpiritMysql.Pool
import SpiritMysql.PoolCount
import SpiritMysql.PoolRun
import SpiritMysql.PoolWaiters
import SpiritMysql.PreparedRun
import SpiritMysql.PreparedTrx
import SpiritMysql.Protocol
import SpiritMysql.ProtocolOrder
import SpiritMysql.ReadOrder
import SpiritMysql.ReadScript
import SpiritMysql.Reader
import SpiritMysql.Reconnect
import SpiritMysql.ReconnectRun
import SpiritMysql.Replies
import SpiritMysql.Results
import SpiritMysql.RowDiscard
import SpiritMysql.RowFetch
import SpiritMysql.RowReader
import SpiritMysql.RowStream
import SpiritMysql.StoredRun
import SpiritMysql.SessionPointsRun
import SpiritMysql.SkippedBytes
import SpiritMysql.SqlLogDelivery
import SpiritMysql.SqlRows
import SpiritMysql.StatementRun
import SpiritMysql.StringLength
import SpiritMysql.TimezoneOffset
import SpiritMysql.TrxScopeRun
import SpiritMysql.TrxStore
import SpiritMysql.TwoPhaseAbort
import SpiritMysql.UrlReading
import SpiritMysql.XaIds
import SpiritMysql.XaRun

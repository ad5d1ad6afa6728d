import ZetDb.Application.Dispatcher
import ZetDb.Storage.Records
import ZetDb.Storage.Aof
import ZetDb.Storage.TornTail
import ZetDb.Storage.Dump
import ZetDb.Server.Recovery
import ZetDb.Server.Logging
import ZetDb.Storage.AofWriterLog
import ZetDb.Storage.AofWriterLocks
import ZetDb.Server.RespSession
import ZetDb.Protocol.Verdicts
import ZetDb.Protocol.Language
import ZetDb.Server.Chunking
import ZetDb.Storage.Expiry
import ZetDb.Storage.ConcurrentIncr
import ZetDb.Storage.ShardLocks
import ZetDb.Storage.Corruption
import ZetDb.Server.Restart
import ZetDb.Server.Lifetimes
import ZetDb.Server.FieldWidths
import ZetDb.Application.Replies
import ZetDb.Server.Progress
import ZetDb.Server.FastSession
import ZetDb.Protocol.Grammar
import ZetDb.Application.Agreement
import ZetDb.Server.LoggedWrites
import ZetDb.Storage.Counter
import ZetDb.Application.Deadlines
import ZetDb.Server.Tcp
import ZetDb.Observability.Metrics
import ZetDb.Storage.LazyEviction
import ZetDb.Storage.Eviction
import ZetDb.Protocol.Bulk
import ZetDb.Storage.ReplaySafety
import ZetDb.Storage.SnapshotLoad
import ZetDb.Storage.FailedWrites
import ZetDb.Storage.Linearizability
import ZetDb.Storage.CrashRecovery
import ZetDb.Server.Connections
import ZetDb.Storage.SnapshotFile
import ZetDb.Storage.KeyOverrun
import ZetDb.Server.MixedStreams
import ZetDb.Storage.RecencyCache
import ZetDb.Server.FastConnection
import ZetDb.Server.Lives
import ZetDb.Storage.ShardWalks
import ZetDb.Application.DispatcherBorrowed
import ZetDb.Server.Rewrites

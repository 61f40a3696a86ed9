import SpannerClient.Batch.Partitions
import SpannerClient.Codec.RoundTrip
import SpannerClient.Database.SessionCustody
import SpannerClient.Database.StreamRetry
import SpannerClient.Metrics.OperationKey
import SpannerClient.MultiplexedSession.Maintenance
import SpannerClient.ResultStream.Exact
import SpannerClient.ResultStream.Resume
import SpannerClient.SessionPool.Closing
import SpannerClient.ObjectCache.Transparency
import SpannerClient.RequestId.Uniqueness
import SpannerClient.TransactionRunner.Backoff
import SpannerClient.TransactionRunner.Chain
import SpannerClient.TransactionRunner.SameOptions
import SpannerClient.Transaction.Commit
import SpannerClient.Transaction.IdWaiter
import SpannerClient.Transaction.InlineBegin
import SpannerClient.Transaction.NewestToken
import SpannerClient.ObjectCache.Closing
import SpannerClient.ObjectConversion.Cycles
import SpannerClient.RequestTags.FreshCopies
import SpannerClient.SessionPool.KeepAlive
import SpannerClient.SessionPool.Leaks
import SpannerClient.SessionPool.Eviction
import SpannerClient.ResultStream.Transparency
import SpannerClient.Codec.TypeInference
import SpannerClient.Codec.JsonConversion
import SpannerClient.Codec.ProtoEnums
import SpannerClient.Codec.Dates
import SpannerClient.ResultStream.Fragments
import SpannerClient.Request.Keys
import SpannerClient.Request.SharedMaps
import SpannerClient.Request.MutationKey
import SpannerClient.Request.CommitErrors
import SpannerClient.SessionPool.Lending
import SpannerClient.SessionPool.Order
import SpannerClient.ResultStream.StoredRows
import SpannerClient.ResultStream.Checkpoints
import SpannerClient.Database.PooledSessions
import SpannerClient.TransactionRunner.MutateOnce
import SpannerClient.Metrics.Charging
import SpannerClient.Metrics.Cleanup
import SpannerClient.Machine.Replay
import SpannerClient.Transaction.Execution

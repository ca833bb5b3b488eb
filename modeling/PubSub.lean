import PubSub.Base.Lts
import PubSub.Base.Table
import PubSub.Base.Broadcast
import PubSub.Base.Bounds
import PubSub.Base.Reconnect
import PubSub.Base.StreamLog
import PubSub.Base.Json
import PubSub.Message
import PubSub.Backoff
import PubSub.Cache.Runtimes
import PubSub.Cache.Invariants
import PubSub.Cache.Grace
import PubSub.Cache.FirstListener
import PubSub.Kafka.Snapshot
import PubSub.Kafka.ProducerCache
import PubSub.Kafka.Runtime
import PubSub.Redis.Value
import PubSub.Redis.Stream
import PubSub.Redis.Reference
import PubSub.Redis.Session
import PubSub.Redis.StreamRuntime
import PubSub.Redis.Readable
import PubSub.Redis.PubSubRuntime
import PubSub.Reconnect
import PubSub.Redis.Poller
import PubSub.Redis.Resume
import PubSub.Utf8
import PubSub.Codec
import PubSub.Redis.RoundTrip
import PubSub.Base.Listener
import PubSub.Cache.Fanout
import PubSub.Kafka.Agreement
import PubSub.Base.GetOrCreate
import PubSub.Outage
import PubSub.Redis.Connections
import PubSub.Kafka.ProducerCalls
import PubSub.Caches
import PubSub.Cache.Idle
import PubSub.Base.Members
import PubSub.Redis.Normalisation
import PubSub.Base.Decimal
import PubSub.Redis.TestingUtils.StreamState
import PubSub.Base.Text
import PubSub.Redis.TestingUtils.Command
import PubSub.Redis.TestingUtils.Parser
import PubSub.Redis.TestingUtils.Grammar
import PubSub.Redis.TestingUtils.Decode
import PubSub.Redis.TestingUtils.Panics
import PubSub.Redis.TestingUtils.Reads
import PubSub.Cuts
import PubSub.Base.Resp
import PubSub.Redis.TestingUtils.Xadd
import PubSub.Kafka.TestingUtils.MockKafka
import PubSub.Kafka.TestingUtils.Isolation
import PubSub.Base.Incremental
import PubSub.Redis.TestingUtils.Chunks
import PubSub.Redis.TestingUtils.Replies
import PubSub.Base.Progress
import PubSub.Redis.TestingUtils.MockServer
import PubSub.Redis.TestingUtils.Served
import PubSub.Redis.TestingUtils.Announced
import PubSub.Kafka.TestingUtils.Progress
import PubSub.Redis.TestingUtils.Harness
import PubSub.Traces
import PubSub.Delivery
import PubSub.Redis.TestingUtils.Snapshots
import PubSub.Kafka.LiveTopic

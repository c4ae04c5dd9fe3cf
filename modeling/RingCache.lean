import RingCache.Library.Transition
import RingCache.Library.Coalescing
import RingCache.Library.Schedules
import RingCache.Library.Tables
import RingCache.Library.Mail
import RingCache.Library.Ring
import RingCache.Library.Fifo
import RingCache.Cache.Basic
import RingCache.Cache.Operations
import RingCache.Cache.Steps
import RingCache.Cache.Invariant
import RingCache.Cache.Accounting
import RingCache.Cache.Guarantees
import RingCache.Cache.Eviction
import RingCache.Cache.Finalization
import RingCache.Cache.Admission
import RingCache.Cache.Queue
import RingCache.Cache.Atomicity
import RingCache.Streams.Basic
import RingCache.Streams.Steps
import RingCache.Streams.SingleFlight
import RingCache.Streams.Spool
import RingCache.Streams.Leadership
import RingCache.Streams.Fetches
import RingCache.Streams.Routing
import RingCache.Streams.Events
import RingCache.Streams.Delivery
import RingCache.Streams.Pins
import RingCache.Streams.Hits
import RingCache.Streams.Safety
import RingCache.Streams.Atomicity
import RingCache.Streams.Quiescence
import RingCache.Streams.Refinement
import RingCache.Streams.Agreement
import RingCache.Streams.Freshness
import RingCache.Filter.Basic
import RingCache.Filter.Steps
import RingCache.Filter.Matching
import RingCache.Filter.HitResponses
import RingCache.Filter.Isolation
import RingCache.Filter.Teardown
import RingCache.Filter.Upstream
import RingCache.Filter.Completion
import RingCache.Filter.Lifecycle
import RingCache.Filter.Starvation
import RingCache.Filter.Waiters
import RingCache.Filter.Server

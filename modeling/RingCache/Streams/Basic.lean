import RingCache.Cache.Operations

/-!
# Streams, dispatchers and the shared cache

A stream calls `lookup` once and then plays the role it was given: it serves a
hit, publishes as a leader, or waits as a follower.  The system below is any
number of streams on any number of dispatchers around one cache.  Its atomic
steps are the locked parts of the calls, each iteration of a running eviction
scan, each single post, each run of one posted closure, and each unlocked
access to a pinned entry or to the flag of a waiter.  A dispatcher runs its
closures in the order in which they were posted.

The system records what the code does not keep: the publish calls each leader
has made, the leader each follower has joined, the calls made on each stream's
callbacks, where and what an entry was when a hit pinned it, and a history of
leaders, completed responses and evictions.  No step reads these records.
-/

namespace RingCache

/-! ## Publish calls -/

/-- A call of `publishHeaders` or `publishData`. -/
inductive Publish where
  | headers (headers : ResponseHeaderMap) (endStream : Bool)
  | data (data : Bytes) (endStream : Bool)
  deriving DecidableEq, Repr

namespace Publish

def endStream : Publish → Bool
  | .headers _ ends => ends
  | .data _ ends => ends

/-- The body bytes a call carries. -/
def bytes : Publish → Bytes
  | .headers _ _ => []
  | .data chunk _ => chunk

/-- The headers a call carries. -/
def headers? : Publish → Option ResponseHeaderMap
  | .headers published _ => some published
  | .data _ _ => none

end Publish

/-- The publish calls of one leader, in order. -/
abbrev Log := List Publish

namespace Log

def ended (log : Log) : Bool :=
  log.any Publish.endStream

/-- The first headers published. -/
def headers? (log : Log) : Option ResponseHeaderMap :=
  log.findSome? Publish.headers?

/-- All chunks published, in order. -/
def body (log : Log) : Bytes :=
  log.flatMap Publish.bytes

end Log

/-- The locked part of `publishHeaders` or `publishData`. -/
def Monitor.publish (monitor : Monitor) (key : Key) :
    Publish → Except Stop (List Closure × Monitor)
  | .headers headers endStream =>
      monitor.publishHeaders key headers endStream
  | .data data endStream => monitor.publishData key data endStream

/-! ## Streams -/

/-- Where the unlocked rest of a hit lookup stands: before the copy of the
headers, before the hand-out, or returned, with its body fragment unreleased
or not. -/
inductive HitStage where
  | pinned
  | copied (headers : ResponseHeaderMap)
  | served (headers : ResponseHeaderMap) (fragment : Bool)
  deriving DecidableEq, Repr

/-- A lookup that hit.  `slot`, `snapshot` and `source` record where the entry
was when it was pinned, what it held then, and which leader of the key had
most recently ended its stream. -/
structure HitLookup where
  key : Key
  entry : EntryPtr
  bodyLength : Nat
  stage : HitStage
  slot : Option Nat
  snapshot : Option Entry
  source : Option StreamId
  deriving DecidableEq, Repr

/-- The publish call a leader is in: none, one that holds the mutex inside
`finalizeLocked`, or one that has released it, with the closures it has still
to post. -/
inductive Call where
  | idle
  | finalizing (posts : List Closure)
  | posting (posts : List Closure)
  deriving DecidableEq, Repr

def Call.pending : Call → List Closure
  | .idle => []
  | .finalizing posts => posts
  | .posting posts => posts

structure Leader where
  key : Key
  log : Log
  call : Call
  deriving DecidableEq, Repr

/-- A follower: its waiter and the leader it has joined. -/
structure Follower where
  key : Key
  waiter : Waiter
  leader : Option StreamId
  deriving DecidableEq, Repr

/-- A stream as a caller of the cache. -/
inductive Client where
  | start (dispatcher : DispatcherId)
  | hit (lookup : HitLookup)
  | leader (leader : Leader)
  | follower (follower : Follower)
  deriving DecidableEq, Repr

/-- What the history of a run keeps. -/
inductive Happening where
  | led (stream : StreamId) (key : Key)
  | ended (stream : StreamId) (key : Key) (cached : Bool)
  | evicted (key : Key)
  deriving DecidableEq, Repr

/-- A history, most recent first. -/
abbrev History := List Happening

namespace History

/-- The stream that most recently became the leader of a key. -/
def lastLeader (history : History) (key : Key) : Option StreamId :=
  history.findSome? fun
    | .led stream led => if led = key then some stream else none
    | _ => none

/-- The leader of a key that most recently published `end_stream`. -/
def lastEnded (history : History) (key : Key) : Option StreamId :=
  history.findSome? fun
    | .ended stream ended _ => if ended = key then some stream else none
    | _ => none

end History

/-- The whole system. -/
structure World where
  monitor : Monitor
  clients : List Client
  cancelled : Nat → Bool := fun _ => false
  queues : DispatcherId → List Closure := fun _ => []
  delivered : StreamId → List Event := fun _ => []
  history : History := []

namespace World

/-- A new cache and one stream for each dispatcher in the list. -/
def create
    (capacity : UInt64) (slotCount : Nat)
    (dispatchers : List DispatcherId) : World where
  monitor := Monitor.create capacity slotCount
  clients := dispatchers.map .start

/-- `dispatcher_->post(closure)`. -/
def post
    (queues : DispatcherId → List Closure) (closure : Closure) :
    DispatcherId → List Closure :=
  Function.update queues closure.waiter.dispatcher
    (queues closure.waiter.dispatcher ++ [closure])

/-- The key of the entry that a scan iteration has taken from the head slot. -/
def evictedKeys (before after : RingBufferCache) : List Happening :=
  match before.slots[before.head]?, after.slots[before.head]? with
  | some (some entry), some none => [.evicted entry.key]
  | _, _ => []

/-- The steps of one stream. -/
inductive Move where
  | lookup (key : Key)
  | copyHeaders
  | handOut
  | release
  | publish (call : Publish)
  | scan
  | finish
  | post
  | return_
  | cancel
  | removeWaiter
  deriving DecidableEq, Repr

/-- A stream makes a step, or a dispatcher runs its next closure. -/
inductive Action where
  | move (stream : StreamId) (move : Move)
  | run (dispatcher : DispatcherId)
  deriving DecidableEq, Repr

/-- Replace a stream and the monitor. -/
def update
    (world : World) (stream : StreamId) (client : Client)
    (monitor : Monitor) : World :=
  { world with
    monitor := monitor
    clients := world.clients.set stream client }

/-- The locked part of `lookup` by a stream that has not looked up yet. -/
def lookup
    (world : World) (stream : StreamId) (dispatcher : DispatcherId)
    (key : Key) : Except Stop World := do
  let (result, monitor) ←
    world.monitor.lookup key
      (some { stream := stream, dispatcher := dispatcher }) stream
  match result with
  | .hit entry bodyLength =>
      return world.update stream
        (.hit
          { key := key
            entry := entry
            bodyLength := bodyLength
            stage := .pinned
            slot := world.monitor.cache.slotOf entry
            snapshot := world.monitor.cache.entryAt entry
            source := world.history.lastEnded key })
        monitor
  | .leader =>
      return { world.update stream
          (.leader { key := key, log := [], call := .idle }) monitor with
        history := .led stream key :: world.history }
  | .follower waiter posts =>
      return { world.update stream
          (.follower
            { key := key
              waiter := waiter
              leader := world.history.lastLeader key })
          monitor with
        queues := posts.foldl post world.queues }

/-- The steps of a hit lookup after its locked part: the copy of the headers,
then the hand-out with an unpin when the body is empty, and later the release
of the body fragment. -/
def hitStep
    (world : World) (stream : StreamId) (hit : HitLookup) :
    HitStage → Move → Except Stop World
  | .pinned, .copyHeaders =>
      match world.monitor.cache.entryAt hit.entry with
      | none => .error (.fault .danglingEntry)
      | some entry =>
          .ok (world.update stream
            (.hit { hit with stage := .copied entry.headers })
            world.monitor)
  | .copied headers, .handOut =>
      if hit.bodyLength = 0 then do
        let monitor ← world.monitor.unpin hit.entry
        return world.update stream
          (.hit { hit with stage := .served headers false }) monitor
      else
        .ok (world.update stream
          (.hit { hit with stage := .served headers true })
          world.monitor)
  | .served headers true, .release => do
      let monitor ← world.monitor.unpin hit.entry
      return world.update stream
        (.hit { hit with stage := .served headers false }) monitor
  | _, _ => .error .blocked

/-- The steps of a leader. -/
def leaderStep
    (world : World) (stream : StreamId) (leader : Leader) :
    Call → Move → Except Stop World
  | .idle, .publish call => do
      let (posts, monitor) ← world.monitor.publish leader.key call
      return world.update stream
        (.leader
          { leader with
            log := leader.log ++ [call]
            call :=
              if monitor.frame.isSome then
                .finalizing posts
              else
                .posting posts })
        monitor
  | .finalizing _, .scan => do
      let monitor ← world.monitor.scan
      return { world with
        monitor := monitor
        history :=
          evictedKeys world.monitor.cache monitor.cache ++
            world.history }
  | .finalizing posts, .finish => do
      let monitor ← world.monitor.finish
      return { world.update stream
          (.leader { leader with call := .posting posts }) monitor with
        history :=
          .ended stream leader.key
              (monitor.cache.cacheMap leader.key).isSome ::
            world.history }
  | .posting (closure :: rest), .post =>
      .ok { world.update stream
          (.leader { leader with call := .posting rest })
          world.monitor with
        queues := post world.queues closure }
  | .posting [], .return_ =>
      .ok (world.update stream
        (.leader { leader with call := .idle }) world.monitor)
  | _, _ => .error .blocked

/-- The steps of a follower that ends prematurely: it sets the flag of its
waiter and then removes the waiter. -/
def followerStep
    (world : World) (follower : Follower) :
    Move → Except Stop World
  | .cancel =>
      .ok { world with
        cancelled :=
          Function.update world.cancelled follower.waiter.addr true }
  | .removeWaiter =>
      if world.cancelled follower.waiter.addr then do
        let monitor ←
          world.monitor.removeWaiter follower.key follower.waiter.addr
        return { world with monitor := monitor }
      else
        .error .blocked
  | _ => .error .blocked

/-- A dispatcher runs the closure at the head of its queue. -/
def runNext (world : World) (dispatcher : DispatcherId) :
    Except Stop World :=
  match world.queues dispatcher with
  | [] => .error .blocked
  | closure :: rest =>
      let popped :=
        { world with
          queues := Function.update world.queues dispatcher rest }
      if world.cancelled closure.waiter.addr then
        .ok popped
      else
        let stream := closure.waiter.callbacks.stream
        .ok { popped with
          delivered :=
            Function.update world.delivered stream
              (world.delivered stream ++ closure.calls) }

def step (world : World) : Action → Except Stop World
  | .run dispatcher => world.runNext dispatcher
  | .move stream move =>
      match world.clients[stream]? with
      | none => .error .blocked
      | some (.start dispatcher) =>
          match move with
          | .lookup key => world.lookup stream dispatcher key
          | _ => .error .blocked
      | some (.hit hit) => world.hitStep stream hit hit.stage move
      | some (.leader leader) =>
          world.leaderStep stream leader leader.call move
      | some (.follower follower) => world.followerStep follower move

end World

end RingCache

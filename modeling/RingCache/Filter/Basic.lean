import RingCache.Streams.Basic

/-!
# `RingCacheFilter` and its host

The functions of `filter.cc` are pure functions of the filter's members: they
return the status, the new members and what they ask of the cache.  Around
them stands the host, which owns one filter for each stream, makes the
callbacks on it and runs the dispatchers.

The host is modelled by what it may do.  It makes `decodeHeaders` once and
before any response, then `decodeData` and `decodeTrailers` while the request
lasts.  A response that comes from upstream needs a request that was passed on;
a locally generated one may pass through any filter.  Through the filter of a
leader the host encodes one response: headers first and once, then data, then
possibly trailers, and nothing after the part that ends it.  No such order is
assumed of what passes through other filters, which includes the events the
cache sends to their streams.  No callback on a stream is made after
`onDestroy`, and callbacks on one stream do not overlap, but for one: when a
closure calls into the host, the host may destroy the stream before that call
returns.  Inside the last call of a closure this is a teardown right after the
closure; inside the first of two calls the second is still made.  A teardown
inside the calls of `serveHit` is one after them, since `onDestroy` does
nothing for a filter that is not a follower.
-/

namespace RingCache

/-! ## The filter -/

inductive Role where
  | unset
  | cached
  | leader
  | follower
  deriving DecidableEq, Repr

/-- The statuses the filter returns from its callbacks. -/
inductive FilterStatus where
  | continue_
  | stopIteration
  deriving DecidableEq, Repr

/-- `ResultType` with the waiter of a follower. -/
inductive ResultType where
  | hit
  | leader
  | follower (waiter : Waiter)
  deriving DecidableEq, Repr

/-- The members of a filter that change. -/
structure RingCacheFilter where
  key : Key := []
  done : Bool := false
  role : Role := .unset
  waiter : Option Waiter := none
  deriving DecidableEq, Repr

namespace RingCacheFilter

/-- The bytes of `///`. -/
def separator : Bytes := [47, 47, 47]

/-- `buildKey`, which appends to `key_`. -/
def buildKey (filter : RingCacheFilter) (host path : Bytes) :
    Bool × RingCacheFilter :=
  if host.isEmpty || path.isEmpty then
    (false, filter)
  else
    (true,
      { filter with key := filter.key ++ host ++ separator ++ path })

/-- The switch of `decodeHeaders` over the result of the lookup. -/
def resolve (filter : RingCacheFilter) :
    ResultType → FilterStatus × RingCacheFilter
  | .hit =>
      (.stopIteration, { filter with role := .cached, done := true })
  | .leader => (.continue_, { filter with role := .leader })
  | .follower waiter =>
      (.stopIteration,
        { filter with role := .follower, waiter := some waiter })

/-- The calls that `decodeHeaders` makes on the decoder callbacks when the
lookup hits. -/
def serveHit (headers : ResponseHeaderMap) (body : Bytes) : List Event :=
  let hasBody := decide (0 < body.length)
  .encodeHeaders headers (!hasBody) .hit ::
    if hasBody then [.encodeData body true] else []

def decodeData (_ : RingCacheFilter) : FilterStatus :=
  .continue_

def decodeTrailers (_ : RingCacheFilter) : FilterStatus :=
  .continue_

/-- What `encodeHeaders` and `encodeData` do before they publish. -/
def markDone (filter : RingCacheFilter) (endStream : Bool) :
    RingCacheFilter :=
  if endStream then { filter with done := true } else filter

/-- A part that a leader publishes and other filters pass on. -/
def encodePart
    (filter : RingCacheFilter) (call : Publish) (endStream : Bool) :
    FilterStatus × RingCacheFilter × Option Publish :=
  let marked := filter.markDone endStream
  if marked.role ≠ .leader then
    (.continue_, marked, none)
  else
    (.continue_, marked, some call)

def encodeHeaders
    (filter : RingCacheFilter) (headers : ResponseHeaderMap)
    (endStream : Bool) :
    FilterStatus × RingCacheFilter × Option Publish :=
  filter.encodePart (.headers headers endStream) endStream

def encodeData
    (filter : RingCacheFilter) (data : Bytes) (endStream : Bool) :
    FilterStatus × RingCacheFilter × Option Publish :=
  filter.encodePart (.data data endStream) endStream

/-- `encodeTrailers` neither marks the filter done nor publishes. -/
def encodeTrailers (filter : RingCacheFilter) :
    FilterStatus × RingCacheFilter × Option Publish :=
  (.continue_, filter, none)

/-- Whether `onDestroy` cancels and removes the waiter.  A leader is not
cancelled. -/
def onDestroy (filter : RingCacheFilter) : Bool :=
  filter.role == .follower && !filter.done

end RingCacheFilter

/-! ## The host -/

/-- A request before, inside and after `decodeHeaders`, which is left inside
only when it serves a hit, and after its end. -/
inductive RequestStage where
  | awaiting
  | deciding (endStream : Bool)
  | receiving
  | received
  deriving DecidableEq, Repr

/-- The request after a callback with this `end_stream`. -/
def RequestStage.after (endStream : Bool) : RequestStage :=
  if endStream then .received else .receiving

/-- How much of a response has passed through a filter. -/
inductive ResponseStage where
  | notStarted
  | started
  | complete (trailers : Bool)
  deriving DecidableEq, Repr

/-- The parts of a response. -/
inductive ResponsePart where
  | headers (headers : ResponseHeaderMap) (endStream : Bool)
  | data (data : Bytes) (endStream : Bool)
  | trailers
  deriving DecidableEq, Repr

def ResponsePart.endStream : ResponsePart → Bool
  | .headers _ ends => ends
  | .data _ ends => ends
  | .trailers => false

/-- The order of the parts of a response. -/
def ResponseStage.next : ResponseStage → ResponsePart → Option ResponseStage
  | .notStarted, .headers _ ends =>
      some (if ends then .complete false else .started)
  | .started, .data _ ends =>
      some (if ends then .complete false else .started)
  | .started, .trailers => some (.complete true)
  | _, _ => none

/-- The callback of a part on the filter. -/
def RingCacheFilter.encode (filter : RingCacheFilter) :
    ResponsePart → FilterStatus × RingCacheFilter × Option Publish
  | .headers headers endStream => filter.encodeHeaders headers endStream
  | .data data endStream => filter.encodeData data endStream
  | .trailers => filter.encodeTrailers

/-- A stream of the host: its request, its filter, and how far its callbacks
are.  `forwarded` says that the request has been passed on to the next decoder
filter, `removing` that `onDestroy` is about to call `removeWaiter`, and `sent`
records the calls of `serveHit`. -/
structure Stream where
  host : Bytes
  path : Bytes
  filter : RingCacheFilter := {}
  request : RequestStage := .awaiting
  response : ResponseStage := .notStarted
  forwarded : Bool := false
  destroyed : Bool := false
  removing : Bool := false
  sent : List Event := []
  deriving DecidableEq, Repr

/-- The decoder chain past the filter after a callback has returned a
status. -/
def Stream.resume (stream : Stream) : FilterStatus → Stream
  | .continue_ => { stream with forwarded := true }
  | .stopIteration => stream

/-- A request that reaches the host. -/
structure Request where
  dispatcher : DispatcherId
  host : Bytes
  path : Bytes
  deriving DecidableEq, Repr

/-- The filters, their host and the shared cache.  `late` records the events
executed on the callbacks of a stream after its `onDestroy`. -/
structure System where
  world : World
  streams : List Stream
  late : StreamId → List Event := fun _ => []

namespace System

/-- A new cache and one stream for each request. -/
def create
    (capacity : UInt64) (slotCount : Nat) (requests : List Request) :
    System where
  world := World.create capacity slotCount (requests.map Request.dispatcher)
  streams :=
    requests.map fun request =>
      { host := request.host, path := request.path }

/-- The callbacks on the filter of one stream, and the steps of a callback
that has begun. -/
inductive Callback where
  | decodeHeaders (endStream : Bool)
  | serve
  | decodeData (endStream : Bool)
  | decodeTrailers
  | encode (upstream : Bool) (part : ResponsePart)
  | onDestroy
  | proceed (move : World.Move)
  deriving DecidableEq, Repr

/-- A callback on a stream, the run of a closure, or such a run in whose first
call the host destroys the stream. -/
inductive Action where
  | callback (stream : StreamId) (callback : Callback)
  | run (dispatcher : DispatcherId)
  | runDestroying (dispatcher : DispatcherId)
  deriving DecidableEq, Repr

/-- A leader is inside a publish. -/
def busy (system : System) (id : StreamId) : Bool :=
  match system.world.clients[id]? with
  | some (.leader leader) => leader.call != .idle
  | _ => false

/-- The host may make a callback on this stream. -/
def callable (system : System) (id : StreamId) (stream : Stream) : Bool :=
  !stream.destroyed && !system.busy id &&
    match stream.request with
    | .deciding _ => false
    | _ => true

/-- Replace a stream and the cache with its clients. -/
def update
    (system : System) (id : StreamId) (stream : Stream) (world : World) :
    System :=
  { system with world := world, streams := system.streams.set id stream }

/-- What the lookup of a stream returned. -/
def resultType (world : World) (id : StreamId) : Option ResultType :=
  match world.clients[id]? with
  | some (.hit _) => some .hit
  | some (.leader _) => some .leader
  | some (.follower follower) => some (.follower follower.waiter)
  | _ => none

/-- `decodeHeaders` up to its return, or up to the end of the locked part of a
lookup that hits. -/
def decodeHeaders
    (system : System) (id : StreamId) (stream : Stream)
    (endStream : Bool) : Except Stop System :=
  if stream.request = .awaiting ∧ stream.response = .notStarted then
    let built := stream.filter.buildKey stream.host stream.path
    let decoded := { stream with
      filter := built.2
      request := RequestStage.after endStream }
    if built.1 then do
      let world ← system.world.step (.move id (.lookup built.2.key))
      match resultType world id with
      | none => .error .blocked
      | some .hit =>
          return system.update id
            { decoded with request := .deciding endStream } world
      | some result =>
          let resolved := built.2.resolve result
          return system.update id
            ({ decoded with filter := resolved.2 }.resume resolved.1)
            world
    else
      .ok (system.update id (decoded.resume .continue_) system.world)
  else
    .error .blocked

/-- The body that the fragment of a served hit refers to. -/
def hitBody (world : World) (hit : HitLookup) :
    Bool → Except Stop Bytes
  | false => .ok []
  | true =>
      match world.monitor.cache.entryAt hit.entry with
      | none => .error (.fault .danglingEntry)
      | some entry => .ok (entry.body.take hit.bodyLength)

/-- The rest of `decodeHeaders` once a lookup has returned a hit. -/
def serve (system : System) (id : StreamId) (stream : Stream) :
    Except Stop System :=
  match stream.request, system.world.clients[id]? with
  | .deciding endStream, some (.hit hit) =>
      match hit.stage with
      | .served headers fragment => do
          let body ← hitBody system.world hit fragment
          let resolved := stream.filter.resolve .hit
          return system.update id
            ({ stream with
                filter := resolved.2
                request := RequestStage.after endStream
                response := .complete false
                sent :=
                  RingCacheFilter.serveHit headers body }.resume
              resolved.1)
            system.world
      | _ => .error .blocked
  | _, _ => .error .blocked

/-- A part of a response passes through the filter. -/
def encode
    (system : System) (id : StreamId) (stream : Stream)
    (upstream : Bool) (part : ResponsePart) : Except Stop System :=
  if upstream ∧ stream.forwarded = false then
    .error .blocked
  else if stream.filter.role = .leader ∧
      stream.response.next part = none then
    .error .blocked
  else
    let encoded := stream.filter.encode part
    let passed := { stream with
      filter := encoded.2.1
      response := (stream.response.next part).getD .started }
    match encoded.2.2 with
    | none => .ok (system.update id passed system.world)
    | some call => do
        let world ← system.world.step (.move id (.publish call))
        return system.update id passed world

/-- `onDestroy` up to its call of `removeWaiter`. -/
def onDestroy (system : System) (id : StreamId) (stream : Stream) :
    Except Stop System :=
  if stream.filter.onDestroy then do
    let world ← system.world.step (.move id .cancel)
    return system.update id
      { stream with destroyed := true, removing := true } world
  else
    .ok (system.update id { stream with destroyed := true } system.world)

/-- The steps of a call that has begun, and the release of a fragment once the
hit has been served. -/
def proceeds (stream : Stream) : World.Move → Bool
  | .copyHeaders | .handOut =>
      match stream.request with
      | .deciding _ => true
      | _ => false
  | .release =>
      match stream.request with
      | .deciding _ => false
      | _ => true
  | .scan | .finish | .post | .return_ => true
  | .removeWaiter => stream.removing
  | _ => false

def proceed
    (system : System) (id : StreamId) (stream : Stream)
    (move : World.Move) : Except Stop System :=
  if proceeds stream move then do
    let world ← system.world.step (.move id move)
    return system.update id
      { stream with
        removing := stream.removing && move != .removeWaiter }
      world
  else
    .error .blocked

def callback
    (system : System) (id : StreamId) (stream : Stream) :
    Callback → Except Stop System
  | .proceed move => system.proceed id stream move
  | .serve => system.serve id stream
  | .decodeHeaders endStream =>
      if system.callable id stream then
        system.decodeHeaders id stream endStream
      else
        .error .blocked
  | .decodeData endStream =>
      if system.callable id stream ∧ stream.request = .receiving then
        .ok (system.update id
          ({ stream with request := RequestStage.after endStream }.resume
            stream.filter.decodeData)
          system.world)
      else
        .error .blocked
  | .decodeTrailers =>
      if system.callable id stream ∧ stream.request = .receiving then
        .ok (system.update id
          ({ stream with request := .received }.resume
            stream.filter.decodeTrailers)
          system.world)
      else
        .error .blocked
  | .encode upstream part =>
      if system.callable id stream then
        system.encode id stream upstream part
      else
        .error .blocked
  | .onDestroy =>
      if system.callable id stream then
        system.onDestroy id stream
      else
        .error .blocked

def destroyed (system : System) (id : StreamId) : Bool :=
  match system.streams[id]? with
  | some stream => stream.destroyed
  | none => false

/-- A dispatcher runs its next closure. -/
def runNext (system : System) (dispatcher : DispatcherId) :
    Except Stop System := do
  let world ← system.world.step (.run dispatcher)
  return { system with
    world := world
    late := fun id =>
      if system.destroyed id then
        system.late id ++
          (world.delivered id).drop (system.world.delivered id).length
      else
        system.late id }

/-- Events are executed on the callbacks of a stream after its
`onDestroy`. -/
def receiveLate (system : System) (id : StreamId) (events : List Event) :
    System :=
  { system with
    late := Function.update system.late id (system.late id ++ events) }

/-- A dispatcher runs its next closure, and the host destroys the stream inside
the first call that the closure makes.  The closure has tested `cancelled`
before that call, so it makes the others too. -/
def runDestroying (system : System) (dispatcher : DispatcherId) :
    Except Stop System :=
  match system.world.queues dispatcher with
  | [] => .error .blocked
  | closure :: _ =>
      if system.world.cancelled closure.waiter.addr then
        .error .blocked
      else do
        let ran ← system.runNext dispatcher
        match ran.streams[closure.waiter.callbacks.stream]? with
        | none => .error .blocked
        | some stream => do
            let gone ←
              ran.callback closure.waiter.callbacks.stream stream .onDestroy
            return gone.receiveLate closure.waiter.callbacks.stream
              closure.calls.tail

def step (system : System) : Action → Except Stop System
  | .run dispatcher => system.runNext dispatcher
  | .runDestroying dispatcher => system.runDestroying dispatcher
  | .callback id callback =>
      match system.streams[id]? with
      | none => .error .blocked
      | some stream => system.callback id stream callback

end System

end RingCache

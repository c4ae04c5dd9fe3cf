import RingCache.Filter.Matching

/-!
# Filter configurations of a server

A server accepts filter configurations at any time and makes one filter for
each stream, of any configuration it has accepted.  Each configuration holds
the cache that the singleton manager has given it.  The manager and the check
generated from `cache.proto` are parameters, of which only what is documented
is assumed; from that it follows that all configurations share one cache, which
the first accepted one sizes.  A run of a server is then a run of the system
that has all its streams from the start, so what is proved of systems holds of
servers.
-/

namespace RingCache

open Transition RingBufferCache

/-! ## Streams that arrive during a run -/

namespace World

variable {world next : World}

/-- One more stream that has not looked up yet. -/
def arrive (world : World) (dispatcher : DispatcherId) : World :=
  { world with clients := world.clients ++ [.start dispatcher] }

variable {joining : DispatcherId}

theorem get_arrive
    {stream : StreamId} {client : Client}
    (found : world.clients[stream]? = some client) :
    (world.arrive joining).clients[stream]? = some client := by
  obtain ⟨bound, _⟩ := List.getElem?_eq_some_iff.mp found
  exact (List.getElem?_append_left bound).trans found

/-- Streams that step do not see one that has just arrived. -/
theorem update_arrive
    {stream : StreamId} {old : Client}
    (found : world.clients[stream]? = some old)
    (client : Client) (monitor : Monitor) :
    (world.arrive joining).update stream client monitor =
      (world.update stream client monitor).arrive joining := by
  obtain ⟨bound, _⟩ := List.getElem?_eq_some_iff.mp found
  unfold update arrive
  rw [List.set_append_left stream client bound]

theorem lookup_arrive
    {stream : StreamId} {dispatcher : DispatcherId} {key : Key}
    (client : world.clients[stream]? = some (.start dispatcher))
    (looked : world.lookup stream dispatcher key = .ok next) :
    (world.arrive joining).lookup stream dispatcher key =
      .ok (next.arrive joining) := by
  obtain ⟨⟨result, monitor⟩, found, returned⟩ :=
    bind_eq_ok_iff.mp looked
  refine bind_eq_ok_iff.mpr ⟨⟨result, monitor⟩, found, ?_⟩
  cases result with
  | hit entry bodyLength =>
      cases returned
      exact congrArg Except.ok (update_arrive client _ _)
  | leader =>
      cases returned
      simp only [update_arrive client]
      rfl
  | follower waiter posts =>
      cases returned
      simp only [update_arrive client]
      rfl

theorem hitStep_arrive
    {stream : StreamId} {hit : HitLookup} {move : Move}
    (client : world.clients[stream]? = some (.hit hit))
    (stepped : world.hitStep stream hit hit.stage move = .ok next) :
    (world.arrive joining).hitStep stream hit hit.stage move =
      .ok (next.arrive joining) := by
  cases stage : hit.stage with
  | pinned =>
      rw [stage] at stepped
      cases move <;> try (simp [hitStep] at stepped; done)
      rw [hitStep] at stepped ⊢
      cases read : world.monitor.cache.entryAt hit.entry with
      | none =>
          simp [read] at stepped
      | some entry =>
          simp only [read] at stepped
          cases stepped
          simp only [arrive, read]
          exact congrArg Except.ok (update_arrive client _ _)
  | copied headers =>
      rw [stage] at stepped
      cases move <;> try (simp [hitStep] at stepped; done)
      rw [hitStep] at stepped ⊢
      by_cases empty : hit.bodyLength = 0
      · rw [if_pos empty] at stepped ⊢
        obtain ⟨monitor, unpinned, returned⟩ :=
          bind_eq_ok_iff.mp stepped
        refine bind_eq_ok_iff.mpr ⟨monitor, unpinned, ?_⟩
        cases returned
        exact congrArg Except.ok (update_arrive client _ _)
      · rw [if_neg empty] at stepped ⊢
        cases stepped
        exact congrArg Except.ok (update_arrive client _ _)
  | served headers fragment =>
      rw [stage] at stepped
      cases fragment with
      | false =>
          cases move <;> simp [hitStep] at stepped
      | true =>
          cases move <;> try (simp [hitStep] at stepped; done)
          rw [hitStep] at stepped ⊢
          obtain ⟨monitor, unpinned, returned⟩ :=
            bind_eq_ok_iff.mp stepped
          refine bind_eq_ok_iff.mpr ⟨monitor, unpinned, ?_⟩
          cases returned
          exact congrArg Except.ok (update_arrive client _ _)

theorem leaderStep_arrive
    {stream : StreamId} {leader : Leader} {move : Move}
    (client : world.clients[stream]? = some (.leader leader))
    (stepped :
      world.leaderStep stream leader leader.call move = .ok next) :
    (world.arrive joining).leaderStep stream leader leader.call move =
      .ok (next.arrive joining) := by
  cases call : leader.call with
  | idle =>
      rw [call] at stepped
      cases move <;> try (simp [leaderStep] at stepped; done)
      rw [leaderStep] at stepped ⊢
      obtain ⟨⟨posts, monitor⟩, published, returned⟩ :=
        bind_eq_ok_iff.mp stepped
      refine bind_eq_ok_iff.mpr ⟨⟨posts, monitor⟩, published, ?_⟩
      cases returned
      exact congrArg Except.ok (update_arrive client _ _)
  | finalizing posts =>
      rw [call] at stepped
      cases move <;> try (simp [leaderStep] at stepped; done)
      case scan =>
        rw [leaderStep] at stepped ⊢
        obtain ⟨monitor, scanned, returned⟩ :=
          bind_eq_ok_iff.mp stepped
        refine bind_eq_ok_iff.mpr ⟨monitor, scanned, ?_⟩
        cases returned
        rfl
      case finish =>
        rw [leaderStep] at stepped ⊢
        obtain ⟨monitor, finished, returned⟩ :=
          bind_eq_ok_iff.mp stepped
        refine bind_eq_ok_iff.mpr ⟨monitor, finished, ?_⟩
        cases returned
        simp only [update_arrive client]
        rfl
  | posting posts =>
      rw [call] at stepped
      cases posts with
      | nil =>
          cases move <;> try (simp [leaderStep] at stepped; done)
          rw [leaderStep] at stepped ⊢
          cases stepped
          exact congrArg Except.ok (update_arrive client _ _)
      | cons closure rest =>
          cases move <;> try (simp [leaderStep] at stepped; done)
          rw [leaderStep] at stepped ⊢
          cases stepped
          simp only [update_arrive client]
          rfl

theorem followerStep_arrive
    {follower : Follower} {move : Move}
    (stepped : world.followerStep follower move = .ok next) :
    (world.arrive joining).followerStep follower move =
      .ok (next.arrive joining) := by
  cases move <;> try (simp [followerStep] at stepped; done)
  case cancel =>
    cases stepped
    rfl
  case removeWaiter =>
    rw [followerStep] at stepped ⊢
    by_cases cancelled :
        world.cancelled follower.waiter.addr = true
    · rw [if_pos cancelled] at stepped
      refine (if_pos cancelled).trans ?_
      obtain ⟨monitor, removed, returned⟩ := bind_eq_ok_iff.mp stepped
      refine bind_eq_ok_iff.mpr ⟨monitor, removed, ?_⟩
      cases returned
      rfl
    · rw [if_neg cancelled] at stepped
      simp at stepped

theorem runNext_arrive
    {dispatcher : DispatcherId}
    (ran : world.runNext dispatcher = .ok next) :
    (world.arrive joining).runNext dispatcher =
      .ok (next.arrive joining) := by
  unfold runNext at ran ⊢
  cases queued : world.queues dispatcher with
  | nil =>
      simp [queued] at ran
  | cons closure rest =>
      simp only [queued] at ran
      simp only [arrive, queued]
      by_cases cancelled :
          world.cancelled closure.waiter.addr = true
      · rw [if_pos cancelled] at ran
        cases ran
        exact if_pos cancelled
      · rw [if_neg cancelled] at ran
        cases ran
        exact if_neg cancelled

/-- A step stays the same step when one more stream is there. -/
theorem step_arrive
    {action : Action} (stepped : world.step action = .ok next) :
    (world.arrive joining).step action = .ok (next.arrive joining) := by
  cases action with
  | run dispatcher =>
      exact runNext_arrive stepped
  | move stream move =>
      unfold step at stepped ⊢
      cases client : world.clients[stream]? with
      | none =>
          simp [client] at stepped
      | some old =>
          simp only [client] at stepped
          simp only [get_arrive client]
          cases old with
          | start dispatcher =>
              cases move <;> try (simp at stepped; done)
              exact lookup_arrive client stepped
          | hit hit =>
              exact hitStep_arrive client stepped
          | leader leader =>
              exact leaderStep_arrive client stepped
          | follower follower =>
              exact followerStep_arrive stepped

theorem get_arrive_none
    {stream : StreamId} (joining : DispatcherId)
    (missing : world.clients[stream]? = none) :
    (world.arrive joining).clients[stream]? = none ∨
      (world.arrive joining).clients[stream]? =
        some (.start joining) := by
  have bound := List.getElem?_eq_none_iff.mp missing
  have read :
      (world.arrive joining).clients[stream]? =
        [Client.start joining][stream - world.clients.length]? :=
    List.getElem?_append_right bound
  rw [read]
  cases stream - world.clients.length with
  | zero =>
      exact Or.inr rfl
  | succ _ =>
      exact Or.inl rfl

end World

namespace System

variable {system next : System}

/-- The filter of one more stream. -/
def arrive (system : System) (request : Request) : System :=
  { system with
    world := system.world.arrive request.dispatcher
    streams :=
      system.streams ++
        [{ host := request.host, path := request.path }] }

variable {request : Request}

theorem get_arrive
    {id : StreamId} {stream : Stream}
    (found : system.streams[id]? = some stream) :
    (system.arrive request).streams[id]? = some stream := by
  obtain ⟨bound, _⟩ := List.getElem?_eq_some_iff.mp found
  exact (List.getElem?_append_left bound).trans found

theorem update_arrive
    {id : StreamId} {old : Stream}
    (found : system.streams[id]? = some old)
    (stream : Stream) (world : World) :
    (system.arrive request).update id stream
        (world.arrive request.dispatcher) =
      (system.update id stream world).arrive request := by
  obtain ⟨bound, _⟩ := List.getElem?_eq_some_iff.mp found
  unfold update arrive
  rw [List.set_append_left id stream bound]

theorem busy_arrive (id : StreamId) :
    (system.arrive request).busy id = system.busy id := by
  unfold busy
  cases client : system.world.clients[id]? with
  | none =>
      rcases World.get_arrive_none request.dispatcher client with
        still | started
      · simp only [arrive, still]
      · simp only [arrive, started]
  | some old =>
      simp only [arrive, World.get_arrive client]

theorem callable_arrive (id : StreamId) (stream : Stream) :
    (system.arrive request).callable id stream =
      system.callable id stream := by
  unfold callable
  rw [busy_arrive]

theorem resultType_arrive
    {world : World} {joining : DispatcherId} {id : StreamId}
    {result : ResultType}
    (returned : resultType world id = some result) :
    resultType (world.arrive joining) id = some result := by
  unfold resultType at returned ⊢
  cases client : world.clients[id]? with
  | none =>
      simp [client] at returned
  | some old =>
      rw [World.get_arrive client]
      rw [client] at returned
      exact returned

theorem destroyed_arrive (id : StreamId) :
    (system.arrive request).destroyed id = system.destroyed id := by
  unfold destroyed
  cases found : system.streams[id]? with
  | none =>
      have bound := List.getElem?_eq_none_iff.mp found
      have read :
          (system.arrive request).streams[id]? =
            [({ host := request.host, path := request.path } :
              Stream)][id - system.streams.length]? :=
        List.getElem?_append_right bound
      rw [read]
      cases id - system.streams.length with
      | zero =>
          rfl
      | succ _ =>
          rfl
  | some stream =>
      rw [get_arrive found]

theorem decodeHeaders_arrive
    {id : StreamId} {stream : Stream} {endStream : Bool}
    (found : system.streams[id]? = some stream)
    (decoded : system.decodeHeaders id stream endStream = .ok next) :
    (system.arrive request).decodeHeaders id stream endStream =
      .ok (next.arrive request) := by
  unfold decodeHeaders at decoded ⊢
  by_cases first :
      stream.request = .awaiting ∧ stream.response = .notStarted
  · rw [if_pos first] at decoded ⊢
    cases built : (stream.filter.buildKey stream.host stream.path).1 with
    | false =>
        simp only [built, Bool.false_eq_true, if_false] at decoded ⊢
        cases decoded
        exact congrArg Except.ok (update_arrive found _ _)
    | true =>
        simp only [built, if_true] at decoded ⊢
        obtain ⟨world, looked, returned⟩ := bind_eq_ok_iff.mp decoded
        refine
          bind_eq_ok_iff.mpr
            ⟨world.arrive request.dispatcher,
              World.step_arrive looked, ?_⟩
        cases type : resultType world id with
        | none =>
            simp [type] at returned
        | some result =>
            simp only [type] at returned
            simp only [resultType_arrive type]
            cases result <;>
              (cases returned
               exact congrArg Except.ok (update_arrive found _ _))
  · rw [if_neg first] at decoded
    simp at decoded

theorem serve_arrive
    {id : StreamId} {stream : Stream}
    (found : system.streams[id]? = some stream)
    (served : system.serve id stream = .ok next) :
    (system.arrive request).serve id stream =
      .ok (next.arrive request) := by
  unfold serve at served ⊢
  split at served
  · next endStream hit deciding client =>
      have laterClient :
          (system.arrive request).world.clients[id]? =
            some (.hit hit) :=
        World.get_arrive client
      simp only [deciding, laterClient]
      split at served
      · next headers fragment stage =>
          obtain ⟨body, read, returned⟩ := bind_eq_ok_iff.mp served
          refine bind_eq_ok_iff.mpr ⟨body, read, ?_⟩
          cases returned
          exact congrArg Except.ok (update_arrive found _ _)
      · simp at served
  · simp at served

theorem encode_arrive
    {id : StreamId} {stream : Stream} {upstream : Bool}
    {part : ResponsePart}
    (found : system.streams[id]? = some stream)
    (encoded : system.encode id stream upstream part = .ok next) :
    (system.arrive request).encode id stream upstream part =
      .ok (next.arrive request) := by
  unfold encode at encoded ⊢
  split at encoded
  · simp at encoded
  · next passes =>
      rw [if_neg passes]
      split at encoded
      · simp at encoded
      · next ordered =>
          rw [if_neg ordered]
          cases call : (stream.filter.encode part).2.2 with
          | none =>
              simp only [call] at encoded ⊢
              cases encoded
              exact congrArg Except.ok (update_arrive found _ _)
          | some publish =>
              simp only [call] at encoded ⊢
              obtain ⟨world, published, returned⟩ :=
                bind_eq_ok_iff.mp encoded
              refine
                bind_eq_ok_iff.mpr
                  ⟨world.arrive request.dispatcher,
                    World.step_arrive published, ?_⟩
              cases returned
              exact congrArg Except.ok (update_arrive found _ _)

theorem onDestroy_arrive
    {id : StreamId} {stream : Stream}
    (found : system.streams[id]? = some stream)
    (destroyed : system.onDestroy id stream = .ok next) :
    (system.arrive request).onDestroy id stream =
      .ok (next.arrive request) := by
  unfold onDestroy at destroyed ⊢
  by_cases cancels : stream.filter.onDestroy = true
  · rw [if_pos cancels] at destroyed ⊢
    obtain ⟨world, cancelled, returned⟩ :=
      bind_eq_ok_iff.mp destroyed
    refine
      bind_eq_ok_iff.mpr
        ⟨world.arrive request.dispatcher, World.step_arrive cancelled,
          ?_⟩
    cases returned
    exact congrArg Except.ok (update_arrive found _ _)
  · rw [if_neg cancels] at destroyed ⊢
    cases destroyed
    exact congrArg Except.ok (update_arrive found _ _)

theorem proceed_arrive
    {id : StreamId} {stream : Stream} {move : World.Move}
    (found : system.streams[id]? = some stream)
    (proceeded : system.proceed id stream move = .ok next) :
    (system.arrive request).proceed id stream move =
      .ok (next.arrive request) := by
  unfold proceed at proceeded ⊢
  by_cases goes : proceeds stream move = true
  · rw [if_pos goes] at proceeded ⊢
    obtain ⟨world, moved, returned⟩ := bind_eq_ok_iff.mp proceeded
    refine
      bind_eq_ok_iff.mpr
        ⟨world.arrive request.dispatcher, World.step_arrive moved, ?_⟩
    cases returned
    exact congrArg Except.ok (update_arrive found _ _)
  · rw [if_neg goes] at proceeded
    simp at proceeded

theorem callback_arrive
    {id : StreamId} {stream : Stream} {callback : Callback}
    (found : system.streams[id]? = some stream)
    (called : system.callback id stream callback = .ok next) :
    (system.arrive request).callback id stream callback =
      .ok (next.arrive request) := by
  cases callback with
  | proceed move =>
      exact proceed_arrive found called
  | serve =>
      exact serve_arrive found called
  | decodeHeaders endStream =>
      simp only [System.callback, callable_arrive] at called ⊢
      split at called
      · next callable =>
          rw [if_pos callable]
          exact decodeHeaders_arrive found called
      · simp at called
  | decodeData endStream =>
      simp only [System.callback, callable_arrive] at called ⊢
      split at called
      · next callable =>
          rw [if_pos callable]
          cases called
          exact congrArg Except.ok (update_arrive found _ _)
      · simp at called
  | decodeTrailers =>
      simp only [System.callback, callable_arrive] at called ⊢
      split at called
      · next callable =>
          rw [if_pos callable]
          cases called
          exact congrArg Except.ok (update_arrive found _ _)
      · simp at called
  | encode upstream part =>
      simp only [System.callback, callable_arrive] at called ⊢
      split at called
      · next callable =>
          rw [if_pos callable]
          exact encode_arrive found called
      · simp at called
  | onDestroy =>
      simp only [System.callback, callable_arrive] at called ⊢
      split at called
      · next callable =>
          rw [if_pos callable]
          exact onDestroy_arrive found called
      · simp at called

theorem step_run_arrive
    {dispatcher : DispatcherId}
    (stepped : system.step (.run dispatcher) = .ok next) :
    (system.arrive request).step (.run dispatcher) =
      .ok (next.arrive request) := by
  obtain ⟨world, ran, returned⟩ := bind_eq_ok_iff.mp stepped
  refine
    bind_eq_ok_iff.mpr
      ⟨world.arrive request.dispatcher, World.step_arrive ran, ?_⟩
  cases returned
  simp only [destroyed_arrive]
  rfl

theorem step_callback_arrive
    {id : StreamId} {callback : Callback}
    (stepped : system.step (.callback id callback) = .ok next) :
    (system.arrive request).step (.callback id callback) =
      .ok (next.arrive request) := by
  unfold step at stepped ⊢
  cases found : system.streams[id]? with
  | none =>
      simp [found] at stepped
  | some stream =>
      simp only [found] at stepped
      simp only [get_arrive found]
      exact callback_arrive found stepped

/-- A step stays the same step when the filter of one more stream is there. -/
theorem step_arrive
    {action : Action} (stepped : system.step action = .ok next) :
    (system.arrive request).step action = .ok (next.arrive request) := by
  cases action with
  | run dispatcher =>
      exact step_run_arrive stepped
  | callback id callback =>
      exact step_callback_arrive stepped
  | runDestroying dispatcher =>
      rcases step_cases stepped with effect | nested
      · cases effect
      · cases nested with
        | @intro _ closure rest middle gone queued live ran destroyed =>
            have moved : Nested (system.arrive request) _ _ :=
              Nested.intro queued live (step_run_arrive ran)
                (step_callback_arrive destroyed)
            exact moved.step_eq

theorem create_arrive
    (capacity : UInt64) (slotCount : Nat) (requests : List Request) :
    (create capacity slotCount requests).arrive request =
      create capacity slotCount (requests ++ [request]) := by
  simp [create, arrive, World.create, World.arrive]

/-- A run in which a stream arrives is a run in which it was there from the
start. -/
theorem reachable_arrive
    {capacity : UInt64} {slotCount : Nat} {requests : List Request}
    (reachable :
      Reachable step (create capacity slotCount requests)
        (fun _ _ _ => True) system) :
    Reachable step (create capacity slotCount (requests ++ [request]))
      (fun _ _ _ => True) (system.arrive request) := by
  refine
    reachable.project (fun before => before.arrive request)
      (create_arrive capacity slotCount requests) ?_
  intro before action after _ stepped _
  exact Or.inr ⟨action, step_arrive stepped, trivial⟩

end System

/-! ## Configurations -/

/-- The message of `cache.proto`. -/
structure ProtoRingCacheFilterConfig where
  capacity : UInt64 := 0
  slotCount : UInt64 := 0
  deriving DecidableEq, Repr

/-- A pointer to a cache: its position among the caches that were made. -/
abbrev CachePtr := Nat

structure RingCacheFilterConfig where
  capacity : UInt64
  slotCount : UInt64
  cache : CachePtr
  deriving DecidableEq, Repr

/-- What a server provides: what its singleton manager knows of the registered
name, `getTyped` for that name with `pin = true`, and the check generated from
`cache.proto`.  `getTyped` is given the pointer that its callback would
return. -/
structure Host (ρ : Type) where
  registry : ρ
  getTyped : ρ → CachePtr → CachePtr × ρ
  validate : ProtoRingCacheFilterConfig → Bool

variable {ρ : Type}

/-- What is documented of it: a manager that does not know the name yet returns
what the callback makes, a pinned instance is returned by the call that comes
next, and the rules `uint64.gt = 0` are checked. -/
structure Host.Documented (host : Host ρ) : Prop where
  creates : ∀ made, (host.getTyped host.registry made).1 = made
  pins :
    ∀ registry made again,
      (host.getTyped (host.getTyped registry made).2 again).1 =
        (host.getTyped registry made).1
  validates :
    ∀ proto,
      host.validate proto = true →
        0 < proto.capacity ∧ 0 < proto.slotCount

/-- The caches that were made, each with the streams around it, and the
configurations that have been accepted.  `requests` records the streams that
have arrived. -/
structure Server (ρ : Type) where
  registry : ρ
  caches : List System := []
  configs : List RingCacheFilterConfig := []
  requests : List Request := []

namespace Server

/-- The constructor of `RingCacheFilterConfig`.  A new cache is there if the
manager has called the callback and so returns its pointer. -/
def makeConfig
    (host : Host ρ) (server : Server ρ)
    (proto : ProtoRingCacheFilterConfig) : Server ρ :=
  let made := server.caches.length
  let typed := host.getTyped server.registry made
  { server with
    registry := typed.2
    caches :=
      if typed.1 = made then
        server.caches ++
          [System.create proto.capacity proto.slotCount.toNat []]
      else
        server.caches
    configs :=
      server.configs ++
        [{ capacity := proto.capacity
           slotCount := proto.slotCount
           cache := typed.1 }] }

def createFilterFactoryFromProto
    (host : Host ρ) (server : Server ρ)
    (proto : ProtoRingCacheFilterConfig) : Option (Server ρ) :=
  if host.validate proto then
    some (server.makeConfig host proto)
  else
    none

/-- A configuration arrives, a filter factory is called for a new stream, or
the streams around a cache go on. -/
inductive Action where
  | configure (proto : ProtoRingCacheFilterConfig)
  | addStreamFilter (config : Nat) (request : Request)
  | act (cache : CachePtr) (action : System.Action)
  deriving DecidableEq, Repr

def step (host : Host ρ) (server : Server ρ) :
    Action → Except Stop (Server ρ)
  | .configure proto =>
      match server.createFilterFactoryFromProto host proto with
      | none => .ok server
      | some configured => .ok configured
  | .addStreamFilter config request =>
      match server.configs[config]? with
      | none => .error .blocked
      | some shared =>
          match server.caches[shared.cache]? with
          | none => .error .blocked
          | some system =>
              .ok { server with
                caches :=
                  server.caches.set shared.cache (system.arrive request)
                requests := server.requests ++ [request] }
  | .act cache action =>
      match server.caches[cache]? with
      | none => .error .blocked
      | some system => do
          let next ← system.step action
          return { server with caches := server.caches.set cache next }

/-- A server without configurations. -/
def start (host : Host ρ) : Server ρ :=
  { registry := host.registry }

variable {host : Host ρ} {server next later : Server ρ}
variable {first : RingCacheFilterConfig} {system : System}

/-- What a step of a server can do. -/
inductive Effect (host : Host ρ) (server : Server ρ) : Server ρ → Prop
  | rejected : Effect host server server
  | accepted
      {proto : ProtoRingCacheFilterConfig}
      (valid : host.validate proto = true) :
      Effect host server (server.makeConfig host proto)
  | arrived
      {cache : CachePtr} {system : System}
      (present : server.caches[cache]? = some system)
      (request : Request) :
      Effect host server
        { server with
          caches := server.caches.set cache (system.arrive request)
          requests := server.requests ++ [request] }
  | acted
      {cache : CachePtr} {system acted : System}
      {action : System.Action}
      (present : server.caches[cache]? = some system)
      (moved : system.step action = .ok acted) :
      Effect host server
        { server with caches := server.caches.set cache acted }

theorem step_effect
    {action : Action} (stepped : server.step host action = .ok next) :
    Effect host server next := by
  cases action with
  | configure proto =>
      simp only [step, createFilterFactoryFromProto] at stepped
      by_cases valid : host.validate proto = true
      · simp only [valid, if_true] at stepped
        cases stepped
        exact Effect.accepted valid
      · simp only [valid, Bool.false_eq_true, if_false] at stepped
        cases stepped
        exact Effect.rejected
  | addStreamFilter config request =>
      simp only [step] at stepped
      split at stepped
      · simp at stepped
      · split at stepped
        · simp at stepped
        · next system present =>
            cases stepped
            exact Effect.arrived present request
  | act cache action =>
      simp only [step] at stepped
      split at stepped
      · simp at stepped
      · next system present =>
          obtain ⟨acted, moved, returned⟩ := bind_eq_ok_iff.mp stepped
          cases returned
          exact Effect.acted present moved

/-- The one cache, made for the first configuration, to which all
configurations point and which the manager has pinned. -/
structure Shares
    (host : Host ρ) (server : Server ρ) (first : RingCacheFilterConfig)
    (system : System) : Prop where
  caches : server.caches = [system]
  pointers : ∀ config ∈ server.configs, config.cache = 0
  pinned :
    ∃ registry made,
      server.registry = (host.getTyped registry made).2 ∧
        (host.getTyped registry made).1 = 0
  reachable :
    Reachable System.step
      (System.create first.capacity first.slotCount.toNat
        server.requests)
      (fun _ _ _ => True) system

/-- Before the first configuration there is no cache, and from it on there is
one. -/
structure Founded (host : Host ρ) (server : Server ρ) : Prop where
  unconfigured :
    server.configs = [] →
      server.registry = host.registry ∧
        server.caches = [] ∧ server.requests = []
  founded :
    ∀ {first : RingCacheFilterConfig},
      server.configs.head? = some first →
        0 < first.capacity ∧ 0 < first.slotCount ∧
          ∃ system, server.Shares host first system

/-- A configuration that finds the cache pinned points to it. -/
theorem Shares.makeConfig
    (documented : host.Documented)
    (shares : server.Shares host first system)
    (proto : ProtoRingCacheFilterConfig) :
    (server.makeConfig host proto).Shares host first system := by
  obtain ⟨registry, made, sameRegistry, isFirst⟩ := shares.pinned
  have found : (host.getTyped server.registry 1).1 = 0 := by
    rw [sameRegistry, documented.pins, isFirst]
  have length : server.caches.length = 1 := by
    rw [shares.caches]
    rfl
  refine
    { caches := ?_
      pointers := ?_
      pinned := ?_
      reachable := shares.reachable }
  · simp only [Server.makeConfig, length, found]
    exact shares.caches
  · intro config member
    simp only [Server.makeConfig, length, List.mem_append,
      List.mem_singleton] at member
    rcases member with earlier | rfl
    · exact shares.pointers config earlier
    · exact found
  · refine ⟨server.registry, 1, ?_, found⟩
    simp only [Server.makeConfig, length]

theorem Founded.makeConfig
    {proto : ProtoRingCacheFilterConfig}
    (documented : host.Documented) (founded : server.Founded host)
    (valid : host.validate proto = true) :
    (server.makeConfig host proto).Founded host := by
  refine { unconfigured := by simp [Server.makeConfig], founded := ?_ }
  intro first isFirst
  cases configs : server.configs with
  | nil =>
      obtain ⟨registry, noCaches, noRequests⟩ :=
        founded.unconfigured configs
      obtain ⟨capacity, slotCount⟩ := documented.validates proto valid
      have created : (host.getTyped host.registry 0).1 = 0 :=
        documented.creates 0
      simp only [Server.makeConfig, configs, registry, noCaches,
        List.length_nil, created, List.nil_append, List.head?_cons,
        Option.some.injEq] at isFirst
      subst isFirst
      refine
        ⟨capacity, slotCount,
          System.create proto.capacity proto.slotCount.toNat [], ?_⟩
      refine
        { caches := ?_
          pointers := ?_
          pinned := ⟨host.registry, 0, ?_, created⟩
          reachable := ?_ }
      · simp [Server.makeConfig, registry, noCaches, created]
      · simp [Server.makeConfig, configs, registry, noCaches, created]
      · simp [Server.makeConfig, registry, noCaches]
      · simp only [Server.makeConfig, noRequests]
        exact Reachable.start
  | cons config rest =>
      have wasFirst : server.configs.head? = some first := by
        simpa [Server.makeConfig, configs] using isFirst
      obtain ⟨capacity, slotCount, system, shares⟩ :=
        founded.founded wasFirst
      exact
        ⟨capacity, slotCount, system, shares.makeConfig documented proto⟩

/-- There is a cache only where there is a configuration, and it is the one
that all configurations share. -/
theorem Founded.shares
    (founded : server.Founded host)
    {cache : CachePtr} (present : server.caches[cache]? = some system) :
    ∃ first,
      server.configs.head? = some first ∧
        0 < first.capacity ∧ 0 < first.slotCount ∧
          cache = 0 ∧ server.Shares host first system := by
  cases configs : server.configs with
  | nil =>
      obtain ⟨_, noCaches, _⟩ := founded.unconfigured configs
      simp [noCaches] at present
  | cons first rest =>
      have isFirst : server.configs.head? = some first := by
        simp [configs]
      obtain ⟨capacity, slotCount, only, shares⟩ :=
        founded.founded isFirst
      rw [shares.caches, List.getElem?_singleton] at present
      split at present
      · next zero =>
          cases present
          exact ⟨first, rfl, capacity, slotCount, zero, shares⟩
      · simp at present

/-- What is done around the shared cache leaves it shared. -/
theorem Founded.update
    (founded : server.Founded host)
    {cache : CachePtr} (present : server.caches[cache]? = some system)
    {acted : System} {requests : List Request}
    (goesOn :
      ∀ {first : RingCacheFilterConfig},
        server.Shares host first system →
          Reachable System.step
            (System.create first.capacity first.slotCount.toNat requests)
            (fun _ _ _ => True) acted) :
    ({ server with
        caches := server.caches.set cache acted
        requests := requests } : Server ρ).Founded host := by
  obtain ⟨first, isFirst, capacity, slotCount, rfl, shares⟩ :=
    founded.shares present
  refine { unconfigured := ?_, founded := ?_ }
  · intro configs
    have noConfigs : server.configs = [] := configs
    simp [noConfigs] at isFirst
  · intro other isOther
    simp only [isFirst, Option.some.injEq] at isOther
    subst isOther
    exact
      ⟨capacity, slotCount, acted,
        { caches := by simp [shares.caches]
          pointers := shares.pointers
          pinned := shares.pinned
          reachable := goesOn shares }⟩

theorem Founded.step
    (documented : host.Documented) (founded : server.Founded host)
    (effect : Effect host server next) :
    next.Founded host := by
  cases effect with
  | rejected =>
      exact founded
  | accepted valid =>
      exact founded.makeConfig documented valid
  | arrived present request =>
      refine founded.update present ?_
      intro first shares
      exact System.reachable_arrive shares.reachable
  | acted present moved =>
      refine founded.update present ?_
      intro first shares
      exact shares.reachable.next moved trivial

/-- The first configuration stays the first. -/
theorem Effect.head_configs
    (effect : Effect host server next)
    (isFirst : server.configs.head? = some first) :
    next.configs.head? = some first := by
  cases effect with
  | accepted valid =>
      simp [makeConfig, isFirst]
  | rejected =>
      exact isFirst
  | arrived present request =>
      exact isFirst
  | acted present moved =>
      exact isFirst

theorem founded_of_reachable
    (documented : host.Documented)
    (reachable :
      Reachable (Server.step host) (start host) (fun _ _ _ => True)
        server) :
    server.Founded host := by
  refine reachable.invariant ?_ ?_
  · refine { unconfigured := ?_, founded := ?_ }
    · intro _
      exact ⟨rfl, rfl, rfl⟩
    · intro first isFirst
      simp [start] at isFirst
  · intro before action after _ founded stepped _
    exact founded.step documented (step_effect stepped)

/-- In every run of a server, whatever configurations it is given and whenever
streams arrive, there is no cache before the first accepted configuration and
one from it on, to which all configurations point.  Its size is that of the
first accepted configuration, which is not zero, and the state of the cache and
of all streams is one that the system of that size reaches when it has the
streams from the start. -/
theorem oneCacheForAllConfigs
    (documented : host.Documented)
    (reachable :
      Reachable (Server.step host) (start host) (fun _ _ _ => True)
        server)
    (continued :
      Reachable (Server.step host) server (fun _ _ _ => True) later) :
    (server.configs = [] → server.caches = []) ∧
      ∀ first,
        server.configs.head? = some first →
          0 < first.capacity ∧ 0 < first.slotCount ∧
            later.configs.head? = some first ∧
              ∃ system,
                later.caches = [system] ∧
                  (∀ config ∈ later.configs,
                    later.caches[config.cache]? = some system) ∧
                    Reachable System.step
                        (System.create first.capacity
                          first.slotCount.toNat later.requests)
                        (fun _ _ _ => True) system ∧
                      system.world.monitor.cache.slots.length =
                          first.slotCount.toNat ∧
                        system.world.monitor.cache.usedSize.toNat ≤
                          first.capacity.toNat := by
  refine ⟨?_, ?_⟩
  · intro configs
    have founded := founded_of_reachable documented reachable
    exact (founded.unconfigured configs).2.1
  · intro first isFirst
    have stillFirst : later.configs.head? = some first := by
      refine
        @Reachable.invariant _ _ _ _ _ _
          (fun reached : Server ρ => reached.configs.head? = some first)
          isFirst ?_ _ continued
      intro before action after _ wasFirst stepped _
      exact (step_effect stepped).head_configs wasFirst
    have founded :=
      founded_of_reachable documented (reachable.trans continued)
    obtain ⟨capacity, slotCount, system, shares⟩ :=
      founded.founded stillFirst
    have consistent :=
      Monitor.consistent_of_reachable
        (World.monitor_reachable
          (System.world_reachable shares.reachable))
    refine
      ⟨capacity, slotCount, stillFirst, system, shares.caches, ?_,
        shares.reachable, ?_, ?_⟩
    · intro config member
      rw [shares.pointers config member, shares.caches]
      rfl
    · rw [consistent.wellFormed.slotsLength, consistent.slotCountEq]
    · rw [← consistent.capacityEq]
      exact consistent.wellFormed.bounded

/-- A manager that remembers the pointer it returned first, and the generated
check. -/
def pinningHost : Host (Option CachePtr) where
  registry := none
  getTyped registry made :=
    (registry.getD made, some (registry.getD made))
  validate proto := decide (0 < proto.capacity ∧ 0 < proto.slotCount)

theorem pinningHost_documented : pinningHost.Documented where
  creates := fun _ => rfl
  pins := fun _ _ _ => rfl
  validates := fun _ valid => of_decide_eq_true valid

/-- A rejected configuration and an accepted one with one stream. -/
def configuredRun : List Action :=
  [.configure { slotCount := 3 },
    .configure { capacity := 16, slotCount := 1 },
    .addStreamFilter 0 ⟨0, [1], [2]⟩,
    .act 0 (.callback 0 (.decodeHeaders true))]

/-- A larger configuration, whose stream follows the leader of the first. -/
def reconfiguredRun : List Action :=
  [.configure { capacity := 1000, slotCount := 8 },
    .addStreamFilter 1 ⟨1, [1], [2]⟩,
    .act 0 (.callback 1 (.decodeHeaders true))]

theorem oneCacheForAllConfigs_reconfiguredRun :
    ∃ server later system,
      checkedRun (Server.step pinningHost) (fun _ _ _ => true)
            (start pinningHost) configuredRun =
          some server ∧
        checkedRun (Server.step pinningHost) (fun _ _ _ => true) server
              reconfiguredRun =
            some later ∧
          later.configs =
              [{ capacity := 16, slotCount := 1, cache := 0 },
                { capacity := 1000, slotCount := 8, cache := 0 }] ∧
            later.caches = [system] ∧
              (system.streams[1]?.map fun stream =>
                  stream.filter.role) =
                  some .follower ∧
                system.world.monitor.cache.slots.length = 1 ∧
                  system.world.monitor.cache.usedSize.toNat ≤ 16 := by
  obtain ⟨server, later, system, ran, continued, isFirst, configs,
      caches, follows⟩ :
      ∃ server later system,
        checkedRun (Server.step pinningHost) (fun _ _ _ => true)
              (start pinningHost) configuredRun =
            some server ∧
          checkedRun (Server.step pinningHost) (fun _ _ _ => true)
                server reconfiguredRun =
              some later ∧
            server.configs.head? =
                some { capacity := 16, slotCount := 1, cache := 0 } ∧
              later.configs =
                  [{ capacity := 16, slotCount := 1, cache := 0 },
                    { capacity := 1000, slotCount := 8, cache := 0 }] ∧
                later.caches = [system] ∧
                  (system.streams[1]?.map fun stream =>
                      stream.filter.role) =
                    some .follower :=
    ⟨_, _, _, rfl, rfl, rfl, rfl, rfl, rfl⟩
  have shared :=
    oneCacheForAllConfigs pinningHost_documented
      (Reachable.of_checkedRun (fun _ _ _ _ => trivial)
        Reachable.start ran)
      (Reachable.of_checkedRun (fun _ _ _ _ => trivial)
        Reachable.start continued)
  obtain ⟨_, _, _, only, single, _, _, slots, used⟩ :=
    shared.2 _ isFirst
  rw [caches, List.singleton_inj] at single
  subst single
  exact
    ⟨server, later, system, ran, continued, configs, caches, follows,
      slots, used⟩

end Server

end RingCache

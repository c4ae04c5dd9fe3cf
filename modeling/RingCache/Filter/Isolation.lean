import RingCache.Filter.HitResponses

/-!
# No response crosses between requests

`buildKey` joins the host and the path of a request without escaping either.
A host without a slash ends at the first slash of its key, wherever `///` may
occur in the path, so the key determines the request.  A hit and a follower
get what a leader of their own key has published, also a follower that has
been cancelled, and therefore what a leader of their own host and path has
published.
-/

namespace RingCache

open Transition RingBufferCache

/-! ## Keys -/

/-- A list is cut in one way only at the first occurrence of a mark. -/
theorem cut_at_mark
    {α : Type} {mark : α} {first second rest other : List α}
    (firstClear : mark ∉ first) (secondClear : mark ∉ second)
    (same : first ++ mark :: rest = second ++ mark :: other) :
    first = second ∧ rest = other := by
  induction first generalizing second with
  | nil =>
      cases second with
      | nil =>
          simpa using same
      | cons head tail =>
          have isHead : mark = head := by
            simp only [List.nil_append, List.cons_append,
              List.cons.injEq] at same
            exact same.1
          rw [isHead] at secondClear
          exact absurd List.mem_cons_self secondClear
  | cons letter first inductionHypothesis =>
      rw [List.mem_cons, not_or] at firstClear
      cases second with
      | nil =>
          have isLetter : letter = mark := by
            simp only [List.nil_append, List.cons_append,
              List.cons.injEq] at same
            exact same.1
          exact absurd isLetter.symm firstClear.1
      | cons head tail =>
          rw [List.mem_cons, not_or] at secondClear
          simp only [List.cons_append, List.cons.injEq] at same
          obtain ⟨sameHead, sameTail⟩ := same
          obtain ⟨firstEq, restEq⟩ :=
            inductionHypothesis firstClear.2 secondClear.2 sameTail
          rw [sameHead, firstEq]
          exact ⟨rfl, restEq⟩

namespace RingCacheFilter

/-- The byte of `/`. -/
def slash : UInt8 := 47

/-- The key that a new filter builds for a request. -/
def requestKey (host path : Bytes) : Key :=
  (({} : RingCacheFilter).buildKey host path).2.key

theorem requestKey_eq
    {host path : Bytes} (hasHost : host ≠ []) (hasPath : path ≠ []) :
    requestKey host path = host ++ separator ++ path := by
  simp [requestKey, buildKey, hasHost, hasPath]

/-- A successful `buildKey` has found a host and a path, and in a filter with
an empty key it leaves the key of the request. -/
theorem buildKey_key
    {filter built : RingCacheFilter} {host path : Bytes}
    (fresh : filter.key = [])
    (build : filter.buildKey host path = (true, built)) :
    host ≠ [] ∧ path ≠ [] ∧ built.key = requestKey host path := by
  unfold buildKey at build
  split at build
  · simp at build
  · next present =>
      simp only [Bool.or_eq_true, List.isEmpty_iff, not_or] at present
      cases build
      refine ⟨present.1, present.2, ?_⟩
      rw [requestKey_eq present.1 present.2, fresh]
      rfl

/-- A host without slashes and a path, whatever its slashes, can be read back
from their key. -/
theorem requestKey_injective
    {firstHost firstPath secondHost secondPath : Bytes}
    (firstPresent : firstHost ≠ [] ∧ firstPath ≠ [])
    (secondPresent : secondHost ≠ [] ∧ secondPath ≠ [])
    (firstClear : slash ∉ firstHost) (secondClear : slash ∉ secondHost)
    (same :
      requestKey firstHost firstPath =
        requestKey secondHost secondPath) :
    firstHost = secondHost ∧ firstPath = secondPath := by
  rw [requestKey_eq firstPresent.1 firstPresent.2,
    requestKey_eq secondPresent.1 secondPresent.2,
    List.append_assoc, List.append_assoc] at same
  have cut :
      firstHost = secondHost ∧
        slash :: slash :: firstPath = slash :: slash :: secondPath :=
    cut_at_mark firstClear secondClear same
  simpa using cut

/-- A host with a slash at its end shares its key with another request. -/
example :
    ({} : RingCacheFilter).buildKey [97, 47] [98] =
      ({} : RingCacheFilter).buildKey [97] [47, 98] := by
  decide

end RingCacheFilter

/-! ## What a follower has received -/

/-- The headers and bytes of the events were published: the headers are those
of the response and the bytes are its body as far as they go. -/
structure Log.Provides (log : Log) (events : List Event) : Prop where
  headers :
    ∀ {headers : ResponseHeaderMap} {ends : Bool} {details : Details},
      .encodeHeaders headers ends details ∈ events →
        log.headers? = some headers
  body : events.flatMap Event.bytes <+: log.body

theorem Log.Provides.nil (log : Log) : log.Provides [] := by
  exact
    { headers := by simp
      body := List.nil_prefix }

/-- What was published stays published. -/
theorem Log.Provides.mono
    {log later : Log} {events : List Event}
    (provides : log.Provides events) (grows : log <+: later) :
    later.Provides events := by
  obtain ⟨more, rfl⟩ := grows
  refine { headers := ?_, body := ?_ }
  · intro headers ends details member
    have stored := provides.headers member
    unfold Log.headers? at stored ⊢
    rw [List.findSome?_append, stored]
    rfl
  · have longer : log.body <+: Log.body (log ++ more) := by
      unfold Log.body
      rw [List.flatMap_append]
      exact List.prefix_append _ _
    exact provides.body.trans longer

/-- The first events of an exact delivery were published. -/
theorem ExactDelivery.provides
    {log : Log} {events rest : List Event}
    (exact : ExactDelivery log (events ++ rest)) :
    log.Provides events := by
  refine { headers := ?_, body := ?_ }
  · intro headers ends details member
    have delivered :
        .encodeHeaders headers ends details ∈ events ++ rest :=
      List.mem_append_left _ member
    cases stored : log.headers? with
    | none =>
        rw [exact.silent stored] at delivered
        simp at delivered
    | some published =>
        obtain ⟨firstEnds, firstDetails, after, eventsEq, onlyData⟩ :=
          exact.headersOnce published stored
        rw [eventsEq] at delivered
        rcases List.mem_cons.mp delivered with same | later
        · cases same
          rfl
        · have isData := onlyData _ later
          simp [Event.isData] at isData
  · rw [← exact.body, List.flatMap_append]
    exact List.prefix_append _ _

namespace World

variable {world next : World}

/-- No closure is executed for a stream whose waiter is cancelled. -/
theorem Routed.delivered_of_cancelled
    (routed : world.Routed)
    {action : Action} (stepped : world.step action = .ok next)
    {stream : StreamId} (cancelled : next.cancelled stream = true) :
    next.delivered stream = world.delivered stream := by
  cases action with
  | move id move =>
      rw [(move_frame stepped).1]
  | run dispatcher =>
      cases step_effect stepped with
      | runCancelled queued wasCancelled =>
          rfl
      | @run _ closure rest queued live =>
          have first : closure ∈ world.queues dispatcher := by
            rw [queued]
            exact List.mem_cons_self
          obtain ⟨_, leader, follower, client, sameWaiter, _⟩ :=
            routed.queued first
          have ownWaiter := routed.waiter_addr client
          rw [sameWaiter] at ownWaiter
          refine Function.update_of_ne ?_ _ _
          intro same
          rw [ownWaiter.2] at same
          rw [← same] at live
          have uncancelled : world.cancelled stream = true := cancelled
          rw [live] at uncancelled
          simp at uncancelled

/-- What a follower has received, cancelled or not, its leader has
published. -/
structure Sourced (world : World) : Prop where
  provides :
    ∀ {stream owner : StreamId} {follower : Follower} {leader : Leader},
      world.clients[stream]? = some (.follower follower) →
      follower.leader = some owner →
      world.clients[owner]? = some (.leader leader) →
        leader.log.Provides (world.delivered stream)

theorem Sourced.step
    (sourced : world.Sourced) (routed : world.Routed)
    {action : Action} (stepped : world.step action = .ok next)
    (laterRouted : next.Routed) (delivers : next.Delivers) :
    next.Sourced := by
  refine { provides := ?_ }
  intro stream owner follower leader client joined ownerClient
  obtain ⟨sameAddr, sameStream⟩ := laterRouted.waiter_addr client
  cases cancelled : next.cancelled follower.waiter.addr with
  | false =>
      have received :=
        delivers.exact client cancelled joined ownerClient
      unfold receives at received
      rw [sameStream, List.append_assoc] at received
      exact received.provides
  | true =>
      rw [sameAddr] at cancelled
      rw [routed.delivered_of_cancelled stepped cancelled]
      by_cases nothing : world.delivered stream = []
      · rw [nothing]
        exact Log.Provides.nil _
      · obtain ⟨earlier, earlierClient⟩ := routed.receiver nothing
        have sameFollower := follower_kept stepped earlierClient
        rw [client, Option.some.injEq, Client.follower.injEq]
          at sameFollower
        subst sameFollower
        obtain ⟨other, before, otherJoined, otherClient, _⟩ :=
          routed.joinedLeader earlierClient
        rw [joined, Option.some.injEq] at otherJoined
        subst otherJoined
        obtain ⟨later, laterClient, grows⟩ :=
          leader_kept stepped otherClient
        rw [ownerClient, Option.some.injEq, Client.leader.injEq]
          at laterClient
        subst laterClient
        have published :=
          sourced.provides earlierClient joined otherClient
        exact published.mono grows

section Reachable

variable {capacity : UInt64} {slotCount : Nat}
variable {dispatchers : List DispatcherId}

theorem sourced_of_reachable
    (reachable :
      Reachable step (create capacity slotCount dispatchers)
        (LeadersCall Log.contract) world) :
    world.Sourced := by
  refine reachable.invariant ?_ ?_
  · exact
      { provides :=
          fun client => absurd client (create_client (by simp)) }
  · intro before action after reached sourced stepped contract
    have later := reached.next stepped contract
    have routed := routed_of_reachable (orderly_of_contract reached)
    have laterRouted := routed_of_reachable (orderly_of_contract later)
    have delivers := delivers_of_reachable later
    exact sourced.step routed stepped laterRouted delivers

end Reachable

end World

/-! ## Streams and the keys of their requests -/

open RingCacheFilter

/-- The filter of a stream has built the key of its request. -/
structure Stream.LookedUp (stream : Stream) : Prop where
  hasHost : stream.host ≠ []
  hasPath : stream.path ≠ []
  ownKey : stream.filter.key = requestKey stream.host stream.path

/-- A stream has the key of its request once it has looked up, and only a hit
is served by its own filter. -/
def Stream.Addressed (stream : Stream) : Client → Prop
  | .start _ => stream.filter.key = [] ∧ stream.sent = []
  | .hit _ =>
      stream.LookedUp ∧
        (stream.filter.role ≠ .cached → stream.sent = [])
  | .leader _ => stream.LookedUp ∧ stream.sent = []
  | .follower _ => stream.LookedUp ∧ stream.sent = []

/-- A change of what neither the key nor the served hit is about. -/
theorem Stream.Addressed.congr
    {stream other : Stream} {client : Client}
    (addressed : stream.Addressed client)
    (sameRequest : other.host = stream.host ∧ other.path = stream.path)
    (sameKey : other.filter.key = stream.filter.key)
    (sameRole : other.filter.role = stream.filter.role)
    (sameSent : other.sent = stream.sent) :
    other.Addressed client := by
  have lookedUp : stream.LookedUp → other.LookedUp := by
    intro before
    refine { hasHost := ?_, hasPath := ?_, ownKey := ?_ }
    · rw [sameRequest.1]
      exact before.hasHost
    · rw [sameRequest.2]
      exact before.hasPath
    · rw [sameKey, sameRequest.1, sameRequest.2]
      exact before.ownKey
  cases client with
  | start dispatcher =>
      exact
        ⟨sameKey.trans addressed.1, sameSent.trans addressed.2⟩
  | hit lookup =>
      refine ⟨lookedUp addressed.1, ?_⟩
      intro notCached
      rw [sameRole] at notCached
      exact sameSent.trans (addressed.2 notCached)
  | leader leader =>
      exact ⟨lookedUp addressed.1, sameSent.trans addressed.2⟩
  | follower follower =>
      exact ⟨lookedUp addressed.1, sameSent.trans addressed.2⟩

/-- A step after the lookup keeps the kind of a client. -/
theorem Stream.Addressed.move
    {stream : Stream} {client moved : Client} {move : World.Move}
    (addressed : stream.Addressed client)
    (moves : client.Moved move moved)
    (notLookup : ∀ key, move ≠ .lookup key) :
    stream.Addressed moved := by
  cases moves with
  | hit _ _ =>
      exact absurd rfl (notLookup _)
  | led =>
      exact absurd rfl (notLookup _)
  | followed _ =>
      exact absurd rfl (notLookup _)
  | hitWent _ _ =>
      exact addressed
  | published _ =>
      exact addressed
  | leaderWent _ _ _ =>
      exact addressed
  | followerWent _ =>
      exact addressed

/-- A lookup gives a stream the key of its request, whatever it returns. -/
theorem Stream.Addressed.lookup
    {stream other : Stream} {client found : Client} {key : Key}
    {built : RingCacheFilter}
    (addressed : stream.Addressed client)
    (moves : client.Moved (.lookup key) found)
    (build :
      stream.filter.buildKey stream.host stream.path = (true, built))
    (sameRequest : other.host = stream.host ∧ other.path = stream.path)
    (sameKey : other.filter.key = built.key)
    (sameSent : other.sent = stream.sent) :
    other.Addressed found := by
  have established :
      stream.filter.key = [] → other.LookedUp := by
    intro fresh
    obtain ⟨hasHost, hasPath, ownKey⟩ := buildKey_key fresh build
    rw [← sameRequest.1] at hasHost ownKey
    rw [← sameRequest.2] at hasPath ownKey
    exact
      { hasHost := hasHost
        hasPath := hasPath
        ownKey := sameKey.trans ownKey }
  cases moves with
  | hit _ _ =>
      have unsent : other.sent = [] := sameSent.trans addressed.2
      exact ⟨established addressed.1, fun _ => unsent⟩
  | led =>
      exact ⟨established addressed.1, sameSent.trans addressed.2⟩
  | followed _ =>
      exact ⟨established addressed.1, sameSent.trans addressed.2⟩
  | hitWent notLookup _ =>
      exact absurd rfl (notLookup _)
  | leaderWent _ notLookup _ =>
      exact absurd rfl (notLookup _)
  | followerWent notLookup =>
      exact absurd rfl (notLookup _)

namespace System

variable {system next : System}

/-- No callback changes the request of its stream. -/
theorem CallbackEffect.sameRequest
    {id : StreamId} {stream after : Stream} {callback : Callback}
    {world : World}
    (effect : CallbackEffect system id stream callback after world) :
    after.host = stream.host ∧ after.path = stream.path := by
  cases effect <;> exact ⟨rfl, rfl⟩

/-- The keys of streams after a callback on one of them. -/
theorem CallbackEffect.addressed
    {id : StreamId} {stream after : Stream} {callback : Callback}
    {world : World} {client later : Client}
    (effect : CallbackEffect system id stream callback after world)
    (present : system.world.clients[id]? = some client)
    (laterPresent : world.clients[id]? = some later)
    (addressed : stream.Addressed client) :
    after.Addressed later := by
  have sameRequest := effect.sameRequest
  have moves :
      ∀ {move : World.Move},
        system.world.step (.move id move) = .ok world →
          client.Moved move later := by
    intro move stepped
    obtain ⟨old, new, oldPresent, clients, moved⟩ :=
      World.move_clients stepped
    rw [clients, if_pos rfl, Option.some.injEq] at laterPresent
    rw [present, Option.some.injEq] at oldPresent
    subst laterPresent oldPresent
    exact moved
  have stays : world = system.world → later = client := by
    intro same
    rw [same, present, Option.some.injEq] at laterPresent
    exact laterPresent.symm
  cases effect with
  | unkeyed callable awaiting built =>
      rw [stays rfl]
      have sameFilter := (buildKey_eq built).1 rfl
      refine addressed.congr sameRequest ?_ ?_ rfl
      · rw [sameFilter]
      · rw [sameFilter]
  | hit callable awaiting built looked looker =>
      exact
        addressed.lookup (moves looked) built sameRequest rfl rfl
  | lead callable awaiting fresh built looked looker =>
      exact
        addressed.lookup (moves looked) built sameRequest rfl rfl
  | follow callable awaiting fresh built looked looker =>
      exact
        addressed.lookup (moves looked) built sameRequest rfl rfl
  | serve deciding hitClient stage read =>
      rw [stays rfl]
      rw [present, Option.some.injEq] at hitClient
      subst hitClient
      obtain ⟨lookedUp, _⟩ := addressed
      refine ⟨?_, ?_⟩
      · exact
          { hasHost := lookedUp.hasHost
            hasPath := lookedUp.hasPath
            ownKey := lookedUp.ownKey }
      · intro notCached
        exact absurd rfl notCached
  | decodeData callable receiving =>
      rw [stays rfl]
      exact addressed.congr sameRequest rfl rfl rfl
  | decodeTrailers callable receiving =>
      rw [stays rfl]
      exact addressed.congr sameRequest rfl rfl rfl
  | pass callable origin ordered =>
      rw [stays rfl]
      exact addressed.congr sameRequest (by simp) (by simp) rfl
  | publish callable origin leads ordered calls stepped =>
      have kept := addressed.move (moves stepped) (by simp)
      exact kept.congr sameRequest (by simp) (by simp) rfl
  | cancel callable follows notDone stepped =>
      have kept := addressed.move (moves stepped) (by simp)
      exact kept.congr sameRequest rfl rfl rfl
  | destroy callable keeps =>
      rw [stays rfl]
      exact addressed.congr sameRequest rfl rfl rfl
  | proceed permitted stepped =>
      have kept :=
        addressed.move (moves stepped)
          (not_lookup_of_proceeds permitted)
      exact kept.congr sameRequest rfl rfl rfl

/-- Every stream has its own request, and the key of that request once it has
looked up. -/
structure Addressed (requests : List Request) (system : System) :
    Prop where
  request :
    ∀ {id : StreamId} {stream : Stream},
      system.streams[id]? = some stream →
        ∃ request : Request,
          requests[id]? = some request ∧
            stream.host = request.host ∧ stream.path = request.path
  key :
    ∀ {id : StreamId} {stream : Stream} {client : Client},
      system.streams[id]? = some stream →
      system.world.clients[id]? = some client →
        stream.Addressed client

theorem create_addressed
    (capacity : UInt64) (slotCount : Nat) (requests : List Request) :
    (create capacity slotCount requests).Addressed requests := by
  refine { request := ?_, key := ?_ }
  · intro id stream found
    simp only [create, List.getElem?_map, Option.map_eq_some_iff]
      at found
    obtain ⟨request, present, same⟩ := found
    subst same
    exact ⟨request, present, rfl, rfl⟩
  · intro id stream client found present
    obtain ⟨host, path, rfl⟩ := create_stream found
    have member := List.mem_of_getElem? present
    simp only [create, World.create, List.map_map,
      List.mem_map] at member
    obtain ⟨request, _, same⟩ := member
    subst same
    exact ⟨rfl, rfl⟩

theorem Addressed.step
    {requests : List Request} {action : Action}
    (addressed : system.Addressed requests) (matched : system.Matched)
    (effect : Effect system action next) :
    next.Addressed requests := by
  cases effect with
  | @callback id stream after _ world found effect =>
      obtain ⟨client, present, _⟩ := matched.client found
      obtain ⟨_, clients, _⟩ := effect.fits matched found
      refine { request := ?_, key := ?_ }
      · intro other later laterFound
        rcases update_cases found laterFound with
          ⟨rfl, rfl⟩ | ⟨_, before⟩
        · rw [effect.sameRequest.1, effect.sameRequest.2]
          exact addressed.request found
        · exact addressed.request before
      · intro other later laterClient laterFound laterPresent
        rcases update_cases found laterFound with
          ⟨rfl, rfl⟩ | ⟨different, before⟩
        · exact
            effect.addressed present laterPresent
              (addressed.key found present)
        · have sameClient :
              world.clients[other]? = some laterClient := laterPresent
          rw [clients, if_neg different] at sameClient
          exact addressed.key before sameClient
  | run stepped =>
      refine { request := addressed.request, key := ?_ }
      intro id stream client found present
      simp only [(World.run_frame stepped).1] at present
      exact addressed.key found present

/-! ## Isolation -/

/-- What a stream has received from the cache: the calls of `serveHit` and the
calls of the closures posted to it. -/
def received (system : System) (id : StreamId) (stream : Stream) :
    List Event :=
  stream.sent ++ system.world.delivered id

/-- The filter of `owner` is a leader and has published the events. -/
def PublishedBy
    (system : System) (events : List Event) (owner : StreamId) :
    Prop :=
  ∃ (stream : Stream) (leader : Leader),
    system.streams[owner]? = some stream ∧
      stream.filter.role = .leader ∧
        system.world.clients[owner]? = some (.leader leader) ∧
          leader.log.Provides events

section Reachable

variable {capacity : UInt64} {slotCount : Nat}
variable {requests : List Request}
variable {allowed : System → Action → System → Prop}

theorem addressed_of_reachable
    (reachable :
      Reachable step (create capacity slotCount requests) allowed
        system) :
    system.Addressed requests := by
  refine
    invariant_of_effects (create_addressed capacity slotCount requests)
      (fun addressed => ⟨addressed.request, addressed.key⟩) ?_ reachable
  intro before after action reached addressed effect
  have matched := matched_of_reachable reached
  exact addressed.step matched effect

/-- A served hit was published by a leader of its key. -/
theorem hit_provided
    (reachable :
      Reachable step (create capacity slotCount requests) allowed
        system)
    {id : StreamId} {stream : Stream} {lookup : HitLookup}
    (found : system.streams[id]? = some stream)
    (client : system.world.clients[id]? = some (.hit lookup))
    (cached : stream.filter.role = .cached) :
    ∃ (owner : StreamId) (leader : Leader),
      system.world.clients[owner]? = some (.leader leader) ∧
        leader.key = lookup.key ∧
          leader.log.Provides stream.sent := by
  have served := served_of_reachable reachable
  obtain ⟨hit, headers, body, hitClient, response, sentEq⟩ :=
    served.sent found cached
  rw [client, Option.some.injEq, Client.hit.injEq] at hitClient
  subst hitClient
  obtain ⟨owner, leader, _, ownerClient, sameKey, _, _, _, exact⟩ :=
    response
  refine ⟨owner, leader, ownerClient, sameKey, ?_⟩
  rw [← List.append_nil (RingCacheFilter.serveHit headers body)]
    at exact
  rw [sentEq]
  exact exact.provides

/-- The calls of the closures posted to a follower were published by a leader
of its key. -/
theorem follower_provided
    (reachable :
      Reachable step (create capacity slotCount requests) allowed
        system)
    {id : StreamId} {follower : Follower}
    (client :
      system.world.clients[id]? = some (.follower follower)) :
    ∃ (owner : StreamId) (leader : Leader),
      system.world.clients[owner]? = some (.leader leader) ∧
        leader.key = follower.key ∧
          leader.log.Provides (system.world.delivered id) := by
  have lower := world_reachable reachable
  have routed := routed_of_reachable reachable
  have sourced := World.sourced_of_reachable lower
  obtain ⟨owner, leader, joined, ownerClient, sameKey⟩ :=
    routed.joinedLeader client
  exact
    ⟨owner, leader, ownerClient, sameKey,
      sourced.provides client joined ownerClient⟩

/-- What a stream has received a leader of its own key has published. -/
theorem provided_of_reachable
    (reachable :
      Reachable step (create capacity slotCount requests) allowed
        system)
    {id : StreamId} {stream : Stream}
    (found : system.streams[id]? = some stream)
    (nonempty : system.received id stream ≠ []) :
    stream.LookedUp ∧
      ∃ (owner : StreamId) (leader : Leader),
        system.world.clients[owner]? = some (.leader leader) ∧
          leader.key = stream.filter.key ∧
            leader.log.Provides (system.received id stream) := by
  obtain ⟨client, present, fits⟩ :=
    (matched_of_reachable reachable).client found
  have own := (addressed_of_reachable reachable).key found present
  have undelivered :
      (∀ follower, client ≠ .follower follower) →
        system.received id stream = stream.sent := by
    intro notFollower
    have routed := routed_of_reachable reachable
    have nothing : system.world.delivered id = [] := by
      by_contra delivered
      obtain ⟨follower, follows⟩ := routed.receiver delivered
      rw [present, Option.some.injEq] at follows
      exact notFollower follower follows
    rw [received, nothing, List.append_nil]
  cases client with
  | start dispatcher =>
      rw [undelivered (by simp), own.2] at nonempty
      exact absurd rfl nonempty
  | hit lookup =>
      have onlySent := undelivered (by simp)
      have cached : stream.filter.role = .cached := by
        by_contra notCached
        rw [onlySent, own.2 notCached] at nonempty
        exact nonempty rfl
      obtain ⟨owner, leader, ownerClient, sameKey, provides⟩ :=
        hit_provided reachable found present cached
      rw [← fits.2] at sameKey
      rw [← onlySent] at provides
      exact
        ⟨own.1, owner, leader, ownerClient, sameKey, provides⟩
  | leader leader =>
      rw [undelivered (by simp), own.2] at nonempty
      exact absurd rfl nonempty
  | follower follower =>
      have onlyDelivered :
          system.received id stream = system.world.delivered id := by
        rw [received, own.2, List.nil_append]
      obtain ⟨owner, leader, ownerClient, sameKey, provides⟩ :=
        follower_provided reachable present
      rw [← fits.2.1] at sameKey
      rw [← onlyDelivered] at provides
      exact
        ⟨own.1, owner, leader, ownerClient, sameKey, provides⟩

end Reachable

/-- In every run in which no host has a slash, whatever a stream has received
from the cache was published by a leader filter whose own request had the same
host and the same path: such hosts and paths can be read back from their
keys. -/
theorem responsesStayWithRequests
    (capacity : UInt64) (slotCount : Nat) :
    (∀ firstHost firstPath secondHost secondPath : Bytes,
        firstHost ≠ [] ∧ firstPath ≠ [] →
        secondHost ≠ [] ∧ secondPath ≠ [] →
        slash ∉ firstHost →
        slash ∉ secondHost →
        requestKey firstHost firstPath =
            requestKey secondHost secondPath →
          firstHost = secondHost ∧ firstPath = secondPath) ∧
      ∀ (requests : List Request) (system : System),
        (∀ request ∈ requests, slash ∉ request.host) →
        Reachable step (create capacity slotCount requests)
            (fun _ _ _ => True) system →
          ∀ (id : StreamId) (request : Request) (stream : Stream),
            requests[id]? = some request →
            system.streams[id]? = some stream →
            system.received id stream ≠ [] →
              ∃ (owner : StreamId) (source : Request),
                requests[owner]? = some source ∧
                  source.host = request.host ∧
                    source.path = request.path ∧
                      system.PublishedBy
                        (system.received id stream) owner := by
  refine ⟨?_, ?_⟩
  · intro firstHost firstPath secondHost secondPath firstPresent
      secondPresent firstClear secondClear same
    exact
      requestKey_injective firstPresent secondPresent firstClear
        secondClear same
  · intro requests system clear reachable id request stream present
      found nonempty
    have addressed := addressed_of_reachable reachable
    have matched := matched_of_reachable reachable
    obtain ⟨lookedUp, owner, leader, ownerClient, sameKey, provides⟩ :=
      provided_of_reachable reachable found nonempty
    obtain ⟨leading, leadingFound, leads, leadingKey, _⟩ :=
      matched.stream ownerClient
    have leadingLookedUp :=
      (addressed.key leadingFound ownerClient).1
    obtain ⟨own, ownPresent, sameHost, samePath⟩ :=
      addressed.request found
    rw [present, Option.some.injEq] at ownPresent
    subst ownPresent
    obtain ⟨source, sourcePresent, sourceHost, sourcePath⟩ :=
      addressed.request leadingFound
    have sameRequest :
        leading.host = stream.host ∧ leading.path = stream.path := by
      refine
        requestKey_injective
          ⟨leadingLookedUp.hasHost, leadingLookedUp.hasPath⟩
          ⟨lookedUp.hasHost, lookedUp.hasPath⟩ ?_ ?_ ?_
      · rw [sourceHost]
        exact clear source (List.mem_of_getElem? sourcePresent)
      · rw [sameHost]
        exact clear request (List.mem_of_getElem? present)
      · rw [← leadingLookedUp.ownKey, leadingKey, sameKey]
        exact lookedUp.ownKey
    have published :
        system.PublishedBy (system.received id stream) owner :=
      ⟨leading, leader, leadingFound, leads, ownerClient, provides⟩
    refine ⟨owner, source, sourcePresent, ?_, ?_, published⟩
    · rw [← sourceHost, sameRequest.1, sameHost]
    · rw [← sourcePath, sameRequest.2, samePath]

/-- Three requests for one host and path and one whose path lacks the leading
slash.  The second follows the first until it is cancelled, the third makes its
own fetch and the last hits. -/
def neighbourRequests : List Request :=
  [⟨0, [1], [47, 2]⟩, ⟨1, [1], [47, 2]⟩, ⟨0, [1], [2]⟩,
    ⟨0, [1], [47, 2]⟩]

def neighbourRun : List Action :=
  [.callback 0 (.decodeHeaders true),
    .callback 1 (.decodeHeaders true),
    .callback 2 (.decodeHeaders true),
    .callback 0 (.encode true (.headers [([5], [6])] false)),
    .callback 0 (.proceed .post), .callback 0 (.proceed .return_),
    .run 1, .callback 1 .onDestroy,
    .callback 1 (.proceed .removeWaiter),
    .callback 2 (.encode true (.headers [([7], [8])] true)),
    .callback 2 (.proceed .scan), .callback 2 (.proceed .scan),
    .callback 2 (.proceed .finish), .callback 2 (.proceed .return_),
    .callback 0 (.encode true (.data [9] true)),
    .callback 0 (.proceed .scan), .callback 0 (.proceed .scan),
    .callback 0 (.proceed .finish), .callback 0 (.proceed .return_),
    .callback 3 (.decodeHeaders true),
    .callback 3 (.proceed .copyHeaders),
    .callback 3 (.proceed .handOut), .callback 3 .serve]

theorem responsesStayWithRequests_neighbourRun :
    ∃ system follower hit,
      checkedRun step (fun _ _ _ => true)
            (create 32 2 neighbourRequests) neighbourRun =
          some system ∧
        system.streams[1]? = some follower ∧
          system.streams[3]? = some hit ∧
            system.received 1 follower =
                [.encodeHeaders [([5], [6])] false .coalesced] ∧
              system.received 3 hit =
                  [.encodeHeaders [([5], [6])] false .hit,
                    .encodeData [9] true] ∧
                (∃ (owner : StreamId) (source : Request),
                  neighbourRequests[owner]? = some source ∧
                    source.host = [1] ∧
                      source.path = [47, 2] ∧
                        system.PublishedBy
                          (system.received 1 follower) owner) ∧
                  ∃ (owner : StreamId) (source : Request),
                    neighbourRequests[owner]? = some source ∧
                      source.host = [1] ∧
                        source.path = [47, 2] ∧
                          system.PublishedBy
                            (system.received 3 hit) owner := by
  have followed :
      ∃ system follower hit,
        checkedRun step (fun _ _ _ => true)
              (create 32 2 neighbourRequests) neighbourRun =
            some system ∧
          system.streams[1]? = some follower ∧
            system.streams[3]? = some hit ∧
              system.received 1 follower =
                  [.encodeHeaders [([5], [6])] false .coalesced] ∧
                system.received 3 hit =
                  [.encodeHeaders [([5], [6])] false .hit,
                    .encodeData [9] true] :=
    ⟨_, _, _, rfl, rfl, rfl, rfl, rfl⟩
  obtain ⟨system, follower, hit, ran, followerFound, hitFound,
    followerReceived, hitReceived⟩ := followed
  have isolated :=
    (responsesStayWithRequests 32 2).2 neighbourRequests system
      (by decide)
      (Reachable.of_checkedRun (fun _ _ _ _ => trivial)
        Reachable.start ran)
  refine
    ⟨system, follower, hit, ran, followerFound, hitFound,
      followerReceived, hitReceived, ?_, ?_⟩
  · refine
      isolated 1 ⟨1, [1], [47, 2]⟩ follower rfl followerFound ?_
    rw [followerReceived]
    simp
  · refine isolated 3 ⟨0, [1], [47, 2]⟩ hit rfl hitFound ?_
    rw [hitReceived]
    simp

end System

end RingCache

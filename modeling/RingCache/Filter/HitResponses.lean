import RingCache.Filter.Matching
import RingCache.Streams.Hits
import RingCache.Streams.Pins

/-!
# The response that a hit sends downstream

A hit returns the whole response of the leader of its key that most recently
ended its stream, and `decodeHeaders` sends it as headers and at most one chunk
of data.  The headers are copied before the lookup returns and the body is read
through the fragment when it is sent, which is before the fragment may be
released.
-/

namespace RingCache

open Transition RingBufferCache

/-- A whole response sent as headers and one chunk. -/
theorem ExactDelivery.serveHit
    {log : Log} {headers : ResponseHeaderMap}
    (stored : log.headers? = some headers) (ended : log.ended = true) :
    ExactDelivery log (RingCacheFilter.serveHit headers log.body) := by
  unfold RingCacheFilter.serveHit
  by_cases nonempty : 0 < log.body.length
  · simp only [nonempty, decide_true, Bool.not_true, if_true]
    refine
      { silent := by simp [stored]
        headersOnce := ?_
        body := by simp [Event.bytes]
        openBefore := by simp [Event.endStream]
        endLast := ?_ }
    · intro other found
      have same : headers = other := by simpa [stored] using found
      subst same
      exact ⟨false, .hit, _, rfl, by simp [Event.isData]⟩
    · intro event last
      have same : Event.encodeData log.body true = event := by
        simpa using last
      rw [← same, ended]
      rfl
  · have empty : log.body = [] := by simpa using nonempty
    simp only [nonempty, decide_false, Bool.not_false,
      Bool.false_eq_true, if_false]
    refine
      { silent := by simp [stored]
        headersOnce := ?_
        body := by simp [Event.bytes, empty]
        openBefore := by simp
        endLast := ?_ }
    · intro other found
      have same : headers = other := by simpa [stored] using found
      subst same
      exact ⟨true, .hit, [], rfl, by simp⟩
    · intro event last
      have same : Event.encodeHeaders headers true .hit = event := by
        simpa using last
      rw [← same, ended]
      rfl

namespace World

variable {world next : World}

/-- The headers and the body are the whole response of the leader of the key
that had most recently ended its stream when the lookup hit, and so are the
calls that serve them. -/
def LastResponse
    (world : World) (lookup : HitLookup)
    (headers : ResponseHeaderMap) (body : Bytes) : Prop :=
  ∃ (source : StreamId) (leader : Leader),
    lookup.source = some source ∧
      world.clients[source]? = some (.leader leader) ∧
        leader.key = lookup.key ∧
          leader.log.ended = true ∧
            leader.log.headers? = some headers ∧
              leader.log.body = body ∧
                ExactDelivery leader.log
                  (RingCacheFilter.serveHit headers body)

/-- Later steps change neither the response nor which response it is. -/
theorem LastResponse.step
    {action : Action} {lookup : HitLookup}
    {headers : ResponseHeaderMap} {body : Bytes}
    (response : world.LastResponse lookup headers body)
    (stepped : world.step action = .ok next)
    (contract : LeadersCall Log.contract world action next)
    (stage : HitStage) :
    next.LastResponse { lookup with stage := stage } headers body := by
  obtain ⟨source, leader, sourceEq, client, sameKey, ended, content⟩ :=
    response
  obtain ⟨call, later⟩ := ended_kept stepped contract client ended
  exact ⟨source, _, sourceEq, later, sameKey, ended, content⟩

/-- The fragment of a returned hit: a hit on an empty body has none, and on a
nonempty body has one until it is released. -/
def Unreleased (lookup : HitLookup) (fragment : Bool) : Prop :=
  fragment = false → lookup.bodyLength = 0

section Reachable

variable {capacity : UInt64} {slotCount : Nat}
variable {dispatchers : List DispatcherId}

/-- A returned hit has the headers of the last response, and reads its body
when its fragment can be read. -/
theorem lastResponse_of_returned
    (reachable :
      Reachable step (create capacity slotCount dispatchers)
        (LeadersCall Log.contract) world)
    {stream : StreamId} {lookup : HitLookup}
    {headers : ResponseHeaderMap} {fragment : Bool}
    (client : world.clients[stream]? = some (.hit lookup))
    (returned : lookup.stage = .served headers fragment) :
    ∃ body,
      world.LastResponse lookup headers body ∧
        ∀ read,
          Unreleased lookup fragment →
          System.hitBody world lookup fragment = .ok read →
            read = body := by
  have stored := stored_of_reachable (orderly_of_contract reachable)
  obtain ⟨source, snapshot, sourceEq, snapshotEq, written, sameKey,
    length, copied⟩ := stored.served client
  obtain ⟨leader, leaderClient, wrote⟩ := written
  have sameHeaders : headers = snapshot.headers :=
    copied headers (by rw [returned]; rfl)
  subst sameHeaders
  refine ⟨leader.log.body, ?_, ?_⟩
  · exact
      ⟨source, leader, sourceEq, leaderClient,
        wrote.key.trans sameKey, wrote.ended, wrote.headers, rfl,
        ExactDelivery.serveHit wrote.headers wrote.ended⟩
  · intro read unreleased fetched
    rw [wrote.body]
    cases fragment with
    | false =>
        have empty := unreleased rfl
        rw [length, List.length_eq_zero_iff] at empty
        rw [empty]
        simpa [System.hitBody] using fetched.symm
    | true =>
        unfold System.hitBody at fetched
        cases found : world.monitor.cache.entryAt lookup.entry with
        | none =>
            simp [found] at fetched
        | some entry =>
            simp only [found, Except.ok.injEq] at fetched
            obtain ⟨sameAddr, position, resident⟩ :=
              entryAt_eq_some found
            have same :=
              stored.unchanged client snapshotEq resident sameAddr
            rw [← fetched, length, ← same.body, List.take_length]

/-- What hits return in a state of a run. -/
structure HitsReturn (world : World) : Prop where
  latest :
    ∀ {stream : StreamId} {key : Key} {next : World}
        {lookup : HitLookup},
      world.step (.move stream (.lookup key)) = .ok next →
      next.clients[stream]? = some (.hit lookup) →
        lookup.key = key ∧
          lookup.source = world.history.lastEnded key
  whole :
    ∀ {stream : StreamId} {lookup : HitLookup}
        {headers : ResponseHeaderMap} {fragment : Bool},
      world.clients[stream]? = some (.hit lookup) →
      lookup.stage = .served headers fragment →
        ∃ body,
          world.LastResponse lookup headers body ∧
            ∀ read,
              Unreleased lookup fragment →
              System.hitBody world lookup fragment = .ok read →
                read = body

theorem hitsReturn_of_reachable
    (reachable :
      Reachable step (create capacity slotCount dispatchers)
        (LeadersCall Log.contract) world) :
    world.HitsReturn := by
  refine
    { latest := ?_
      whole := lastResponse_of_returned reachable }
  intro stream key next lookup stepped client
  cases step_effect stepped with
  | lookupHit looker free mapped read =>
      rw [get_update looker, if_pos rfl, Option.some.injEq,
        Client.hit.injEq] at client
      rw [← client]
      exact ⟨rfl, rfl⟩
  | lookupLead looker free unmapped missing =>
      have found := Table.getElem?_set_of_some looker
      simp [update, found] at client
  | lookupFollow looker free unmapped present headersFirst =>
      have found := Table.getElem?_set_of_some looker
      simp [update, found] at client

/-- The fragment of a returned hit can be read until it is released. -/
theorem hitBody_of_bounded
    (reachable :
      Reachable step (create capacity slotCount dispatchers)
        HitsBounded world)
    {stream : StreamId} {lookup : HitLookup}
    {headers : ResponseHeaderMap} {fragment : Bool}
    (client : world.clients[stream]? = some (.hit lookup))
    (returned : lookup.stage = .served headers fragment) :
    ∃ read, System.hitBody world lookup fragment = .ok read := by
  cases fragment with
  | false =>
      exact ⟨[], rfl⟩
  | true =>
      have refers : lookup.stage.refers = true := by
        rw [returned]
        rfl
      have pinned := pinned_of_reachable reachable
      have wellFormed := wellFormed_of_reachable reachable
      obtain ⟨position, entry, _, _, _, resident, sameAddr, _⟩ :=
        pinned.held client refers
      have found := wellFormed.entryAt_of_resident resident
      rw [sameAddr] at found
      exact ⟨entry.body.take lookup.bodyLength, by
        simp [System.hitBody, found]⟩

end Reachable

end World

/-- Only a release leaves a nonempty body without its fragment. -/
theorem World.empty_of_no_fragment
    {world next : World} {id : StreamId} {move : World.Move}
    {lookup : HitLookup} {headers : ResponseHeaderMap}
    (stepped : world.step (.move id move) = .ok next)
    (notRelease : move ≠ .release)
    (client : next.clients[id]? = some (.hit lookup))
    (returned : lookup.stage = .served headers false) :
    lookup.bodyLength = 0 := by
  obtain ⟨old, new, _, clients, moved⟩ := World.move_clients stepped
  rw [clients, if_pos rfl, Option.some.injEq] at client
  subst client
  cases moved with
  | hit _ pinned =>
      rw [pinned] at returned
      simp at returned
  | hitWent _ handedOut =>
      rcases handedOut headers returned with released | empty
      · exact absurd released notRelease
      · exact empty

namespace System

variable {system next : System}

/-- A body is read before its fragment is released, and what a filter has sent
for a hit is the last response. -/
structure Served (system : System) : Prop where
  undecided :
    ∀ {id : StreamId} {stream : Stream} {lookup : HitLookup}
        {endStream : Bool} {headers : ResponseHeaderMap},
      system.streams[id]? = some stream →
      system.world.clients[id]? = some (.hit lookup) →
      stream.request = .deciding endStream →
      lookup.stage = .served headers false →
        lookup.bodyLength = 0
  sent :
    ∀ {id : StreamId} {stream : Stream},
      system.streams[id]? = some stream →
      stream.filter.role = .cached →
        ∃ lookup headers body,
          system.world.clients[id]? = some (.hit lookup) ∧
            system.world.LastResponse lookup headers body ∧
              stream.sent = RingCacheFilter.serveHit headers body

theorem create_served
    (capacity : UInt64) (slotCount : Nat) (requests : List Request) :
    (create capacity slotCount requests).Served := by
  refine { undecided := ?_, sent := ?_ }
  · intro id stream lookup endStream headers found _ deciding
    obtain ⟨host, path, rfl⟩ := create_stream found
    simp at deciding
  · intro id stream found cached
    obtain ⟨host, path, rfl⟩ := create_stream found
    simp at cached

/-- A callback other than the release of a fragment keeps what is undecided. -/
theorem Served.undecided_callback
    (served : system.Served)
    {id : StreamId} {stream after : Stream} {callback : Callback}
    {world : World} {lookup : HitLookup} {endStream : Bool}
    {headers : ResponseHeaderMap}
    (effect : CallbackEffect system id stream callback after world)
    (found : system.streams[id]? = some stream)
    (client : world.clients[id]? = some (.hit lookup))
    (deciding : after.request = .deciding endStream)
    (returned : lookup.stage = .served headers false) :
    lookup.bodyLength = 0 := by
  cases effect with
  | unkeyed callable awaiting built =>
      exact absurd deciding (RequestStage.after_ne_deciding _ _)
  | hit callable awaiting built looked looker =>
      exact
        World.empty_of_no_fragment looked (by simp) client returned
  | lead callable awaiting fresh built looked looker =>
      exact absurd deciding (RequestStage.after_ne_deciding _ _)
  | follow callable awaiting fresh built looked looker =>
      exact absurd deciding (RequestStage.after_ne_deciding _ _)
  | serve wasDeciding hitClient stage read =>
      exact absurd deciding (RequestStage.after_ne_deciding _ _)
  | decodeData callable receiving =>
      exact absurd deciding (RequestStage.after_ne_deciding _ _)
  | decodeTrailers callable receiving =>
      simp at deciding
  | pass callable origin ordered =>
      exact served.undecided found client deciding returned
  | publish callable origin leads ordered calls stepped =>
      exact
        World.empty_of_no_fragment stepped (by simp) client returned
  | cancel callable follows notDone stepped =>
      exact
        World.empty_of_no_fragment stepped (by simp) client returned
  | destroy callable keeps =>
      exact served.undecided found client deciding returned
  | proceed permitted stepped =>
      refine
        World.empty_of_no_fragment stepped ?_ client returned
      intro released
      subst released
      have stillDeciding : stream.request = .deciding endStream :=
        deciding
      simp [proceeds, stillDeciding] at permitted

/-- A filter that has served a hit had served it before, or serves it now. -/
theorem CallbackEffect.cached
    {id : StreamId} {stream after : Stream} {callback : Callback}
    {world : World}
    (effect : CallbackEffect system id stream callback after world)
    (cached : after.filter.role = .cached) :
    (stream.filter.role = .cached ∧ after.sent = stream.sent) ∨
      ∃ (endStream : Bool) (hit : HitLookup)
          (headers : ResponseHeaderMap) (fragment : Bool) (body : Bytes),
        stream.request = .deciding endStream ∧
          system.world.clients[id]? = some (.hit hit) ∧
            hit.stage = .served headers fragment ∧
              hitBody system.world hit fragment = .ok body ∧
                world = system.world ∧
                  after.sent =
                    RingCacheFilter.serveHit headers body := by
  cases effect with
  | unkeyed callable awaiting built =>
      rw [(RingCacheFilter.buildKey_eq built).1 rfl] at cached
      exact Or.inl ⟨cached, rfl⟩
  | hit callable awaiting built looked client =>
      have sameRole := (RingCacheFilter.buildKey_eq built).2.1
      exact Or.inl ⟨sameRole.symm.trans cached, rfl⟩
  | lead callable awaiting fresh built looked client =>
      simp at cached
  | follow callable awaiting fresh built looked client =>
      simp at cached
  | serve deciding client stage read =>
      exact
        Or.inr ⟨_, _, _, _, _, deciding, client, stage, read, rfl, rfl⟩
  | decodeData callable receiving =>
      exact Or.inl ⟨cached, rfl⟩
  | decodeTrailers callable receiving =>
      exact Or.inl ⟨cached, rfl⟩
  | pass callable origin ordered =>
      exact Or.inl ⟨by simpa using cached, rfl⟩
  | publish callable origin leads ordered calls stepped =>
      exact Or.inl ⟨by simpa using cached, rfl⟩
  | cancel callable follows notDone stepped =>
      exact Or.inl ⟨cached, rfl⟩
  | destroy callable keeps =>
      exact Or.inl ⟨cached, rfl⟩
  | proceed permitted stepped =>
      exact Or.inl ⟨cached, rfl⟩

/-- What has been sent stays the last response. -/
theorem Served.sent_kept
    {action : Action} (served : system.Served) (matched : system.Matched)
    (effect : Effect system action next)
    {id : StreamId} {stream : Stream}
    (found : system.streams[id]? = some stream)
    (cached : stream.filter.role = .cached) :
    ∃ lookup headers body,
      next.world.clients[id]? = some (.hit lookup) ∧
        next.world.LastResponse lookup headers body ∧
          stream.sent = RingCacheFilter.serveHit headers body := by
  obtain ⟨lookup, headers, body, client, response, sentEq⟩ :=
    served.sent found cached
  rcases effect.world_step matched with
    unchanged | ⟨lower, stepped, contract⟩
  · rw [unchanged]
    exact ⟨lookup, headers, body, client, response, sentEq⟩
  · obtain ⟨stage, later⟩ := World.hit_kept stepped client
    have laterResponse := response.step stepped contract stage
    exact ⟨_, headers, body, later, laterResponse, sentEq⟩

theorem Served.step
    {action : Action} (served : system.Served) (matched : system.Matched)
    (returns :
      ∀ {id : StreamId} {lookup : HitLookup}
          {headers : ResponseHeaderMap} {fragment : Bool},
        system.world.clients[id]? = some (.hit lookup) →
        lookup.stage = .served headers fragment →
          ∃ body,
            system.world.LastResponse lookup headers body ∧
              ∀ read,
                World.Unreleased lookup fragment →
                hitBody system.world lookup fragment = .ok read →
                  read = body)
    (effect : Effect system action next) :
    next.Served := by
  have original := effect
  cases effect with
  | @callback id stream after _ world found effect =>
      obtain ⟨client, clients, _⟩ := effect.fits matched found
      refine { undecided := ?_, sent := ?_ }
      · intro other later lookup endStream headers laterFound
          laterClient deciding returned
        rcases update_cases found laterFound with
          ⟨rfl, rfl⟩ | ⟨different, before⟩
        · exact
            served.undecided_callback effect found laterClient deciding
              returned
        · have sameClient : world.clients[other]? = _ := laterClient
          rw [clients, if_neg different] at sameClient
          exact served.undecided before sameClient deciding returned
      · intro other later laterFound cached
        rcases update_cases found laterFound with
          ⟨rfl, rfl⟩ | ⟨different, before⟩
        · rcases effect.cached cached with ⟨wasCached, sameSent⟩ |
            ⟨endStream, hit, headers, fragment, body, deciding,
              hitClient, stage, read, rfl, sentEq⟩
          · rw [sameSent]
            exact served.sent_kept matched original found wasCached
          · obtain ⟨whole, response, reads⟩ := returns hitClient stage
            have unreleased : World.Unreleased hit fragment := by
              intro noFragment
              subst noFragment
              exact served.undecided found hitClient deciding stage
            have same := reads body unreleased read
            subst same
            exact ⟨hit, headers, body, hitClient, response, sentEq⟩
        · exact served.sent_kept matched original before cached
  | run stepped =>
      refine { undecided := ?_, sent := ?_ }
      · intro id stream lookup endStream headers found client
        simp only [(World.run_frame stepped).1] at client
        exact served.undecided found client
      · intro id stream found cached
        exact served.sent_kept matched original found cached

section Reachable

variable {capacity : UInt64} {slotCount : Nat}
variable {requests : List Request}
variable {allowed : System → Action → System → Prop}

theorem served_of_reachable
    (reachable :
      Reachable step (create capacity slotCount requests) allowed
        system) :
    system.Served := by
  refine
    invariant_of_effects (create_served capacity slotCount requests)
      (fun served => ⟨served.undecided, served.sent⟩) ?_ reachable
  intro before after action reached served effect
  have matched := matched_of_reachable reached
  have lower := world_reachable reached
  exact
    served.step matched (World.lastResponse_of_returned lower) effect

end Reachable

/-- In every run in which leaders keep their call contract, a lookup that hits
returns the whole response of the leader of its key that most recently ended
its stream, and reads it unless more hits are outstanding than pins can count.
A filter that has served a hit has sent exactly that response. -/
theorem hitServesLastResponse
    (capacity : UInt64) (slotCount : Nat) :
    (∀ (dispatchers : List DispatcherId) (world : World),
        Reachable World.step
            (World.create capacity slotCount dispatchers)
            (World.LeadersCall Log.contract) world →
          world.HitsReturn) ∧
      (∀ (dispatchers : List DispatcherId) (world : World),
        Reachable World.step
            (World.create capacity slotCount dispatchers)
            World.HitsBounded world →
          ∀ (stream : StreamId) (lookup : HitLookup)
              (headers : ResponseHeaderMap) (fragment : Bool),
            world.clients[stream]? = some (.hit lookup) →
            lookup.stage = .served headers fragment →
              ∃ read, hitBody world lookup fragment = .ok read) ∧
        ∀ (requests : List Request) (system : System),
          Reachable step (create capacity slotCount requests)
              (fun _ _ _ => True) system →
            ∀ (id : StreamId) (stream : Stream),
              system.streams[id]? = some stream →
              stream.filter.role = .cached →
                ∃ lookup headers body,
                  system.world.clients[id]? = some (.hit lookup) ∧
                    lookup.key = stream.filter.key ∧
                      system.world.LastResponse lookup headers body ∧
                        stream.sent =
                          RingCacheFilter.serveHit headers body := by
  refine ⟨?_, ?_, ?_⟩
  · intro dispatchers world reachable
    exact World.hitsReturn_of_reachable reachable
  · intro dispatchers world reachable stream lookup headers fragment
      client returned
    exact World.hitBody_of_bounded reachable client returned
  · intro requests system reachable id stream found cached
    have served := served_of_reachable reachable
    have matched := matched_of_reachable reachable
    obtain ⟨lookup, headers, body, client, response, sentEq⟩ :=
      served.sent found cached
    obtain ⟨present, presentEq, fits⟩ := matched.client found
    rw [client, Option.some.injEq] at presentEq
    subst presentEq
    exact
      ⟨lookup, headers, body, client, fits.2.symm, response, sentEq⟩

/-- A response is fetched in two chunks, cached and then served to a second
stream. -/
def hitRun : List Action :=
  [.callback 0 (.decodeHeaders true),
    .callback 0 (.encode true (.headers [([5], [6])] false)),
    .callback 0 (.proceed .return_),
    .callback 0 (.encode true (.data [7] false)),
    .callback 0 (.proceed .return_),
    .callback 0 (.encode true (.data [8] true)),
    .callback 0 (.proceed .scan), .callback 0 (.proceed .scan),
    .callback 0 (.proceed .finish), .callback 0 (.proceed .return_),
    .callback 1 (.decodeHeaders true),
    .callback 1 (.proceed .copyHeaders),
    .callback 1 (.proceed .handOut), .callback 1 .serve]

theorem hitServesLastResponse_hitRun :
    ∃ system stream,
      checkedRun step (fun _ _ _ => true)
            (create 16 1 [⟨0, [1], [2]⟩, ⟨1, [1], [2]⟩]) hitRun =
          some system ∧
        system.streams[1]? = some stream ∧
          stream.sent =
              [.encodeHeaders [([5], [6])] false .hit,
                .encodeData [7, 8] true] ∧
            ∃ lookup headers body,
              system.world.clients[1]? = some (.hit lookup) ∧
                lookup.key = [1, 47, 47, 47, 2] ∧
                  system.world.LastResponse lookup headers body ∧
                    stream.sent =
                      RingCacheFilter.serveHit headers body := by
  refine ⟨_, _, rfl, rfl, rfl, ?_⟩
  exact
    (hitServesLastResponse 16 1).2.2
      [⟨0, [1], [2]⟩, ⟨1, [1], [2]⟩] _
      (Reachable.of_checkedRun (fun _ _ _ _ => trivial)
        Reachable.start
        (rfl :
          checkedRun step (fun _ _ _ => true)
              (create 16 1 [⟨0, [1], [2]⟩, ⟨1, [1], [2]⟩]) hitRun =
            some _))
      1 _ rfl rfl

end System

end RingCache

import RingCache.Filter.Matching

/-!
# The end of an upstream response

A response may end in `encodeHeaders`, in `encodeData` or in `encodeTrailers`.
The first two publish `end_stream`; the third publishes nothing.  So a fetch is
finished when its response has been encoded to the end exactly if the response
has no trailers.
-/

namespace RingCache

open Transition RingBufferCache

/-- Whoever has ended or started a response has published its headers. -/
theorem ResponseStage.Logs.headers
    {trailers : Bool} {log : Log}
    (logs : (ResponseStage.complete trailers).Logs log)
    (headersFirst : log.headers? = none → log = []) :
    log.headers?.isSome = true := by
  cases trailers with
  | true =>
      exact logs.1
  | false =>
      have ended : log.ended = true := logs
      by_contra missing
      have empty := headersFirst (by simpa using missing)
      rw [empty] at ended
      simp [Log.ended] at ended

/-- What a response has published when it is complete. -/
theorem ResponseStage.Logs.ended
    {trailers : Bool} {log : Log}
    (logs : (ResponseStage.complete trailers).Logs log) :
    log.ended = !trailers := by
  cases trailers with
  | true =>
      exact logs.2
  | false =>
      exact logs

namespace System

variable {system : System}

/-- The end-of-stream events that have been posted to a follower: those
executed on its callbacks and those queued in its dispatcher. -/
def endsPosted
    (world : World) (stream : StreamId) (follower : Follower) : Nat :=
  (world.delivered stream ++
      World.eventsFor follower.waiter
        (world.queues follower.waiter.dispatcher)).countP
    Event.endStream

/-- The fetch of a leader is finished: its inflight response is gone, and every
follower that has joined it and has not been cancelled has been posted one
end-of-stream event. -/
structure FetchFinished (system : System) (id : StreamId) (key : Key) :
    Prop where
  gone :
    system.world.history.lastLeader key = some id →
      system.world.monitor.cache.inflightMap key = none
  ended :
    ∀ {stream : StreamId} {follower : Follower},
      system.world.clients[stream]? = some (.follower follower) →
      follower.leader = some id →
      system.world.cancelled follower.waiter.addr = false →
        endsPosted system.world stream follower = 1

section Reachable

variable {capacity : UInt64} {slotCount : Nat}
variable {requests : List Request}
variable {allowed : System → Action → System → Prop}

/-- A leader outside of a publish that has ended its response has finished its
fetch. -/
theorem fetchFinished_of_ended
    (reachable :
      Reachable step (create capacity slotCount requests) allowed
        system)
    {id : StreamId} {leader : Leader}
    (client : system.world.clients[id]? = some (.leader leader))
    (idle : leader.call = .idle)
    (published : leader.log.headers?.isSome = true)
    (ended : leader.log.ended = true) :
    system.FetchFinished id leader.key := by
  have lower := world_reachable reachable
  have orderly := World.orderly_of_contract lower
  refine { gone := ?_, ended := ?_ }
  · intro last
    cases present :
        system.world.monitor.cache.inflightMap leader.key with
    | none =>
        rfl
    | some inflight =>
        obtain ⟨owner, unfinished, ownerLast, ownerClient, _, open_⟩ :=
          (World.singleFlight_of_reachable orderly).owner present
        rw [last, Option.some.injEq] at ownerLast
        subst ownerLast
        rw [client, Option.some.injEq, Client.leader.injEq]
          at ownerClient
        subst ownerClient
        simp [Leader.unfinished, ended, idle] at open_
  · intro stream follower follows joined live
    have exact :=
      (World.delivers_of_reachable lower).exact follows live joined
        client
    have address :=
      (World.routed_of_reachable orderly).waiter_addr follows
    unfold World.receives at exact
    rw [address.2, idle] at exact
    have nothingPending :
        World.eventsFor follower.waiter Call.idle.pending = [] :=
      Mail.contentsFor_nil
    rw [nothingPending, List.append_nil] at exact
    exact exact.countP_endStream ended published

/-- When the last callback of a response has returned to the host, the fetch of
its leader is finished exactly if the response has no trailers. -/
theorem fetchFinished_iff_noTrailers
    (reachable :
      Reachable step (create capacity slotCount requests)
        (fun _ _ _ => True) system)
    (id : StreamId) (stream : Stream) (trailers : Bool)
    (found : system.streams[id]? = some stream)
    (leads : stream.filter.role = .leader)
    (complete : stream.response = .complete trailers)
    (returned : system.busy id = false) :
    system.FetchFinished id stream.filter.key ↔ trailers = false := by
  have orderly :=
    World.orderly_of_contract (world_reachable reachable)
  obtain ⟨leader, client, sameKey, logs, _⟩ :=
    (matched_of_reachable reachable).leader found leads
  rw [complete] at logs
  rw [sameKey]
  have ended := logs.ended
  constructor
  · intro finished
    by_contra hasTrailers
    have withTrailers : trailers = true := by
      simpa using hasTrailers
    have notEnded : leader.log.ended = false := by
      rw [ended, withTrailers]
      rfl
    obtain ⟨⟨inflight, present⟩, last⟩ :=
      (World.singleFlight_of_reachable orderly).owned client
        (Leader.unfinished_of_not_ended notEnded)
    rw [finished.gone last] at present
    simp at present
  · intro noTrailers
    have idle : leader.call = .idle := by
      simpa [System.busy, client] using returned
    have published :=
      logs.headers
        ((World.spooled_of_reachable orderly).headersFirst client)
    rw [noTrailers] at ended
    exact
      fetchFinished_of_ended reachable client idle published ended

end Reachable

/-- Two followers join at different times, and the response ends with data. -/
def dataEndedRun : List Action :=
  [.callback 0 (.decodeHeaders true), .callback 1 (.decodeHeaders true),
    .callback 0 (.encode true (.headers [([5], [6])] false)),
    .callback 0 (.proceed .post), .callback 0 (.proceed .return_),
    .callback 2 (.decodeHeaders true),
    .callback 0 (.encode true (.data [7] true)),
    .callback 0 (.proceed .scan), .callback 0 (.proceed .scan),
    .callback 0 (.proceed .finish), .callback 0 (.proceed .post),
    .callback 0 (.proceed .post), .callback 0 (.proceed .return_),
    .run 1]

theorem fetchFinished_iff_noTrailers_dataEndedRun :
    ∃ system stream,
      checkedRun step (fun _ _ _ => true)
            (create 16 1
              [⟨0, [1], [2]⟩, ⟨1, [1], [2]⟩, ⟨2, [1], [2]⟩])
            dataEndedRun =
          some system ∧
        system.streams[0]? = some stream ∧
          stream.response = .complete false ∧
            system.FetchFinished 0 stream.filter.key := by
  refine ⟨_, _, rfl, rfl, rfl, ?_⟩
  refine
    (fetchFinished_iff_noTrailers
      (Reachable.of_checkedRun (fun _ _ _ _ => trivial)
        Reachable.start
        (rfl :
          checkedRun step (fun _ _ _ => true)
              (create 16 1
                [⟨0, [1], [2]⟩, ⟨1, [1], [2]⟩, ⟨2, [1], [2]⟩])
              dataEndedRun =
            some _))
      0 _ false rfl rfl rfl rfl).mpr ?_
  rfl

/-- The response ends with trailers. -/
def trailersRun : List Action :=
  [.callback 0 (.decodeHeaders true), .callback 1 (.decodeHeaders true),
    .callback 0 (.encode true (.headers [([5], [6])] false)),
    .callback 0 (.proceed .post), .callback 0 (.proceed .return_),
    .callback 0 (.encode true (.data [7] false)),
    .callback 0 (.proceed .post), .callback 0 (.proceed .return_),
    .callback 0 (.encode true .trailers), .run 1, .run 1]

theorem fetchUnfinished_trailersRun :
    ∃ system stream,
      Reachable step
          (create 16 1 [⟨0, [1], [2]⟩, ⟨1, [1], [2]⟩])
          (fun _ _ _ => True) system ∧
        system.streams[0]? = some stream ∧
          stream.filter.role = .leader ∧
            stream.response = .complete true ∧
              system.busy 0 = false ∧
                (system.world.monitor.cache.inflightMap
                    stream.filter.key).isSome =
                  true ∧
                  endsPosted system.world 1
                      { key := stream.filter.key
                        waiter := World.waiterOf 1 1
                        leader := some 0 } =
                    0 ∧
                    ¬ system.FetchFinished 0 stream.filter.key := by
  have run :
      ∃ system stream,
        checkedRun step (fun _ _ _ => true)
              (create 16 1 [⟨0, [1], [2]⟩, ⟨1, [1], [2]⟩])
              trailersRun =
            some system ∧
          system.streams[0]? = some stream ∧
            stream.filter.role = .leader ∧
              stream.response = .complete true ∧
                system.busy 0 = false ∧
                  (system.world.monitor.cache.inflightMap
                      stream.filter.key).isSome =
                    true ∧
                    endsPosted system.world 1
                        { key := stream.filter.key
                          waiter := World.waiterOf 1 1
                          leader := some 0 } =
                      0 ∧
                      system.world.history.lastLeader
                          stream.filter.key =
                        some 0 :=
    ⟨_, _, rfl, rfl, rfl, rfl, rfl, rfl, rfl, rfl⟩
  obtain ⟨system, stream, ran, found, leads, complete, returned,
    present, silent, last⟩ := run
  refine
    ⟨system, stream,
      Reachable.of_checkedRun (fun _ _ _ _ => trivial) Reachable.start
        ran,
      found, leads, complete, returned, present, silent, ?_⟩
  intro finished
  rw [finished.gone last] at present
  simp at present

end System

end RingCache

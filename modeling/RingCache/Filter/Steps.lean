import RingCache.Filter.Basic
import RingCache.Streams.Delivery

/-!
# What each callback can do

`System.CallbackEffect` lists the callbacks on the filter of a stream with the
facts that hold before each and the stream and the cache after it, and
`System.Effect` adds the runs of closures.  A run in which the host destroys
the stream is a run and a callback after it, but for the events that come late;
`System.Nested` says so.  `System.step_cases` is the only proof that unfolds
the step function of the host.  `Client.Moved` says the same of the client of a
stream, as far as the host can see it.
-/

namespace RingCache

open Transition RingBufferCache

/-! ## What a step of a stream changes -/

/-- How the client of a stream changes in a step of that stream. -/
inductive Client.Moved : Client → World.Move → Client → Prop
  | hit {dispatcher : DispatcherId} {key : Key} {lookup : HitLookup} :
      lookup.key = key →
      lookup.stage = .pinned →
      Moved (.start dispatcher) (.lookup key) (.hit lookup)
  | led {dispatcher : DispatcherId} {key : Key} :
      Moved (.start dispatcher) (.lookup key)
        (.leader { key := key, log := [], call := .idle })
  | followed
      {dispatcher : DispatcherId} {key : Key} {follower : Follower} :
      follower.key = key →
      Moved (.start dispatcher) (.lookup key) (.follower follower)
  | hitWent {hit : HitLookup} {stage : HitStage} {move : World.Move} :
      (∀ key, move ≠ .lookup key) →
      (∀ headers,
        stage = .served headers false →
          move = .release ∨ hit.bodyLength = 0) →
      Moved (.hit hit) move (.hit { hit with stage := stage })
  | published {leader : Leader} {call : Publish} {nextCall : Call} :
      nextCall ≠ .idle →
      Moved (.leader leader) (.publish call)
        (.leader
          { leader with
            log := leader.log ++ [call], call := nextCall })
  | leaderWent
      {leader : Leader} {nextCall : Call} {move : World.Move} :
      leader.call ≠ .idle →
      (∀ key, move ≠ .lookup key) →
      (∀ call, move ≠ .publish call) →
      Moved (.leader leader) move
        (.leader { leader with call := nextCall })
  | followerWent {follower : Follower} {move : World.Move} :
      (∀ key, move ≠ .lookup key) →
      Moved (.follower follower) move (.follower follower)

namespace World

variable {world next : World}

/-- A step of a stream changes its own client only. -/
theorem move_clients
    {id : StreamId} {move : Move}
    (stepped : world.step (.move id move) = .ok next) :
    ∃ old new,
      world.clients[id]? = some old ∧
        (∀ other : StreamId,
          next.clients[other]? =
            if other = id then some new else world.clients[other]?) ∧
          Client.Moved old move new := by
  cases step_effect stepped with
  | lookupHit client free mapped read =>
      exact
        ⟨_, _, client, Table.getElem?_set_of_some client _,
          .hit rfl rfl⟩
  | lookupLead client free unmapped missing =>
      exact ⟨_, _, client, Table.getElem?_set_of_some client _, .led⟩
  | lookupFollow client free unmapped present headersFirst =>
      exact
        ⟨_, _, client, Table.getElem?_set_of_some client _,
          .followed rfl⟩
  | copyHeaders client stage read =>
      exact
        ⟨_, _, client, Table.getElem?_set_of_some client _,
          .hitWent (by simp) (by simp)⟩
  | handOutEmpty client stage empty read =>
      exact
        ⟨_, _, client, Table.getElem?_set_of_some client _,
          .hitWent (by simp) (fun _ _ => Or.inr empty)⟩
  | handOutBody client stage nonempty =>
      exact
        ⟨_, _, client, Table.getElem?_set_of_some client _,
          .hitWent (by simp) (by simp)⟩
  | release client stage read =>
      exact
        ⟨_, _, client, Table.getElem?_set_of_some client _,
          .hitWent (by simp) (fun _ _ => Or.inl rfl)⟩
  | publishLost client idle free missing =>
      exact
        ⟨_, _, client, Table.getElem?_set_of_some client _,
          .published (by simp)⟩
  | publishOpen client idle free present stays =>
      exact
        ⟨_, _, client, Table.getElem?_set_of_some client _,
          .published (by simp)⟩
  | publishEnd client idle free present ends stored =>
      exact
        ⟨_, _, client, Table.getElem?_set_of_some client _,
          .published (by simp)⟩
  | @scan _ leader _ _ _ _ client finalizing running iterated =>
      have went :
          Client.Moved (.leader leader) .scan
            (.leader { leader with call := leader.call }) :=
        .leaderWent (by simp [finalizing]) (by simp) (by simp)
      exact ⟨_, _, client, Table.getElem?_eq_ite_of_some client, went⟩
  | finish client finalizing running atReturn completed =>
      exact
        ⟨_, _, client, Table.getElem?_set_of_some client _,
          .leaderWent (by simp [finalizing]) (by simp) (by simp)⟩
  | post client posting =>
      exact
        ⟨_, _, client, Table.getElem?_set_of_some client _,
          .leaderWent (by simp [posting]) (by simp) (by simp)⟩
  | return_ client posting =>
      exact
        ⟨_, _, client, Table.getElem?_set_of_some client _,
          .leaderWent (by simp [posting]) (by simp) (by simp)⟩
  | cancel client =>
      exact
        ⟨_, _, client, Table.getElem?_eq_ite_of_some client,
          .followerWent (by simp)⟩
  | removeWaiter client cancelled free =>
      exact
        ⟨_, _, client, Table.getElem?_eq_ite_of_some client,
          .followerWent (by simp)⟩

/-- Only dispatchers execute closures, and only `cancel` sets a flag. -/
theorem move_frame
    {id : StreamId} {move : Move}
    (stepped : world.step (.move id move) = .ok next) :
    next.delivered = world.delivered ∧
      ∀ addr,
        world.cancelled addr = true → next.cancelled addr = true := by
  cases step_effect stepped with
  | cancel client =>
      refine ⟨rfl, ?_⟩
      intro addr wasCancelled
      simp only [Function.update_apply]
      split
      · rfl
      · exact wasCancelled
  | _ =>
      exact ⟨rfl, fun _ wasCancelled => wasCancelled⟩

/-- A dispatcher runs a closure without a change of clients or flags. -/
theorem run_frame
    {dispatcher : DispatcherId}
    (stepped : world.step (.run dispatcher) = .ok next) :
    next.clients = world.clients ∧ next.cancelled = world.cancelled := by
  cases step_effect stepped with
  | runCancelled queued cancelled =>
      exact ⟨rfl, rfl⟩
  | run queued live =>
      exact ⟨rfl, rfl⟩

/-- A step leaves the client of a stream as it was or is a step of that
stream. -/
theorem client_step
    {action : Action} (stepped : world.step action = .ok next)
    {stream : StreamId} {old : Client}
    (client : world.clients[stream]? = some old) :
    next.clients[stream]? = some old ∨
      ∃ move new,
        action = .move stream move ∧
          next.clients[stream]? = some new ∧ old.Moved move new := by
  cases action with
  | run dispatcher =>
      rw [(run_frame stepped).1]
      exact Or.inl client
  | move id move =>
      obtain ⟨earlier, new, present, clients, moved⟩ :=
        move_clients stepped
      rw [clients]
      by_cases same : stream = id
      · subst same
        rw [client, Option.some.injEq] at present
        subst present
        exact Or.inr ⟨move, new, rfl, if_pos rfl, moved⟩
      · rw [if_neg same]
        exact Or.inl client

/-- A hit stays a hit of the same entry. -/
theorem hit_kept
    {action : Action} (stepped : world.step action = .ok next)
    {stream : StreamId} {lookup : HitLookup}
    (client : world.clients[stream]? = some (.hit lookup)) :
    ∃ stage,
      next.clients[stream]? = some (.hit { lookup with stage := stage }) := by
  rcases client_step stepped client with
    same | ⟨move, new, _, later, moved⟩
  · exact ⟨lookup.stage, same⟩
  · cases moved with
    | hitWent _ _ =>
        exact ⟨_, later⟩

/-- A follower stays the follower it is. -/
theorem follower_kept
    {action : Action} (stepped : world.step action = .ok next)
    {stream : StreamId} {follower : Follower}
    (client : world.clients[stream]? = some (.follower follower)) :
    next.clients[stream]? = some (.follower follower) := by
  rcases client_step stepped client with
    same | ⟨move, new, _, later, moved⟩
  · exact same
  · cases moved with
    | followerWent _ =>
        exact later

/-- A leader takes back nothing that it has published. -/
theorem leader_kept
    {action : Action} (stepped : world.step action = .ok next)
    {stream : StreamId} {leader : Leader}
    (client : world.clients[stream]? = some (.leader leader)) :
    ∃ later : Leader,
      next.clients[stream]? = some (.leader later) ∧
        leader.log <+: later.log := by
  rcases client_step stepped client with
    same | ⟨move, new, _, later, moved⟩
  · exact ⟨leader, same, List.prefix_refl _⟩
  · cases moved with
    | published _ =>
        exact ⟨_, later, List.prefix_append _ _⟩
    | leaderWent _ _ _ =>
        exact ⟨_, later, List.prefix_refl _⟩

/-- A follower after a step of its stream other than a lookup. -/
theorem follower_before
    {id : StreamId} {move : Move} {follower : Follower}
    (stepped : world.step (.move id move) = .ok next)
    (notLookup : ∀ key, move ≠ .lookup key)
    (client : next.clients[id]? = some (.follower follower)) :
    world.clients[id]? = some (.follower follower) := by
  obtain ⟨old, new, present, clients, moved⟩ := move_clients stepped
  rw [clients, if_pos rfl, Option.some.injEq] at client
  subst client
  cases moved with
  | followed _ =>
      exact absurd rfl (notLookup _)
  | followerWent _ =>
      exact present

/-- A leader that has ended its response publishes nothing more. -/
theorem ended_kept
    {action : Action} (stepped : world.step action = .ok next)
    (contract : LeadersCall Log.contract world action next)
    {stream : StreamId} {leader : Leader}
    (client : world.clients[stream]? = some (.leader leader))
    (ended : leader.log.ended = true) :
    ∃ call,
      next.clients[stream]? =
        some (.leader { leader with call := call }) := by
  rcases client_step stepped client with
    same | ⟨move, new, rfl, later, moved⟩
  · exact ⟨leader.call, same⟩
  · cases moved with
    | published busy =>
        have notEnded :=
          Log.not_ended_of_orderly
            (Log.orderly_of_contract
              (permits_of_leaderCalls client contract))
        rw [ended] at notEnded
        simp at notEnded
    | leaderWent _ _ _ =>
        exact ⟨_, later⟩

end World

theorem RequestStage.after_ne_awaiting (ends : Bool) :
    RequestStage.after ends ≠ .awaiting := by
  cases ends <;> simp [RequestStage.after]

theorem RequestStage.after_ne_deciding (ends endStream : Bool) :
    RequestStage.after ends ≠ .deciding endStream := by
  cases ends <;> simp [RequestStage.after]

/-- The publish call that a part of a response causes in a leader. -/
def ResponsePart.publish : ResponsePart → Option Publish
  | .headers published ends => some (.headers published ends)
  | .data chunk ends => some (.data chunk ends)
  | .trailers => none

/-- What the callback of a part does, by the role of its filter. -/
theorem RingCacheFilter.encode_eq
    (filter : RingCacheFilter) (part : ResponsePart) :
    (filter.encode part).2 =
      (filter.markDone part.endStream,
        if filter.role = .leader then part.publish else none) := by
  have sameRole :
      ∀ ends, (filter.markDone ends).role = filter.role := by
    intro ends
    cases ends <;> rfl
  cases part with
  | headers published ends =>
      by_cases leads : filter.role = .leader <;>
        simp [encode, encodeHeaders, encodePart, sameRole, leads,
          ResponsePart.endStream, ResponsePart.publish]
  | data chunk ends =>
      by_cases leads : filter.role = .leader <;>
        simp [encode, encodeData, encodePart, sameRole, leads,
          ResponsePart.endStream, ResponsePart.publish]
  | trailers =>
      simp [encode, encodeTrailers, ResponsePart.endStream,
        ResponsePart.publish, markDone]

namespace System

variable {system next : System}

/-- No callback has been made on the streams of a new system. -/
theorem create_stream
    {capacity : UInt64} {slotCount : Nat} {requests : List Request}
    {id : StreamId} {stream : Stream}
    (found :
      (create capacity slotCount requests).streams[id]? = some stream) :
    ∃ host path, stream = { host := host, path := path } := by
  have member := List.mem_of_getElem? found
  simp only [create, List.mem_map] at member
  obtain ⟨request, _, same⟩ := member
  exact ⟨request.host, request.path, same.symm⟩

/-- A stream after another or the same stream has been replaced. -/
theorem update_cases
    {id other : StreamId} {stream after found : Stream} {world : World}
    (present : system.streams[id]? = some stream)
    (later :
      (system.update id after world).streams[other]? = some found) :
    (other = id ∧ found = after) ∨
      (other ≠ id ∧ system.streams[other]? = some found) := by
  simp only [System.update] at later
  rw [Table.getElem?_set_of_some present] at later
  by_cases same : other = id
  · rw [if_pos same, Option.some.injEq] at later
    exact Or.inl ⟨same, later.symm⟩
  · rw [if_neg same] at later
    exact Or.inr ⟨same, later⟩

/-- The callbacks on the filter of one stream: the facts before each, and the
stream and the cache after it. -/
inductive CallbackEffect
    (system : System) (id : StreamId) (stream : Stream) :
    Callback → Stream → World → Prop
  | unkeyed
      {endStream : Bool} {filter : RingCacheFilter}
      (callable : system.callable id stream = true)
      (awaiting : stream.request = .awaiting)
      (built :
        stream.filter.buildKey stream.host stream.path =
          (false, filter)) :
      CallbackEffect system id stream (.decodeHeaders endStream)
        { stream with
          filter := filter
          request := RequestStage.after endStream
          forwarded := true }
        system.world
  | hit
      {endStream : Bool} {filter : RingCacheFilter} {world : World}
      {lookup : HitLookup}
      (callable : system.callable id stream = true)
      (awaiting : stream.request = .awaiting)
      (built :
        stream.filter.buildKey stream.host stream.path =
          (true, filter))
      (looked :
        system.world.step (.move id (.lookup filter.key)) = .ok world)
      (client : world.clients[id]? = some (.hit lookup)) :
      CallbackEffect system id stream (.decodeHeaders endStream)
        { stream with
          filter := filter, request := .deciding endStream }
        world
  | lead
      {endStream : Bool} {filter : RingCacheFilter} {world : World}
      {leader : Leader}
      (callable : system.callable id stream = true)
      (awaiting : stream.request = .awaiting)
      (fresh : stream.response = .notStarted)
      (built :
        stream.filter.buildKey stream.host stream.path =
          (true, filter))
      (looked :
        system.world.step (.move id (.lookup filter.key)) = .ok world)
      (client : world.clients[id]? = some (.leader leader)) :
      CallbackEffect system id stream (.decodeHeaders endStream)
        { stream with
          filter := { filter with role := .leader }
          request := RequestStage.after endStream
          forwarded := true }
        world
  | follow
      {endStream : Bool} {filter : RingCacheFilter} {world : World}
      {follower : Follower}
      (callable : system.callable id stream = true)
      (awaiting : stream.request = .awaiting)
      (fresh : stream.response = .notStarted)
      (built :
        stream.filter.buildKey stream.host stream.path =
          (true, filter))
      (looked :
        system.world.step (.move id (.lookup filter.key)) = .ok world)
      (client : world.clients[id]? = some (.follower follower)) :
      CallbackEffect system id stream (.decodeHeaders endStream)
        { stream with
          filter :=
            { filter with
              role := .follower, waiter := some follower.waiter }
          request := RequestStage.after endStream }
        world
  | serve
      {endStream : Bool} {hit : HitLookup}
      {headers : ResponseHeaderMap} {fragment : Bool} {body : Bytes}
      (deciding : stream.request = .deciding endStream)
      (client : system.world.clients[id]? = some (.hit hit))
      (stage : hit.stage = .served headers fragment)
      (read : hitBody system.world hit fragment = .ok body) :
      CallbackEffect system id stream .serve
        { stream with
          filter := { stream.filter with role := .cached, done := true }
          request := RequestStage.after endStream
          response := .complete false
          sent := RingCacheFilter.serveHit headers body }
        system.world
  | decodeData
      {endStream : Bool}
      (callable : system.callable id stream = true)
      (receiving : stream.request = .receiving) :
      CallbackEffect system id stream (.decodeData endStream)
        { stream with
          request := RequestStage.after endStream, forwarded := true }
        system.world
  | decodeTrailers
      (callable : system.callable id stream = true)
      (receiving : stream.request = .receiving) :
      CallbackEffect system id stream .decodeTrailers
        { stream with request := .received, forwarded := true }
        system.world
  | pass
      {upstream : Bool} {part : ResponsePart}
      (callable : system.callable id stream = true)
      (origin : upstream = true → stream.forwarded = true)
      (ordered :
        stream.filter.role = .leader →
          part = .trailers ∧ stream.response = .started) :
      CallbackEffect system id stream (.encode upstream part)
        { stream with
          filter := stream.filter.markDone part.endStream
          response := (stream.response.next part).getD .started }
        system.world
  | publish
      {upstream : Bool} {part : ResponsePart}
      {stage : ResponseStage} {call : Publish} {world : World}
      (callable : system.callable id stream = true)
      (origin : upstream = true → stream.forwarded = true)
      (leads : stream.filter.role = .leader)
      (ordered : stream.response.next part = some stage)
      (calls : part.publish = some call)
      (stepped :
        system.world.step (.move id (.publish call)) = .ok world) :
      CallbackEffect system id stream (.encode upstream part)
        { stream with
          filter := stream.filter.markDone part.endStream
          response := stage }
        world
  | cancel
      {world : World}
      (callable : system.callable id stream = true)
      (follows : stream.filter.role = .follower)
      (notDone : stream.filter.done = false)
      (stepped : system.world.step (.move id .cancel) = .ok world) :
      CallbackEffect system id stream .onDestroy
        { stream with destroyed := true, removing := true } world
  | destroy
      (callable : system.callable id stream = true)
      (keeps :
        stream.filter.role = .follower → stream.filter.done = true) :
      CallbackEffect system id stream .onDestroy
        { stream with destroyed := true }
        system.world
  | proceed
      {move : World.Move} {world : World}
      (permitted : proceeds stream move = true)
      (stepped : system.world.step (.move id move) = .ok world) :
      CallbackEffect system id stream (.proceed move)
        { stream with
          removing := stream.removing && move != .removeWaiter }
        world

/-- The steps of the host: a callback on one stream or the run of a closure. -/
inductive Effect (system : System) : Action → System → Prop
  | callback
      {id : StreamId} {stream after : Stream} {callback : Callback}
      {world : World}
      (found : system.streams[id]? = some stream)
      (effect :
        CallbackEffect system id stream callback after world) :
      Effect system (.callback id callback)
        (system.update id after world)
  | run
      {dispatcher : DispatcherId} {world : World}
      (stepped : system.world.step (.run dispatcher) = .ok world) :
      Effect system (.run dispatcher)
        { system with
          world := world
          late := fun id =>
            if system.destroyed id then
              system.late id ++
                (world.delivered id).drop
                  (system.world.delivered id).length
            else
              system.late id }

/-- A callback is no step or one step of its stream in the cache. -/
theorem CallbackEffect.world_move
    {id : StreamId} {stream after : Stream} {callback : Callback}
    {world : World}
    (effect : CallbackEffect system id stream callback after world) :
    world = system.world ∨
      ∃ move, system.world.step (.move id move) = .ok world := by
  cases effect with
  | hit _ _ _ looked _ =>
      exact Or.inr ⟨_, looked⟩
  | lead _ _ _ _ looked _ =>
      exact Or.inr ⟨_, looked⟩
  | follow _ _ _ _ looked _ =>
      exact Or.inr ⟨_, looked⟩
  | publish _ _ _ _ _ stepped =>
      exact Or.inr ⟨_, stepped⟩
  | cancel _ _ _ stepped =>
      exact Or.inr ⟨_, stepped⟩
  | proceed _ stepped =>
      exact Or.inr ⟨_, stepped⟩
  | _ =>
      exact Or.inl rfl

/-- A callback executes no closure and takes no cancellation back. -/
theorem CallbackEffect.frame
    {id : StreamId} {stream after : Stream} {callback : Callback}
    {world : World}
    (effect : CallbackEffect system id stream callback after world) :
    world.delivered = system.world.delivered ∧
      ∀ addr,
        system.world.cancelled addr = true →
          world.cancelled addr = true := by
  rcases effect.world_move with rfl | ⟨move, stepped⟩
  · exact ⟨rfl, fun _ wasCancelled => wasCancelled⟩
  · exact World.move_frame stepped

private theorem decodeHeaders_effect
    {id : StreamId} {stream : Stream} {endStream : Bool}
    (found : system.streams[id]? = some stream)
    (callable : system.callable id stream = true)
    (stepped : system.decodeHeaders id stream endStream = .ok next) :
    Effect system (.callback id (.decodeHeaders endStream)) next := by
  unfold decodeHeaders at stepped
  by_cases ready :
      stream.request = .awaiting ∧ stream.response = .notStarted
  · rw [if_pos ready] at stepped
    cases build : stream.filter.buildKey stream.host stream.path with
    | mk builds filter =>
        simp only [build] at stepped
        cases builds with
        | false =>
            simp only [Bool.false_eq_true, if_false] at stepped
            cases stepped
            exact
              Effect.callback found
                (CallbackEffect.unkeyed callable ready.1 build)
        | true =>
            simp only [if_true] at stepped
            obtain ⟨world, looked, returned⟩ :=
              bind_eq_ok_iff.mp stepped
            unfold resultType at returned
            cases client : world.clients[id]? with
            | none =>
                simp [client] at returned
            | some role =>
                cases role with
                | start dispatcher =>
                    simp [client] at returned
                | hit lookup =>
                    simp only [client] at returned
                    cases returned
                    exact
                      Effect.callback found
                        (CallbackEffect.hit callable ready.1 build
                          looked client)
                | leader leader =>
                    simp only [client] at returned
                    cases returned
                    exact
                      Effect.callback found
                        (CallbackEffect.lead callable ready.1 ready.2
                          build looked client)
                | follower follower =>
                    simp only [client] at returned
                    cases returned
                    exact
                      Effect.callback found
                        (CallbackEffect.follow callable ready.1 ready.2
                          build looked client)
  · rw [if_neg ready] at stepped
    simp at stepped

private theorem serve_effect
    {id : StreamId} {stream : Stream}
    (found : system.streams[id]? = some stream)
    (stepped : system.serve id stream = .ok next) :
    Effect system (.callback id .serve) next := by
  unfold serve at stepped
  split at stepped
  · next endStream hit deciding client =>
      split at stepped
      · next headers fragment stage =>
          obtain ⟨body, read, returned⟩ := bind_eq_ok_iff.mp stepped
          cases returned
          exact
            Effect.callback found
              (CallbackEffect.serve deciding client stage read)
      · simp at stepped
  · simp at stepped

private theorem encode_effect
    {id : StreamId} {stream : Stream} {upstream : Bool}
    {part : ResponsePart}
    (found : system.streams[id]? = some stream)
    (callable : system.callable id stream = true)
    (stepped : system.encode id stream upstream part = .ok next) :
    Effect system (.callback id (.encode upstream part)) next := by
  unfold encode at stepped
  by_cases stray : upstream = true ∧ stream.forwarded = false
  · rw [if_pos stray] at stepped
    simp at stepped
  · rw [if_neg stray] at stepped
    have origin : upstream = true → stream.forwarded = true := by
      intro fromUpstream
      by_contra notForwarded
      rw [Bool.not_eq_true] at notForwarded
      exact stray ⟨fromUpstream, notForwarded⟩
    by_cases disordered :
        stream.filter.role = .leader ∧ stream.response.next part = none
    · rw [if_pos disordered] at stepped
      simp at stepped
    · rw [if_neg disordered] at stepped
      have encoded := stream.filter.encode_eq part
      simp only [encoded] at stepped
      by_cases leads : stream.filter.role = .leader
      · have ordered : stream.response.next part ≠ none :=
          fun none => disordered ⟨leads, none⟩
        obtain ⟨stage, stageEq⟩ := Option.ne_none_iff_exists'.mp ordered
        rw [if_pos leads] at stepped
        cases calls : part.publish with
        | none =>
            simp only [calls] at stepped
            cases stepped
            refine
              Effect.callback found
                (CallbackEffect.pass callable origin ?_)
            intro _
            cases part with
            | headers published ends =>
                simp [ResponsePart.publish] at calls
            | data chunk ends =>
                simp [ResponsePart.publish] at calls
            | trailers =>
                refine ⟨rfl, ?_⟩
                cases response : stream.response <;>
                  simp_all [ResponseStage.next]
        | some call =>
            simp only [calls, stageEq, Option.getD_some] at stepped
            obtain ⟨world, published, returned⟩ :=
              bind_eq_ok_iff.mp stepped
            cases returned
            exact
              Effect.callback found
                (CallbackEffect.publish callable origin leads stageEq
                  calls published)
      · rw [if_neg leads] at stepped
        cases stepped
        exact
          Effect.callback found
            (CallbackEffect.pass callable origin
              (fun role => absurd role leads))

private theorem onDestroy_effect
    {id : StreamId} {stream : Stream}
    (found : system.streams[id]? = some stream)
    (callable : system.callable id stream = true)
    (stepped : system.onDestroy id stream = .ok next) :
    Effect system (.callback id .onDestroy) next := by
  unfold onDestroy at stepped
  by_cases cancels : stream.filter.onDestroy = true
  · rw [if_pos cancels] at stepped
    obtain ⟨world, cancelled, returned⟩ := bind_eq_ok_iff.mp stepped
    cases returned
    simp only [RingCacheFilter.onDestroy, Bool.and_eq_true,
      beq_iff_eq, Bool.not_eq_true'] at cancels
    exact
      Effect.callback found
        (CallbackEffect.cancel callable cancels.1 cancels.2 cancelled)
  · rw [if_neg cancels] at stepped
    cases stepped
    refine
      Effect.callback found (CallbackEffect.destroy callable ?_)
    intro follows
    simpa [RingCacheFilter.onDestroy, follows] using cancels

/-- The run of a closure in whose first call the host destroys the stream. -/
inductive Nested (system : System) : Action → System → Prop
  | intro
      {dispatcher : DispatcherId} {closure : Closure}
      {rest : List Closure} {middle gone : System}
      (queued : system.world.queues dispatcher = closure :: rest)
      (live : system.world.cancelled closure.waiter.addr = false)
      (ran : system.step (.run dispatcher) = .ok middle)
      (destroyed :
        middle.step
            (.callback closure.waiter.callbacks.stream .onDestroy) =
          .ok gone) :
      Nested system (.runDestroying dispatcher)
        (gone.receiveLate closure.waiter.callbacks.stream
          closure.calls.tail)

private theorem runDestroying_nested
    {dispatcher : DispatcherId}
    (stepped : system.runDestroying dispatcher = .ok next) :
    Nested system (.runDestroying dispatcher) next := by
  unfold runDestroying at stepped
  cases queued : system.world.queues dispatcher with
  | nil =>
      simp [queued] at stepped
  | cons closure rest =>
      simp only [queued] at stepped
      by_cases cancelled :
          system.world.cancelled closure.waiter.addr = true
      · rw [if_pos cancelled] at stepped
        simp at stepped
      · rw [if_neg cancelled] at stepped
        obtain ⟨middle, ran, called⟩ := bind_eq_ok_iff.mp stepped
        cases found :
            middle.streams[closure.waiter.callbacks.stream]? with
        | none =>
            simp [found] at called
        | some stream =>
            simp only [found] at called
            obtain ⟨gone, destroyed, returned⟩ :=
              bind_eq_ok_iff.mp called
            cases returned
            refine
              Nested.intro queued (by simpa using cancelled) ran ?_
            simp only [step, found]
            exact destroyed

theorem Nested.step_eq
    {action : Action} (nested : Nested system action next) :
    system.step action = .ok next := by
  cases nested with
  | @intro dispatcher closure rest middle gone queued live ran destroyed =>
      cases found :
          middle.streams[closure.waiter.callbacks.stream]? with
      | none =>
          simp [step, found] at destroyed
      | some stream =>
          simp only [step, found] at destroyed
          have notCancelled :
              ¬ system.world.cancelled closure.waiter.addr = true := by
            simp [live]
          simp only [step, runDestroying, queued]
          rw [if_neg notCancelled]
          refine bind_eq_ok_iff.mpr ⟨middle, ran, ?_⟩
          simp only [found]
          exact bind_eq_ok_iff.mpr ⟨gone, destroyed, rfl⟩

/-- Every step is one of the listed effects, or a run and a callback. -/
theorem step_cases
    {action : Action} (stepped : system.step action = .ok next) :
    Effect system action next ∨ Nested system action next := by
  cases action with
  | run dispatcher =>
      obtain ⟨world, ran, returned⟩ := bind_eq_ok_iff.mp stepped
      cases returned
      exact Or.inl (Effect.run ran)
  | runDestroying dispatcher =>
      exact Or.inr (runDestroying_nested stepped)
  | callback id callback =>
      refine Or.inl ?_
      rw [step] at stepped
      cases found : system.streams[id]? with
      | none =>
          simp [found] at stepped
      | some stream =>
          simp only [found] at stepped
          cases callback with
          | proceed move =>
              rw [System.callback, System.proceed] at stepped
              by_cases permitted : proceeds stream move = true
              · rw [if_pos permitted] at stepped
                obtain ⟨world, moved, returned⟩ :=
                  bind_eq_ok_iff.mp stepped
                cases returned
                exact
                  Effect.callback found
                    (CallbackEffect.proceed permitted moved)
              · rw [if_neg permitted] at stepped
                simp at stepped
          | serve =>
              exact serve_effect found stepped
          | decodeHeaders endStream =>
              rw [System.callback] at stepped
              by_cases callable : system.callable id stream = true
              · rw [if_pos callable] at stepped
                exact decodeHeaders_effect found callable stepped
              · rw [if_neg callable] at stepped
                simp at stepped
          | decodeData endStream =>
              rw [System.callback] at stepped
              by_cases ready :
                  system.callable id stream = true ∧
                    stream.request = .receiving
              · rw [if_pos ready] at stepped
                cases stepped
                exact
                  Effect.callback found
                    (CallbackEffect.decodeData ready.1 ready.2)
              · rw [if_neg ready] at stepped
                simp at stepped
          | decodeTrailers =>
              rw [System.callback] at stepped
              by_cases ready :
                  system.callable id stream = true ∧
                    stream.request = .receiving
              · rw [if_pos ready] at stepped
                cases stepped
                exact
                  Effect.callback found
                    (CallbackEffect.decodeTrailers ready.1 ready.2)
              · rw [if_neg ready] at stepped
                simp at stepped
          | encode upstream part =>
              rw [System.callback] at stepped
              by_cases callable : system.callable id stream = true
              · rw [if_pos callable] at stepped
                exact encode_effect found callable stepped
              · rw [if_neg callable] at stepped
                simp at stepped
          | onDestroy =>
              rw [System.callback] at stepped
              by_cases callable : system.callable id stream = true
              · rw [if_pos callable] at stepped
                exact onDestroy_effect found callable stepped
              · rw [if_neg callable] at stepped
                simp at stepped

theorem callback_effect
    {id : StreamId} {callback : Callback}
    (stepped : system.step (.callback id callback) = .ok next) :
    Effect system (.callback id callback) next := by
  rcases step_cases stepped with effect | nested
  · exact effect
  · cases nested

theorem run_effect
    {dispatcher : DispatcherId}
    (stepped : system.step (.run dispatcher) = .ok next) :
    Effect system (.run dispatcher) next := by
  rcases step_cases stepped with effect | nested
  · exact effect
  · cases nested

/-- A property that does not look at late events, and that callbacks and runs
of closures keep, holds along every run. -/
theorem invariant_of_effects
    {start : System} {allowed : System → Action → System → Prop}
    {property : System → Prop}
    (initial : property start)
    (late :
      ∀ {system : System} {id : StreamId} {events : List Event},
        property system → property (system.receiveLate id events))
    (preserved :
      ∀ {before after : System} {action : Action},
        Reachable step start (fun _ _ _ => True) before →
        property before →
        Effect before action after →
          property after)
    (reachable : Reachable step start allowed system) :
    property system := by
  replace reachable : Reachable step start (fun _ _ _ => True) system :=
    reachable.weaken fun _ _ _ _ => trivial
  refine reachable.invariant initial ?_
  intro before action after reached holds stepped _
  rcases step_cases stepped with effect | nested
  · exact preserved reached holds effect
  · cases nested with
    | intro queued live ran destroyed =>
        have between := preserved reached holds (run_effect ran)
        have afterRun := Reachable.next reached ran trivial
        exact
          late (preserved afterRun between (callback_effect destroyed))

end System

end RingCache

import RingCache.Filter.Lifecycle
import RingCache.Filter.Teardown
import RingCache.Streams.Agreement
import RingCache.Streams.Leadership
import RingCache.Streams.Quiescence

/-!
# Requests that wait for a leader

A follower depends on its leader.  A leader whose filter is destroyed, or whose
response ends with trailers, before it has published `end_stream` publishes
nothing more, and nobody takes its place: its key stays inflight in every
continuation of the run, every later request for the key follows that leader,
and none of its followers ever gets the end of a response.  When all leaders
end their responses, all requests are answered.
-/

namespace RingCache

open Transition RingBufferCache

theorem Log.not_ended_take
    {log : Log} (notEnded : log.ended = false) (count : Nat) :
    Log.ended (log.take count) = false := by
  unfold Log.ended at notEnded ⊢
  rw [List.any_eq_false] at notEnded ⊢
  intro call member
  exact notEnded call (List.mem_of_mem_take member)

/-! ## Streams that wait for a key -/

/-- The client has not looked up yet, has looked up another key, or follows
`owner`. -/
def Client.WaitsFor (owner : StreamId) (key : Key) : Client → Prop
  | .start _ => True
  | .hit lookup => lookup.key ≠ key
  | .leader state => state.key ≠ key
  | .follower state => state.key = key → state.leader = some owner

namespace World

variable {world next : World}

/-- While a key is inflight, the streams that look it up join its last
leader. -/
theorem waitsFor_step
    {action : Action} {owner stream : StreamId} {key : Key}
    {inflight : Inflight} {old new : Client}
    (stepped : world.step action = .ok next)
    (present : world.monitor.cache.inflightMap key = some inflight)
    (unmapped : world.monitor.cache.cacheMap key = none)
    (last : world.history.lastLeader key = some owner)
    (client : world.clients[stream]? = some old)
    (laterClient : next.clients[stream]? = some new)
    (waits : old.WaitsFor owner key) :
    new.WaitsFor owner key := by
  rcases client_step stepped client with
    same | ⟨move, moved, rfl, later, moves⟩
  · rw [same, Option.some.injEq] at laterClient
    exact laterClient ▸ waits
  · rw [later, Option.some.injEq] at laterClient
    subst laterClient
    cases moves with
    | hitWent _ _ =>
        exact waits
    | published _ =>
        exact waits
    | leaderWent _ _ _ =>
        exact waits
    | followerWent _ =>
        exact waits
    | @hit dispatcher looked lookup sameKey _ =>
        cases step_effect stepped with
        | lookupHit _ _ mapped _ =>
            intro same
            rw [← sameKey, same, unmapped] at mapped
            simp at mapped
        | lookupLead looker _ _ _ =>
            have read := Table.getElem?_set_of_some looker
            simp [update, read] at later
        | lookupFollow looker _ _ _ _ =>
            have read := Table.getElem?_set_of_some looker
            simp [update, read] at later
    | @led dispatcher looked =>
        intro same
        have missing := (missing_of_leads client stepped later).2
        rw [show looked = key from same, present] at missing
        simp at missing
    | @followed dispatcher looked follower sameKey =>
        cases step_effect stepped with
        | lookupHit looker _ _ _ =>
            rw [get_update looker, if_pos rfl] at later
            simp at later
        | lookupLead looker _ _ _ =>
            have read := Table.getElem?_set_of_some looker
            simp [update, read] at later
        | lookupFollow looker _ _ _ _ =>
            have read := Table.getElem?_set_of_some looker
            simp only [update, read, if_true, Option.some.injEq,
              Client.follower.injEq] at later
            intro same
            rw [← later] at same ⊢
            rw [show looked = key from same]
            exact last

/-- No step makes a client. -/
theorem client_before
    {action : Action} {stream : StreamId} {new : Client}
    (stepped : world.step action = .ok next)
    (laterClient : next.clients[stream]? = some new) :
    ∃ old, world.clients[stream]? = some old := by
  cases action with
  | run dispatcher =>
      rw [(run_frame stepped).1] at laterClient
      exact ⟨new, laterClient⟩
  | move id move =>
      obtain ⟨old, _, present, clients, _⟩ := move_clients stepped
      rw [clients] at laterClient
      by_cases same : stream = id
      · exact ⟨old, same ▸ present⟩
      · rw [if_neg same] at laterClient
        exact ⟨new, laterClient⟩

end World

/-! ## Abandoned keys -/

/-- A leader that has not ended its response and will publish nothing more:
its filter has been destroyed, or its response has ended with trailers. -/
structure Stream.Abandoned (stream : Stream) : Prop where
  leads : stream.filter.role = .leader
  notDone : stream.filter.done = false
  silent : stream.destroyed = true ∨ stream.response = .complete true

namespace System

variable {system next : System}

/-- No callback lets an abandoned leader publish. -/
theorem CallbackEffect.abandoned
    {id : StreamId} {stream after : Stream} {callback : Callback}
    {world : World} {leader : Leader}
    (effect : CallbackEffect system id stream callback after world)
    (abandoned : stream.Abandoned)
    (client : system.world.clients[id]? = some (.leader leader)) :
    after.Abandoned ∧ after.filter.key = stream.filter.key ∧
      ∃ call,
        world.clients[id]? =
          some (.leader { leader with call := call }) := by
  have same :
      ∃ call,
        system.world.clients[id]? =
          some (.leader { leader with call := call }) :=
    ⟨leader.call, client⟩
  have lookedUp :
      ∀ {key : Key} {later : World},
        system.world.step (.move id (.lookup key)) ≠ .ok later := by
    intro key later stepped
    obtain ⟨old, new, present, _, moves⟩ := World.move_clients stepped
    rw [client, Option.some.injEq] at present
    subst present
    cases moves with
    | leaderWent _ notLookup _ =>
        exact notLookup key rfl
  have notCalled :
      system.callable id stream = true →
        stream.response = .complete true := by
    intro callable
    rcases abandoned.silent with gone | trailed
    · rw [not_destroyed_of_callable callable] at gone
      simp at gone
    · exact trailed
  cases effect with
  | unkeyed callable awaiting built =>
      have sameFilter := (RingCacheFilter.buildKey_eq built).1 rfl
      subst sameFilter
      exact
        ⟨⟨abandoned.leads, abandoned.notDone, abandoned.silent⟩, rfl,
          same⟩
  | hit callable awaiting built looked found =>
      exact absurd looked lookedUp
  | lead callable awaiting fresh built looked found =>
      exact absurd looked lookedUp
  | follow callable awaiting fresh built looked found =>
      exact absurd looked lookedUp
  | serve deciding found stage read =>
      rw [client] at found
      simp at found
  | decodeData callable receiving =>
      exact
        ⟨⟨abandoned.leads, abandoned.notDone, abandoned.silent⟩, rfl,
          same⟩
  | decodeTrailers callable receiving =>
      exact
        ⟨⟨abandoned.leads, abandoned.notDone, abandoned.silent⟩, rfl,
          same⟩
  | pass callable origin ordered =>
      have started := (ordered abandoned.leads).2
      rw [notCalled callable] at started
      simp at started
  | publish callable origin leads ordered calls stepped =>
      rw [notCalled callable] at ordered
      simp [ResponseStage.next] at ordered
  | cancel callable follows notDone stepped =>
      rw [abandoned.leads] at follows
      simp at follows
  | destroy callable keeps =>
      exact
        ⟨⟨abandoned.leads, abandoned.notDone, Or.inl rfl⟩, rfl, same⟩
  | proceed permitted stepped =>
      refine
        ⟨⟨abandoned.leads, abandoned.notDone, abandoned.silent⟩, rfl, ?_⟩
      rcases World.client_step stepped client with
        unchanged | ⟨move, moved, sameAction, later, moves⟩
      · exact ⟨leader.call, unchanged⟩
      · cases sameAction
        cases moves with
        | published _ =>
            exact absurd rfl (not_publish_of_proceeds permitted _)
        | leaderWent _ _ _ =>
            exact ⟨_, later⟩

/-- The state of an abandoned key in a continuation of the run: the leader is
as it was left, and streams that had not looked up when it was left wait for
it if they ask for its key. -/
structure Starved
    (system : System) (id : StreamId) (leader : Leader)
    (later : System) : Prop where
  leads :
    ∃ (stream : Stream) (call : Call),
      later.streams[id]? = some stream ∧ stream.Abandoned ∧
        later.world.clients[id]? =
          some (.leader { leader with call := call })
  waits :
    ∀ {other : StreamId} {dispatcher : DispatcherId} {client : Client},
      system.world.clients[other]? = some (.start dispatcher) →
      later.world.clients[other]? = some client →
        client.WaitsFor id leader.key

theorem Starved.step
    {later : System} {action : Action} {id : StreamId}
    {leader : Leader}
    (starved : system.Starved id leader later)
    (matched : later.Matched)
    (flight : later.world.SingleFlight)
    (wellFormed : later.world.monitor.cache.WellFormed)
    (notEnded : leader.log.ended = false)
    (effect : Effect later action next) :
    system.Starved id leader next := by
  obtain ⟨stream, call, found, abandoned, client⟩ := starved.leads
  have unfinished :
      ({ leader with call := call } : Leader).unfinished = true :=
    Leader.unfinished_of_not_ended notEnded
  obtain ⟨⟨inflight, present⟩, last⟩ := flight.owned client unfinished
  have unmapped := wellFormed.unmapped_of_inflight present
  have waitsLater :
      ∀ {lower : World.Action} {world : World} {other : StreamId}
          {dispatcher : DispatcherId} {new : Client},
        later.world.step lower = .ok world →
        system.world.clients[other]? = some (.start dispatcher) →
        world.clients[other]? = some new →
          new.WaitsFor id leader.key := by
    intro lower world other dispatcher new stepped start laterClient
    obtain ⟨old, before⟩ := World.client_before stepped laterClient
    exact
      World.waitsFor_step stepped present unmapped last before
        laterClient (starved.waits start before)
  cases effect with
  | @callback caller callee after _ world callerFound effect =>
      refine { leads := ?_, waits := ?_ }
      · have read := Table.getElem?_set_of_some callerFound after id
        by_cases same : id = caller
        · subst same
          rw [callerFound, Option.some.injEq] at found
          subst found
          obtain ⟨stays, _, laterCall, laterClient⟩ :=
            effect.abandoned abandoned client
          rw [if_pos rfl] at read
          exact ⟨after, laterCall, read, stays, laterClient⟩
        · obtain ⟨_, clients, _⟩ := effect.fits matched callerFound
          rw [if_neg same] at read
          have sameClient := clients id
          rw [if_neg same] at sameClient
          exact
            ⟨stream, call, read.trans found, abandoned,
              sameClient.trans client⟩
      · intro other dispatcher new start laterClient
        rcases effect.world_move with rfl | ⟨move, stepped⟩
        · exact starved.waits start laterClient
        · exact waitsLater stepped start laterClient
  | run stepped =>
      refine { leads := ?_, waits := ?_ }
      · have sameClients := (World.run_frame stepped).1
        exact
          ⟨stream, call, found, abandoned,
            (congrArg (·[id]?) sameClients).trans client⟩
      · intro other dispatcher new start laterClient
        exact waitsLater stepped start laterClient

section Reachable

variable {capacity : UInt64} {slotCount : Nat}
variable {requests : List Request}
variable {allowed : System → Action → System → Prop}

/-- A stream without a key has not looked up. -/
theorem start_of_key_eq_nil
    (reachable :
      Reachable step (create capacity slotCount requests) allowed
        system)
    {id : StreamId} {stream : Stream}
    (found : system.streams[id]? = some stream)
    (noKey : stream.filter.key = []) :
    ∃ dispatcher,
      system.world.clients[id]? = some (.start dispatcher) := by
  obtain ⟨client, present, _⟩ :=
    (matched_of_reachable reachable).client found
  have addressed :=
    (addressed_of_reachable reachable).key found present
  have keyless : ¬ stream.LookedUp := by
    intro lookedUp
    exact lookedUp.key_ne_nil noKey
  cases client with
  | start dispatcher =>
      exact ⟨dispatcher, present⟩
  | hit lookup =>
      exact absurd addressed.1 keyless
  | leader leader =>
      exact absurd addressed.1 keyless
  | follower follower =>
      exact absurd addressed.1 keyless

theorem starved_of_reachable
    {later : System}
    (reachable :
      Reachable step (create capacity slotCount requests) allowed
        system)
    {id : StreamId} {stream : Stream} {leader : Leader}
    (found : system.streams[id]? = some stream)
    (abandoned : stream.Abandoned)
    (client : system.world.clients[id]? = some (.leader leader))
    (notEnded : leader.log.ended = false)
    (continued : Reachable step system allowed later) :
    system.Starved id leader later := by
  replace reachable :
      Reachable step (create capacity slotCount requests)
        (fun _ _ _ => True) system :=
    reachable.weaken fun _ _ _ _ => trivial
  refine invariant_of_effects ?_ ?_ ?_ continued
  · refine
      { leads := ⟨stream, leader.call, found, abandoned, client⟩
        waits := ?_ }
    intro other dispatcher new start same
    rw [start, Option.some.injEq] at same
    rw [← same]
    trivial
  · intro between _ _ starved
    exact { leads := starved.leads, waits := starved.waits }
  · intro before after action reached starved effect
    have fromStart := reachable.trans reached
    have worldReachable := world_reachable fromStart
    exact
      starved.step (matched_of_reachable fromStart)
        (World.singleFlight_of_reachable
          (World.orderly_of_contract worldReachable))
        (World.wellFormed_of_reachable worldReachable) notEnded effect

/-- A stream that asks for an abandoned key follows its leader. -/
theorem Starved.follows
    {later : System} {id : StreamId} {leader : Leader}
    (starved : system.Starved id leader later)
    (reachable :
      Reachable System.step (create capacity slotCount requests)
        allowed system)
    (laterReachable :
      Reachable System.step (create capacity slotCount requests)
        allowed later)
    (keyed : leader.key ≠ [])
    {other : StreamId} {earlier waiting : Stream}
    (earlierFound : system.streams[other]? = some earlier)
    (noKey : earlier.filter.key = [])
    (laterFound : later.streams[other]? = some waiting)
    (waitingKey : waiting.filter.key = leader.key) :
    ∃ follower : Follower,
      later.world.clients[other]? = some (.follower follower) ∧
        follower.leader = some id ∧
          waiting.filter.role = .follower ∧
            later.received other waiting =
              later.world.delivered other := by
  obtain ⟨dispatcher, start⟩ :=
    start_of_key_eq_nil reachable earlierFound noKey
  obtain ⟨client, present, fits⟩ :=
    (matched_of_reachable laterReachable).client laterFound
  have waits := starved.waits start present
  have addressed :=
    (addressed_of_reachable laterReachable).key laterFound present
  cases client with
  | start _ =>
      exact absurd (waitingKey.symm.trans addressed.1) keyed
  | hit lookup =>
      exact absurd (fits.2.symm.trans waitingKey) waits
  | leader leading =>
      exact absurd (fits.2.1.symm.trans waitingKey) waits
  | follower follower =>
      refine ⟨follower, present, ?_, fits.1, ?_⟩
      · exact waits (fits.2.1.symm.trans waitingKey)
      · rw [received, addressed.2, List.nil_append]

/-- A follower of a leader that has not ended has not received an end. -/
theorem unanswered_of_not_ended
    (reachable :
      Reachable step (create capacity slotCount requests) allowed
        system)
    {id owner : StreamId} {follower : Follower} {leader : Leader}
    (client : system.world.clients[id]? = some (.follower follower))
    (joined : follower.leader = some owner)
    (ownerClient :
      system.world.clients[owner]? = some (.leader leader))
    (notEnded : leader.log.ended = false)
    {event : Event} (member : event ∈ system.world.delivered id) :
    event.endStream = false := by
  obtain ⟨state, _, represents⟩ :=
    World.represents_of_reachable Reachable.start
      (World.create_represents capacity slotCount
        (requests.map Request.dispatcher))
      (world_reachable reachable)
  have received :=
    (represents.views.exact client joined ownerClient).2
  exact
    received.open_of_not_ended (Log.not_ended_take notEnded _) member

/-- In every continuation of a run, the key of an abandoned leader stays
inflight and is never cached, every stream that asks for it from then on
becomes a follower, and no follower of that leader ever gets the end of a
response. -/
theorem abandonedLeaderStarvesKey
    {later : System}
    (reachable :
      Reachable step (create capacity slotCount requests) allowed
        system)
    {id : StreamId} {stream : Stream}
    (found : system.streams[id]? = some stream)
    (abandoned : stream.Abandoned)
    (continued : Reachable step system allowed later) :
    (∃ inflight,
        later.world.monitor.cache.inflightMap stream.filter.key =
          some inflight) ∧
      later.world.monitor.cache.cacheMap stream.filter.key = none ∧
        (∀ (other : StreamId) (earlier waiting : Stream),
          system.streams[other]? = some earlier →
          earlier.filter.key = [] →
          later.streams[other]? = some waiting →
          waiting.filter.key = stream.filter.key →
            waiting.filter.role = .follower ∧
              ∀ event ∈ later.received other waiting,
                event.endStream = false) ∧
          ∀ (other : StreamId) (follower : Follower),
            later.world.clients[other]? = some (.follower follower) →
            follower.leader = some id →
              ∀ event ∈ later.world.delivered other,
                event.endStream = false := by
  obtain ⟨leader, client, sameKey, _, sameDone⟩ :=
    (matched_of_reachable reachable).leader found abandoned.leads
  have notEnded : leader.log.ended = false := by
    rw [← sameDone]
    exact abandoned.notDone
  have starved :=
    starved_of_reachable reachable found abandoned client notEnded
      continued
  have laterReachable := reachable.trans continued
  have worldReachable := world_reachable laterReachable
  obtain ⟨_, call, _, _, laterClient⟩ := starved.leads
  have unfinished :
      ({ leader with call := call } : Leader).unfinished = true :=
    Leader.unfinished_of_not_ended notEnded
  obtain ⟨⟨inflight, present⟩, _⟩ :=
    (World.singleFlight_of_reachable
      (World.orderly_of_contract worldReachable)).owned laterClient
        unfinished
  have unmapped :=
    (World.wellFormed_of_reachable
      worldReachable).unmapped_of_inflight present
  have unanswered :
      ∀ (other : StreamId) (follower : Follower),
        later.world.clients[other]? = some (.follower follower) →
        follower.leader = some id →
          ∀ event ∈ later.world.delivered other,
            event.endStream = false := by
    intro other follower follows joined event member
    exact
      unanswered_of_not_ended laterReachable follows joined laterClient
        notEnded member
  rw [sameKey]
  refine ⟨⟨inflight, present⟩, unmapped, ?_, unanswered⟩
  intro other earlier waiting earlierFound noKey laterFound waitingKey
  have keyed := ((addressed_of_reachable reachable).key found client).1
  have leaderKeyed : leader.key ≠ [] := by
    rw [← sameKey]
    exact keyed.key_ne_nil
  obtain ⟨follower, follows, joined, role, sameReceived⟩ :=
    starved.follows reachable laterReachable leaderKeyed earlierFound
      noKey laterFound waitingKey
  refine ⟨role, ?_⟩
  intro event member
  rw [sameReceived] at member
  exact unanswered other follower follows joined event member

end Reachable

/-- A leader is destroyed after the headers of its response. -/
def abandoningRun : List Action :=
  [.callback 0 (.decodeHeaders true),
    .callback 0 (.encode true (.headers [([5], [6])] false)),
    .callback 0 (.proceed .return_), .callback 0 .onDestroy]

/-- Another request for its key gets the headers. -/
def joiningRun : List Action :=
  [.callback 1 (.decodeHeaders true), .run 1]

theorem abandonedLeaderStarvesKey_joiningRun :
    ∃ system later stream earlier waiting,
      checkedRun step (fun _ _ _ => true)
            (create 16 1 [⟨0, [1], [2]⟩, ⟨1, [1], [2]⟩])
            abandoningRun =
          some system ∧
        checkedRun step (fun _ _ _ => true) system joiningRun =
            some later ∧
          system.streams[0]? = some stream ∧ stream.Abandoned ∧
            system.streams[1]? = some earlier ∧
              later.streams[1]? = some waiting ∧
                (later.received 1 waiting).length = 1 ∧
                  waiting.filter.role = .follower ∧
                    ∀ event ∈ later.received 1 waiting,
                      event.endStream = false := by
  obtain ⟨system, later, stream, earlier, waiting, ran, continued,
      found, leads, notDone, gone, earlierFound, noKey, waitingFound,
      sameKey, received⟩ :
      ∃ system later stream earlier waiting,
        checkedRun step (fun _ _ _ => true)
              (create 16 1 [⟨0, [1], [2]⟩, ⟨1, [1], [2]⟩])
              abandoningRun =
            some system ∧
          checkedRun step (fun _ _ _ => true) system joiningRun =
              some later ∧
            system.streams[0]? = some stream ∧
              stream.filter.role = .leader ∧
                stream.filter.done = false ∧
                  stream.destroyed = true ∧
                    system.streams[1]? = some earlier ∧
                      earlier.filter.key = [] ∧
                        later.streams[1]? = some waiting ∧
                          waiting.filter.key = stream.filter.key ∧
                            (later.received 1 waiting).length = 1 :=
    ⟨_, _, _, _,
      { host := [1]
        path := [2]
        filter :=
          { key := [1, 47, 47, 47, 2]
            role := .follower
            waiter := some (World.waiterOf 1 1) }
        request := .received },
      rfl, rfl, rfl, rfl, rfl, rfl, rfl, rfl, rfl, rfl, rfl⟩
  have abandoned : stream.Abandoned :=
    { leads := leads, notDone := notDone, silent := Or.inl gone }
  have reachable :
      Reachable step
        (create 16 1 [⟨0, [1], [2]⟩, ⟨1, [1], [2]⟩])
        (fun _ _ _ => True) system :=
    Reachable.of_checkedRun (fun _ _ _ _ => trivial) Reachable.start ran
  have starves :=
    abandonedLeaderStarvesKey reachable found abandoned
      (Reachable.of_checkedRun (fun _ _ _ _ => trivial)
        Reachable.start continued)
  exact
    ⟨system, later, stream, earlier, waiting, ran, continued, found,
      abandoned, earlierFound, waitingFound, received,
      starves.2.2.1 1 earlier waiting earlierFound noKey waitingFound
        sameKey⟩

/-! ## Answers -/

/-- Only `cancel` sets a flag, that of its own waiter. -/
theorem cancelled_before
    {world later : World} {id : StreamId} {move : World.Move}
    (routed : world.Routed)
    (stepped : world.step (.move id move) = .ok later)
    {addr : Nat} (cancelled : later.cancelled addr = true) :
    world.cancelled addr = true ∨ (move = .cancel ∧ addr = id) := by
  cases World.step_effect stepped with
  | @cancel _ follower client =>
      by_cases same : addr = follower.waiter.addr
      · rw [(routed.waiter_addr client).1] at same
        exact Or.inr ⟨rfl, same⟩
      · simp only [Function.update_of_ne same] at cancelled
        exact Or.inl cancelled
  | _ =>
      exact Or.inl cancelled

/-- Only destroyed streams are cancelled. -/
def CancelledGone (system : System) : Prop :=
  ∀ id : StreamId,
    system.world.cancelled id = true → system.destroyed id = true

theorem CallbackEffect.destroyed_kept
    {id : StreamId} {stream after : Stream} {callback : Callback}
    {world : World}
    (effect : CallbackEffect system id stream callback after world)
    (gone : stream.destroyed = true) :
    after.destroyed = true := by
  cases effect with
  | cancel _ _ _ _ =>
      rfl
  | destroy _ _ =>
      rfl
  | _ =>
      exact gone

/-- The callback that cancels a stream destroys it. -/
theorem CallbackEffect.destroyed_of_cancelled
    {id addr : StreamId} {stream after : Stream} {callback : Callback}
    {world : World}
    (effect : CallbackEffect system id stream callback after world)
    (routed : system.world.Routed)
    (cancelled : world.cancelled addr = true) :
    system.world.cancelled addr = true ∨
      (addr = id ∧ after.destroyed = true) := by
  have stepped :
      ∀ {move : World.Move},
        system.world.step (.move id move) = .ok world →
        move ≠ .cancel →
          system.world.cancelled addr = true := by
    intro move moved notCancel
    rcases cancelled_before routed moved cancelled with
      before | ⟨isCancel, _⟩
    · exact before
    · exact absurd isCancel notCancel
  cases effect with
  | hit _ _ _ looked _ =>
      exact Or.inl (stepped looked (by simp))
  | lead _ _ _ _ looked _ =>
      exact Or.inl (stepped looked (by simp))
  | follow _ _ _ _ looked _ =>
      exact Or.inl (stepped looked (by simp))
  | publish _ _ _ _ _ published =>
      exact Or.inl (stepped published (by simp))
  | cancel _ _ _ moved =>
      rcases cancelled_before routed moved cancelled with
        before | ⟨_, same⟩
      · exact Or.inl before
      · exact Or.inr ⟨same, rfl⟩
  | proceed permitted moved =>
      refine Or.inl (stepped moved ?_)
      intro isCancel
      subst isCancel
      simp [proceeds] at permitted
  | _ =>
      exact Or.inl cancelled

theorem CancelledGone.step
    {action : Action} (cancelledGone : system.CancelledGone)
    (routed : system.world.Routed)
    (effect : Effect system action next) :
    next.CancelledGone := by
  intro id cancelled
  cases effect with
  | @callback caller stream after _ world found effect =>
      have read := Table.getElem?_set_of_some found after id
      unfold destroyed
      simp only [System.update, read]
      rcases effect.destroyed_of_cancelled routed cancelled with
        before | ⟨same, gone⟩
      · have wasGone := cancelledGone id before
        unfold destroyed at wasGone
        by_cases same : id = caller
        · subst same
          rw [found] at wasGone
          rw [if_pos rfl]
          exact effect.destroyed_kept wasGone
        · rw [if_neg same]
          exact wasGone
      · rw [if_pos same]
        exact gone
  | run stepped =>
      simp only [(World.run_frame stepped).2] at cancelled
      exact cancelledGone id cancelled

/-- Nothing is under way: all calls have returned, every posted closure has
run, and no `decodeHeaders` is about to serve a hit. -/
structure AtRest (system : System) : Prop where
  settled : system.world.Settled
  decided :
    ∀ (id : StreamId) (stream : Stream) (endStream : Bool),
      system.streams[id]? = some stream →
        stream.request ≠ .deciding endStream

section Reachable

variable {capacity : UInt64} {slotCount : Nat}
variable {requests : List Request}
variable {allowed : System → Action → System → Prop}

theorem cancelledGone_of_reachable
    (reachable :
      Reachable step (create capacity slotCount requests) allowed
        system) :
    system.CancelledGone := by
  refine invariant_of_effects ?_ ?_ ?_ reachable
  · intro id cancelled
    simp [create, World.create] at cancelled
  · intro between _ _ cancelledGone
    exact cancelledGone
  · intro before after action reached cancelledGone effect
    exact cancelledGone.step (routed_of_reachable reached) effect

/-- What a stream that is not a leader has received when nothing is under way:
all that the leader it depends on has published. -/
theorem received_of_atRest
    (reachable :
      Reachable step (create capacity slotCount requests) allowed
        system)
    (atRest : system.AtRest)
    {id : StreamId} {stream : Stream}
    (found : system.streams[id]? = some stream)
    (keyed : stream.filter.key ≠ [])
    (notLeader : stream.filter.role ≠ .leader)
    (there : stream.destroyed = false) :
    ∃ (owner : StreamId) (leader : Leader),
      system.world.clients[owner]? = some (.leader leader) ∧
        leader.key = stream.filter.key ∧
          ExactDelivery leader.log (system.received id stream) := by
  have lower := world_reachable reachable
  have routed := routed_of_reachable reachable
  obtain ⟨client, present, fits⟩ :=
    (matched_of_reachable reachable).client found
  have addressed :=
    (addressed_of_reachable reachable).key found present
  unfold received
  cases client with
  | start dispatcher =>
      exact absurd addressed.1 keyed
  | leader leader =>
      exact absurd fits.1 notLeader
  | hit lookup =>
      have lifecycle := lifecycle_of_reachable reachable id stream found
      have decoded : stream.request ≠ .awaiting := by
        intro awaiting
        exact keyed (lifecycle.awaiting awaiting).2
      have hasRole : stream.filter.role ≠ .unset := by
        intro unset
        have decided := fun ends => atRest.decided id stream ends found
        exact keyed ((lifecycle.decided decoded decided).mp unset)
      have cached := fits.1.resolve_left hasRole
      obtain ⟨other, headers, body, hitClient, response, sent⟩ :=
        (served_of_reachable reachable).sent found cached
      rw [present, Option.some.injEq, Client.hit.injEq] at hitClient
      subst hitClient
      obtain ⟨source, leader, _, sourceClient, sameKey, _, _, _,
        exact⟩ := response
      have nothing : system.world.delivered id = [] := by
        by_contra nonempty
        obtain ⟨follower, follows⟩ := routed.receiver nonempty
        rw [present] at follows
        simp at follows
      refine
        ⟨source, leader, sourceClient, sameKey.trans fits.2.symm, ?_⟩
      rw [sent, nothing, List.append_nil]
      exact exact
  | follower follower =>
      obtain ⟨owner, leader, joined, ownerClient, sameKey⟩ :=
        routed.joinedLeader present
      have live :
          system.world.cancelled follower.waiter.addr = false := by
        rw [(routed.waiter_addr present).1]
        by_contra cancelled
        have gone :=
          cancelledGone_of_reachable reachable id
            (by simpa using cancelled)
        unfold destroyed at gone
        simp [found, there] at gone
      have exact :=
        (World.delivers_of_reachable lower).exact present live joined
          ownerClient
      rw [atRest.settled.receives_eq routed present ownerClient]
        at exact
      refine
        ⟨owner, leader, ownerClient, sameKey.trans fits.2.1.symm, ?_⟩
      rw [addressed.2, List.nil_append]
      exact exact

/-- When nothing is under way, every stream that has looked up, has not been
destroyed and is not a leader has received exactly what a leader of its key
has published, with one `end_stream` if the filter of that leader is done and
with none if it is not.  So a request is left without an answer only by a
leader that has not ended its response. -/
theorem answeredIffLeaderDone
    (reachable :
      Reachable step (create capacity slotCount requests) allowed
        system)
    (atRest : system.AtRest)
    {id : StreamId} {stream : Stream}
    (found : system.streams[id]? = some stream)
    (keyed : stream.filter.key ≠ [])
    (notLeader : stream.filter.role ≠ .leader)
    (there : stream.destroyed = false) :
    ∃ (owner : StreamId) (ownerStream : Stream) (leader : Leader),
      system.streams[owner]? = some ownerStream ∧
        ownerStream.filter.role = .leader ∧
          ownerStream.filter.key = stream.filter.key ∧
            system.world.clients[owner]? = some (.leader leader) ∧
              ExactDelivery leader.log (system.received id stream) ∧
                (system.received id stream).countP Event.endStream =
                  if ownerStream.filter.done then 1 else 0 := by
  obtain ⟨owner, leader, ownerClient, sameKey, exact⟩ :=
    received_of_atRest reachable atRest found keyed notLeader there
  obtain ⟨ownerStream, ownerFound, leads, ownerKey, _, sameDone⟩ :=
    (matched_of_reachable reachable).stream ownerClient
  refine
    ⟨owner, ownerStream, leader, ownerFound, leads,
      ownerKey.trans sameKey, ownerClient, exact, ?_⟩
  rw [sameDone]
  cases ended : leader.log.ended with
  | false =>
      rw [if_neg (by simp), List.countP_eq_zero]
      intro event member
      simp [exact.open_of_not_ended ended member]
  | true =>
      have spooled :=
        World.spooled_of_reachable
          (World.orderly_of_contract (world_reachable reachable))
      have hasHeaders : leader.log.headers?.isSome = true := by
        rw [Option.isSome_iff_ne_none]
        intro silent
        rw [spooled.headersFirst ownerClient silent] at ended
        simp [Log.ended] at ended
      rw [if_pos rfl]
      exact exact.countP_endStream ended hasHeaders

end Reachable

/-- A leader ends its response, and its follower gets it. -/
def answeredRun : List Action :=
  [.callback 0 (.decodeHeaders true), .callback 1 (.decodeHeaders true),
    .callback 0 (.encode true (.headers [([5], [6])] true)),
    .callback 0 (.proceed .scan), .callback 0 (.proceed .scan),
    .callback 0 (.proceed .finish), .callback 0 (.proceed .post),
    .callback 0 (.proceed .return_), .run 1]

theorem answeredIffLeaderDone_answeredRun :
    ∃ system stream,
      checkedRun step (fun _ _ _ => true)
            (create 16 1 [⟨0, [1], [2]⟩, ⟨1, [1], [2]⟩]) answeredRun =
          some system ∧
        system.AtRest ∧
          system.streams[1]? = some stream ∧
            stream.filter.role = .follower ∧
              ∃ (owner : StreamId) (ownerStream : Stream)
                  (leader : Leader),
                system.streams[owner]? = some ownerStream ∧
                  ownerStream.filter.role = .leader ∧
                    ownerStream.filter.key = stream.filter.key ∧
                      system.world.clients[owner]? =
                          some (.leader leader) ∧
                        ExactDelivery leader.log
                            (system.received 1 stream) ∧
                          (system.received 1 stream).countP
                              Event.endStream =
                            if ownerStream.filter.done then
                              1
                            else
                              0 := by
  obtain ⟨system, stream, ran, found, key, role, there, free, returned,
      drained, decided⟩ :
      ∃ system stream,
        checkedRun step (fun _ _ _ => true)
              (create 16 1 [⟨0, [1], [2]⟩, ⟨1, [1], [2]⟩])
              answeredRun =
            some system ∧
          system.streams[1]? = some stream ∧
            stream.filter.key = [1, 47, 47, 47, 2] ∧
              stream.filter.role = .follower ∧
                stream.destroyed = false ∧
                  system.world.monitor.frame = none ∧
                    (∀ client ∈ system.world.clients,
                        client.work = 0) ∧
                      (∀ dispatcher ∈ [0, 1],
                          system.world.queues dispatcher = []) ∧
                        ∀ other ∈ system.streams,
                          other.request = .received :=
    ⟨_,
      { host := [1]
        path := [2]
        filter :=
          { key := [1, 47, 47, 47, 2]
            role := .follower
            waiter := some (World.waiterOf 1 1) }
        request := .received },
      rfl, rfl, rfl, rfl, rfl, rfl, by decide, by decide, by decide⟩
  have reachable :
      Reachable step
        (create 16 1 [⟨0, [1], [2]⟩, ⟨1, [1], [2]⟩])
        (fun _ _ _ => True) system :=
    Reachable.of_checkedRun (fun _ _ _ _ => trivial) Reachable.start ran
  have atRest : system.AtRest := by
    refine
      { settled :=
          { free := free, returned := returned, drained := ?_ }
        decided := ?_ }
    · intro dispatcher
      by_contra nonempty
      have home :=
        (World.homed_of_reachable (world_reachable reachable)).queued
          nonempty
      exact nonempty (drained dispatcher home)
    · intro id other endStream otherFound
      rw [decided other (List.mem_of_getElem? otherFound)]
      simp
  exact
    ⟨system, stream, ran, atRest, found, role,
      answeredIffLeaderDone reachable atRest found (by simp [key])
        (by simp [role]) there⟩

end System

end RingCache

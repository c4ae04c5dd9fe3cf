import RingCache.Filter.Teardown

/-!
# Waiters

An inflight response lists the waiters that are to be fed.  A follower is put
on the list of the leader it joins, stays there through everything that other
streams do, and is taken off by its own `removeWaiter` alone.  So in every
state the list of an inflight response names exactly the followers of its
leader that have not been torn down, each once, and those that `onDestroy` has
left because they were done.
-/

namespace RingCache

open Transition RingBufferCache

/-! ## One list -/

/-- A removal takes its waiter off the list. -/
theorem RingBufferCache.not_mem_removeWaiterLocked
    {cache : RingBufferCache} {key : Key} {waiterAddr : Nat}
    (distinct :
      ∀ {inflight},
        cache.inflightMap key = some inflight →
          (inflight.waiters.map Waiter.addr).Nodup)
    {later : Inflight}
    (read :
      (cache.removeWaiterLocked key waiterAddr).inflightMap key =
        some later)
    {waiter : Waiter} (member : waiter ∈ later.waiters) :
    waiter.addr ≠ waiterAddr := by
  unfold removeWaiterLocked at read
  cases present : cache.inflightMap key with
  | none =>
      simp [present] at read
  | some inflight =>
      simp only [present] at read
      cases index :
          inflight.waiters.findIdx? fun waiter =>
            waiter.addr = waiterAddr with
      | none =>
          simp only [index, present, Option.some.injEq] at read
          subst read
          have absent := List.findIdx?_eq_none_iff.mp index waiter member
          simpa using absent
      | some position =>
          simp only [index, setInflight, Function.update_self,
            Option.some.injEq] at read
          subst read
          obtain ⟨bound, atAddr, _⟩ :=
            List.findIdx?_eq_some_iff_getElem.mp index
          rw [(swapPop_perm bound).mem_iff,
            List.mem_eraseIdx_iff_getElem] at member
          obtain ⟨other, otherBound, elsewhere, atOther⟩ := member
          intro same
          apply elsewhere
          have sameAddrs :
              (inflight.waiters.map Waiter.addr)[other]? =
                (inflight.waiters.map Waiter.addr)[position]? := by
            simp only [List.getElem?_map,
              List.getElem?_eq_getElem otherBound,
              List.getElem?_eq_getElem bound, Option.map_some, atOther]
            rw [same]
            simpa using (of_decide_eq_true atAddr).symm
          refine
            (List.getElem?_inj ?_ (distinct present)).mp sameAddrs
          simpa using otherBound

namespace World

variable {world next : World} {action : Action}

/-- The follower has joined the leader of the response that is in flight for
its key. -/
def Current
    (world : World) (follower : Follower) (inflight : Inflight) :
    Prop :=
  world.monitor.cache.inflightMap follower.key = some inflight ∧
    follower.leader = world.history.lastLeader follower.key

/-- The follower has joined a response in flight, and is on its list exactly
when it is on that of `later`. -/
def SameListing
    (world : World) (follower : Follower) (later : Inflight) : Prop :=
  ∃ inflight,
    world.Current follower inflight ∧
      (follower.waiter ∈ later.waiters ↔
        follower.waiter ∈ inflight.waiters)

section Current

variable {stream : StreamId} {follower : Follower} {later : Inflight}

theorem Current.sameListing
    (current : next.Current follower later)
    (sameInflight :
      next.monitor.cache.inflightMap follower.key =
        world.monitor.cache.inflightMap follower.key)
    (sameLeader :
      next.history.lastLeader follower.key =
        world.history.lastLeader follower.key) :
    world.SameListing follower later := by
  obtain ⟨present, joined⟩ := current
  rw [sameInflight] at present
  rw [sameLeader] at joined
  exact ⟨later, ⟨present, joined⟩, Iff.rfl⟩

/-- A publish leaves the list as it is. -/
theorem Current.sameListing_of_receive
    (current : next.Current follower later)
    {key : Key} {call : Publish} {inflight : Inflight}
    (found : world.monitor.cache.inflightMap key = some inflight)
    (received :
      next.monitor.cache.inflightMap =
        Function.update world.monitor.cache.inflightMap key
          (some (inflight.receive call)))
    (sameHistory : next.history = world.history) :
    world.SameListing follower later := by
  by_cases same : follower.key = key
  · subst same
    obtain ⟨present, joined⟩ := current
    rw [sameHistory] at joined
    rw [received, Function.update_self, Option.some.injEq] at present
    subst present
    refine ⟨inflight, ⟨found, joined⟩, ?_⟩
    rw [Inflight.receive_waiters]
  · apply current.sameListing
    · rw [received, Function.update_of_ne same]
    · rw [sameHistory]

/-- The lookup of another stream adds that stream alone. -/
theorem Current.sameListing_of_join
    (current : next.Current follower later) (routed : world.Routed)
    (client : world.clients[stream]? = some (.follower follower))
    {other : StreamId} {dispatcher : DispatcherId} {key : Key}
    {inflight : Inflight}
    (started : world.clients[other]? = some (.start dispatcher))
    (found : world.monitor.cache.inflightMap key = some inflight)
    (joins :
      next.monitor.cache.inflightMap =
        Function.update world.monitor.cache.inflightMap key
          (some { inflight with
            waiters :=
              inflight.waiters ++ [waiterOf other dispatcher] }))
    (sameHistory : next.history = world.history) :
    world.SameListing follower later := by
  by_cases same : follower.key = key
  · subst same
    obtain ⟨present, joined⟩ := current
    rw [sameHistory] at joined
    rw [joins, Function.update_self, Option.some.injEq] at present
    subst present
    refine ⟨inflight, ⟨found, joined⟩, ?_⟩
    have elsewhere : follower.waiter ≠ waiterOf other dispatcher := by
      intro sameWaiter
      have sameStream : stream = other :=
        (routed.waiter_addr client).1.symm.trans
          (congrArg Waiter.addr sameWaiter)
      rw [sameStream, started] at client
      simp at client
    simp [elsewhere]
  · apply current.sameListing
    · rw [joins, Function.update_of_ne same]
    · rw [sameHistory]

/-- A stream that becomes a leader leads another key. -/
theorem Current.sameListing_of_lead
    (current : next.Current follower later) (routed : world.Routed)
    (client : world.clients[stream]? = some (.follower follower))
    {other : StreamId} {dispatcher : DispatcherId} {key : Key}
    (started : world.clients[other]? = some (.start dispatcher))
    (begins :
      next.monitor.cache.inflightMap =
        Function.update world.monitor.cache.inflightMap key (some {}))
    (historyEq : next.history = .led other key :: world.history) :
    world.SameListing follower later := by
  have different : key ≠ follower.key := by
    intro same
    obtain ⟨owner, leader, leaderEq, ownerClient, _⟩ :=
      routed.joinedLeader client
    have joined := current.2
    rw [historyEq, History.lastLeader_led, if_pos same, leaderEq,
      Option.some.injEq] at joined
    rw [joined, started] at ownerClient
    simp at ownerClient
  apply current.sameListing
  · rw [begins, Function.update_of_ne (Ne.symm different)]
  · rw [historyEq, History.lastLeader_led, if_neg different]

/-- The removal of another waiter leaves a follower on the list. -/
theorem Current.sameListing_of_removeWaiter
    (current : next.Current follower later)
    {key : Key} {waiterAddr : Nat}
    (removed :
      next.monitor.cache =
        world.monitor.cache.removeWaiterLocked key waiterAddr)
    (elsewhere : follower.waiter.addr ≠ waiterAddr)
    (sameHistory : next.history = world.history) :
    world.SameListing follower later := by
  obtain ⟨present, joined⟩ := current
  rw [removed] at present
  rw [sameHistory] at joined
  obtain ⟨inflight, found, subset, _⟩ :=
    waiters_removeWaiterLocked world.monitor.cache key waiterAddr
      follower.key later present
  refine ⟨inflight, ⟨found, joined⟩, fun member => subset member, ?_⟩
  intro member
  obtain ⟨after, read, stays⟩ :=
    @mem_removeWaiterLocked _ key _ waiterAddr _ found
  rw [present, Option.some.injEq] at read
  subst read
  exact stays _ member elsewhere

end Current

/-- No step but its own `removeWaiter` changes whether a follower is on the
list of the leader that it has joined. -/
theorem Effect.sameListing
    (effect : Effect world action next) (routed : world.Routed)
    {stream : StreamId} {follower : Follower} {later : Inflight}
    (client : world.clients[stream]? = some (.follower follower))
    (kept : action ≠ .move stream .removeWaiter)
    (current : next.Current follower later) :
    world.SameListing follower later := by
  cases effect with
  | lookupLead started free unmapped missing =>
      exact current.sameListing_of_lead routed client started rfl rfl
  | lookupFollow started free unmapped found headersFirst =>
      exact
        current.sameListing_of_join routed client started found rfl rfl
  | publishOpen leaderClient idle free found stays =>
      exact current.sameListing_of_receive found rfl rfl
  | publishEnd leaderClient idle free found ends stored =>
      exact current.sameListing_of_receive found rfl rfl
  | scan leaderClient finalizing running iterated =>
      apply current.sameListing
      · exact congrFun (scanIteration_frame iterated).2.2.1 _
      · exact History.lastLeader_evictedKeys _ _ _ _
  | finish leaderClient finalizing running atReturn completed =>
      have read := completeFinalize_inflightMap completed follower.key
      apply current.sameListing
      · refine read.trans (if_neg ?_)
        intro same
        have present := read.symm.trans current.1
        rw [if_pos same] at present
        simp at present
      · exact History.lastLeader_ended _ _ _ _ _
  | @removeWaiter other leaving otherClient cancelled free =>
      refine current.sameListing_of_removeWaiter rfl ?_ rfl
      rw [(routed.waiter_addr client).1,
        (routed.waiter_addr otherClient).1]
      intro same
      exact kept (by rw [same])
  | _ =>
      exact current.sameListing rfl rfl

/-- A lookup that finds a response in flight puts its stream on the list. -/
theorem mem_waiters_of_lookup
    {stream : StreamId} {key : Key} {follower : Follower}
    {inflight : Inflight}
    (stepped : world.step (.move stream (.lookup key)) = .ok next)
    (client : next.clients[stream]? = some (.follower follower))
    (current : next.Current follower inflight) :
    follower.waiter ∈ inflight.waiters := by
  cases step_effect stepped with
  | lookupHit started free mapped read =>
      simp [update, Table.getElem?_set_of_some started] at client
  | lookupLead started free unmapped missing =>
      simp [update, Table.getElem?_set_of_some started] at client
  | lookupFollow started free unmapped present headersFirst =>
      simp only [update, Table.getElem?_set_of_some started, if_true,
        Option.some.injEq, Client.follower.injEq] at client
      subst client
      have read :=
        (Function.update_self _ _ _).symm.trans current.1
      simp only [Option.some.injEq] at read
      subst read
      simp

/-- A removal takes the stream off the list. -/
theorem not_mem_waiters_of_removeWaiter
    {stream : StreamId} {follower : Follower} {inflight : Inflight}
    (routed : world.Routed)
    (stepped : world.step (.move stream .removeWaiter) = .ok next)
    (client : world.clients[stream]? = some (.follower follower))
    (current : next.Current follower inflight) :
    follower.waiter ∉ inflight.waiters := by
  cases step_effect stepped with
  | removeWaiter found cancelled free =>
      rw [client, Option.some.injEq, Client.follower.injEq] at found
      subst found
      intro member
      exact
        not_mem_removeWaiterLocked (fun present => routed.distinct present)
          current.1 member rfl

end World

/-- The waiter of a follower is to be on a list: its stream has not been torn
down, `onDestroy` has yet to call `removeWaiter`, or does not because the
filter is done. -/
def Stream.listed (stream : Stream) : Bool :=
  !stream.destroyed || stream.removing || stream.filter.done

namespace System

variable {system next : System}

/-! ## Teardown -/

/-- `removeWaiter` is called by `onDestroy` on followers that are not done. -/
def Leaving (stream : Stream) : Prop :=
  stream.removing = true →
    stream.destroyed = true ∧
      stream.filter.role = .follower ∧ stream.filter.done = false

theorem CallbackEffect.leaving
    {id : StreamId} {stream after : Stream} {callback : Callback}
    {world : World}
    (effect : CallbackEffect system id stream callback after world)
    (matched : system.Matched)
    (found : system.streams[id]? = some stream)
    (leaving : Leaving stream) :
    Leaving after := by
  have still :
      system.callable id stream = true →
      after.removing = stream.removing →
        Leaving after := by
    intro callable same removing
    rw [same] at removing
    have gone := (leaving removing).1
    rw [not_destroyed_of_callable callable] at gone
    simp at gone
  cases effect with
  | unkeyed callable _ _ =>
      exact still callable rfl
  | hit callable _ _ _ _ =>
      exact still callable rfl
  | lead callable _ _ _ _ _ =>
      exact still callable rfl
  | follow callable _ _ _ _ _ =>
      exact still callable rfl
  | serve deciding client stage read =>
      intro removing
      have follows := (leaving removing).2.1
      obtain ⟨other, present, fits⟩ := matched.client found
      rw [client, Option.some.injEq] at present
      subst present
      simp [Stream.Fits, follows] at fits
  | decodeData callable _ =>
      exact still callable rfl
  | decodeTrailers callable _ =>
      exact still callable rfl
  | pass callable _ _ =>
      exact still callable rfl
  | publish callable _ _ _ _ _ =>
      exact still callable rfl
  | cancel callable follows notDone _ =>
      intro _
      exact ⟨rfl, follows, notDone⟩
  | destroy callable _ =>
      exact still callable rfl
  | proceed _ _ =>
      intro removing
      simp only [Bool.and_eq_true] at removing
      exact leaving removing.1

/-- A follower stays listed until its `removeWaiter`. -/
theorem CallbackEffect.listed_eq
    {id : StreamId} {stream after : Stream} {callback : Callback}
    {world : World}
    (effect : CallbackEffect system id stream callback after world)
    {follower : Follower}
    (client : system.world.clients[id]? = some (.follower follower))
    (follows : stream.filter.role = .follower)
    (kept : callback ≠ .proceed .removeWaiter) :
    after.listed = stream.listed := by
  have there :
      system.callable id stream = true → after.listed = true →
        after.listed = stream.listed := by
    intro callable listed
    rw [listed]
    simp [Stream.listed, not_destroyed_of_callable callable]
  have stays :
      system.callable id stream = true →
      after.destroyed = stream.destroyed →
        after.listed = stream.listed := by
    intro callable same
    apply there callable
    rw [not_destroyed_of_callable callable] at same
    simp [Stream.listed, same]
  cases effect with
  | unkeyed callable _ _ =>
      exact stays callable rfl
  | hit callable _ _ _ _ =>
      exact stays callable rfl
  | lead callable _ _ _ _ _ =>
      exact stays callable rfl
  | follow callable _ _ _ _ _ =>
      exact stays callable rfl
  | serve deciding served stage read =>
      rw [client] at served
      simp at served
  | decodeData callable _ =>
      exact stays callable rfl
  | decodeTrailers callable _ =>
      exact stays callable rfl
  | pass callable _ _ =>
      exact stays callable rfl
  | publish callable _ _ _ _ _ =>
      exact stays callable rfl
  | cancel callable _ _ _ =>
      exact there callable (by simp [Stream.listed])
  | destroy callable keeps =>
      exact there callable (by simp [Stream.listed, keeps follows])
  | @proceed move _ _ _ =>
      have notRemoval : (move != .removeWaiter) = true := by
        rw [bne_iff_ne]
        intro same
        exact kept (by rw [same])
      simp only [Stream.listed, notRemoval, Bool.and_true]

/-- No callback on another stream, and no callback but the end of `onDestroy`
on its own, changes whether a follower is on the list of its leader. -/
theorem CallbackEffect.sameListing
    {id other : StreamId} {stream after : Stream} {callback : Callback}
    {world : World}
    (effect : CallbackEffect system id stream callback after world)
    (routed : system.world.Routed)
    {follower : Follower} {later : Inflight}
    (client :
      system.world.clients[other]? = some (.follower follower))
    (kept : other = id → callback ≠ .proceed .removeWaiter)
    (current : world.Current follower later) :
    system.world.SameListing follower later := by
  have moved :
      ∀ {move : World.Move},
        system.world.step (.move id move) = .ok world →
        (other = id → move ≠ .removeWaiter) →
          system.world.SameListing follower later := by
    intro move stepped notRemoval
    refine
      (World.step_effect stepped).sameListing routed client ?_ current
    intro same
    cases same
    exact notRemoval rfl rfl
  cases effect with
  | hit _ _ _ looked _ =>
      exact moved looked (by simp)
  | lead _ _ _ _ looked _ =>
      exact moved looked (by simp)
  | follow _ _ _ _ looked _ =>
      exact moved looked (by simp)
  | publish _ _ _ _ _ stepped =>
      exact moved stepped (by simp)
  | cancel _ _ _ stepped =>
      exact moved stepped (by simp)
  | proceed _ stepped =>
      refine moved stepped ?_
      intro same isRemoval
      exact kept same (by rw [isRemoval])
  | _ =>
      exact ⟨later, current, Iff.rfl⟩

/-- A stream becomes a follower in its `decodeHeaders`. -/
theorem CallbackEffect.follower_before
    {id other : StreamId} {stream after : Stream} {callback : Callback}
    {world : World}
    (effect : CallbackEffect system id stream callback after world)
    {follower : Follower}
    (client : world.clients[other]? = some (.follower follower)) :
    system.world.clients[other]? = some (.follower follower) ∨
      (other = id ∧ after.destroyed = false ∧
        ∃ key,
          system.world.step (.move id (.lookup key)) = .ok world) := by
  by_cases same : other = id
  · subst same
    cases effect with
    | hit _ _ _ _ found =>
        rw [client] at found
        simp at found
    | lead _ _ _ _ _ found =>
        rw [client] at found
        simp at found
    | follow callable _ _ _ looked _ =>
        have there := not_destroyed_of_callable callable
        exact Or.inr ⟨rfl, there, _, looked⟩
    | publish _ _ _ _ _ stepped =>
        exact Or.inl (World.follower_before stepped (by simp) client)
    | cancel _ _ _ stepped =>
        exact Or.inl (World.follower_before stepped (by simp) client)
    | proceed permitted stepped =>
        exact
          Or.inl
            (World.follower_before stepped
              (not_lookup_of_proceeds permitted) client)
    | _ =>
        exact Or.inl client
  · rcases effect.world_move with rfl | ⟨move, stepped⟩
    · exact Or.inl client
    · obtain ⟨_, _, _, clients, _⟩ := World.move_clients stepped
      rw [clients, if_neg same] at client
      exact Or.inl client

/-! ## The lists of all responses in flight -/

/-- A follower is on the list of the response in flight that it has joined
exactly when its stream is listed. -/
structure Listed (system : System) : Prop where
  leaving :
    ∀ {id : StreamId} {stream : Stream},
      system.streams[id]? = some stream → Leaving stream
  waiters :
    ∀ {id : StreamId} {stream : Stream} {follower : Follower}
        {inflight : Inflight},
      system.streams[id]? = some stream →
      system.world.clients[id]? = some (.follower follower) →
      system.world.Current follower inflight →
        (follower.waiter ∈ inflight.waiters ↔ stream.listed = true)

theorem create_listed
    (capacity : UInt64) (slotCount : Nat) (requests : List Request) :
    (create capacity slotCount requests).Listed := by
  refine { leaving := ?_, waiters := ?_ }
  · intro id stream found removing
    obtain ⟨host, path, rfl⟩ := create_stream found
    simp at removing
  · intro id stream follower inflight _ client
    exact absurd client (World.create_client (by simp))

theorem Listed.callback
    (listed : system.Listed) (matched : system.Matched)
    (routed : system.world.Routed)
    {id : StreamId} {stream after : Stream} {callback : Callback}
    {world : World}
    (found : system.streams[id]? = some stream)
    (effect : CallbackEffect system id stream callback after world) :
    (system.update id after world).Listed := by
  refine { leaving := ?_, waiters := ?_ }
  · intro other later laterFound
    rcases update_cases found laterFound with ⟨rfl, rfl⟩ | ⟨_, before⟩
    · exact effect.leaving matched found (listed.leaving found)
    · exact listed.leaving before
  · intro other later follower inflight laterFound client current
    rcases effect.follower_before client with
      before | ⟨rfl, there, key, looked⟩
    · rcases update_cases found laterFound with
        ⟨rfl, rfl⟩ | ⟨different, laterBefore⟩
      · by_cases removal : callback = .proceed .removeWaiter
        · subst removal
          cases effect with
          | proceed permitted stepped =>
              obtain ⟨gone, _, notDone⟩ :=
                listed.leaving found permitted
              have absent :=
                World.not_mem_waiters_of_removeWaiter routed stepped
                  before current
              simp [absent, Stream.listed, gone, notDone]
        · obtain ⟨earlier, wasCurrent, same⟩ :=
            effect.sameListing routed before (fun _ => removal)
              current
          obtain ⟨_, present, fits⟩ := matched.client found
          rw [before, Option.some.injEq] at present
          subst present
          rw [same, effect.listed_eq before fits.1 removal]
          exact listed.waiters found before wasCurrent
      · obtain ⟨earlier, wasCurrent, same⟩ :=
          effect.sameListing routed before
            (fun same => absurd same different) current
        rw [same]
        exact listed.waiters laterBefore before wasCurrent
    · rcases update_cases found laterFound with ⟨_, rfl⟩ | ⟨absurdly, _⟩
      · have member := World.mem_waiters_of_lookup looked client current
        simp [member, Stream.listed, there]
      · exact absurd rfl absurdly

theorem Listed.step
    {action : Action} (listed : system.Listed)
    (matched : system.Matched) (routed : system.world.Routed)
    (effect : Effect system action next) :
    next.Listed := by
  cases effect with
  | callback found effect =>
      exact listed.callback matched routed found effect
  | run stepped =>
      refine { leaving := listed.leaving, waiters := ?_ }
      intro id stream follower inflight found client current
      rw [(World.run_frame stepped).1] at client
      obtain ⟨earlier, wasCurrent, same⟩ :=
        (World.step_effect stepped).sameListing routed client
          (by simp) current
      rw [same]
      exact listed.waiters found client wasCurrent

/-- The filter of a stream that has joined the leader of a response in flight,
and when it is on the list. -/
theorem Listed.follower
    (listed : system.Listed) (matched : system.Matched)
    (routed : system.world.Routed)
    {owner : StreamId} {leader : Leader} {inflight : Inflight}
    (ownerClient :
      system.world.clients[owner]? = some (.leader leader))
    (present :
      system.world.monitor.cache.inflightMap leader.key =
        some inflight)
    (last : system.world.history.lastLeader leader.key = some owner)
    {waiter : Waiter} {follower : Follower}
    (client :
      system.world.clients[waiter.addr]? = some (.follower follower))
    (sameWaiter : follower.waiter = waiter)
    (joined : follower.leader = some owner) :
    ∃ stream : Stream,
      system.streams[waiter.addr]? = some stream ∧
        stream.filter.role = .follower ∧
          stream.filter.key = leader.key ∧
            stream.filter.waiter = some waiter ∧
              (waiter ∈ inflight.waiters ↔ stream.listed = true) := by
  subst sameWaiter
  obtain ⟨stream, found, role, filterKey, filterWaiter⟩ :=
    matched.stream client
  obtain ⟨named, namedLeader, leaderEq, namedClient, leaderKey⟩ :=
    routed.joinedLeader client
  rw [joined, Option.some.injEq] at leaderEq
  subst leaderEq
  rw [ownerClient, Option.some.injEq, Client.leader.injEq]
    at namedClient
  subst namedClient
  have current : system.world.Current follower inflight := by
    rw [World.Current, ← leaderKey, last]
    exact ⟨present, joined⟩
  exact
    ⟨stream, found, role, filterKey.trans leaderKey.symm, filterWaiter,
      listed.waiters found client current⟩

section Reachable

variable {capacity : UInt64} {slotCount : Nat}
variable {requests : List Request}
variable {allowed : System → Action → System → Prop}

theorem listed_of_reachable
    (reachable :
      Reachable System.step (create capacity slotCount requests) allowed
        system) :
    system.Listed := by
  refine
    invariant_of_effects (create_listed capacity slotCount requests)
      ?_ ?_ reachable
  · intro between _ _ listed
    exact { leaving := listed.leaving, waiters := listed.waiters }
  · intro before after action reached listed effect
    exact
      listed.step (matched_of_reachable reached)
        (routed_of_reachable reached) effect

/-- In every state the list of an inflight response has, each once, the waiters
of exactly those filters that joined its leader and have not been destroyed,
have yet to call `removeWaiter`, or were done when they were destroyed. -/
theorem waitersExact
    (reachable :
      Reachable System.step (create capacity slotCount requests) allowed
        system)
    {key : Key} {inflight : Inflight}
    (present :
      system.world.monitor.cache.inflightMap key = some inflight) :
    ∃ (owner : StreamId) (leader : Leader),
      system.world.clients[owner]? = some (.leader leader) ∧
        leader.key = key ∧ leader.unfinished = true ∧
          inflight.waiters.Nodup ∧
            ∀ waiter,
              waiter ∈ inflight.waiters ↔
                ∃ stream : Stream,
                  system.streams[waiter.addr]? = some stream ∧
                    stream.filter.role = .follower ∧
                      stream.filter.key = key ∧
                        stream.filter.waiter = some waiter ∧
                          system.world.Joined waiter (some owner) ∧
                            (stream.destroyed = false ∨
                              stream.removing = true ∨
                                stream.filter.done = true) := by
  have orderly := World.orderly_of_contract (world_reachable reachable)
  have flight := World.singleFlight_of_reachable orderly
  have routed := World.routed_of_reachable orderly
  have matched := matched_of_reachable reachable
  have listed := listed_of_reachable reachable
  obtain ⟨owner, leader, last, ownerClient, sameKey, unfinished⟩ :=
    flight.owner present
  subst sameKey
  refine
    ⟨owner, leader, ownerClient, rfl, unfinished,
      (routed.distinct present).of_map, ?_⟩
  intro waiter
  constructor
  · intro member
    have joined := routed.attached present member
    rw [last] at joined
    obtain ⟨follower, client, sameWaiter, joinedOwner⟩ := joined
    obtain ⟨stream, found, role, filterKey, filterWaiter, same⟩ :=
      listed.follower matched routed ownerClient present last client
        sameWaiter joinedOwner
    refine
      ⟨stream, found, role, filterKey, filterWaiter,
        ⟨follower, client, sameWaiter, joinedOwner⟩, ?_⟩
    simpa [Stream.listed, or_assoc] using same.mp member
  · rintro ⟨stream, found, _, _, _, joined, stays⟩
    obtain ⟨follower, client, sameWaiter, joinedOwner⟩ := joined
    obtain ⟨other, otherFound, _, _, _, same⟩ :=
      listed.follower matched routed ownerClient present last client
        sameWaiter joinedOwner
    rw [found, Option.some.injEq] at otherFound
    subst otherFound
    apply same.mpr
    simpa [Stream.listed, or_assoc] using stays

end Reachable

/-- Of three followers one is destroyed, one after a local reply has ended its
stream, and one stays. -/
def partingRun : List Action :=
  [.callback 0 (.decodeHeaders true), .callback 1 (.decodeHeaders true),
    .callback 2 (.decodeHeaders true), .callback 3 (.decodeHeaders true),
    .callback 1 .onDestroy, .callback 1 (.proceed .removeWaiter),
    .callback 2 (.encode false (.headers [([5], [6])] true)),
    .callback 2 .onDestroy]

theorem waitersExact_partingRun :
    ∃ system inflight,
      checkedRun System.step (fun _ _ _ => true)
            (create 16 1
              [⟨0, [1], [2]⟩, ⟨1, [1], [2]⟩, ⟨0, [1], [2]⟩,
                ⟨1, [1], [2]⟩])
            partingRun =
          some system ∧
        system.world.monitor.cache.inflightMap [1, 47, 47, 47, 2] =
            some inflight ∧
          inflight.waiters.map Waiter.addr = [3, 2] ∧
            ∃ (owner : StreamId) (leader : Leader),
              system.world.clients[owner]? = some (.leader leader) ∧
                leader.key = [1, 47, 47, 47, 2] ∧
                  leader.unfinished = true ∧
                    inflight.waiters.Nodup ∧
                      ∀ waiter,
                        waiter ∈ inflight.waiters ↔
                          ∃ stream : Stream,
                            system.streams[waiter.addr]? =
                                some stream ∧
                              stream.filter.role = .follower ∧
                                stream.filter.key =
                                    [1, 47, 47, 47, 2] ∧
                                  stream.filter.waiter = some waiter ∧
                                    system.world.Joined waiter
                                        (some owner) ∧
                                      (stream.destroyed = false ∨
                                        stream.removing = true ∨
                                          stream.filter.done =
                                            true) := by
  obtain ⟨system, inflight, ran, present, listed⟩ :
      ∃ system inflight,
        checkedRun System.step (fun _ _ _ => true)
              (create 16 1
                [⟨0, [1], [2]⟩, ⟨1, [1], [2]⟩, ⟨0, [1], [2]⟩,
                  ⟨1, [1], [2]⟩])
              partingRun =
            some system ∧
          system.world.monitor.cache.inflightMap [1, 47, 47, 47, 2] =
              some inflight ∧
            inflight.waiters.map Waiter.addr = [3, 2] :=
    ⟨_, _, rfl, rfl, rfl⟩
  have reachable :
      Reachable System.step
        (create 16 1
          [⟨0, [1], [2]⟩, ⟨1, [1], [2]⟩, ⟨0, [1], [2]⟩, ⟨1, [1], [2]⟩])
        (fun _ _ _ => True) system :=
    Reachable.of_checkedRun (fun _ _ _ _ => trivial) Reachable.start ran
  exact
    ⟨system, inflight, ran, present, listed,
      waitersExact reachable present⟩

end System

end RingCache

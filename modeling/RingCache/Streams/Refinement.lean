import RingCache.Library.Coalescing
import RingCache.Streams.Delivery
import RingCache.Streams.Hits

/-!
# The system is a coalescing cache

An abstract coalescing cache names leaders where the code keeps bytes in
buffers, slots, closures and queues.  Every step of the system is, under
`World.Represents`, no step or one step of it.  What a follower has received
is at every moment the response of its leader as it stood after some publish
call, and the count of calls a follower has seen only grows.
-/

namespace RingCache

open Transition RingBufferCache

namespace World

variable {world next : World} {action : Action}

/-! ## The closures that are under way to a follower -/

/-- The closures for one waiter, in order. -/
def closuresFor (waiter : Waiter) (closures : List Closure) :
    List Closure :=
  Mail.contentsFor (fun closure => closure.waiter.addr)
    (fun closure => [closure]) waiter.addr closures

/-- The closures for a follower in the queue of its dispatcher, followed by
those that the current publish call of its leader has still to post. -/
def outstanding
    (world : World) (follower : Follower) (leader : Leader) :
    List Closure :=
  closuresFor follower.waiter (world.queues follower.waiter.dispatcher) ++
    closuresFor follower.waiter leader.call.pending

theorem outstanding_eq (follower : Follower) (leader : Leader) :
    world.outstanding follower leader =
      world.underWay (fun closure => [closure]) follower leader :=
  rfl

/-! ## What a follower has seen -/

/-- The events executed at a follower are the response after `seen` publish
calls, and each closure under way takes the follower to a later call, the last
one to the end of the log. -/
inductive Paced (log : Log) : List Event → Nat → List Closure → Prop
  | upToDate {events : List Event}
      (exact : ExactDelivery log events) :
      Paced log events log.length []
  | behind
      {events : List Event} {seen later : Nat} {closure : Closure}
      {rest : List Closure}
      (exact : ExactDelivery (log.take seen) events)
      (forward : seen ≤ later)
      (remaining : Paced log (events ++ closure.calls) later rest) :
      Paced log events seen (closure :: rest)

namespace Paced

variable {log : Log} {events : List Event} {seen : Nat}
variable {closures : List Closure}

theorem seen_le (paced : Paced log events seen closures) :
    seen ≤ log.length := by
  induction paced with
  | upToDate _ =>
      exact Nat.le_refl _
  | behind _ forward _ inductionHypothesis =>
      exact Nat.le_trans forward inductionHypothesis

theorem exact (paced : Paced log events seen closures) :
    ExactDelivery (log.take seen) events := by
  cases paced with
  | upToDate exact =>
      rw [List.take_length]
      exact exact
  | behind exact _ _ =>
      exact exact

/-- The next closure takes the follower to a later call. -/
theorem run
    {closure : Closure}
    (paced : Paced log events seen (closure :: closures)) :
    ∃ later,
      seen ≤ later ∧
        Paced log (events ++ closure.calls) later closures := by
  cases paced with
  | behind _ forward remaining =>
      exact ⟨_, forward, remaining⟩

/-- One more publish, and the closure that brings it. -/
theorem publish
    {call : Publish} {closure : Closure}
    (permitted : log.contract call = true)
    (callsEq : closure.calls = [call.event])
    (paced : Paced log events seen closures) :
    Paced (log ++ [call]) events seen (closures ++ [closure]) := by
  induction paced with
  | upToDate exact =>
      refine @Paced.behind _ _ _ (log ++ [call]).length _ _ ?_ ?_ ?_
      · rw [List.take_left]
        exact exact
      · simp
      · refine Paced.upToDate ?_
        rw [callsEq]
        exact exact.append permitted
  | @behind events seen later first rest exact forward remaining
      inductionHypothesis =>
      refine Paced.behind ?_ forward inductionHypothesis
      rw [List.take_append_of_le_length
        (Nat.le_trans forward remaining.seen_le)]
      exact exact

end Paced

end World

/-- What a stream is for the abstract cache. -/
def Client.role : Client → Coalescing.Role Key StreamId
  | .start _ => .idle
  | .hit lookup =>
      match lookup.source with
      | none => .idle
      | some source => .hit lookup.key source
  | .leader state => .leader state.key
  | .follower state =>
      match state.leader with
      | none => .idle
      | some owner => .follower state.key owner

namespace World

variable {world next : World} {action : Action}
variable {state : Coalescing.State Key StreamId Publish}

/-- The leader of the inflight response of a key. -/
def fetching (world : World) (key : Key) : Option StreamId :=
  if (world.monitor.cache.inflightMap key).isSome then
    world.history.lastLeader key
  else
    none

/-- The leader whose response is cached under a key. -/
def kept (world : World) (key : Key) : Option StreamId :=
  if (world.monitor.cache.cacheMap key).isSome then
    world.history.lastEnded key
  else
    none

/-- The abstract state names the leaders of the system: those of inflight
responses, those whose responses are cached, those that hits and followers
refer to. -/
structure Names
    (world : World) (state : Coalescing.State Key StreamId Publish) :
    Prop where
  fetching : ∀ key, state.fetching key = world.fetching key
  kept : ∀ key, state.kept key = world.kept key
  published :
    ∀ {stream : StreamId} {leader : Leader},
      world.clients[stream]? = some (.leader leader) →
        state.published stream = leader.log
  role :
    ∀ {stream : StreamId} {client : Client},
      world.clients[stream]? = some client →
        state.role stream = client.role

/-- What each follower has received is what its leader had published after
`seen` calls, and what is under way to a follower that is not cancelled brings
it up to date. -/
structure Views (world : World) (seen : StreamId → Nat) : Prop where
  exact :
    ∀ {stream owner : StreamId} {follower : Follower} {leader : Leader},
      world.clients[stream]? = some (.follower follower) →
      follower.leader = some owner →
      world.clients[owner]? = some (.leader leader) →
        seen stream ≤ leader.log.length ∧
          ExactDelivery (leader.log.take (seen stream))
            (world.delivered stream)
  paced :
    ∀ {stream owner : StreamId} {follower : Follower} {leader : Leader},
      world.clients[stream]? = some (.follower follower) →
      follower.leader = some owner →
      world.clients[owner]? = some (.leader leader) →
      world.cancelled follower.waiter.addr = false →
        Paced leader.log (world.delivered stream) (seen stream)
          (world.outstanding follower leader)

/-- The abstract state of the system. -/
structure Represents
    (world : World) (state : Coalescing.State Key StreamId Publish) :
    Prop where
  names : world.Names state
  views : world.Views state.seen

theorem create_represents
    (capacity : UInt64) (slotCount : Nat)
    (dispatchers : List DispatcherId) :
    (create capacity slotCount dispatchers).Represents
      Coalescing.State.initial := by
  refine
    { names :=
        { fetching := fun _ => rfl
          kept := fun _ => rfl
          published :=
            fun client => absurd client (create_client (by simp))
          role := ?_ }
      views :=
        { exact := fun client => absurd client (create_client (by simp))
          paced :=
            fun client => absurd client (create_client (by simp)) } }
  intro stream client found
  have member := List.mem_of_getElem? found
  simp only [create, List.mem_map] at member
  obtain ⟨dispatcher, _, rfl⟩ := member
  rfl

/-! ## Names -/

theorem fetching_congr
    (inflight :
      ∀ key,
        (next.monitor.cache.inflightMap key).isSome =
          (world.monitor.cache.inflightMap key).isSome)
    (history :
      ∀ key,
        next.history.lastLeader key = world.history.lastLeader key)
    (key : Key) :
    next.fetching key = world.fetching key := by
  unfold fetching
  rw [inflight, history]

theorem kept_congr
    (cacheMapEq :
      next.monitor.cache.cacheMap = world.monitor.cache.cacheMap)
    (history :
      ∀ key,
        next.history.lastEnded key = world.history.lastEnded key)
    (key : Key) :
    next.kept key = world.kept key := by
  unfold kept
  rw [cacheMapEq, history]

/-- A step of one stream, or of none: the rest of the streams keep their
names. -/
theorem Names.of_client
    {later : Coalescing.State Key StreamId Publish}
    (names : world.Names state)
    {stream : StreamId} {old new : Client}
    (client : world.clients[stream]? = some old)
    (clientsEq : next.clients = world.clients.set stream new)
    (roleEq :
      later.role = Function.update state.role stream new.role)
    (publishedEq :
      ∀ other, other ≠ stream →
        later.published other = state.published other)
    (ownLog :
      ∀ leader : Leader,
        new = .leader leader → later.published stream = leader.log)
    (fetchingEq : ∀ key, later.fetching key = next.fetching key)
    (keptEq : ∀ key, later.kept key = next.kept key) :
    next.Names later := by
  refine
    { fetching := fetchingEq
      kept := keptEq
      published := ?_
      role := ?_ }
  · intro other leader found
    rw [clientsEq, Table.getElem?_set_of_some client] at found
    by_cases same : other = stream
    · subst same
      rw [if_pos rfl, Option.some.injEq] at found
      exact ownLog leader found
    · rw [if_neg same] at found
      rw [publishedEq other same]
      exact names.published found
  · intro other found otherFound
    rw [clientsEq, Table.getElem?_set_of_some client] at otherFound
    rw [roleEq]
    by_cases same : other = stream
    · subst same
      rw [if_pos rfl, Option.some.injEq] at otherFound
      rw [Function.update_self, otherFound]
    · rw [if_neg same] at otherFound
      rw [Function.update_of_ne same]
      exact names.role otherFound

/-- One stream goes on in its role. -/
theorem Names.of_same_role
    {later : Coalescing.State Key StreamId Publish}
    (names : world.Names state)
    {stream : StreamId} {old new : Client}
    (client : world.clients[stream]? = some old)
    (clientsEq : next.clients = world.clients.set stream new)
    (sameRole : new.role = old.role)
    (roleEq : later.role = state.role)
    (publishedEq :
      ∀ other, other ≠ stream →
        later.published other = state.published other)
    (ownLog :
      ∀ leader : Leader,
        new = .leader leader → later.published stream = leader.log)
    (fetchingEq : ∀ key, later.fetching key = next.fetching key)
    (keptEq : ∀ key, later.kept key = next.kept key) :
    next.Names later := by
  refine
    names.of_client client clientsEq ?_ publishedEq ownLog fetchingEq
      keptEq
  rw [roleEq, sameRole, ← names.role client, Function.update_eq_self]

/-! ## Views -/

/-- A step that makes no follower, publishes nothing and runs nothing at a
follower that is not cancelled. -/
theorem Views.of_same
    {seen : StreamId → Nat} (views : world.Views seen)
    (followers :
      ∀ (stream : StreamId) (follower : Follower),
        next.clients[stream]? = some (.follower follower) →
          world.clients[stream]? = some (.follower follower))
    (cancelled :
      ∀ addr,
        next.cancelled addr = false → world.cancelled addr = false)
    (delivered : next.delivered = world.delivered)
    (same :
      ∀ (stream owner : StreamId) (follower : Follower)
          (leader : Leader),
        world.clients[stream]? = some (.follower follower) →
        follower.leader = some owner →
        next.clients[owner]? = some (.leader leader) →
          ∃ earlier : Leader,
            world.clients[owner]? = some (.leader earlier) ∧
              earlier.log = leader.log ∧
                (next.cancelled follower.waiter.addr = false →
                  next.outstanding follower leader =
                    world.outstanding follower earlier)) :
    next.Views seen := by
  refine { exact := ?_, paced := ?_ }
  · intro stream owner follower leader client joined ownerClient
    have before := followers _ _ client
    obtain ⟨earlier, earlierClient, sameLog, _⟩ :=
      same stream owner follower leader before joined ownerClient
    rw [← sameLog, delivered]
    exact views.exact before joined earlierClient
  · intro stream owner follower leader client joined ownerClient live
    have before := followers _ _ client
    obtain ⟨earlier, earlierClient, sameLog, sameClosures⟩ :=
      same stream owner follower leader before joined ownerClient
    rw [← sameLog, delivered, sameClosures live]
    exact
      views.paced before joined earlierClient (cancelled _ live)

theorem outstanding_congr
    (queuesEq : next.queues = world.queues)
    {leader later : Leader}
    (pendingEq : later.call.pending = leader.call.pending)
    (follower : Follower) :
    next.outstanding follower later =
      world.outstanding follower leader := by
  simp only [outstanding, queuesEq, pendingEq]

/-- A stream that is neither leader nor follower goes on. -/
theorem Views.of_other_update
    {seen : StreamId → Nat} (views : world.Views seen)
    {stream : StreamId} {old new : Client}
    (client : world.clients[stream]? = some old)
    (oldLeader : ∀ leader, old ≠ .leader leader)
    (newLeader : ∀ leader, new ≠ .leader leader)
    (oldFollower : ∀ follower, old ≠ .follower follower)
    (newFollower : ∀ follower, new ≠ .follower follower)
    (clientsEq : next.clients = world.clients.set stream new)
    (cancelledEq : next.cancelled = world.cancelled)
    (queuesEq : next.queues = world.queues)
    (deliveredEq : next.delivered = world.delivered) :
    next.Views seen := by
  refine views.of_same ?_ ?_ deliveredEq ?_
  · intro read follower found
    rw [clientsEq] at found
    exact
      (Table.getElem?_set_iff_of_ne client (oldFollower follower)
        (newFollower follower) read).mp found
  · intro addr live
    rwa [cancelledEq] at live
  · intro read owner follower leader _ _ ownerClient
    rw [clientsEq] at ownerClient
    exact
      ⟨leader,
        (Table.getElem?_set_iff_of_ne client (oldLeader leader)
          (newLeader leader) owner).mp ownerClient,
        rfl, fun _ => outstanding_congr queuesEq rfl follower⟩

/-- The call of a leader goes on without a publish or a post. -/
theorem Views.of_call_update
    {seen : StreamId → Nat} (views : world.Views seen)
    {stream : StreamId} {leader : Leader} {call : Call}
    (client : world.clients[stream]? = some (.leader leader))
    (clientsEq :
      next.clients =
        world.clients.set stream (.leader { leader with call := call }))
    (samePending : call.pending = leader.call.pending)
    (cancelledEq : next.cancelled = world.cancelled)
    (queuesEq : next.queues = world.queues)
    (deliveredEq : next.delivered = world.delivered) :
    next.Views seen := by
  refine views.of_same ?_ ?_ deliveredEq ?_
  · intro read follower found
    rw [clientsEq] at found
    exact
      (Table.getElem?_set_iff_of_ne client (by simp) (by simp)
        read).mp found
  · intro addr live
    rwa [cancelledEq] at live
  · intro read owner follower found _ _ ownerClient
    rw [clientsEq, Table.getElem?_set_of_some client] at ownerClient
    by_cases same : owner = stream
    · rw [if_pos same, Option.some.injEq, Client.leader.injEq]
        at ownerClient
      subst same ownerClient
      exact
        ⟨leader, client, rfl,
          fun _ => outstanding_congr queuesEq samePending follower⟩
    · rw [if_neg same] at ownerClient
      exact
        ⟨found, ownerClient, rfl,
          fun _ => outstanding_congr queuesEq rfl follower⟩

/-- A new leader has no followers yet. -/
theorem Views.lookupLead
    {seen : StreamId → Nat} (views : world.Views seen)
    (routed : world.Routed)
    {stream : StreamId} {dispatcher : DispatcherId} {key : Key}
    (client : world.clients[stream]? = some (.start dispatcher))
    (clientsEq :
      next.clients =
        world.clients.set stream
          (.leader { key := key, log := [], call := .idle }))
    (cancelledEq : next.cancelled = world.cancelled)
    (queuesEq : next.queues = world.queues)
    (deliveredEq : next.delivered = world.delivered) :
    next.Views seen := by
  refine views.of_same ?_ ?_ deliveredEq ?_
  · intro read follower found
    rw [clientsEq] at found
    exact
      (Table.getElem?_set_iff_of_ne client (by simp) (by simp)
        read).mp found
  · intro addr live
    rwa [cancelledEq] at live
  · intro read owner follower leader found joined ownerClient
    obtain ⟨other, earlier, otherJoined, otherClient, _⟩ :=
      routed.joinedLeader found
    rw [joined, Option.some.injEq] at otherJoined
    subst otherJoined
    have elsewhere : owner ≠ stream := by
      intro same
      subst same
      rw [client] at otherClient
      simp at otherClient
    rw [clientsEq, Table.getElem?_set_of_some client,
      if_neg elsewhere] at ownerClient
    exact
      ⟨leader, ownerClient, rfl,
        fun _ => outstanding_congr queuesEq rfl follower⟩

/-- A publish is one more call for its followers to see. -/
theorem Views.publish
    {seen : StreamId → Nat} (views : world.Views seen)
    (delivers : world.Delivers) (spooled : world.Spooled)
    (routed : world.Routed)
    {stream : StreamId} {leader : Leader} {call : Publish}
    {inflight : Inflight} {nextCall : Call}
    (client : world.clients[stream]? = some (.leader leader))
    (idle : leader.call = .idle)
    (present :
      world.monitor.cache.inflightMap leader.key = some inflight)
    (permitted : leader.log.contract call = true)
    (clientsEq :
      next.clients =
        world.clients.set stream
          (.leader
            { leader with
              log := leader.log ++ [call], call := nextCall }))
    (pendingEq : nextCall.pending = inflight.notify call)
    (cancelledEq : next.cancelled = world.cancelled)
    (queuesEq : next.queues = world.queues)
    (deliveredEq : next.delivered = world.delivered) :
    next.Views seen := by
  have notEnded : leader.log.ended = false :=
    Log.not_ended_of_orderly (Log.orderly_of_contract permitted)
  have headersEq :=
    (spooled.content client (Leader.unfinished_of_not_ended notEnded)
      present).1
  have before :
      ∀ {other : StreamId} {follower : Follower},
        next.clients[other]? = some (.follower follower) →
          world.clients[other]? = some (.follower follower) := by
    intro other follower found
    rw [clientsEq] at found
    exact
      (Table.getElem?_set_iff_of_ne client (by simp) (by simp)
        other).mp found
  refine { exact := ?_, paced := ?_ }
  · intro other owner follower otherLeader found joined ownerClient
    replace found := before found
    rw [deliveredEq]
    rw [clientsEq, Table.getElem?_set_of_some client] at ownerClient
    by_cases same : owner = stream
    · rw [if_pos same, Option.some.injEq, Client.leader.injEq]
        at ownerClient
      subst same ownerClient
      obtain ⟨bound, exact⟩ := views.exact found joined client
      rw [List.take_append_of_le_length bound, List.length_append]
      exact ⟨Nat.le_add_right_of_le bound, exact⟩
    · rw [if_neg same] at ownerClient
      exact views.exact found joined ownerClient
  · intro other owner follower otherLeader found joined ownerClient live
    replace found := before found
    rw [cancelledEq] at live
    rw [deliveredEq]
    rw [clientsEq, Table.getElem?_set_of_some client] at ownerClient
    by_cases same : owner = stream
    · rw [if_pos same, Option.some.injEq, Client.leader.injEq]
        at ownerClient
      subst same ownerClient
      obtain ⟨waitedFor, waitedForPresent, member⟩ :=
        delivers.waiting found live joined client notEnded
      rw [present, Option.some.injEq] at waitedForPresent
      subst waitedForPresent
      have ownEvent :=
        calls_closureFor headersEq permitted follower.waiter
      have ownClosure :
          closuresFor follower.waiter (inflight.notify call) =
            [inflight.closureFor call follower.waiter] :=
        mailFor_notify call (routed.distinct present) member
      have grown :
          next.outstanding follower
              { leader with
                log := leader.log ++ [call], call := nextCall } =
            world.outstanding follower leader ++
              [inflight.closureFor call follower.waiter] := by
        have nothingPending :
            closuresFor follower.waiter leader.call.pending = [] := by
          rw [idle]
          rfl
        simp only [outstanding, queuesEq, pendingEq,
          ownClosure, nothingPending, List.append_nil]
      rw [grown]
      exact
        (views.paced found joined client live).publish permitted
          ownEvent
    · rw [if_neg same] at ownerClient
      rw [outstanding_congr queuesEq rfl]
      exact views.paced found joined ownerClient live

theorem Views.post
    {seen : StreamId → Nat} (views : world.Views seen)
    (routed : world.Routed)
    {stream : StreamId} {leader : Leader} {closure : Closure}
    {rest : List Closure}
    (client : world.clients[stream]? = some (.leader leader))
    (posting : leader.call = .posting (closure :: rest))
    (clientsEq :
      next.clients =
        world.clients.set stream
          (.leader { leader with call := .posting rest }))
    (cancelledEq : next.cancelled = world.cancelled)
    (queuesEq : next.queues = World.post world.queues closure)
    (deliveredEq : next.delivered = world.delivered) :
    next.Views seen := by
  refine views.of_same ?_ ?_ deliveredEq ?_
  · intro read follower found
    rw [clientsEq] at found
    exact
      (Table.getElem?_set_iff_of_ne client (by simp) (by simp)
        read).mp found
  · intro addr live
    rwa [cancelledEq] at live
  · intro read owner follower found followerClient joined ownerClient
    have moved :=
      routed.underWay_post (fun closure => [closure]) client posting
        followerClient queuesEq
    rw [clientsEq, Table.getElem?_set_of_some client] at ownerClient
    by_cases same : owner = stream
    · rw [if_pos same, Option.some.injEq, Client.leader.injEq]
        at ownerClient
      subst same ownerClient
      exact ⟨leader, client, rfl, fun _ => moved.1 joined⟩
    · rw [if_neg same] at ownerClient
      exact
        ⟨found, ownerClient, rfl,
          fun _ => moved.2 owner found joined same⟩

/-- The closure that a dispatcher runs takes the follower it is for to a later
call of its leader. -/
theorem Views.run
    {seen : StreamId → Nat} (views : world.Views seen)
    (routed : world.Routed)
    {dispatcher : DispatcherId} {closure : Closure}
    {rest : List Closure}
    (queued : world.queues dispatcher = closure :: rest)
    (live : world.cancelled closure.waiter.addr = false)
    (clientsEq : next.clients = world.clients)
    (cancelledEq : next.cancelled = world.cancelled)
    (queuesEq :
      next.queues = Function.update world.queues dispatcher rest)
    (deliveredEq :
      next.delivered =
        Function.update world.delivered
          closure.waiter.callbacks.stream
          (world.delivered closure.waiter.callbacks.stream ++
            closure.calls)) :
    ∃ (stream owner : StreamId) (follower : Follower)
        (leader : Leader) (later : Nat),
      world.clients[stream]? = some (.follower follower) ∧
        follower.leader = some owner ∧
          world.clients[owner]? = some (.leader leader) ∧
            seen stream ≤ later ∧ later ≤ leader.log.length ∧
              next.Views (Function.update seen stream later) := by
  have first : closure ∈ world.queues dispatcher := by
    rw [queued]
    exact List.mem_cons_self
  obtain ⟨_, _, follower, client, sameWaiter, _⟩ := routed.queued first
  obtain ⟨owner, leader, joined, ownerClient, _⟩ :=
    routed.joinedLeader client
  have mine : closure.waiter.addr = follower.waiter.addr := by
    rw [sameWaiter]
  have callbacks :
      closure.waiter.callbacks.stream = closure.waiter.addr := by
    rw [← sameWaiter, (routed.waiter_addr client).2, sameWaiter]
  rw [callbacks] at deliveredEq
  have paced :=
    views.paced client joined ownerClient (mine ▸ live)
  have taken :
      world.outstanding follower leader =
        closure :: next.outstanding follower leader :=
    (routed.underWay_of_own_run _ queued queuesEq client mine leader).2
  rw [taken] at paced
  obtain ⟨later, forward, remaining⟩ := paced.run
  refine
    ⟨closure.waiter.addr, owner, follower, leader, later, client,
      joined, ownerClient, forward, remaining.seen_le, ?_⟩
  refine { exact := ?_, paced := ?_ }
  · intro other otherOwner otherFollower otherLeader found otherJoined
      otherClient
    rw [clientsEq] at found otherClient
    rw [deliveredEq]
    by_cases same : other = closure.waiter.addr
    · subst same
      rw [client, Option.some.injEq, Client.follower.injEq] at found
      subst found
      rw [joined, Option.some.injEq] at otherJoined
      subst otherJoined
      rw [ownerClient, Option.some.injEq, Client.leader.injEq]
        at otherClient
      subst otherClient
      rw [Function.update_self, Function.update_self]
      exact ⟨remaining.seen_le, remaining.exact⟩
    · rw [Function.update_of_ne same, Function.update_of_ne same]
      exact views.exact found otherJoined otherClient
  · intro other otherOwner otherFollower otherLeader found otherJoined
      otherClient otherLive
    rw [clientsEq] at found otherClient
    rw [cancelledEq] at otherLive
    rw [deliveredEq]
    by_cases same : other = closure.waiter.addr
    · subst same
      rw [client, Option.some.injEq, Client.follower.injEq] at found
      subst found
      rw [joined, Option.some.injEq] at otherJoined
      subst otherJoined
      rw [ownerClient, Option.some.injEq, Client.leader.injEq]
        at otherClient
      subst otherClient
      rw [Function.update_self, Function.update_self]
      exact remaining
    · rw [Function.update_of_ne same, Function.update_of_ne same]
      have notMine :
          closure.waiter.addr ≠ otherFollower.waiter.addr := by
        rw [(routed.waiter_addr found).1]
        exact Ne.symm same
      rw [outstanding_eq,
        underWay_of_other_run _ queued queuesEq notMine]
      exact views.paced found otherJoined otherClient otherLive

/-- The closure of a cancelled waiter leaves its queue. -/
theorem Views.runCancelled
    {seen : StreamId → Nat} (views : world.Views seen)
    {dispatcher : DispatcherId} {closure : Closure}
    {rest : List Closure}
    (queued : world.queues dispatcher = closure :: rest)
    (cancelled : world.cancelled closure.waiter.addr = true)
    (clientsEq : next.clients = world.clients)
    (cancelledEq : next.cancelled = world.cancelled)
    (queuesEq :
      next.queues = Function.update world.queues dispatcher rest)
    (deliveredEq : next.delivered = world.delivered) :
    next.Views seen := by
  refine views.of_same ?_ ?_ deliveredEq ?_
  · intro stream follower found
    rwa [clientsEq] at found
  · intro addr live
    rwa [cancelledEq] at live
  · intro stream owner follower leader client joined ownerClient
    rw [clientsEq] at ownerClient
    refine ⟨leader, ownerClient, rfl, ?_⟩
    intro live
    refine underWay_of_other_run _ queued queuesEq ?_ leader
    intro sameAddr
    rw [cancelledEq, ← sameAddr, cancelled] at live
    simp at live

/-! ## A new follower -/

/-- A backfill takes a new follower to the end of the log. -/
theorem Paced.backfill
    {log : Log} {inflight : Inflight}
    (headersEq : inflight.headers = log.headers?)
    (bodyEq : inflight.body = log.body)
    (headersFirst : log.headers? = none → log = [])
    (notEnded : log.ended = false) (waiter : Waiter) :
    Paced log [] 0 (backfillPosts inflight waiter) := by
  have exact :=
    ExactDelivery.backfill headersEq bodyEq headersFirst notEnded waiter
  have nothing : ExactDelivery [] [] :=
    { silent := fun _ => rfl
      headersOnce := by simp [Log.headers?]
      body := rfl
      openBefore := by simp
      endLast := by simp }
  cases stored : inflight.headers with
  | none =>
      have empty := headersFirst (headersEq.symm.trans stored)
      subst empty
      simp only [backfillPosts, stored]
      exact Paced.upToDate nothing
  | some headers =>
      simp only [backfillPosts, stored] at exact ⊢
      refine @Paced.behind _ _ _ log.length _ _ ?_ (Nat.zero_le _) ?_
      · rw [List.take_zero]
        exact nothing
      · rw [List.flatMap_singleton] at exact
        exact Paced.upToDate exact

/-- A new follower has seen nothing, and the backfill is under way to it. -/
theorem Views.lookupFollow
    {seen : StreamId → Nat} (views : world.Views seen)
    (flight : world.SingleFlight) (spooled : world.Spooled)
    (routed : world.Routed)
    {stream : StreamId} {dispatcher : DispatcherId} {key : Key}
    {inflight : Inflight}
    (client : world.clients[stream]? = some (.start dispatcher))
    (free : world.monitor.frame = none)
    (present : world.monitor.cache.inflightMap key = some inflight)
    (clientsEq :
      next.clients =
        world.clients.set stream
          (.follower (world.followerOf stream dispatcher key)))
    (cancelledEq : next.cancelled = world.cancelled)
    (queuesEq :
      next.queues =
        (backfillPosts inflight
          (waiterOf stream dispatcher)).foldl World.post world.queues)
    (deliveredEq : next.delivered = world.delivered) :
    next.Views (Function.update seen stream 0) := by
  have sameLeader :
      ∀ {other : StreamId} {leader : Leader},
        next.clients[other]? = some (.leader leader) →
          world.clients[other]? = some (.leader leader) := by
    intro other leader found
    rw [clientsEq] at found
    exact
      (Table.getElem?_set_iff_of_ne client (by simp) (by simp)
        other).mp found
  have joins :
      ∀ {owner : StreamId} {leader : Leader},
        world.history.lastLeader key = some owner →
        world.clients[owner]? = some (.leader leader) →
          Paced leader.log (next.delivered stream) 0
            (next.outstanding (world.followerOf stream dispatcher key)
              leader) := by
    intro owner leader joined ownerClient
    obtain ⟨lastOwner, lastLeader, last, lastClient, lastKey,
      unfinished⟩ := flight.owner present
    rw [joined, Option.some.injEq] at last
    subst last
    rw [ownerClient, Option.some.injEq, Client.leader.injEq]
      at lastClient
    subst lastClient
    rw [← lastKey] at present
    obtain ⟨headersEq, bodyEq⟩ :=
      spooled.content ownerClient unfinished present
    have nothingDelivered := routed.nothing_delivered client
    have onlyBackfill :
        next.outstanding (world.followerOf stream dispatcher key)
            leader =
          backfillPosts inflight (waiterOf stream dispatcher) := by
      rw [outstanding_eq,
        routed.underWay_backfill _ client ownerClient inflight queuesEq]
      exact List.flatMap_singleton' _
    rw [deliveredEq, nothingDelivered, onlyBackfill]
    exact
      Paced.backfill headersEq bodyEq
        (spooled.headersFirst ownerClient)
        (flight.not_ended_of_unfinished free ownerClient unfinished) _
  have elsewhere :
      ∀ {other : StreamId} {follower : Follower} (leader : Leader),
        other ≠ stream →
        world.clients[other]? = some (.follower follower) →
          next.outstanding follower leader =
            world.outstanding follower leader := by
    intro other follower leader different found
    have otherWaiter :
        (waiterOf stream dispatcher).addr ≠ follower.waiter.addr := by
      rw [(routed.waiter_addr found).1]
      exact Ne.symm different
    exact
      underWay_backfill_other _ inflight otherWaiter queuesEq leader
  refine { exact := ?_, paced := ?_ }
  · intro other owner follower leader found joined ownerClient
    replace ownerClient := sameLeader ownerClient
    rw [clientsEq, Table.getElem?_set_of_some client] at found
    by_cases same : other = stream
    · rw [if_pos same, Option.some.injEq, Client.follower.injEq] at found
      subst same found
      have paced := joins joined ownerClient
      rw [Function.update_self]
      exact ⟨paced.seen_le, paced.exact⟩
    · rw [if_neg same] at found
      rw [Function.update_of_ne same, deliveredEq]
      exact views.exact found joined ownerClient
  · intro other owner follower leader found joined ownerClient live
    replace ownerClient := sameLeader ownerClient
    rw [cancelledEq] at live
    rw [clientsEq, Table.getElem?_set_of_some client] at found
    by_cases same : other = stream
    · rw [if_pos same, Option.some.injEq, Client.follower.injEq] at found
      subst same found
      rw [Function.update_self]
      exact joins joined ownerClient
    · rw [if_neg same] at found
      rw [Function.update_of_ne same, deliveredEq,
        elsewhere leader same found]
      exact views.paced found joined ownerClient live

/-! ## Every step is a step of the abstract cache or none -/

/-- A hit refers to the leader whose response is kept. -/
theorem Represents.lookupHit
    (represents : world.Represents state) (stored : world.Stored)
    (wellFormed : world.monitor.cache.WellFormed)
    {stream : StreamId} {dispatcher : DispatcherId} {key : Key}
    {ptr : EntryPtr} {lookup : HitLookup}
    (client : world.clients[stream]? = some (.start dispatcher))
    (mapped : world.monitor.cache.cacheMap key = some ptr)
    (sameKey : lookup.key = key)
    (sameSource : lookup.source = world.history.lastEnded key)
    (nextEq :
      next =
        world.update stream (.hit lookup)
          { cache := world.monitor.cache.updatePins ptr (· + 1) }) :
    ∃ later,
      Coalescing.Step Log.ended state later ∧
        next.Represents later := by
  subst nextEq
  obtain ⟨position, entry, resident, _, entryKey⟩ :=
    (wellFormed.indexed key ptr).mp mapped
  obtain ⟨source, ended, _⟩ := stored.resident resident
  rw [entryKey] at ended
  have keeps : state.kept key = some source := by
    rw [represents.names.kept key, kept, mapped]
    exact ended
  have newRole : (Client.hit lookup).role = .hit key source := by
    simp only [Client.role, sameSource, ended, sameKey]
  refine
    ⟨_, .hit (represents.names.role client) keeps,
      { names := ?_, views := ?_ }⟩
  · exact
      represents.names.of_client client rfl (by rw [newRole])
        (fun _ _ => rfl) (by simp) represents.names.fetching
        represents.names.kept
  · exact
      represents.views.of_other_update client (by simp) (by simp)
        (by simp) (by simp) rfl rfl rfl rfl

/-- A new leader fetches the response of its key. -/
theorem Represents.lookupLead
    (represents : world.Represents state) (routed : world.Routed)
    {stream : StreamId} {dispatcher : DispatcherId} {key : Key}
    (client : world.clients[stream]? = some (.start dispatcher))
    (unmapped : world.monitor.cache.cacheMap key = none)
    (missing : world.monitor.cache.inflightMap key = none) :
    ∃ later,
      Coalescing.Step Log.ended state later ∧
        Represents
          { world.update stream
              (.leader { key := key, log := [], call := .idle })
              { cache :=
                  world.monitor.cache.setInflight key (some {}) } with
            history := .led stream key :: world.history }
          later := by
  have keepsNot : state.kept key = none := by
    rw [represents.names.kept key, kept, unmapped]
    rfl
  have unfetched : state.fetching key = none := by
    rw [represents.names.fetching key, fetching, missing]
    rfl
  refine
    ⟨_, .lead (represents.names.role client) keepsNot unfetched,
      { names := ?_, views := ?_ }⟩
  · refine
      represents.names.of_client client rfl rfl
        (fun other different => Function.update_of_ne different _ _)
        ?_ ?_ ?_
    · intro leader same
      cases same
      exact Function.update_self _ _ _
    · intro other
      by_cases same : other = key
      · subst same
        simp [fetching, setInflight, update]
      · simp only [Function.update_of_ne same]
        rw [represents.names.fetching other]
        simp [fetching, setInflight, update, same, Ne.symm same]
    · intro other
      rw [represents.names.kept other]
      exact (kept_congr rfl (fun _ => by simp) other).symm
  · exact
      represents.views.lookupLead routed client rfl rfl rfl rfl

/-- A new follower refers to the leader that fetches the response. -/
theorem Represents.lookupFollow
    (represents : world.Represents state) (flight : world.SingleFlight)
    (spooled : world.Spooled) (routed : world.Routed)
    {stream : StreamId} {dispatcher : DispatcherId} {key : Key}
    {inflight : Inflight}
    (client : world.clients[stream]? = some (.start dispatcher))
    (free : world.monitor.frame = none)
    (unmapped : world.monitor.cache.cacheMap key = none)
    (present : world.monitor.cache.inflightMap key = some inflight) :
    ∃ later,
      Coalescing.Step Log.ended state later ∧
        Represents
          { world.update stream
              (.follower (world.followerOf stream dispatcher key))
              { cache :=
                  world.monitor.cache.setInflight key
                    (some { inflight with
                      waiters :=
                        inflight.waiters ++
                          [waiterOf stream dispatcher] }) } with
            queues :=
              (backfillPosts inflight
                (waiterOf stream dispatcher)).foldl post world.queues }
          later := by
  have keepsNot : state.kept key = none := by
    rw [represents.names.kept key, kept, unmapped]
    rfl
  obtain ⟨owner, leader, last, _⟩ := flight.owner present
  have fetched : state.fetching key = some owner := by
    rw [represents.names.fetching key, fetching, present]
    exact last
  have newRole :
      (Client.follower (world.followerOf stream dispatcher key)).role =
        .follower key owner := by
    simp only [Client.role, followerOf, last]
  refine
    ⟨_, .follow (represents.names.role client) keepsNot fetched,
      { names := ?_, views := ?_ }⟩
  · refine
      represents.names.of_client client rfl (by rw [newRole])
        (fun _ _ => rfl) (by simp) ?_ represents.names.kept
    intro other
    rw [represents.names.fetching other]
    symm
    apply fetching_congr
    · exact isSome_setInflight present _
    · intro _
      rfl
  · exact
      represents.views.lookupFollow flight spooled routed client free
        present rfl rfl rfl rfl

/-- A publish extends what the leader of its key has published. -/
theorem Represents.publish
    (represents : world.Represents state) (flight : world.SingleFlight)
    (spooled : world.Spooled) (routed : world.Routed)
    (delivers : world.Delivers)
    {stream : StreamId} {leader : Leader} {call : Publish}
    {inflight : Inflight} {nextCall : Call}
    (client : world.clients[stream]? = some (.leader leader))
    (idle : leader.call = .idle)
    (present :
      world.monitor.cache.inflightMap leader.key = some inflight)
    (permitted : leader.log.contract call = true)
    (clientsEq :
      next.clients =
        world.clients.set stream
          (.leader
            { leader with
              log := leader.log ++ [call], call := nextCall }))
    (pendingEq : nextCall.pending = inflight.notify call)
    (cacheEq :
      next.monitor.cache =
        world.monitor.cache.setInflight leader.key
          (some (inflight.receive call)))
    (cancelledEq : next.cancelled = world.cancelled)
    (queuesEq : next.queues = world.queues)
    (deliveredEq : next.delivered = world.delivered)
    (historyEq : next.history = world.history) :
    ∃ later,
      Coalescing.Step Log.ended state later ∧
        next.Represents later := by
  have notEnded : leader.log.ended = false :=
    Log.not_ended_of_orderly (Log.orderly_of_contract permitted)
  have last :=
    (flight.owned client (Leader.unfinished_of_not_ended notEnded)).2
  have published := represents.names.published client
  have fetched : state.fetching leader.key = some stream := by
    rw [represents.names.fetching leader.key, fetching, present]
    exact last
  refine
    ⟨_, .publish call fetched (by rw [published]; exact notEnded),
      { names := ?_, views := ?_ }⟩
  · refine
      represents.names.of_same_role client clientsEq rfl rfl
        (fun other different => Function.update_of_ne different _ _)
        ?_ ?_ ?_
    · intro later same
      cases same
      rw [← published]
      exact Function.update_self _ _ _
    · intro key
      rw [represents.names.fetching key]
      refine (fetching_congr ?_ (by simp [historyEq]) key).symm
      rw [cacheEq]
      exact isSome_setInflight present _
    · intro key
      rw [represents.names.kept key]
      refine (kept_congr ?_ (by simp [historyEq]) key).symm
      rw [cacheEq]
      rfl
  · exact
      represents.views.publish delivers spooled routed client idle
        present permitted clientsEq pendingEq cancelledEq queuesEq
        deliveredEq

/-- An iteration of the eviction scan forgets at most one kept response. -/
theorem Represents.scan
    (represents : world.Represents state)
    {frame : FinalizeFrame} {cache : RingBufferCache}
    {point : ScanPoint}
    (iterated :
      world.monitor.cache.scanIteration frame.size frame.point =
        .ok (cache, point)) :
    ∃ later,
      Relation.ReflGen (Coalescing.Step Log.ended) state later ∧
        Represents
          { world with
            monitor :=
              { cache := cache
                frame := some { frame with point := point } }
            history :=
              evictedKeys world.monitor.cache cache ++ world.history }
          later := by
  have fetchingSame :
      ∀ key,
        state.fetching key =
          fetching
            { world with
              monitor :=
                { cache := cache
                  frame := some { frame with point := point } }
              history :=
                evictedKeys world.monitor.cache cache ++
                  world.history }
            key := by
    intro key
    rw [represents.names.fetching key, fetching, fetching,
      (scanIteration_frame iterated).2.2.1,
      History.lastLeader_evictedKeys]
  have views :
      Views
        { world with
          monitor :=
            { cache := cache
              frame := some { frame with point := point } }
          history :=
            evictedKeys world.monitor.cache cache ++ world.history }
        state.seen :=
    { exact := represents.views.exact, paced := represents.views.paced }
  obtain ⟨evicted, evictedCases, nextCases⟩ :=
    scanIteration_eq_ok iterated
  have cacheMapEq : cache.cacheMap = evicted.cacheMap := by
    rcases nextCases with rfl | rfl <;> rfl
  rcases evictedCases with rfl | ⟨entry, _, _, rfl⟩
  · refine ⟨state, .refl, { names := ?_, views := views }⟩
    refine
      { fetching := fetchingSame
        kept := ?_
        published := represents.names.published
        role := represents.names.role }
    intro key
    rw [represents.names.kept key, kept, kept, cacheMapEq,
      History.lastEnded_evictedKeys]
  · refine
      ⟨_, .single (.evict entry.key), { names := ?_, views := views }⟩
    refine
      { fetching := fetchingSame
        kept := ?_
        published := represents.names.published
        role := represents.names.role }
    intro key
    rw [kept, cacheMapEq, History.lastEnded_evictedKeys]
    by_cases same : key = entry.key
    · subst same
      simp [withoutHead]
    · simp only [Function.update_of_ne same]
      rw [represents.names.kept key, kept, withoutHead]
      simp only [Function.update_of_ne same]

/-- The end of a finalization keeps the response or drops it. -/
theorem Represents.finish
    (represents : world.Represents state) (flight : world.SingleFlight)
    (wellFormed : world.monitor.cache.WellFormed)
    {stream : StreamId} {leader : Leader} {posts : List Closure}
    {result cached : Bool} {cache : RingBufferCache}
    (client : world.clients[stream]? = some (.leader leader))
    (finalizing : leader.call = .finalizing posts)
    (completed :
      world.monitor.cache.completeFinalize leader.key result =
        .ok cache)
    (clientsEq :
      next.clients =
        world.clients.set stream
          (.leader { leader with call := .posting posts }))
    (cacheEq : next.monitor.cache = cache)
    (cancelledEq : next.cancelled = world.cancelled)
    (queuesEq : next.queues = world.queues)
    (deliveredEq : next.delivered = world.delivered)
    (historyEq :
      next.history =
        .ended stream leader.key cached :: world.history) :
    ∃ later,
      Coalescing.Step Log.ended state later ∧
        next.Represents later := by
  have ended := (flight.holder client finalizing).1
  have unfinished : leader.unfinished = true := by
    simp [Leader.unfinished, finalizing]
  obtain ⟨⟨inflight, present⟩, last⟩ := flight.owned client unfinished
  have published := represents.names.published client
  have complete : Log.ended (state.published stream) = true := by
    rw [published]
    exact ended
  have fetched : state.fetching leader.key = some stream := by
    rw [represents.names.fetching leader.key, fetching, present]
    exact last
  have fetchingSame :
      ∀ key,
        Function.update state.fetching leader.key none key =
          next.fetching key := by
    intro key
    rw [fetching, cacheEq, historyEq, History.lastLeader_ended,
      completeFinalize_inflightMap completed]
    by_cases same : key = leader.key
    · subst same
      simp
    · rw [Function.update_of_ne same, represents.names.fetching key,
        fetching, if_neg same]
  have views : next.Views state.seen :=
    represents.views.of_call_update client clientsEq
      (by rw [finalizing]; rfl) cancelledEq queuesEq deliveredEq
  have ownLog :
      ∀ later : Leader,
        Client.leader { leader with call := .posting posts } =
            .leader later →
          state.published stream = later.log := by
    intro later same
    cases same
    exact published
  obtain ⟨_, _, ⟨_, dropped⟩ | ⟨_, headers, _, _, inserted⟩⟩ :=
    completeFinalize_eq_ok_iff.mp completed
  · refine ⟨_, .drop fetched complete, { names := ?_, views := views }⟩
    refine
      represents.names.of_same_role client clientsEq rfl rfl
        (fun _ _ => rfl) ownLog fetchingSame ?_
    intro key
    rw [represents.names.kept key, kept, kept, cacheEq, historyEq,
      History.lastEnded_ended, dropped]
    by_cases same : leader.key = key
    · subst same
      rw [setInflight, wellFormed.unmapped_of_inflight present]
      rfl
    · rw [if_neg same]
      rfl
  · refine ⟨_, .keep fetched complete, { names := ?_, views := views }⟩
    refine
      represents.names.of_same_role client clientsEq rfl rfl
        (fun _ _ => rfl) ownLog fetchingSame ?_
    intro key
    rw [kept, cacheEq, historyEq, History.lastEnded_ended, inserted]
    by_cases same : leader.key = key
    · subst same
      simp [setInflight, withHead, newEntry]
    · simp only [Function.update_of_ne (Ne.symm same), if_neg same]
      rw [represents.names.kept key, kept]
      simp [setInflight, withHead, newEntry, Ne.symm same]

/-- A closure that runs lets the follower it is for see more. -/
theorem Represents.run
    (represents : world.Represents state) (routed : world.Routed)
    {dispatcher : DispatcherId} {closure : Closure}
    {rest : List Closure}
    (queued : world.queues dispatcher = closure :: rest)
    (live : world.cancelled closure.waiter.addr = false)
    (clientsEq : next.clients = world.clients)
    (monitorEq : next.monitor = world.monitor)
    (cancelledEq : next.cancelled = world.cancelled)
    (queuesEq :
      next.queues = Function.update world.queues dispatcher rest)
    (deliveredEq :
      next.delivered =
        Function.update world.delivered
          closure.waiter.callbacks.stream
          (world.delivered closure.waiter.callbacks.stream ++
            closure.calls))
    (historyEq : next.history = world.history) :
    ∃ later,
      Coalescing.Step Log.ended state later ∧
        next.Represents later := by
  obtain ⟨stream, owner, follower, leader, count, client, joined,
    ownerClient, forward, available, views⟩ :=
    represents.views.run routed queued live clientsEq cancelledEq
      queuesEq deliveredEq
  have follows : state.role stream = .follower follower.key owner := by
    rw [represents.names.role client]
    simp only [Client.role, joined]
  rw [← represents.names.published ownerClient] at available
  refine
    ⟨_, .receive count follows forward available,
      { names := ?_, views := views }⟩
  refine
    { fetching := ?_
      kept := ?_
      published := ?_
      role := ?_ }
  · intro key
    rw [represents.names.fetching key, fetching, fetching, monitorEq,
      historyEq]
  · intro key
    rw [represents.names.kept key, kept, kept, monitorEq, historyEq]
  · intro other otherLeader found
    rw [clientsEq] at found
    exact represents.names.published found
  · intro other otherClient found
    rw [clientsEq] at found
    exact represents.names.role found

/-- A stream goes on without an effect on names and views. -/
theorem Represents.stutter
    (represents : world.Represents state)
    {stream : StreamId} {old new : Client}
    (client : world.clients[stream]? = some old)
    (clientsEq : next.clients = world.clients.set stream new)
    (sameRole : new.role = old.role)
    (sameLog :
      ∀ leader : Leader,
        new = .leader leader → state.published stream = leader.log)
    (inflightEq :
      next.monitor.cache.inflightMap =
        world.monitor.cache.inflightMap)
    (cacheMapEq :
      next.monitor.cache.cacheMap = world.monitor.cache.cacheMap)
    (historyEq : next.history = world.history)
    (views : next.Views state.seen) :
    ∃ later,
      Relation.ReflGen (Coalescing.Step Log.ended) state later ∧
        next.Represents later := by
  refine ⟨state, .refl, { names := ?_, views := views }⟩
  refine
    represents.names.of_same_role client clientsEq sameRole rfl
      (fun _ _ => rfl) sameLog ?_ ?_
  · intro key
    rw [represents.names.fetching key, fetching, fetching, inflightEq,
      historyEq]
  · intro key
    rw [represents.names.kept key, kept, kept, cacheMapEq, historyEq]

/-- The lookup of a hit goes on. -/
theorem Represents.hitStutter
    (represents : world.Represents state)
    {stream : StreamId} {lookup later : HitLookup} {monitor : Monitor}
    (client : world.clients[stream]? = some (.hit lookup))
    (sameKey : later.key = lookup.key)
    (sameSource : later.source = lookup.source)
    (inflightEq :
      monitor.cache.inflightMap = world.monitor.cache.inflightMap)
    (cacheMapEq :
      monitor.cache.cacheMap = world.monitor.cache.cacheMap) :
    ∃ mate,
      Relation.ReflGen (Coalescing.Step Log.ended) state mate ∧
        (world.update stream (.hit later) monitor).Represents mate := by
  refine
    represents.stutter client rfl ?_ (by simp) inflightEq cacheMapEq rfl
      (represents.views.of_other_update client (by simp) (by simp)
        (by simp) (by simp) rfl rfl rfl rfl)
  simp only [Client.role, sameKey, sameSource]

/-- Every step in which leaders keep their call contract is a step of the
abstract cache or none. -/
theorem Represents.step
    (represents : world.Represents state) (flight : world.SingleFlight)
    (spooled : world.Spooled) (routed : world.Routed)
    (stored : world.Stored) (delivers : world.Delivers)
    (wellFormed : world.monitor.cache.WellFormed)
    (effect : Effect world action next)
    (contract : world.leaderCalls Log.contract action = true) :
    ∃ later,
      Relation.ReflGen (Coalescing.Step Log.ended) state later ∧
        next.Represents later := by
  have once :
      ∀ {after : World},
        (∃ later,
            Coalescing.Step Log.ended state later ∧
              after.Represents later) →
          ∃ later,
            Relation.ReflGen (Coalescing.Step Log.ended) state later ∧
              after.Represents later := by
    intro after stepped
    obtain ⟨later, moved, related⟩ := stepped
    exact ⟨later, .single moved, related⟩
  cases effect with
  | lookupHit client free mapped read =>
      exact
        once
          (represents.lookupHit stored wellFormed client mapped rfl rfl
            rfl)
  | lookupLead client free unmapped missing =>
      exact once (represents.lookupLead routed client unmapped missing)
  | lookupFollow client free unmapped present headersFirst =>
      exact
        once
          (represents.lookupFollow flight spooled routed client free
            unmapped present)
  | copyHeaders client stage read =>
      exact represents.hitStutter client rfl rfl rfl rfl
  | handOutEmpty client stage empty read =>
      exact represents.hitStutter client rfl rfl rfl rfl
  | handOutBody client stage nonempty =>
      exact represents.hitStutter client rfl rfl rfl rfl
  | release client stage read =>
      exact represents.hitStutter client rfl rfl rfl rfl
  | publishLost client idle free missing =>
      exact
        absurd missing
          (flight.publish_finds client
            (Log.orderly_of_contract
              (permits_of_leaderCalls client contract)))
  | publishOpen client idle free present stays =>
      exact
        once
          (represents.publish flight spooled routed delivers client idle
            present (permits_of_leaderCalls client contract) rfl rfl rfl
            rfl rfl rfl rfl)
  | publishEnd client idle free present ends held =>
      exact
        once
          (represents.publish flight spooled routed delivers client idle
            present (permits_of_leaderCalls client contract) rfl rfl rfl
            rfl rfl rfl rfl)
  | scan client finalizing running iterated =>
      exact represents.scan iterated
  | finish client finalizing running atReturn completed =>
      obtain ⟨_, frame, frameRunning, frameKey⟩ :=
        flight.holder client finalizing
      rw [running, Option.some.injEq] at frameRunning
      subst frameRunning
      rw [frameKey] at completed
      exact
        once
          (represents.finish flight wellFormed client finalizing
            completed rfl rfl rfl rfl rfl rfl)
  | @post stream leader closure rest client posting =>
      have published := represents.names.published client
      refine
        represents.stutter client rfl rfl ?_ rfl rfl rfl
          (represents.views.post routed client posting rfl rfl rfl rfl)
      intro later same
      cases same
      exact published
  | @return_ stream leader client posting =>
      have published := represents.names.published client
      refine
        represents.stutter client rfl rfl ?_ rfl rfl rfl
          (represents.views.of_call_update client rfl
            (by rw [posting]; rfl) rfl rfl rfl)
      intro later same
      cases same
      exact published
  | runCancelled queued cancelled =>
      refine
        ⟨state, .refl,
          { names :=
              { fetching := represents.names.fetching
                kept := represents.names.kept
                published := represents.names.published
                role := represents.names.role }
            views := ?_ }⟩
      exact
        represents.views.runCancelled queued cancelled rfl rfl rfl rfl
  | run queued live =>
      exact
        once
          (represents.run routed queued live rfl rfl rfl rfl rfl rfl)
  | @cancel stream follower client =>
      refine
        ⟨state, .refl,
          { names :=
              { fetching := represents.names.fetching
                kept := represents.names.kept
                published := represents.names.published
                role := represents.names.role }
            views := ?_ }⟩
      refine
        represents.views.of_same (fun _ _ found => found) ?_ rfl
          (fun _ _ _ leader _ _ found =>
            ⟨leader, found, rfl, fun _ => rfl⟩)
      intro addr live
      by_cases same : addr = follower.waiter.addr
      · subst same
        simp at live
      · simpa only [Function.update_of_ne same] using live
  | @removeWaiter stream follower client cancelled free =>
      refine
        ⟨state, .refl,
          { names := ?_
            views :=
              { exact := represents.views.exact
                paced := represents.views.paced } }⟩
      refine
        { fetching := ?_
          kept := ?_
          published := represents.names.published
          role := represents.names.role }
      · intro key
        rw [represents.names.fetching key, fetching, fetching,
          isSome_removeWaiterLocked]
      · intro key
        have sameRing :=
          Monitor.SameRing.of_replacedInflight
            (removeWaiterLocked_cache world.monitor.cache follower.key
              follower.waiter.addr)
        rw [represents.names.kept key, kept, kept, sameRing.cacheMap]

/-! ## The bytes of the named responses -/

/-- The system holds the responses that the abstract state names: buffers of
inflight responses, resident entries and what hits have pinned are the bytes
that the named leaders have published, and a follower has received what its
leader had published after the calls it has seen. -/
structure Holds
    (world : World) (state : Coalescing.State Key StreamId Publish) :
    Prop where
  spools :
    ∀ {key : Key} {inflight : Inflight},
      world.monitor.cache.inflightMap key = some inflight →
        ∃ source,
          state.fetching key = some source ∧
            inflight.headers = Log.headers? (state.published source) ∧
              inflight.body = Log.body (state.published source)
  entries :
    ∀ {position : Nat} {entry : Entry},
      world.monitor.cache.Resident position entry →
        ∃ source,
          state.kept entry.key = some source ∧
            Log.headers? (state.published source) =
                some entry.headers ∧
              Log.body (state.published source) = entry.body
  hits :
    ∀ {stream : StreamId} {lookup : HitLookup},
      world.clients[stream]? = some (.hit lookup) →
        ∃ source,
          state.role stream = .hit lookup.key source ∧
            lookup.bodyLength =
                (Log.body (state.published source)).length ∧
              (∀ headers,
                lookup.stage.headers? = some headers →
                  Log.headers? (state.published source) =
                    some headers) ∧
                ∀ {position : Nat} {entry : Entry},
                  world.monitor.cache.Resident position entry →
                  entry.addr = lookup.entry →
                    Log.headers? (state.published source) =
                        some entry.headers ∧
                      Log.body (state.published source) = entry.body
  followers :
    ∀ {stream : StreamId} {follower : Follower},
      world.clients[stream]? = some (.follower follower) →
        ∃ source,
          state.role stream = .follower follower.key source ∧
            ExactDelivery
              ((state.published source).take (state.seen stream))
              (world.delivered stream)

theorem Represents.holds
    (represents : world.Represents state) (flight : world.SingleFlight)
    (spooled : world.Spooled) (routed : world.Routed)
    (stored : world.Stored)
    (wellFormed : world.monitor.cache.WellFormed) :
    world.Holds state := by
  refine
    { spools := ?_
      entries := ?_
      hits := ?_
      followers := ?_ }
  · intro key inflight present
    obtain ⟨stream, leader, last, client, sameKey, unfinished⟩ :=
      flight.owner present
    have fetched : state.fetching key = some stream := by
      rw [represents.names.fetching key, fetching, present]
      exact last
    rw [← sameKey] at present
    have content := spooled.content client unfinished present
    rw [← represents.names.published client] at content
    exact ⟨stream, fetched, content⟩
  · intro position entry resident
    obtain ⟨source, ended, leader, client, wrote⟩ :=
      stored.resident resident
    have mapped :=
      (wellFormed.indexed entry.key entry.addr).mpr
        ⟨position, entry, resident, rfl, rfl⟩
    have keeps : state.kept entry.key = some source := by
      rw [represents.names.kept entry.key, kept, mapped]
      exact ended
    refine ⟨source, keeps, ?_⟩
    rw [represents.names.published client]
    exact ⟨wrote.headers, wrote.body⟩
  · intro stream lookup client
    obtain ⟨source, snapshot, sourceEq, snapshotEq,
      ⟨leader, leaderClient, wrote⟩, _, lengthEq, copied⟩ :=
      stored.served client
    have role : state.role stream = .hit lookup.key source := by
      rw [represents.names.role client]
      simp only [Client.role, sourceEq]
    refine ⟨source, role, ?_, ?_, ?_⟩
    · rw [represents.names.published leaderClient, wrote.body]
      exact lengthEq
    · intro headers copiedHeaders
      rw [represents.names.published leaderClient, wrote.headers,
        copied headers copiedHeaders]
    · intro position entry resident sameAddr
      have same :=
        stored.unchanged client snapshotEq resident sameAddr
      rw [represents.names.published leaderClient]
      exact ⟨(wrote.of_same same).headers, (wrote.of_same same).body⟩
  · intro stream follower client
    obtain ⟨owner, leader, joined, ownerClient, _⟩ :=
      routed.joinedLeader client
    have role : state.role stream = .follower follower.key owner := by
      rw [represents.names.role client]
      simp only [Client.role, joined]
    have received := (represents.views.exact client joined ownerClient).2
    rw [← represents.names.published ownerClient] at received
    exact ⟨owner, role, received⟩

section Reachable

variable {capacity : UInt64} {slotCount : Nat}
variable {dispatchers : List DispatcherId}

theorem represents_of_step
    (reachable :
      Reachable step (create capacity slotCount dispatchers)
        (LeadersCall Log.contract) world)
    (represents : world.Represents state)
    (stepped : world.step action = .ok next)
    (contract : LeadersCall Log.contract world action next) :
    ∃ later,
      Relation.ReflGen (Coalescing.Step Log.ended) state later ∧
        next.Represents later := by
  have orderly := orderly_of_contract reachable
  exact
    represents.step (singleFlight_of_reachable orderly)
      (spooled_of_reachable orderly) (routed_of_reachable orderly)
      (stored_of_reachable orderly) (delivers_of_reachable reachable)
      (wellFormed_of_reachable orderly) (step_effect stepped) contract

theorem represents_of_reachable
    (reachable :
      Reachable step (create capacity slotCount dispatchers)
        (LeadersCall Log.contract) world)
    (represents : world.Represents state)
    (continued :
      Reachable step world (LeadersCall Log.contract) next) :
    ∃ later,
      Relation.ReflTransGen (Coalescing.Step Log.ended) state later ∧
        next.Represents later := by
  refine continued.simulate represents ?_
  intro before action after mate reached related stepped contract
  exact
    represents_of_step (reachable.trans reached) related stepped contract

theorem holds_of_reachable
    (reachable :
      Reachable step (create capacity slotCount dispatchers)
        (LeadersCall Log.contract) world)
    (represents : world.Represents state) :
    world.Holds state := by
  have orderly := orderly_of_contract reachable
  exact
    represents.holds (singleFlight_of_reachable orderly)
      (spooled_of_reachable orderly) (routed_of_reachable orderly)
      (stored_of_reachable orderly) (wellFormed_of_reachable orderly)

/-- Every run in which leaders keep their call contract is a run of the
abstract coalescing cache, and stays one however it is continued: the states
reached show the same leaders, hits and followers, and hold exactly the bytes
of the responses that the abstract state names.  Each further step is one
abstract step or none. -/
theorem refinesCoalescing
    (reachable :
      Reachable step (create capacity slotCount dispatchers)
        (LeadersCall Log.contract) world)
    (continued :
      Reachable step world (LeadersCall Log.contract) next) :
    ∃ state later : Coalescing.State Key StreamId Publish,
      Coalescing.Reached Log.ended state ∧
        world.Represents state ∧ world.Holds state ∧
          Relation.ReflTransGen (Coalescing.Step Log.ended) state
              later ∧
            next.Represents later ∧ next.Holds later ∧
              ∀ action after,
                next.step action = .ok after →
                LeadersCall Log.contract next action after →
                  ∃ further,
                    Relation.ReflGen (Coalescing.Step Log.ended) later
                        further ∧
                      after.Represents further ∧
                        after.Holds further := by
  obtain ⟨state, reached, represents⟩ :=
    represents_of_reachable Reachable.start
      (create_represents capacity slotCount dispatchers) reachable
  obtain ⟨later, moved, laterRepresents⟩ :=
    represents_of_reachable reachable represents continued
  have whole := reachable.trans continued
  refine
    ⟨state, later, reached, represents,
      holds_of_reachable reachable represents, moved, laterRepresents,
      holds_of_reachable whole laterRepresents, ?_⟩
  intro action after stepped contract
  obtain ⟨further, once, afterRepresents⟩ :=
    represents_of_step whole laterRepresents stepped contract
  exact
    ⟨further, once, afterRepresents,
      holds_of_reachable (Reachable.next whole stepped contract)
        afterRepresents⟩

end Reachable

/-- A fourth stream hits what the leader of `coalescedRun` has published, and
a follower of that leader gets its headers after that. -/
def servedRun : List Action :=
  [.move 3 (.lookup [1]), .move 3 .copyHeaders, .run 1]

theorem refinesCoalescing_servedRun :
    ∃ world next,
      checkedRun step
            (fun world action _ =>
              world.leaderCalls Log.contract action)
            (create 9 1 [0, 1, 0, 1]) coalescedRun =
          some world ∧
        checkedRun step
              (fun world action _ =>
                world.leaderCalls Log.contract action)
              world servedRun =
            some next ∧
          ∃ state later : Coalescing.State Key StreamId Publish,
            Coalescing.Reached Log.ended state ∧
              world.Represents state ∧ world.Holds state ∧
                Relation.ReflTransGen (Coalescing.Step Log.ended) state
                    later ∧
                  next.Represents later ∧ next.Holds later ∧
                    ∀ action after,
                      next.step action = .ok after →
                      LeadersCall Log.contract next action after →
                        ∃ further,
                          Relation.ReflGen (Coalescing.Step Log.ended)
                              later further ∧
                            after.Represents further ∧
                              after.Holds further := by
  obtain ⟨world, next, ran, continued⟩ :
      ∃ world next,
        checkedRun step
              (fun world action _ =>
                world.leaderCalls Log.contract action)
              (create 9 1 [0, 1, 0, 1]) coalescedRun =
            some world ∧
          checkedRun step
                (fun world action _ =>
                  world.leaderCalls Log.contract action)
                world servedRun =
              some next :=
    ⟨_, _, rfl, rfl⟩
  exact
    ⟨world, next, ran, continued,
      refinesCoalescing
        (Reachable.of_checkedRun (fun _ _ _ checked => checked)
          Reachable.start ran)
        (Reachable.of_checkedRun (fun _ _ _ checked => checked)
          Reachable.start continued)⟩

end World

end RingCache

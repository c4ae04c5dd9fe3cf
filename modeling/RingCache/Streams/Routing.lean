import Mathlib.Data.List.Perm.Basic
import RingCache.Streams.Spool

/-!
# Where posted closures go

A closure carries the waiter of the follower it is for.  `World.Routed` says
which followers the closures in the queues, the closures still to be posted
and the waiters of an inflight response belong to: a leader only ever posts to
the followers that joined it, each of them once for a publish.
-/

namespace RingCache

open Transition RingBufferCache

/-! ## Removing a waiter -/

/-- Swapping with the last element and popping removes one element, up to
order. -/
theorem RingBufferCache.swapPop_perm
    {waiters : List Waiter} {position : Nat}
    (bound : position < waiters.length) :
    (swapPop waiters position).Perm (waiters.eraseIdx position) := by
  have nonempty : waiters ≠ [] := by
    intro empty
    simp [empty] at bound
  obtain ⟨init, last, rfl⟩ :
      ∃ init last, waiters = init ++ [last] :=
    ⟨_, _, (List.dropLast_concat_getLast nonempty).symm⟩
  have popped :
      swapPop (init ++ [last]) position =
        ((init ++ [last]).set position last).dropLast := by
    simp [swapPop]
  rw [popped]
  by_cases inner : position < init.length
  · rw [List.set_append_left _ _ inner, List.dropLast_concat,
      List.eraseIdx_append_of_lt_length inner]
    refine (List.set_perm_cons_eraseIdx inner last).trans ?_
    exact (List.perm_append_singleton last _).symm
  · have atEnd : position = init.length := by
      simp only [List.length_append, List.length_singleton] at bound
      omega
    subst atEnd
    rw [List.eraseIdx_append_of_length_le (Nat.le_refl _)]
    simp

namespace World

variable {world next : World}

/-- `waiter` is the waiter of a follower, which has joined `leader`. -/
def Joined (world : World) (waiter : Waiter) (leader : Option StreamId) :
    Prop :=
  ∃ follower : Follower,
    world.clients[waiter.addr]? = some (.follower follower) ∧
      follower.waiter = waiter ∧ follower.leader = leader

theorem Joined.mono
    {waiter : Waiter} {leader : Option StreamId}
    (joined : world.Joined waiter leader)
    (kept :
      ∀ (stream : StreamId) (follower : Follower),
        world.clients[stream]? = some (.follower follower) →
          next.clients[stream]? = some (.follower follower)) :
    next.Joined waiter leader := by
  obtain ⟨follower, client, sameWaiter, sameLeader⟩ := joined
  exact ⟨follower, kept _ _ client, sameWaiter, sameLeader⟩

/-- Followers have waiters of their own and joined a leader of their key, and
closures and waiters belong to followers. -/
structure Routed (world : World) : Prop where
  ownWaiter :
    ∀ {stream : StreamId} {follower : Follower},
      world.clients[stream]? = some (.follower follower) →
        ∃ dispatcher, follower.waiter = waiterOf stream dispatcher
  joinedLeader :
    ∀ {stream : StreamId} {follower : Follower},
      world.clients[stream]? = some (.follower follower) →
        ∃ (owner : StreamId) (leader : Leader),
          follower.leader = some owner ∧
            world.clients[owner]? = some (.leader leader) ∧
              leader.key = follower.key
  queued :
    ∀ {dispatcher : DispatcherId} {closure : Closure},
      closure ∈ world.queues dispatcher →
        closure.waiter.dispatcher = dispatcher ∧
          ∃ leader, world.Joined closure.waiter leader
  pending :
    ∀ {stream : StreamId} {leader : Leader} {closure : Closure},
      world.clients[stream]? = some (.leader leader) →
      closure ∈ leader.call.pending →
        world.Joined closure.waiter (some stream)
  attached :
    ∀ {key : Key} {inflight : Inflight} {waiter : Waiter},
      world.monitor.cache.inflightMap key = some inflight →
      waiter ∈ inflight.waiters →
        world.Joined waiter (world.history.lastLeader key)
  distinct :
    ∀ {key : Key} {inflight : Inflight},
      world.monitor.cache.inflightMap key = some inflight →
        (inflight.waiters.map Waiter.addr).Nodup
  receiver :
    ∀ {stream : StreamId},
      world.delivered stream ≠ [] →
        ∃ follower : Follower,
          world.clients[stream]? = some (.follower follower)

theorem create_routed
    (capacity : UInt64) (slotCount : Nat)
    (dispatchers : List DispatcherId) :
    (create capacity slotCount dispatchers).Routed := by
  refine
    { ownWaiter := fun client => absurd client (create_client (by simp))
      joinedLeader :=
        fun client => absurd client (create_client (by simp))
      queued := ?_
      pending := fun client => absurd client (create_client (by simp))
      attached := ?_
      distinct := ?_
      receiver := ?_ }
  · intro dispatcher closure member
    simp [create] at member
  · intro key inflight waiter present
    simp [create, Monitor.create, RingBufferCache.create] at present
  · intro key inflight present
    simp [create, Monitor.create, RingBufferCache.create] at present
  · intro stream nonempty
    simp [create] at nonempty

/-- A step that makes no follower, posts nothing and takes no snapshot of
waiters. -/
theorem Routed.of_same
    (routed : world.Routed)
    (followers :
      ∀ (stream : StreamId) (follower : Follower),
        next.clients[stream]? = some (.follower follower) ↔
          world.clients[stream]? = some (.follower follower))
    (leaders :
      ∀ (stream : StreamId) (leader : Leader),
        next.clients[stream]? = some (.leader leader) →
          ∃ earlier : Leader,
            world.clients[stream]? = some (.leader earlier) ∧
              ∀ closure ∈ leader.call.pending,
                closure ∈ earlier.call.pending)
    (keptLeaders :
      ∀ (stream : StreamId) (leader : Leader),
        world.clients[stream]? = some (.leader leader) →
          ∃ later : Leader,
            next.clients[stream]? = some (.leader later) ∧
              later.key = leader.key)
    (queues :
      ∀ dispatcher, ∀ closure ∈ next.queues dispatcher,
        closure ∈ world.queues dispatcher)
    (waiters :
      ∀ key inflight,
        next.monitor.cache.inflightMap key = some inflight →
          ∃ earlier,
            world.monitor.cache.inflightMap key = some earlier ∧
              inflight.waiters ⊆ earlier.waiters ∧
                ((earlier.waiters.map Waiter.addr).Nodup →
                  (inflight.waiters.map Waiter.addr).Nodup))
    (lastLeaders :
      ∀ key,
        next.history.lastLeader key = world.history.lastLeader key)
    (delivered : next.delivered = world.delivered) :
    next.Routed := by
  have kept :
      ∀ (stream : StreamId) (follower : Follower),
        world.clients[stream]? = some (.follower follower) →
          next.clients[stream]? = some (.follower follower) :=
    fun stream follower => (followers stream follower).mpr
  refine
    { ownWaiter := ?_
      joinedLeader := ?_
      queued := ?_
      pending := ?_
      attached := ?_
      distinct := ?_
      receiver := ?_ }
  · intro stream follower client
    exact routed.ownWaiter ((followers _ _).mp client)
  · intro stream follower client
    obtain ⟨owner, leader, joined, found, sameKey⟩ :=
      routed.joinedLeader ((followers _ _).mp client)
    obtain ⟨later, laterFound, laterKey⟩ := keptLeaders owner leader found
    exact
      ⟨owner, later, joined, laterFound, laterKey.trans sameKey⟩
  · intro dispatcher closure member
    obtain ⟨same, leader, joined⟩ :=
      routed.queued (queues dispatcher closure member)
    exact ⟨same, leader, joined.mono kept⟩
  · intro stream leader closure client member
    obtain ⟨earlier, found, subset⟩ := leaders stream leader client
    exact (routed.pending found (subset closure member)).mono kept
  · intro key inflight waiter present member
    obtain ⟨earlier, earlierPresent, subset, _⟩ :=
      waiters key inflight present
    rw [lastLeaders]
    exact (routed.attached earlierPresent (subset member)).mono kept
  · intro key inflight present
    obtain ⟨earlier, earlierPresent, _, nodup⟩ :=
      waiters key inflight present
    exact nodup (routed.distinct earlierPresent)
  · intro stream nonempty
    rw [delivered] at nonempty
    obtain ⟨follower, client⟩ := routed.receiver nonempty
    exact ⟨follower, kept _ _ client⟩

/-- Streams that are neither leaders nor followers are none of the
routing. -/
theorem Routed.of_other_update
    (routed : world.Routed)
    {stream : StreamId} {old new : Client}
    (client : world.clients[stream]? = some old)
    (oldLeader : ∀ leader, old ≠ .leader leader)
    (newLeader : ∀ leader, new ≠ .leader leader)
    (oldFollower : ∀ follower, old ≠ .follower follower)
    (newFollower : ∀ follower, new ≠ .follower follower)
    (clientsEq : next.clients = world.clients.set stream new)
    (queuesEq : next.queues = world.queues)
    (inflightEq :
      next.monitor.cache.inflightMap = world.monitor.cache.inflightMap)
    (historyEq : next.history = world.history)
    (deliveredEq : next.delivered = world.delivered) :
    next.Routed := by
  have sameLeaders :
      ∀ (read : StreamId) (leader : Leader),
        next.clients[read]? = some (.leader leader) ↔
          world.clients[read]? = some (.leader leader) := by
    intro read leader
    rw [clientsEq]
    exact
      Table.getElem?_set_iff_of_ne client (oldLeader leader)
        (newLeader leader) read
  refine
    routed.of_same ?_ ?_ ?_ ?_ ?_ (fun key => by rw [historyEq])
      deliveredEq
  · intro read follower
    rw [clientsEq]
    exact
      Table.getElem?_set_iff_of_ne client (oldFollower follower)
        (newFollower follower) read
  · intro read leader found
    exact
      ⟨leader, (sameLeaders read leader).mp found,
        fun _ member => member⟩
  · intro read leader found
    exact ⟨leader, (sameLeaders read leader).mpr found, rfl⟩
  · intro dispatcher closure member
    rwa [queuesEq] at member
  · intro key inflight present
    rw [inflightEq] at present
    exact ⟨inflight, present, fun _ member => member, id⟩

/-- A leader goes on: its followers are those it had, the closures it has to
post are old ones or go to followers that joined it. -/
theorem Routed.of_leader_update
    (routed : world.Routed)
    {stream : StreamId} {old new : Leader}
    (client : world.clients[stream]? = some (.leader old))
    (clientsEq :
      next.clients = world.clients.set stream (.leader new))
    (sameKey : new.key = old.key)
    (pending :
      ∀ closure ∈ new.call.pending,
        world.Joined closure.waiter (some stream))
    (queues :
      ∀ dispatcher, ∀ closure ∈ next.queues dispatcher,
        closure.waiter.dispatcher = dispatcher ∧
          ∃ leader, world.Joined closure.waiter leader)
    (waiters :
      ∀ key inflight,
        next.monitor.cache.inflightMap key = some inflight →
          ∃ earlier,
            world.monitor.cache.inflightMap key = some earlier ∧
              inflight.waiters = earlier.waiters)
    (lastLeaders :
      ∀ key,
        next.history.lastLeader key = world.history.lastLeader key)
    (deliveredEq : next.delivered = world.delivered) :
    next.Routed := by
  have followers :
      ∀ (read : StreamId) (follower : Follower),
        next.clients[read]? = some (.follower follower) ↔
          world.clients[read]? = some (.follower follower) := by
    intro read follower
    rw [clientsEq]
    exact
      Table.getElem?_set_iff_of_ne client (by simp) (by simp) read
  have kept :
      ∀ (read : StreamId) (follower : Follower),
        world.clients[read]? = some (.follower follower) →
          next.clients[read]? = some (.follower follower) :=
    fun read follower => (followers read follower).mpr
  have read :
      ∀ other : StreamId,
        next.clients[other]? =
          if other = stream then some (.leader new)
          else world.clients[other]? := by
    intro other
    rw [clientsEq]
    exact Table.getElem?_set_of_some client (.leader new) other
  refine
    { ownWaiter := ?_
      joinedLeader := ?_
      queued := ?_
      pending := ?_
      attached := ?_
      distinct := ?_
      receiver := ?_ }
  · intro other follower found
    exact routed.ownWaiter ((followers _ _).mp found)
  · intro other follower found
    obtain ⟨owner, leader, joined, ownerClient, leaderKey⟩ :=
      routed.joinedLeader ((followers _ _).mp found)
    by_cases same : owner = stream
    · subst same
      rw [client, Option.some.injEq, Client.leader.injEq] at ownerClient
      subst ownerClient
      exact
        ⟨owner, new, joined, by simp [read], sameKey.trans leaderKey⟩
    · exact
        ⟨owner, leader, joined, by simpa [read, same] using ownerClient,
          leaderKey⟩
  · intro dispatcher closure member
    obtain ⟨same, leader, joined⟩ := queues dispatcher closure member
    exact ⟨same, leader, joined.mono kept⟩
  · intro other leader closure found member
    by_cases same : other = stream
    · subst same
      have sameLeader : new = leader := by simpa [read] using found
      subst leader
      exact (pending closure member).mono kept
    · rw [read, if_neg same] at found
      exact (routed.pending found member).mono kept
  · intro key inflight waiter present member
    obtain ⟨earlier, earlierPresent, sameWaiters⟩ :=
      waiters key inflight present
    rw [sameWaiters] at member
    rw [lastLeaders]
    exact (routed.attached earlierPresent member).mono kept
  · intro key inflight present
    obtain ⟨earlier, earlierPresent, sameWaiters⟩ :=
      waiters key inflight present
    rw [sameWaiters]
    exact routed.distinct earlierPresent
  · intro other nonempty
    rw [deliveredEq] at nonempty
    obtain ⟨follower, found⟩ := routed.receiver nonempty
    exact ⟨follower, kept _ _ found⟩

/-- A new leader has nobody waiting for it. -/
theorem Routed.lookupLead
    (routed : world.Routed)
    {stream : StreamId} {dispatcher : DispatcherId} {key : Key}
    (client : world.clients[stream]? = some (.start dispatcher)) :
    Routed
      { world.update stream
          (.leader { key := key, log := [], call := .idle })
          { cache :=
              world.monitor.cache.setInflight key (some {}) } with
        history := .led stream key :: world.history } := by
  have read :=
    get_update client (.leader { key := key, log := [], call := .idle })
      { cache := world.monitor.cache.setInflight key (some {}) }
  have kept :
      ∀ (other : StreamId) (follower : Follower),
        world.clients[other]? = some (.follower follower) →
          (world.update stream
                (.leader { key := key, log := [], call := .idle })
                { cache :=
                    world.monitor.cache.setInflight key
                      (some {}) }).clients[other]? =
            some (.follower follower) := by
    intro other follower
    exact
      (Table.getElem?_set_iff_of_ne client (by simp) (by simp)
        other).mpr
  have before :
      ∀ (other : StreamId) (follower : Follower),
        (world.update stream
              (.leader { key := key, log := [], call := .idle })
              { cache :=
                  world.monitor.cache.setInflight key
                    (some {}) }).clients[other]? =
            some (.follower follower) →
          world.clients[other]? = some (.follower follower) := by
    intro other follower
    exact
      (Table.getElem?_set_iff_of_ne client (by simp) (by simp)
        other).mp
  refine
    { ownWaiter := fun found => routed.ownWaiter (before _ _ found)
      joinedLeader := ?_
      queued := ?_
      pending := ?_
      attached := ?_
      distinct := ?_
      receiver := ?_ }
  · intro other follower found
    obtain ⟨owner, leader, joined, ownerClient, leaderKey⟩ :=
      routed.joinedLeader (before _ _ found)
    have elsewhere : owner ≠ stream := by
      intro same
      subst same
      rw [client] at ownerClient
      simp at ownerClient
    exact
      ⟨owner, leader, joined,
        by simpa [read, elsewhere] using ownerClient, leaderKey⟩
  · intro target closure member
    obtain ⟨same, leader, joined⟩ := routed.queued member
    exact ⟨same, leader, joined.mono kept⟩
  · intro other leader closure found member
    by_cases same : other = stream
    · subst same
      have sameLeader :
          ({ key := key, log := [], call := .idle } : Leader) =
            leader := by
        simpa [read] using found
      subst leader
      simp [Call.pending] at member
    · have beforeFound :
          world.clients[other]? = some (.leader leader) := by
        simpa [read, same] using found
      exact (routed.pending beforeFound member).mono kept
  · intro other inflight waiter present member
    by_cases same : other = key
    · subst same
      have empty : ({} : Inflight) = inflight := by
        simpa [World.update, setInflight] using present
      subst inflight
      simp at member
    · have beforePresent :
          world.monitor.cache.inflightMap other = some inflight := by
        simpa [World.update, setInflight, same] using present
      rw [History.lastLeader_led, if_neg (Ne.symm same)]
      exact (routed.attached beforePresent member).mono kept
  · intro other inflight present
    by_cases same : other = key
    · subst same
      have empty : ({} : Inflight) = inflight := by
        simpa [World.update, setInflight] using present
      subst inflight
      simp
    · have beforePresent :
          world.monitor.cache.inflightMap other = some inflight := by
        simpa [World.update, setInflight, same] using present
      exact routed.distinct beforePresent
  · intro other nonempty
    obtain ⟨follower, found⟩ := routed.receiver nonempty
    exact ⟨follower, kept _ _ found⟩

/-- The closures in the queues after a join are the old ones and the
backfill. -/
theorem mem_queues_backfill
    {inflight : Inflight} {waiter : Waiter}
    {queues : DispatcherId → List Closure}
    {dispatcher : DispatcherId} {closure : Closure}
    (member :
      closure ∈
        (backfillPosts inflight waiter).foldl post queues dispatcher) :
    closure ∈ queues dispatcher ∨
      (closure.waiter = waiter ∧ waiter.dispatcher = dispatcher) := by
  unfold backfillPosts at member
  cases stored : inflight.headers with
  | none =>
      simp only [stored, List.foldl_nil] at member
      exact Or.inl member
  | some headers =>
      simp only [stored, List.foldl_cons, List.foldl_nil, post,
        Closure.waiter] at member
      by_cases same : dispatcher = waiter.dispatcher
      · subst same
        rw [Function.update_self, List.mem_append,
          List.mem_singleton] at member
        rcases member with old | rfl
        · exact Or.inl old
        · exact Or.inr ⟨rfl, rfl⟩
      · rw [Function.update_of_ne same] at member
        exact Or.inl member

/-- The waiter of a stream that joins is not yet among the waiters. -/
theorem Routed.distinct_join
    (routed : world.Routed)
    {stream : StreamId} {dispatcher : DispatcherId} {key : Key}
    {inflight : Inflight}
    (client : world.clients[stream]? = some (.start dispatcher))
    (present : world.monitor.cache.inflightMap key = some inflight) :
    ((inflight.waiters ++ [waiterOf stream dispatcher]).map
      Waiter.addr).Nodup := by
  rw [List.map_append, List.nodup_append]
  refine ⟨routed.distinct present, by simp, ?_⟩
  intro addr member otherAddr otherMember sameAddr
  obtain ⟨waiter, waiterMember, rfl⟩ := List.mem_map.mp member
  simp only [List.map_cons, List.map_nil, List.mem_singleton]
    at otherMember
  obtain ⟨follower, found, _⟩ := routed.attached present waiterMember
  have atStream : waiter.addr = stream := sameAddr.trans otherMember
  rw [atStream, client] at found
  simp at found

/-- A new follower joins the leader that owns the inflight response. -/
theorem Routed.lookupFollow
    (routed : world.Routed) (flight : world.SingleFlight)
    {stream : StreamId} {dispatcher : DispatcherId} {key : Key}
    {inflight : Inflight}
    (client : world.clients[stream]? = some (.start dispatcher))
    (present : world.monitor.cache.inflightMap key = some inflight) :
    Routed
      { world.update stream
          (.follower (world.followerOf stream dispatcher key))
          { cache :=
              world.monitor.cache.setInflight key
                (some { inflight with
                  waiters :=
                    inflight.waiters ++
                      [waiterOf stream dispatcher] }) } with
        queues :=
          (backfillPosts inflight
            (waiterOf stream dispatcher)).foldl post world.queues } := by
  have read :=
    Table.getElem?_set_of_some client
      (.follower (world.followerOf stream dispatcher key))
  have kept :
      ∀ (other : StreamId) (follower : Follower),
        world.clients[other]? = some (.follower follower) →
          (world.clients.set stream
              (.follower
                (world.followerOf stream dispatcher key)))[other]? =
            some (.follower follower) := by
    intro other follower found
    have elsewhere : other ≠ stream := by
      intro same
      subst same
      rw [client] at found
      simp at found
    rw [read, if_neg elsewhere]
    exact found
  have sameLeaders :
      ∀ (other : StreamId) (leader : Leader),
        (world.clients.set stream
              (.follower
                (world.followerOf stream dispatcher key)))[other]? =
            some (.leader leader) ↔
          world.clients[other]? = some (.leader leader) := by
    intro other leader
    exact Table.getElem?_set_iff_of_ne client (by simp) (by simp) other
  have joins :
      ∃ follower : Follower,
        (world.clients.set stream
              (.follower
                (world.followerOf stream dispatcher key)))[stream]? =
            some (.follower follower) ∧
          follower.waiter = waiterOf stream dispatcher ∧
            follower.leader = world.history.lastLeader key :=
    ⟨_, (read stream).trans (if_pos rfl), rfl, rfl⟩
  refine
    { ownWaiter := ?_
      joinedLeader := ?_
      queued := ?_
      pending := ?_
      attached := ?_
      distinct := ?_
      receiver := ?_ }
  · intro other follower found
    replace found := (read other).symm.trans found
    by_cases same : other = stream
    · subst same
      rw [if_pos rfl, Option.some.injEq, Client.follower.injEq] at found
      subst found
      exact ⟨dispatcher, rfl⟩
    · rw [if_neg same] at found
      exact routed.ownWaiter found
  · intro other follower found
    replace found := (read other).symm.trans found
    by_cases same : other = stream
    · rw [if_pos same, Option.some.injEq, Client.follower.injEq] at found
      subst found
      obtain ⟨owner, leader, last, ownerClient, ownerKey, _⟩ :=
        flight.owner present
      exact
        ⟨owner, leader, last, (sameLeaders _ _).mpr ownerClient,
          ownerKey⟩
    · rw [if_neg same] at found
      obtain ⟨owner, leader, joined, ownerClient, leaderKey⟩ :=
        routed.joinedLeader found
      exact
        ⟨owner, leader, joined, (sameLeaders _ _).mpr ownerClient,
          leaderKey⟩
  · intro target closure member
    rcases mem_queues_backfill member with old | ⟨sameWaiter, home⟩
    · obtain ⟨same, leader, joined⟩ := routed.queued old
      exact ⟨same, leader, joined.mono kept⟩
    · rw [sameWaiter]
      exact ⟨home, _, joins⟩
  · intro other leader closure found member
    exact
      (routed.pending ((sameLeaders _ _).mp found) member).mono kept
  · intro other otherInflight waiter otherPresent member
    change
      Function.update world.monitor.cache.inflightMap key _ other = _
        at otherPresent
    by_cases same : other = key
    · subst same
      rw [Function.update_self, Option.some.injEq] at otherPresent
      subst otherPresent
      rcases List.mem_append.mp member with old | new
      · exact (routed.attached present old).mono kept
      · rw [List.mem_singleton] at new
        subst new
        exact joins
    · rw [Function.update_of_ne same] at otherPresent
      exact (routed.attached otherPresent member).mono kept
  · intro other otherInflight otherPresent
    change
      Function.update world.monitor.cache.inflightMap key _ other = _
        at otherPresent
    by_cases same : other = key
    · subst same
      rw [Function.update_self, Option.some.injEq] at otherPresent
      subst otherPresent
      exact routed.distinct_join client present
    · rw [Function.update_of_ne same] at otherPresent
      exact routed.distinct otherPresent
  · intro other nonempty
    obtain ⟨follower, found⟩ := routed.receiver nonempty
    exact ⟨follower, kept _ _ found⟩

/-- A publish takes its snapshot from the waiters of the followers that joined
the publishing leader. -/
theorem Routed.publish
    (routed : world.Routed) (flight : world.SingleFlight)
    {stream : StreamId} {leader : Leader} {call : Publish}
    {inflight : Inflight} {nextCall : Call}
    (client : world.clients[stream]? = some (.leader leader))
    (present :
      world.monitor.cache.inflightMap leader.key = some inflight)
    (permitted : Log.orderly leader.log call = true)
    (clientsEq :
      next.clients =
        world.clients.set stream
          (.leader
            { leader with
              log := leader.log ++ [call], call := nextCall }))
    (pendingEq : nextCall.pending = inflight.notify call)
    (inflightEq :
      next.monitor.cache.inflightMap =
        Function.update world.monitor.cache.inflightMap leader.key
          (some (inflight.receive call)))
    (queuesEq : next.queues = world.queues)
    (historyEq : next.history = world.history)
    (deliveredEq : next.delivered = world.delivered) :
    next.Routed := by
  have unfinished : leader.unfinished = true :=
    Leader.unfinished_of_not_ended (Log.not_ended_of_orderly permitted)
  refine
    routed.of_leader_update client clientsEq rfl ?_ ?_ ?_
      (fun key => by rw [historyEq]) deliveredEq
  · intro closure member
    simp only [pendingEq, Inflight.notify, List.mem_map] at member
    obtain ⟨waiter, waiterMember, rfl⟩ := member
    rw [Inflight.closureFor_waiter,
      ← (flight.owned client unfinished).2]
    exact routed.attached present waiterMember
  · intro dispatcher closure member
    rw [queuesEq] at member
    exact routed.queued member
  · intro key found foundPresent
    rw [inflightEq] at foundPresent
    by_cases same : key = leader.key
    · subst same
      rw [Function.update_self, Option.some.injEq] at foundPresent
      subst foundPresent
      exact ⟨inflight, present, inflight.receive_waiters call⟩
    · rw [Function.update_of_ne same] at foundPresent
      exact ⟨found, foundPresent, rfl⟩

/-- A removal leaves some of the waiters there were. -/
theorem waiters_removeWaiterLocked
    (cache : RingBufferCache) (key : Key) (waiterAddr : Nat)
    (other : Key) (found : Inflight)
    (read :
      (cache.removeWaiterLocked key waiterAddr).inflightMap other =
        some found) :
    ∃ earlier,
      cache.inflightMap other = some earlier ∧
        found.waiters ⊆ earlier.waiters ∧
          ((earlier.waiters.map Waiter.addr).Nodup →
            (found.waiters.map Waiter.addr).Nodup) := by
  rcases removeWaiterLocked_eq cache key waiterAddr with
    same | ⟨inflight, position, present, atPosition, replaced⟩
  · rw [same] at read
    exact ⟨found, read, fun _ member => member, id⟩
  · rw [replaced] at read
    by_cases same : other = key
    · subst same
      simp only [setInflight, Function.update_self, Option.some.injEq]
        at read
      subst read
      have bound : position < inflight.waiters.length :=
        (List.findIdx?_eq_some_iff_getElem.mp atPosition).1
      have permuted := swapPop_perm bound
      refine ⟨inflight, present, ?_, ?_⟩
      · intro waiter member
        exact List.mem_of_mem_eraseIdx (permuted.mem_iff.mp member)
      · intro nodup
        rw [(permuted.map Waiter.addr).nodup_iff]
        exact
          nodup.sublist
            ((List.eraseIdx_sublist _ position).map Waiter.addr)
    · simp only [setInflight, Function.update_of_ne same] at read
      exact ⟨found, read, fun _ member => member, id⟩

/-- A dispatcher runs a closure, on the callbacks of the follower it was
posted for. -/
theorem Routed.run
    (routed : world.Routed)
    {dispatcher : DispatcherId} {closure : Closure}
    {rest : List Closure}
    (queued : world.queues dispatcher = closure :: rest) :
    Routed
      { world with
        queues := Function.update world.queues dispatcher rest
        delivered :=
          Function.update world.delivered
            closure.waiter.callbacks.stream
            (world.delivered closure.waiter.callbacks.stream ++
              closure.calls) } := by
  refine
    { ownWaiter := routed.ownWaiter
      joinedLeader := routed.joinedLeader
      queued := ?_
      pending := routed.pending
      attached := routed.attached
      distinct := routed.distinct
      receiver := ?_ }
  · intro target other member
    by_cases same : target = dispatcher
    · subst same
      simp only [Function.update_self] at member
      apply routed.queued
      rw [queued]
      exact List.mem_cons_of_mem _ member
    · simp only [Function.update_of_ne same] at member
      exact routed.queued member
  · intro stream nonempty
    by_cases same : stream = closure.waiter.callbacks.stream
    · have first : closure ∈ world.queues dispatcher := by
        rw [queued]
        exact List.mem_cons_self
      obtain ⟨_, _, follower, found, sameWaiter, _⟩ :=
        routed.queued first
      obtain ⟨home, ownWaiter⟩ := routed.ownWaiter found
      have sameStream : stream = closure.waiter.addr := by
        rw [same, ← sameWaiter, ownWaiter]
        rfl
      rw [sameStream]
      exact ⟨follower, found⟩
    · simp only [Function.update_of_ne same] at nonempty
      exact routed.receiver nonempty

/-- Every step in which leaders publish in order keeps the routing. -/
theorem Routed.step
    (routed : world.Routed) (flight : world.SingleFlight)
    {action : Action} (effect : Effect world action next)
    (orderly : world.leaderCalls Log.orderly action = true) :
    next.Routed := by
  have sameLeaders :
      ∀ (stream : StreamId) (leader : Leader),
        world.clients[stream]? = some (.leader leader) →
          ∃ earlier : Leader,
            world.clients[stream]? = some (.leader earlier) ∧
              ∀ closure ∈ leader.call.pending,
                closure ∈ earlier.call.pending :=
    fun _ leader client => ⟨leader, client, fun _ member => member⟩
  have keptLeaders :
      ∀ (stream : StreamId) (leader : Leader),
        world.clients[stream]? = some (.leader leader) →
          ∃ later : Leader,
            world.clients[stream]? = some (.leader later) ∧
              later.key = leader.key :=
    fun _ leader client => ⟨leader, client, rfl⟩
  have sameWaiters :
      ∀ key inflight,
        world.monitor.cache.inflightMap key = some inflight →
          ∃ earlier,
            world.monitor.cache.inflightMap key = some earlier ∧
              inflight.waiters ⊆ earlier.waiters ∧
                ((earlier.waiters.map Waiter.addr).Nodup →
                  (inflight.waiters.map Waiter.addr).Nodup) :=
    fun _ inflight present =>
      ⟨inflight, present, fun _ member => member, id⟩
  cases effect with
  | lookupHit client free mapped read =>
      exact
        routed.of_other_update client (by simp) (by simp) (by simp)
          (by simp) rfl rfl rfl rfl rfl
  | lookupLead client free unmapped missing =>
      exact routed.lookupLead client
  | lookupFollow client free unmapped present headersFirst =>
      exact routed.lookupFollow flight client present
  | copyHeaders client stage read =>
      exact
        routed.of_other_update client (by simp) (by simp) (by simp)
          (by simp) rfl rfl rfl rfl rfl
  | handOutEmpty client stage empty read =>
      exact
        routed.of_other_update client (by simp) (by simp) (by simp)
          (by simp) rfl rfl rfl rfl rfl
  | handOutBody client stage nonempty =>
      exact
        routed.of_other_update client (by simp) (by simp) (by simp)
          (by simp) rfl rfl rfl rfl rfl
  | release client stage read =>
      exact
        routed.of_other_update client (by simp) (by simp) (by simp)
          (by simp) rfl rfl rfl rfl rfl
  | publishLost client idle free missing =>
      exact
        absurd missing
          (flight.publish_finds client
            (permits_of_leaderCalls client orderly))
  | publishOpen client idle free present stays =>
      exact
        routed.publish flight client present
          (permits_of_leaderCalls client orderly) rfl rfl rfl rfl rfl rfl
  | publishEnd client idle free present ends stored =>
      exact
        routed.publish flight client present
          (permits_of_leaderCalls client orderly) rfl rfl rfl rfl rfl rfl
  | scan client finalizing running iterated =>
      refine
        routed.of_same (fun _ _ => Iff.rfl) sameLeaders keptLeaders
          (fun _ _ member => member) ?_ (fun _ => by simp) rfl
      have inflightSame := (scanIteration_frame iterated).2.2.1
      simp only [inflightSame]
      exact sameWaiters
  | finish client finalizing running atReturn completed =>
      refine
        routed.of_leader_update client rfl rfl ?_
          (fun _ _ member => routed.queued member) ?_
          (fun _ => by simp) rfl
      · intro closure member
        apply routed.pending client
        rw [finalizing]
        exact member
      · intro key inflight present
        have read :=
          (completeFinalize_inflightMap completed key).symm.trans present
        split at read
        · simp at read
        · exact ⟨inflight, read, rfl⟩
  | @post stream leader closure rest client posting =>
      refine
        routed.of_leader_update client rfl rfl ?_ ?_
          (fun _ inflight present => ⟨inflight, present, rfl⟩)
          (fun _ => rfl) rfl
      · intro other member
        apply routed.pending client
        rw [posting]
        exact List.mem_cons_of_mem _ member
      · intro dispatcher other member
        simp only [World.post] at member
        by_cases same : dispatcher = closure.waiter.dispatcher
        · subst same
          rw [Function.update_self, List.mem_append,
            List.mem_singleton] at member
          rcases member with old | rfl
          · exact routed.queued old
          · refine ⟨rfl, some stream, routed.pending client ?_⟩
            rw [posting]
            exact List.mem_cons_self
        · rw [Function.update_of_ne same] at member
          exact routed.queued member
  | return_ client posting =>
      refine
        routed.of_leader_update client rfl rfl ?_
          (fun _ _ member => routed.queued member)
          (fun _ inflight present => ⟨inflight, present, rfl⟩)
          (fun _ => rfl) rfl
      simp [Call.pending]
  | @runCancelled dispatcher closure rest queued cancelled =>
      refine
        routed.of_same (fun _ _ => Iff.rfl) sameLeaders keptLeaders ?_
          sameWaiters (fun _ => rfl) rfl
      intro target other member
      by_cases same : target = dispatcher
      · subst same
        simp only [Function.update_self] at member
        rw [queued]
        exact List.mem_cons_of_mem _ member
      · simpa only [Function.update_of_ne same] using member
  | run queued live =>
      exact routed.run queued
  | cancel client =>
      exact
        routed.of_same (fun _ _ => Iff.rfl) sameLeaders keptLeaders
          (fun _ _ member => member) sameWaiters (fun _ => rfl) rfl
  | removeWaiter client cancelled free =>
      exact
        routed.of_same (fun _ _ => Iff.rfl) sameLeaders keptLeaders
          (fun _ _ member => member)
          (waiters_removeWaiterLocked world.monitor.cache _ _)
          (fun _ => rfl) rfl

theorem routed_of_reachable
    {capacity : UInt64} {slotCount : Nat}
    {dispatchers : List DispatcherId}
    (reachable :
      Reachable step (create capacity slotCount dispatchers)
        (LeadersCall Log.orderly) world) :
    world.Routed := by
  refine
    reachable.invariant (create_routed capacity slotCount dispatchers) ?_
  intro before action after reached routed stepped orderly
  have flight := singleFlight_of_reachable reached
  exact routed.step flight (step_effect stepped) orderly

end World

end RingCache

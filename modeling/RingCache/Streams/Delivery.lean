import RingCache.Library.Mail
import RingCache.Streams.Events
import RingCache.Streams.Routing

/-!
# Coalesced delivery is exact

What a follower has received, what its dispatcher still holds for it and what
the current publish call of its leader has still to post to it form, in this
order, the response that the leader has published so far.  The statement is
about the whole sequence, so it covers a follower that joins between the
snapshot of a publish and its posts: the backfill brings it what was published
before, and no snapshot that it is missing from matters.
-/

namespace RingCache

open Transition RingBufferCache

namespace World

variable {world next : World}

/-! ## What a follower gets -/

/-- The events that closures in a list bring to one waiter. -/
def eventsFor (waiter : Waiter) (closures : List Closure) : List Event :=
  Mail.contentsFor (fun closure => closure.waiter.addr) Closure.calls
    waiter.addr closures

/-- The events executed on the callbacks of a follower, followed by those
queued in its dispatcher, followed by those the current publish call of the
leader has still to post to it. -/
def receives
    (world : World) (follower : Follower) (leader : Leader) :
    List Event :=
  world.delivered follower.waiter.callbacks.stream ++
    eventsFor follower.waiter
        (world.queues follower.waiter.dispatcher) ++
      eventsFor follower.waiter leader.call.pending

section UnderWay

variable {ε : Type} {contents : Closure → List ε}

/-- What closures in a list bring to one waiter, by what each of them brings to
its own. -/
def mailFor
    (contents : Closure → List ε) (waiter : Waiter)
    (closures : List Closure) : List ε :=
  Mail.contentsFor (fun closure => closure.waiter.addr) contents
    waiter.addr closures

/-- What the dispatcher of a follower holds for it, followed by what the current
publish call of the leader has still to post to it. -/
def underWay
    (contents : Closure → List ε) (world : World) (follower : Follower)
    (leader : Leader) : List ε :=
  mailFor contents follower.waiter
      (world.queues follower.waiter.dispatcher) ++
    mailFor contents follower.waiter leader.call.pending

/-- Posts come after what the queue of their waiter's dispatcher holds for that
waiter and leave what queues hold for others. -/
theorem mailFor_foldl_post
    {waiter : Waiter} {posts : List Closure}
    (sameWaiter :
      ∀ closure ∈ posts,
        closure.waiter.addr = waiter.addr → closure.waiter = waiter)
    (queues : DispatcherId → List Closure) :
    mailFor contents waiter (posts.foldl post queues waiter.dispatcher) =
      mailFor contents waiter (queues waiter.dispatcher) ++
        mailFor contents waiter posts := by
  refine Mail.contentsFor_foldl_deliver ?_ queues
  intro closure member mine
  rw [sameWaiter closure member mine]

/-- A publish posts one closure to each waiter of its snapshot. -/
theorem mailFor_notify
    {inflight : Inflight} {waiter : Waiter} (call : Publish)
    (distinct : (inflight.waiters.map Waiter.addr).Nodup)
    (member : waiter ∈ inflight.waiters) :
    mailFor contents waiter (inflight.notify call) =
      contents (inflight.closureFor call waiter) :=
  Mail.contentsFor_round
    (fun other => by rw [Inflight.closureFor_waiter]) distinct member

end UnderWay

/-- What a follower gets is what was executed at it and what is under way to
it. -/
theorem receives_eq (follower : Follower) (leader : Leader) :
    world.receives follower leader =
      world.delivered follower.waiter.callbacks.stream ++
        world.underWay Closure.calls follower leader :=
  List.append_assoc _ _ _

/-- The closure of a publish that is permitted makes one call, of its event. -/
theorem calls_closureFor
    {inflight : Inflight} {call : Publish} {log : Log}
    (headersEq : inflight.headers = log.headers?)
    (permitted : log.contract call = true) (waiter : Waiter) :
    (inflight.closureFor call waiter).calls = [call.event] := by
  cases call with
  | headers published ends =>
      have empty : log = [] := by
        simpa [Log.contract] using permitted
      subst empty
      have unset : inflight.headers = none := headersEq
      simp [Inflight.closureFor, Closure.calls, Publish.event, unset]
  | data chunk ends =>
      rfl

/-! ## The invariant -/

/-- Every follower that has not been cancelled waits for the next publish of
its leader, and gets exactly what its leader has published. -/
structure Delivers (world : World) : Prop where
  waiting :
    ∀ {stream owner : StreamId} {follower : Follower} {leader : Leader},
      world.clients[stream]? = some (.follower follower) →
      world.cancelled follower.waiter.addr = false →
      follower.leader = some owner →
      world.clients[owner]? = some (.leader leader) →
      leader.log.ended = false →
        ∃ inflight,
          world.monitor.cache.inflightMap leader.key = some inflight ∧
            follower.waiter ∈ inflight.waiters
  exact :
    ∀ {stream owner : StreamId} {follower : Follower} {leader : Leader},
      world.clients[stream]? = some (.follower follower) →
      world.cancelled follower.waiter.addr = false →
      follower.leader = some owner →
      world.clients[owner]? = some (.leader leader) →
        ExactDelivery leader.log (world.receives follower leader)

theorem create_delivers
    (capacity : UInt64) (slotCount : Nat)
    (dispatchers : List DispatcherId) :
    (create capacity slotCount dispatchers).Delivers := by
  exact
    { waiting := fun client => absurd client (create_client (by simp))
      exact := fun client => absurd client (create_client (by simp)) }

/-- A step that makes no follower and publishes nothing, loses no waiter that
is not cancelled and moves events along without loss. -/
theorem Delivers.of_same
    (delivers : world.Delivers)
    (followers :
      ∀ (stream : StreamId) (follower : Follower),
        next.clients[stream]? = some (.follower follower) →
          world.clients[stream]? = some (.follower follower))
    (cancelled :
      ∀ addr,
        next.cancelled addr = false → world.cancelled addr = false)
    (same :
      ∀ (stream owner : StreamId) (follower : Follower)
          (leader : Leader),
        world.clients[stream]? = some (.follower follower) →
        next.cancelled follower.waiter.addr = false →
        follower.leader = some owner →
        next.clients[owner]? = some (.leader leader) →
          ∃ earlier : Leader,
            world.clients[owner]? = some (.leader earlier) ∧
              earlier.key = leader.key ∧
                earlier.log = leader.log ∧
                  next.receives follower leader =
                    world.receives follower earlier)
    (waiters :
      ∀ (owner : StreamId) (leader : Leader) (inflight : Inflight),
        world.clients[owner]? = some (.leader leader) →
        leader.log.ended = false →
        world.monitor.cache.inflightMap leader.key = some inflight →
          ∃ later,
            next.monitor.cache.inflightMap leader.key = some later ∧
              ∀ waiter ∈ inflight.waiters,
                next.cancelled waiter.addr = false →
                  waiter ∈ later.waiters) :
    next.Delivers := by
  refine { waiting := ?_, exact := ?_ }
  · intro stream owner follower leader client live joined ownerClient
      notEnded
    have before := followers _ _ client
    obtain ⟨earlier, earlierClient, sameKey, sameLog, _⟩ :=
      same stream owner follower leader before live joined ownerClient
    rw [← sameLog] at notEnded
    obtain ⟨inflight, present, member⟩ :=
      delivers.waiting before (cancelled _ live) joined earlierClient
        notEnded
    obtain ⟨later, laterPresent, kept⟩ :=
      waiters owner earlier inflight earlierClient notEnded present
    rw [sameKey] at laterPresent
    exact ⟨later, laterPresent, kept _ member live⟩
  · intro stream owner follower leader client live joined ownerClient
    have before := followers _ _ client
    obtain ⟨earlier, earlierClient, _, sameLog, sameEvents⟩ :=
      same stream owner follower leader before live joined ownerClient
    rw [sameEvents, ← sameLog]
    exact
      delivers.exact before (cancelled _ live) joined earlierClient

/-- A publish reaches every follower of its leader that waits. -/
theorem Delivers.publish
    (delivers : world.Delivers) (flight : world.SingleFlight)
    (spooled : world.Spooled) (routed : world.Routed)
    {stream : StreamId} {leader : Leader} {call : Publish}
    {inflight : Inflight} {nextCall : Call}
    (client : world.clients[stream]? = some (.leader leader))
    (idle : leader.call = .idle)
    (present :
      world.monitor.cache.inflightMap leader.key = some inflight)
    (permitted : leader.log.contract call = true)
    (clientsEq :
      next.clients =
        world.clients.set stream
          (.leader
            { leader with
              log := leader.log ++ [call], call := nextCall }))
    (pendingEq : nextCall.pending = inflight.notify call)
    (inflightEq :
      next.monitor.cache.inflightMap =
        Function.update world.monitor.cache.inflightMap leader.key
          (some (inflight.receive call)))
    (cancelledEq : next.cancelled = world.cancelled)
    (queuesEq : next.queues = world.queues)
    (deliveredEq : next.delivered = world.delivered) :
    next.Delivers := by
  have notEnded : leader.log.ended = false :=
    Log.not_ended_of_orderly (Log.orderly_of_contract permitted)
  have unfinished := Leader.unfinished_of_not_ended notEnded
  have headersEq := (spooled.content client unfinished present).1
  have before :
      ∀ (other : StreamId) (follower : Follower),
        next.clients[other]? = some (.follower follower) →
          world.clients[other]? = some (.follower follower) := by
    intro other follower found
    rw [clientsEq] at found
    exact
      (Table.getElem?_set_iff_of_ne client (by simp) (by simp)
        other).mp found
  have read :
      ∀ other : StreamId,
        next.clients[other]? =
          if other = stream then
            some (.leader
              { leader with
                log := leader.log ++ [call], call := nextCall })
          else world.clients[other]? := by
    intro other
    rw [clientsEq]
    exact Table.getElem?_set_of_some client _ other
  have waitsHere :
      ∀ {other : StreamId} {follower : Follower},
        world.clients[other]? = some (.follower follower) →
        world.cancelled follower.waiter.addr = false →
        follower.leader = some stream →
          follower.waiter ∈ inflight.waiters := by
    intro other follower found live joined
    obtain ⟨waitedFor, waitedForPresent, member⟩ :=
      delivers.waiting found live joined client notEnded
    rw [present, Option.some.injEq] at waitedForPresent
    subst waitedForPresent
    exact member
  refine { waiting := ?_, exact := ?_ }
  · intro other owner follower otherLeader found live joined ownerClient
      otherNotEnded
    rw [cancelledEq] at live
    rw [read] at ownerClient
    by_cases same : owner = stream
    · rw [if_pos same, Option.some.injEq, Client.leader.injEq]
        at ownerClient
      subst same ownerClient
      refine
        ⟨inflight.receive call, by simp [inflightEq], ?_⟩
      rw [Inflight.receive_waiters]
      exact waitsHere (before _ _ found) live joined
    · rw [if_neg same] at ownerClient
      have different : otherLeader.key ≠ leader.key := by
        intro sameKey
        exact
          same (flight.unique client unfinished ownerClient
            (Leader.unfinished_of_not_ended otherNotEnded) sameKey)
      rw [inflightEq, Function.update_of_ne different]
      exact
        delivers.waiting (before _ _ found) live joined ownerClient
          otherNotEnded
  · intro other owner follower otherLeader found live joined ownerClient
    rw [cancelledEq] at live
    rw [read] at ownerClient
    by_cases same : owner = stream
    · rw [if_pos same, Option.some.injEq, Client.leader.injEq]
        at ownerClient
      subst same ownerClient
      have received :=
        delivers.exact (before _ _ found) live joined client
      have ownEvent :
          eventsFor follower.waiter (inflight.notify call) =
            [call.event] :=
        (mailFor_notify call (routed.distinct present)
          (waitsHere (before _ _ found) live joined)).trans
            (calls_closureFor headersEq permitted follower.waiter)
      have grown :
          next.receives follower
              { leader with
                log := leader.log ++ [call], call := nextCall } =
            world.receives follower leader ++ [call.event] := by
        have nothingPending :
            eventsFor follower.waiter leader.call.pending = [] := by
          rw [idle]
          rfl
        simp only [receives, queuesEq, deliveredEq, pendingEq, ownEvent,
          nothingPending, List.append_nil]
      rw [grown]
      exact received.append permitted
    · rw [if_neg same] at ownerClient
      have sameEvents :
          next.receives follower otherLeader =
            world.receives follower otherLeader := by
        simp only [receives, queuesEq, deliveredEq]
      rw [sameEvents]
      exact delivers.exact (before _ _ found) live joined ownerClient

/-- The waiter of a follower is at its own stream and dispatcher. -/
theorem Routed.waiter_addr
    (routed : world.Routed)
    {stream : StreamId} {follower : Follower}
    (client : world.clients[stream]? = some (.follower follower)) :
    follower.waiter.addr = stream ∧
      follower.waiter.callbacks.stream = stream := by
  obtain ⟨dispatcher, own⟩ := routed.ownWaiter client
  rw [own]
  exact ⟨rfl, rfl⟩

/-- A closure at the address of a follower's waiter is for that waiter. -/
theorem Routed.same_waiter
    (routed : world.Routed)
    {stream : StreamId} {follower : Follower}
    (client : world.clients[stream]? = some (.follower follower))
    {waiter : Waiter} {leader : Option StreamId}
    (joined : world.Joined waiter leader)
    (sameAddr : waiter.addr = follower.waiter.addr) :
    waiter = follower.waiter ∧ follower.leader = leader := by
  obtain ⟨other, found, otherWaiter, otherLeader⟩ := joined
  rw [sameAddr, (routed.waiter_addr client).1, client,
    Option.some.injEq, Client.follower.injEq] at found
  subst found
  exact ⟨otherWaiter.symm, otherLeader⟩

theorem waiter_of_mem_backfillPosts
    {inflight : Inflight} {waiter : Waiter} {closure : Closure}
    (member : closure ∈ backfillPosts inflight waiter) :
    closure.waiter = waiter := by
  unfold backfillPosts at member
  cases stored : inflight.headers with
  | none =>
      simp [stored] at member
  | some headers =>
      have same :
          closure = .backfill waiter headers inflight.body := by
        simpa [stored] using member
      rw [same]
      rfl

section Backfill

variable {ε : Type} (contents : Closure → List ε)

/-- A backfill brings nothing to other waiters. -/
theorem underWay_backfill_other
    (inflight : Inflight) {joining : Waiter} {follower : Follower}
    (other : joining.addr ≠ follower.waiter.addr)
    (queuesEq :
      next.queues =
        (backfillPosts inflight joining).foldl post world.queues)
    (leader : Leader) :
    next.underWay contents follower leader =
      world.underWay contents follower leader := by
  have notMine :
      ∀ closure ∈ backfillPosts inflight joining,
        closure.waiter.addr ≠ follower.waiter.addr := by
    intro closure member
    rw [waiter_of_mem_backfillPosts member]
    exact other
  have nothing :
      mailFor contents follower.waiter
          (backfillPosts inflight joining) =
        [] :=
    Mail.contentsFor_eq_nil notMine
  unfold underWay
  rw [queuesEq,
    mailFor_foldl_post
      (fun closure member mine => absurd mine (notMine closure member)),
    nothing, List.append_nil]

/-- A backfill comes after what is queued for its waiter. -/
theorem mailFor_backfill_self
    (inflight : Inflight) (waiter : Waiter)
    (queues : DispatcherId → List Closure) :
    mailFor contents waiter
        ((backfillPosts inflight waiter).foldl post queues
          waiter.dispatcher) =
      mailFor contents waiter (queues waiter.dispatcher) ++
        (backfillPosts inflight waiter).flatMap contents := by
  rw [mailFor_foldl_post
    (fun closure member _ => waiter_of_mem_backfillPosts member)]
  refine congrArg (_ ++ ·) ?_
  unfold backfillPosts
  cases inflight.headers with
  | none =>
      rfl
  | some headers =>
      simp [mailFor, Mail.contentsFor, Closure.waiter]

/-- No closure is for a stream that has not looked up. -/
theorem Routed.nothing_posted
    (routed : world.Routed)
    {stream owner : StreamId} {dispatcher : DispatcherId}
    {leader : Leader}
    (client : world.clients[stream]? = some (.start dispatcher))
    (ownerClient : world.clients[owner]? = some (.leader leader)) :
    mailFor contents (waiterOf stream dispatcher)
          (world.queues dispatcher) =
        [] ∧
      mailFor contents (waiterOf stream dispatcher)
          leader.call.pending =
        [] := by
  have nobodyAt :
      ∀ {waiter : Waiter} {joined : Option StreamId},
        world.Joined waiter joined → waiter.addr ≠ stream := by
    intro waiter joined isJoined same
    obtain ⟨follower, found, _⟩ := isJoined
    rw [same, client] at found
    simp at found
  refine ⟨Mail.contentsFor_eq_nil ?_, Mail.contentsFor_eq_nil ?_⟩
  · intro closure member
    obtain ⟨_, _, joined⟩ := routed.queued member
    exact nobodyAt joined
  · intro closure member
    exact nobodyAt (routed.pending ownerClient member)

/-- What is under way to a stream that joins: nothing but the backfill. -/
theorem Routed.underWay_backfill
    (routed : world.Routed)
    {stream owner : StreamId} {dispatcher : DispatcherId}
    {leader : Leader} {key : Key}
    (client : world.clients[stream]? = some (.start dispatcher))
    (ownerClient : world.clients[owner]? = some (.leader leader))
    (inflight : Inflight)
    (queuesEq :
      next.queues =
        (backfillPosts inflight
          (waiterOf stream dispatcher)).foldl post world.queues) :
    next.underWay contents (world.followerOf stream dispatcher key)
        leader =
      (backfillPosts inflight
        (waiterOf stream dispatcher)).flatMap contents := by
  obtain ⟨nothingQueued, nothingPending⟩ :=
    routed.nothing_posted contents client ownerClient
  have posted :=
    mailFor_backfill_self contents inflight
      (waiterOf stream dispatcher) world.queues
  unfold underWay followerOf
  rw [queuesEq, nothingPending, List.append_nil]
  refine posted.trans ?_
  exact
    (congrArg (· ++ _) nothingQueued).trans (List.nil_append _)

end Backfill

/-- Nothing has been executed at a stream that has not looked up. -/
theorem Routed.nothing_delivered
    (routed : world.Routed)
    {stream : StreamId} {dispatcher : DispatcherId}
    (client : world.clients[stream]? = some (.start dispatcher)) :
    world.delivered stream = [] := by
  by_contra nonempty
  obtain ⟨follower, found⟩ := routed.receiver nonempty
  rw [client] at found
  simp at found

/-- Between two critical sections an unfinished leader has not ended. -/
theorem SingleFlight.not_ended_of_unfinished
    (flight : world.SingleFlight) (free : world.monitor.frame = none)
    {stream : StreamId} {leader : Leader}
    (client : world.clients[stream]? = some (.leader leader))
    (unfinished : leader.unfinished = true) :
    leader.log.ended = false := by
  cases call : leader.call with
  | finalizing posts =>
      obtain ⟨_, frame, running, _⟩ := flight.holder client call
      rw [free] at running
      simp at running
  | idle =>
      simpa [Leader.unfinished, call] using unfinished
  | posting posts =>
      simpa [Leader.unfinished, call] using unfinished

/-- A new follower gets the backfill, and then what is published later. -/
theorem Delivers.lookupFollow
    (delivers : world.Delivers) (flight : world.SingleFlight)
    (spooled : world.Spooled) (routed : world.Routed)
    {stream : StreamId} {dispatcher : DispatcherId} {key : Key}
    {inflight : Inflight}
    (client : world.clients[stream]? = some (.start dispatcher))
    (free : world.monitor.frame = none)
    (present : world.monitor.cache.inflightMap key = some inflight) :
    Delivers
      { world.update stream
          (.follower (world.followerOf stream dispatcher key))
          { cache :=
              world.monitor.cache.setInflight key
                (some { inflight with
                  waiters :=
                    inflight.waiters ++
                      [waiterOf stream dispatcher] }) } with
        queues :=
          (backfillPosts inflight
            (waiterOf stream dispatcher)).foldl post world.queues } := by
  have read :=
    Table.getElem?_set_of_some client
      (.follower (world.followerOf stream dispatcher key))
  have sameLeaders :
      ∀ (other : StreamId) (leader : Leader),
        (world.clients.set stream
              (.follower
                (world.followerOf stream dispatcher key)))[other]? =
            some (.leader leader) →
          world.clients[other]? = some (.leader leader) := by
    intro other leader
    exact
      (Table.getElem?_set_iff_of_ne client (by simp) (by simp) other).mp
  obtain ⟨owner, leader, last, ownerClient, ownerKey, unfinished⟩ :=
    flight.owner present
  have ownerPresent := present
  rw [← ownerKey] at ownerPresent
  obtain ⟨headersEq, bodyEq⟩ :=
    spooled.content ownerClient unfinished ownerPresent
  refine { waiting := ?_, exact := ?_ }
  · intro other joinedTo follower otherLeader found live joined
      otherClient notEnded
    replace otherClient := sameLeaders _ _ otherClient
    replace found := (read other).symm.trans found
    by_cases same : other = stream
    · rw [if_pos same, Option.some.injEq, Client.follower.injEq] at found
      subst found
      replace joined := last.symm.trans joined
      rw [Option.some.injEq] at joined
      subst joined
      rw [ownerClient, Option.some.injEq, Client.leader.injEq]
        at otherClient
      subst otherClient
      subst ownerKey
      refine ⟨_, Function.update_self _ _ _, ?_⟩
      exact List.mem_append_right _ (List.mem_singleton.mpr rfl)
    · rw [if_neg same] at found
      obtain ⟨waitedFor, waitedForPresent, member⟩ :=
        delivers.waiting found live joined otherClient notEnded
      by_cases sameKey : otherLeader.key = key
      · subst sameKey
        rw [present, Option.some.injEq] at waitedForPresent
        subst waitedForPresent
        exact
          ⟨_, Function.update_self _ _ _,
            List.mem_append_left _ member⟩
      · refine ⟨waitedFor, ?_, member⟩
        exact
          (Function.update_of_ne sameKey _ _).trans waitedForPresent
  · intro other joinedTo follower otherLeader found live joined
      otherClient
    replace otherClient := sameLeaders _ _ otherClient
    replace found := (read other).symm.trans found
    by_cases same : other = stream
    · rw [if_pos same, Option.some.injEq, Client.follower.injEq] at found
      subst found
      replace joined := last.symm.trans joined
      rw [Option.some.injEq] at joined
      subst joined
      rw [ownerClient, Option.some.injEq, Client.leader.injEq]
        at otherClient
      subst otherClient
      have notEnded :=
        flight.not_ended_of_unfinished free ownerClient unfinished
      have exact :=
        ExactDelivery.backfill headersEq bodyEq
          (spooled.headersFirst ownerClient) notEnded
          (waiterOf stream dispatcher)
      have nothing :
          world.delivered
              (world.followerOf stream dispatcher
                key).waiter.callbacks.stream =
            [] :=
        routed.nothing_delivered client
      rw [receives_eq,
        routed.underWay_backfill Closure.calls client ownerClient
          inflight rfl]
      simp only [World.update, nothing, List.nil_append]
      exact exact
    · rw [if_neg same] at found
      have received := delivers.exact found live joined otherClient
      have otherWaiter :
          (waiterOf stream dispatcher).addr ≠ follower.waiter.addr := by
        rw [(routed.waiter_addr found).1]
        exact Ne.symm same
      rw [receives_eq] at received ⊢
      rw [underWay_backfill_other Closure.calls inflight otherWaiter
        rfl]
      exact received

section Moves

variable {ε : Type} (contents : Closure → List ε)

/-- A closure for another waiter leaves its queue. -/
theorem underWay_of_other_run
    {dispatcher : DispatcherId} {closure : Closure}
    {rest : List Closure} {follower : Follower}
    (queued : world.queues dispatcher = closure :: rest)
    (queuesEq :
      next.queues = Function.update world.queues dispatcher rest)
    (other : closure.waiter.addr ≠ follower.waiter.addr)
    (leader : Leader) :
    next.underWay contents follower leader =
      world.underWay contents follower leader := by
  unfold underWay
  rw [queuesEq]
  by_cases here : follower.waiter.dispatcher = dispatcher
  · subst here
    have skipped :
        mailFor contents follower.waiter (closure :: rest) =
          mailFor contents follower.waiter rest := by
      apply Mail.contentsFor_cons_other
      exact other
    rw [Function.update_self, queued, skipped]
  · rw [Function.update_of_ne here]

/-- The closure that a dispatcher runs is the first of those under way to its
waiter. -/
theorem Routed.underWay_of_own_run
    (routed : world.Routed)
    {dispatcher : DispatcherId} {closure : Closure}
    {rest : List Closure}
    (queued : world.queues dispatcher = closure :: rest)
    (queuesEq :
      next.queues = Function.update world.queues dispatcher rest)
    {stream : StreamId} {follower : Follower}
    (client : world.clients[stream]? = some (.follower follower))
    (mine : closure.waiter.addr = follower.waiter.addr)
    (leader : Leader) :
    closure.waiter = follower.waiter ∧
      world.underWay contents follower leader =
        contents closure ++ next.underWay contents follower leader := by
  have first : closure ∈ world.queues dispatcher := by
    rw [queued]
    exact List.mem_cons_self
  obtain ⟨home, joined, isJoined⟩ := routed.queued first
  have sameWaiter := (routed.same_waiter client isJoined mine).1
  rw [sameWaiter] at home
  subst home
  have taken :
      mailFor contents follower.waiter (closure :: rest) =
        contents closure ++ mailFor contents follower.waiter rest := by
    apply Mail.contentsFor_cons_self
    exact mine
  refine ⟨sameWaiter, ?_⟩
  unfold underWay
  rw [queuesEq, Function.update_self, queued, taken, List.append_assoc]

/-- A post moves a closure from the call of its leader to a queue. -/
theorem Routed.underWay_post
    (routed : world.Routed)
    {stream owner : StreamId} {leader : Leader} {closure : Closure}
    {rest : List Closure} {follower : Follower}
    (ownerClient : world.clients[owner]? = some (.leader leader))
    (posting : leader.call = .posting (closure :: rest))
    (client : world.clients[stream]? = some (.follower follower))
    (queuesEq : next.queues = post world.queues closure) :
    (follower.leader = some owner →
        next.underWay contents follower
            { leader with call := .posting rest } =
          world.underWay contents follower leader) ∧
      ∀ joined otherLeader,
        follower.leader = some joined →
        joined ≠ owner →
          next.underWay contents follower otherLeader =
            world.underWay contents follower otherLeader := by
  have isJoined : world.Joined closure.waiter (some owner) := by
    apply routed.pending ownerClient
    rw [posting]
    exact List.mem_cons_self
  have sameWaiter :
      ∀ letter ∈ [closure],
        letter.waiter.addr = follower.waiter.addr →
          letter.waiter = follower.waiter := by
    intro letter member sameAddr
    rw [List.mem_singleton] at member
    subst member
    exact (routed.same_waiter client isJoined sameAddr).1
  have posted :
      mailFor contents follower.waiter
          (post world.queues closure follower.waiter.dispatcher) =
        mailFor contents follower.waiter
            (world.queues follower.waiter.dispatcher) ++
          mailFor contents follower.waiter [closure] :=
    mailFor_foldl_post sameWaiter world.queues
  refine ⟨?_, ?_⟩
  · intro joined
    have pendingSplit :
        mailFor contents follower.waiter leader.call.pending =
          mailFor contents follower.waiter [closure] ++
            mailFor contents follower.waiter rest := by
      rw [posting]
      exact Mail.contentsFor_append [closure] rest
    unfold underWay
    rw [pendingSplit, queuesEq, posted]
    simp only [Call.pending, List.append_assoc]
  · intro joined otherLeader joinedEq elsewhere
    have nothing : mailFor contents follower.waiter [closure] = [] := by
      refine Mail.contentsFor_eq_nil ?_
      intro letter member sameAddr
      rw [List.mem_singleton] at member
      subst member
      have ownLeader :=
        (routed.same_waiter client isJoined sameAddr).2
      rw [joinedEq, Option.some.injEq] at ownLeader
      exact elsewhere ownLeader
    simp only [underWay, queuesEq, posted, nothing, List.append_nil]

end Moves

/-- A dispatcher runs the first closure of its queue: for its own waiter the
events move from the queue to the callbacks, others see no change. -/
theorem Routed.receives_run
    (routed : world.Routed)
    {dispatcher : DispatcherId} {closure : Closure}
    {rest : List Closure}
    (queued : world.queues dispatcher = closure :: rest)
    {stream : StreamId} {follower : Follower}
    (client : world.clients[stream]? = some (.follower follower))
    (leader : Leader) :
    receives
        { world with
          queues := Function.update world.queues dispatcher rest
          delivered :=
            Function.update world.delivered
              closure.waiter.callbacks.stream
              (world.delivered closure.waiter.callbacks.stream ++
                closure.calls) }
        follower leader =
      world.receives follower leader := by
  have first : closure ∈ world.queues dispatcher := by
    rw [queued]
    exact List.mem_cons_self
  obtain ⟨_, joined, isJoined⟩ := routed.queued first
  rw [receives_eq, receives_eq]
  by_cases mine : closure.waiter.addr = follower.waiter.addr
  · obtain ⟨sameWaiter, taken⟩ :=
      routed.underWay_of_own_run Closure.calls queued
        (rfl :
          ({ world with
              queues :=
                Function.update world.queues dispatcher rest } :
            World).queues = _)
        client mine leader
    rw [taken]
    simp only [sameWaiter, Function.update_self, List.append_assoc]
    rfl
  · have elsewhere :
        follower.waiter.callbacks.stream ≠
          closure.waiter.callbacks.stream := by
      obtain ⟨other, otherClient, otherWaiter, _⟩ := isJoined
      have otherAddr := routed.waiter_addr otherClient
      have ownAddr := routed.waiter_addr client
      rw [otherWaiter] at otherAddr
      rw [otherAddr.2, ownAddr.2, ← ownAddr.1]
      exact Ne.symm mine
    simp only [Function.update_of_ne elsewhere]
    exact
      congrArg (_ ++ ·)
        (underWay_of_other_run Closure.calls queued rfl mine leader)

/-- The closure of a cancelled waiter leaves its queue without an effect on
others. -/
theorem receives_runCancelled
    {dispatcher : DispatcherId} {closure : Closure}
    {rest : List Closure} {follower : Follower}
    (queued : world.queues dispatcher = closure :: rest)
    (other : closure.waiter.addr ≠ follower.waiter.addr)
    (leader : Leader) :
    receives
        { world with
          queues := Function.update world.queues dispatcher rest }
        follower leader =
      world.receives follower leader := by
  rw [receives_eq, receives_eq]
  exact
    congrArg (_ ++ ·)
      (underWay_of_other_run Closure.calls queued rfl other leader)

theorem Routed.receives_post
    (routed : world.Routed)
    {stream owner : StreamId} {leader : Leader} {closure : Closure}
    {rest : List Closure} {follower : Follower}
    (ownerClient : world.clients[owner]? = some (.leader leader))
    (posting : leader.call = .posting (closure :: rest))
    (client : world.clients[stream]? = some (.follower follower))
    (other : World)
    (queuesEq : other.queues = post world.queues closure)
    (deliveredEq : other.delivered = world.delivered) :
    (follower.leader = some owner →
        other.receives follower { leader with call := .posting rest } =
          world.receives follower leader) ∧
      ∀ joined otherLeader,
        follower.leader = some joined →
        joined ≠ owner →
          other.receives follower otherLeader =
            world.receives follower otherLeader := by
  have moved :=
    routed.underWay_post Closure.calls ownerClient posting client
      queuesEq
  refine ⟨?_, ?_⟩
  · intro joined
    rw [receives_eq, receives_eq, deliveredEq, moved.1 joined]
  · intro joined otherLeader joinedEq elsewhere
    rw [receives_eq, receives_eq, deliveredEq,
      moved.2 joined otherLeader joinedEq elsewhere]

/-- The waiters of an inflight response that are still there after a
removal. -/
theorem mem_removeWaiterLocked
    {cache : RingBufferCache} {key other : Key} {waiterAddr : Nat}
    {inflight : Inflight}
    (present : cache.inflightMap other = some inflight) :
    ∃ later,
      (cache.removeWaiterLocked key waiterAddr).inflightMap other =
          some later ∧
        ∀ waiter ∈ inflight.waiters,
          waiter.addr ≠ waiterAddr → waiter ∈ later.waiters := by
  rcases removeWaiterLocked_eq cache key waiterAddr with
    same | ⟨removed, position, removedPresent, atPosition, replaced⟩
  · rw [same]
    exact ⟨inflight, present, fun _ member _ => member⟩
  · rw [replaced]
    by_cases same : other = key
    · subst same
      rw [present, Option.some.injEq] at removedPresent
      subst removedPresent
      refine ⟨_, Function.update_self _ _ _, ?_⟩
      intro waiter member elsewhere
      obtain ⟨bound, atAddr, _⟩ :=
        List.findIdx?_eq_some_iff_getElem.mp atPosition
      have permuted := swapPop_perm bound
      rw [permuted.mem_iff, List.mem_eraseIdx_iff_getElem]
      obtain ⟨index, indexBound, atIndex⟩ :=
        List.getElem_of_mem member
      refine ⟨index, indexBound, ?_, atIndex⟩
      intro samePosition
      subst samePosition
      rw [atIndex] at atAddr
      exact elsewhere (by simpa using atAddr)
    · refine ⟨inflight, ?_, fun _ member _ => member⟩
      exact (Function.update_of_ne same _ _).trans present

theorem receives_congr
    (queuesEq : next.queues = world.queues)
    (deliveredEq : next.delivered = world.delivered)
    (follower : Follower) (leader : Leader) :
    next.receives follower leader = world.receives follower leader := by
  simp only [receives, queuesEq, deliveredEq]

/-- A stream that is neither leader nor follower goes on. -/
theorem Delivers.of_other_update
    (delivers : world.Delivers)
    {stream : StreamId} {old new : Client}
    (client : world.clients[stream]? = some old)
    (oldLeader : ∀ leader, old ≠ .leader leader)
    (newLeader : ∀ leader, new ≠ .leader leader)
    (oldFollower : ∀ follower, old ≠ .follower follower)
    (newFollower : ∀ follower, new ≠ .follower follower)
    (clientsEq : next.clients = world.clients.set stream new)
    (cancelledEq : next.cancelled = world.cancelled)
    (queuesEq : next.queues = world.queues)
    (deliveredEq : next.delivered = world.delivered)
    (inflightEq :
      next.monitor.cache.inflightMap =
        world.monitor.cache.inflightMap) :
    next.Delivers := by
  refine delivers.of_same ?_ ?_ ?_ ?_
  · intro read follower found
    rw [clientsEq] at found
    exact
      (Table.getElem?_set_iff_of_ne client (oldFollower follower)
        (newFollower follower) read).mp found
  · intro addr live
    rwa [cancelledEq] at live
  · intro read owner follower leader _ _ _ ownerClient
    rw [clientsEq] at ownerClient
    exact
      ⟨leader,
        (Table.getElem?_set_iff_of_ne client (oldLeader leader)
          (newLeader leader) owner).mp ownerClient,
        rfl, rfl, receives_congr queuesEq deliveredEq follower leader⟩
  · intro owner leader inflight _ _ present
    rw [inflightEq]
    exact ⟨inflight, present, fun _ member _ => member⟩

/-- The call of a leader goes on without a publish or a post. -/
theorem Delivers.of_call_update
    (delivers : world.Delivers)
    {stream : StreamId} {leader : Leader} {call : Call}
    (client : world.clients[stream]? = some (.leader leader))
    (clientsEq :
      next.clients =
        world.clients.set stream (.leader { leader with call := call }))
    (samePending : call.pending = leader.call.pending)
    (cancelledEq : next.cancelled = world.cancelled)
    (queuesEq : next.queues = world.queues)
    (deliveredEq : next.delivered = world.delivered)
    (inflight :
      ∀ (owner : StreamId) (found : Leader),
        world.clients[owner]? = some (.leader found) →
        found.log.ended = false →
          next.monitor.cache.inflightMap found.key =
            world.monitor.cache.inflightMap found.key) :
    next.Delivers := by
  refine delivers.of_same ?_ ?_ ?_ ?_
  · intro read follower found
    rw [clientsEq] at found
    exact
      (Table.getElem?_set_iff_of_ne client (by simp) (by simp)
        read).mp found
  · intro addr live
    rwa [cancelledEq] at live
  · intro read owner follower found _ _ _ ownerClient
    rw [clientsEq, Table.getElem?_set_of_some client] at ownerClient
    by_cases same : owner = stream
    · rw [if_pos same, Option.some.injEq, Client.leader.injEq]
        at ownerClient
      subst same ownerClient
      refine ⟨leader, client, rfl, rfl, ?_⟩
      simp only [receives, queuesEq, deliveredEq, samePending]
    · rw [if_neg same] at ownerClient
      exact
        ⟨found, ownerClient, rfl, rfl,
          receives_congr queuesEq deliveredEq follower found⟩
  · intro owner found waitedFor ownerClient notEnded present
    rw [inflight owner found ownerClient notEnded]
    exact ⟨waitedFor, present, fun _ member _ => member⟩

/-- A new leader has no followers yet. -/
theorem Delivers.lookupLead
    (delivers : world.Delivers) (routed : world.Routed)
    {stream : StreamId} {dispatcher : DispatcherId} {key : Key}
    (client : world.clients[stream]? = some (.start dispatcher))
    (missing : world.monitor.cache.inflightMap key = none) :
    Delivers
      { world.update stream
          (.leader { key := key, log := [], call := .idle })
          { cache :=
              world.monitor.cache.setInflight key (some {}) } with
        history := .led stream key :: world.history } := by
  refine delivers.of_same ?_ (fun _ live => live) ?_ ?_
  · intro read follower found
    exact
      (Table.getElem?_set_iff_of_ne client (by simp) (by simp)
        read).mp found
  · intro read owner follower leader found _ joined ownerClient
    obtain ⟨other, earlier, otherJoined, otherClient, _⟩ :=
      routed.joinedLeader found
    rw [joined, Option.some.injEq] at otherJoined
    subst otherJoined
    have elsewhere : owner ≠ stream := by
      intro same
      subst same
      rw [client] at otherClient
      simp at otherClient
    have before : world.clients[owner]? = some (.leader leader) := by
      have kept :=
        (Table.getElem?_set_of_some client
          (.leader { key := key, log := [], call := .idle })
          owner).symm.trans ownerClient
      rwa [if_neg elsewhere] at kept
    exact ⟨leader, before, rfl, rfl, rfl⟩
  · intro owner leader inflight ownerClient notEnded present
    have different : leader.key ≠ key := by
      intro sameKey
      rw [sameKey, missing] at present
      simp at present
    refine ⟨inflight, ?_, fun _ member _ => member⟩
    exact (Function.update_of_ne different _ _).trans present

/-- Every step in which leaders keep their call contract delivers exactly. -/
theorem Delivers.step
    (delivers : world.Delivers) (flight : world.SingleFlight)
    (spooled : world.Spooled) (routed : world.Routed)
    {action : Action} (effect : Effect world action next)
    (contract : world.leaderCalls Log.contract action = true) :
    next.Delivers := by
  have sameWaiters :
      ∀ (owner : StreamId) (leader : Leader) (inflight : Inflight),
        world.clients[owner]? = some (.leader leader) →
        leader.log.ended = false →
        world.monitor.cache.inflightMap leader.key = some inflight →
          ∃ later,
            world.monitor.cache.inflightMap leader.key = some later ∧
              ∀ waiter ∈ inflight.waiters,
                world.cancelled waiter.addr = false →
                  waiter ∈ later.waiters :=
    fun _ _ inflight _ _ present =>
      ⟨inflight, present, fun _ member _ => member⟩
  cases effect with
  | lookupHit client free mapped read =>
      exact
        delivers.of_other_update client (by simp) (by simp) (by simp)
          (by simp) rfl rfl rfl rfl rfl
  | lookupLead client free unmapped missing =>
      exact delivers.lookupLead routed client missing
  | lookupFollow client free unmapped present headersFirst =>
      exact
        delivers.lookupFollow flight spooled routed client free present
  | copyHeaders client stage read =>
      exact
        delivers.of_other_update client (by simp) (by simp) (by simp)
          (by simp) rfl rfl rfl rfl rfl
  | handOutEmpty client stage empty read =>
      exact
        delivers.of_other_update client (by simp) (by simp) (by simp)
          (by simp) rfl rfl rfl rfl rfl
  | handOutBody client stage nonempty =>
      exact
        delivers.of_other_update client (by simp) (by simp) (by simp)
          (by simp) rfl rfl rfl rfl rfl
  | release client stage read =>
      exact
        delivers.of_other_update client (by simp) (by simp) (by simp)
          (by simp) rfl rfl rfl rfl rfl
  | publishLost client idle free missing =>
      exact
        absurd missing
          (flight.publish_finds client
            (Log.orderly_of_contract
              (permits_of_leaderCalls client contract)))
  | publishOpen client idle free present stays =>
      exact
        delivers.publish flight spooled routed client idle present
          (permits_of_leaderCalls client contract) rfl rfl rfl rfl rfl
          rfl
  | publishEnd client idle free present ends stored =>
      exact
        delivers.publish flight spooled routed client idle present
          (permits_of_leaderCalls client contract) rfl rfl rfl rfl rfl
          rfl
  | scan client finalizing running iterated =>
      refine
        delivers.of_same (fun _ _ found => found) (fun _ live => live)
          (fun _ _ follower leader _ _ _ ownerClient =>
            ⟨leader, ownerClient, rfl, rfl, rfl⟩) ?_
      have inflightSame := (scanIteration_frame iterated).2.2.1
      simp only [inflightSame]
      exact sameWaiters
  | @finish stream leader posts frame result cache client finalizing
      running atReturn completed =>
      obtain ⟨ended, other, otherRunning, frameKey⟩ :=
        flight.holder client finalizing
      rw [running, Option.some.injEq] at otherRunning
      subst otherRunning
      refine
        delivers.of_call_update client rfl (by rw [finalizing]; rfl) rfl
          rfl rfl ?_
      intro owner found ownerClient notEnded
      refine (completeFinalize_inflightMap completed found.key).trans ?_
      refine if_neg ?_
      rw [frameKey]
      intro sameKey
      have unfinished : leader.unfinished = true := by
        simp [Leader.unfinished, finalizing]
      have sameStream :=
        flight.unique client unfinished ownerClient
          (Leader.unfinished_of_not_ended notEnded) sameKey
      subst sameStream
      rw [client, Option.some.injEq, Client.leader.injEq] at ownerClient
      subst ownerClient
      rw [ended] at notEnded
      simp at notEnded
  | @post stream leader closure rest client posting =>
      refine
        delivers.of_same ?_ (fun _ live => live) ?_ sameWaiters
      · intro read follower found
        exact
          (Table.getElem?_set_iff_of_ne client (by simp) (by simp)
            read).mp found
      · intro read owner follower found followerClient _ joined
          ownerClient
        have moved :=
          routed.receives_post client posting followerClient
            { world.update stream
                (.leader { leader with call := .posting rest })
                world.monitor with
              queues := World.post world.queues closure }
            rfl rfl
        replace ownerClient :=
          (Table.getElem?_set_of_some client _ owner).symm.trans
            ownerClient
        by_cases same : owner = stream
        · rw [if_pos same, Option.some.injEq, Client.leader.injEq]
            at ownerClient
          subst same ownerClient
          exact ⟨leader, client, rfl, rfl, moved.1 joined⟩
        · rw [if_neg same] at ownerClient
          exact
            ⟨found, ownerClient, rfl, rfl,
              moved.2 owner found joined same⟩
  | return_ client posting =>
      exact
        delivers.of_call_update client rfl (by rw [posting]; rfl) rfl
          rfl rfl (fun _ _ _ _ => rfl)
  | runCancelled queued cancelled =>
      refine
        delivers.of_same (fun _ _ found => found) (fun _ live => live)
          ?_ sameWaiters
      intro read owner follower leader client live joined ownerClient
      refine ⟨leader, ownerClient, rfl, rfl, ?_⟩
      refine receives_runCancelled queued ?_ leader
      intro sameAddr
      rw [sameAddr] at cancelled
      simp [cancelled] at live
  | run queued live =>
      exact
        delivers.of_same (fun _ _ found => found) (fun _ live => live)
          (fun _ _ follower leader client _ _ ownerClient =>
            ⟨leader, ownerClient, rfl, rfl,
              routed.receives_run queued client leader⟩)
          sameWaiters
  | @cancel stream follower client =>
      have uncancelled :
          ∀ addr,
            Function.update world.cancelled follower.waiter.addr true
                  addr =
                false →
              world.cancelled addr = false := by
        intro addr live
        by_cases same : addr = follower.waiter.addr
        · subst same
          simp at live
        · rwa [Function.update_of_ne same] at live
      exact
        delivers.of_same (fun _ _ found => found) uncancelled
          (fun _ _ follower leader _ _ _ ownerClient =>
            ⟨leader, ownerClient, rfl, rfl, rfl⟩)
          (fun _ _ inflight _ _ present =>
            ⟨inflight, present, fun _ member _ => member⟩)
  | removeWaiter client cancelled free =>
      refine
        delivers.of_same (fun _ _ found => found) (fun _ live => live)
          (fun _ _ follower leader _ _ _ ownerClient =>
            ⟨leader, ownerClient, rfl, rfl, rfl⟩) ?_
      intro owner leader inflight _ _ present
      obtain ⟨later, laterPresent, kept⟩ :=
        mem_removeWaiterLocked present
      refine ⟨later, laterPresent, ?_⟩
      intro waiter member live
      refine kept waiter member ?_
      intro sameAddr
      rw [sameAddr] at live
      simp [cancelled] at live

/-! ## Reachable states -/

section Reachable

variable {capacity : UInt64} {slotCount : Nat}
variable {dispatchers : List DispatcherId}

/-- Leaders that keep the call contract publish in order. -/
theorem orderly_of_contract
    (reachable :
      Reachable step (create capacity slotCount dispatchers)
        (LeadersCall Log.contract) world) :
    Reachable step (create capacity slotCount dispatchers)
      (LeadersCall Log.orderly) world :=
  reachable.weaken fun _ _ _ contract =>
    leaderCalls_mono (fun _ _ => Log.orderly_of_contract) contract

theorem delivers_of_reachable
    (reachable :
      Reachable step (create capacity slotCount dispatchers)
        (LeadersCall Log.contract) world) :
    world.Delivers := by
  refine
    reachable.invariant
      (create_delivers capacity slotCount dispatchers) ?_
  intro before action after reached delivers stepped contract
  have orderly := orderly_of_contract reached
  have flight := singleFlight_of_reachable orderly
  have spooled := spooled_of_reachable orderly
  have routed := routed_of_reachable orderly
  exact
    delivers.step flight spooled routed (step_effect stepped) contract

/-- In every run in which leaders keep their call contract, each follower that
has not been cancelled gets exactly what the leader it joined has published:
executed on its callbacks, queued in its dispatcher or still to be posted. -/
theorem coalescedDeliveryExact
    (reachable :
      Reachable step (create capacity slotCount dispatchers)
        (LeadersCall Log.contract) world)
    (stream : StreamId) (follower : Follower)
    (client : world.clients[stream]? = some (.follower follower))
    (live : world.cancelled follower.waiter.addr = false) :
    ∃ (owner : StreamId) (leader : Leader),
      follower.leader = some owner ∧
        world.clients[owner]? = some (.leader leader) ∧
          leader.key = follower.key ∧
            ExactDelivery leader.log
              (world.receives follower leader) := by
  have routed := routed_of_reachable (orderly_of_contract reachable)
  have delivers := delivers_of_reachable reachable
  obtain ⟨owner, leader, joined, ownerClient, sameKey⟩ :=
    routed.joinedLeader client
  have received := delivers.exact client live joined ownerClient
  exact ⟨owner, leader, joined, ownerClient, sameKey, received⟩

end Reachable

/-- Two followers of one leader.  The second joins after the snapshot of the
published headers and before their post to the first, and the run stops with
events executed, queued and still to be posted. -/
def coalescedRun : List Action :=
  [.move 0 (.lookup [1]), .move 1 (.lookup [1]),
    .move 0 (.publish (.headers [([2], [3])] false)),
    .move 2 (.lookup [1]), .move 0 .post, .move 0 .return_, .run 0,
    .move 0 (.publish (.data [4] true)), .move 0 .scan, .move 0 .scan,
    .move 0 .finish, .move 0 .post]

theorem coalescedDeliveryExact_coalescedRun :
    ∃ world,
      checkedRun step
            (fun world action _ =>
              world.leaderCalls Log.contract action)
            (create 9 1 [0, 1, 0]) coalescedRun =
          some world ∧
        world.delivered 2 =
            [.encodeHeaders [([2], [3])] false .coalescedBackfill] ∧
          (world.queues 1).length = 2 ∧
            ∃ (owner : StreamId) (leader : Leader),
              some 0 = some owner ∧
                world.clients[owner]? = some (.leader leader) ∧
                  leader.key = [1] ∧
                    ExactDelivery leader.log
                      (world.receives
                        { key := [1]
                          waiter := waiterOf 2 0
                          leader := some 0 }
                        leader) := by
  refine ⟨_, rfl, rfl, rfl, ?_⟩
  exact
    coalescedDeliveryExact
      (Reachable.of_checkedRun (fun _ _ _ checked => checked)
        Reachable.start
        (rfl :
          checkedRun step
              (fun world action _ =>
                world.leaderCalls Log.contract action)
              (create 9 1 [0, 1, 0]) coalescedRun =
            some _))
      2 { key := [1], waiter := waiterOf 2 0, leader := some 0 } rfl rfl

end World

end RingCache

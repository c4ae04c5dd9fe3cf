import RingCache.Library.Schedules
import RingCache.Streams.Safety

/-!
# Calls return and posted closures run

The system is left to itself: no stream begins a call, ends or releases a body
fragment, but every call that has begun goes on and dispatchers run what has
been posted.  However the remaining steps are scheduled, there are at most
`World.work` of them, none of the streams gets stuck before all calls have
returned and all queues are empty, and what each follower has received then
does not depend on the schedule.
-/

namespace RingCache

open Transition RingBufferCache

namespace Monitor

variable {capacity : UInt64} {slotCount : Nat}
variable {monitor next : Monitor} {frame : FinalizeFrame}
variable {iterations : Nat}

/-- The scan of the running finalization has made a number of iterations since
it was entered on some cache. -/
structure Underway
    (slotCount : Nat) (monitor : Monitor) (frame : FinalizeFrame)
    (iterations : Nat) : Prop where
  running : monitor.frame = some frame
  scanned :
    ∃ (cache : RingBufferCache) (reads : List (Nat × Bool)),
      cache.slotCount = slotCount ∧
        cache.slots.length = cache.slotCount ∧
          cache.head < cache.slotCount ∧
            cache.Accounted ∧
              cache.ScanRun frame.size iterations reads monitor.cache
                frame.point

theorem Underway.iterations_le
    (underway : Underway slotCount monitor frame iterations) :
    iterations ≤ 2 * slotCount + 1 := by
  obtain ⟨cache, reads, rfl, slotsLength, headBound, accounted, run⟩ :=
    underway.scanned
  exact (run.progress slotsLength headBound accounted).iterations_le

/-- A finalization has just been entered. -/
theorem Underway.enter
    (positive : 0 < slotCount)
    (consistent : next.Consistent capacity slotCount)
    {cache : RingBufferCache} {key : Key} {inflight : Inflight}
    {headers : ResponseHeaderMap}
    (enters : Enters cache key inflight headers next)
    (running : next.frame = some frame) :
    Underway slotCount next frame 0 := by
  have wellFormed := consistent.wellFormed
  refine
    { running := running
      scanned :=
        ⟨next.cache, [], consistent.slotCountEq, wellFormed.slotsLength,
          consistent.headBound positive, wellFormed.toAccounted, ?_⟩ }
  have sameFrame := enters.frameEq.symm.trans running
  rw [Option.some.injEq] at sameFrame
  subst sameFrame
  exact ScanRun.enter

theorem Underway.iterate
    (underway : Underway slotCount monitor frame iterations)
    {cache : RingBufferCache} {point : ScanPoint}
    (iterated :
      monitor.cache.scanIteration frame.size frame.point =
        .ok (cache, point)) :
    Underway slotCount
      { cache := cache, frame := some { frame with point := point } }
      { frame with point := point } (iterations + 1) := by
  obtain ⟨entered, reads, sameCount, slotsLength, headBound, accounted,
    run⟩ := underway.scanned
  exact
    { running := rfl
      scanned :=
        ⟨entered, _, sameCount, slotsLength, headBound, accounted,
          ScanRun.iterate run iterated⟩ }

/-- A pin release changes nothing that the scan has done. -/
theorem Underway.updatePins
    (underway : Underway slotCount monitor frame iterations)
    (ptr : EntryPtr) (update : UInt32 → UInt32) :
    Underway slotCount
      { monitor with cache := monitor.cache.updatePins ptr update } frame
      iterations := by
  obtain ⟨entered, reads, sameCount, slotsLength, headBound, accounted,
    run⟩ := underway.scanned
  exact
    { running := underway.running
      scanned :=
        ⟨entered, reads, sameCount, slotsLength, headBound, accounted,
          ScanRun.interfere run (clearPins_updatePins _ _ _)⟩ }

/-- A scan under way makes an iteration or has returned. -/
theorem Underway.proceeds
    (underway : Underway slotCount monitor frame iterations) :
    (∃ result, frame.point = .returned result) ∨
      ∃ cache point,
        monitor.cache.scanIteration frame.size frame.point =
          .ok (cache, point) := by
  obtain ⟨entered, reads, sameCount, slotsLength, headBound, accounted,
    run⟩ := underway.scanned
  by_cases ended : ∃ result, frame.point = .returned result
  · exact Or.inl ended
  · refine
      Or.inr
        ((run.progress slotsLength headBound accounted).iterates
          slotsLength headBound ?_)
    intro result atReturn
    exact ended ⟨result, atReturn⟩

/-- A finalization that holds the mutex has a scan under way. -/
theorem underway_of_reachable
    (positive : 0 < slotCount)
    (reachable :
      Reachable step (create capacity slotCount) (fun _ _ _ => True)
        monitor)
    (running : monitor.frame = some frame) :
    ∃ iterations, Underway slotCount monitor frame iterations := by
  induction reachable generalizing frame with
  | start =>
      simp [create] at running
  | @next before after action reached stepped _ inductionHypothesis =>
      have reachedAfter := Reachable.next reached stepped trivial
      cases held : before.frame with
      | none =>
          obtain ⟨_, inflight, headers, enters⟩ :=
            enters_of_step held stepped running
          exact
            ⟨0, Underway.enter positive
              (consistent_of_reachable reachedAfter) enters running⟩
      | some current =>
          obtain ⟨iterations, underway⟩ := inductionHypothesis held
          rcases step_of_running held stepped with
            rfl | rfl | ⟨ptr, rfl⟩
          · obtain ⟨other, cache, point, otherHeld, iterated, rfl⟩ :=
              scan_eq_ok_iff.mp stepped
            rw [held, Option.some.injEq] at otherHeld
            subst otherHeld
            rw [Option.some.injEq] at running
            subst running
            exact ⟨iterations + 1, underway.iterate iterated⟩
          · obtain ⟨_, _, _, _, released, _⟩ :=
              finish_eq_ok_iff.mp stepped
            rw [released] at running
            simp at running
          · obtain ⟨_, rfl⟩ := unpin_eq_ok_iff.mp stepped
            rw [held, Option.some.injEq] at running
            subst running
            exact ⟨iterations, underway.updatePins _ _⟩

end Monitor

/-! ## The steps that are left -/

/-- The moves by which a call that has begun goes on. -/
def World.Move.continues : World.Move → Bool
  | .copyHeaders => true
  | .handOut => true
  | .scan => true
  | .finish => true
  | .post => true
  | .return_ => true
  | _ => false

/-- The steps of a system that is left to itself. -/
def World.Action.continues : World.Action → Bool
  | .move _ taken => taken.continues
  | .run _ => true

/-- What a stream has still to do, with the runs of the closures it has still
to post. -/
def Client.work : Client → Nat
  | .start _ => 0
  | .hit lookup =>
      match lookup.stage with
      | .pinned => 2
      | .copied _ => 1
      | .served _ _ => 0
  | .leader state =>
      match state.call with
      | .idle => 0
      | .finalizing posts => 2 * posts.length + 2
      | .posting posts => 2 * posts.length + 1
  | .follower _ => 0

namespace World

variable {world next : World} {action : Action}

/-- The runs in which nobody begins anything. -/
def LeftAlone (_ : World) (action : Action) (_ : World) : Prop :=
  action.continues = true

/-- All calls have returned and every posted closure has run. -/
structure Settled (world : World) : Prop where
  free : world.monitor.frame = none
  returned : ∀ client ∈ world.clients, client.work = 0
  drained : ∀ dispatcher, world.queues dispatcher = []

/-- The closures that wait in the queues of the dispatchers. -/
def waiting (dispatchers : List DispatcherId) (world : World) : Nat :=
  Mail.waiting world.queues dispatchers.toFinset

/-- A bound on the steps that are left. -/
def work (dispatchers : List DispatcherId) (world : World) : Nat :=
  (world.clients.map Client.work).sum + world.waiting dispatchers +
    if world.monitor.frame.isSome then
      2 * world.monitor.cache.slotCount + 1
    else
      0

/-! ## Closures wait at the dispatchers of the streams -/

/-- Streams and closures are at home at the given dispatchers. -/
structure Homed (dispatchers : List DispatcherId) (world : World) :
    Prop where
  starts :
    ∀ {stream : StreamId} {dispatcher : DispatcherId},
      world.clients[stream]? = some (.start dispatcher) →
        dispatcher ∈ dispatchers
  followers :
    ∀ {stream : StreamId} {follower : Follower},
      world.clients[stream]? = some (.follower follower) →
        follower.waiter.dispatcher ∈ dispatchers
  queued :
    ∀ {dispatcher : DispatcherId},
      world.queues dispatcher ≠ [] → dispatcher ∈ dispatchers

theorem create_homed
    (capacity : UInt64) (slotCount : Nat)
    (dispatchers : List DispatcherId) :
    (create capacity slotCount dispatchers).Homed dispatchers := by
  refine
    { starts := ?_
      followers := fun client => absurd client (create_client (by simp))
      queued := fun nonempty => absurd rfl nonempty }
  intro stream dispatcher client
  have member := List.mem_of_getElem? client
  simp only [create, List.mem_map, Client.start.injEq] at member
  obtain ⟨other, otherMember, rfl⟩ := member
  exact otherMember

/-- A step keeps streams and queues at home when what it adds is. -/
theorem Homed.of_added
    {dispatchers : List DispatcherId} (homed : world.Homed dispatchers)
    (starts :
      ∀ (stream : StreamId) (dispatcher : DispatcherId),
        next.clients[stream]? = some (.start dispatcher) →
          world.clients[stream]? = some (.start dispatcher))
    (followers :
      ∀ (stream : StreamId) (follower : Follower),
        next.clients[stream]? = some (.follower follower) →
          world.clients[stream]? = some (.follower follower) ∨
            follower.waiter.dispatcher ∈ dispatchers)
    (queues :
      ∀ dispatcher,
        next.queues dispatcher ≠ [] →
          world.queues dispatcher ≠ [] ∨ dispatcher ∈ dispatchers) :
    next.Homed dispatchers := by
  refine
    { starts := fun client => homed.starts (starts _ _ client)
      followers := ?_
      queued := ?_ }
  · intro stream follower client
    rcases followers stream follower client with earlier | member
    · exact homed.followers earlier
    · exact member
  · intro dispatcher nonempty
    rcases queues dispatcher nonempty with earlier | member
    · exact homed.queued earlier
    · exact member

/-- One stream goes on, at home if it becomes a follower. -/
theorem Homed.of_update
    {dispatchers : List DispatcherId} (homed : world.Homed dispatchers)
    {stream : StreamId} {old new : Client}
    (client : world.clients[stream]? = some old)
    (notStart : ∀ dispatcher, new ≠ .start dispatcher)
    (home :
      ∀ follower,
        new = .follower follower →
          follower.waiter.dispatcher ∈ dispatchers)
    (clientsEq : next.clients = world.clients.set stream new)
    (queues :
      ∀ dispatcher,
        next.queues dispatcher ≠ [] →
          world.queues dispatcher ≠ [] ∨ dispatcher ∈ dispatchers) :
    next.Homed dispatchers := by
  refine homed.of_added ?_ ?_ queues
  · intro read dispatcher found
    rw [clientsEq, Table.getElem?_set_of_some client] at found
    by_cases same : read = stream
    · rw [if_pos same, Option.some.injEq] at found
      exact absurd found (notStart dispatcher)
    · rwa [if_neg same] at found
  · intro read follower found
    rw [clientsEq, Table.getElem?_set_of_some client] at found
    by_cases same : read = stream
    · rw [if_pos same, Option.some.injEq] at found
      exact Or.inr (home follower found)
    · rw [if_neg same] at found
      exact Or.inl found

theorem post_ne_nil
    {queues : DispatcherId → List Closure} {closure : Closure}
    {dispatcher : DispatcherId}
    (nonempty : post queues closure dispatcher ≠ []) :
    queues dispatcher ≠ [] ∨ dispatcher = closure.waiter.dispatcher := by
  by_cases home : dispatcher = closure.waiter.dispatcher
  · exact Or.inr home
  · rw [post, Function.update_of_ne home] at nonempty
    exact Or.inl nonempty

theorem foldl_post_ne_nil
    {closures : List Closure} {queues : DispatcherId → List Closure}
    {dispatcher : DispatcherId}
    (nonempty : closures.foldl post queues dispatcher ≠ []) :
    queues dispatcher ≠ [] ∨
      ∃ closure ∈ closures, dispatcher = closure.waiter.dispatcher := by
  induction closures generalizing queues with
  | nil =>
      exact Or.inl nonempty
  | cons closure rest inductionHypothesis =>
      rcases inductionHypothesis nonempty with
        earlier | ⟨later, member, home⟩
      · rcases post_ne_nil earlier with kept | home
        · exact Or.inl kept
        · exact Or.inr ⟨closure, List.mem_cons_self, home⟩
      · exact Or.inr ⟨later, List.mem_cons_of_mem _ member, home⟩

theorem Homed.step
    {dispatchers : List DispatcherId} (homed : world.Homed dispatchers)
    (routed : world.Routed) (effect : Effect world action next) :
    next.Homed dispatchers := by
  have popped :
      ∀ (dispatcher : DispatcherId) (closure : Closure)
          (rest : List Closure),
        world.queues dispatcher = closure :: rest →
          ∀ other,
            Function.update world.queues dispatcher rest other ≠ [] →
              world.queues other ≠ [] ∨ other ∈ dispatchers := by
    intro dispatcher closure rest queued other nonempty
    by_cases same : other = dispatcher
    · subst same
      rw [queued]
      exact Or.inl (List.cons_ne_nil _ _)
    · rw [Function.update_of_ne same] at nonempty
      exact Or.inl nonempty
  cases effect with
  | lookupHit client =>
      exact
        homed.of_update client (by simp) (by simp) rfl
          (fun _ nonempty => Or.inl nonempty)
  | lookupLead client =>
      exact
        homed.of_update client (by simp) (by simp) rfl
          (fun _ nonempty => Or.inl nonempty)
  | @lookupFollow stream dispatcher key inflight client =>
      have home := homed.starts client
      refine homed.of_update client (by simp) ?_ rfl ?_
      · intro follower same
        cases same
        exact home
      · intro other nonempty
        rcases foldl_post_ne_nil nonempty with
          earlier | ⟨closure, member, sameHome⟩
        · exact Or.inl earlier
        · rw [waiter_of_mem_backfillPosts member] at sameHome
          rw [sameHome]
          exact Or.inr home
  | copyHeaders client =>
      exact
        homed.of_update client (by simp) (by simp) rfl
          (fun _ nonempty => Or.inl nonempty)
  | handOutEmpty client =>
      exact
        homed.of_update client (by simp) (by simp) rfl
          (fun _ nonempty => Or.inl nonempty)
  | handOutBody client =>
      exact
        homed.of_update client (by simp) (by simp) rfl
          (fun _ nonempty => Or.inl nonempty)
  | release client =>
      exact
        homed.of_update client (by simp) (by simp) rfl
          (fun _ nonempty => Or.inl nonempty)
  | publishLost client =>
      exact
        homed.of_update client (by simp) (by simp) rfl
          (fun _ nonempty => Or.inl nonempty)
  | publishOpen client =>
      exact
        homed.of_update client (by simp) (by simp) rfl
          (fun _ nonempty => Or.inl nonempty)
  | publishEnd client =>
      exact
        homed.of_update client (by simp) (by simp) rfl
          (fun _ nonempty => Or.inl nonempty)
  | scan client =>
      exact
        homed.of_added (fun _ _ found => found)
          (fun _ _ found => Or.inl found)
          (fun _ nonempty => Or.inl nonempty)
  | finish client =>
      exact
        homed.of_update client (by simp) (by simp) rfl
          (fun _ nonempty => Or.inl nonempty)
  | @post stream leader closure rest client posting =>
      refine homed.of_update client (by simp) (by simp) rfl ?_
      intro dispatcher nonempty
      rcases post_ne_nil nonempty with earlier | home
      · exact Or.inl earlier
      · obtain ⟨follower, followerClient, sameWaiter, _⟩ :=
          routed.pending client
            (by rw [posting]; exact List.mem_cons_self)
        rw [home, ← sameWaiter]
        exact Or.inr (homed.followers followerClient)
  | return_ client =>
      exact
        homed.of_update client (by simp) (by simp) rfl
          (fun _ nonempty => Or.inl nonempty)
  | runCancelled queued =>
      exact
        homed.of_added (fun _ _ found => found)
          (fun _ _ found => Or.inl found) (popped _ _ _ queued)
  | run queued =>
      exact
        homed.of_added (fun _ _ found => found)
          (fun _ _ found => Or.inl found) (popped _ _ _ queued)
  | cancel client =>
      exact
        homed.of_added (fun _ _ found => found)
          (fun _ _ found => Or.inl found)
          (fun _ nonempty => Or.inl nonempty)
  | removeWaiter client =>
      exact
        homed.of_added (fun _ _ found => found)
          (fun _ _ found => Or.inl found)
          (fun _ nonempty => Or.inl nonempty)

theorem homed_of_reachable
    {capacity : UInt64} {slotCount : Nat}
    {dispatchers : List DispatcherId}
    (reachable :
      Reachable step (create capacity slotCount dispatchers)
        (LeadersCall Log.contract) world) :
    world.Homed dispatchers := by
  refine
    reachable.invariant (create_homed capacity slotCount dispatchers) ?_
  intro before action after reached homed stepped _
  exact
    homed.step (routed_of_reachable (orderly_of_contract reached))
      (step_effect stepped)

/-! ## Each step uses up some of the work -/

/-- The work of the streams and dispatchers, with `left` iterations of the
running scan, is within an amount. -/
structure Affords
    (slotCount : Nat) (dispatchers : List DispatcherId) (world : World)
    (left amount : Nat) : Prop where
  scan :
    ∀ frame,
      world.monitor.frame = some frame →
        ∃ iterations,
          Monitor.Underway slotCount world.monitor frame iterations ∧
            2 * slotCount + 1 ≤ iterations + left
  total :
    (world.clients.map Client.work).sum + world.waiting dispatchers +
        left ≤
      amount

section Work

variable {slotCount left amount : Nat}
variable {dispatchers : List DispatcherId}

theorem clientsWork_update
    {stream : StreamId} {old : Client}
    (client : world.clients[stream]? = some old) (new : Client)
    (clientsEq : next.clients = world.clients.set stream new) :
    (next.clients.map Client.work).sum + old.work =
      (world.clients.map Client.work).sum + new.work := by
  rw [clientsEq]
  exact Table.sum_map_set Client.work new client

theorem waiting_post
    {closure : Closure}
    (home : closure.waiter.dispatcher ∈ dispatchers)
    (queuesEq : next.queues = World.post world.queues closure) :
    next.waiting dispatchers = world.waiting dispatchers + 1 := by
  have member : closure.waiter.dispatcher ∈ dispatchers.toFinset :=
    List.mem_toFinset.mpr home
  have total :=
    Mail.waiting_update world.queues member
      (world.queues closure.waiter.dispatcher ++ [closure])
  rw [List.length_append, List.length_singleton] at total
  unfold waiting
  rw [queuesEq, World.post]
  omega

theorem waiting_run
    {dispatcher : DispatcherId} {closure : Closure}
    {rest : List Closure}
    (home : dispatcher ∈ dispatchers)
    (queued : world.queues dispatcher = closure :: rest)
    (queuesEq :
      next.queues = Function.update world.queues dispatcher rest) :
    next.waiting dispatchers + 1 = world.waiting dispatchers := by
  have member : dispatcher ∈ dispatchers.toFinset :=
    List.mem_toFinset.mpr home
  have total := Mail.waiting_update world.queues member rest
  rw [queued, List.length_cons] at total
  unfold waiting
  rw [queuesEq]
  omega

/-- One stream goes on by one step of its call. -/
theorem Affords.of_update
    (affords : Affords slotCount dispatchers world left amount)
    {stream : StreamId} {old new : Client}
    (client : world.clients[stream]? = some old)
    (clientsEq : next.clients = world.clients.set stream new)
    (less :
      new.work + next.waiting dispatchers + 1 =
        old.work + world.waiting dispatchers)
    (scan :
      ∀ frame,
        next.monitor.frame = some frame →
          ∃ iterations,
            Monitor.Underway slotCount next.monitor frame iterations ∧
              2 * slotCount + 1 ≤ iterations + left) :
    ∃ nextAmount,
      nextAmount < amount ∧
        Affords slotCount dispatchers next left nextAmount := by
  have total := affords.total
  have changed := clientsWork_update client new clientsEq
  refine ⟨amount - 1, by omega, scan, by omega⟩

/-- A dispatcher runs a closure. -/
theorem Affords.of_run
    (affords : Affords slotCount dispatchers world left amount)
    (less : next.waiting dispatchers + 1 = world.waiting dispatchers)
    (clientsEq : next.clients = world.clients)
    (monitorEq : next.monitor = world.monitor) :
    ∃ nextAmount,
      nextAmount < amount ∧
        Affords slotCount dispatchers next left nextAmount := by
  have total := affords.total
  refine ⟨amount - 1, by omega, ?_, ?_⟩
  · rw [monitorEq]
    exact affords.scan
  · rw [clientsEq]
    omega

/-- Every step of a system left to itself uses up some of its work. -/
theorem Affords.spend
    (affords : Affords slotCount dispatchers world left amount)
    (homed : world.Homed dispatchers) (routed : world.Routed)
    (effect : Effect world action next)
    (continues : action.continues = true) :
    ∃ nextLeft nextAmount,
      nextAmount < amount ∧
        Affords slotCount dispatchers next nextLeft nextAmount := by
  cases effect <;>
    try (simp [Action.continues, Move.continues] at continues; done)
  case copyHeaders stream hit entry client stage read =>
      refine ⟨left, affords.of_update client rfl ?_ affords.scan⟩
      simp [Client.work, stage, waiting, update]
      omega
  case handOutEmpty stream hit headers entry client stage empty read =>
      refine ⟨left, affords.of_update client rfl ?_ ?_⟩
      · simp [Client.work, stage, waiting, update]
        omega
      · intro frame running
        obtain ⟨iterations, underway, enough⟩ :=
          affords.scan frame running
        exact ⟨iterations, underway.updatePins _ _, enough⟩
  case handOutBody stream hit headers client stage nonempty =>
      refine ⟨left, affords.of_update client rfl ?_ affords.scan⟩
      simp [Client.work, stage, waiting, update]
      omega
  case scan stream leader posts frame cache point client finalizing
      running iterated =>
      obtain ⟨iterations, underway, enough⟩ := affords.scan frame running
      have further := underway.iterate iterated
      have bound := further.iterations_le
      have total := affords.total
      refine ⟨left - 1, amount - 1, by omega, ?_, ?_⟩
      · intro other otherRunning
        simp only [Option.some.injEq] at otherRunning
        subst otherRunning
        exact ⟨iterations + 1, further, by omega⟩
      · change
          (world.clients.map Client.work).sum +
                world.waiting dispatchers + (left - 1) ≤
            amount - 1
        omega
  case finish stream leader posts frame result cache client finalizing
      running atReturn completed =>
      refine ⟨left, affords.of_update client rfl ?_ ?_⟩
      · simp [Client.work, finalizing, waiting, update]
        omega
      · intro other otherRunning
        simp [update] at otherRunning
  case post stream leader closure rest client posting =>
      obtain ⟨follower, followerClient, sameWaiter, _⟩ :=
        routed.pending client
          (by rw [posting]; exact List.mem_cons_self)
      have home : closure.waiter.dispatcher ∈ dispatchers := by
        rw [← sameWaiter]
        exact homed.followers followerClient
      refine ⟨left, affords.of_update client rfl ?_ affords.scan⟩
      rw [waiting_post home rfl]
      simp [Client.work, posting]
      omega
  case return_ stream leader client posting =>
      refine ⟨left, affords.of_update client rfl ?_ affords.scan⟩
      simp [Client.work, posting, waiting, update]
      omega
  case runCancelled dispatcher closure rest queued cancelled =>
      have home := homed.queued (by rw [queued]; simp)
      exact
        ⟨left, affords.of_run (waiting_run home queued rfl) rfl rfl⟩
  case run dispatcher closure rest queued live =>
      have home := homed.queued (by rw [queued]; simp)
      exact
        ⟨left, affords.of_run (waiting_run home queued rfl) rfl rfl⟩

end Work

/-! ## Nobody gets stuck -/

/-- A dispatcher with a closure in its queue runs it. -/
theorem run_total
    {dispatcher : DispatcherId}
    (nonempty : world.queues dispatcher ≠ []) :
    ∃ after, world.step (.run dispatcher) = .ok after := by
  rw [step]
  unfold runNext
  cases queued : world.queues dispatcher with
  | nil =>
      exact absurd queued nonempty
  | cons closure rest =>
      simp only
      split
      · exact ⟨_, rfl⟩
      · exact ⟨_, rfl⟩

/-- The entry that a hit lookup refers to can be read. -/
theorem Pinned.entryAt
    (pinned : world.Pinned)
    (wellFormed : world.monitor.cache.WellFormed)
    {stream : StreamId} {hit : HitLookup}
    (client : world.clients[stream]? = some (.hit hit))
    (refers : hit.stage.refers = true) :
    ∃ entry, world.monitor.cache.entryAt hit.entry = some entry := by
  obtain ⟨position, entry, _, _, _, resident, sameAddr, _⟩ :=
    pinned.held client refers
  refine ⟨entry, ?_⟩
  rw [← sameAddr]
  exact wellFormed.entryAt_of_resident resident

/-- A hit lookup goes on until it has handed out its response. -/
theorem hit_proceeds
    (pinned : world.Pinned)
    (wellFormed : world.monitor.cache.WellFormed)
    {stream : StreamId} {hit : HitLookup}
    (client : world.clients[stream]? = some (.hit hit))
    (working : (Client.hit hit).work ≠ 0) :
    ∃ move,
      move.continues = true ∧
        ∃ after, world.step (.move stream move) = .ok after := by
  cases stage : hit.stage with
  | pinned =>
      obtain ⟨entry, found⟩ :=
        pinned.entryAt wellFormed client (by rw [stage]; rfl)
      refine ⟨.copyHeaders, rfl, ?_⟩
      simp only [step, client, stage, hitStep, found]
      exact ⟨_, rfl⟩
  | copied headers =>
      obtain ⟨entry, found⟩ :=
        pinned.entryAt wellFormed client (by rw [stage]; rfl)
      by_cases empty : hit.bodyLength = 0
      · have unpinned :=
          Monitor.unpin_eq_ok_iff.mpr ⟨⟨entry, found⟩, rfl⟩
        refine ⟨.handOut, rfl, ?_⟩
        simp only [step, client, stage, hitStep, if_pos empty, unpinned]
        exact ⟨_, rfl⟩
      · refine ⟨.handOut, rfl, ?_⟩
        simp only [step, client, stage, hitStep, if_neg empty]
        exact ⟨_, rfl⟩
  | served headers fragment =>
      simp [Client.work, stage] at working

/-- A publish call goes on until it has returned. -/
theorem leader_proceeds
    {capacity : UInt64} {slotCount : Nat}
    (positive : 0 < slotCount)
    (reachable :
      Reachable Monitor.step (Monitor.create capacity slotCount)
        (fun _ _ _ => True) world.monitor)
    (flight : world.SingleFlight)
    {stream : StreamId} {leader : Leader}
    (client : world.clients[stream]? = some (.leader leader))
    (working : (Client.leader leader).work ≠ 0) :
    ∃ move,
      move.continues = true ∧
        ∃ after, world.step (.move stream move) = .ok after := by
  cases call : leader.call with
  | idle =>
      simp [Client.work, call] at working
  | posting posts =>
      cases posts with
      | nil =>
          refine ⟨.return_, rfl, ?_⟩
          simp only [step, client, call, leaderStep]
          exact ⟨_, rfl⟩
      | cons closure rest =>
          refine ⟨.post, rfl, ?_⟩
          simp only [step, client, call, leaderStep]
          exact ⟨_, rfl⟩
  | finalizing posts =>
      obtain ⟨_, frame, running, _⟩ := flight.holder client call
      obtain ⟨iterations, underway⟩ :=
        Monitor.underway_of_reachable positive reachable running
      rcases underway.proceeds with
        ⟨result, atReturn⟩ | ⟨cache, point, iterated⟩
      · obtain ⟨after, finished⟩ :=
          (Monitor.consistent_of_reachable reachable).finish_total
            running atReturn
        replace finished : world.monitor.finish = .ok after := finished
        refine ⟨.finish, rfl, ?_⟩
        simp only [step, client, call, leaderStep, finished]
        exact ⟨_, rfl⟩
      · have scanned :=
          Monitor.scan_eq_ok_iff.mpr
            ⟨frame, cache, point, running, iterated, rfl⟩
        refine ⟨.scan, rfl, ?_⟩
        simp only [step, client, call, leaderStep, scanned]
        exact ⟨_, rfl⟩

/-- No step of a system left to itself adds a reference to an entry. -/
theorem references_continue
    (effect : Effect world action next)
    (continues : action.continues = true) (ptr : EntryPtr) :
    next.references ptr ≤ world.references ptr := by
  have updated :
      ∀ {stream : StreamId} {old : Client} (new : Client),
        world.clients[stream]? = some old →
        next.clients = world.clients.set stream new →
        new.references ptr ≤ old.references ptr →
          next.references ptr ≤ world.references ptr := by
    intro stream old new client clientsEq fewer
    have total := references_update client new clientsEq ptr
    omega
  have hitUpdated :
      ∀ {stream : StreamId} {hit : HitLookup} (stage : HitStage),
        world.clients[stream]? = some (.hit hit) →
        hit.stage.refers = true →
        next.clients =
            world.clients.set stream (.hit { hit with stage := stage }) →
          next.references ptr ≤ world.references ptr := by
    intro stream hit stage client refers clientsEq
    refine updated _ client clientsEq ?_
    rw [Client.references_hit, Client.references_hit]
    by_cases same : hit.entry = ptr
    · have counted : hit.entry = ptr ∧ hit.stage.refers = true :=
        ⟨same, refers⟩
      rw [if_pos counted]
      split <;> omega
    · rw [if_neg (fun found => same found.1)]
      exact Nat.zero_le _
  have leaderUpdated :
      ∀ {stream : StreamId} {leader : Leader} (new : Leader),
        world.clients[stream]? = some (.leader leader) →
        next.clients = world.clients.set stream (.leader new) →
          next.references ptr ≤ world.references ptr :=
    fun new client clientsEq =>
      updated (.leader new) client clientsEq (Nat.le_refl _)
  cases effect <;>
    try (simp [Action.continues, Move.continues] at continues; done)
  case copyHeaders stream hit entry client stage read =>
      exact hitUpdated _ client (by rw [stage]; rfl) rfl
  case handOutEmpty stream hit headers entry client stage empty read =>
      exact hitUpdated _ client (by rw [stage]; rfl) rfl
  case handOutBody stream hit headers client stage nonempty =>
      exact hitUpdated _ client (by rw [stage]; rfl) rfl
  case scan =>
      exact Nat.le_refl _
  case finish stream leader posts frame result cache client finalizing
      running atReturn completed =>
      exact leaderUpdated _ client rfl
  case post stream leader closure rest client posting =>
      exact leaderUpdated _ client rfl
  case return_ stream leader client posting =>
      exact leaderUpdated _ client rfl
  case runCancelled =>
      exact Nat.le_refl _
  case run =>
      exact Nat.le_refl _

section Reachable

variable {capacity : UInt64} {slotCount : Nat}
variable {dispatchers : List DispatcherId}

/-- A reachable state whose work is within an amount. -/
structure Budget
    (capacity : UInt64) (slotCount : Nat)
    (dispatchers : List DispatcherId) (world : World) (amount : Nat) :
    Prop where
  contract :
    Reachable step (create capacity slotCount dispatchers)
      (LeadersCall Log.contract) world
  bounded :
    Reachable step (create capacity slotCount dispatchers) HitsBounded
      world
  affords : ∃ left, Affords slotCount dispatchers world left amount

theorem leaderCalls_of_continues
    (continues : action.continues = true)
    (permits : Log → Publish → Bool) :
    world.leaderCalls permits action = true := by
  cases action with
  | run dispatcher =>
      rfl
  | move stream move =>
      cases move <;>
        first
          | rfl
          | simp [Action.continues, Move.continues] at continues

theorem Budget.spend
    {amount : Nat}
    (budget : Budget capacity slotCount dispatchers world amount)
    (stepped : world.step action = .ok next)
    (continues : action.continues = true) :
    ∃ left,
      left < amount ∧
        Budget capacity slotCount dispatchers next left := by
  have effect := step_effect stepped
  have routed :=
    routed_of_reachable (orderly_of_contract budget.contract)
  obtain ⟨scans, affords⟩ := budget.affords
  obtain ⟨nextScans, nextAmount, smaller, nextAffords⟩ :=
    affords.spend (homed_of_reachable budget.contract) routed effect
      continues
  refine
    ⟨nextAmount, smaller,
      { contract := ?_
        bounded := ?_
        affords := ⟨nextScans, nextAffords⟩ }⟩
  · exact
      Reachable.next budget.contract stepped
        (leaderCalls_of_continues continues _)
  · refine Reachable.next budget.bounded stepped ?_
    intro ptr
    exact
      Nat.lt_of_le_of_lt (references_continue effect continues ptr)
        (references_bounded budget.bounded ptr)

/-- A state that is not settled has a step. -/
theorem Budget.proceeds
    {amount : Nat} (positive : 0 < slotCount)
    (budget : Budget capacity slotCount dispatchers world amount)
    (unsettled : ¬ world.Settled) :
    ∃ action after,
      world.step action = .ok after ∧ action.continues = true := by
  have flight :=
    singleFlight_of_reachable (orderly_of_contract budget.contract)
  have pinned := pinned_of_reachable budget.bounded
  have wellFormed := wellFormed_of_reachable budget.contract
  have monitorReachable := monitor_reachable budget.contract
  by_contra stuck
  refine unsettled ?_
  have drained : ∀ dispatcher, world.queues dispatcher = [] := by
    intro dispatcher
    by_contra nonempty
    obtain ⟨after, ran⟩ := run_total nonempty
    exact stuck ⟨.run dispatcher, after, ran, rfl⟩
  have returned : ∀ client ∈ world.clients, client.work = 0 := by
    intro client member
    by_contra working
    obtain ⟨stream, found⟩ := List.mem_iff_getElem?.mp member
    cases client with
    | start dispatcher =>
        exact working rfl
    | follower follower =>
        exact working rfl
    | hit hit =>
        obtain ⟨move, continues, after, moved⟩ :=
          hit_proceeds pinned wellFormed found working
        exact stuck ⟨.move stream move, after, moved, continues⟩
    | leader leader =>
        obtain ⟨move, continues, after, moved⟩ :=
          leader_proceeds positive monitorReachable flight found working
        exact stuck ⟨.move stream move, after, moved, continues⟩
  refine { free := ?_, returned := returned, drained := drained }
  cases running : world.monitor.frame with
  | none =>
      rfl
  | some frame =>
      obtain ⟨stream, leader, posts, client, _, finalizing⟩ :=
        flight.running running
      have idle := returned _ (List.mem_of_getElem? client)
      simp [Client.work, finalizing] at idle

theorem budget_of_reachable
    (positive : 0 < slotCount)
    (contract :
      Reachable step (create capacity slotCount dispatchers)
        (LeadersCall Log.contract) world)
    (bounded :
      Reachable step (create capacity slotCount dispatchers) HitsBounded
        world) :
    Budget capacity slotCount dispatchers world
      (world.work dispatchers) := by
  have monitorReachable := monitor_reachable contract
  have consistent := Monitor.consistent_of_reachable monitorReachable
  refine { contract := contract, bounded := bounded, affords := ?_ }
  cases held : world.monitor.frame with
  | none =>
      refine ⟨0, ?_, ?_⟩
      · intro frame running
        rw [held] at running
        simp at running
      · simp [work, held]
  | some frame =>
      refine ⟨2 * slotCount + 1, ?_, ?_⟩
      · intro other running
        obtain ⟨iterations, underway⟩ :=
          Monitor.underway_of_reachable positive monitorReachable
            running
        exact ⟨iterations, underway, by omega⟩
      · simp [work, held, consistent.slotCountEq]

/-- A system left to itself settles.  From every reachable state, whatever the
schedule, at most `work` steps are left, a schedule that cannot be extended
has ended in a settled state, and such a schedule exists. -/
theorem leftAloneSettles
    (positive : 0 < slotCount)
    (contract :
      Reachable step (create capacity slotCount dispatchers)
        (LeadersCall Log.contract) world)
    (bounded :
      Reachable step (create capacity slotCount dispatchers) HitsBounded
        world) :
    (∀ actions final,
        Schedule step LeftAlone world actions final →
          actions.length ≤ world.work dispatchers ∧
            ((∀ action after,
                final.step action = .ok after →
                  action.continues = false) →
              final.Settled)) ∧
      ∃ actions final,
        Schedule step LeftAlone world actions final ∧ final.Settled := by
  have budget := budget_of_reachable positive contract bounded
  have spends :
      ∀ before action after amount,
        Budget capacity slotCount dispatchers before amount →
        step before action = .ok after →
        LeftAlone before action after →
          ∃ left,
            left < amount ∧
              Budget capacity slotCount dispatchers after left :=
    fun _ _ _ _ budget stepped continues =>
      budget.spend stepped continues
  have proceeds :
      ∀ before amount,
        Budget capacity slotCount dispatchers before amount →
        ¬ before.Settled →
          ∃ action after,
            step before action = .ok after ∧
              LeftAlone before action after :=
    fun _ _ budget unsettled => budget.proceeds positive unsettled
  constructor
  · intro actions final schedule
    refine ⟨schedule.length_le spends budget, ?_⟩
    intro maximal
    by_contra unsettled
    have affordable :
        ∀ before action after,
          (∃ amount,
            Budget capacity slotCount dispatchers before amount) →
          step before action = .ok after →
          LeftAlone before action after →
            ∃ amount,
              Budget capacity slotCount dispatchers after amount := by
      intro before action after affordable stepped continues
      obtain ⟨amount, beforeBudget⟩ := affordable
      obtain ⟨left, _, afterBudget⟩ :=
        beforeBudget.spend stepped continues
      exact ⟨left, afterBudget⟩
    obtain ⟨amount, finalBudget⟩ :=
      schedule.invariant affordable ⟨_, budget⟩
    obtain ⟨action, after, stepped, continues⟩ :=
      finalBudget.proceeds positive unsettled
    rw [maximal action after stepped] at continues
    simp at continues
  · exact Schedule.exists_settled spends proceeds budget

end Reachable

/-- A leader has still one event to post and a dispatcher two closures to run:
at most five steps are left. -/
theorem leftAloneSettles_coalescedRun :
    ∃ world,
      checkedRun step
            (fun world action after =>
              world.leaderCalls Log.contract action &&
                decide (after.clients.length < 2 ^ 32))
            (create 9 1 [0, 1, 0]) coalescedRun =
          some world ∧
        world.work [0, 1, 0] = 5 ∧
          (∀ actions final,
            Schedule step LeftAlone world actions final →
              actions.length ≤ world.work [0, 1, 0]) ∧
            ∃ actions final,
              Schedule step LeftAlone world actions final ∧
                final.Settled := by
  obtain ⟨world, ran, fewSteps⟩ :
      ∃ world,
        checkedRun step
              (fun world action after =>
                world.leaderCalls Log.contract action &&
                  decide (after.clients.length < 2 ^ 32))
              (create 9 1 [0, 1, 0]) coalescedRun =
            some world ∧
          world.work [0, 1, 0] = 5 :=
    ⟨_, rfl, rfl⟩
  have contract :
      Reachable step (create 9 1 [0, 1, 0]) (LeadersCall Log.contract)
        world := by
    refine Reachable.of_checkedRun ?_ Reachable.start ran
    intro before action after checked
    rw [Bool.and_eq_true] at checked
    exact checked.1
  have bounded :
      Reachable step (create 9 1 [0, 1, 0]) HitsBounded world := by
    refine Reachable.of_checkedRun ?_ Reachable.start ran
    intro before action after checked ptr
    rw [Bool.and_eq_true] at checked
    exact
      Nat.lt_of_le_of_lt (after.references_le ptr)
        (of_decide_eq_true checked.2)
  have settles := leftAloneSettles (by decide) contract bounded
  exact
    ⟨world, ran, fewSteps,
      fun actions final schedule => (settles.1 actions final schedule).1,
      settles.2⟩

/-! ## What followers have received in the end -/

/-- A live follower of a leader with the given log, and the events it has
received or is still to receive. -/
structure Awaits
    (stream owner : StreamId) (follower : Follower) (log : Log)
    (events : List Event) (world : World) : Prop where
  client : world.clients[stream]? = some (.follower follower)
  live : world.cancelled follower.waiter.addr = false
  events :
    ∃ leader : Leader,
      world.clients[owner]? = some (.leader leader) ∧
        leader.log = log ∧ world.receives follower leader = events

section Followers

variable {stream owner : StreamId} {follower : Follower} {log : Log}
variable {events : List Event}

/-- A stream that is neither leader nor follower goes on. -/
theorem Awaits.of_other_update
    (awaits : world.Awaits stream owner follower log events)
    {other : StreamId} {old new : Client}
    (otherClient : world.clients[other]? = some old)
    (oldLeader : ∀ leader, old ≠ .leader leader)
    (newLeader : ∀ leader, new ≠ .leader leader)
    (oldFollower : ∀ follower, old ≠ .follower follower)
    (newFollower : ∀ follower, new ≠ .follower follower)
    (clientsEq : next.clients = world.clients.set other new)
    (cancelledEq : next.cancelled = world.cancelled)
    (queuesEq : next.queues = world.queues)
    (deliveredEq : next.delivered = world.delivered) :
    next.Awaits stream owner follower log events := by
  obtain ⟨leader, ownerClient, logEq, eventsEq⟩ := awaits.events
  refine
    { client := ?_
      live := ?_
      events := ⟨leader, ?_, logEq, ?_⟩ }
  · rw [clientsEq]
    exact
      (Table.getElem?_set_iff_of_ne otherClient (oldFollower _)
        (newFollower _) stream).mpr awaits.client
  · rw [cancelledEq]
    exact awaits.live
  · rw [clientsEq]
    exact
      (Table.getElem?_set_iff_of_ne otherClient (oldLeader _)
        (newLeader _) owner).mpr ownerClient
  · rw [receives_congr queuesEq deliveredEq]
    exact eventsEq

/-- A leader goes on in its call, and what its followers are to receive stays
the same. -/
theorem Awaits.of_call_update
    (awaits : world.Awaits stream owner follower log events)
    {other : StreamId} {leader : Leader} {call : Call}
    (otherClient : world.clients[other]? = some (.leader leader))
    (clientsEq :
      next.clients =
        world.clients.set other (.leader { leader with call := call }))
    (cancelledEq : next.cancelled = world.cancelled)
    (mine :
      owner = other →
        next.receives follower { leader with call := call } =
          world.receives follower leader)
    (others :
      ∀ found : Leader,
        owner ≠ other →
          next.receives follower found =
            world.receives follower found) :
    next.Awaits stream owner follower log events := by
  obtain ⟨joined, ownerClient, logEq, eventsEq⟩ := awaits.events
  refine { client := ?_, live := ?_, events := ?_ }
  · rw [clientsEq]
    exact
      (Table.getElem?_set_iff_of_ne otherClient (by simp) (by simp)
        stream).mpr awaits.client
  · rw [cancelledEq]
    exact awaits.live
  · rw [clientsEq, Table.getElem?_set_of_some otherClient]
    by_cases same : owner = other
    · have sameLeader : leader = joined := by
        rw [same, otherClient, Option.some.injEq, Client.leader.injEq]
          at ownerClient
        exact ownerClient
      subst sameLeader
      rw [if_pos same]
      exact
        ⟨{ leader with call := call }, rfl, logEq,
          (mine same).trans eventsEq⟩
    · rw [if_neg same]
      exact
        ⟨joined, ownerClient, logEq, (others joined same).trans eventsEq⟩

/-- No step of a system left to itself changes what a follower receives in
all. -/
theorem Awaits.step
    (awaits : world.Awaits stream owner follower log events)
    (joined : follower.leader = some owner) (routed : world.Routed)
    (effect : Effect world action next)
    (continues : action.continues = true) :
    next.Awaits stream owner follower log events := by
  have client := awaits.client
  cases effect <;>
    try (simp [Action.continues, Move.continues] at continues; done)
  case copyHeaders other hit entry otherClient stage read =>
      exact
        awaits.of_other_update otherClient (by simp) (by simp) (by simp)
          (by simp) rfl rfl rfl rfl
  case handOutEmpty other hit headers entry otherClient stage empty
      read =>
      exact
        awaits.of_other_update otherClient (by simp) (by simp) (by simp)
          (by simp) rfl rfl rfl rfl
  case handOutBody other hit headers otherClient stage nonempty =>
      exact
        awaits.of_other_update otherClient (by simp) (by simp) (by simp)
          (by simp) rfl rfl rfl rfl
  case scan =>
      exact
        { client := client
          live := awaits.live
          events := awaits.events }
  case finish other leader posts frame result cache otherClient
      finalizing running atReturn completed =>
      refine
        awaits.of_call_update otherClient rfl rfl ?_ (fun _ _ => rfl)
      intro _
      simp only [receives, finalizing]
      rfl
  case post other leader closure rest otherClient posting =>
      have moved :=
        routed.receives_post otherClient posting client
          { world.update other
              (.leader { leader with call := .posting rest })
              world.monitor with
            queues := World.post world.queues closure }
          rfl rfl
      refine awaits.of_call_update otherClient rfl rfl ?_ ?_
      · intro same
        exact moved.1 (same ▸ joined)
      · intro found different
        exact moved.2 owner found joined different
  case return_ other leader otherClient posting =>
      refine
        awaits.of_call_update otherClient rfl rfl ?_ (fun _ _ => rfl)
      intro _
      simp only [receives, posting]
      rfl
  case runCancelled dispatcher closure rest queued cancelled =>
      obtain ⟨leader, ownerClient, logEq, eventsEq⟩ := awaits.events
      have other : closure.waiter.addr ≠ follower.waiter.addr := by
        intro sameAddr
        rw [sameAddr, awaits.live] at cancelled
        simp at cancelled
      exact
        { client := client
          live := awaits.live
          events :=
            ⟨leader, ownerClient, logEq,
              (receives_runCancelled queued other leader).trans
                eventsEq⟩ }
  case run dispatcher closure rest queued live =>
      obtain ⟨leader, ownerClient, logEq, eventsEq⟩ := awaits.events
      exact
        { client := client
          live := awaits.live
          events :=
            ⟨leader, ownerClient, logEq,
              (routed.receives_run queued client leader).trans
                eventsEq⟩ }

/-- In a settled state a follower has received everything. -/
theorem Settled.receives_eq
    (settled : world.Settled) (routed : world.Routed)
    {leader : Leader}
    (client : world.clients[stream]? = some (.follower follower))
    (ownerClient : world.clients[owner]? = some (.leader leader)) :
    world.receives follower leader = world.delivered stream := by
  have idle : leader.call = .idle := by
    have nothing := settled.returned _ (List.mem_of_getElem? ownerClient)
    cases call : leader.call with
    | idle =>
        rfl
    | finalizing posts =>
        simp [Client.work, call] at nothing
    | posting posts =>
        simp [Client.work, call] at nothing
  rw [receives, settled.drained, idle, (routed.waiter_addr client).2]
  simp [eventsFor, Call.pending]

end Followers

section Reachable

variable {capacity : UInt64} {slotCount : Nat}
variable {dispatchers : List DispatcherId}

/-- Whatever the schedule by which a system left to itself settles, each live
follower has then received the same events: the response its leader had
published when the system was left alone. -/
theorem leftAloneDelivers
    (reachable :
      Reachable step (create capacity slotCount dispatchers)
        (LeadersCall Log.contract) world)
    {stream : StreamId} {follower : Follower}
    (client : world.clients[stream]? = some (.follower follower))
    (live : world.cancelled follower.waiter.addr = false)
    {actions : List Action} {final : World}
    (schedule : Schedule step LeftAlone world actions final)
    (settled : final.Settled) :
    ∃ (owner : StreamId) (leader : Leader),
      follower.leader = some owner ∧
        world.clients[owner]? = some (.leader leader) ∧
          final.delivered stream = world.receives follower leader ∧
            ExactDelivery leader.log (final.delivered stream) := by
  have routed := routed_of_reachable (orderly_of_contract reachable)
  obtain ⟨owner, leader, joined, ownerClient, _⟩ :=
    routed.joinedLeader client
  have exact :=
    (delivers_of_reachable reachable).exact client live joined
      ownerClient
  have awaits :
      world.Awaits stream owner follower leader.log
        (world.receives follower leader) :=
    { client := client
      live := live
      events := ⟨leader, ownerClient, rfl, rfl⟩ }
  have kept :
      ∀ before action after,
        (Reachable step (create capacity slotCount dispatchers)
            (LeadersCall Log.contract) before ∧
          before.Awaits stream owner follower leader.log
            (world.receives follower leader)) →
        step before action = .ok after →
        LeftAlone before action after →
          Reachable step (create capacity slotCount dispatchers)
              (LeadersCall Log.contract) after ∧
            after.Awaits stream owner follower leader.log
              (world.receives follower leader) := by
    intro before action after inherited stepped continues
    obtain ⟨reached, beforeAwaits⟩ := inherited
    constructor
    · exact
        Reachable.next reached stepped
          (leaderCalls_of_continues continues _)
    · exact
        beforeAwaits.step joined
          (routed_of_reachable (orderly_of_contract reached))
          (step_effect stepped) continues
  obtain ⟨finalReachable, finalAwaits⟩ :=
    schedule.invariant kept ⟨reachable, awaits⟩
  have delivered :
      final.delivered stream = world.receives follower leader := by
    obtain ⟨last, lastClient, _, eventsEq⟩ := finalAwaits.events
    rw [← eventsEq]
    exact
      (settled.receives_eq
        (routed_of_reachable (orderly_of_contract finalReachable))
        finalAwaits.client lastClient).symm
  refine ⟨owner, leader, joined, ownerClient, delivered, ?_⟩
  rw [delivered]
  exact exact

end Reachable

/-- The steps left after `coalescedRun`, in one of their orders. -/
def settlingRun : List Action :=
  [.run 1, .move 0 .post, .run 0, .move 0 .return_, .run 1]

theorem leftAloneDelivers_settlingRun :
    ∃ world final,
      checkedRun step
            (fun world action _ =>
              world.leaderCalls Log.contract action)
            (create 9 1 [0, 1, 0]) coalescedRun =
          some world ∧
        checkedRun step (fun _ action _ => action.continues) world
              settlingRun =
            some final ∧
          final.Settled ∧
            ∃ (owner : StreamId) (leader : Leader),
              some 0 = some owner ∧
                world.clients[owner]? = some (.leader leader) ∧
                  final.delivered 1 =
                      world.receives
                        { key := [1]
                          waiter := waiterOf 1 1
                          leader := some 0 }
                        leader ∧
                    ExactDelivery leader.log (final.delivered 1) := by
  obtain ⟨world, final, ran, client, live, settling, free, returned,
      drained⟩ :
      ∃ world final,
        checkedRun step
              (fun world action _ =>
                world.leaderCalls Log.contract action)
              (create 9 1 [0, 1, 0]) coalescedRun =
            some world ∧
          world.clients[1]? =
              some (.follower
                { key := [1]
                  waiter := waiterOf 1 1
                  leader := some 0 }) ∧
            world.cancelled 1 = false ∧
              checkedRun step (fun _ action _ => action.continues) world
                    settlingRun =
                  some final ∧
                final.monitor.frame = none ∧
                  (∀ client ∈ final.clients, client.work = 0) ∧
                    ∀ dispatcher ∈ [0, 1, 0],
                      final.queues dispatcher = [] :=
    ⟨_, _, rfl, rfl, rfl, rfl, rfl, by decide, by decide⟩
  have contract :
      Reachable step (create 9 1 [0, 1, 0]) (LeadersCall Log.contract)
        world :=
    Reachable.of_checkedRun (fun _ _ _ checked => checked)
      Reachable.start ran
  have schedule : Schedule step LeftAlone world settlingRun final :=
    Schedule.of_checkedRun (fun _ _ _ checked => checked) settling
  have settled : final.Settled := by
    refine { free := free, returned := returned, drained := ?_ }
    intro dispatcher
    by_contra nonempty
    have finalContract :
        Reachable step (create 9 1 [0, 1, 0]) (LeadersCall Log.contract)
          final := by
      refine Reachable.of_checkedRun ?_ contract settling
      intro before action after continues
      exact leaderCalls_of_continues continues _
    have home := (homed_of_reachable finalContract).queued nonempty
    exact nonempty (drained dispatcher home)
  exact
    ⟨world, final, ran, settling, settled,
      leftAloneDelivers contract client live schedule settled⟩

end World

end RingCache

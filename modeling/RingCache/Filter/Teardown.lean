import RingCache.Filter.Matching

/-!
# Teardown of streams

`onDestroy` cancels the waiter of a follower that is not done, and does nothing
for a leader.  A follower is marked done by any response that ends in its own
encoder callbacks, whether or not the cache has sent it, a closure tests
`cancelled` once before it makes up to two calls, and a leader may be destroyed
at any point of its response.  So two guarantees hold only for some teardowns:
no event reaches a destroyed follower, and every inflight response has a leader
that can still publish to it.
-/

namespace RingCache

open Transition RingBufferCache

namespace World

variable {world next : World}

/-- No closure is left for a live follower that has received the end of its
response. -/
theorem Delivers.no_closure_after_end
    (delivers : world.Delivers) (routed : world.Routed)
    {stream : StreamId} {follower : Follower} {closure : Closure}
    {rest : List Closure} {dispatcher : DispatcherId}
    (client : world.clients[stream]? = some (.follower follower))
    (live : world.cancelled follower.waiter.addr = false)
    (received : (world.delivered stream).any Event.endStream = true)
    (queued : world.queues dispatcher = closure :: rest)
    (mine : closure.waiter = follower.waiter) :
    False := by
  obtain ⟨owner, leader, joined, ownerClient, _⟩ :=
    routed.joinedLeader client
  have exact := delivers.exact client live joined ownerClient
  have first : closure ∈ world.queues dispatcher := by
    rw [queued]
    exact List.mem_cons_self
  have home := (routed.queued first).1
  rw [mine] at home
  subst home
  unfold receives at exact
  rw [(routed.waiter_addr client).2, List.append_assoc] at exact
  have silent := exact.nothing_after_end received
  have taken :
      eventsFor follower.waiter (closure :: rest) =
        closure.calls ++ eventsFor follower.waiter rest := by
    apply Mail.contentsFor_cons_self
    rw [mine]
  rw [queued, taken] at silent
  cases closure <;> simp [Closure.calls] at silent

/-- The first closure of a queue is for the waiter of a follower. -/
theorem Routed.first_follower
    (routed : world.Routed)
    {dispatcher : DispatcherId} {closure : Closure} {rest : List Closure}
    (queued : world.queues dispatcher = closure :: rest) :
    ∃ follower : Follower,
      world.clients[closure.waiter.callbacks.stream]? =
          some (.follower follower) ∧
        follower.waiter = closure.waiter := by
  have first : closure ∈ world.queues dispatcher := by
    rw [queued]
    exact List.mem_cons_self
  obtain ⟨_, owner, follower, client, sameWaiter, _⟩ :=
    routed.queued first
  have address := routed.waiter_addr client
  rw [sameWaiter] at address
  rw [← address.2] at client
  exact ⟨follower, client, sameWaiter⟩

/-- What has been executed on callbacks stays there. -/
theorem delivered_any_run
    {dispatcher : DispatcherId}
    (stepped : world.step (.run dispatcher) = .ok next)
    {id : StreamId}
    (received : (world.delivered id).any Event.endStream = true) :
    (next.delivered id).any Event.endStream = true := by
  cases step_effect stepped with
  | runCancelled queued cancelled =>
      exact received
  | @run _ closure rest queued live =>
      by_cases same : id = closure.waiter.callbacks.stream
      · subst same
        simp only [Function.update_self, List.any_append, received,
          Bool.true_or]
      · simp only [Function.update_of_ne same]
        exact received

end World

namespace System

variable {system next : System}

/-! ## Which teardowns a run may have -/

/-- The stream that an action destroys, with the calls of the closure in whose
first call it does so. -/
def destroys (system : System) : Action → Option (StreamId × List Event)
  | .callback id .onDestroy => some (id, [])
  | .runDestroying dispatcher =>
      (system.world.queues dispatcher).head?.map fun closure =>
        (closure.waiter.callbacks.stream, closure.calls)
  | _ => none

/-- The call of `onDestroy`, if the action makes one, is permitted. -/
def destroysWhen
    (permits : System → StreamId → Stream → List Event → Bool)
    (system : System) (action : Action) : Bool :=
  match system.destroys action with
  | none => true
  | some (id, calls) =>
      match system.streams[id]? with
      | some stream => permits system id stream calls
      | none => true

/-- The runs in which every call of `onDestroy` is permitted. -/
def DestroysWhen
    (permits : System → StreamId → Stream → List Event → Bool)
    (system : System) (action : Action) (_ : System) : Prop :=
  system.destroysWhen permits action = true

theorem destroysWhen_iff
    {permits : System → StreamId → Stream → List Event → Bool}
    {action : Action} {id : StreamId} {calls : List Event}
    {stream : Stream}
    (destroys : system.destroys action = some (id, calls))
    (found : system.streams[id]? = some stream) :
    system.destroysWhen permits action = true ↔
      permits system id stream calls = true := by
  simp [destroysWhen, destroys, found]

/-- The closure makes no call after the one that destroys a follower, and a
follower that is done has received the end of the coalesced response. -/
def followerReceived
    (system : System) (id : StreamId) (stream : Stream)
    (calls : List Event) : Bool :=
  stream.filter.role != .follower ||
    calls.tail.isEmpty &&
      (!stream.filter.done ||
        (system.world.delivered id ++ calls).any Event.endStream)

/-- A leader is done. -/
def leaderFinished
    (_ : System) (_ : StreamId) (stream : Stream) (_ : List Event) :
    Bool :=
  stream.filter.role != .leader || stream.filter.done

theorem not_destroyed_of_callable
    {id : StreamId} {stream : Stream}
    (callable : system.callable id stream = true) :
    stream.destroyed = false := by
  simp only [System.callable, Bool.and_eq_true,
    Bool.not_eq_true'] at callable
  exact callable.1.1

/-- A stream is destroyed by `onDestroy` only, and afterwards only calls that
had begun go on. -/
theorem CallbackEffect.destroyed
    {id : StreamId} {stream after : Stream} {callback : Callback}
    {world : World}
    (effect : CallbackEffect system id stream callback after world)
    (gone : after.destroyed = true) :
    (callback = .onDestroy ∧ system.callable id stream = true) ∨
      (stream.destroyed = true ∧ callback = .serve) ∨
        (stream.destroyed = true ∧
          ∃ move,
            callback = .proceed move ∧
              after.filter = stream.filter ∧
                proceeds stream move = true ∧
                  system.world.step (.move id move) = .ok world) := by
  have stillThere :
      system.callable id stream = true →
        after.destroyed = stream.destroyed → False := by
    intro callable same
    rw [same, not_destroyed_of_callable callable] at gone
    simp at gone
  cases effect with
  | unkeyed callable _ _ =>
      exact absurd rfl (stillThere callable)
  | hit callable _ _ _ _ =>
      exact absurd rfl (stillThere callable)
  | lead callable _ _ _ _ _ =>
      exact absurd rfl (stillThere callable)
  | follow callable _ _ _ _ _ =>
      exact absurd rfl (stillThere callable)
  | serve _ _ _ _ =>
      exact Or.inr (Or.inl ⟨gone, rfl⟩)
  | decodeData callable _ =>
      exact absurd rfl (stillThere callable)
  | decodeTrailers callable _ =>
      exact absurd rfl (stillThere callable)
  | pass callable _ _ =>
      exact absurd rfl (stillThere callable)
  | publish callable _ _ _ _ _ =>
      exact absurd rfl (stillThere callable)
  | cancel callable _ _ _ =>
      exact Or.inl ⟨rfl, callable⟩
  | destroy callable _ =>
      exact Or.inl ⟨rfl, callable⟩
  | proceed permitted stepped =>
      exact Or.inr (Or.inr ⟨gone, _, rfl, rfl, permitted, stepped⟩)

/-! ## Destroyed followers -/

/-- No event has been executed on the callbacks of a destroyed follower after
its `onDestroy`. -/
def NoLateCallback (system : System) : Prop :=
  ∀ (id : StreamId) (stream : Stream),
    system.streams[id]? = some stream →
    stream.filter.role = .follower →
    stream.destroyed = true →
      system.late id = []

/-- A destroyed follower is cancelled or has received the end of its response,
and nothing is late. -/
structure Quiet (system : System) : Prop where
  closed :
    ∀ {id : StreamId} {stream : Stream} {follower : Follower},
      system.streams[id]? = some stream →
      system.world.clients[id]? = some (.follower follower) →
      stream.destroyed = true →
        system.world.cancelled follower.waiter.addr = true ∨
          (system.world.delivered id).any Event.endStream = true
  late : ∀ id, system.late id = []

theorem create_quiet
    (capacity : UInt64) (slotCount : Nat) (requests : List Request) :
    (create capacity slotCount requests).Quiet := by
  refine { closed := ?_, late := fun _ => rfl }
  intro id stream follower _ client _
  exact absurd client (World.create_client (by simp))

/-- A callback on a follower closes it when it destroys it. -/
theorem Quiet.closed_callback
    (quiet : system.Quiet) (matched : system.Matched)
    {id : StreamId} {stream after : Stream} {callback : Callback}
    {world : World} {follower : Follower}
    (effect : CallbackEffect system id stream callback after world)
    (found : system.streams[id]? = some stream)
    (allowed :
      system.destroysWhen followerReceived (.callback id callback) = true)
    (client : world.clients[id]? = some (.follower follower))
    (gone : after.destroyed = true) :
    world.cancelled follower.waiter.addr = true ∨
      (world.delivered id).any Event.endStream = true := by
  rcases effect.destroyed gone with ⟨rfl, _⟩ | ⟨_, rfl⟩ |
    ⟨wasGone, move, rfl, _, permitted, stepped⟩
  · cases effect with
    | cancel callable follows notDone stepped =>
        cases World.step_effect stepped with
        | cancel canceller =>
            rw [canceller, Option.some.injEq,
              Client.follower.injEq] at client
            subst client
            exact Or.inl (Function.update_self _ _ _)
    | destroy callable keeps =>
        obtain ⟨present, presentEq, fits⟩ := matched.client found
        rw [client, Option.some.injEq] at presentEq
        subst presentEq
        have received := (destroysWhen_iff rfl found).mp allowed
        simp only [followerReceived, fits.1, keeps fits.1, bne_self_eq_false,
          Bool.not_true, Bool.false_or, List.tail_nil, List.isEmpty_nil,
          Bool.true_and, List.append_nil] at received
        exact Or.inr received
  · cases effect with
    | serve _ hitClient _ _ =>
        rw [hitClient] at client
        simp at client
  · have before :=
      World.follower_before stepped
        (not_lookup_of_proceeds permitted) client
    obtain ⟨sameDelivered, stillCancelled⟩ := World.move_frame stepped
    rcases quiet.closed found before wasGone with cancelled | received
    · exact Or.inl (stillCancelled _ cancelled)
    · rw [sameDelivered]
      exact Or.inr received

/-- The closure that a dispatcher runs is not for a destroyed follower. -/
theorem Quiet.delivered_run
    (quiet : system.Quiet) (matched : system.Matched)
    (routed : system.world.Routed) (delivers : system.world.Delivers)
    {dispatcher : DispatcherId} {world : World}
    (stepped : system.world.step (.run dispatcher) = .ok world)
    {id : StreamId} (gone : system.destroyed id = true) :
    world.delivered id = system.world.delivered id := by
  cases World.step_effect stepped with
  | runCancelled queued cancelled =>
      rfl
  | @run _ closure rest queued live =>
      by_cases same : id = closure.waiter.callbacks.stream
      · obtain ⟨follower, client, sameWaiter⟩ :=
          routed.first_follower queued
        rw [← same] at client
        obtain ⟨stream, found, _⟩ := matched.stream client
        have destroyed : stream.destroyed = true := by
          simpa [System.destroyed, found] using gone
        rw [← sameWaiter] at live
        rcases quiet.closed found client destroyed with
          cancelled | received
        · rw [cancelled] at live
          simp at live
        · have nothingQueued :=
            delivers.no_closure_after_end routed client live received
              queued
          exact absurd sameWaiter.symm nothingQueued
      · exact Function.update_of_ne same _ _

theorem Quiet.step
    {action : Action} (quiet : system.Quiet) (matched : system.Matched)
    (routed : system.world.Routed) (delivers : system.world.Delivers)
    (effect : Effect system action next)
    (allowed : system.destroysWhen followerReceived action = true) :
    next.Quiet := by
  cases effect with
  | @callback id stream after _ world found effect =>
      refine { closed := ?_, late := quiet.late }
      intro other later follower laterFound laterClient gone
      rcases update_cases found laterFound with
        ⟨rfl, rfl⟩ | ⟨different, before⟩
      · exact
          quiet.closed_callback matched effect found allowed laterClient
            gone
      · obtain ⟨client, clients, _⟩ := effect.fits matched found
        obtain ⟨sameDelivered, stillCancelled⟩ := effect.frame
        have sameClient : world.clients[other]? = _ := laterClient
        rw [clients, if_neg different] at sameClient
        rcases quiet.closed before sameClient gone with
          cancelled | received
        · exact Or.inl (stillCancelled _ cancelled)
        · refine Or.inr ?_
          change (world.delivered other).any Event.endStream = true
          rw [sameDelivered]
          exact received
  | run stepped =>
      obtain ⟨sameClients, sameCancelled⟩ := World.run_frame stepped
      refine { closed := ?_, late := ?_ }
      · intro id stream follower found client gone
        simp only [sameClients] at client
        simp only [sameCancelled]
        rcases quiet.closed found client gone with
          cancelled | received
        · exact Or.inl cancelled
        · exact Or.inr (World.delivered_any_run stepped received)
      · intro id
        by_cases gone : system.destroyed id = true
        · simp [gone, quiet.late id,
            quiet.delivered_run matched routed delivers stepped gone]
        · simp [gone, quiet.late id]

theorem Quiet.receiveNothing
    {id : StreamId} (quiet : system.Quiet) :
    (system.receiveLate id []).Quiet := by
  refine { closed := quiet.closed, late := ?_ }
  intro other
  have nothing : system.late = fun _ => [] := funext quiet.late
  simp [receiveLate, nothing]

/-- A closure that is not cancelled is executed on the callbacks of its stream,
and the run leaves the streams as they are. -/
theorem delivered_of_run
    {dispatcher : DispatcherId} {closure : Closure} {rest : List Closure}
    (queued : system.world.queues dispatcher = closure :: rest)
    (live : system.world.cancelled closure.waiter.addr = false)
    (ran : system.step (.run dispatcher) = .ok next) :
    next.streams = system.streams ∧
      next.world.delivered closure.waiter.callbacks.stream =
        system.world.delivered closure.waiter.callbacks.stream ++
          closure.calls := by
  cases run_effect ran with
  | run stepped =>
      refine ⟨rfl, ?_⟩
      cases World.step_effect stepped with
      | runCancelled found cancelled =>
          rw [queued, List.cons.injEq] at found
          rw [← found.1, live] at cancelled
          simp at cancelled
      | run found _ =>
          rw [queued, List.cons.injEq] at found
          rw [← found.1]
          exact Function.update_self _ _ _

/-- The stream of a queued closure is a follower. -/
theorem Matched.queued_follower
    (matched : system.Matched) (routed : system.world.Routed)
    {dispatcher : DispatcherId} {closure : Closure} {rest : List Closure}
    (queued : system.world.queues dispatcher = closure :: rest) :
    ∃ stream,
      system.streams[closure.waiter.callbacks.stream]? = some stream ∧
        stream.filter.role = .follower := by
  obtain ⟨follower, client, _⟩ := routed.first_follower queued
  obtain ⟨stream, found, follows, _⟩ := matched.stream client
  exact ⟨stream, found, follows⟩

/-- A permitted teardown inside a closure is a permitted one right after it,
and the closure makes no further call. -/
theorem Nested.permitted
    (matched : system.Matched) (routed : system.world.Routed)
    {dispatcher : DispatcherId} {closure : Closure} {rest : List Closure}
    (queued : system.world.queues dispatcher = closure :: rest)
    (live : system.world.cancelled closure.waiter.addr = false)
    (ran : system.step (.run dispatcher) = .ok next)
    (allowed :
      system.destroysWhen followerReceived (.runDestroying dispatcher) =
        true) :
    closure.calls.tail = [] ∧
      next.destroysWhen followerReceived
          (.callback closure.waiter.callbacks.stream .onDestroy) =
        true := by
  obtain ⟨stream, found, follows⟩ :=
    matched.queued_follower routed queued
  obtain ⟨sameStreams, delivered⟩ := delivered_of_run queued live ran
  have destroys :
      system.destroys (.runDestroying dispatcher) =
        some (closure.waiter.callbacks.stream, closure.calls) := by
    simp [System.destroys, queued]
  have received := (destroysWhen_iff destroys found).mp allowed
  have stillFound :
      next.streams[closure.waiter.callbacks.stream]? = some stream := by
    rw [sameStreams]
    exact found
  simp only [followerReceived, follows, bne_self_eq_false,
    Bool.false_or, Bool.and_eq_true, List.isEmpty_iff] at received
  refine ⟨received.1, (destroysWhen_iff rfl stillFound).mpr ?_⟩
  simp only [followerReceived, follows, bne_self_eq_false,
    Bool.false_or, List.tail_nil, List.isEmpty_nil, Bool.true_and,
    List.append_nil, delivered]
  exact received.2

section Reachable

variable {capacity : UInt64} {slotCount : Nat}
variable {requests : List Request}

theorem Quiet.effect
    {action : Action} (quiet : system.Quiet)
    (reachable :
      Reachable System.step (create capacity slotCount requests)
        (fun _ _ _ => True) system)
    (effect : Effect system action next)
    (allowed : system.destroysWhen followerReceived action = true) :
    next.Quiet :=
  quiet.step (matched_of_reachable reachable)
    (routed_of_reachable reachable)
    (World.delivers_of_reachable (world_reachable reachable)) effect
    allowed

theorem quiet_of_reachable
    (reachable :
      Reachable step (create capacity slotCount requests)
        (DestroysWhen followerReceived) system) :
    system.Quiet := by
  refine
    reachable.invariant (create_quiet capacity slotCount requests) ?_
  intro before action after reached quiet stepped allowed
  have anywhere :
      Reachable step (create capacity slotCount requests)
        (fun _ _ _ => True) before :=
    reached.weaken fun _ _ _ _ => trivial
  rcases step_cases stepped with effect | nested
  · exact quiet.effect anywhere effect allowed
  · cases nested with
    | intro queued live ran destroyed =>
        obtain ⟨noTail, permitted⟩ :=
          Nested.permitted (matched_of_reachable anywhere)
            (routed_of_reachable anywhere) queued live ran allowed
        have afterRun := quiet.effect anywhere (run_effect ran) rfl
        have torn :=
          afterRun.effect (Reachable.next anywhere ran trivial)
            (callback_effect destroyed) permitted
        rw [noTail]
        exact torn.receiveNothing

/-- If no closure has a call left when its follower is destroyed, and a follower
that is done has received the end of the coalesced response whenever it is
destroyed, no event reaches a destroyed follower. -/
theorem noLateCallback_of_followerReceived
    (reachable :
      Reachable step (create capacity slotCount requests)
        (DestroysWhen followerReceived) system) :
    system.NoLateCallback := by
  intro id stream _ _ _
  have quiet := quiet_of_reachable reachable
  exact quiet.late id

end Reachable

/-- A follower destroyed inside the first of two calls of a closure receives the
second. -/
theorem lateCallback_of_runDestroying
    {capacity : UInt64} {slotCount : Nat} {requests : List Request}
    {allowed : System → Action → System → Prop}
    {dispatcher : DispatcherId} {closure : Closure} {rest : List Closure}
    (reachable :
      Reachable step (create capacity slotCount requests) allowed
        system)
    (queued : system.world.queues dispatcher = closure :: rest)
    (second : closure.calls.tail ≠ [])
    (stepped : system.step (.runDestroying dispatcher) = .ok next) :
    ¬ next.NoLateCallback := by
  obtain ⟨stream, found, follows⟩ :=
    (matched_of_reachable reachable).queued_follower
      (routed_of_reachable reachable) queued
  rcases step_cases stepped with effect | nested
  · cases effect
  · cases nested with
    | @intro _ _ _ middle gone sameQueue live ran destroyed =>
        rw [queued, List.cons.injEq] at sameQueue
        obtain ⟨rfl, rfl⟩ := sameQueue
        obtain ⟨sameStreams, _⟩ := delivered_of_run queued live ran
        rw [← sameStreams] at found
        have torn :
            ∃ after,
              gone.streams[closure.waiter.callbacks.stream]? =
                  some after ∧
                after.filter.role = .follower ∧
                  after.destroyed = true := by
          cases callback_effect destroyed with
          | callback present effect =>
              rw [found, Option.some.injEq] at present
              subst present
              refine
                ⟨_, (Table.getElem?_set_of_some found _ _).trans
                  (if_pos rfl), ?_⟩
              cases effect with
              | cancel _ _ _ _ =>
                  exact ⟨follows, rfl⟩
              | destroy _ _ =>
                  exact ⟨follows, rfl⟩
        obtain ⟨after, afterFound, afterFollows, afterGone⟩ := torn
        intro quiet
        have nothing :=
          quiet closure.waiter.callbacks.stream after afterFound
            afterFollows afterGone
        simp [receiveLate, second] at nothing

/-- A follower joins after headers and data and is destroyed inside the first
call of its backfill. -/
def brokenBackfillRun : List Action :=
  [.callback 0 (.decodeHeaders true),
    .callback 0 (.encode true (.headers [([5], [6])] false)),
    .callback 0 (.proceed .return_),
    .callback 0 (.encode true (.data [7] false)),
    .callback 0 (.proceed .return_), .callback 1 (.decodeHeaders true),
    .runDestroying 1]

example :
    ∃ system,
      checkedRun step (fun _ _ _ => true)
            (create 16 1 [⟨0, [1], [2]⟩, ⟨1, [1], [2]⟩])
            brokenBackfillRun =
          some system ∧
        system.late 1 = [.encodeData [7] false] :=
  ⟨_, rfl, rfl⟩

/-- One follower is destroyed while an event is queued for it, one inside the
call that sends it the headers, and one after it has received the whole
response. -/
def teardownRun : List Action :=
  [.callback 0 (.decodeHeaders true), .callback 1 (.decodeHeaders true),
    .callback 2 (.decodeHeaders true), .callback 3 (.decodeHeaders true),
    .callback 0 (.encode true (.headers [([5], [6])] false)),
    .callback 0 (.proceed .post), .callback 0 (.proceed .post),
    .callback 0 (.proceed .post), .callback 0 (.proceed .return_),
    .callback 1 .onDestroy, .callback 1 (.proceed .removeWaiter), .run 1,
    .run 2, .runDestroying 3, .callback 3 (.proceed .removeWaiter),
    .callback 0 (.encode true (.data [7] true)),
    .callback 0 (.proceed .scan), .callback 0 (.proceed .scan),
    .callback 0 (.proceed .finish), .callback 0 (.proceed .post),
    .callback 0 (.proceed .return_), .run 2,
    .callback 2 (.encode false (.data [7] true)),
    .callback 2 .onDestroy]

theorem noLateCallback_of_followerReceived_teardownRun :
    ∃ system,
      checkedRun step
            (fun system action _ =>
              system.destroysWhen followerReceived action)
            (create 16 1
              [⟨0, [1], [2]⟩, ⟨1, [1], [2]⟩, ⟨2, [1], [2]⟩, ⟨3, [1], [2]⟩])
            teardownRun =
          some system ∧
        system.world.delivered 1 = [] ∧
          (system.world.delivered 2).length = 2 ∧
            (system.world.delivered 3).length = 1 ∧
              system.destroyed 1 = true ∧
                system.destroyed 2 = true ∧
                  system.destroyed 3 = true ∧ system.NoLateCallback := by
  refine ⟨_, rfl, rfl, rfl, rfl, rfl, rfl, rfl, ?_⟩
  exact
    noLateCallback_of_followerReceived
      (Reachable.of_checkedRun (fun _ _ _ checked => checked)
        Reachable.start
        (rfl :
          checkedRun step
              (fun system action _ =>
                system.destroysWhen followerReceived action)
              (create 16 1
                [⟨0, [1], [2]⟩, ⟨1, [1], [2]⟩, ⟨2, [1], [2]⟩, ⟨3, [1], [2]⟩])
              teardownRun =
            some _))

/-- A follower is answered by a local reply, which marks it done, and is
destroyed before its leader publishes. -/
def localReplyRun : List Action :=
  [.callback 0 (.decodeHeaders true), .callback 1 (.decodeHeaders true),
    .callback 1 (.encode false (.headers [([8], [9])] true)),
    .callback 1 .onDestroy,
    .callback 0 (.encode true (.headers [([5], [6])] false)),
    .callback 0 (.proceed .post), .callback 0 (.proceed .return_),
    .run 1]

theorem lateCallback_localReplyRun :
    ∃ system,
      Reachable step
          (create 16 1 [⟨0, [1], [2]⟩, ⟨1, [1], [2]⟩])
          (fun _ _ _ => True) system ∧
        system.late 1 =
            [.encodeHeaders [([5], [6])] false .coalesced] ∧
          ¬ system.NoLateCallback := by
  have run :
      ∃ system stream,
        checkedRun step (fun _ _ _ => true)
              (create 16 1 [⟨0, [1], [2]⟩, ⟨1, [1], [2]⟩])
              localReplyRun =
            some system ∧
          system.streams[1]? = some stream ∧
            stream.filter.role = .follower ∧
              stream.destroyed = true ∧
                system.late 1 =
                  [.encodeHeaders [([5], [6])] false .coalesced] :=
    ⟨_, _, rfl, rfl, rfl, rfl, rfl⟩
  obtain ⟨system, stream, ran, found, follows, gone, late⟩ := run
  refine
    ⟨system,
      Reachable.of_checkedRun (fun _ _ _ _ => trivial) Reachable.start
        ran,
      late, ?_⟩
  intro quiet
  rw [quiet 1 stream found follows gone] at late
  simp at late

/-! ## Destroyed leaders -/

/-- Every inflight response is owned by the leader whose lookup created it, on
which `onDestroy` has not been called, and a lookup that follows joins such a
leader. -/
structure InflightOwned (system : System) : Prop where
  owner :
    ∀ {key : Key} {inflight : Inflight},
      system.world.monitor.cache.inflightMap key = some inflight →
        ∃ (id : StreamId) (stream : Stream),
          system.world.history.lastLeader key = some id ∧
            system.streams[id]? = some stream ∧
              stream.filter.role = .leader ∧
                stream.filter.key = key ∧ stream.destroyed = false
  joined :
    ∀ {id : StreamId} {key : Key} {world : World} {follower : Follower},
      system.world.step (.move id (.lookup key)) = .ok world →
      world.clients[id]? = some (.follower follower) →
        ∃ (owner : StreamId) (stream : Stream),
          follower.leader = some owner ∧
            system.streams[owner]? = some stream ∧
              stream.filter.role = .leader ∧
                stream.filter.key = key ∧ stream.destroyed = false

/-- Every leader on which `onDestroy` has been called is done. -/
def LeadersEnded (system : System) : Prop :=
  ∀ (id : StreamId) (stream : Stream),
    system.streams[id]? = some stream →
    stream.filter.role = .leader →
    stream.destroyed = true →
      stream.filter.done = true

/-- No destroyed leader is inside a publish. -/
def DestroyedIdle (system : System) : Prop :=
  ∀ (id : StreamId) (stream : Stream) (leader : Leader),
    system.streams[id]? = some stream →
    system.world.clients[id]? = some (.leader leader) →
    stream.destroyed = true →
      leader.call = .idle

/-- A callback that leaves a stream destroyed leaves it outside of a
publish. -/
theorem DestroyedIdle.callback
    (destroyedIdle : system.DestroyedIdle)
    {id : StreamId} {stream after : Stream} {callback : Callback}
    {world : World} {leader : Leader}
    (effect : CallbackEffect system id stream callback after world)
    (found : system.streams[id]? = some stream)
    (client : world.clients[id]? = some (.leader leader))
    (gone : after.destroyed = true) :
    leader.call = .idle := by
  rcases effect.destroyed gone with ⟨rfl, callable⟩ | ⟨_, rfl⟩ |
    ⟨wasGone, move, rfl, _, permitted, stepped⟩
  · cases effect with
    | cancel _ follows notDone stepped =>
        cases World.step_effect stepped with
        | cancel canceller =>
            rw [canceller] at client
            simp at client
    | destroy _ keeps =>
        simp only [System.callable, System.busy, client,
          Bool.and_eq_true, Bool.not_eq_true', bne_eq_false_iff_eq]
          at callable
        exact callable.1.2
  · cases effect with
    | serve _ hitClient _ _ =>
        rw [hitClient] at client
        simp at client
  · obtain ⟨old, new, present, clients, moved⟩ :=
      World.move_clients stepped
    rw [clients, if_pos rfl, Option.some.injEq] at client
    subst client
    cases moved with
    | led =>
        rfl
    | published _ =>
        exact absurd rfl (not_publish_of_proceeds permitted _)
    | leaderWent notIdle _ _ =>
        have idle := destroyedIdle id stream _ found present wasGone
        exact absurd idle notIdle

theorem DestroyedIdle.step
    {action : Action} (destroyedIdle : system.DestroyedIdle)
    (matched : system.Matched) (effect : Effect system action next) :
    next.DestroyedIdle := by
  intro other later leader laterFound laterClient gone
  cases effect with
  | @callback id stream after _ world found effect =>
      rcases update_cases found laterFound with
        ⟨rfl, rfl⟩ | ⟨different, before⟩
      · exact destroyedIdle.callback effect found laterClient gone
      · obtain ⟨client, clients, _⟩ := effect.fits matched found
        have sameClient : world.clients[other]? = _ := laterClient
        rw [clients, if_neg different] at sameClient
        exact destroyedIdle other later leader before sameClient gone
  | run stepped =>
      simp only [(World.run_frame stepped).1] at laterClient
      exact
        destroyedIdle other later leader laterFound laterClient gone

/-- A teardown inside a closure finds the filters as the closure has found
them. -/
theorem Nested.finished
    {dispatcher : DispatcherId} {closure : Closure} {rest : List Closure}
    (queued : system.world.queues dispatcher = closure :: rest)
    (live : system.world.cancelled closure.waiter.addr = false)
    (ran : system.step (.run dispatcher) = .ok next)
    (allowed :
      system.destroysWhen leaderFinished (.runDestroying dispatcher) =
        true) :
    next.destroysWhen leaderFinished
        (.callback closure.waiter.callbacks.stream .onDestroy) =
      true := by
  obtain ⟨sameStreams, _⟩ := delivered_of_run queued live ran
  simpa [destroysWhen, destroys, queued, sameStreams, leaderFinished]
    using allowed

theorem LeadersEnded.step
    {action : Action} (leadersEnded : system.LeadersEnded)
    (effect : Effect system action next)
    (allowed : system.destroysWhen leaderFinished action = true) :
    next.LeadersEnded := by
  intro other later laterFound leads gone
  cases effect with
  | @callback id stream after _ world found effect =>
      rcases update_cases found laterFound with
        ⟨rfl, rfl⟩ | ⟨different, before⟩
      · rcases effect.destroyed gone with ⟨rfl, _⟩ | ⟨_, rfl⟩ |
          ⟨wasGone, move, rfl, sameFilter, _, _⟩
        · have finished := (destroysWhen_iff rfl found).mp allowed
          cases effect with
          | cancel _ follows _ _ =>
              have isLeader : stream.filter.role = .leader := leads
              rw [follows] at isLeader
              simp at isLeader
          | destroy _ _ =>
              have isLeader : stream.filter.role = .leader := leads
              simpa [leaderFinished, isLeader] using finished
        · cases effect with
          | serve _ _ _ _ =>
              simp at leads
        · rw [sameFilter] at leads ⊢
          exact leadersEnded other stream found leads wasGone
      · exact leadersEnded other later before leads gone
  | run stepped =>
      exact leadersEnded other later laterFound leads gone

section Reachable

variable {capacity : UInt64} {slotCount : Nat}
variable {requests : List Request}
variable {allowed : System → Action → System → Prop}

theorem destroyedIdle_of_reachable
    (reachable :
      Reachable step (create capacity slotCount requests) allowed
        system) :
    system.DestroyedIdle := by
  refine invariant_of_effects ?_ ?_ ?_ reachable
  · intro id stream leader found _ gone
    obtain ⟨host, path, rfl⟩ := create_stream found
    simp at gone
  · intro before id events destroyedIdle
    exact destroyedIdle
  · intro before after action reached destroyedIdle effect
    exact destroyedIdle.step (matched_of_reachable reached) effect

theorem leadersEnded_of_reachable
    (reachable :
      Reachable step (create capacity slotCount requests)
        (DestroysWhen leaderFinished) system) :
    system.LeadersEnded := by
  refine reachable.invariant ?_ ?_
  · intro id stream found _ gone
    obtain ⟨host, path, rfl⟩ := create_stream found
    simp at gone
  · intro before action after _ leadersEnded stepped finished
    rcases step_cases stepped with effect | nested
    · exact leadersEnded.step effect finished
    · cases nested with
      | intro queued live ran destroyed =>
          have afterRun := leadersEnded.step (run_effect ran) rfl
          have torn :=
            afterRun.step (callback_effect destroyed)
              (Nested.finished queued live ran finished)
          exact torn

/-- The owner of an inflight response has not been destroyed if destroyed
leaders are done. -/
theorem owner_of_leadersEnded
    (reachable :
      Reachable step (create capacity slotCount requests) allowed
        system)
    (leadersEnded : system.LeadersEnded)
    {key : Key} {inflight : Inflight}
    (present :
      system.world.monitor.cache.inflightMap key = some inflight) :
    ∃ (id : StreamId) (stream : Stream),
      system.world.history.lastLeader key = some id ∧
        system.streams[id]? = some stream ∧
          stream.filter.role = .leader ∧
            stream.filter.key = key ∧ stream.destroyed = false := by
  have orderly :=
    World.orderly_of_contract (world_reachable reachable)
  have singleFlight := World.singleFlight_of_reachable orderly
  obtain ⟨id, leader, last, client, sameKey, unfinished⟩ :=
    singleFlight.owner present
  obtain ⟨stream, found, leads, streamKey, _, sameDone⟩ :=
    (matched_of_reachable reachable).stream client
  refine
    ⟨id, stream, last, found, leads, streamKey.trans sameKey, ?_⟩
  by_contra notThere
  have gone : stream.destroyed = true := by simpa using notThere
  have done := leadersEnded id stream found leads gone
  have idle :=
    destroyedIdle_of_reachable reachable id stream leader found client
      gone
  rw [sameDone] at done
  simp [Leader.unfinished, done, idle] at unfinished

/-- In every reachable state inflight responses are owned exactly if destroyed
leaders are done. -/
theorem inflightOwned_iff_leadersEnded
    (reachable :
      Reachable step (create capacity slotCount requests) allowed
        system) :
    system.InflightOwned ↔ system.LeadersEnded := by
  constructor
  · intro owned id stream found leads gone
    obtain ⟨leader, client, _, _, sameDone⟩ :=
      (matched_of_reachable reachable).leader found leads
    by_contra notDone
    have notEnded : leader.log.ended = false := by
      rw [← sameDone]
      simpa using notDone
    have orderly :=
      World.orderly_of_contract (world_reachable reachable)
    have singleFlight := World.singleFlight_of_reachable orderly
    have unfinished := Leader.unfinished_of_not_ended notEnded
    obtain ⟨⟨inflight, present⟩, last⟩ :=
      singleFlight.owned client unfinished
    obtain ⟨owner, ownerStream, ownerLast, ownerFound, _, _, there⟩ :=
      owned.owner present
    rw [last, Option.some.injEq] at ownerLast
    subst ownerLast
    rw [found, Option.some.injEq] at ownerFound
    subst ownerFound
    rw [gone] at there
    simp at there
  · intro leadersEnded
    refine
      { owner := owner_of_leadersEnded reachable leadersEnded
        joined := ?_ }
    intro id key world follower stepped client
    cases World.step_effect stepped with
    | lookupHit looker _ _ _ =>
        rw [World.get_update looker, if_pos rfl] at client
        simp at client
    | lookupLead looker _ _ _ =>
        have found := Table.getElem?_set_of_some looker
        simp [World.update, found] at client
    | lookupFollow looker _ _ present _ =>
        have found := Table.getElem?_set_of_some looker
        simp only [World.update, found, if_true, Option.some.injEq,
          Client.follower.injEq] at client
        rw [← client]
        exact owner_of_leadersEnded reachable leadersEnded present

end Reachable

/-- In every reachable state inflight responses are owned exactly if destroyed
leaders are done, and so they are in every state of a run that destroys leaders
only when they are done. -/
theorem inflightOwned_of_leaderFinished
    (capacity : UInt64) (slotCount : Nat) (requests : List Request) :
    (∀ system : System,
        Reachable step (create capacity slotCount requests)
            (fun _ _ _ => True) system →
          (system.InflightOwned ↔ system.LeadersEnded)) ∧
      ∀ system : System,
        Reachable step (create capacity slotCount requests)
            (DestroysWhen leaderFinished) system →
          system.InflightOwned := by
  refine ⟨?_, ?_⟩
  · intro system reachable
    exact inflightOwned_iff_leadersEnded reachable
  · intro system reachable
    have leadersEnded := leadersEnded_of_reachable reachable
    exact (inflightOwned_iff_leadersEnded reachable).mpr leadersEnded

/-- A leader is destroyed after the end of its response while another key is in
flight. -/
def finishedLeaderRun : List Action :=
  [.callback 0 (.decodeHeaders true), .callback 1 (.decodeHeaders true),
    .callback 0 (.encode true (.headers [([5], [6])] true)),
    .callback 0 (.proceed .scan), .callback 0 (.proceed .scan),
    .callback 0 (.proceed .finish), .callback 0 (.proceed .return_),
    .callback 0 .onDestroy]

theorem inflightOwned_of_leaderFinished_finishedLeaderRun :
    ∃ system,
      checkedRun step
            (fun system action _ =>
              system.destroysWhen leaderFinished action)
            (create 16 1 [⟨0, [1], [2]⟩, ⟨1, [3], [4]⟩])
            finishedLeaderRun =
          some system ∧
        system.destroyed 0 = true ∧
          (system.world.monitor.cache.inflightMap
              [3, 47, 47, 47, 4]).isSome =
            true ∧
            system.InflightOwned := by
  refine ⟨_, rfl, rfl, rfl, ?_⟩
  exact
    (inflightOwned_of_leaderFinished 16 1
        [⟨0, [1], [2]⟩, ⟨1, [3], [4]⟩]).2 _
      (Reachable.of_checkedRun (fun _ _ _ checked => checked)
        Reachable.start
        (rfl :
          checkedRun step
              (fun system action _ =>
                system.destroysWhen leaderFinished action)
              (create 16 1 [⟨0, [1], [2]⟩, ⟨1, [3], [4]⟩])
              finishedLeaderRun =
            some _))

/-- A leader is destroyed before its response, and another request for its key
follows it. -/
def orphaningRun : List Action :=
  [.callback 0 (.decodeHeaders true), .callback 0 .onDestroy,
    .callback 1 (.decodeHeaders true)]

theorem inflightOrphaned_orphaningRun :
    ∃ system,
      Reachable step
          (create 16 1 [⟨0, [1], [2]⟩, ⟨1, [1], [2]⟩])
          (fun _ _ _ => True) system ∧
        system.destroyed 0 = true ∧
          system.world.clients[1]? =
              some (.follower
                { key := [1, 47, 47, 47, 2]
                  waiter := World.waiterOf 1 1
                  leader := some 0 }) ∧
            ¬ system.InflightOwned := by
  have run :
      ∃ system stream,
        checkedRun step (fun _ _ _ => true)
              (create 16 1 [⟨0, [1], [2]⟩, ⟨1, [1], [2]⟩])
              orphaningRun =
            some system ∧
          system.streams[0]? = some stream ∧
            stream.filter.role = .leader ∧
              stream.filter.done = false ∧
                stream.destroyed = true ∧
                  system.destroyed 0 = true ∧
                    system.world.clients[1]? =
                      some (.follower
                        { key := [1, 47, 47, 47, 2]
                          waiter := World.waiterOf 1 1
                          leader := some 0 }) :=
    ⟨_, _, rfl, rfl, rfl, rfl, rfl, rfl, rfl⟩
  obtain ⟨system, stream, ran, found, leads, notDone, gone, destroyed,
    follows⟩ := run
  have reachable :
      Reachable step
        (create 16 1 [⟨0, [1], [2]⟩, ⟨1, [1], [2]⟩])
        (fun _ _ _ => True) system :=
    Reachable.of_checkedRun (fun _ _ _ _ => trivial) Reachable.start ran
  refine ⟨system, reachable, destroyed, follows, ?_⟩
  intro owned
  have done :=
    (inflightOwned_iff_leadersEnded reachable).mp owned 0 stream found
      leads gone
  rw [notDone] at done
  simp at done

end System

end RingCache

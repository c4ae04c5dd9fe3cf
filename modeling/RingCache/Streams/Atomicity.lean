import RingCache.Cache.Atomicity
import RingCache.Streams.Pins

/-!
# Finalizations of the system are atomic

Between the publish that ends a stream and the end of its finalization, other
streams copy headers, hand out responses, release fragments, post and run
closures.  Only releases of pins touch the cache, and a pin that a stream
releases is one that it holds, so each finalization leaves the cache as if
nobody had taken a step in between.
-/

namespace RingCache

open Transition RingBufferCache

namespace World

variable {world next entered during after : World} {action : Action}

/-- A hit lookup that refers to its entry holds a pin on it. -/
theorem Pinned.holdsPin
    (pinned : world.Pinned)
    {stream : StreamId} {hit : HitLookup}
    (client : world.clients[stream]? = some (.hit hit))
    (refers : hit.stage.refers = true) :
    world.monitor.cache.HoldsPin hit.entry := by
  obtain ⟨position, entry, _, _, _, resident, sameAddr, _⟩ :=
    pinned.held client refers
  refine ⟨position, entry, resident, sameAddr, ?_⟩
  intro zero
  have counted := pinned.counted resident
  have referenced := references_pos client refers
  rw [sameAddr, zero] at counted
  simp at counted
  omega

/-- While a finalization holds the mutex and has not ended, a step of the
system is a step of its scan, the release of a pin that is held, or no step of
the cache. -/
theorem Effect.interleaves
    (pinned : world.Pinned) {frame : FinalizeFrame}
    (running : world.monitor.frame = some frame)
    (effect : Effect world action next)
    (unfinished : ∀ stream, action ≠ .move stream .finish) :
    next.monitor = world.monitor ∨
      ∃ lower,
        world.monitor.step lower = .ok next.monitor ∧
          world.monitor.Interleaves lower next.monitor := by
  cases effect with
  | lookupHit _ free =>
      rw [running] at free
      simp at free
  | lookupLead _ free =>
      rw [running] at free
      simp at free
  | lookupFollow _ free =>
      rw [running] at free
      simp at free
  | copyHeaders =>
      exact Or.inl rfl
  | @handOutEmpty stream hit headers entry client stage _ read =>
      refine
        Or.inr ⟨.unpin hit.entry,
          Monitor.unpin_eq_ok_iff.mpr ⟨⟨entry, read⟩, rfl⟩,
          Or.inr ⟨hit.entry, rfl, ?_⟩⟩
      exact pinned.holdsPin client (by rw [stage]; rfl)
  | handOutBody =>
      exact Or.inl rfl
  | @release stream hit headers entry client stage read =>
      refine
        Or.inr ⟨.unpin hit.entry,
          Monitor.unpin_eq_ok_iff.mpr ⟨⟨entry, read⟩, rfl⟩,
          Or.inr ⟨hit.entry, rfl, ?_⟩⟩
      exact pinned.holdsPin client (by rw [stage]; rfl)
  | publishLost _ _ free =>
      rw [running] at free
      simp at free
  | publishOpen _ _ free =>
      rw [running] at free
      simp at free
  | publishEnd _ _ free =>
      rw [running] at free
      simp at free
  | @scan stream leader posts current cache point _ _ held iterated =>
      exact
        Or.inr ⟨.scan,
          Monitor.scan_eq_ok_iff.mpr
            ⟨current, cache, point, held, iterated, rfl⟩,
          Or.inl rfl⟩
  | finish =>
      exact absurd rfl (unfinished _)
  | post =>
      exact Or.inl rfl
  | return_ =>
      exact Or.inl rfl
  | runCancelled =>
      exact Or.inl rfl
  | run =>
      exact Or.inl rfl
  | cancel =>
      exact Or.inl rfl
  | removeWaiter _ _ free =>
      rw [running] at free
      simp at free

/-- The steps before the end of the running finalization. -/
def BeforeFinish (world : World) (action : Action) (after : World) :
    Prop :=
  HitsBounded world action after ∧
    ∀ stream, action ≠ .move stream .finish

/-- The mutex stays with the finalization until it ends. -/
theorem Effect.running
    {frame : FinalizeFrame} (running : world.monitor.frame = some frame)
    (effect : Effect world action next)
    (unfinished : ∀ stream, action ≠ .move stream .finish)
    (pinned : world.Pinned) :
    ∃ later, next.monitor.frame = some later := by
  rcases effect.interleaves pinned running unfinished with
    unchanged | ⟨lower, stepped, interleaves⟩
  · exact ⟨frame, unchanged ▸ running⟩
  · rcases interleaves with rfl | ⟨ptr, rfl, _⟩
    · obtain ⟨_, _, _, _, _, nextEq⟩ := Monitor.scan_eq_ok_iff.mp stepped
      exact ⟨_, by rw [nextEq]⟩
    · obtain ⟨_, nextEq⟩ := Monitor.unpin_eq_ok_iff.mp stepped
      exact ⟨frame, by rw [nextEq]; exact running⟩

/-- A publish has waited for the mutex and changes no reference. -/
theorem publish_frame
    {owner : StreamId} {call : Publish}
    (published : world.step (.move owner (.publish call)) = .ok entered) :
    world.monitor.frame = none ∧
      ∀ ptr, entered.references ptr = world.references ptr := by
  have updated :
      ∀ {leader : Leader} (new : Leader),
        world.clients[owner]? = some (.leader leader) →
        entered.clients = world.clients.set owner (.leader new) →
          ∀ ptr, entered.references ptr = world.references ptr := by
    intro leader new client clientsEq ptr
    have total := references_update client (.leader new) clientsEq ptr
    rw [Client.references_of_not_hit (by simp),
      Client.references_of_not_hit (by simp)] at total
    exact total
  cases step_effect published with
  | publishLost client _ free =>
      exact ⟨free, updated _ client rfl⟩
  | publishOpen client _ free =>
      exact ⟨free, updated _ client rfl⟩
  | publishEnd client _ free =>
      exact ⟨free, updated _ client rfl⟩

section Reachable

variable {capacity : UInt64} {slotCount : Nat}
variable {dispatchers : List DispatcherId}

/-- Between the publish that enters a finalization and the step that ends it,
whatever the other streams and the dispatchers do, the cache makes the steps
of `actions`, and it is left as if some of the pins released meanwhile had
been released before the publish, then the whole finalization had run without
interruption, and then the other pins had been released. -/
theorem finalizationsAtomic
    (positive : 0 < slotCount)
    (bounded :
      Reachable step (create capacity slotCount dispatchers) HitsBounded
        world)
    {owner : StreamId} {call : Publish}
    (published : world.step (.move owner (.publish call)) = .ok entered)
    {frame : FinalizeFrame}
    (running : entered.monitor.frame = some frame)
    {steps : List Action}
    (schedule : Schedule step BeforeFinish entered steps during)
    (finished : during.step (.move owner .finish) = .ok after) :
    ∃ (actions : List Monitor.Action) (publish : Monitor.Action)
        (early late : List EntryPtr) (iterations : Nat)
        (released reentered stored : Monitor),
      Schedule Monitor.step Monitor.Interleaves entered.monitor actions
          during.monitor ∧
        publish.endedKey = some frame.key ∧
          world.monitor.step publish = .ok entered.monitor ∧
            (early ++ late).Perm
                (actions.filterMap Monitor.Action.unpinned) ∧
              Schedule Monitor.step Monitor.Releases world.monitor
                  (early.map .unpin) released ∧
                released.step publish = .ok reentered ∧
                  reentered.finalizeAlone iterations = some stored ∧
                    Schedule Monitor.step Monitor.Releases stored
                      (late.map .unpin) after.monitor := by
  obtain ⟨free, sameReferences⟩ := publish_frame published
  have enteredBounded :
      Reachable step (create capacity slotCount dispatchers) HitsBounded
        entered := by
    refine Reachable.next bounded published ?_
    intro ptr
    rw [sameReferences]
    exact references_bounded bounded ptr
  have enters :
      ∃ publish,
        world.monitor.step publish = .ok entered.monitor := by
    rcases (step_effect published).monitor_step with unchanged | entering
    · rw [unchanged, free] at running
      simp at running
    · exact entering
  obtain ⟨publish, publishStepped⟩ := enters
  have ends :=
    (Monitor.enters_of_step free publishStepped running).1
  have preserved :
      ∀ before action after,
        (Reachable step (create capacity slotCount dispatchers)
            HitsBounded before ∧
          ∃ held, before.monitor.frame = some held) →
        step before action = .ok after →
        BeforeFinish before action after →
          Reachable step (create capacity slotCount dispatchers)
              HitsBounded after ∧
            ∃ held, after.monitor.frame = some held := by
    intro before action after inherited stepped permitted
    obtain ⟨reached, held, heldRunning⟩ := inherited
    constructor
    · exact Reachable.next reached stepped permitted.1
    · exact
        (step_effect stepped).running heldRunning permitted.2
          (pinned_of_reachable reached)
  have simulated :
      ∀ before action after,
        (Reachable step (create capacity slotCount dispatchers)
            HitsBounded before ∧
          ∃ held, before.monitor.frame = some held) →
        step before action = .ok after →
        BeforeFinish before action after →
          after.monitor = before.monitor ∨
            ∃ lower,
              before.monitor.step lower = .ok after.monitor ∧
                before.monitor.Interleaves lower after.monitor := by
    intro before action after inherited stepped permitted
    obtain ⟨reached, held, heldRunning⟩ := inherited
    exact
      (step_effect stepped).interleaves (pinned_of_reachable reached)
        heldRunning permitted.2
  obtain ⟨actions, monitorSchedule⟩ :=
    schedule.project World.monitor preserved simulated
      ⟨enteredBounded, frame, running⟩
  have monitorFinished :
      during.monitor.step .finish = .ok after.monitor := by
    cases step_effect finished with
    | @finish _ leader posts current result cache client finalizing held
        atReturn completed =>
        exact
          Monitor.finish_eq_ok_iff.mpr
            ⟨current, result, held, atReturn, rfl, completed⟩
  obtain ⟨early, late, iterations, released, reentered, stored, permuted,
      releasing, publishing, finalizing, remaining⟩ :=
    Monitor.finalizationAtomic positive (monitor_reachable bounded) ends
      publishStepped running monitorSchedule monitorFinished
  exact
    ⟨actions, publish, early, late, iterations, released, reentered,
      stored, monitorSchedule, ends, publishStepped, permuted, releasing,
      publishing, finalizing, remaining⟩

end Reachable

/-- Two responses are cached, a hit holds a fragment of each, and a third
response is being fetched. -/
def fragmentsHeldRun : List Action :=
  [.move 0 (.lookup [1]),
    .move 0 (.publish (.headers [([2], [3])] false)), .move 0 .return_,
    .move 0 (.publish (.data [4] true)), .move 0 .scan, .move 0 .scan,
    .move 0 .finish, .move 0 .return_, .move 1 (.lookup [5]),
    .move 1 (.publish (.headers [([2], [3])] false)), .move 1 .return_,
    .move 1 (.publish (.data [6] true)), .move 1 .scan, .move 1 .scan,
    .move 1 .finish, .move 1 .return_, .move 2 (.lookup [1]),
    .move 2 .copyHeaders, .move 2 .handOut, .move 3 (.lookup [5]),
    .move 3 .copyHeaders, .move 3 .handOut, .move 4 (.lookup [7]),
    .move 4 (.publish (.headers [([2], [3])] false)), .move 4 .return_]

/-- Both fragments are released during the scan for the third response.  The
first response is evicted, the second one stays. -/
def releasedDuringScan : List Action :=
  [.move 4 .scan, .move 3 .release, .move 4 .scan, .move 2 .release,
    .move 4 .scan, .move 4 .scan, .move 4 .scan, .move 4 .scan]

theorem finalizationsAtomic_releasedDuringScan :
    ∃ world entered during after,
      checkedRun step
            (fun _ _ after => decide (after.clients.length < 2 ^ 32))
            (create 8 4 [0, 0, 0, 0, 0]) fragmentsHeldRun =
          some world ∧
        world.step (.move 4 (.publish (.data [8] true))) = .ok entered ∧
          checkedRun step
                (fun _ action after =>
                  decide (after.clients.length < 2 ^ 32) &&
                    decide (action ∈ releasedDuringScan))
                entered releasedDuringScan =
              some during ∧
            during.step (.move 4 .finish) = .ok after ∧
              ∃ (actions : List Monitor.Action)
                  (publish : Monitor.Action)
                  (early late : List EntryPtr) (iterations : Nat)
                  (released reentered stored : Monitor),
                Schedule Monitor.step Monitor.Interleaves
                    entered.monitor actions during.monitor ∧
                  publish.endedKey = some [7] ∧
                    world.monitor.step publish = .ok entered.monitor ∧
                      (early ++ late).Perm
                          (actions.filterMap Monitor.Action.unpinned) ∧
                        Schedule Monitor.step Monitor.Releases
                            world.monitor (early.map .unpin) released ∧
                          released.step publish = .ok reentered ∧
                            reentered.finalizeAlone iterations =
                                some stored ∧
                              Schedule Monitor.step Monitor.Releases
                                stored (late.map .unpin)
                                after.monitor := by
  obtain ⟨world, entered, during, after, frame, ran, published, running,
      sameKey, interleaved, finished⟩ :
      ∃ world entered during after frame,
        checkedRun step
              (fun _ _ after => decide (after.clients.length < 2 ^ 32))
              (create 8 4 [0, 0, 0, 0, 0]) fragmentsHeldRun =
            some world ∧
          world.step (.move 4 (.publish (.data [8] true))) =
              .ok entered ∧
            entered.monitor.frame = some frame ∧
              frame.key = [7] ∧
                checkedRun step
                      (fun _ action after =>
                        decide (after.clients.length < 2 ^ 32) &&
                          decide (action ∈ releasedDuringScan))
                      entered releasedDuringScan =
                    some during ∧
                  during.step (.move 4 .finish) = .ok after :=
    ⟨_, _, _, _, _, rfl, rfl, rfl, rfl, rfl, rfl⟩
  have bounded :
      Reachable step (create 8 4 [0, 0, 0, 0, 0]) HitsBounded world := by
    refine Reachable.of_checkedRun ?_ Reachable.start ran
    intro before action after few ptr
    exact
      Nat.lt_of_le_of_lt (after.references_le ptr)
        (of_decide_eq_true few)
  have schedule :
      Schedule step BeforeFinish entered releasedDuringScan during := by
    refine Schedule.of_checkedRun ?_ interleaved
    intro before action after checked
    rw [Bool.and_eq_true] at checked
    refine ⟨?_, ?_⟩
    · intro ptr
      exact
        Nat.lt_of_le_of_lt (after.references_le ptr)
          (of_decide_eq_true checked.1)
    · intro stream finishes
      rw [finishes] at checked
      simp [releasedDuringScan] at checked
  refine
    ⟨world, entered, during, after, ran, published, interleaved,
      finished, ?_⟩
  rw [← sameKey]
  exact
    finalizationsAtomic (by decide) bounded published running schedule
      finished

end World

end RingCache

import RingCache.Cache.Admission
import RingCache.Streams.Delivery
import RingCache.Streams.Pins

/-!
# No assertion fails under the call contract

A step of the system returns, waits, or faults.  When leaders keep their call
contract, no reachable state has a step that faults at an assertion, at a slot
index or at missing headers, whatever the order of calls and releases.  The
one fault that is left, reading an entry that has been destroyed, takes more
outstanding hits on one entry than `pins_` can count.
-/

namespace RingCache

open Transition RingBufferCache

/-- If the action faults, the fault is one of `allowed`. -/
def FaultsOnly {α : Type} (allowed : Fault → Prop)
    (result : Except Stop α) : Prop :=
  ∀ reason, result = .error (.fault reason) → allowed reason

namespace FaultsOnly

variable {α β : Type} {allowed : Fault → Prop}

theorem of_ok {result : Except Stop α} {value : α}
    (returned : result = .ok value) : FaultsOnly allowed result := by
  intro reason faulted
  rw [returned] at faulted
  simp at faulted

theorem ok (value : α) : FaultsOnly allowed (.ok value) :=
  of_ok rfl

theorem blocked : FaultsOnly allowed (.error .blocked : Except Stop α) := by
  intro reason faulted
  simp at faulted

theorem bind
    {first : Except Stop α} {second : α → Except Stop β}
    (firstOnly : FaultsOnly allowed first)
    (secondOnly :
      ∀ middle, first = .ok middle →
        FaultsOnly allowed (second middle)) :
    FaultsOnly allowed (first >>= second) := by
  cases outcome : first with
  | error stop =>
      intro reason faulted
      apply firstOnly reason
      rw [outcome]
      simpa [Bind.bind, Except.bind] using faulted
  | ok middle =>
      exact secondOnly middle outcome

theorem locked
    {monitor : Monitor} {critical : Except Stop α}
    (criticalOnly :
      monitor.frame = none → FaultsOnly allowed critical) :
    FaultsOnly allowed (monitor.locked critical) := by
  unfold Monitor.locked
  cases running : monitor.frame with
  | none =>
      exact criticalOnly running
  | some frame =>
      exact blocked

end FaultsOnly

/-! ## The operations of the cache -/

namespace Monitor

variable {capacity : UInt64} {slotCount : Nat} {monitor : Monitor}
variable {allowed : Fault → Prop}

/-- A lookup with callbacks cannot fault where inflight bodies follow their
headers: what the index names is there, and the assertions of the backfill
hold. -/
theorem lookup_faultsOnly
    (wellFormed : monitor.cache.WellFormed)
    {key : Key}
    (headersFirst :
      ∀ inflight, monitor.cache.inflightMap key = some inflight →
        inflight.headers = none → inflight.body = [])
    (caller : Callbacks) (waiterAddr : Nat) :
    FaultsOnly allowed
      (monitor.lookup key (some caller) waiterAddr) := by
  refine FaultsOnly.locked ?_
  intro _
  refine FaultsOnly.bind ?_ (fun _ _ => FaultsOnly.ok _)
  unfold lookupLocked
  cases mapped : monitor.cache.cacheMap key with
  | some ptr =>
      obtain ⟨position, entry, resident, sameAddr, _⟩ :=
        (wellFormed.indexed key ptr).mp mapped
      have found := wellFormed.entryAt_of_resident resident
      rw [sameAddr] at found
      simp only [found]
      exact FaultsOnly.ok _
  | none =>
      cases present : monitor.cache.inflightMap key with
      | none =>
          exact FaultsOnly.ok _
      | some inflight =>
          refine
            FaultsOnly.bind
              (FaultsOnly.of_ok
                (attachBackfillWaiterLocked_eq_ok_iff.mpr
                  ⟨headersFirst inflight present, rfl, rfl⟩)) ?_
          intro _ _
          exact FaultsOnly.ok _

/-- A publish cannot fault where the stream ends with headers present. -/
theorem afterPublish_faultsOnly
    {cache : RingBufferCache} {key : Key} {endStream : Bool}
    (headersPresent :
      ∀ inflight, cache.inflightMap key = some inflight →
        ∃ headers, inflight.headers = some headers) :
    FaultsOnly allowed (afterPublish cache key endStream) := by
  by_cases ends :
      endStream = true ∧ (cache.inflightMap key).isSome = true
  · obtain ⟨ended, found⟩ := ends
    obtain ⟨inflight, present⟩ := Option.isSome_iff_exists.mp found
    obtain ⟨headers, stored⟩ := headersPresent inflight present
    rw [ended]
    exact FaultsOnly.of_ok (afterPublish_total present stored)
  · unfold afterPublish
    rw [if_neg ends]
    exact FaultsOnly.ok _

theorem scan_faultsOnly
    (positive : 0 < slotCount)
    (consistent : monitor.Consistent capacity slotCount) :
    FaultsOnly allowed monitor.scan := by
  have wellFormed := consistent.wellFormed
  have inside : monitor.cache.head < monitor.cache.slots.length := by
    rw [wellFormed.slotsLength]
    exact consistent.headBound positive
  unfold scan
  cases running : monitor.frame with
  | none =>
      exact FaultsOnly.blocked
  | some frame =>
      refine FaultsOnly.bind ?_ (fun _ _ => FaultsOnly.ok _)
      by_cases ended : ∃ result, frame.point = .returned result
      · obtain ⟨result, atReturn⟩ := ended
        rw [atReturn]
        exact FaultsOnly.blocked
      · obtain ⟨next, point, iterated⟩ :=
          scanIteration_total inside
            (fun result atReturn => ended ⟨result, atReturn⟩)
        exact FaultsOnly.of_ok iterated

theorem finish_faultsOnly
    (consistent : monitor.Consistent capacity slotCount) :
    FaultsOnly allowed monitor.finish := by
  by_cases ended :
      ∃ frame result,
        monitor.frame = some frame ∧ frame.point = .returned result
  · obtain ⟨frame, result, stands, atReturn⟩ := ended
    obtain ⟨after, finished⟩ := consistent.finish_total stands atReturn
    exact FaultsOnly.of_ok finished
  · unfold finish
    split
    · next key size result running =>
        exact absurd ⟨_, result, running, rfl⟩ ended
    · exact FaultsOnly.blocked

/-- A release faults only at an entry that is gone. -/
theorem unpin_faultsOnly
    (ptr : EntryPtr)
    (dangling : monitor.cache.entryAt ptr = none → allowed .danglingEntry) :
    FaultsOnly allowed (monitor.unpin ptr) := by
  refine FaultsOnly.bind ?_ (fun _ _ => FaultsOnly.ok _)
  unfold RingBufferCache.unpin
  cases found : monitor.cache.entryAt ptr with
  | none =>
      intro reason faulted
      simp only [Except.error.injEq, Stop.fault.injEq] at faulted
      rw [← faulted]
      exact dangling found
  | some entry =>
      exact FaultsOnly.ok _

end Monitor

/-! ## The steps of the system -/

namespace World

variable {world : World} {allowed : Fault → Prop}

/-- Inflight bodies follow their headers: what an inflight response holds is
what its leader has published, headers first. -/
theorem Spooled.inflight_headersFirst
    (spooled : world.Spooled) (flight : world.SingleFlight)
    {key : Key} {inflight : Inflight}
    (present : world.monitor.cache.inflightMap key = some inflight)
    (missing : inflight.headers = none) :
    inflight.body = [] := by
  obtain ⟨stream, leader, _, client, rfl, unfinished⟩ :=
    flight.owner present
  obtain ⟨headersEq, bodyEq⟩ :=
    spooled.content client unfinished present
  rw [headersEq] at missing
  rw [bodyEq, spooled.headersFirst client missing]
  rfl

theorem lookup_faultsOnly
    (wellFormed : world.monitor.cache.WellFormed)
    (spooled : world.Spooled) (flight : world.SingleFlight)
    (stream : StreamId) (dispatcher : DispatcherId) (key : Key) :
    FaultsOnly allowed (world.lookup stream dispatcher key) := by
  unfold lookup
  refine FaultsOnly.bind ?_ ?_
  · exact
      Monitor.lookup_faultsOnly wellFormed
        (fun _ present => spooled.inflight_headersFirst flight present)
        _ _
  · intro middle _
    obtain ⟨result, monitor⟩ := middle
    cases result with
    | hit entry bodyLength =>
        exact FaultsOnly.ok _
    | leader =>
        exact FaultsOnly.ok _
    | follower waiter posts =>
        exact FaultsOnly.ok _

/-- A publish in order finds headers when it ends its stream. -/
theorem publish_faultsOnly
    (spooled : world.Spooled) (flight : world.SingleFlight)
    {stream : StreamId} {leader : Leader} {call : Publish}
    (client : world.clients[stream]? = some (.leader leader))
    (permitted : leader.log.orderly call = true) :
    FaultsOnly allowed (world.monitor.publish leader.key call) := by
  have unfinished :=
    Leader.unfinished_of_not_ended (Log.not_ended_of_orderly permitted)
  obtain ⟨⟨older, present⟩, _⟩ := flight.owned client unfinished
  cases call with
  | headers published ends =>
      refine FaultsOnly.locked ?_
      intro _
      refine FaultsOnly.bind ?_ (fun _ _ => FaultsOnly.ok _)
      refine Monitor.afterPublish_faultsOnly ?_
      intro inflight updated
      unfold publishHeadersLocked at updated
      rw [present] at updated
      simp only [setInflight, Function.update_self,
        Option.some.injEq] at updated
      rw [← updated]
      exact ⟨_, rfl⟩
  | data chunk ends =>
      refine FaultsOnly.locked ?_
      intro _
      refine FaultsOnly.bind ?_ (fun _ _ => FaultsOnly.ok _)
      refine Monitor.afterPublish_faultsOnly ?_
      intro inflight updated
      unfold publishDataLocked at updated
      rw [present] at updated
      simp only [setInflight, Function.update_self,
        Option.some.injEq] at updated
      rw [← updated]
      simp only [Log.orderly, Bool.and_eq_true] at permitted
      obtain ⟨headers, published⟩ :=
        Option.isSome_iff_exists.mp permitted.2
      have content := (spooled.content client unfinished present).1
      rw [published] at content
      exact ⟨headers, content⟩

theorem hitStep_faultsOnly
    {stream : StreamId} {hit : HitLookup}
    (dangling :
      hit.stage.refers = true →
      world.monitor.cache.entryAt hit.entry = none →
        allowed .danglingEntry)
    (move : Move) :
    FaultsOnly allowed (world.hitStep stream hit hit.stage move) := by
  unfold hitStep
  split
  · next atStage =>
      rw [atStage] at dangling
      cases found : world.monitor.cache.entryAt hit.entry with
      | none =>
          intro reason faulted
          simp only [Except.error.injEq, Stop.fault.injEq] at faulted
          rw [← faulted]
          exact dangling rfl found
      | some entry =>
          exact FaultsOnly.ok _
  · next headers atStage =>
      rw [atStage] at dangling
      split
      · refine FaultsOnly.bind ?_ (fun _ _ => FaultsOnly.ok _)
        exact Monitor.unpin_faultsOnly _ (dangling rfl)
      · exact FaultsOnly.ok _
  · next headers atStage =>
      rw [atStage] at dangling
      refine FaultsOnly.bind ?_ (fun _ _ => FaultsOnly.ok _)
      exact Monitor.unpin_faultsOnly _ (dangling rfl)
  · exact FaultsOnly.blocked

theorem leaderStep_faultsOnly
    {capacity : UInt64} {slotCount : Nat}
    (positive : 0 < slotCount)
    (consistent : world.monitor.Consistent capacity slotCount)
    {stream : StreamId} {leader : Leader} {move : Move}
    (publishes :
      ∀ call, move = .publish call →
        FaultsOnly allowed (world.monitor.publish leader.key call)) :
    FaultsOnly allowed
      (world.leaderStep stream leader leader.call move) := by
  unfold leaderStep
  split
  · next call _ =>
      exact
        FaultsOnly.bind (publishes call rfl)
          (fun _ _ => FaultsOnly.ok _)
  · exact
      FaultsOnly.bind (Monitor.scan_faultsOnly positive consistent)
        (fun _ _ => FaultsOnly.ok _)
  · exact
      FaultsOnly.bind (Monitor.finish_faultsOnly consistent)
        (fun _ _ => FaultsOnly.ok _)
  · exact FaultsOnly.ok _
  · exact FaultsOnly.ok _
  · exact FaultsOnly.blocked

theorem followerStep_faultsOnly (follower : Follower) (move : Move) :
    FaultsOnly allowed (world.followerStep follower move) := by
  unfold followerStep
  split
  · exact FaultsOnly.ok _
  · split
    · refine FaultsOnly.bind ?_ (fun _ _ => FaultsOnly.ok _)
      exact FaultsOnly.locked (fun _ => FaultsOnly.ok _)
    · exact FaultsOnly.blocked
  · exact FaultsOnly.blocked

theorem runNext_faultsOnly (dispatcher : DispatcherId) :
    FaultsOnly allowed (world.runNext dispatcher) := by
  unfold runNext
  split
  · exact FaultsOnly.blocked
  · dsimp only
    split
    · exact FaultsOnly.ok _
    · exact FaultsOnly.ok _

section Reachable

variable {capacity : UInt64} {slotCount : Nat}
variable {dispatchers : List DispatcherId}

/-- A permitted step faults at most at an entry that is gone. -/
theorem step_faultsOnly
    (positive : 0 < slotCount)
    (reachable :
      Reachable step (create capacity slotCount dispatchers)
        (LeadersCall Log.contract) world)
    {action : Action}
    (permitted : world.leaderCalls Log.contract action = true)
    (dangling :
      ∀ (stream : StreamId) (hit : HitLookup),
        world.clients[stream]? = some (.hit hit) →
        hit.stage.refers = true →
        world.monitor.cache.entryAt hit.entry = none →
          allowed .danglingEntry) :
    FaultsOnly allowed (world.step action) := by
  have orderly := orderly_of_contract reachable
  have flight := singleFlight_of_reachable orderly
  have spooled := spooled_of_reachable orderly
  have consistent :=
    Monitor.consistent_of_reachable (monitor_reachable reachable)
  cases action with
  | run dispatcher =>
      exact runNext_faultsOnly dispatcher
  | move stream move =>
      rw [step]
      cases client : world.clients[stream]? with
      | none =>
          exact FaultsOnly.blocked
      | some role =>
          cases role with
          | start dispatcher =>
              cases move with
              | lookup key =>
                  exact
                    lookup_faultsOnly consistent.wellFormed spooled
                      flight stream dispatcher key
              | _ =>
                  exact FaultsOnly.blocked
          | hit hit =>
              exact hitStep_faultsOnly (dangling stream hit client) move
          | leader leader =>
              refine leaderStep_faultsOnly positive consistent ?_
              intro call publishing
              subst publishing
              have contract := permits_of_leaderCalls client permitted
              exact
                publish_faultsOnly spooled flight client
                  (Log.orderly_of_contract contract)
          | follower follower =>
              exact followerStep_faultsOnly follower move

/-- Under the call contract no assertion fails, no slot is read outside the
ring and no missing headers are read.  If moreover fewer than `2 ^ 32` hits on
one entry are outstanding at once, no entry is read after its destruction
either. -/
theorem noAssertionFails
    (positive : 0 < slotCount)
    (reachable :
      Reachable step (create capacity slotCount dispatchers)
        (LeadersCall Log.contract) world)
    (action : Action)
    (permitted : world.leaderCalls Log.contract action = true) :
    (∀ reason,
        world.step action = .error (.fault reason) →
          reason = .danglingEntry) ∧
      (Reachable step (create capacity slotCount dispatchers)
          HitsBounded world →
        ∀ reason, world.step action ≠ .error (.fault reason)) := by
  constructor
  · exact
      step_faultsOnly positive reachable permitted (fun _ _ _ _ _ => rfl)
  · intro bounded reason faulted
    have pinned := pinned_of_reachable bounded
    have wellFormed := wellFormed_of_reachable reachable
    have never : FaultsOnly (fun _ => False) (world.step action) := by
      refine step_faultsOnly positive reachable permitted ?_
      intro stream hit client refers gone
      obtain ⟨position, entry, _, _, _, resident, sameAddr, _⟩ :=
        pinned.held client refers
      have found := wellFormed.entryAt_of_resident resident
      rw [sameAddr, gone] at found
      simp at found
    exact never reason faulted

end Reachable

/-- With two hits on one entry outstanding and a scan under way that has to
pass this entry, the next iteration does not fault. -/
theorem noAssertionFails_pinnedRun :
    ∃ world,
      checkedRun step
            (fun world action after =>
              world.leaderCalls Log.contract action &&
                decide (after.clients.length < 2 ^ 32))
            (create 3 2 [0, 0, 1, 1]) pinnedRun =
          some world ∧
        world.monitor.frame.isSome = true ∧
          ∀ reason,
            world.step (.move 3 .scan) ≠ .error (.fault reason) := by
  have run :
      ∃ world,
        checkedRun step
              (fun world action after =>
                world.leaderCalls Log.contract action &&
                  decide (after.clients.length < 2 ^ 32))
              (create 3 2 [0, 0, 1, 1]) pinnedRun =
            some world ∧
          world.monitor.frame.isSome = true :=
    ⟨_, rfl, rfl⟩
  obtain ⟨world, ran, running⟩ := run
  have contract :
      Reachable step (create 3 2 [0, 0, 1, 1])
        (LeadersCall Log.contract) world := by
    refine Reachable.of_checkedRun ?_ Reachable.start ran
    intro before action after checked
    rw [Bool.and_eq_true] at checked
    exact checked.1
  have bounded :
      Reachable step (create 3 2 [0, 0, 1, 1]) HitsBounded world := by
    refine Reachable.of_checkedRun ?_ Reachable.start ran
    intro before action after checked ptr
    rw [Bool.and_eq_true] at checked
    exact
      Nat.lt_of_le_of_lt (after.references_le ptr)
        (of_decide_eq_true checked.2)
  refine ⟨world, ran, running, ?_⟩
  exact
    (noAssertionFails (by decide) contract (.move 3 .scan) rfl).2 bounded

end World

end RingCache

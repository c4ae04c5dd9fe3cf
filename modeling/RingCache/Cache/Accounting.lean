import RingCache.Cache.Invariant
import RingCache.Cache.Steps

/-!
# The ring, its index and its account of bytes over whole runs

`Monitor.Consistent` adds to the invariant of the cache what a finalization
inside its scan knows: the size it has reserved is that of the inflight
response of its key, it fits once the first loop has ended, and the head slot
is free when the scan has returned true.  Every action of every caller keeps
it, so it holds in every reachable state, between any two iterations of a
scan included.
-/

namespace RingCache

open Transition

namespace RingBufferCache

variable {cache next : RingBufferCache}

/-- `freeSize` below `sizeNeeded` compares the true sizes where
`capacity_ - used_size_` does not wrap. -/
theorem freeSize_lt_iff_of_le
    (bounded : cache.usedSize.toNat ≤ cache.capacity.toNat)
    (sizeNeeded : UInt64) :
    cache.freeSize < sizeNeeded ↔
      cache.capacity.toNat <
        cache.usedSize.toNat + sizeNeeded.toNat := by
  have free :
      cache.freeSize.toNat =
        cache.capacity.toNat - cache.usedSize.toNat :=
    UInt64.toNat_sub_of_le _ _ (UInt64.le_iff_toNat_le.mpr bounded)
  rw [UInt64.lt_iff_toNat_lt, free]
  omega

theorem WellFormed.freeSize_lt_iff
    (wellFormed : cache.WellFormed) (sizeNeeded : UInt64) :
    cache.freeSize < sizeNeeded ↔
      cache.capacity.toNat <
        cache.usedSize.toNat + sizeNeeded.toNat :=
  freeSize_lt_iff_of_le wellFormed.bounded sizeNeeded

/-- The inserted entry reports the size that was reserved for it. -/
theorem newEntry_size
    (cache : RingBufferCache) (key : Key)
    (headers : ResponseHeaderMap) (inflight : Inflight) :
    (cache.newEntry key headers inflight.body).size =
      Monitor.reservedSize key headers inflight := by
  unfold newEntry Entry.size Monitor.reservedSize
  simp only
  rw [UInt64.add_assoc, UInt64.add_comm]

theorem WellFormed.scanIteration
    (wellFormed : cache.WellFormed)
    {sizeNeeded : UInt64} {before after : ScanPoint}
    (iterated :
      cache.scanIteration sizeNeeded before = .ok (next, after)) :
    next.WellFormed := by
  obtain ⟨evicted, evictedCases, nextCases⟩ :=
    scanIteration_eq_ok iterated
  have evictedWellFormed : evicted.WellFormed := by
    rcases evictedCases with rfl | ⟨entry, resident, _, rfl⟩
    · exact wellFormed
    · exact wellFormed.withoutHead resident
  rcases nextCases with rfl | rfl
  · exact evictedWellFormed
  · exact evictedWellFormed.advanceHead

/-- An iteration touches neither the constants nor the inflight responses. -/
theorem scanIteration_frame
    {sizeNeeded : UInt64} {before after : ScanPoint}
    (iterated :
      cache.scanIteration sizeNeeded before = .ok (next, after)) :
    next.capacity = cache.capacity ∧
      next.slotCount = cache.slotCount ∧
        next.inflightMap = cache.inflightMap ∧
          next.nextAddr = cache.nextAddr := by
  obtain ⟨evicted, evictedCases, nextCases⟩ :=
    scanIteration_eq_ok iterated
  rcases evictedCases with rfl | ⟨entry, _, _, rfl⟩ <;>
    rcases nextCases with rfl | rfl <;>
    exact ⟨rfl, rfl, rfl, rfl⟩

/-- The part of a publish before `finalizeLocked` changes the inflight
response of its key only. -/
theorem publishHeadersLocked_cache
    (cache : RingBufferCache) (key : Key)
    (headers : ResponseHeaderMap) (endStream : Bool) :
    (cache.publishHeadersLocked key headers endStream).2 = cache ∨
      ∃ inflight replaced,
        cache.inflightMap key = some inflight ∧
          (cache.publishHeadersLocked key headers endStream).2 =
            cache.setInflight key (some replaced) := by
  unfold publishHeadersLocked
  cases found : cache.inflightMap key with
  | none =>
      exact Or.inl rfl
  | some inflight =>
      exact Or.inr ⟨inflight, _, rfl, rfl⟩

theorem publishDataLocked_cache
    (cache : RingBufferCache) (key : Key)
    (data : Bytes) (endStream : Bool) :
    (cache.publishDataLocked key data endStream).2 = cache ∨
      ∃ inflight replaced,
        cache.inflightMap key = some inflight ∧
          (cache.publishDataLocked key data endStream).2 =
            cache.setInflight key (some replaced) := by
  unfold publishDataLocked
  cases found : cache.inflightMap key with
  | none =>
      exact Or.inl rfl
  | some inflight =>
      exact Or.inr ⟨inflight, _, rfl, rfl⟩

/-- `removeWaiter` changes nothing or swap-pops one waiter. -/
theorem removeWaiterLocked_eq
    (cache : RingBufferCache) (key : Key) (waiterAddr : Nat) :
    cache.removeWaiterLocked key waiterAddr = cache ∨
      ∃ inflight position,
        cache.inflightMap key = some inflight ∧
          (inflight.waiters.findIdx? fun waiter =>
              waiter.addr = waiterAddr) = some position ∧
            cache.removeWaiterLocked key waiterAddr =
              cache.setInflight key
                (some { inflight with
                  waiters := swapPop inflight.waiters position }) := by
  unfold removeWaiterLocked
  cases present : cache.inflightMap key with
  | none =>
      exact Or.inl rfl
  | some inflight =>
      dsimp only
      split
      · exact Or.inl rfl
      · next position found =>
          exact Or.inr ⟨inflight, position, rfl, found, rfl⟩

theorem removeWaiterLocked_cache
    (cache : RingBufferCache) (key : Key) (waiterAddr : Nat) :
    cache.removeWaiterLocked key waiterAddr = cache ∨
      ∃ inflight replaced,
        cache.inflightMap key = some inflight ∧
          cache.removeWaiterLocked key waiterAddr =
            cache.setInflight key (some replaced) := by
  rcases removeWaiterLocked_eq cache key waiterAddr with
    same | ⟨inflight, _, present, _, replaced⟩
  · exact Or.inl same
  · exact Or.inr ⟨inflight, _, present, replaced⟩

/-- Replacing the inflight response of an inflight key keeps the
invariant. -/
theorem WellFormed.replaceInflight
    (wellFormed : cache.WellFormed) {key : Key}
    (replaced :
      next = cache ∨
        ∃ inflight replacement,
          cache.inflightMap key = some inflight ∧
            next = cache.setInflight key (some replacement)) :
    next.WellFormed := by
  rcases replaced with rfl | ⟨inflight, replacement, present, rfl⟩
  · exact wellFormed
  · exact
      wellFormed.setInflight
        (Or.inr (wellFormed.unmapped_of_inflight present))

theorem WellFormed.lookupLocked
    (wellFormed : cache.WellFormed)
    {key : Key} {callbacks : Option Callbacks} {waiterAddr : Nat}
    {result : LookupLocked}
    (looked :
      cache.lookupLocked key callbacks waiterAddr =
        .ok (result, next)) :
    next.WellFormed := by
  rcases lookupLocked_eq_ok_iff.mp looked with
    ⟨ptr, entry, _, _, _, rfl⟩ | ⟨unmapped, _, _, rfl⟩ |
      ⟨unmapped, inflight, caller, _, _, _, _, rfl⟩
  · exact wellFormed.updatePins ptr (· + 1)
  · exact wellFormed.setInflight (Or.inr unmapped)
  · exact wellFormed.setInflight (Or.inr unmapped)

end RingBufferCache

open RingBufferCache

/-- What a finalization inside `evictTillCapacityLocked` knows about the
cache. -/
structure FinalizeFrame.Holds
    (frame : FinalizeFrame) (cache : RingBufferCache) : Prop where
  reserved :
    ∃ inflight headers,
      cache.inflightMap frame.key = some inflight ∧
        inflight.headers = some headers ∧
          frame.size = Monitor.reservedSize frame.key headers inflight
  fits :
    ((∃ startSlot, frame.point = .seeking startSlot) ∨
        frame.point = .returned true) →
      cache.usedSize.toNat + frame.size.toNat ≤ cache.capacity.toNat
  free :
    frame.point = .returned true → cache.slots[cache.head]? = some none

theorem FinalizeFrame.Holds.scanIteration
    {frame : FinalizeFrame} {cache next : RingBufferCache}
    (holds : frame.Holds cache) (wellFormed : cache.WellFormed)
    {point : ScanPoint}
    (iterated :
      cache.scanIteration frame.size frame.point = .ok (next, point)) :
    FinalizeFrame.Holds { frame with point := point } next := by
  have inflightSame : next.inflightMap = cache.inflightMap :=
    (scanIteration_frame iterated).2.2.1
  have reserved := holds.reserved
  rw [← inflightSame] at reserved
  cases atPoint : frame.point with
  | evicting start =>
      rw [atPoint] at iterated
      rcases scanIteration_evicting_eq_ok_iff.mp iterated with
        ⟨enough, rfl, rfl⟩ | ⟨_, evicted, _, _, rfl⟩
      · rw [wellFormed.freeSize_lt_iff] at enough
        exact
          { reserved := reserved
            fits := fun _ => Nat.le_of_not_lt enough
            free := fun atReturn => by simp at atReturn }
      · refine
          { reserved := reserved
            fits := ?_
            free := ?_ }
        · intro atPoint
          simp only at atPoint
          split at atPoint <;> simp at atPoint
        · intro atReturn
          simp only at atReturn
          split at atReturn <;> simp at atReturn
  | seeking startSlot =>
      have fits := holds.fits (Or.inl ⟨startSlot, atPoint⟩)
      rw [atPoint] at iterated
      rcases scanIteration_seeking_eq_ok_iff.mp iterated with
        ⟨vacant, rfl, rfl⟩ | ⟨_, rfl, rfl⟩
      · exact
          { reserved := reserved
            fits := fun _ => fits
            free := fun _ => vacant }
      · refine
          { reserved := reserved
            fits := fun _ => fits
            free := ?_ }
        intro atReturn
        simp only at atReturn
        split at atReturn <;> simp at atReturn
  | returned result =>
      rw [atPoint] at iterated
      simp [RingBufferCache.scanIteration] at iterated

namespace Monitor

/-- The invariant of the cache and of the finalization that holds its
mutex. -/
structure Consistent
    (capacity : UInt64) (slotCount : Nat) (monitor : Monitor) : Prop where
  capacityEq : monitor.cache.capacity = capacity
  slotCountEq : monitor.cache.slotCount = slotCount
  wellFormed : monitor.cache.WellFormed
  frame :
    ∀ {frame}, monitor.frame = some frame → frame.Holds monitor.cache

variable {capacity : UInt64} {slotCount : Nat}
variable {monitor next : Monitor}

theorem create_consistent :
    (create capacity slotCount).Consistent capacity slotCount where
  capacityEq := rfl
  slotCountEq := rfl
  wellFormed := create_wellFormed capacity slotCount
  frame := by
    intro frame running
    simp [create] at running

theorem Consistent.headBound
    (consistent : monitor.Consistent capacity slotCount)
    (positive : 0 < slotCount) :
    monitor.cache.head < monitor.cache.slotCount := by
  apply consistent.wellFormed.headBound
  rw [consistent.slotCountEq]
  exact positive

theorem Consistent.of_free
    {cache : RingBufferCache}
    (wellFormed : cache.WellFormed)
    (capacityEq : cache.capacity = capacity)
    (slotCountEq : cache.slotCount = slotCount)
    (free : next.frame = none) (sameCache : next.cache = cache) :
    next.Consistent capacity slotCount := by
  subst sameCache
  exact
    { capacityEq := capacityEq
      slotCountEq := slotCountEq
      wellFormed := wellFormed
      frame := by
        intro frame running
        rw [free] at running
        simp at running }

theorem Consistent.afterPublish
    {cache : RingBufferCache}
    (capacityEq : cache.capacity = capacity)
    (slotCountEq : cache.slotCount = slotCount)
    (wellFormed : cache.WellFormed)
    {key : Key} {endStream : Bool}
    (published : afterPublish cache key endStream = .ok next) :
    next.Consistent capacity slotCount := by
  obtain ⟨sameCache, ⟨_, free⟩ |
    ⟨_, inflight, headers, present, stored, entered⟩⟩ :=
    afterPublish_eq_ok_iff.mp published
  · exact
      Consistent.of_free wellFormed capacityEq slotCountEq free sameCache
  · subst sameCache
    refine
      { capacityEq := capacityEq
        slotCountEq := slotCountEq
        wellFormed := wellFormed
        frame := ?_ }
    intro frame running
    rw [entered, Option.some.injEq] at running
    subst frame
    refine
      { reserved := ⟨inflight, headers, present, stored, rfl⟩
        fits := ?_
        free := ?_ }
    · intro atPoint
      simp only [enterScan] at atPoint
      split at atPoint <;> simp at atPoint
    · intro atReturn
      simp only [enterScan] at atReturn
      split at atReturn <;> simp at atReturn

theorem Consistent.finish
    (consistent : monitor.Consistent capacity slotCount)
    (finished : monitor.finish = .ok next) :
    next.Consistent capacity slotCount := by
  obtain ⟨frame, result, running, atReturn, released, completed⟩ :=
    finish_eq_ok_iff.mp finished
  have holds := consistent.frame running
  obtain ⟨inflight, present, ⟨_, dropped⟩ |
    ⟨inserted, headers, stored, free, nextEq⟩⟩ :=
    completeFinalize_eq_ok_iff.mp completed
  · exact
      Consistent.of_free
        (consistent.wellFormed.setInflight (Or.inl rfl))
        consistent.capacityEq consistent.slotCountEq released dropped
  · subst inserted
    obtain ⟨other, otherHeaders, otherPresent, otherStored, sizeEq⟩ :=
      holds.reserved
    rw [present, Option.some.injEq] at otherPresent
    subst other
    rw [stored, Option.some.injEq] at otherStored
    subst otherHeaders
    have fits := holds.fits (Or.inr atReturn)
    rw [sizeEq, ← newEntry_size monitor.cache] at fits
    exact
      Consistent.of_free
        (consistent.wellFormed.withHead free rfl
          (consistent.wellFormed.unmapped_of_inflight present) fits)
        consistent.capacityEq consistent.slotCountEq released nextEq

/-- Every action keeps the invariant. -/
theorem Consistent.step
    (consistent : monitor.Consistent capacity slotCount)
    {action : Action} (stepped : monitor.step action = .ok next) :
    next.Consistent capacity slotCount := by
  cases action with
  | lookup key callbacks waiterAddr =>
      obtain ⟨⟨result, after⟩, looked, returned⟩ :=
        bind_eq_ok_iff.mp stepped
      cases returned
      obtain ⟨_, released, lookedLocked⟩ := lookup_eq_ok_iff.mp looked
      have kept : after.cache.capacity = monitor.cache.capacity ∧
          after.cache.slotCount = monitor.cache.slotCount := by
        rcases lookupLocked_eq_ok_iff.mp lookedLocked with
          ⟨_, _, _, _, _, nextEq⟩ | ⟨_, _, _, nextEq⟩ |
            ⟨_, _, _, _, _, _, _, nextEq⟩ <;>
          rw [nextEq] <;> exact ⟨rfl, rfl⟩
      exact
        Consistent.of_free
          (consistent.wellFormed.lookupLocked lookedLocked)
          (kept.1.trans consistent.capacityEq)
          (kept.2.trans consistent.slotCountEq) released rfl
  | publishHeaders key headers endStream =>
      obtain ⟨⟨posts, after⟩, published, returned⟩ :=
        bind_eq_ok_iff.mp stepped
      cases returned
      obtain ⟨_, _, entered⟩ := publishHeaders_eq_ok_iff.mp published
      have replaced :=
        publishHeadersLocked_cache monitor.cache key headers endStream
      have kept :
          (monitor.cache.publishHeadersLocked
              key headers endStream).2.capacity = capacity ∧
            (monitor.cache.publishHeadersLocked
              key headers endStream).2.slotCount = slotCount := by
        rcases replaced with same | ⟨_, _, _, same⟩ <;> rw [same] <;>
          exact ⟨consistent.capacityEq, consistent.slotCountEq⟩
      exact
        Consistent.afterPublish kept.1 kept.2
          (consistent.wellFormed.replaceInflight replaced) entered
  | publishData key data endStream =>
      obtain ⟨⟨posts, after⟩, published, returned⟩ :=
        bind_eq_ok_iff.mp stepped
      cases returned
      obtain ⟨_, _, entered⟩ := publishData_eq_ok_iff.mp published
      have replaced :=
        publishDataLocked_cache monitor.cache key data endStream
      have kept :
          (monitor.cache.publishDataLocked
              key data endStream).2.capacity = capacity ∧
            (monitor.cache.publishDataLocked
              key data endStream).2.slotCount = slotCount := by
        rcases replaced with same | ⟨_, _, _, same⟩ <;> rw [same] <;>
          exact ⟨consistent.capacityEq, consistent.slotCountEq⟩
      exact
        Consistent.afterPublish kept.1 kept.2
          (consistent.wellFormed.replaceInflight replaced) entered
  | removeWaiter key waiterAddr =>
      obtain ⟨_, rfl⟩ := removeWaiter_eq_ok_iff.mp stepped
      have replaced :=
        removeWaiterLocked_cache monitor.cache key waiterAddr
      have kept :
          (monitor.cache.removeWaiterLocked
              key waiterAddr).capacity = capacity ∧
            (monitor.cache.removeWaiterLocked
              key waiterAddr).slotCount = slotCount := by
        rcases replaced with same | ⟨_, _, _, same⟩ <;> rw [same] <;>
          exact ⟨consistent.capacityEq, consistent.slotCountEq⟩
      exact
        Consistent.of_free
          (consistent.wellFormed.replaceInflight replaced)
          kept.1 kept.2 rfl rfl
  | scan =>
      obtain ⟨frame, cache, point, running, iterated, rfl⟩ :=
        scan_eq_ok_iff.mp stepped
      obtain ⟨sameCapacity, sameSlotCount, _⟩ :=
        scanIteration_frame iterated
      refine
        { capacityEq := sameCapacity.trans consistent.capacityEq
          slotCountEq := sameSlotCount.trans consistent.slotCountEq
          wellFormed := consistent.wellFormed.scanIteration iterated
          frame := ?_ }
      intro other atFrame
      rw [Option.some.injEq] at atFrame
      subst other
      exact
        (consistent.frame running).scanIteration
          consistent.wellFormed iterated
  | finish =>
      exact consistent.finish stepped
  | unpin ptr =>
      obtain ⟨_, rfl⟩ := unpin_eq_ok_iff.mp stepped
      refine
        { capacityEq := consistent.capacityEq
          slotCountEq := consistent.slotCountEq
          wellFormed := consistent.wellFormed.updatePins ptr (· - 1)
          frame := ?_ }
      intro frame running
      have holds := consistent.frame running
      refine
        { reserved := holds.reserved
          fits := holds.fits
          free := ?_ }
      intro atReturn
      have vacant := holds.free atReturn
      change
        (monitor.cache.slots.map _)[monitor.cache.head]? = some none
      rw [List.getElem?_map, vacant]
      rfl

/-- The invariant holds in every reachable state, whoever calls the cache. -/
theorem consistent_of_reachable
    {allowed : Monitor → Action → Monitor → Prop}
    (reachable :
      Reachable step (create capacity slotCount) allowed monitor) :
    monitor.Consistent capacity slotCount := by
  refine reachable.invariant create_consistent ?_
  intro before action after _ consistent stepped _
  exact consistent.step stepped

/-! ## The ring across a step -/

/-- Two caches that agree on the ring, its account and its index, and have
allocated the same entries. -/
structure SameRing (left right : RingBufferCache) : Prop where
  slots : left.slots = right.slots
  usedSize : left.usedSize = right.usedSize
  cacheMap : left.cacheMap = right.cacheMap
  nextAddr : left.nextAddr = right.nextAddr

theorem SameRing.refl (cache : RingBufferCache) : SameRing cache cache :=
  ⟨rfl, rfl, rfl, rfl⟩

/-- An operation that replaces inflight responses leaves the ring alone. -/
theorem SameRing.of_replacedInflight
    {cache after : RingBufferCache} {key : Key}
    (replaced :
      after = cache ∨
        ∃ inflight replacement,
          cache.inflightMap key = some inflight ∧
            after = cache.setInflight key (some replacement)) :
    SameRing after cache := by
  rcases replaced with rfl | ⟨_, _, _, rfl⟩
  · exact SameRing.refl after
  · exact ⟨rfl, rfl, rfl, rfl⟩

/-- Every step leaves the ring alone, or updates pins, or evicts the head
entry, or ends a finalization that inserts its response at the head. -/
theorem ring_step
    {action : Action} (stepped : monitor.step action = .ok next) :
    SameRing next.cache monitor.cache ∨
      (∃ ptr update,
        SameRing next.cache (monitor.cache.updatePins ptr update)) ∨
        (∃ entry,
          monitor.cache.Resident monitor.cache.head entry ∧
            entry.pins = 0 ∧
              SameRing next.cache (monitor.cache.withoutHead entry)) ∨
          ∃ frame inflight headers,
            monitor.frame = some frame ∧
              frame.point = .returned true ∧
                monitor.cache.inflightMap frame.key = some inflight ∧
                  inflight.headers = some headers ∧
                    monitor.cache.slots[monitor.cache.head]? =
                        some none ∧
                      SameRing next.cache
                        (monitor.cache.withHead
                          (monitor.cache.newEntry frame.key headers
                            inflight.body)) := by
  cases action with
  | lookup key callbacks waiterAddr =>
      obtain ⟨⟨result, after⟩, looked, returned⟩ :=
        bind_eq_ok_iff.mp stepped
      cases returned
      obtain ⟨_, _, lookedLocked⟩ := lookup_eq_ok_iff.mp looked
      rcases lookupLocked_eq_ok_iff.mp lookedLocked with
        ⟨ptr, _, _, _, _, nextEq⟩ | ⟨_, _, _, nextEq⟩ |
          ⟨_, _, _, _, _, _, _, nextEq⟩
      · refine Or.inr (Or.inl ⟨ptr, (· + 1), ?_⟩)
        rw [nextEq]
        exact SameRing.refl _
      · rw [nextEq]
        exact Or.inl ⟨rfl, rfl, rfl, rfl⟩
      · rw [nextEq]
        exact Or.inl ⟨rfl, rfl, rfl, rfl⟩
  | publishHeaders key headers endStream =>
      obtain ⟨⟨posts, after⟩, published, returned⟩ :=
        bind_eq_ok_iff.mp stepped
      cases returned
      obtain ⟨_, _, entered⟩ := publishHeaders_eq_ok_iff.mp published
      refine Or.inl ?_
      rw [(afterPublish_eq_ok_iff.mp entered).1]
      exact
        SameRing.of_replacedInflight
          (publishHeadersLocked_cache monitor.cache key headers
            endStream)
  | publishData key data endStream =>
      obtain ⟨⟨posts, after⟩, published, returned⟩ :=
        bind_eq_ok_iff.mp stepped
      cases returned
      obtain ⟨_, _, entered⟩ := publishData_eq_ok_iff.mp published
      refine Or.inl ?_
      rw [(afterPublish_eq_ok_iff.mp entered).1]
      exact
        SameRing.of_replacedInflight
          (publishDataLocked_cache monitor.cache key data endStream)
  | removeWaiter key waiterAddr =>
      obtain ⟨_, rfl⟩ := removeWaiter_eq_ok_iff.mp stepped
      exact
        Or.inl (SameRing.of_replacedInflight
          (removeWaiterLocked_cache monitor.cache key waiterAddr))
  | scan =>
      obtain ⟨frame, cache, point, _, iterated, rfl⟩ :=
        scan_eq_ok_iff.mp stepped
      obtain ⟨evicted, evictedCases, nextCases⟩ :=
        scanIteration_eq_ok iterated
      have unmoved : SameRing cache evicted := by
        rcases nextCases with rfl | rfl
        · exact SameRing.refl cache
        · exact ⟨rfl, rfl, rfl, rfl⟩
      rcases evictedCases with rfl | ⟨entry, resident, unpinned, rfl⟩
      · exact Or.inl unmoved
      · exact
          Or.inr (Or.inr (Or.inl
            ⟨entry, resident, unpinned, unmoved⟩))
  | finish =>
      obtain ⟨frame, result, running, atReturn, _, completed⟩ :=
        finish_eq_ok_iff.mp stepped
      obtain ⟨inflight, present, ⟨_, dropped⟩ |
        ⟨rfl, headers, stored, free, nextEq⟩⟩ :=
        completeFinalize_eq_ok_iff.mp completed
      · rw [dropped]
        exact Or.inl ⟨rfl, rfl, rfl, rfl⟩
      · rw [nextEq]
        exact
          Or.inr (Or.inr (Or.inr
            ⟨frame, inflight, headers, running, atReturn, present,
              stored, free, ⟨rfl, rfl, rfl, rfl⟩⟩))
  | unpin ptr =>
      obtain ⟨_, rfl⟩ := unpin_eq_ok_iff.mp stepped
      exact Or.inr (Or.inl ⟨ptr, (· - 1), SameRing.refl _⟩)

/-- An entry that is resident after a step was resident in the same slot
before it with the same response, or the step inserted it. -/
theorem resident_step
    {action : Action} (stepped : monitor.step action = .ok next)
    {position : Nat} {entry : Entry}
    (resident : next.cache.Resident position entry) :
    (∃ older ptr update,
        monitor.cache.Resident position older ∧
          (entry = older ∨ entry = older.updatePins ptr update)) ∨
      ∃ frame inflight headers,
        monitor.frame = some frame ∧
          frame.point = .returned true ∧
            monitor.cache.inflightMap frame.key = some inflight ∧
              inflight.headers = some headers ∧
                position = monitor.cache.head ∧
                  entry =
                    monitor.cache.newEntry frame.key headers
                      inflight.body := by
  unfold Resident at resident
  rcases ring_step stepped with
    same | ⟨ptr, update, same⟩ | ⟨head, headResident, _, same⟩ |
      ⟨frame, inflight, headers, running, atReturn, present, stored,
        free, same⟩
  · rw [same.slots] at resident
    exact Or.inl ⟨entry, 0, id, resident, Or.inl rfl⟩
  · rw [same.slots] at resident
    obtain ⟨older, olderResident, updated⟩ :=
      (resident_updatePins_iff _ _ _ _ _).mp resident
    exact
      Or.inl ⟨older, ptr, update, olderResident, Or.inr updated.symm⟩
  · rw [same.slots] at resident
    have kept :=
      ((resident_withoutHead_iff headResident _ _).mp resident).2
    exact Or.inl ⟨entry, 0, id, kept, Or.inl rfl⟩
  · rw [same.slots] at resident
    rcases (resident_withHead_iff free _ _ _).mp resident with
      ⟨atHead, inserted⟩ | kept
    · exact
        Or.inr
          ⟨frame, inflight, headers, running, atReturn, present, stored,
            atHead, inserted⟩
    · exact Or.inl ⟨entry, 0, id, kept, Or.inl rfl⟩

/-- No key is both cached and inflight. -/
theorem exclusive_of_reachable
    {allowed : Monitor → Action → Monitor → Prop}
    (reachable :
      Reachable step (create capacity slotCount) allowed monitor)
    {key : Key} {inflight : Inflight}
    (present : monitor.cache.inflightMap key = some inflight) :
    monitor.cache.cacheMap key = none :=
  (consistent_of_reachable
    reachable).wellFormed.unmapped_of_inflight present

end Monitor

end RingCache

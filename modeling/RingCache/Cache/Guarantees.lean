import RingCache.Cache.Accounting

/-!
# Guarantees of the cache for every caller

The two results hold for every capacity, every positive number of slots and
every run, with the calls of any number of callers in any order, pin releases
at any time and every iteration of an eviction scan as a state of its own.
-/

namespace RingCache

open Transition RingBufferCache

/-- Key bytes, header count and body bytes of a response. -/
def Entry.trueSize (entry : Entry) : Nat :=
  entry.key.length + entry.headers.length + entry.body.length

theorem Entry.size_toNat
    {entry : Entry} (bounded : entry.trueSize < 2 ^ 64) :
    entry.size.toNat = entry.trueSize := by
  unfold trueSize at bounded ⊢
  unfold Entry.size
  simp only [UInt64.toNat_add, UInt64.toNat_ofNat']
  omega

namespace Monitor

variable {capacity : UInt64} {slotCount : Nat}
variable {monitor : Monitor}

/-- The account of used bytes is exact, stays within the capacity, and no
operation on it wraps. -/
structure AccountExact
    (capacity : UInt64) (slotCount : Nat) (monitor : Monitor) : Prop where
  usedIsSum :
    monitor.cache.usedSize.toNat =
      (monitor.cache.slots.map slotSize).sum
  withinCapacity : monitor.cache.usedSize.toNat ≤ capacity.toNat
  withinSlots :
    monitor.cache.slots.countP (·.isSome) ≤ slotCount
  freeSizeNoWrap :
    monitor.cache.freeSize.toNat =
      capacity.toNat - monitor.cache.usedSize.toNat
  evictionNoWrap :
    ∀ position entry,
      monitor.cache.Resident position entry →
        (monitor.cache.usedSize - entry.size).toNat + entry.size.toNat =
          monitor.cache.usedSize.toNat
  insertionNoWrap :
    ∀ frame,
      monitor.frame = some frame →
      frame.point = .returned true →
        (monitor.cache.usedSize + frame.size).toNat =
            monitor.cache.usedSize.toNat + frame.size.toNat ∧
          monitor.cache.usedSize.toNat + frame.size.toNat ≤
            capacity.toNat

/-- A step changes `used_size_` only by the size of the entry it evicts or by
the size reserved for the entry it inserts, and the entries it keeps report
the size they reported before. -/
structure AccountStep (before after : Monitor) : Prop where
  change :
    after.cache.usedSize = before.cache.usedSize ∨
      (∃ entry,
        before.cache.Resident before.cache.head entry ∧
          after.cache.slots[before.cache.head]? = some none ∧
            after.cache.usedSize =
              before.cache.usedSize - entry.size) ∨
        ∃ frame entry,
          before.frame = some frame ∧
            frame.point = .returned true ∧
              after.cache.Resident before.cache.head entry ∧
                entry.key = frame.key ∧
                  entry.size = frame.size ∧
                    after.cache.usedSize =
                      before.cache.usedSize + entry.size
  sizesKept :
    ∀ position entry older,
      after.cache.Resident position entry →
      before.cache.Resident position older →
        entry.addr = older.addr ∧ entry.size = older.size

theorem Consistent.accountExact
    (consistent : monitor.Consistent capacity slotCount) :
    monitor.AccountExact capacity slotCount := by
  have wellFormed := consistent.wellFormed
  have bounded := wellFormed.bounded
  have capacityEq := consistent.capacityEq
  have capacityBound := capacity.toNat_lt
  rw [capacityEq] at bounded
  refine
    { usedIsSum := wellFormed.accounted
      withinCapacity := bounded
      withinSlots := ?_
      freeSizeNoWrap := ?_
      evictionNoWrap := ?_
      insertionNoWrap := ?_ }
  · rw [← consistent.slotCountEq, ← wellFormed.slotsLength]
    exact List.countP_le_length
  · rw [freeSize, capacityEq]
    exact
      UInt64.toNat_sub_of_le _ _ (UInt64.le_iff_toNat_le.mpr bounded)
  · intro position entry resident
    have sizeBound := wellFormed.size_le_usedSize resident
    rw [UInt64.toNat_sub_of_le _ _
      (UInt64.le_iff_toNat_le.mpr sizeBound)]
    omega
  · intro frame running atReturn
    have fits :=
      (consistent.frame running).fits (Or.inr atReturn)
    rw [capacityEq] at fits
    refine ⟨?_, fits⟩
    rw [UInt64.toNat_add, Nat.mod_eq_of_lt]
    omega

theorem Consistent.accountStep
    (consistent : monitor.Consistent capacity slotCount)
    (positive : 0 < slotCount) {action : Action} {next : Monitor}
    (stepped : monitor.step action = .ok next) :
    monitor.AccountStep next := by
  have headRead :
      ∀ slot,
        (monitor.cache.slots.set monitor.cache.head
          slot)[monitor.cache.head]? = some slot := by
    intro slot
    apply List.getElem?_set_self
    rw [consistent.wellFormed.slotsLength]
    exact consistent.headBound positive
  constructor
  · rcases ring_step stepped with
      same | ⟨_, _, same⟩ | ⟨entry, resident, _, same⟩ |
        ⟨frame, inflight, headers, running, atReturn, present, stored,
          _, same⟩
    · exact Or.inl same.usedSize
    · exact Or.inl same.usedSize
    · refine Or.inr (Or.inl ⟨entry, resident, ?_, same.usedSize⟩)
      rw [same.slots]
      exact headRead none
    · obtain ⟨other, otherHeaders, otherPresent, otherStored, sizeEq⟩ :=
        (consistent.frame running).reserved
      rw [present, Option.some.injEq] at otherPresent
      subst other
      rw [stored, Option.some.injEq] at otherStored
      subst otherHeaders
      refine
        Or.inr (Or.inr
          ⟨frame, _, running, atReturn, ?_, rfl, ?_, same.usedSize⟩)
      · unfold Resident
        rw [same.slots]
        exact headRead _
      · rw [newEntry_size, sizeEq]
  · intro position entry older resident olderResident
    rcases resident_step stepped resident with
      ⟨kept, ptr, update, keptResident, same⟩ |
        ⟨frame, _, _, running, atReturn, _, _, atHead, _⟩
    · unfold Resident at keptResident olderResident
      rw [keptResident] at olderResident
      have sameEntry : kept = older := by simpa using olderResident
      subst kept
      rcases same with rfl | rfl
      · exact ⟨rfl, rfl⟩
      · exact
          ⟨Entry.updatePins_addr _ _ _, Entry.updatePins_size _ _ _⟩
    · have free := (consistent.frame running).free atReturn
      unfold Resident at olderResident
      rw [atHead, free] at olderResident
      simp at olderResident

/-- In every reachable state the account of used bytes is exact and within the
capacity, and every step changes it by what it evicts or inserts.  Where the
true size of a resident response is below `2 ^ 64`, its `Entry::size()` is
that size. -/
theorem memoryAccountExact
    (positive : 0 < slotCount)
    (reachable :
      Reachable step (create capacity slotCount)
        (fun _ _ _ => True) monitor) :
    monitor.AccountExact capacity slotCount ∧
      (∀ action next,
        monitor.step action = .ok next → monitor.AccountStep next) ∧
        ∀ position entry,
          monitor.cache.Resident position entry →
          entry.trueSize < 2 ^ 64 →
            entry.size.toNat = entry.trueSize := by
  have consistent := consistent_of_reachable reachable
  refine ⟨consistent.accountExact, ?_, ?_⟩
  · intro action next stepped
    exact consistent.accountStep positive stepped
  · intro position entry _ bounded
    exact Entry.size_toNat bounded

/-- Two responses are cached one after the other and the first one is evicted
to make room for the second. -/
def evictingRun : List Action :=
  [.lookup [1] none 0, .publishHeaders [1] [([2], [3])] false,
    .publishData [1] [4, 5] true, .scan, .scan, .finish,
    .lookup [6] none 1, .publishHeaders [6] [([2], [3])] false,
    .publishData [6] [7] true, .scan, .scan, .scan, .scan, .finish]

/-- After the run the second response is cached and takes three bytes. -/
theorem memoryAccountExact_evictingRun :
    ∃ monitor,
      checkedRun step (fun _ _ _ => true) (create 4 2) evictingRun =
          some monitor ∧
        monitor.cache.usedSize = 3 ∧
          monitor.cache.cacheMap [1] = none ∧
            monitor.cache.cacheMap [6] = some 1 ∧
              monitor.AccountExact 4 2 := by
  refine ⟨_, rfl, rfl, rfl, rfl, ?_⟩
  exact
    (memoryAccountExact (by decide)
      (Reachable.of_checkedRun (fun _ _ _ _ => trivial)
        Reachable.start
        (rfl :
          checkedRun step (fun _ _ _ => true) (create 4 2)
            evictingRun = some _))).1

/-- The ring and its index describe the same entries, and the maps of cached
and of inflight responses share no key. -/
structure IndexConsistent (slotCount : Nat) (monitor : Monitor) : Prop where
  slotsLength : monitor.cache.slots.length = slotCount
  headBound : monitor.cache.head < slotCount
  indexed :
    ∀ key ptr,
      monitor.cache.cacheMap key = some ptr ↔
        ∃ position entry,
          monitor.cache.Resident position entry ∧
            entry.addr = ptr ∧ entry.key = key
  keysUnique :
    ∀ position other entry otherEntry,
      monitor.cache.Resident position entry →
      monitor.cache.Resident other otherEntry →
      entry.key = otherEntry.key →
        position = other
  addressesUnique :
    ∀ position other entry otherEntry,
      monitor.cache.Resident position entry →
      monitor.cache.Resident other otherEntry →
      entry.addr = otherEntry.addr →
        position = other
  noDangling :
    ∀ key ptr,
      monitor.cache.cacheMap key = some ptr →
        ∃ entry,
          monitor.cache.entryAt ptr = some entry ∧ entry.key = key
  noUnreachable :
    ∀ position entry,
      monitor.cache.Resident position entry →
        monitor.cache.cacheMap entry.key = some entry.addr
  disjoint :
    ∀ key,
      monitor.cache.cacheMap key = none ∨
        monitor.cache.inflightMap key = none
  insertsNewKey :
    ∀ frame,
      monitor.frame = some frame →
        monitor.cache.cacheMap frame.key = none

theorem Consistent.indexConsistent
    (consistent : monitor.Consistent capacity slotCount)
    (positive : 0 < slotCount) :
    monitor.IndexConsistent slotCount := by
  have wellFormed := consistent.wellFormed
  refine
    { slotsLength := ?_
      headBound := ?_
      indexed := wellFormed.indexed
      keysUnique := ?_
      addressesUnique := ?_
      noDangling := ?_
      noUnreachable := ?_
      disjoint := ?_
      insertsNewKey := ?_ }
  · rw [wellFormed.slotsLength, consistent.slotCountEq]
  · rw [← consistent.slotCountEq] at positive ⊢
    exact wellFormed.headBound positive
  · intro position other entry otherEntry resident otherResident same
    exact wellFormed.resident_unique resident otherResident same
  · intro position other entry otherEntry resident otherResident same
    exact wellFormed.addrUnique resident otherResident same
  · intro key ptr mapped
    obtain ⟨position, entry, resident, addrEq, keyEq⟩ :=
      (wellFormed.indexed key ptr).mp mapped
    subst addrEq
    exact ⟨entry, wellFormed.entryAt_of_resident resident, keyEq⟩
  · intro position entry resident
    exact
      (wellFormed.indexed _ _).mpr ⟨position, entry, resident, rfl, rfl⟩
  · intro key
    cases mapped : monitor.cache.cacheMap key with
    | none =>
        exact Or.inl rfl
    | some ptr =>
        exact Or.inr (wellFormed.exclusive mapped)
  · intro frame running
    obtain ⟨inflight, _, present, _⟩ :=
      (consistent.frame running).reserved
    exact wellFormed.unmapped_of_inflight present

/-- In every reachable state the ring, its index and the inflight map agree,
and a finalization never inserts a key that is already cached. -/
theorem indexAndRingConsistent
    (positive : 0 < slotCount)
    (reachable :
      Reachable step (create capacity slotCount)
        (fun _ _ _ => True) monitor) :
    monitor.IndexConsistent slotCount :=
  (consistent_of_reachable reachable).indexConsistent positive

/-- The state between the scan and the insertion of the second response: its
key is inflight, and the first entry has left both the ring and the index. -/
theorem indexAndRingConsistent_evictingRun :
    ∃ monitor,
      checkedRun step (fun _ _ _ => true) (create 4 2)
            (evictingRun.take 13) =
          some monitor ∧
        monitor.frame.isSome = true ∧
          monitor.cache.cacheMap [1] = none ∧
            (monitor.cache.inflightMap [6]).isSome = true ∧
              monitor.IndexConsistent 2 := by
  refine ⟨_, rfl, rfl, rfl, rfl, ?_⟩
  exact
    indexAndRingConsistent (by decide)
      (Reachable.of_checkedRun (fun _ _ _ _ => trivial)
        Reachable.start
        (rfl :
          checkedRun step (fun _ _ _ => true) (create 4 2)
            (evictingRun.take 13) = some _))

end Monitor

end RingCache

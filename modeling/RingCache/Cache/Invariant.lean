import RingCache.Cache.Operations
import RingCache.Library.Tables
import RingCache.Library.Transition

/-!
# The invariant of the cache

The ring, the index of resident entries and the map of inflight responses are
three structures that no function updates together.  `WellFormed` relates them
and the account of used bytes.  Every operation keeps it, whoever calls it and
at every iteration of the eviction scan.
-/

namespace RingCache

namespace Entry

variable (entry : Entry) (ptr : EntryPtr) (update : UInt32 → UInt32)

@[simp]
theorem updatePins_addr : (entry.updatePins ptr update).addr = entry.addr := by
  unfold updatePins
  split <;> rfl

@[simp]
theorem updatePins_key : (entry.updatePins ptr update).key = entry.key := by
  unfold updatePins
  split <;> rfl

@[simp]
theorem updatePins_headers :
    (entry.updatePins ptr update).headers = entry.headers := by
  unfold updatePins
  split <;> rfl

@[simp]
theorem updatePins_body :
    (entry.updatePins ptr update).body = entry.body := by
  unfold updatePins
  split <;> rfl

@[simp]
theorem updatePins_size :
    (entry.updatePins ptr update).size = entry.size := by
  simp [size]

end Entry

/-- The bytes a slot accounts for. -/
def slotSize : Option Entry → Nat
  | none => 0
  | some entry => entry.size.toNat

namespace RingBufferCache

/-- The sum of `Entry::size()` over the occupied slots. -/
def residentSize (cache : RingBufferCache) : Nat :=
  (cache.slots.map slotSize).sum

/-- The relation between the ring, the two maps and the account of used
bytes. -/
structure WellFormed (cache : RingBufferCache) : Prop where
  slotsLength : cache.slots.length = cache.slotCount
  headBound : 0 < cache.slotCount → cache.head < cache.slotCount
  addrBound :
    ∀ {position entry},
      cache.Resident position entry → entry.addr < cache.nextAddr
  addrUnique :
    ∀ {position other entry otherEntry},
      cache.Resident position entry →
      cache.Resident other otherEntry →
      entry.addr = otherEntry.addr →
      position = other
  indexed :
    ∀ key ptr,
      cache.cacheMap key = some ptr ↔
        ∃ position entry,
          cache.Resident position entry ∧
            entry.addr = ptr ∧ entry.key = key
  exclusive :
    ∀ {key ptr},
      cache.cacheMap key = some ptr → cache.inflightMap key = none
  accounted : cache.usedSize.toNat = cache.residentSize
  bounded : cache.usedSize.toNat ≤ cache.capacity.toNat

/-! ## Resident entries after an update of the ring -/

theorem resident_withoutHead_iff
    {cache : RingBufferCache} {entry : Entry}
    (resident : cache.Resident cache.head entry)
    (position : Nat) (other : Entry) :
    (cache.withoutHead entry).Resident position other ↔
      position ≠ cache.head ∧ cache.Resident position other := by
  have read :=
    Table.getElem?_set_of_some resident none position
  unfold Resident at *
  simp only [withoutHead, read]
  by_cases same : position = cache.head
  · simp [same]
  · simp [same]

theorem resident_withHead_iff
    {cache : RingBufferCache}
    (free : cache.slots[cache.head]? = some none)
    (entry : Entry) (position : Nat) (other : Entry) :
    (cache.withHead entry).Resident position other ↔
      (position = cache.head ∧ other = entry) ∨
        cache.Resident position other := by
  have read :=
    Table.getElem?_set_of_some free (some entry) position
  unfold Resident at *
  simp only [withHead, read]
  by_cases same : position = cache.head
  · subst position
    simp [free, eq_comm]
  · simp [same]

theorem resident_updatePins_iff
    (cache : RingBufferCache) (ptr : EntryPtr)
    (update : UInt32 → UInt32) (position : Nat) (other : Entry) :
    (cache.updatePins ptr update).Resident position other ↔
      ∃ entry,
        cache.Resident position entry ∧
          entry.updatePins ptr update = other := by
  unfold Resident updatePins
  simp only [List.getElem?_map, Option.map_eq_some_iff]
  constructor
  · intro outcome
    rcases outcome with ⟨slot, present, mapped⟩
    cases slot with
    | none =>
        simp at mapped
    | some entry =>
        exact ⟨entry, present, by simpa using mapped⟩
  · intro outcome
    rcases outcome with ⟨entry, present, mapped⟩
    exact ⟨some entry, present, by simp [mapped]⟩

theorem updatePins_id_slots (cache : RingBufferCache) (ptr : EntryPtr) :
    (cache.updatePins ptr id).slots = cache.slots := by
  have unchanged :
      ∀ entry : Entry, entry.updatePins ptr id = entry := by
    intro entry
    unfold Entry.updatePins
    split <;> rfl
  simp [RingBufferCache.updatePins, unchanged]

/-- The entry read through a pointer is the one some slot owns. -/
theorem entryAt_eq_some
    {cache : RingBufferCache} {ptr : EntryPtr} {entry : Entry}
    (found : cache.entryAt ptr = some entry) :
    entry.addr = ptr ∧ ∃ position, cache.Resident position entry := by
  unfold entryAt at found
  obtain ⟨slot, member, filtered⟩ := List.exists_of_findSome?_eq_some found
  rw [Option.filter_eq_some_iff] at filtered
  obtain ⟨slotEq, sameAddr⟩ := filtered
  obtain ⟨position, present⟩ := List.mem_iff_getElem?.mp member
  rw [slotEq] at present
  exact ⟨by simpa using sameAddr, position, present⟩

/-- Entries at one address are the same entry. -/
theorem WellFormed.eq_of_addr
    {cache : RingBufferCache} (wellFormed : cache.WellFormed)
    {position otherPosition : Nat} {entry other : Entry}
    (resident : cache.Resident position entry)
    (otherResident : cache.Resident otherPosition other)
    (sameAddr : entry.addr = other.addr) :
    entry = other := by
  have samePosition : position = otherPosition :=
    wellFormed.addrUnique resident otherResident sameAddr
  subst samePosition
  unfold Resident at resident otherResident
  rw [resident] at otherResident
  simpa using otherResident

/-- A resident entry is found at its address. -/
theorem WellFormed.entryAt_of_resident
    {cache : RingBufferCache} (wellFormed : cache.WellFormed)
    {position : Nat} {entry : Entry}
    (resident : cache.Resident position entry) :
    cache.entryAt entry.addr = some entry := by
  cases found : cache.entryAt entry.addr with
  | none =>
      exfalso
      unfold entryAt at found
      rw [List.findSome?_eq_none_iff] at found
      have missed :=
        found (some entry) (List.mem_of_getElem? resident)
      simp at missed
  | some other =>
      obtain ⟨sameAddr, otherPosition, otherResident⟩ :=
        entryAt_eq_some found
      rw [wellFormed.eq_of_addr otherResident resident sameAddr]

/-! ## The invariant after an update -/

theorem create_wellFormed
    (capacity : UInt64) (slotCount : Nat) :
    (create capacity slotCount).WellFormed := by
  have vacant :
      ∀ position entry,
        ¬ (create capacity slotCount).Resident position entry := by
    intro position entry resident
    have member := List.mem_of_getElem? resident
    simp [create] at member
  have empty : (create capacity slotCount).residentSize = 0 := by
    simp [residentSize, create, slotSize]
  exact
    { slotsLength := by simp [create]
      headBound := id
      addrBound := fun resident => absurd resident (vacant _ _)
      addrUnique := fun resident => absurd resident (vacant _ _)
      indexed := by
        intro key ptr
        constructor
        · intro mapped
          simp [create] at mapped
        · intro outcome
          rcases outcome with ⟨position, entry, resident, _⟩
          exact absurd resident (vacant _ _)
      exclusive := fun _ => rfl
      accounted := by
        rw [empty]
        rfl
      bounded := Nat.zero_le _ }

theorem WellFormed.advanceHead
    {cache : RingBufferCache} (wellFormed : cache.WellFormed) :
    cache.advanceHead.WellFormed :=
  { wellFormed with
    headBound := fun positive => Nat.mod_lt _ positive }

/-- Two resident entries with one key are the same entry. -/
theorem WellFormed.resident_unique
    {cache : RingBufferCache} (wellFormed : cache.WellFormed)
    {position other : Nat} {entry otherEntry : Entry}
    (resident : cache.Resident position entry)
    (otherResident : cache.Resident other otherEntry)
    (sameKey : entry.key = otherEntry.key) :
    position = other := by
  have mapped : cache.cacheMap entry.key = some entry.addr :=
    (wellFormed.indexed _ _).mpr ⟨position, entry, resident, rfl, rfl⟩
  have otherMapped : cache.cacheMap entry.key = some otherEntry.addr :=
    (wellFormed.indexed _ _).mpr
      ⟨other, otherEntry, otherResident, rfl, sameKey.symm⟩
  rw [mapped] at otherMapped
  exact
    wellFormed.addrUnique resident otherResident
      (by simpa using otherMapped)

/-- `used_size_ -= entry.size()` does not wrap for a resident entry. -/
theorem WellFormed.size_le_usedSize
    {cache : RingBufferCache} (wellFormed : cache.WellFormed)
    {position : Nat} {entry : Entry}
    (resident : cache.Resident position entry) :
    entry.size.toNat ≤ cache.usedSize.toNat := by
  rw [wellFormed.accounted]
  exact Table.le_sum_map slotSize resident

theorem WellFormed.withoutHead
    {cache : RingBufferCache} (wellFormed : cache.WellFormed)
    {entry : Entry} (resident : cache.Resident cache.head entry) :
    (cache.withoutHead entry).WellFormed := by
  have sizeBound := wellFormed.size_le_usedSize resident
  have used :
      (cache.usedSize - entry.size).toNat =
        cache.usedSize.toNat - entry.size.toNat :=
    UInt64.toNat_sub_of_le _ _
      (UInt64.le_iff_toNat_le.mpr sizeBound)
  have total :=
    Table.sum_map_set slotSize (none : Option Entry) resident
  have accounted := wellFormed.accounted
  have bounded := wellFormed.bounded
  refine
    { slotsLength := ?_
      headBound := wellFormed.headBound
      addrBound := ?_
      addrUnique := ?_
      indexed := ?_
      exclusive := ?_
      accounted := ?_
      bounded := ?_ }
  · simpa [RingBufferCache.withoutHead] using wellFormed.slotsLength
  · intro position other otherResident
    rw [resident_withoutHead_iff resident] at otherResident
    exact wellFormed.addrBound otherResident.2
  · intro position other first second firstResident secondResident same
    rw [resident_withoutHead_iff resident] at firstResident secondResident
    exact
      wellFormed.addrUnique firstResident.2 secondResident.2 same
  · intro key ptr
    simp only [resident_withoutHead_iff resident]
    by_cases sameKey : key = entry.key
    · subst sameKey
      simp only [RingBufferCache.withoutHead, Function.update_self,
        reduceCtorEq, false_iff]
      intro outcome
      rcases outcome with
        ⟨position, other, ⟨elsewhere, otherResident⟩, _, keyEq⟩
      exact
        elsewhere
          (wellFormed.resident_unique otherResident resident keyEq)
    · simp only [RingBufferCache.withoutHead, ne_eq, sameKey,
        not_false_eq_true, Function.update_of_ne, wellFormed.indexed]
      constructor
      · intro outcome
        rcases outcome with ⟨position, other, otherResident, addrEq, keyEq⟩
        refine
          ⟨position, other, ⟨?_, otherResident⟩, addrEq, keyEq⟩
        intro atHead
        subst position
        unfold Resident at resident otherResident
        rw [resident] at otherResident
        have sameEntry : entry = other := by
          simpa using otherResident
        exact sameKey (by rw [← keyEq, sameEntry])
      · intro outcome
        rcases outcome with ⟨position, other, ⟨_, otherResident⟩, addrEq, keyEq⟩
        exact ⟨position, other, otherResident, addrEq, keyEq⟩
  · intro key ptr mapped
    by_cases sameKey : key = entry.key
    · subst sameKey
      simp [RingBufferCache.withoutHead] at mapped
    · have kept : cache.cacheMap key = some ptr := by
        simpa [RingBufferCache.withoutHead, sameKey] using mapped
      exact wellFormed.exclusive kept
  · change (cache.usedSize - entry.size).toNat = _
    simp only [residentSize, RingBufferCache.withoutHead] at *
    simp only [slotSize] at total
    omega
  · change (cache.usedSize - entry.size).toNat ≤ cache.capacity.toNat
    omega

/-- Insertion of a new entry that fits, together with the removal of its key
from the inflight map. -/
theorem WellFormed.withHead
    {cache : RingBufferCache} (wellFormed : cache.WellFormed)
    {entry : Entry}
    (free : cache.slots[cache.head]? = some none)
    (fresh : entry.addr = cache.nextAddr)
    (unmapped : cache.cacheMap entry.key = none)
    (fits :
      cache.usedSize.toNat + entry.size.toNat ≤ cache.capacity.toNat) :
    ((cache.withHead entry).setInflight entry.key none).WellFormed := by
  have capacityBound := cache.capacity.toNat_lt
  have used :
      (cache.usedSize + entry.size).toNat =
        cache.usedSize.toNat + entry.size.toNat := by
    rw [UInt64.toNat_add, Nat.mod_eq_of_lt]
    omega
  have total :=
    Table.sum_map_set slotSize (some entry) free
  have accounted := wellFormed.accounted
  have residentIff := resident_withHead_iff free entry
  refine
    { slotsLength := ?_
      headBound := fun positive => Nat.mod_lt _ positive
      addrBound := ?_
      addrUnique := ?_
      indexed := ?_
      exclusive := ?_
      accounted := ?_
      bounded := ?_ }
  · simpa [RingBufferCache.withHead, setInflight] using
      wellFormed.slotsLength
  · intro position other resident
    change other.addr < cache.nextAddr + 1
    rcases (residentIff position other).mp resident with
      ⟨_, rfl⟩ | older
    · rw [fresh]
      exact Nat.lt_succ_self _
    · exact Nat.lt_succ_of_lt (wellFormed.addrBound older)
  · intro position other first second firstResident secondResident same
    rcases (residentIff position first).mp firstResident with
      ⟨firstAtHead, rfl⟩ | firstOlder
    · rcases (residentIff other second).mp secondResident with
        ⟨secondAtHead, _⟩ | secondOlder
      · rw [firstAtHead, secondAtHead]
      · have bound := wellFormed.addrBound secondOlder
        rw [← same, fresh] at bound
        exact absurd bound (Nat.lt_irrefl _)
    · rcases (residentIff other second).mp secondResident with
        ⟨_, rfl⟩ | secondOlder
      · have bound := wellFormed.addrBound firstOlder
        rw [same, fresh] at bound
        exact absurd bound (Nat.lt_irrefl _)
      · exact wellFormed.addrUnique firstOlder secondOlder same
  · intro key ptr
    change
      Function.update cache.cacheMap entry.key (some entry.addr) key =
          some ptr ↔
        ∃ position other,
          (cache.withHead entry).Resident position other ∧
            other.addr = ptr ∧ other.key = key
    simp only [residentIff]
    by_cases sameKey : key = entry.key
    · subst sameKey
      simp only [Function.update_self, Option.some.injEq]
      constructor
      · intro addrEq
        exact ⟨cache.head, entry, Or.inl ⟨rfl, rfl⟩, addrEq, rfl⟩
      · intro outcome
        rcases outcome with ⟨position, other, ⟨_, rfl⟩ | older, addrEq, keyEq⟩
        · exact addrEq
        · have mapped : cache.cacheMap entry.key = some other.addr :=
            (wellFormed.indexed _ _).mpr
              ⟨position, other, older, rfl, keyEq⟩
          rw [unmapped] at mapped
          simp at mapped
    · rw [Function.update_of_ne sameKey, wellFormed.indexed]
      constructor
      · intro outcome
        rcases outcome with ⟨position, other, older, addrEq, keyEq⟩
        exact ⟨position, other, Or.inr older, addrEq, keyEq⟩
      · intro outcome
        rcases outcome with ⟨position, other, ⟨_, rfl⟩ | older, addrEq, keyEq⟩
        · exact absurd keyEq.symm sameKey
        · exact ⟨position, other, older, addrEq, keyEq⟩
  · intro key ptr mapped
    by_cases sameKey : key = entry.key
    · subst sameKey
      simp [setInflight]
    · change
        Function.update cache.inflightMap entry.key none key = none
      rw [Function.update_of_ne sameKey]
      have kept : cache.cacheMap key = some ptr := by
        simpa [RingBufferCache.withHead, setInflight, sameKey] using
          mapped
      exact wellFormed.exclusive kept
  · change (cache.usedSize + entry.size).toNat = _
    simp only [residentSize, RingBufferCache.withHead, setInflight] at *
    simp only [slotSize] at total
    omega
  · change (cache.usedSize + entry.size).toNat ≤ cache.capacity.toNat
    omega

theorem residentSize_updatePins
    (cache : RingBufferCache) (ptr : EntryPtr)
    (update : UInt32 → UInt32) :
    (cache.updatePins ptr update).residentSize = cache.residentSize := by
  unfold residentSize updatePins
  rw [List.map_map]
  congr 1
  apply List.map_congr_left
  intro slot _
  cases slot with
  | none =>
      rfl
  | some entry =>
      simp [slotSize]

theorem WellFormed.updatePins
    {cache : RingBufferCache} (wellFormed : cache.WellFormed)
    (ptr : EntryPtr) (update : UInt32 → UInt32) :
    (cache.updatePins ptr update).WellFormed := by
  have residentIff := resident_updatePins_iff cache ptr update
  refine
    { slotsLength := ?_
      headBound := wellFormed.headBound
      addrBound := ?_
      addrUnique := ?_
      indexed := ?_
      exclusive := wellFormed.exclusive
      accounted := ?_
      bounded := wellFormed.bounded }
  · simpa [RingBufferCache.updatePins] using wellFormed.slotsLength
  · intro position other resident
    obtain ⟨entry, older, rfl⟩ := (residentIff _ _).mp resident
    rw [Entry.updatePins_addr]
    exact wellFormed.addrBound older
  · intro position other first second firstResident secondResident same
    obtain ⟨firstEntry, firstOlder, rfl⟩ :=
      (residentIff _ _).mp firstResident
    obtain ⟨secondEntry, secondOlder, rfl⟩ :=
      (residentIff _ _).mp secondResident
    rw [Entry.updatePins_addr, Entry.updatePins_addr] at same
    exact wellFormed.addrUnique firstOlder secondOlder same
  · intro key target
    change cache.cacheMap key = some target ↔ _
    rw [wellFormed.indexed]
    constructor
    · intro outcome
      rcases outcome with ⟨position, entry, resident, addrEq, keyEq⟩
      exact
        ⟨position, entry.updatePins ptr update,
          (residentIff _ _).mpr ⟨entry, resident, rfl⟩,
          by simpa using addrEq, by simpa using keyEq⟩
    · intro outcome
      rcases outcome with ⟨position, other, resident, addrEq, keyEq⟩
      obtain ⟨entry, older, rfl⟩ := (residentIff _ _).mp resident
      exact
        ⟨position, entry, older,
          by simpa using addrEq, by simpa using keyEq⟩
  · rw [residentSize_updatePins]
    exact wellFormed.accounted

/-- The inflight response of a key that is not cached may be replaced, and
any inflight response may be erased. -/
theorem WellFormed.setInflight
    {cache : RingBufferCache} (wellFormed : cache.WellFormed)
    {key : Key} {inflight : Option Inflight}
    (admissible : inflight = none ∨ cache.cacheMap key = none) :
    (cache.setInflight key inflight).WellFormed := by
  refine { wellFormed with exclusive := ?_ }
  intro other ptr mapped
  change Function.update cache.inflightMap key inflight other = none
  by_cases sameKey : other = key
  · subst other
    rw [Function.update_self]
    rcases admissible with erased | unmapped
    · exact erased
    · change cache.cacheMap key = some ptr at mapped
      rw [unmapped] at mapped
      simp at mapped
  · rw [Function.update_of_ne sameKey]
    exact wellFormed.exclusive mapped

/-- A key with an inflight response is not cached. -/
theorem WellFormed.unmapped_of_inflight
    {cache : RingBufferCache} (wellFormed : cache.WellFormed)
    {key : Key} {inflight : Inflight}
    (present : cache.inflightMap key = some inflight) :
    cache.cacheMap key = none := by
  cases mapped : cache.cacheMap key with
  | none =>
      rfl
  | some ptr =>
      rw [wellFormed.exclusive mapped] at present
      simp at present

end RingBufferCache

end RingCache

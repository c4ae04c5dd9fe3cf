import RingCache.Cache.Admission
import RingCache.Library.Fifo

/-!
# Without pins the ring is a first-in first-out queue

One index serves as the eviction cursor and as the write position.  As long as
no finalization meets a pin, the occupied slots are contiguous and end just
before the head: read from the head on, the ring is a row of free slots
followed by the entries from the oldest to the newest.  A finalization then
evicts a prefix of the entries, finds its free slot where it started and
inserts there, which is one step of `Fifo.enqueue`.
-/

namespace RingCache

open Transition RingBufferCache

/-- What a cached entry holds for its readers. -/
structure Response where
  key : Key
  headers : ResponseHeaderMap
  body : Bytes
  deriving DecidableEq, Repr

/-- `Entry::size()` of an entry with this response. -/
def Response.size (response : Response) : Nat :=
  (UInt64.ofNat response.key.length +
      UInt64.ofNat response.headers.length +
    UInt64.ofNat response.body.length).toNat

def Entry.response (entry : Entry) : Response where
  key := entry.key
  headers := entry.headers
  body := entry.body

namespace RingBufferCache

variable {cache current next : RingBufferCache}

/-- The response in the slot at `position`, if it is occupied. -/
def responseAt (cache : RingBufferCache) (position : Nat) :
    Option Response :=
  (cache.slotAt position).map Entry.response

/-- The resident responses in ring order from the head. -/
def residents (cache : RingBufferCache) : List Response :=
  (Ring.order cache.slotCount cache.head).filterMap cache.responseAt

theorem slotSize_eq (slot : Option Entry) :
    slotSize slot = ((slot.map Entry.response).map Response.size).getD 0 := by
  cases slot with
  | none =>
      rfl
  | some entry =>
      rfl

theorem responseAt_eq_none_iff (position : Nat) :
    cache.responseAt position = none ↔ cache.slotAt position = none := by
  simp [responseAt]

theorem responseAt_of_clearPins
    (same : current.clearPins.slots = cache.clearPins.slots)
    (position : Nat) :
    current.responseAt position = cache.responseAt position := by
  have forgotten :
      ∀ other : RingBufferCache,
        other.responseAt position =
          (other.clearPins.slotAt position).map Entry.response := by
    intro other
    unfold responseAt
    rw [slotAt_clearPins, Option.map_map]
    rfl
  rw [forgotten, forgotten]
  unfold slotAt
  rw [same]

theorem firstFree_head
    (headBound : cache.head < cache.slotCount)
    (vacant : cache.slotAt cache.head = none) :
    cache.firstFree cache.head = some cache.head := by
  have start : (cache.head + 0) % cache.slotCount = cache.head := by
    rw [Nat.add_zero, Nat.mod_eq_of_lt headBound]
  unfold firstFree
  rw [Ring.find?_order_eq_some (Nat.zero_lt_of_lt headBound), start]
  · intro before impossible
    exact absurd impossible (Nat.not_lt_zero _)
  · rw [start, vacant]
    rfl

/-! ## A ring in queue order -/

/-- Read from the head on, the ring is `free` free slots followed by the
responses of `queue`. -/
structure Queued
    (cache : RingBufferCache) (queue : List Response) (free : Nat) :
    Prop where
  whole : free + queue.length = cache.slotCount
  vacant :
    ∀ offset, offset < free →
      cache.responseAt ((cache.head + offset) % cache.slotCount) = none
  occupied :
    ∀ offset, offset < queue.length →
      cache.responseAt
          ((cache.head + (free + offset)) % cache.slotCount) =
        queue[offset]?

namespace Queued

variable {queue : List Response} {free : Nat}

theorem vacant_segment (queued : cache.Queued queue free) :
    (Ring.segment cache.slotCount cache.head 0 free).map
        cache.responseAt =
      List.replicate free none := by
  rw [Ring.segment, List.map_map, List.eq_replicate_iff]
  refine ⟨by simp, ?_⟩
  intro response member
  obtain ⟨offset, inside, rfl⟩ := List.mem_map.mp member
  rw [List.mem_range] at inside
  simpa using queued.vacant offset inside

theorem occupied_segment (queued : cache.Queued queue free) :
    (Ring.segment cache.slotCount cache.head free queue.length).map
        cache.responseAt =
      queue.map some := by
  refine List.ext_getElem? ?_
  intro offset
  by_cases inside : offset < queue.length
  · have read := queued.occupied offset inside
    simp [Ring.segment, inside, read]
  · simp [Ring.segment, inside]

/-- The entries in ring order from the head are the queue. -/
theorem residents_eq (queued : cache.Queued queue free) :
    cache.residents = queue := by
  have split :
      cache.residents =
        ((Ring.segment cache.slotCount cache.head 0 free).map
            cache.responseAt).filterMap id ++
          ((Ring.segment cache.slotCount cache.head free
              queue.length).map cache.responseAt).filterMap id := by
    unfold residents
    rw [Ring.order_eq_segments queued.whole, List.filterMap_append,
      List.filterMap_map, List.filterMap_map]
    rfl
  rw [split, queued.vacant_segment, queued.occupied_segment,
    List.filterMap_map]
  simp

theorem total_eq
    (slotsLength : cache.slots.length = cache.slotCount)
    (queued : cache.Queued queue free) :
    cache.residentSize = Fifo.total Response.size queue := by
  have inOrder :
      cache.slots.map slotSize =
        (List.range cache.slotCount).map fun position =>
          ((cache.responseAt position).map Response.size).getD 0 := by
    refine List.ext_getElem? ?_
    intro position
    by_cases inside : position < cache.slotCount
    · have slotInside : position < cache.slots.length := by omega
      simp [inside, slotInside, responseAt, slotAt, slotSize_eq]
    · have slotOutside : ¬ position < cache.slots.length := by omega
      simp [inside, slotOutside]
  have rotated :=
    (Ring.order_perm cache.slotCount cache.head).map fun position =>
        ((cache.responseAt position).map Response.size).getD 0
  unfold residentSize Fifo.total
  rw [inOrder, ← rotated.sum_eq, Ring.order_eq_segments queued.whole,
    List.map_append, List.sum_append]
  have front :
      (Ring.segment cache.slotCount cache.head 0 free).map
          (fun position =>
            ((cache.responseAt position).map Response.size).getD 0) =
        List.replicate free 0 := by
    have mapped :=
      congrArg
        (List.map fun response : Option Response =>
          (response.map Response.size).getD 0)
        queued.vacant_segment
    simpa [Function.comp_def] using mapped
  have back :
      (Ring.segment cache.slotCount cache.head free queue.length).map
          (fun position =>
            ((cache.responseAt position).map Response.size).getD 0) =
        queue.map Response.size := by
    have mapped :=
      congrArg
        (List.map fun response : Option Response =>
          (response.map Response.size).getD 0)
        queued.occupied_segment
    simpa [Function.comp_def] using mapped
  rw [front, back]
  simp

/-- The order of the queue rests on the slots, pins aside, and on the head. -/
theorem of_slots
    (queued : cache.Queued queue free)
    (slotsEq : current.clearPins.slots = cache.clearPins.slots)
    (headEq : current.head = cache.head)
    (slotCountEq : current.slotCount = cache.slotCount) :
    current.Queued queue free := by
  have sameResponse := responseAt_of_clearPins slotsEq
  refine
    { whole := ?_
      vacant := ?_
      occupied := ?_ }
  · rw [slotCountEq]
    exact queued.whole
  · intro offset inside
    rw [sameResponse, headEq, slotCountEq]
    exact queued.vacant offset inside
  · intro offset inside
    rw [sameResponse, headEq, slotCountEq]
    exact queued.occupied offset inside

theorem of_emptied
    {evicted : List Nat}
    (queued : (cache.withoutSlots evicted).Queued queue free)
    (emptied : cache.Emptied evicted cache.head current) :
    current.Queued queue free := by
  have frame := withoutSlots_frame cache evicted
  have slotsEq :
      current.clearPins.slots =
        ((cache.withoutSlots evicted).moveHead
          cache.head).clearPins.slots := by
    rw [emptied]
  refine queued.of_slots slotsEq ?_ ?_
  · rw [emptied.head_eq, frame.head]
  · rw [emptied.slotCount_eq, frame.slotCount]

/-- Without pins the evictable slots are those of the queue, oldest first. -/
theorem evictable_eq (queued : cache.Queued queue free) :
    (cache.evictable fun _ => false) =
      Ring.segment cache.slotCount cache.head free queue.length := by
  unfold evictable
  rw [Ring.order_eq_segments queued.whole, List.filter_append]
  have front :
      (Ring.segment cache.slotCount cache.head 0 free).filter
          (fun position =>
            (cache.slotAt position).isSome && !false) = [] := by
    rw [List.filter_eq_nil_iff]
    intro position member
    obtain ⟨offset, inside, rfl⟩ := List.mem_map.mp member
    rw [List.mem_range] at inside
    have read := queued.vacant offset inside
    rw [responseAt_eq_none_iff] at read
    rw [Nat.zero_add, read]
    simp
  have back :
      (Ring.segment cache.slotCount cache.head free
            queue.length).filter
          (fun position =>
            (cache.slotAt position).isSome && !false) =
        Ring.segment cache.slotCount cache.head free queue.length := by
    rw [List.filter_eq_self]
    intro position member
    obtain ⟨offset, inside, rfl⟩ := List.mem_map.mp member
    rw [List.mem_range] at inside
    have read := queued.occupied offset inside
    rw [List.getElem?_eq_getElem inside, responseAt,
      Option.map_eq_some_iff] at read
    obtain ⟨entry, read, _⟩ := read
    rw [read]
    rfl
  rw [front, back, List.nil_append]

/-- Evicting the oldest entries drops a prefix of the queue. -/
theorem withoutSlots
    (queued : cache.Queued queue free)
    {dropped : Nat} (bound : dropped ≤ queue.length) :
    (cache.withoutSlots
        (Ring.segment cache.slotCount cache.head free dropped)).Queued
      (queue.drop dropped) (free + dropped) := by
  have wholeBound := queued.whole
  have frame :=
    withoutSlots_frame cache
      (Ring.segment cache.slotCount cache.head free dropped)
  have segmentBound : free + dropped ≤ cache.slotCount := by omega
  refine
    { whole := ?_
      vacant := ?_
      occupied := ?_ }
  · rw [frame.slotCount, List.length_drop]
    omega
  · intro offset inside
    have offsetBound : offset < cache.slotCount := by omega
    rw [frame.head, frame.slotCount, responseAt_eq_none_iff,
      slotAt_withoutSlots]
    split
    · rfl
    · next kept =>
        rw [Ring.mem_segment segmentBound offsetBound] at kept
        rw [← responseAt_eq_none_iff]
        exact queued.vacant offset (by omega)
  · intro offset inside
    rw [List.length_drop] at inside
    have offsetBound : free + dropped + offset < cache.slotCount := by
      omega
    have behind :
        (cache.head + (free + dropped + offset)) % cache.slotCount ∉
          Ring.segment cache.slotCount cache.head free dropped := by
      rw [Ring.mem_segment segmentBound offsetBound]
      omega
    rw [frame.head, frame.slotCount, responseAt, slotAt_withoutSlots,
      if_neg behind]
    have kept := queued.occupied (dropped + offset) (by omega)
    rw [List.getElem?_drop, ← kept, Nat.add_assoc]
    rfl

/-- The bytes of the queue without its `dropped` oldest responses decide
whether their slots make room. -/
theorem makesRoom_iff
    (slotsLength : cache.slots.length = cache.slotCount)
    (accounted : cache.Accounted)
    (queued : cache.Queued queue free)
    {dropped : Nat} (bound : dropped ≤ queue.length)
    (sizeNeeded : UInt64) :
    cache.MakesRoom sizeNeeded
        (Ring.segment cache.slotCount cache.head free dropped) ↔
      Fifo.total Response.size (queue.drop dropped) +
          sizeNeeded.toNat ≤
        cache.capacity.toNat := by
  have frame :=
    withoutSlots_frame cache
      (Ring.segment cache.slotCount cache.head free dropped)
  have keptLength :
      (cache.withoutSlots
          (Ring.segment cache.slotCount cache.head free
            dropped)).slots.length =
        (cache.withoutSlots
          (Ring.segment cache.slotCount cache.head free
            dropped)).slotCount := by
    rw [frame.slotsLength, frame.slotCount]
    exact slotsLength
  unfold MakesRoom
  rw [(accounted.withoutSlots _).sum,
    (queued.withoutSlots bound).total_eq keptLength]

theorem head_vacant
    (headBound : cache.head < cache.slotCount)
    (queued : cache.Queued queue free) (someFree : 0 < free) :
    cache.slotAt cache.head = none := by
  have read := queued.vacant 0 someFree
  rw [Nat.add_zero, Nat.mod_eq_of_lt headBound] at read
  exact (responseAt_eq_none_iff _).mp read

/-- From the slot after the evicted entries on, the first free slot is the one
at which the scan started. -/
theorem firstFree_eq
    (headBound : cache.head < cache.slotCount)
    (queued : cache.Queued queue free)
    (someFree : 0 < free) :
    cache.firstFree ((cache.head + free) % cache.slotCount) =
      some cache.head := by
  have wholeBound := queued.whole
  have circle :
      ((cache.head + free) % cache.slotCount + queue.length) %
          cache.slotCount =
        cache.head := by
    rw [Nat.mod_add_mod, Nat.add_assoc, wholeBound, Nat.add_mod_right,
      Nat.mod_eq_of_lt headBound]
  unfold firstFree
  rw [← congrArg some circle]
  refine Ring.find?_order_eq_some (by omega) ?_ ?_
  · intro offset inside
    have read := queued.occupied offset inside
    rw [List.getElem?_eq_getElem inside, responseAt,
      Option.map_eq_some_iff] at read
    obtain ⟨entry, read, _⟩ := read
    rw [Nat.mod_add_mod, Nat.add_assoc, read]
    rfl
  · rw [circle, queued.head_vacant headBound someFree]
    rfl

/-- The inserted response becomes the newest one. -/
theorem withHead
    (slotsLength : cache.slots.length = cache.slotCount)
    (headBound : cache.head < cache.slotCount)
    (queued : cache.Queued queue free)
    (someFree : 0 < free) (entry : Entry) :
    (cache.withHead entry).Queued (queue ++ [entry.response])
      (free - 1) := by
  have wholeBound := queued.whole
  have read :
      ∀ position,
        (cache.withHead entry).responseAt position =
          if position = cache.head then
            some entry.response
          else
            cache.responseAt position := by
    intro position
    unfold responseAt slotAt
    change
      ((cache.slots.set cache.head (some entry))[position]?.join).map
        Entry.response = _
    rw [List.getElem?_set]
    by_cases same : cache.head = position
    · subst same
      have inside : cache.head < cache.slots.length := by omega
      simp [inside]
    · simp [same, Ne.symm same]
  have shifted :
      ∀ offset,
        ((cache.head + 1) % cache.slotCount + offset) %
            cache.slotCount =
          (cache.head + (offset + 1)) % cache.slotCount := by
    intro offset
    rw [Nat.mod_add_mod]
    congr 1
    omega
  have elsewhere :
      ∀ offset, offset + 1 < cache.slotCount →
        (cache.head + (offset + 1)) % cache.slotCount ≠ cache.head := by
    intro offset inside same
    have circle :=
      (Ring.back_at_start_iff headBound (Nat.lt_of_succ_lt inside)).mp
        same
    omega
  refine
    { whole := ?_
      vacant := ?_
      occupied := ?_ }
  · rw [List.length_append, List.length_singleton]
    change free - 1 + (queue.length + 1) = cache.slotCount
    omega
  · intro offset inside
    change
      (cache.withHead entry).responseAt
        (((cache.head + 1) % cache.slotCount + offset) %
          cache.slotCount) = none
    rw [read, shifted, if_neg (elsewhere offset (by omega))]
    exact queued.vacant (offset + 1) (by omega)
  · intro offset inside
    rw [List.length_append, List.length_singleton] at inside
    change
      (cache.withHead entry).responseAt
        (((cache.head + 1) % cache.slotCount + (free - 1 + offset)) %
          cache.slotCount) = _
    rw [read, shifted]
    by_cases older : offset < queue.length
    · rw [if_neg (elsewhere _ (by omega)),
        List.getElem?_append_left older, ← queued.occupied offset older]
      congr 3
      omega
    · have newest : offset = queue.length := by omega
      have circle : free - 1 + offset + 1 = cache.slotCount := by omega
      have back :=
        (Ring.back_at_start_iff headBound (by omega)).mpr circle
      rw [back, if_pos rfl, newest]
      simp

/-- The free slots of a queue are the free slots of the ring. -/
theorem free_iff
    (slotsLength : cache.slots.length = cache.slotCount)
    (headBound : cache.head < cache.slotCount)
    (queued : cache.Queued queue free) :
    none ∈ cache.slots ↔ 0 < free := by
  constructor
  · intro member
    by_contra noFree
    have zero : free = 0 := by omega
    have wholeBound := queued.whole
    obtain ⟨position, vacant⟩ := List.mem_iff_getElem?.mp member
    have inside : position < cache.slots.length :=
      (List.getElem?_eq_some_iff.mp vacant).1
    rw [slotsLength] at inside
    obtain ⟨offset, offsetBound, rfl⟩ :=
      Ring.exists_offset cache.head inside
    have read := queued.occupied offset (by omega)
    rw [zero, Nat.zero_add,
      List.getElem?_eq_getElem (by omega)] at read
    rw [← slotAt_eq_none_iff (by omega), ← responseAt_eq_none_iff,
      read] at vacant
    simp at vacant
  · intro someFree
    have read := queued.head_vacant headBound someFree
    rw [slotAt_eq_none_iff (by omega)] at read
    exact List.mem_of_getElem? read

/-- A scan without pins for a size that fits beside the queue. -/
theorem scan_fitting
    (slotsLength : cache.slots.length = cache.slotCount)
    (headBound : cache.head < cache.slotCount)
    (queued : cache.Queued queue free)
    {sizeNeeded : UInt64} {result : Bool}
    (spec : cache.ScanSpec sizeNeeded (fun _ => false) result current)
    (fitting :
      cache.usedSize.toNat + sizeNeeded.toNat ≤ cache.capacity.toNat) :
    current.Queued queue free ∧ (result = true ↔ 0 < free) := by
  have unevicted : (cache.withoutSlots []).Queued queue free := queued
  obtain ⟨found, full⟩ := spec.fitting fitting
  rw [← queued.free_iff slotsLength headBound]
  cases first : cache.firstFree cache.head with
  | none =>
      obtain ⟨failed, emptied⟩ := full first
      have noFree := (firstFree_eq_none_iff slotsLength _).mp first
      refine ⟨unevicted.of_emptied emptied, ?_⟩
      rw [failed]
      exact iff_of_false (by simp) noFree
  | some position =>
      obtain ⟨succeeded, emptied⟩ := found position first
      have member : none ∈ cache.slots := by
        by_contra noFree
        rw [(firstFree_eq_none_iff slotsLength cache.head).mpr
          noFree] at first
        simp at first
      have someFree := (queued.free_iff slotsLength headBound).mp member
      have atHead :=
        firstFree_head headBound (queued.head_vacant headBound someFree)
      rw [atHead, Option.some.injEq] at first
      subst first
      exact
        ⟨unevicted.of_emptied emptied, iff_of_true succeeded member⟩

/-- A scan without pins for a size that does not fit beside the queue drops
the shortest sufficient prefix of it and returns to its start. -/
theorem scan_evicting
    (slotsLength : cache.slots.length = cache.slotCount)
    (headBound : cache.head < cache.slotCount)
    (accounted : cache.Accounted)
    (queued : cache.Queued queue free)
    {sizeNeeded : UInt64} {result : Bool}
    (spec : cache.ScanSpec sizeNeeded (fun _ => false) result current)
    (fits : sizeNeeded.toNat ≤ cache.capacity.toNat)
    (short :
      cache.capacity.toNat <
        cache.usedSize.toNat + sizeNeeded.toNat) :
    result = true ∧
      ∃ dropped,
        0 < dropped ∧ dropped ≤ queue.length ∧
          current.Queued (queue.drop dropped) (free + dropped) ∧
            Fifo.makeRoom Response.size cache.capacity.toNat
                sizeNeeded.toNat queue =
              queue.drop dropped := by
  obtain ⟨shortest, isShortest⟩ :=
    Ring.Shortest.exists_of_initial List.prefix_rfl
      (makesRoom_evictable slotsLength accounted fits)
  obtain ⟨succeeded, last, position, lastEq, first, emptied⟩ :=
    (spec.evicting fits short).1 shortest isShortest
  have evictableEq := queued.evictable_eq
  have initial := isShortest.initial
  rw [evictableEq] at initial
  have bound : shortest.length ≤ queue.length := by
    simpa using initial.length_le
  have segmentEq :
      shortest =
        Ring.segment cache.slotCount cache.head free shortest.length := by
    rw [← Ring.take_segment bound]
    exact List.prefix_iff_eq_take.mp initial
  have frame := withoutSlots_frame cache shortest
  have kept := queued.withoutSlots bound
  rw [← segmentEq] at kept
  have dropsSome : 0 < shortest.length := by
    rw [List.length_pos_iff]
    intro empty
    rw [empty] at lastEq
    simp at lastEq
  have resumed :
      (last + 1) % cache.slotCount =
        (cache.head + (free + shortest.length)) % cache.slotCount := by
    rw [segmentEq, Ring.getLast?_segment dropsSome,
      Option.some.injEq] at lastEq
    rw [← lastEq, Nat.mod_add_mod]
    congr 1
    omega
  have atHead :=
    kept.firstFree_eq (by rw [frame.head, frame.slotCount]; exact headBound)
      (by omega)
  rw [frame.head, frame.slotCount, ← resumed, first,
    Option.some.injEq] at atHead
  subst atHead
  refine
    ⟨succeeded, shortest.length, dropsSome, bound,
      kept.of_emptied emptied, ?_⟩
  have enough := isShortest.sufficient
  rw [segmentEq, queued.makesRoom_iff slotsLength accounted bound] at enough
  refine Fifo.makeRoom_eq_drop enough ?_
  intro fewer smaller room
  have fewerBound : fewer ≤ queue.length := by omega
  rw [← queued.makesRoom_iff slotsLength accounted fewerBound] at room
  have fewerInitial :
      Ring.segment cache.slotCount cache.head free fewer <+:
        cache.evictable fun _ => false := by
    rw [evictableEq, ← Ring.take_segment fewerBound]
    exact List.take_prefix _ _
  have least := isShortest.least _ fewerInitial room
  rw [Ring.length_segment] at least
  omega

/-- A scan without pins prepares the ring for one step of the queue: if it
returns true, the responses that stay are in order and the head is free; if it
returns false, nothing has changed. -/
theorem scan
    (slotsLength : cache.slots.length = cache.slotCount)
    (headBound : cache.head < cache.slotCount)
    (accounted : cache.Accounted)
    (queued : cache.Queued queue free)
    {sizeNeeded : UInt64} {result : Bool}
    (spec : cache.ScanSpec sizeNeeded (fun _ => false) result current)
    {response : Response} (sizeEq : response.size = sizeNeeded.toNat) :
    (result = true ∧
        ∃ kept keptFree,
          0 < keptFree ∧
            current.Queued kept keptFree ∧
              Fifo.enqueue Response.size cache.capacity.toNat
                  cache.slotCount queue response =
                kept ++ [response]) ∨
      (result = false ∧
        current.Queued queue free ∧
          Fifo.enqueue Response.size cache.capacity.toNat
              cache.slotCount queue response =
            queue) := by
  have wholeBound := queued.whole
  have totalEq := queued.total_eq slotsLength
  rw [← accounted.sum] at totalEq
  by_cases large : cache.capacity.toNat < sizeNeeded.toNat
  · obtain ⟨failed, emptied⟩ := spec.tooLarge large
    have unevicted : (cache.withoutSlots []).Queued queue free := queued
    refine Or.inr ⟨failed, unevicted.of_emptied emptied, ?_⟩
    rw [Fifo.enqueue, sizeEq, if_pos large]
  by_cases fitting :
      cache.usedSize.toNat + sizeNeeded.toNat ≤ cache.capacity.toNat
  · obtain ⟨unchanged, found⟩ :=
      queued.scan_fitting slotsLength headBound spec fitting
    rw [totalEq] at fitting
    have nothingDropped := Fifo.makeRoom_of_fits fitting
    cases result with
    | true =>
        have someFree := found.mp rfl
        refine Or.inl ⟨rfl, queue, free, someFree, unchanged, ?_⟩
        rw [Fifo.enqueue, sizeEq, if_neg large, nothingDropped,
          if_neg (by omega)]
    | false =>
        have noFree : ¬ 0 < free := by
          rw [← found]
          simp
        refine Or.inr ⟨rfl, unchanged, ?_⟩
        rw [Fifo.enqueue, sizeEq, if_neg large, nothingDropped,
          if_pos (by omega)]
  · obtain ⟨succeeded, dropped, dropsSome, bound, kept, madeRoom⟩ :=
      queued.scan_evicting slotsLength headBound accounted spec
        (by omega) (by omega)
    refine
      Or.inl
        ⟨succeeded, queue.drop dropped, free + dropped, by omega, kept, ?_⟩
    rw [Fifo.enqueue, sizeEq, if_neg large, madeRoom]
    simp only [List.length_drop]
    rw [if_neg (by omega)]

end Queued

end RingBufferCache

namespace Monitor

variable {capacity : UInt64} {slotCount : Nat}
variable {monitor entered before after next : Monitor}

/-! ## Runs whose finalizations meet no pin -/

/-- The response of the finalization that holds the mutex. -/
def finalizing (monitor : Monitor) : Option Response := do
  let frame ← monitor.frame
  let inflight ← monitor.cache.inflightMap frame.key
  let headers ← inflight.headers
  return { key := frame.key, headers := headers, body := inflight.body }

/-- The response whose finalization an action ends. -/
def finalizedBy (monitor : Monitor) : Action → List Response
  | .finish => monitor.finalizing.toList
  | _ => []

/-- A run from the empty cache in which every pin count is zero whenever a
finalization is in progress, and the responses that have been finalized, in
this order. -/
inductive QuietRun (capacity : UInt64) (slotCount : Nat) :
    List Response → Monitor → Prop
  | create : QuietRun capacity slotCount [] (create capacity slotCount)
  | step
      {finalized : List Response} {before after : Monitor}
      {action : Action} :
      QuietRun capacity slotCount finalized before →
      before.step action = .ok after →
      (after.frame.isSome = true → after.cache.Unpinned) →
      QuietRun capacity slotCount
        (finalized ++ before.finalizedBy action) after

theorem QuietRun.reachable
    {finalized : List Response}
    (run : QuietRun capacity slotCount finalized monitor) :
    Reachable Monitor.step (Monitor.create capacity slotCount)
      (fun _ _ _ => True) monitor := by
  induction run with
  | create =>
      exact Reachable.start
  | step _ stepped _ inductionHypothesis =>
      exact Reachable.next inductionHypothesis stepped trivial

/-- Between finalizations no step moves the head or touches a slot, pins
aside. -/
theorem idle_step
    {action : Action} (idle : monitor.frame = none)
    (stepped : monitor.step action = .ok next) :
    next.cache.clearPins.slots = monitor.cache.clearPins.slots ∧
      next.cache.head = monitor.cache.head ∧
        next.cache.slotCount = monitor.cache.slotCount ∧
          monitor.finalizedBy action = [] := by
  have pins :
      ∀ ptr update,
        (monitor.cache.updatePins ptr update).clearPins.slots =
          monitor.cache.clearPins.slots := by
    intro ptr update
    rw [clearPins_updatePins]
  cases action with
  | lookup key callbacks waiterAddr =>
      obtain ⟨⟨result, state⟩, looked, returned⟩ :=
        bind_eq_ok_iff.mp stepped
      cases returned
      obtain ⟨_, _, lookedLocked⟩ := lookup_eq_ok_iff.mp looked
      rcases lookupLocked_eq_ok_iff.mp lookedLocked with
        ⟨ptr, _, _, _, _, nextEq⟩ | ⟨_, _, _, nextEq⟩ |
          ⟨_, _, _, _, _, _, _, nextEq⟩
      · rw [nextEq]
        exact ⟨pins _ _, rfl, rfl, rfl⟩
      · rw [nextEq]
        exact ⟨rfl, rfl, rfl, rfl⟩
      · rw [nextEq]
        exact ⟨rfl, rfl, rfl, rfl⟩
  | publishHeaders key headers endStream =>
      obtain ⟨⟨posts, state⟩, published, returned⟩ :=
        bind_eq_ok_iff.mp stepped
      cases returned
      obtain ⟨_, _, entering⟩ := publishHeaders_eq_ok_iff.mp published
      rw [(afterPublish_eq_ok_iff.mp entering).1]
      rcases publishHeadersLocked_cache monitor.cache key headers
        endStream with same | ⟨_, _, _, same⟩
      · rw [same]
        exact ⟨rfl, rfl, rfl, rfl⟩
      · rw [same]
        exact ⟨rfl, rfl, rfl, rfl⟩
  | publishData key data endStream =>
      obtain ⟨⟨posts, state⟩, published, returned⟩ :=
        bind_eq_ok_iff.mp stepped
      cases returned
      obtain ⟨_, _, entering⟩ := publishData_eq_ok_iff.mp published
      rw [(afterPublish_eq_ok_iff.mp entering).1]
      rcases publishDataLocked_cache monitor.cache key data
        endStream with same | ⟨_, _, _, same⟩
      · rw [same]
        exact ⟨rfl, rfl, rfl, rfl⟩
      · rw [same]
        exact ⟨rfl, rfl, rfl, rfl⟩
  | removeWaiter key waiterAddr =>
      obtain ⟨_, rfl⟩ := removeWaiter_eq_ok_iff.mp stepped
      rcases removeWaiterLocked_cache monitor.cache key waiterAddr with
        same | ⟨_, _, _, same⟩
      · simp only [same]
        exact ⟨trivial, trivial, trivial, rfl⟩
      · simp only [same]
        exact ⟨rfl, rfl, rfl, rfl⟩
  | scan =>
      obtain ⟨_, _, _, running, _⟩ := scan_eq_ok_iff.mp stepped
      rw [idle] at running
      simp at running
  | finish =>
      obtain ⟨_, _, running, _⟩ := finish_eq_ok_iff.mp stepped
      rw [idle] at running
      simp at running
  | unpin ptr =>
      obtain ⟨_, rfl⟩ := unpin_eq_ok_iff.mp stepped
      exact ⟨pins _ _, rfl, rfl, rfl⟩

/-- Between finalizations the ring is the queue, and during one it is what the
scan has made of the queue without meeting a pin. -/
inductive InOrder
    (capacity : UInt64) (slotCount : Nat) (queue : List Response)
    (monitor : Monitor) : Prop
  | idle
      {free : Nat}
      (released : monitor.frame = none)
      (queued : monitor.cache.Queued queue free)
  | finalizing
      {base : RingBufferCache} {key : Key} {inflight : Inflight}
      {headers : ResponseHeaderMap} {entered : Monitor}
      {reads : List (Nat × Bool)} {free : Nat}
      (enters : Enters base key inflight headers entered)
      (consistent : entered.Consistent capacity slotCount)
      (queued : entered.cache.Queued queue free)
      (run : entered.FinalizeRun reads monitor)
      (zero : ∀ read ∈ reads, read.2 = false)
      (unpinned : monitor.cache.Unpinned)

theorem create_queued :
    (create capacity slotCount).cache.Queued [] slotCount := by
  have vacant :
      ∀ position,
        (create capacity slotCount).cache.slotAt position = none := by
    intro position
    unfold slotAt
    change (List.replicate slotCount none)[position]?.join = none
    rw [List.getElem?_replicate]
    split
    · rfl
    · rfl
  refine
    { whole := rfl
      vacant := ?_
      occupied := ?_ }
  · intro offset _
    rw [responseAt_eq_none_iff]
    exact vacant _
  · intro offset inside
    simp at inside

/-- The response that a finalization inserts is the one whose size it has
reserved. -/
theorem response_size
    (key : Key) (headers : ResponseHeaderMap) (inflight : Inflight) :
    Response.size
        { key := key, headers := headers, body := inflight.body } =
      (reservedSize key headers inflight).toNat := by
  unfold Response.size reservedSize
  rw [UInt64.add_assoc, UInt64.add_comm]

/-- The end of a finalization is one step of the queue. -/
theorem InOrder.finish
    (positive : 0 < slotCount)
    {base : RingBufferCache} {key : Key} {inflight : Inflight}
    {headers : ResponseHeaderMap} {reads : List (Nat × Bool)}
    {queue : List Response} {free : Nat}
    (enters : Enters base key inflight headers entered)
    (consistent : entered.Consistent capacity slotCount)
    (beforeConsistent : before.Consistent capacity slotCount)
    (queued : entered.cache.Queued queue free)
    (run : entered.FinalizeRun reads before)
    (zero : ∀ read ∈ reads, read.2 = false)
    (stepped : before.step .finish = .ok after) :
    InOrder capacity slotCount
      ((before.finalizedBy .finish).foldl
        (Fifo.enqueue Response.size capacity.toNat slotCount) queue)
      after := by
  have wellFormed := consistent.wellFormed
  have headBound := consistent.headBound positive
  obtain ⟨returned, result, stands, atReturn, released, completed⟩ :=
    finish_eq_ok_iff.mp stepped
  obtain ⟨sameKey, spec⟩ :=
    run.spec positive consistent enters.frameEq rfl stands atReturn
      (fun _ => false) (fun read member => (zero read member).symm)
  obtain ⟨_, _, _, scanRun⟩ := run.scanRun enters.frameEq rfl
  have present : before.cache.inflightMap key = some inflight := by
    rw [scanRun.frame.1, enters.cacheEq]
    simp [setInflight]
  have recorded :
      before.finalizedBy .finish =
        [{ key := key, headers := headers, body := inflight.body }] := by
    simp [finalizedBy, Monitor.finalizing, stands, sameKey, present,
      enters.headersEq]
  have scanned :=
    queued.scan wellFormed.slotsLength headBound wellFormed.toAccounted
      spec (response_size key headers inflight)
  rw [consistent.capacityEq, consistent.slotCountEq] at scanned
  rw [recorded, List.foldl_cons, List.foldl_nil]
  rw [sameKey] at completed
  obtain ⟨other, otherPresent, outcome⟩ :=
    completeFinalize_eq_ok_iff.mp completed
  rw [present, Option.some.injEq] at otherPresent
  subst otherPresent
  rcases scanned with
    ⟨succeeded, kept, keptFree, someFree, keptQueued, admitted⟩ |
      ⟨failed, unchanged, refused⟩
  · rcases outcome with
      ⟨failed, _⟩ | ⟨_, stored, storedEq, free, inserted⟩
    · rw [succeeded] at failed
      simp at failed
    · rw [enters.headersEq, Option.some.injEq] at storedEq
      subst storedEq
      have beforeHead := beforeConsistent.headBound positive
      have insertedQueued :=
        keptQueued.withHead beforeConsistent.wellFormed.slotsLength
          beforeHead someFree
          (before.cache.newEntry key headers inflight.body)
      have afterQueued :
          after.cache.Queued
            (kept ++
              [(before.cache.newEntry key headers
                inflight.body).response])
            (keptFree - 1) := by
        rw [inserted]
        exact
          ⟨insertedQueued.whole, insertedQueued.vacant,
            insertedQueued.occupied⟩
      rw [admitted]
      exact .idle released afterQueued
  · rcases outcome with ⟨_, dropped⟩ | ⟨succeeded, _⟩
    · have afterQueued : after.cache.Queued queue free := by
        rw [dropped]
        exact ⟨unchanged.whole, unchanged.vacant, unchanged.occupied⟩
      rw [refused]
      exact .idle released afterQueued
    · rw [failed] at succeeded
      simp at succeeded

/-- Every step of a quiet run keeps the ring in order. -/
theorem InOrder.step
    (positive : 0 < slotCount)
    {queue : List Response} {action : Action}
    (inOrder : InOrder capacity slotCount queue before)
    (consistent : before.Consistent capacity slotCount)
    (stepped : before.step action = .ok after)
    (quiet : after.frame.isSome = true → after.cache.Unpinned) :
    InOrder capacity slotCount
      ((before.finalizedBy action).foldl
        (Fifo.enqueue Response.size capacity.toNat slotCount) queue)
      after := by
  have afterConsistent := consistent.step stepped
  cases inOrder with
  | idle released queued =>
      obtain ⟨slotsEq, headEq, slotCountEq, nothing⟩ :=
        idle_step released stepped
      have afterQueued := queued.of_slots slotsEq headEq slotCountEq
      rw [nothing, List.foldl_nil]
      cases running : after.frame with
      | none =>
          exact .idle running afterQueued
      | some frame =>
          obtain ⟨_, inflight, headers, enters⟩ :=
            enters_of_step released stepped running
          have unpinned := quiet (by rw [running]; rfl)
          exact
            .finalizing enters afterConsistent afterQueued .enter
              (by simp) unpinned
  | finalizing enters entersConsistent queued run zero unpinned =>
      obtain ⟨_, _, stands, _⟩ := run.scanRun enters.frameEq rfl
      rcases step_of_running stands stepped with
        rfl | rfl | ⟨ptr, rfl⟩
      · obtain ⟨frame, cache, point, running, _, afterEq⟩ :=
          scan_eq_ok_iff.mp stepped
        have stillRunning : after.frame.isSome = true := by
          rw [afterEq]
          rfl
        refine
          .finalizing enters entersConsistent queued
            (.scan run stepped) ?_ (quiet stillRunning)
        intro read member
        rcases List.mem_append.mp member with earlier | here
        · exact zero read earlier
        · unfold Monitor.pinReads at here
          rw [running] at here
          exact unpinned.pinReads here
      · exact
          InOrder.finish positive enters entersConsistent consistent
            queued run zero stepped
      · obtain ⟨_, afterEq⟩ := unpin_eq_ok_iff.mp stepped
        have stillRunning : after.frame.isSome = true := by
          rw [afterEq]
          change before.frame.isSome = true
          rw [stands]
          rfl
        exact
          .finalizing enters entersConsistent queued
            (.release run stepped) zero (quiet stillRunning)

theorem QuietRun.inOrder
    (positive : 0 < slotCount) {finalized : List Response}
    (run : QuietRun capacity slotCount finalized monitor) :
    InOrder capacity slotCount
      (Fifo.run Response.size capacity.toNat slotCount finalized)
      monitor := by
  induction run with
  | create =>
      exact .idle rfl create_queued
  | step run stepped quiet inductionHypothesis =>
      have consistent := consistent_of_reachable run.reachable
      have kept :=
        inductionHypothesis.step positive consistent stepped quiet
      rw [Fifo.run, List.foldl_append]
      exact kept

/-- Without pins the ring is exactly a first-in first-out queue: between
finalizations, the entries in ring order from the head are what the abstract
queue holds after the same responses.  Each finalization leaves the queue as
it was, or drops a prefix of it and appends its own response. -/
theorem ringIsFifoQueue
    (positive : 0 < slotCount) {finalized : List Response}
    (run : QuietRun capacity slotCount finalized monitor)
    (released : monitor.frame = none) :
    monitor.cache.residents =
        Fifo.run Response.size capacity.toNat slotCount finalized ∧
      ∀ earlier last, finalized = earlier ++ [last] →
        monitor.cache.residents =
            Fifo.run Response.size capacity.toNat slotCount earlier ∨
          ∃ dropped kept,
            Fifo.run Response.size capacity.toNat slotCount earlier =
                dropped ++ kept ∧
              monitor.cache.residents = kept ++ [last] := by
  have residentsEq :
      monitor.cache.residents =
        Fifo.run Response.size capacity.toNat slotCount finalized := by
    cases run.inOrder positive with
    | idle _ queued =>
        exact queued.residents_eq
    | finalizing enters _ _ finalizeRun =>
        obtain ⟨_, _, stands, _⟩ :=
          finalizeRun.scanRun enters.frameEq rfl
        rw [released] at stands
        simp at stands
  refine ⟨residentsEq, ?_⟩
  intro earlier last split
  rw [residentsEq, split, Fifo.run_append]
  exact Fifo.enqueue_cases _ _

/-- Follow a list of actions, testing that the pins are zero wherever a
finalization is in progress, and collect the responses it finalizes. -/
def quietRun (monitor : Monitor) :
    List Action → Option (List Response × Monitor)
  | [] => some ([], monitor)
  | action :: rest =>
      match monitor.step action with
      | .error _ => none
      | .ok after =>
          if after.frame.isNone ||
              after.cache.slots.all fun slot =>
                slot.all fun entry => entry.pins == 0 then
            (quietRun after rest).map fun final =>
              (monitor.finalizedBy action ++ final.1, final.2)
          else
            none

theorem QuietRun.of_quietRun
    {actions : List Action} {finalized more : List Response}
    {final : Monitor}
    (run : QuietRun capacity slotCount finalized monitor)
    (followed : monitor.quietRun actions = some (more, final)) :
    QuietRun capacity slotCount (finalized ++ more) final := by
  induction actions generalizing monitor finalized more with
  | nil =>
      simp only [quietRun, Option.some.injEq, Prod.mk.injEq] at followed
      obtain ⟨rfl, rfl⟩ := followed
      rw [List.append_nil]
      exact run
  | cons action rest inductionHypothesis =>
      rw [quietRun] at followed
      cases stepped : monitor.step action with
      | error reason =>
          simp [stepped] at followed
      | ok after =>
          simp only [stepped] at followed
          split at followed
          · next tested =>
              obtain ⟨⟨later, last⟩, continued, same⟩ :=
                Option.map_eq_some_iff.mp followed
              simp only [Prod.mk.injEq] at same
              obtain ⟨rfl, rfl⟩ := same
              rw [← List.append_assoc]
              refine inductionHypothesis (.step run stepped ?_) continued
              intro running position entry resident
              rw [Bool.or_eq_true, Option.isNone_iff_eq_none,
                List.all_eq_true] at tested
              rcases tested with released | allZero
              · rw [released] at running
                simp at running
              · have zero :=
                  allZero _ (List.mem_of_getElem? resident)
                simpa using zero
          · simp at followed

/-- The run of two responses of which the first one is evicted for the second
one: the queue holds the second one alone. -/
theorem ringIsFifoQueue_evictingRun :
    ∃ monitor,
      QuietRun 4 2
          [{ key := [1], headers := [([2], [3])], body := [4, 5] },
            { key := [6], headers := [([2], [3])], body := [7] }]
          monitor ∧
        monitor.frame = none ∧
          monitor.cache.residents =
            [{ key := [6], headers := [([2], [3])], body := [7] }] := by
  have followed :
      ∃ monitor,
        (create 4 2).quietRun evictingRun =
            some
              ([{ key := [1], headers := [([2], [3])], body := [4, 5] },
                { key := [6], headers := [([2], [3])], body := [7] }],
                monitor) ∧
          monitor.frame = none :=
    ⟨_, rfl, rfl⟩
  obtain ⟨monitor, ran, released⟩ := followed
  have run := QuietRun.of_quietRun .create ran
  refine ⟨monitor, run, released, ?_⟩
  exact (ringIsFifoQueue (by decide) run released).1

end Monitor

end RingCache

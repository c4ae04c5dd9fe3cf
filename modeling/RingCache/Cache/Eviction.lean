import RingCache.Cache.Accounting
import RingCache.Library.Ring

/-!
# What `evictTillCapacityLocked` does

A call of `evictTillCapacityLocked` is a sequence of iterations of its two
loops.  Between two iterations other threads change pins and nothing else,
since the call holds the mutex.  `ScanRun` is a call up to any of its
iterations, and `ScanSpec` says what a call that has returned has done: which
slots it emptied, where it left the head and what it returned, all in terms of
the state before the call and of the pins as the scan read them.
-/

namespace RingCache

open Transition

/-- An entry without its pin count. -/
def Entry.clearPins (entry : Entry) : Entry :=
  { entry with pins := 0 }

namespace RingBufferCache

/-! ## Reading and emptying slots -/

/-- The entry in the slot at `position`, if there is one. -/
def slotAt (cache : RingBufferCache) (position : Nat) : Option Entry :=
  cache.slots[position]?.join

/-- The cache once the slot at `position` has given up its entry. -/
def evictSlot (cache : RingBufferCache) (position : Nat) :
    RingBufferCache :=
  match cache.slotAt position with
  | none => cache
  | some entry =>
      { cache with
        usedSize := cache.usedSize - entry.size
        cacheMap := Function.update cache.cacheMap entry.key none
        slots := cache.slots.set position none }

/-- The cache once the slots at `positions` have given up their entries. -/
def withoutSlots (cache : RingBufferCache) (positions : List Nat) :
    RingBufferCache :=
  positions.foldl evictSlot cache

def moveHead (cache : RingBufferCache) (position : Nat) :
    RingBufferCache :=
  { cache with head := position }

/-- The cache with every pin count forgotten. -/
def clearPins (cache : RingBufferCache) : RingBufferCache :=
  { cache with
    slots := cache.slots.map fun slot => slot.map Entry.clearPins }

variable {cache current next : RingBufferCache}

theorem slotAt_eq_some_iff {position : Nat} {entry : Entry} :
    cache.slotAt position = some entry ↔
      cache.Resident position entry := by
  unfold slotAt Resident
  rw [Option.join_eq_some_iff]

theorem slotAt_eq_none_iff
    {position : Nat} (inside : position < cache.slots.length) :
    cache.slotAt position = none ↔
      cache.slots[position]? = some none := by
  unfold slotAt
  cases read : cache.slots[position]? with
  | none =>
      rw [List.getElem?_eq_none_iff] at read
      omega
  | some slot =>
      simp

theorem slotAt_clearPins (position : Nat) :
    cache.clearPins.slotAt position =
      (cache.slotAt position).map Entry.clearPins := by
  unfold slotAt clearPins
  rw [List.getElem?_map]
  cases cache.slots[position]? with
  | none =>
      rfl
  | some slot =>
      rfl

/-- Caches that differ in pins only have their entries in the same slots. -/
theorem isSome_slotAt_of_clearPins
    (same : current.clearPins = cache.clearPins) (position : Nat) :
    (current.slotAt position).isSome =
      (cache.slotAt position).isSome := by
  have read :
      (current.clearPins.slotAt position).isSome =
        (cache.clearPins.slotAt position).isSome := by
    rw [same]
  simpa only [slotAt_clearPins, Option.isSome_map] using read

theorem length_slots_of_clearPins
    (same : current.clearPins = cache.clearPins) :
    current.slots.length = cache.slots.length := by
  have lengths :
      current.clearPins.slots.length = cache.clearPins.slots.length := by
    rw [same]
  simpa [clearPins] using lengths

theorem clearPins_evictSlot (position : Nat) :
    (cache.evictSlot position).clearPins =
      cache.clearPins.evictSlot position := by
  unfold evictSlot
  rw [slotAt_clearPins]
  cases cache.slotAt position with
  | none =>
      rfl
  | some entry =>
      simp only [Option.map_some, clearPins, List.map_set, Option.map_none]
      rfl

theorem evictSlot_moveHead (position head : Nat) :
    (cache.moveHead head).evictSlot position =
      (cache.evictSlot position).moveHead head := by
  unfold evictSlot
  have read :
      (cache.moveHead head).slotAt position = cache.slotAt position :=
    rfl
  rw [read]
  cases cache.slotAt position with
  | none =>
      rfl
  | some entry =>
      rfl

/-- The scan empties the slot at the head. -/
theorem withoutHead_eq_evictSlot
    {entry : Entry} (resident : cache.Resident cache.head entry) :
    cache.withoutHead entry = cache.evictSlot cache.head := by
  unfold evictSlot
  rw [slotAt_eq_some_iff.mpr resident]
  rfl

theorem withoutSlots_append (first second : List Nat) :
    cache.withoutSlots (first ++ second) =
      (cache.withoutSlots first).withoutSlots second :=
  List.foldl_append

@[simp]
theorem withoutSlots_nil : cache.withoutSlots [] = cache :=
  rfl

@[simp]
theorem withoutSlots_cons (position : Nat) (rest : List Nat) :
    cache.withoutSlots (position :: rest) =
      (cache.evictSlot position).withoutSlots rest :=
  rfl

/-- Emptying slots changes neither the constants, nor the head, nor the
inflight responses. -/
structure SameFrame (left right : RingBufferCache) : Prop where
  capacity : left.capacity = right.capacity
  slotCount : left.slotCount = right.slotCount
  head : left.head = right.head
  inflightMap : left.inflightMap = right.inflightMap
  nextAddr : left.nextAddr = right.nextAddr
  slotsLength : left.slots.length = right.slots.length

theorem evictSlot_frame (cache : RingBufferCache) (position : Nat) :
    SameFrame (cache.evictSlot position) cache := by
  unfold evictSlot
  cases cache.slotAt position with
  | none =>
      exact ⟨rfl, rfl, rfl, rfl, rfl, rfl⟩
  | some entry =>
      exact ⟨rfl, rfl, rfl, rfl, rfl, by simp⟩

theorem withoutSlots_frame
    (cache : RingBufferCache) (positions : List Nat) :
    SameFrame (cache.withoutSlots positions) cache := by
  induction positions generalizing cache with
  | nil =>
      exact ⟨rfl, rfl, rfl, rfl, rfl, rfl⟩
  | cons position rest inductionHypothesis =>
      have later := inductionHypothesis (cache.evictSlot position)
      have first := evictSlot_frame cache position
      exact
        { capacity := later.capacity.trans first.capacity
          slotCount := later.slotCount.trans first.slotCount
          head := later.head.trans first.head
          inflightMap := later.inflightMap.trans first.inflightMap
          nextAddr := later.nextAddr.trans first.nextAddr
          slotsLength := later.slotsLength.trans first.slotsLength }

theorem slotAt_evictSlot (position read : Nat) :
    (cache.evictSlot position).slotAt read =
      if read = position then none else cache.slotAt read := by
  unfold evictSlot
  cases occupied : cache.slotAt position with
  | none =>
      by_cases same : read = position
      · rw [if_pos same, same]
        exact occupied
      · rw [if_neg same]
  | some entry =>
      have resident := slotAt_eq_some_iff.mp occupied
      have emptied :=
        Table.getElem?_set_of_some resident none read
      unfold slotAt
      simp only [emptied]
      by_cases same : read = position
      · rw [if_pos same, if_pos same]
        rfl
      · rw [if_neg same, if_neg same]

theorem slotAt_withoutSlots (positions : List Nat) (read : Nat) :
    (cache.withoutSlots positions).slotAt read =
      if read ∈ positions then none else cache.slotAt read := by
  induction positions generalizing cache with
  | nil =>
      simp
  | cons position rest inductionHypothesis =>
      rw [withoutSlots_cons, inductionHypothesis, slotAt_evictSlot]
      by_cases later : read ∈ rest
      · simp [later]
      · by_cases same : read = position
        · simp [same]
        · simp [later, same]

/-! ## The account while slots are emptied -/

/-- `used_size_` is the sum of the resident sizes and within the capacity. -/
structure Accounted (cache : RingBufferCache) : Prop where
  sum : cache.usedSize.toNat = cache.residentSize
  bounded : cache.usedSize.toNat ≤ cache.capacity.toNat

/-- Emptying a slot frees exactly the bytes it accounts for. -/
theorem Accounted.usedSize_evictSlot
    (accounted : cache.Accounted) (position : Nat) :
    (cache.evictSlot position).usedSize.toNat +
        slotSize (cache.slotAt position) =
      cache.usedSize.toNat := by
  unfold evictSlot
  cases occupied : cache.slotAt position with
  | none =>
      simp [slotSize]
  | some entry =>
      have resident := slotAt_eq_some_iff.mp occupied
      have sizeBound : entry.size.toNat ≤ cache.usedSize.toNat := by
        rw [accounted.sum]
        exact Table.le_sum_map slotSize resident
      change
        (cache.usedSize - entry.size).toNat + entry.size.toNat =
          cache.usedSize.toNat
      rw [UInt64.toNat_sub_of_le _ _
        (UInt64.le_iff_toNat_le.mpr sizeBound)]
      omega

theorem residentSize_evictSlot (cache : RingBufferCache) (position : Nat) :
    (cache.evictSlot position).residentSize +
        slotSize (cache.slotAt position) =
      cache.residentSize := by
  unfold evictSlot
  cases occupied : cache.slotAt position with
  | none =>
      simp [slotSize]
  | some entry =>
      have resident := slotAt_eq_some_iff.mp occupied
      have total :=
        Table.sum_map_set slotSize (none : Option Entry) resident
      simp only [slotSize, residentSize] at total ⊢
      omega

theorem Accounted.evictSlot
    (accounted : cache.Accounted) (position : Nat) :
    (cache.evictSlot position).Accounted := by
  have used := accounted.usedSize_evictSlot position
  have resident := residentSize_evictSlot cache position
  have sum := accounted.sum
  have bounded := accounted.bounded
  refine { sum := ?_, bounded := ?_ }
  · omega
  · rw [(evictSlot_frame cache position).capacity]
    omega

theorem Accounted.withoutSlots
    (accounted : cache.Accounted) (positions : List Nat) :
    (cache.withoutSlots positions).Accounted := by
  induction positions generalizing cache with
  | nil =>
      exact accounted
  | cons position rest inductionHypothesis =>
      exact inductionHypothesis (accounted.evictSlot position)

theorem Accounted.usedSize_withoutSlots_le
    (accounted : cache.Accounted) (positions : List Nat) :
    (cache.withoutSlots positions).usedSize.toNat ≤
      cache.usedSize.toNat := by
  induction positions generalizing cache with
  | nil =>
      exact Nat.le_refl _
  | cons position rest inductionHypothesis =>
      have later := inductionHypothesis (accounted.evictSlot position)
      have first := accounted.usedSize_evictSlot position
      rw [withoutSlots_cons]
      omega

/-- Emptying the slots at `positions` leaves room for `sizeNeeded` bytes. -/
def MakesRoom
    (cache : RingBufferCache) (sizeNeeded : UInt64)
    (positions : List Nat) : Prop :=
  (cache.withoutSlots positions).usedSize.toNat + sizeNeeded.toNat ≤
    cache.capacity.toNat

instance (sizeNeeded : UInt64) (positions : List Nat) :
    Decidable (cache.MakesRoom sizeNeeded positions) :=
  inferInstanceAs (Decidable (_ ≤ _))

/-- Emptying more slots keeps the room that has been made. -/
theorem MakesRoom.of_initial
    {sizeNeeded : UInt64} (accounted : cache.Accounted)
    {shorter longer : List Nat} (initial : shorter <+: longer)
    (room : cache.MakesRoom sizeNeeded shorter) :
    cache.MakesRoom sizeNeeded longer := by
  obtain ⟨rest, rfl⟩ := initial
  unfold MakesRoom at room ⊢
  rw [withoutSlots_append]
  have fewer :=
    (accounted.withoutSlots shorter).usedSize_withoutSlots_le rest
  omega

/-! ## The cache during a scan -/

/-- `current` is `cache` with the slots at `evicted` emptied, the head at
`head` and any pins. -/
def Emptied
    (cache : RingBufferCache) (evicted : List Nat) (head : Nat)
    (current : RingBufferCache) : Prop :=
  current.clearPins =
    ((cache.withoutSlots evicted).moveHead head).clearPins

namespace Emptied

variable {evicted : List Nat} {head : Nat}

theorem head_eq (emptied : cache.Emptied evicted head current) :
    current.head = head :=
  congrArg RingBufferCache.head emptied

theorem slotCount_eq (emptied : cache.Emptied evicted head current) :
    current.slotCount = cache.slotCount := by
  have same :
      current.clearPins.slotCount =
        ((cache.withoutSlots evicted).moveHead head).clearPins.slotCount :=
    congrArg RingBufferCache.slotCount emptied
  exact same.trans (withoutSlots_frame cache evicted).slotCount

theorem length_slots (emptied : cache.Emptied evicted head current) :
    current.slots.length = cache.slots.length := by
  rw [length_slots_of_clearPins emptied]
  exact (withoutSlots_frame cache evicted).slotsLength

theorem isSome_slotAt
    (emptied : cache.Emptied evicted head current) (position : Nat) :
    (current.slotAt position).isSome =
      ((cache.withoutSlots evicted).slotAt position).isSome :=
  isSome_slotAt_of_clearPins emptied position

theorem freeSize_lt_iff
    (accounted : cache.Accounted)
    (emptied : cache.Emptied evicted head current)
    (sizeNeeded : UInt64) :
    current.freeSize < sizeNeeded ↔
      ¬ cache.MakesRoom sizeNeeded evicted := by
  have frame := withoutSlots_frame cache evicted
  have bounded := (accounted.withoutSlots evicted).bounded
  have capacityEq :
      current.clearPins.capacity =
        ((cache.withoutSlots evicted).moveHead head).clearPins.capacity :=
    congrArg RingBufferCache.capacity emptied
  have usedSizeEq :
      current.clearPins.usedSize =
        ((cache.withoutSlots evicted).moveHead head).clearPins.usedSize :=
    congrArg RingBufferCache.usedSize emptied
  change current.capacity = (cache.withoutSlots evicted).capacity at capacityEq
  change current.usedSize = (cache.withoutSlots evicted).usedSize at usedSizeEq
  rw [frame.capacity] at capacityEq
  rw [frame.capacity] at bounded
  rw [freeSize_lt_iff_of_le]
  · unfold MakesRoom
    rw [usedSizeEq, capacityEq]
    omega
  · rw [usedSizeEq, capacityEq]
    exact bounded

theorem interfere
    (emptied : cache.Emptied evicted head current)
    (onlyPins : next.clearPins = current.clearPins) :
    cache.Emptied evicted head next :=
  onlyPins.trans emptied

theorem advanceHead (emptied : cache.Emptied evicted head current) :
    cache.Emptied evicted ((head + 1) % cache.slotCount)
      current.advanceHead := by
  have moved :
      current.advanceHead.clearPins =
        current.clearPins.moveHead
          ((current.head + 1) % current.slotCount) :=
    rfl
  unfold Emptied
  rw [moved, emptied.head_eq, emptied.slotCount_eq, emptied]
  rfl

theorem evict
    (emptied : cache.Emptied evicted head current)
    {entry : Entry} (resident : current.Resident current.head entry) :
    cache.Emptied (evicted ++ [head]) head (current.withoutHead entry) := by
  unfold Emptied
  rw [withoutHead_eq_evictSlot resident, clearPins_evictSlot,
    emptied.head_eq, emptied, ← clearPins_evictSlot, evictSlot_moveHead,
    withoutSlots_append]
  rfl

end Emptied

/-! ## A call up to one of its iterations -/

/-- The load of `pins_` in one iteration: the slot whose entry is read, and
whether the entry is pinned then. -/
def pinReads (cache : RingBufferCache) (sizeNeeded : UInt64) :
    ScanPoint → List (Nat × Bool)
  | .evicting _ =>
      if cache.freeSize < sizeNeeded then
        match cache.slotAt cache.head with
        | none => []
        | some entry => [(cache.head, decide (entry.pins ≠ 0))]
      else
        []
  | .seeking _ => []
  | .returned _ => []

/-- A call of `evictTillCapacityLocked` on `cache` that has made a number of
iterations and of loads of `pins_`, and the cache and the point it has come
to.  Between iterations other threads may change pins in any way. -/
inductive ScanRun (cache : RingBufferCache) (sizeNeeded : UInt64) :
    Nat → List (Nat × Bool) → RingBufferCache → ScanPoint → Prop
  | enter :
      ScanRun cache sizeNeeded 0 [] cache (cache.enterScan sizeNeeded)
  | iterate
      {iterations : Nat} {reads : List (Nat × Bool)}
      {current next : RingBufferCache} {point nextPoint : ScanPoint} :
      ScanRun cache sizeNeeded iterations reads current point →
      current.scanIteration sizeNeeded point = .ok (next, nextPoint) →
      ScanRun cache sizeNeeded (iterations + 1)
        (reads ++ current.pinReads sizeNeeded point) next nextPoint
  | interfere
      {iterations : Nat} {reads : List (Nat × Bool)}
      {current next : RingBufferCache} {point : ScanPoint} :
      ScanRun cache sizeNeeded iterations reads current point →
      next.clearPins = current.clearPins →
      ScanRun cache sizeNeeded iterations reads next point

/-- The slots that were read as not pinned. -/
def evictedBy (reads : List (Nat × Bool)) : List Nat :=
  (reads.filter fun read => !read.2).map Prod.fst

theorem evictedBy_append (first second : List (Nat × Bool)) :
    evictedBy (first ++ second) = evictedBy first ++ evictedBy second := by
  simp [evictedBy]

theorem evictedBy_subset
    {reads : List (Nat × Bool)} {position : Nat}
    (member : position ∈ evictedBy reads) :
    position ∈ reads.map Prod.fst := by
  simp only [evictedBy, List.mem_map, List.mem_filter] at member
  obtain ⟨read, ⟨readMember, _⟩, same⟩ := member
  exact List.mem_map.mpr ⟨read, readMember, same⟩

/-- The first loop has left behind the first `scanned` slots from the head of
`cache` and read the occupied ones among them.  If there is room now, the last
slot it left behind has made it. -/
structure Scanned
    (cache : RingBufferCache) (sizeNeeded : UInt64)
    (reads : List (Nat × Bool)) (scanned : Nat) : Prop where
  bound : scanned ≤ cache.slotCount
  positions :
    reads.map Prod.fst =
      ((Ring.order cache.slotCount cache.head).take scanned).filter
        fun position => (cache.slotAt position).isSome
  resumed :
    cache.MakesRoom sizeNeeded (evictedBy reads) →
      scanned = 0 ∨
        ∃ earlier last,
          evictedBy reads = earlier ++ [last] ∧
            ¬ cache.MakesRoom sizeNeeded earlier ∧
              (cache.head + scanned) % cache.slotCount =
                (last + 1) % cache.slotCount

namespace Scanned

variable {sizeNeeded : UInt64} {reads : List (Nat × Bool)} {scanned : Nat}

theorem nodup (scan : cache.Scanned sizeNeeded reads scanned) :
    (reads.map Prod.fst).Nodup := by
  rw [scan.positions]
  exact (Ring.nodup_order.sublist (List.take_sublist _ _)).filter _

theorem unread (scan : cache.Scanned sizeNeeded reads 0) : reads = [] := by
  have positions := scan.positions
  simpa using positions

/-- The slot after those left behind has not been read. -/
theorem fresh
    (scan : cache.Scanned sizeNeeded reads scanned)
    (inside : scanned < cache.slotCount) :
    (cache.head + scanned) % cache.slotCount ∉ evictedBy reads := by
  intro member
  have read := evictedBy_subset member
  rw [scan.positions, List.mem_filter] at read
  have distinct :
      ((Ring.order cache.slotCount cache.head).take
        (scanned + 1)).Nodup :=
    Ring.nodup_order.sublist (List.take_sublist _ _)
  rw [Ring.take_succ_order inside, List.nodup_append] at distinct
  exact distinct.2.2 _ read.1 _ (by simp) rfl

/-- One more slot is left behind, read if it is occupied. -/
theorem oneMore
    (scan : cache.Scanned sizeNeeded reads scanned)
    (lacking : ¬ cache.MakesRoom sizeNeeded (evictedBy reads))
    (inside : scanned < cache.slotCount)
    {position : Nat}
    (here : position = (cache.head + scanned) % cache.slotCount)
    {added : List (Nat × Bool)}
    (readHere :
      (cache.slotAt position = none ∧ added = []) ∨
        ∃ pinned,
          (cache.slotAt position).isSome = true ∧
            added = [(position, pinned)]) :
    cache.Scanned sizeNeeded (reads ++ added) (scanned + 1) := by
  refine
    { bound := inside
      positions := ?_
      resumed := ?_ }
  · rw [List.map_append, scan.positions, Ring.take_succ_order inside,
      List.filter_append, ← here]
    rcases readHere with ⟨vacant, rfl⟩ | ⟨pinned, occupied, rfl⟩
    · simp [vacant]
    · simp [occupied]
  · intro room
    rw [evictedBy_append] at room ⊢
    rcases readHere with ⟨_, rfl⟩ | ⟨pinned, _, rfl⟩
    · rw [show evictedBy [] = [] from rfl, List.append_nil] at room
      exact absurd room lacking
    · cases pinned with
      | true =>
          rw [show evictedBy [(position, true)] = [] from rfl,
            List.append_nil] at room
          exact absurd room lacking
      | false =>
          refine Or.inr ⟨evictedBy reads, position, rfl, lacking, ?_⟩
          rw [here, Nat.mod_add_mod, Nat.add_assoc]

end Scanned

/-- The first free slot in ring order from `start`. -/
def firstFree (cache : RingBufferCache) (start : Nat) : Option Nat :=
  (Ring.order cache.slotCount start).find? fun position =>
    (cache.slotAt position).isNone

/-- The first loop cannot fail at a slot of the ring. -/
theorem tryEvictHead_total (inside : cache.head < cache.slots.length) :
    ∃ evicted, cache.tryEvictHead = .ok evicted := by
  cases read : cache.slotAt cache.head with
  | none =>
      have vacant := (slotAt_eq_none_iff inside).mp read
      exact ⟨_, tryEvictHead_eq_ok_iff.mpr (Or.inl ⟨vacant, rfl⟩)⟩
  | some entry =>
      have resident := slotAt_eq_some_iff.mp read
      by_cases unpinned : entry.pins = 0
      · exact
          ⟨_, tryEvictHead_eq_ok_iff.mpr
            (Or.inr (Or.inr ⟨entry, resident, unpinned, rfl⟩))⟩
      · exact
          ⟨_, tryEvictHead_eq_ok_iff.mpr
            (Or.inr (Or.inl ⟨entry, resident, unpinned, rfl⟩))⟩

/-- An iteration with the head in the ring does not fail. -/
theorem scanIteration_total
    (inside : cache.head < cache.slots.length)
    {sizeNeeded : UInt64} {point : ScanPoint}
    (running : ∀ result, point ≠ .returned result) :
    ∃ next nextPoint,
      cache.scanIteration sizeNeeded point = .ok (next, nextPoint) := by
  cases point with
  | evicting start =>
      by_cases short : cache.freeSize < sizeNeeded
      · obtain ⟨evicted, tried⟩ := tryEvictHead_total inside
        exact
          ⟨_, _, scanIteration_evicting_eq_ok_iff.mpr
            (Or.inr ⟨short, evicted, tried, rfl, rfl⟩)⟩
      · exact
          ⟨_, _, scanIteration_evicting_eq_ok_iff.mpr
            (Or.inl ⟨short, rfl, rfl⟩)⟩
  | seeking startSlot =>
      cases read : cache.slotAt cache.head with
      | none =>
          have vacant := (slotAt_eq_none_iff inside).mp read
          exact
            ⟨_, _, scanIteration_seeking_eq_ok_iff.mpr
              (Or.inl ⟨vacant, rfl, rfl⟩)⟩
      | some entry =>
          have resident := slotAt_eq_some_iff.mp read
          exact
            ⟨_, _, scanIteration_seeking_eq_ok_iff.mpr
              (Or.inr ⟨⟨entry, resident⟩, rfl, rfl⟩)⟩
  | returned result =>
      exact absurd rfl (running result)

/-- How far a call has come after a number of iterations. -/
inductive Progress
    (cache : RingBufferCache) (sizeNeeded : UInt64)
    (reads : List (Nat × Bool)) (current : RingBufferCache) :
    Nat → ScanPoint → Prop
  | evicting
      {scanned : Nat}
      (fits : sizeNeeded ≤ cache.capacity)
      (scan : cache.Scanned sizeNeeded reads scanned)
      (emptied :
        cache.Emptied (evictedBy reads)
          ((cache.head + scanned) % cache.slotCount) current)
      (unfinished :
        cache.MakesRoom sizeNeeded (evictedBy reads) ∨
          scanned < cache.slotCount) :
      Progress cache sizeNeeded reads current scanned
        (.evicting cache.head)
  | seeking
      {scanned passed startSlot : Nat}
      (fits : sizeNeeded ≤ cache.capacity)
      (scan : cache.Scanned sizeNeeded reads scanned)
      (room : cache.MakesRoom sizeNeeded (evictedBy reads))
      (start : startSlot = (cache.head + scanned) % cache.slotCount)
      (inside : passed < cache.slotCount)
      (emptied :
        cache.Emptied (evictedBy reads)
          ((startSlot + passed) % cache.slotCount) current)
      (occupied :
        ∀ offset, offset < passed →
          ((cache.withoutSlots (evictedBy reads)).slotAt
            ((startSlot + offset) % cache.slotCount)).isSome = true) :
      Progress cache sizeNeeded reads current (scanned + 1 + passed)
        (.seeking startSlot)
  | found
      {iterations scanned free : Nat}
      (fits : sizeNeeded ≤ cache.capacity)
      (scan : cache.Scanned sizeNeeded reads scanned)
      (room : cache.MakesRoom sizeNeeded (evictedBy reads))
      (first :
        (cache.withoutSlots (evictedBy reads)).firstFree
            ((cache.head + scanned) % cache.slotCount) =
          some free)
      (emptied : cache.Emptied (evictedBy reads) free current)
      (bound : iterations ≤ 2 * cache.slotCount + 1) :
      Progress cache sizeNeeded reads current iterations (.returned true)
  | tooLarge
      (large : cache.capacity < sizeNeeded)
      (unread : reads = [])
      (emptied : cache.Emptied [] cache.head current) :
      Progress cache sizeNeeded reads current 0 (.returned false)
  | lost
      {iterations : Nat}
      (fits : sizeNeeded ≤ cache.capacity)
      (scan : cache.Scanned sizeNeeded reads cache.slotCount)
      (lacking : ¬ cache.MakesRoom sizeNeeded (evictedBy reads))
      (emptied : cache.Emptied (evictedBy reads) cache.head current)
      (bound : iterations ≤ 2 * cache.slotCount + 1) :
      Progress cache sizeNeeded reads current iterations (.returned false)
  | full
      {iterations : Nat}
      (room : cache.MakesRoom sizeNeeded [])
      (unread : reads = [])
      (occupied :
        ∀ position, position < cache.slotCount →
          (cache.slotAt position).isSome = true)
      (emptied : cache.Emptied [] cache.head current)
      (bound : iterations ≤ 2 * cache.slotCount + 1) :
      Progress cache sizeNeeded reads current iterations (.returned false)

namespace Progress

variable {sizeNeeded : UInt64} {reads : List (Nat × Bool)}
variable {iterations : Nat} {point nextPoint : ScanPoint}

theorem enter (headBound : cache.head < cache.slotCount) :
    Progress cache sizeNeeded [] cache 0 (cache.enterScan sizeNeeded) := by
  have unmoved : cache.Emptied [] cache.head cache := rfl
  unfold enterScan
  by_cases large : cache.capacity < sizeNeeded
  · rw [if_pos large]
    exact .tooLarge large rfl unmoved
  · rw [if_neg large]
    have nothing : cache.Scanned sizeNeeded [] 0 :=
      { bound := Nat.zero_le _
        positions := by simp
        resumed := fun _ => Or.inl rfl }
    refine .evicting (UInt64.not_lt.mp large) nothing ?_ (Or.inr ?_)
    · rw [Nat.add_zero, Nat.mod_eq_of_lt headBound]
      exact unmoved
    · exact Nat.zero_lt_of_lt headBound

theorem interfere
    (progress : Progress cache sizeNeeded reads current iterations point)
    (onlyPins : next.clearPins = current.clearPins) :
    Progress cache sizeNeeded reads next iterations point := by
  cases progress with
  | evicting fits scan emptied unfinished =>
      exact .evicting fits scan (emptied.interfere onlyPins) unfinished
  | seeking fits scan room start inside emptied occupied =>
      exact
        .seeking fits scan room start inside
          (emptied.interfere onlyPins) occupied
  | found fits scan room first emptied bound =>
      exact
        .found fits scan room first (emptied.interfere onlyPins) bound
  | tooLarge large unread emptied =>
      exact .tooLarge large unread (emptied.interfere onlyPins)
  | lost fits scan lacking emptied bound =>
      exact .lost fits scan lacking (emptied.interfere onlyPins) bound
  | full room unread occupied emptied bound =>
      exact
        .full room unread occupied (emptied.interfere onlyPins) bound

/-- What the first loop does with the slot at the head: the entry there is
read, and evicted if it is not pinned. -/
theorem tryEvictHead_emptied
    {position : Nat} {evicted : RingBufferCache} (start : Nat)
    (slotsLength : cache.slots.length = cache.slotCount)
    (positionBound : position < cache.slotCount)
    (emptied : cache.Emptied (evictedBy reads) position current)
    (fresh : position ∉ evictedBy reads)
    (short : current.freeSize < sizeNeeded)
    (tried : current.tryEvictHead = .ok evicted) :
    ((cache.slotAt position = none ∧
          current.pinReads sizeNeeded (.evicting start) = []) ∨
        ∃ pinned,
          (cache.slotAt position).isSome = true ∧
            current.pinReads sizeNeeded (.evicting start) =
              [(position, pinned)]) ∧
      cache.Emptied
        (evictedBy
          (reads ++ current.pinReads sizeNeeded (.evicting start)))
        position evicted := by
  have headEq := emptied.head_eq
  have sameSlot :
      (current.slotAt position).isSome =
        (cache.slotAt position).isSome := by
    rw [emptied.isSome_slotAt, slotAt_withoutSlots, if_neg fresh]
  have inside : current.head < current.slots.length := by
    rw [emptied.length_slots, slotsLength, headEq]
    exact positionBound
  unfold pinReads
  rw [if_pos short]
  rcases tryEvictHead_eq_ok_iff.mp tried with
    ⟨vacant, rfl⟩ | ⟨entry, resident, pinned, rfl⟩ |
      ⟨entry, resident, unpinned, rfl⟩
  · have read := (slotAt_eq_none_iff inside).mpr vacant
    rw [read]
    rw [headEq] at read
    rw [read] at sameSlot
    refine ⟨Or.inl ⟨?_, rfl⟩, ?_⟩
    · simpa using sameSlot.symm
    · simpa using emptied
  · have read := slotAt_eq_some_iff.mpr resident
    rw [read]
    rw [headEq] at read
    rw [read] at sameSlot
    have pinnedRead : decide (entry.pins ≠ 0) = true := by
      simpa using pinned
    simp only [pinnedRead, headEq]
    refine ⟨Or.inr ⟨true, sameSlot.symm, rfl⟩, ?_⟩
    have kept :
        evictedBy (reads ++ [(position, true)]) = evictedBy reads := by
      simp [evictedBy]
    rw [kept]
    exact emptied
  · have read := slotAt_eq_some_iff.mpr resident
    rw [read]
    rw [headEq] at read
    rw [read] at sameSlot
    have unpinnedRead : decide (entry.pins ≠ 0) = false := by
      simpa using unpinned
    simp only [unpinnedRead, headEq]
    refine ⟨Or.inr ⟨false, sameSlot.symm, rfl⟩, ?_⟩
    have freed :
        evictedBy (reads ++ [(position, false)]) =
          evictedBy reads ++ [position] := by
      simp [evictedBy]
    rw [freed]
    exact emptied.evict resident

/-- An iteration of the first loop. -/
theorem evictingIteration
    {scanned : Nat}
    (slotsLength : cache.slots.length = cache.slotCount)
    (headBound : cache.head < cache.slotCount)
    (accounted : cache.Accounted)
    (fits : sizeNeeded ≤ cache.capacity)
    (scan : cache.Scanned sizeNeeded reads scanned)
    (emptied :
      cache.Emptied (evictedBy reads)
        ((cache.head + scanned) % cache.slotCount) current)
    (unfinished :
      cache.MakesRoom sizeNeeded (evictedBy reads) ∨
        scanned < cache.slotCount)
    (iterated :
      current.scanIteration sizeNeeded (.evicting cache.head) =
        .ok (next, nextPoint)) :
    Progress cache sizeNeeded
      (reads ++ current.pinReads sizeNeeded (.evicting cache.head))
      next (scanned + 1) nextPoint := by
  have positive : 0 < cache.slotCount := Nat.zero_lt_of_lt headBound
  have positionBound :
      (cache.head + scanned) % cache.slotCount < cache.slotCount :=
    Nat.mod_lt _ positive
  rcases scanIteration_evicting_eq_ok_iff.mp iterated with
    ⟨enough, rfl, rfl⟩ | ⟨short, evicted, tried, rfl, rfl⟩
  · have room : cache.MakesRoom sizeNeeded (evictedBy reads) := by
      rw [emptied.freeSize_lt_iff accounted] at enough
      exact Decidable.not_not.mp enough
    have unread : next.pinReads sizeNeeded (.evicting cache.head) = [] := by
      unfold pinReads
      rw [if_neg enough]
    rw [unread, List.append_nil, emptied.head_eq]
    refine .seeking fits scan room rfl positive ?_ ?_
    · rw [Nat.add_zero, Nat.mod_mod]
      exact emptied
    · intro offset before
      exact absurd before (Nat.not_lt_zero _)
  · have lacking := (emptied.freeSize_lt_iff accounted _).mp short
    have inside : scanned < cache.slotCount :=
      unfinished.resolve_left lacking
    obtain ⟨readHere, evictedEmptied⟩ :=
      tryEvictHead_emptied cache.head slotsLength positionBound emptied
        (scan.fresh inside) short tried
    have further := scan.oneMore lacking inside rfl readHere
    have advanced := evictedEmptied.advanceHead
    have position :
        ((cache.head + scanned) % cache.slotCount + 1) %
            cache.slotCount =
          (cache.head + (scanned + 1)) % cache.slotCount := by
      rw [Nat.mod_add_mod, Nat.add_assoc]
    rw [position] at advanced
    have lostIff :
        cache.head = evicted.advanceHead.head ∧
            evicted.advanceHead.freeSize < sizeNeeded ↔
          cache.head = (cache.head + (scanned + 1)) % cache.slotCount ∧
            ¬ cache.MakesRoom sizeNeeded
              (evictedBy
                (reads ++
                  current.pinReads sizeNeeded
                    (.evicting cache.head))) := by
      rw [advanced.head_eq, advanced.freeSize_lt_iff accounted]
    split
    · next gaveUp =>
        obtain ⟨atStart, stillLacking⟩ := lostIff.mp gaveUp
        have circle : scanned + 1 = cache.slotCount :=
          (Ring.back_at_start_iff headBound inside).mp atStart.symm
        rw [circle] at further
        rw [← atStart] at advanced
        exact .lost fits further stillLacking advanced (by omega)
    · next goesOn =>
        refine .evicting fits further advanced ?_
        rw [lostIff, not_and_or, Decidable.not_not] at goesOn
        rcases goesOn with elsewhere | room
        · refine Or.inr ?_
          by_contra complete
          have circle : scanned + 1 = cache.slotCount := by omega
          apply elsewhere
          exact
            ((Ring.back_at_start_iff headBound inside).mpr circle).symm
        · exact Or.inl room

/-- If every slot is occupied once the slots read as not pinned have been
emptied, then none was read. -/
theorem unread_of_occupied
    {scanned : Nat}
    (scan : cache.Scanned sizeNeeded reads scanned)
    (room : cache.MakesRoom sizeNeeded (evictedBy reads))
    (occupied :
      ∀ position, position < cache.slotCount →
        ((cache.withoutSlots (evictedBy reads)).slotAt
          position).isSome = true) :
    scanned = 0 ∧ reads = [] := by
  rcases scan.resumed room with none | ⟨earlier, last, evictedEq, _, _⟩
  · rw [none] at scan
    exact ⟨none, scan.unread⟩
  · have member : last ∈ evictedBy reads := by
      rw [evictedEq]
      simp
    have read := evictedBy_subset member
    rw [scan.positions, List.mem_filter] at read
    have lastBound : last < cache.slotCount :=
      Ring.lt_of_mem_order (List.mem_of_mem_take read.1)
    have emptySlot := occupied last lastBound
    rw [slotAt_withoutSlots, if_pos member] at emptySlot
    simp at emptySlot

/-- An iteration of the second loop. -/
theorem seekingIteration
    {scanned passed startSlot : Nat}
    (slotsLength : cache.slots.length = cache.slotCount)
    (headBound : cache.head < cache.slotCount)
    (fits : sizeNeeded ≤ cache.capacity)
    (scan : cache.Scanned sizeNeeded reads scanned)
    (room : cache.MakesRoom sizeNeeded (evictedBy reads))
    (start : startSlot = (cache.head + scanned) % cache.slotCount)
    (inside : passed < cache.slotCount)
    (emptied :
      cache.Emptied (evictedBy reads)
        ((startSlot + passed) % cache.slotCount) current)
    (occupied :
      ∀ offset, offset < passed →
        ((cache.withoutSlots (evictedBy reads)).slotAt
          ((startSlot + offset) % cache.slotCount)).isSome = true)
    (iterated :
      current.scanIteration sizeNeeded (.seeking startSlot) =
        .ok (next, nextPoint)) :
    Progress cache sizeNeeded reads next (scanned + 1 + passed + 1)
      nextPoint := by
  have positive : 0 < cache.slotCount := Nat.zero_lt_of_lt headBound
  have scanBound := scan.bound
  have headEq := emptied.head_eq
  have headSlot := emptied.isSome_slotAt current.head
  have headInside : current.head < current.slots.length := by
    rw [emptied.length_slots, slotsLength, headEq]
    exact Nat.mod_lt _ positive
  rcases scanIteration_seeking_eq_ok_iff.mp iterated with
    ⟨vacant, rfl, rfl⟩ | ⟨⟨entry, resident⟩, rfl, rfl⟩
  · rw [(slotAt_eq_none_iff headInside).mpr vacant, headEq] at headSlot
    refine .found fits scan room ?_ emptied (by omega)
    rw [← start]
    unfold firstFree
    rw [(withoutSlots_frame cache (evictedBy reads)).slotCount]
    refine Ring.find?_order_eq_some inside ?_ ?_
    · intro offset before
      rw [← Option.not_isSome, occupied offset before]
      rfl
    · rw [← Option.not_isSome, ← headSlot]
      rfl
  · rw [slotAt_eq_some_iff.mpr resident, headEq] at headSlot
    have passedOccupied :
        ∀ offset, offset < passed + 1 →
          ((cache.withoutSlots (evictedBy reads)).slotAt
            ((startSlot + offset) % cache.slotCount)).isSome =
              true := by
      intro offset before
      by_cases earlier : offset < passed
      · exact occupied offset earlier
      · have here : offset = passed := by omega
        rw [here, ← headSlot]
        rfl
    have advanced := emptied.advanceHead
    rw [Nat.mod_add_mod, Nat.add_assoc] at advanced
    rw [advanced.head_eq]
    have startBound : startSlot < cache.slotCount := by
      rw [start]
      exact Nat.mod_lt _ positive
    split
    · next wrapped =>
        have circle : passed + 1 = cache.slotCount :=
          (Ring.back_at_start_iff startBound inside).mp wrapped
        have everywhere :
            ∀ position, position < cache.slotCount →
              ((cache.withoutSlots (evictedBy reads)).slotAt
                position).isSome = true := by
          intro position positionBound
          obtain ⟨offset, offsetBound, rfl⟩ :=
            Ring.exists_offset startSlot positionBound
          exact passedOccupied offset (by omega)
        obtain ⟨unscanned, unread⟩ :=
          unread_of_occupied scan room everywhere
        have atHead : startSlot = cache.head := by
          rw [start, unscanned, Nat.add_zero,
            Nat.mod_eq_of_lt headBound]
        rw [wrapped, atHead] at advanced
        rw [unread] at room everywhere advanced
        exact .full room unread everywhere advanced (by omega)
    · next goesOn =>
        refine
          .seeking fits scan room start ?_ advanced passedOccupied
        by_contra complete
        have circle : passed + 1 = cache.slotCount := by omega
        apply goesOn
        exact (Ring.back_at_start_iff startBound inside).mpr circle

/-- Every iteration carries the call further. -/
theorem iterate
    (slotsLength : cache.slots.length = cache.slotCount)
    (headBound : cache.head < cache.slotCount)
    (accounted : cache.Accounted)
    (progress : Progress cache sizeNeeded reads current iterations point)
    (iterated :
      current.scanIteration sizeNeeded point = .ok (next, nextPoint)) :
    Progress cache sizeNeeded
      (reads ++ current.pinReads sizeNeeded point)
      next (iterations + 1) nextPoint := by
  cases progress with
  | evicting fits scan emptied unfinished =>
      exact
        evictingIteration slotsLength headBound accounted fits scan
          emptied unfinished iterated
  | seeking fits scan room start inside emptied occupied =>
      rw [pinReads, List.append_nil]
      exact
        seekingIteration slotsLength headBound fits scan room start
          inside emptied occupied iterated
  | found =>
      simp [scanIteration] at iterated
  | tooLarge =>
      simp [scanIteration] at iterated
  | lost =>
      simp [scanIteration] at iterated
  | full =>
      simp [scanIteration] at iterated

/-- A call that has not returned can make its next iteration. -/
theorem iterates
    (slotsLength : cache.slots.length = cache.slotCount)
    (headBound : cache.head < cache.slotCount)
    (progress : Progress cache sizeNeeded reads current iterations point)
    (running : ∀ result, point ≠ .returned result) :
    ∃ next nextPoint,
      current.scanIteration sizeNeeded point = .ok (next, nextPoint) := by
  have positive : 0 < cache.slotCount := Nat.zero_lt_of_lt headBound
  refine scanIteration_total ?_ running
  cases progress with
  | evicting _ _ emptied =>
      rw [emptied.length_slots, slotsLength, emptied.head_eq]
      exact Nat.mod_lt _ positive
  | seeking _ _ _ _ _ emptied =>
      rw [emptied.length_slots, slotsLength, emptied.head_eq]
      exact Nat.mod_lt _ positive
  | found =>
      exact absurd rfl (running _)
  | tooLarge =>
      exact absurd rfl (running _)
  | lost =>
      exact absurd rfl (running _)
  | full =>
      exact absurd rfl (running _)

theorem nodup
    (progress : Progress cache sizeNeeded reads current iterations point) :
    (reads.map Prod.fst).Nodup := by
  cases progress with
  | evicting _ scan =>
      exact scan.nodup
  | seeking _ scan =>
      exact scan.nodup
  | found _ scan =>
      exact scan.nodup
  | tooLarge _ unread =>
      simp [unread]
  | lost _ scan =>
      exact scan.nodup
  | full _ unread =>
      simp [unread]

theorem iterations_le
    (progress : Progress cache sizeNeeded reads current iterations point) :
    iterations ≤ 2 * cache.slotCount + 1 := by
  cases progress with
  | evicting _ scan =>
      have bound := scan.bound
      omega
  | seeking _ scan _ _ inside =>
      have bound := scan.bound
      omega
  | found _ _ _ _ _ bound =>
      exact bound
  | tooLarge =>
      exact Nat.zero_le _
  | lost _ _ _ _ bound =>
      exact bound
  | full _ _ _ _ bound =>
      exact bound

end Progress

/-- The state of a call after any number of its iterations. -/
theorem ScanRun.progress
    {sizeNeeded : UInt64} {iterations : Nat}
    {reads : List (Nat × Bool)} {point : ScanPoint}
    (slotsLength : cache.slots.length = cache.slotCount)
    (headBound : cache.head < cache.slotCount)
    (accounted : cache.Accounted)
    (run : cache.ScanRun sizeNeeded iterations reads current point) :
    Progress cache sizeNeeded reads current iterations point := by
  induction run with
  | enter =>
      exact Progress.enter headBound
  | iterate _ iterated inductionHypothesis =>
      exact
        inductionHypothesis.iterate slotsLength headBound accounted
          iterated
  | interfere _ onlyPins inductionHypothesis =>
      exact inductionHypothesis.interfere onlyPins

/-! ## A call that has returned -/

/-- The occupied slots that are not pinned, in ring order from the head. -/
def evictable (cache : RingBufferCache) (pinned : Nat → Bool) : List Nat :=
  (Ring.order cache.slotCount cache.head).filter fun position =>
    (cache.slotAt position).isSome && !pinned position

/-- What a call with `sizeNeeded` has done to `cache` when it has returned
`result` and left `final`, where `pinned` tells which slots were pinned when
their pins were read.  The pins of `final` are those other threads have
left. -/
structure ScanSpec
    (cache : RingBufferCache) (sizeNeeded : UInt64)
    (pinned : Nat → Bool) (result : Bool) (final : RingBufferCache) :
    Prop where
  tooLarge :
    cache.capacity.toNat < sizeNeeded.toNat →
      result = false ∧ cache.Emptied [] cache.head final
  fitting :
    cache.usedSize.toNat + sizeNeeded.toNat ≤ cache.capacity.toNat →
      (∀ free,
        cache.firstFree cache.head = some free →
          result = true ∧ cache.Emptied [] free final) ∧
        (cache.firstFree cache.head = none →
          result = false ∧ cache.Emptied [] cache.head final)
  evicting :
    sizeNeeded.toNat ≤ cache.capacity.toNat →
    cache.capacity.toNat < cache.usedSize.toNat + sizeNeeded.toNat →
      (∀ evicted,
        Ring.Shortest (cache.MakesRoom sizeNeeded)
            (cache.evictable pinned) evicted →
          result = true ∧
            ∃ last free,
              evicted.getLast? = some last ∧
                (cache.withoutSlots evicted).firstFree
                    ((last + 1) % cache.slotCount) =
                  some free ∧
                  cache.Emptied evicted free final) ∧
        ((∀ evicted, evicted <+: cache.evictable pinned →
            ¬ cache.MakesRoom sizeNeeded evicted) →
          result = false ∧
            cache.Emptied (cache.evictable pinned) cache.head final)

namespace Scanned

variable {sizeNeeded : UInt64} {reads : List (Nat × Bool)} {scanned : Nat}
variable {pinned : Nat → Bool}

theorem evictedBy_eq
    (scan : cache.Scanned sizeNeeded reads scanned)
    (agrees : ∀ read ∈ reads, pinned read.1 = read.2) :
    evictedBy reads =
      ((Ring.order cache.slotCount cache.head).take scanned).filter
        fun position =>
          (cache.slotAt position).isSome && !pinned position := by
  have unpinned :
      evictedBy reads =
        (reads.map Prod.fst).filter fun position => !pinned position := by
    unfold evictedBy
    rw [List.filter_map]
    congr 1
    refine List.filter_congr ?_
    intro read member
    simp [agrees read member]
  rw [unpinned, scan.positions, List.filter_filter]
  refine List.filter_congr ?_
  intro position _
  exact Bool.and_comm _ _

theorem evictedBy_initial
    (scan : cache.Scanned sizeNeeded reads scanned)
    (agrees : ∀ read ∈ reads, pinned read.1 = read.2) :
    evictedBy reads <+: cache.evictable pinned := by
  rw [scan.evictedBy_eq agrees]
  exact (List.take_prefix _ _).filter _

/-- After a full circle every slot that can be evicted has been. -/
theorem evictedBy_circle
    (scan : cache.Scanned sizeNeeded reads cache.slotCount)
    (agrees : ∀ read ∈ reads, pinned read.1 = read.2) :
    evictedBy reads = cache.evictable pinned := by
  rw [scan.evictedBy_eq agrees, List.take_of_length_le]
  · rfl
  · rw [Ring.length_order]

/-- The evicted slots are no more than were needed. -/
theorem shortest
    (accounted : cache.Accounted)
    (scan : cache.Scanned sizeNeeded reads scanned)
    (agrees : ∀ read ∈ reads, pinned read.1 = read.2)
    (room : cache.MakesRoom sizeNeeded (evictedBy reads)) :
    Ring.Shortest (cache.MakesRoom sizeNeeded)
      (cache.evictable pinned) (evictedBy reads) := by
  have initial := scan.evictedBy_initial agrees
  rcases scan.resumed room with
    none | ⟨earlier, last, evictedEq, lacking, _⟩
  · rw [none] at scan
    rw [scan.unread] at room ⊢
    exact Ring.Shortest.nil room
  · rw [evictedEq] at initial room ⊢
    refine Ring.Shortest.of_append ?_ initial room lacking
    intro shorter longer shorterInitial _ shorterRoom
    exact MakesRoom.of_initial accounted shorterInitial shorterRoom

end Scanned

namespace Progress

variable {sizeNeeded : UInt64} {reads : List (Nat × Bool)}
variable {iterations : Nat} {result : Bool} {pinned : Nat → Bool}

theorem spec_tooLarge
    (progress :
      Progress cache sizeNeeded reads current iterations
        (.returned result))
    (large : cache.capacity.toNat < sizeNeeded.toNat) :
    result = false ∧ cache.Emptied [] cache.head current := by
  have notFits : ¬ sizeNeeded ≤ cache.capacity := by
    rw [UInt64.le_iff_toNat_le]
    omega
  cases progress with
  | found fits =>
      exact absurd fits notFits
  | tooLarge _ _ emptied =>
      exact ⟨rfl, emptied⟩
  | lost fits =>
      exact absurd fits notFits
  | full _ _ _ emptied =>
      exact ⟨rfl, emptied⟩

theorem spec_fitting
    (accounted : cache.Accounted)
    (headBound : cache.head < cache.slotCount)
    (progress :
      Progress cache sizeNeeded reads current iterations
        (.returned result))
    (fitting :
      cache.usedSize.toNat + sizeNeeded.toNat ≤ cache.capacity.toNat) :
    (∀ free,
        cache.firstFree cache.head = some free →
          result = true ∧ cache.Emptied [] free current) ∧
      (cache.firstFree cache.head = none →
        result = false ∧ cache.Emptied [] cache.head current) := by
  have roomAnyway :
      ∀ positions, cache.MakesRoom sizeNeeded positions := by
    intro positions
    exact MakesRoom.of_initial accounted List.nil_prefix fitting
  cases progress with
  | found _ scan room first emptied =>
      rcases scan.resumed room with
        none | ⟨earlier, _, _, lacking, _⟩
      · rw [none] at scan
        rw [scan.unread] at first emptied
        rw [none, Nat.add_zero, Nat.mod_eq_of_lt headBound] at first
        change cache.firstFree cache.head = _ at first
        rw [first]
        refine ⟨?_, fun impossible => by simp at impossible⟩
        intro free sameFree
        rw [Option.some.injEq] at sameFree
        subst sameFree
        exact ⟨rfl, emptied⟩
      · exact absurd (roomAnyway earlier) lacking
  | tooLarge large =>
      rw [UInt64.lt_iff_toNat_lt] at large
      omega
  | lost _ _ lacking =>
      exact absurd (roomAnyway _) lacking
  | full _ _ occupied emptied =>
      have noFree : cache.firstFree cache.head = none := by
        refine Ring.find?_order_eq_none ?_
        intro position inside
        rw [← Option.not_isSome, occupied position inside]
        rfl
      rw [noFree]
      exact ⟨fun _ impossible => by simp at impossible, fun _ => ⟨rfl, emptied⟩⟩

theorem spec_evicting
    (accounted : cache.Accounted)
    (progress :
      Progress cache sizeNeeded reads current iterations
        (.returned result))
    (agrees : ∀ read ∈ reads, pinned read.1 = read.2)
    (fits : sizeNeeded.toNat ≤ cache.capacity.toNat)
    (short :
      cache.capacity.toNat <
        cache.usedSize.toNat + sizeNeeded.toNat) :
    (∀ evicted,
        Ring.Shortest (cache.MakesRoom sizeNeeded)
            (cache.evictable pinned) evicted →
          result = true ∧
            ∃ last free,
              evicted.getLast? = some last ∧
                (cache.withoutSlots evicted).firstFree
                    ((last + 1) % cache.slotCount) =
                  some free ∧
                  cache.Emptied evicted free current) ∧
      ((∀ evicted, evicted <+: cache.evictable pinned →
          ¬ cache.MakesRoom sizeNeeded evicted) →
        result = false ∧
          cache.Emptied (cache.evictable pinned) cache.head current) := by
  have noRoomYet : ¬ cache.MakesRoom sizeNeeded [] :=
    Nat.not_le.mpr short
  cases progress with
  | found _ scan room first emptied =>
      have shortest := scan.shortest accounted agrees room
      constructor
      · intro evicted otherShortest
        have same := shortest.unique otherShortest
        subst same
        rcases scan.resumed room with
          none | ⟨earlier, last, evictedEq, _, resumedAt⟩
        · rw [none] at scan
          rw [scan.unread] at room
          exact absurd room noRoomYet
        · rw [resumedAt] at first
          refine ⟨rfl, last, _, ?_, first, emptied⟩
          rw [evictedEq]
          simp
      · intro lacking
        exact absurd room (lacking _ shortest.initial)
  | tooLarge large =>
      rw [UInt64.lt_iff_toNat_lt] at large
      omega
  | lost _ scan lacking emptied =>
      rw [scan.evictedBy_circle agrees] at lacking emptied
      constructor
      · intro evicted shortest
        exact
          absurd
            (MakesRoom.of_initial accounted shortest.initial
              shortest.sufficient)
            lacking
      · intro _
        exact ⟨rfl, emptied⟩
  | full room =>
      exact absurd room noRoomYet

end Progress

theorem ScanRun.spec
    {sizeNeeded : UInt64} {iterations : Nat}
    {reads : List (Nat × Bool)} {result : Bool}
    (slotsLength : cache.slots.length = cache.slotCount)
    (headBound : cache.head < cache.slotCount)
    (accounted : cache.Accounted)
    (run :
      cache.ScanRun sizeNeeded iterations reads current
        (.returned result))
    {pinned : Nat → Bool}
    (agrees : ∀ read ∈ reads, pinned read.1 = read.2) :
    cache.ScanSpec sizeNeeded pinned result current := by
  have progress := run.progress slotsLength headBound accounted
  exact
    { tooLarge := progress.spec_tooLarge
      fitting := progress.spec_fitting accounted headBound
      evicting := progress.spec_evicting accounted agrees }

/-- `evictTillCapacityLocked` is exact.  From every state with its head in the
ring and an exact account of bytes, whatever other threads do to the pins, a
call makes at most `2 * slotCount + 1` iterations and can always make the next
one until it returns; it reads the pins of no slot twice; and when it has
returned it has done what `ScanSpec` says for the pins it has read. -/
theorem evictTillCapacityLocked_exact
    (slotsLength : cache.slots.length = cache.slotCount)
    (headBound : cache.head < cache.slotCount)
    (usedIsSum :
      cache.usedSize.toNat = (cache.slots.map slotSize).sum)
    (withinCapacity : cache.usedSize.toNat ≤ cache.capacity.toNat)
    (sizeNeeded : UInt64)
    {iterations : Nat} {reads : List (Nat × Bool)} {point : ScanPoint}
    (run : cache.ScanRun sizeNeeded iterations reads current point) :
    iterations ≤ 2 * cache.slotCount + 1 ∧
      ((∀ result, point ≠ .returned result) →
        ∃ next nextPoint,
          current.scanIteration sizeNeeded point =
            .ok (next, nextPoint)) ∧
        (reads.map Prod.fst).Nodup ∧
          ∀ result, point = .returned result →
            ∀ pinned : Nat → Bool,
              (∀ read ∈ reads, pinned read.1 = read.2) →
                cache.ScanSpec sizeNeeded pinned result current := by
  have accounted : cache.Accounted :=
    { sum := usedIsSum, bounded := withinCapacity }
  have progress := run.progress slotsLength headBound accounted
  refine
    ⟨progress.iterations_le, progress.iterates slotsLength headBound,
      progress.nodup, ?_⟩
  intro result returned pinned agrees
  subst returned
  exact run.spec slotsLength headBound accounted agrees

/-- Three entries fill a ring, and the oldest one is pinned. -/
def pinnedRing : RingBufferCache where
  capacity := 10
  slotCount := 3
  usedSize := 10
  slots :=
    [some
        { addr := 0, key := [1], headers := [], body := [2, 3, 4]
          pins := 1 },
      some
        { addr := 1, key := [5], headers := [], body := [6, 7]
          pins := 0 },
      some
        { addr := 2, key := [8], headers := [], body := [9, 10]
          pins := 0 }]
  nextAddr := 3

/-- A call for five bytes skips the pinned entry, whose pin is released right
after it has been read, evicts the other two, passes the pinned entry again
and returns true with the head at the second slot. -/
theorem evictTillCapacityLocked_exact_pinnedRing :
    ∃ final,
      pinnedRing.ScanRun 5 6 [(0, true), (1, false), (2, false)] final
          (.returned true) ∧
        final.head = 1 ∧
          final.slots.map Option.isSome = [true, false, false] ∧
            pinnedRing.ScanSpec 5 (fun position => position = 0) true
              final := by
  have skipped :
      pinnedRing.ScanRun 5 1 [(0, true)]
        (pinnedRing.moveHead 1) (.evicting 0) :=
    .iterate .enter rfl
  have released :
      pinnedRing.ScanRun 5 1 [(0, true)]
        ((pinnedRing.moveHead 1).updatePins 0 (· - 1)) (.evicting 0) :=
    .interfere skipped rfl
  have returned :
      ∃ final,
        pinnedRing.ScanRun 5 6 [(0, true), (1, false), (2, false)] final
            (.returned true) ∧
          final.head = 1 ∧
            final.slots.map Option.isSome = [true, false, false] :=
    ⟨_, .iterate (.iterate (.iterate (.iterate (.iterate released rfl)
      rfl) rfl) rfl) rfl, rfl, rfl⟩
  obtain ⟨final, run, headEq, slotsEq⟩ := returned
  refine ⟨final, run, headEq, slotsEq, ?_⟩
  exact
    (evictTillCapacityLocked_exact rfl (by decide) rfl (by decide) 5
      run).2.2.2 true rfl _ (by decide)

end RingBufferCache

end RingCache

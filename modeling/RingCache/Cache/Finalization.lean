import RingCache.Cache.Eviction

/-!
# A finalization from its publish to its end

A publish that ends the stream of an inflight key enters `finalizeLocked` and
holds the mutex until the response has been inserted or dropped.  Until then
the only other steps are pin releases, so everything the finalization does is
a call of `evictTillCapacityLocked` followed by the insertion.  Two results
say when a dropped response has evicted nothing and when a response that fits
is admitted.
-/

namespace RingCache

open Transition RingBufferCache

namespace RingBufferCache

variable {cache : RingBufferCache}

theorem clearPins_updatePins
    (cache : RingBufferCache) (ptr : EntryPtr) (update : UInt32 → UInt32) :
    (cache.updatePins ptr update).clearPins = cache.clearPins := by
  have forgotten :
      ∀ entry : Entry,
        (entry.updatePins ptr update).clearPins = entry.clearPins := by
    intro entry
    unfold Entry.updatePins
    split <;> rfl
  simp [clearPins, updatePins, Function.comp_def, forgotten]

theorem setInflight_self
    {key : Key} {inflight : Inflight}
    (present : cache.inflightMap key = some inflight) :
    cache.setInflight key (some inflight) = cache := by
  unfold setInflight
  rw [← present, Function.update_eq_self]

theorem WellFormed.toAccounted (wellFormed : cache.WellFormed) :
    cache.Accounted where
  sum := wellFormed.accounted
  bounded := wellFormed.bounded

end RingBufferCache

namespace Monitor

variable {capacity : UInt64} {slotCount : Nat}
variable {monitor entered during next after : Monitor}

/-! ## The steps of a finalization -/

/-- The key of a publish that ends its stream. -/
def Action.endedKey : Action → Option Key
  | .publishHeaders key _ true => some key
  | .publishData key _ true => some key
  | _ => none

/-- The load of `pins_` in the next iteration of the running scan. -/
def pinReads (monitor : Monitor) : List (Nat × Bool) :=
  match monitor.frame with
  | none => []
  | some frame => monitor.cache.pinReads frame.size frame.point

/-- The steps from the entry of a finalization on: iterations of its scan and
pin releases by other threads, in any order. -/
inductive FinalizeRun (entered : Monitor) :
    List (Nat × Bool) → Monitor → Prop
  | enter : FinalizeRun entered [] entered
  | scan {reads : List (Nat × Bool)} {during next : Monitor} :
      FinalizeRun entered reads during →
      during.step .scan = .ok next →
      FinalizeRun entered (reads ++ during.pinReads) next
  | release
      {reads : List (Nat × Bool)} {during next : Monitor}
      {ptr : EntryPtr} :
      FinalizeRun entered reads during →
      during.step (.unpin ptr) = .ok next →
      FinalizeRun entered reads next

/-- While a finalization holds the mutex, its own steps and pin releases are
the only ones. -/
theorem step_of_running
    {frame : FinalizeFrame} (running : monitor.frame = some frame)
    {action : Action} (stepped : monitor.step action = .ok next) :
    action = .scan ∨ action = .finish ∨ ∃ ptr, action = .unpin ptr := by
  cases action with
  | lookup key callbacks waiterAddr =>
      obtain ⟨⟨result, state⟩, looked, _⟩ := bind_eq_ok_iff.mp stepped
      have free := (lookup_eq_ok_iff.mp looked).1
      rw [running] at free
      simp at free
  | publishHeaders key headers endStream =>
      obtain ⟨⟨posts, state⟩, published, _⟩ := bind_eq_ok_iff.mp stepped
      have free := (publishHeaders_eq_ok_iff.mp published).1
      rw [running] at free
      simp at free
  | publishData key data endStream =>
      obtain ⟨⟨posts, state⟩, published, _⟩ := bind_eq_ok_iff.mp stepped
      have free := (publishData_eq_ok_iff.mp published).1
      rw [running] at free
      simp at free
  | removeWaiter key waiterAddr =>
      have free := (removeWaiter_eq_ok_iff.mp stepped).1
      rw [running] at free
      simp at free
  | scan =>
      exact Or.inl rfl
  | finish =>
      exact Or.inr (Or.inl rfl)
  | unpin ptr =>
      exact Or.inr (Or.inr ⟨ptr, rfl⟩)

/-- A publish waits for the mutex. -/
theorem idle_of_endedKey
    {action : Action} {key : Key}
    (ends : action.endedKey = some key)
    (stepped : monitor.step action = .ok next) :
    monitor.frame = none := by
  cases running : monitor.frame with
  | none =>
      rfl
  | some frame =>
      rcases step_of_running running stepped with
        rfl | rfl | ⟨ptr, rfl⟩
      · simp [Action.endedKey] at ends
      · simp [Action.endedKey] at ends
      · simp [Action.endedKey] at ends

/-- The response `inflight` of `key` is about to be finalized: the scan for
its size has been entered. -/
structure Enters
    (cache : RingBufferCache) (key : Key) (inflight : Inflight)
    (headers : ResponseHeaderMap) (entered : Monitor) : Prop where
  headersEq : inflight.headers = some headers
  cacheEq : entered.cache = cache.setInflight key (some inflight)
  frameEq :
    entered.frame =
      some
        { key := key
          size := reservedSize key headers inflight
          point :=
            entered.cache.enterScan (reservedSize key headers inflight) }

/-- The size reserved at the entry is the one `finalizeLocked` computes. -/
theorem Enters.size_eq
    {cache : RingBufferCache} {key : Key} {inflight : Inflight}
    {headers : ResponseHeaderMap} {size : UInt64}
    (enters : Enters cache key inflight headers entered)
    (sized : entered.cache.finalizeSize key = .ok size) :
    size = reservedSize key headers inflight := by
  obtain ⟨other, otherHeaders, present, stored, sizeEq⟩ :=
    finalizeSize_eq_ok_iff.mp sized
  have sameInflight : inflight = other := by
    rw [enters.cacheEq] at present
    simpa [setInflight] using present
  subst sameInflight
  rw [enters.headersEq, Option.some.injEq] at stored
  subst stored
  exact sizeEq

theorem Enters.of_afterPublish
    {cache published : RingBufferCache} {key : Key} {endStream : Bool}
    {frame : FinalizeFrame}
    (replaced :
      published = cache ∨
        ∃ inflight replacement,
          cache.inflightMap key = some inflight ∧
            published = cache.setInflight key (some replacement))
    (entering : afterPublish published key endStream = .ok entered)
    (running : entered.frame = some frame) :
    endStream = true ∧
      frame.key = key ∧
        ∃ inflight headers, Enters cache key inflight headers entered := by
  obtain ⟨cacheEq, ⟨_, released⟩ |
    ⟨ended, inflight, headers, present, headersEq, frameEq⟩⟩ :=
    afterPublish_eq_ok_iff.mp entering
  · rw [released] at running
    simp at running
  · have sameFrame := frameEq.symm.trans running
    rw [Option.some.injEq] at sameFrame
    subst sameFrame
    refine ⟨ended, rfl, inflight, headers, headersEq, ?_, ?_⟩
    · rw [cacheEq]
      rcases replaced with same | ⟨_, replacement, _, same⟩
      · rw [same] at present ⊢
        exact (setInflight_self present).symm
      · rw [same] at present ⊢
        have sameInflight : replacement = inflight := by
          simpa [setInflight] using present
        rw [sameInflight]
    · rw [frameEq, cacheEq]

/-- A step that enters a finalization is the publish that ends the stream. -/
theorem enters_of_step
    {action : Action} {frame : FinalizeFrame}
    (idle : monitor.frame = none)
    (stepped : monitor.step action = .ok entered)
    (running : entered.frame = some frame) :
    action.endedKey = some frame.key ∧
      ∃ inflight headers,
        Enters monitor.cache frame.key inflight headers entered := by
  cases action with
  | lookup key callbacks waiterAddr =>
      obtain ⟨⟨result, state⟩, looked, returned⟩ :=
        bind_eq_ok_iff.mp stepped
      cases returned
      have released := (lookup_eq_ok_iff.mp looked).2.1
      rw [released] at running
      simp at running
  | publishHeaders key headers endStream =>
      obtain ⟨⟨posts, state⟩, published, returned⟩ :=
        bind_eq_ok_iff.mp stepped
      cases returned
      obtain ⟨_, _, entering⟩ := publishHeaders_eq_ok_iff.mp published
      obtain ⟨rfl, rfl, response⟩ :=
        Enters.of_afterPublish
          (publishHeadersLocked_cache monitor.cache key headers endStream)
          entering running
      exact ⟨rfl, response⟩
  | publishData key data endStream =>
      obtain ⟨⟨posts, state⟩, published, returned⟩ :=
        bind_eq_ok_iff.mp stepped
      cases returned
      obtain ⟨_, _, entering⟩ := publishData_eq_ok_iff.mp published
      obtain ⟨rfl, rfl, response⟩ :=
        Enters.of_afterPublish
          (publishDataLocked_cache monitor.cache key data endStream)
          entering running
      exact ⟨rfl, response⟩
  | removeWaiter key waiterAddr =>
      obtain ⟨_, rfl⟩ := removeWaiter_eq_ok_iff.mp stepped
      simp at running
  | scan =>
      obtain ⟨_, _, _, other, _⟩ := scan_eq_ok_iff.mp stepped
      rw [idle] at other
      simp at other
  | finish =>
      obtain ⟨_, _, other, _⟩ := finish_eq_ok_iff.mp stepped
      rw [idle] at other
      simp at other
  | unpin ptr =>
      obtain ⟨_, rfl⟩ := unpin_eq_ok_iff.mp stepped
      rw [idle] at running
      simp at running

/-- The steps of a finalization are a call of `evictTillCapacityLocked` on the
cache as the publish left it. -/
theorem FinalizeRun.scanRun
    {frame : FinalizeFrame} {reads : List (Nat × Bool)}
    (running : entered.frame = some frame)
    (atEntry : frame.point = entered.cache.enterScan frame.size)
    (run : entered.FinalizeRun reads during) :
    ∃ iterations point,
      during.frame = some { frame with point := point } ∧
        entered.cache.ScanRun frame.size iterations reads during.cache
          point := by
  induction run with
  | enter =>
      refine ⟨0, frame.point, running, ?_⟩
      rw [atEntry]
      exact ScanRun.enter
  | scan _ stepped inductionHypothesis =>
      obtain ⟨iterations, point, stands, scanRun⟩ := inductionHypothesis
      obtain ⟨current, cache, nextPoint, currentEq, iterated, rfl⟩ :=
        scan_eq_ok_iff.mp stepped
      rw [stands, Option.some.injEq] at currentEq
      subst currentEq
      refine ⟨iterations + 1, nextPoint, rfl, ?_⟩
      unfold pinReads
      rw [stands]
      exact ScanRun.iterate scanRun iterated
  | release _ stepped inductionHypothesis =>
      obtain ⟨iterations, point, stands, scanRun⟩ := inductionHypothesis
      obtain ⟨_, rfl⟩ := unpin_eq_ok_iff.mp stepped
      exact
        ⟨iterations, point, stands,
          ScanRun.interfere scanRun (clearPins_updatePins _ _ _)⟩

theorem FinalizeRun.running
    {frame : FinalizeFrame} {reads : List (Nat × Bool)}
    (run : entered.FinalizeRun reads during)
    (stands : during.frame = some frame) :
    ∃ first, entered.frame = some first := by
  induction run generalizing frame with
  | enter =>
      exact ⟨frame, stands⟩
  | scan _ stepped inductionHypothesis =>
      obtain ⟨before, _, _, running, _⟩ := scan_eq_ok_iff.mp stepped
      exact inductionHypothesis running
  | release _ stepped inductionHypothesis =>
      obtain ⟨_, rfl⟩ := unpin_eq_ok_iff.mp stepped
      exact inductionHypothesis stands

theorem FinalizeRun.reachable
    {start : Monitor} {reads : List (Nat × Bool)}
    (reachable : Reachable step start (fun _ _ _ => True) entered)
    (run : entered.FinalizeRun reads during) :
    Reachable step start (fun _ _ _ => True) during := by
  induction run with
  | enter =>
      exact reachable
  | scan _ stepped inductionHypothesis =>
      exact Reachable.next inductionHypothesis stepped trivial
  | release _ stepped inductionHypothesis =>
      exact Reachable.next inductionHypothesis stepped trivial

/-- What the scan of a finalization has done when it has returned. -/
theorem FinalizeRun.spec
    (positive : 0 < slotCount)
    (consistent : entered.Consistent capacity slotCount)
    {frame returned : FinalizeFrame} {reads : List (Nat × Bool)}
    {result : Bool}
    (running : entered.frame = some frame)
    (atEntry : frame.point = entered.cache.enterScan frame.size)
    (run : entered.FinalizeRun reads during)
    (stands : during.frame = some returned)
    (atReturn : returned.point = .returned result)
    (pinned : Nat → Bool)
    (agrees : ∀ read ∈ reads, pinned read.1 = read.2) :
    returned.key = frame.key ∧
      entered.cache.ScanSpec frame.size pinned result during.cache := by
  obtain ⟨iterations, point, frameEq, scanRun⟩ :=
    run.scanRun running atEntry
  rw [stands, Option.some.injEq] at frameEq
  subst frameEq
  simp only at atReturn
  subst atReturn
  have wellFormed := consistent.wellFormed
  have headBound := consistent.headBound positive
  exact
    ⟨rfl, scanRun.spec wellFormed.slotsLength headBound
      wellFormed.toAccounted agrees⟩

/-! ## A dropped response -/

/-- The ring, its index, its account and its head are the same, pins
aside. -/
structure RingUnchanged (before after : RingBufferCache) : Prop where
  slots : after.clearPins.slots = before.clearPins.slots
  cacheMap : after.cacheMap = before.cacheMap
  usedSize : after.usedSize = before.usedSize
  head : after.head = before.head

/-- Inflight responses are no part of the ring. -/
theorem RingUnchanged.setInflight_iff
    {before after : RingBufferCache} {key other : Key}
    {inflight otherInflight : Option Inflight} :
    RingUnchanged before (after.setInflight other otherInflight) ↔
      RingUnchanged (before.setInflight key inflight) after := by
  constructor
  · intro unchanged
    exact
      ⟨unchanged.slots, unchanged.cacheMap, unchanged.usedSize,
        unchanged.head⟩
  · intro unchanged
    exact
      ⟨unchanged.slots, unchanged.cacheMap, unchanged.usedSize,
        unchanged.head⟩

/-- A scan that leaves the head where it was has changed the ring exactly if
it has emptied an occupied slot. -/
theorem ringUnchanged_iff_of_emptied
    {cache current : RingBufferCache} {evicted : List Nat}
    (occupied :
      ∀ position ∈ evicted, (cache.slotAt position).isSome = true)
    (emptied : cache.Emptied evicted cache.head current) :
    RingUnchanged cache current ↔ evicted = [] := by
  constructor
  · intro unchanged
    rw [List.eq_nil_iff_forall_not_mem]
    intro position member
    have sameSlots : current.clearPins.slotAt position =
        cache.clearPins.slotAt position := by
      unfold slotAt
      rw [unchanged.slots]
    have vacant := emptied.isSome_slotAt position
    rw [slotAt_withoutSlots, if_pos member] at vacant
    have stillOccupied :
        (current.slotAt position).isSome =
          (cache.slotAt position).isSome := by
      simpa only [slotAt_clearPins, Option.isSome_map] using
        congrArg Option.isSome sameSlots
    rw [occupied position member, vacant] at stillOccupied
    simp at stillOccupied
  · intro nothing
    subst nothing
    have same : current.clearPins = cache.clearPins := emptied
    have cacheMap : current.clearPins.cacheMap = cache.clearPins.cacheMap := by
      rw [same]
    have usedSize : current.clearPins.usedSize = cache.clearPins.usedSize := by
      rw [same]
    have head : current.clearPins.head = cache.clearPins.head := by
      rw [same]
    exact
      { slots := by rw [same]
        cacheMap := cacheMap
        usedSize := usedSize
        head := head }

theorem evictable_eq_nil_iff
    {cache : RingBufferCache} {pinned : Nat → Bool}
    (slotsLength : cache.slots.length = cache.slotCount) :
    cache.evictable pinned = [] ↔
      ∀ position entry,
        cache.Resident position entry → pinned position = true := by
  unfold evictable
  rw [List.filter_eq_nil_iff]
  constructor
  · intro none position entry resident
    have inside : position < cache.slotCount := by
      rw [← slotsLength]
      exact (List.getElem?_eq_some_iff.mp resident).1
    have kept := none position (Ring.mem_order.mpr inside)
    rw [slotAt_eq_some_iff.mpr resident] at kept
    simpa using kept
  · intro allPinned position _
    cases read : cache.slotAt position with
    | none =>
        simp
    | some entry =>
        rw [allPinned position entry (slotAt_eq_some_iff.mp read)]
        simp

/-- A scan that has returned false has emptied every slot it could, or none
at all because the response is too large or because it fits and the ring is
full. -/
theorem ringUnchanged_iff_of_failed
    {cache current : RingBufferCache} {size : UInt64}
    {pinned : Nat → Bool}
    (slotsLength : cache.slots.length = cache.slotCount)
    (spec : cache.ScanSpec size pinned false current) :
    RingUnchanged cache current ↔
      cache.capacity.toNat < size.toNat ∨
        cache.usedSize.toNat + size.toNat ≤ cache.capacity.toNat ∨
          ∀ position entry,
            cache.Resident position entry → pinned position = true := by
  by_cases large : cache.capacity.toNat < size.toNat
  · have emptied := (spec.tooLarge large).2
    have unchanged :=
      (ringUnchanged_iff_of_emptied (by simp) emptied).mpr rfl
    exact iff_of_true unchanged (Or.inl large)
  by_cases fitting :
      cache.usedSize.toNat + size.toNat ≤ cache.capacity.toNat
  · obtain ⟨found, full⟩ := spec.fitting fitting
    have noFree : cache.firstFree cache.head = none := by
      cases first : cache.firstFree cache.head with
      | none =>
          rfl
      | some free =>
          have inserted := (found free first).1
          simp at inserted
    have unchanged :=
      (ringUnchanged_iff_of_emptied (by simp) (full noFree).2).mpr rfl
    exact iff_of_true unchanged (Or.inr (Or.inl fitting))
  · obtain ⟨enough, lost⟩ :=
      spec.evicting (by omega) (by omega)
    have noPrefix :
        ∀ evicted, evicted <+: cache.evictable pinned →
          ¬ cache.MakesRoom size evicted := by
      intro evicted initial room
      obtain ⟨shortest, isShortest⟩ :=
        Ring.Shortest.exists_of_initial initial room
      have inserted := (enough shortest isShortest).1
      simp at inserted
    have emptied := (lost noPrefix).2
    have occupied :
        ∀ position ∈ cache.evictable pinned,
          (cache.slotAt position).isSome = true := by
      intro position member
      unfold evictable at member
      rw [List.mem_filter, Bool.and_eq_true] at member
      exact member.2.1
    rw [ringUnchanged_iff_of_emptied occupied emptied,
      evictable_eq_nil_iff slotsLength]
    simp only [large, fitting, false_or]

/-- A dropped response has evicted nothing exactly if it exceeds the capacity,
or fits beside the residents, or every resident entry was pinned when the scan
read it.  `reads` are the pins as the scan read them, with releases at any
time. -/
theorem uncachedUnchanged_iff
    (positive : 0 < slotCount)
    (reachable :
      Reachable step (create capacity slotCount)
        (fun _ _ _ => True) monitor)
    {action : Action} {key : Key} {size : UInt64}
    {returned : FinalizeFrame} {reads : List (Nat × Bool)}
    (ends : action.endedKey = some key)
    (stepped : monitor.step action = .ok entered)
    (sized : entered.cache.finalizeSize key = .ok size)
    (run : entered.FinalizeRun reads during)
    (stands : during.frame = some returned)
    (failed : returned.point = .returned false)
    (finished : during.step .finish = .ok after)
    (pinned : Nat → Bool)
    (agrees : ∀ read ∈ reads, pinned read.1 = read.2) :
    RingUnchanged monitor.cache after.cache ↔
      capacity.toNat < size.toNat ∨
        monitor.cache.usedSize.toNat + size.toNat ≤ capacity.toNat ∨
          ∀ position entry,
            monitor.cache.Resident position entry →
              pinned position = true := by
  have idle := idle_of_endedKey ends stepped
  have enteredReachable := Reachable.next reachable stepped trivial
  have consistent := consistent_of_reachable enteredReachable
  obtain ⟨frame, running⟩ := run.running stands
  obtain ⟨endedKey, inflight, headers, enters⟩ :=
    enters_of_step idle stepped running
  rw [ends, Option.some.injEq] at endedKey
  subst endedKey
  have sizeEq := enters.size_eq sized
  have frameEq := enters.frameEq
  rw [running, Option.some.injEq] at frameEq
  have reservedEq : frame.size = size := by
    rw [frameEq, sizeEq]
  have atEntry : frame.point = entered.cache.enterScan frame.size := by
    rw [frameEq]
  obtain ⟨sameKey, spec⟩ :=
    run.spec positive consistent running atEntry stands failed pinned
      agrees
  rw [reservedEq] at spec
  obtain ⟨_, result, finishedFrame, atReturn, _, completed⟩ :=
    finish_eq_ok_iff.mp finished
  rw [stands, Option.some.injEq] at finishedFrame
  subst finishedFrame
  rw [failed, ScanPoint.returned.injEq] at atReturn
  subst atReturn
  obtain ⟨_, _, ⟨_, dropped⟩ | ⟨impossible, _⟩⟩ :=
    completeFinalize_eq_ok_iff.mp completed
  · have decided :=
      ringUnchanged_iff_of_failed consistent.wellFormed.slotsLength spec
    rw [consistent.capacityEq] at decided
    rw [dropped]
    rw [enters.cacheEq] at decided
    exact RingUnchanged.setInflight_iff.trans decided
  · simp at impossible

/-- Two responses of size three are cached, the second one is pinned by a hit
and a third response is being fetched. -/
def pinnedSecondRun : List Action :=
  [.lookup [1] none 0, .publishHeaders [1] [([2], [3])] false,
    .publishData [1] [4] true, .scan, .scan, .finish,
    .lookup [5] none 1, .publishHeaders [5] [([2], [3])] false,
    .publishData [5] [6] true, .scan, .scan, .finish,
    .lookup [5] none 2,
    .lookup [7] none 3, .publishHeaders [7] [([2], [3])] false]

/-- With a capacity of eight, the end of the third response of size six evicts
the first response, finds the second one pinned and drops its own
response: the first key was a hit before and is none after. -/
theorem uncachedResponse_evicts :
    ∃ monitor entered during after reads returned,
      Reachable step (create 8 4) (fun _ _ _ => True) monitor ∧
        monitor.step (.publishData [7] [8, 9, 10, 11] true) =
            .ok entered ∧
          entered.FinalizeRun reads during ∧
            during.frame = some returned ∧
              returned.point = .returned false ∧
                during.step .finish = .ok after ∧
                  monitor.cache.cacheMap [1] = some 0 ∧
                    after.cache.cacheMap [1] = none ∧
                      ¬ RingUnchanged monitor.cache after.cache := by
  have run :
      ∃ monitor entered during after,
        checkedRun step (fun _ _ _ => true) (create 8 4)
              pinnedSecondRun =
            some monitor ∧
          monitor.step (.publishData [7] [8, 9, 10, 11] true) =
              .ok entered ∧
            (∃ reads, entered.FinalizeRun reads during) ∧
              (∃ returned,
                during.frame = some returned ∧
                  returned.point = .returned false) ∧
                during.step .finish = .ok after ∧
                  monitor.cache.cacheMap [1] = some 0 ∧
                    after.cache.cacheMap [1] = none :=
    ⟨_, _, _, _, rfl, rfl,
      ⟨_, .scan (.scan (.scan (.scan .enter rfl) rfl) rfl) rfl⟩,
      ⟨_, rfl, rfl⟩, rfl, rfl, rfl⟩
  obtain ⟨monitor, entered, during, after, ran, stepped,
    ⟨reads, finalizing⟩, ⟨returned, stands, failed⟩, finished, hit,
    lost⟩ := run
  refine
    ⟨monitor, entered, during, after, reads, returned, ?_, stepped,
      finalizing, stands, failed, finished, hit, lost, ?_⟩
  · exact
      Reachable.of_checkedRun (fun _ _ _ _ => trivial) Reachable.start ran
  · intro unchanged
    rw [unchanged.cacheMap, hit] at lost
    simp at lost

/-- Both responses are pinned when the scan reads them, and the first one is
released before it reads the second: the same response is dropped and evicts
nothing. -/
theorem uncachedUnchanged_iff_bothPinnedRun :
    ∃ monitor entered during after reads,
      checkedRun step (fun _ _ _ => true) (create 8 4)
            (pinnedSecondRun ++ [.lookup [1] none 4]) =
          some monitor ∧
        monitor.step (.publishData [7] [8, 9, 10, 11] true) =
            .ok entered ∧
          entered.FinalizeRun reads during ∧
            reads = [(0, true), (1, true)] ∧
              during.step .finish = .ok after ∧
                after.cache.inflightMap [7] = none ∧
                  after.cache.cacheMap [7] = none ∧
                    RingUnchanged monitor.cache after.cache := by
  have run :
      ∃ monitor entered during after,
        checkedRun step (fun _ _ _ => true) (create 8 4)
              (pinnedSecondRun ++ [.lookup [1] none 4]) =
            some monitor ∧
          monitor.step (.publishData [7] [8, 9, 10, 11] true) =
              .ok entered ∧
            entered.cache.finalizeSize [7] = .ok 6 ∧
              (∃ reads,
                entered.FinalizeRun reads during ∧
                  reads = [(0, true), (1, true)]) ∧
                (∃ returned,
                  during.frame = some returned ∧
                    returned.point = .returned false) ∧
                  during.step .finish = .ok after ∧
                    after.cache.inflightMap [7] = none ∧
                      after.cache.cacheMap [7] = none :=
    ⟨_, _, _, _, rfl, rfl, rfl,
      ⟨_,
        .scan
          (.release
            (.scan (.scan (.scan .enter rfl) rfl) rfl)
            (rfl : step _ (.unpin 0) = .ok _))
          rfl,
        rfl⟩,
      ⟨_, rfl, rfl⟩, rfl, rfl, rfl⟩
  obtain ⟨monitor, entered, during, after, ran, stepped, sized,
    ⟨reads, finalizing, asRead⟩, ⟨returned, stands, failed⟩, finished,
    erased, uncached⟩ := run
  refine
    ⟨monitor, entered, during, after, reads, ran, stepped, finalizing,
      asRead, finished, erased, uncached, ?_⟩
  exact
    (uncachedUnchanged_iff (by decide)
      (Reachable.of_checkedRun (fun _ _ _ _ => trivial)
        Reachable.start ran)
      rfl stepped sized finalizing stands failed finished
      (fun _ => true) (by simp [asRead])).mpr
      (Or.inr (Or.inr fun _ _ _ => rfl))

end Monitor

end RingCache

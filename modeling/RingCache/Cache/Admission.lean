import RingCache.Cache.Finalization
import RingCache.Cache.Guarantees

/-!
# Admission when nothing is pinned

When no entry is pinned there is nothing to release, so a finalization runs
alone: its scan makes its iterations, every pin it reads is zero, and it
returns.  Then the response has been inserted unless it fits beside the
residents and the ring has no free slot, the one case in which the scan does
not evict.
-/

namespace RingCache

open Transition RingBufferCache

namespace RingBufferCache

variable {cache current next : RingBufferCache}

/-- No resident entry is pinned. -/
def Unpinned (cache : RingBufferCache) : Prop :=
  ∀ position entry, cache.Resident position entry → entry.pins = 0

theorem Unpinned.scanIteration
    (unpinned : cache.Unpinned)
    {sizeNeeded : UInt64} {before after : ScanPoint}
    (iterated :
      cache.scanIteration sizeNeeded before = .ok (next, after)) :
    next.Unpinned := by
  intro position entry resident
  obtain ⟨evicted, evictedCases, nextCases⟩ :=
    scanIteration_eq_ok iterated
  have evictedResident : evicted.Resident position entry := by
    rcases nextCases with rfl | rfl
    · exact resident
    · exact resident
  rcases evictedCases with rfl | ⟨head, headResident, _, rfl⟩
  · exact unpinned position entry evictedResident
  · exact
      unpinned position entry
        ((resident_withoutHead_iff headResident _ _).mp
          evictedResident).2

/-- Every pin count that is read in such a state is zero. -/
theorem Unpinned.pinReads
    (unpinned : cache.Unpinned)
    {sizeNeeded : UInt64} {point : ScanPoint} {read : Nat × Bool}
    (member : read ∈ cache.pinReads sizeNeeded point) :
    read.2 = false := by
  unfold RingBufferCache.pinReads at member
  cases point with
  | evicting start =>
      by_cases short : cache.freeSize < sizeNeeded
      · simp only [if_pos short] at member
        cases occupied : cache.slotAt cache.head with
        | none =>
            simp [occupied] at member
        | some entry =>
            have zero :=
              unpinned _ entry (slotAt_eq_some_iff.mp occupied)
            simp only [occupied, List.mem_singleton] at member
            rw [member]
            simp [zero]
      · simp [if_neg short] at member
  | seeking startSlot =>
      simp at member
  | returned result =>
      simp at member

/-- A call changes no inflight response and allocates nothing. -/
theorem ScanRun.frame
    {sizeNeeded : UInt64} {iterations : Nat}
    {reads : List (Nat × Bool)} {point : ScanPoint}
    (run : cache.ScanRun sizeNeeded iterations reads current point) :
    current.inflightMap = cache.inflightMap ∧
      current.nextAddr = cache.nextAddr := by
  induction run with
  | enter =>
      exact ⟨rfl, rfl⟩
  | iterate _ iterated inductionHypothesis =>
      obtain ⟨_, _, inflightSame, addrSame⟩ :=
        scanIteration_frame iterated
      exact
        ⟨inflightSame.trans inductionHypothesis.1,
          addrSame.trans inductionHypothesis.2⟩
  | @interfere _ _ before after _ _ onlyPins inductionHypothesis =>
      have inflightSame :
          after.clearPins.inflightMap = before.clearPins.inflightMap := by
        rw [onlyPins]
      have addrSame :
          after.clearPins.nextAddr = before.clearPins.nextAddr := by
        rw [onlyPins]
      exact
        ⟨inflightSame.trans inductionHypothesis.1,
          addrSame.trans inductionHypothesis.2⟩

/-! ## The result of a scan that finds no pin -/

/-- There is a first free slot unless the ring is full. -/
theorem firstFree_eq_none_iff
    (slotsLength : cache.slots.length = cache.slotCount) (start : Nat) :
    cache.firstFree start = none ↔ none ∉ cache.slots := by
  unfold firstFree
  rw [List.find?_eq_none]
  constructor
  · intro occupied member
    obtain ⟨position, free⟩ := List.mem_iff_getElem?.mp member
    have inside : position < cache.slots.length :=
      (List.getElem?_eq_some_iff.mp free).1
    have positionMember : position ∈ Ring.order cache.slotCount start := by
      rw [Ring.mem_order, ← slotsLength]
      exact inside
    have notFree := occupied position positionMember
    rw [(slotAt_eq_none_iff inside).mpr free] at notFree
    simp at notFree
  · intro full position member vacant
    have inside : position < cache.slots.length := by
      rw [slotsLength]
      exact Ring.lt_of_mem_order member
    rw [Option.isNone_iff_eq_none, slotAt_eq_none_iff inside] at vacant
    exact full (List.mem_of_getElem? vacant)

/-- A ring whose slots are all free accounts for nothing. -/
theorem residentSize_eq_zero
    (vacant : ∀ position, cache.slotAt position = none) :
    cache.residentSize = 0 := by
  unfold residentSize
  rw [List.sum_eq_zero_iff]
  intro size member
  obtain ⟨slot, slotMember, rfl⟩ := List.mem_map.mp member
  obtain ⟨position, read⟩ := List.mem_iff_getElem?.mp slotMember
  have free := vacant position
  unfold slotAt at free
  rw [read] at free
  rw [show slot = none from free]
  rfl

/-- Evicting every entry makes room for whatever the capacity allows. -/
theorem makesRoom_evictable
    (slotsLength : cache.slots.length = cache.slotCount)
    (accounted : cache.Accounted)
    {sizeNeeded : UInt64}
    (fits : sizeNeeded.toNat ≤ cache.capacity.toNat) :
    cache.MakesRoom sizeNeeded (cache.evictable fun _ => false) := by
  have vacant :
      ∀ position,
        (cache.withoutSlots
          (cache.evictable fun _ => false)).slotAt position = none := by
    intro position
    rw [slotAt_withoutSlots]
    split
    · rfl
    · next kept =>
        cases read : cache.slotAt position with
        | none =>
            rfl
        | some entry =>
            have resident := slotAt_eq_some_iff.mp read
            have inside : position < cache.slotCount := by
              rw [← slotsLength]
              exact (List.getElem?_eq_some_iff.mp resident).1
            apply absurd _ kept
            unfold evictable
            rw [List.mem_filter, Ring.mem_order, read]
            exact ⟨inside, rfl⟩
  unfold MakesRoom
  rw [(accounted.withoutSlots _).sum, residentSize_eq_zero vacant]
  omega

/-- Without pins, a size within the capacity fails to find its slot only if it
fits beside the residents and the ring is full. -/
theorem ScanSpec.result_iff
    (slotsLength : cache.slots.length = cache.slotCount)
    (accounted : cache.Accounted)
    {sizeNeeded : UInt64} {result : Bool}
    (spec : cache.ScanSpec sizeNeeded (fun _ => false) result current)
    (fits : sizeNeeded.toNat ≤ cache.capacity.toNat) :
    result = true ↔
      cache.capacity.toNat <
          cache.usedSize.toNat + sizeNeeded.toNat ∨
        none ∈ cache.slots := by
  by_cases short :
      cache.capacity.toNat < cache.usedSize.toNat + sizeNeeded.toNat
  · obtain ⟨shortest, isShortest⟩ :=
      Ring.Shortest.exists_of_initial List.prefix_rfl
        (makesRoom_evictable slotsLength accounted fits)
    have found := ((spec.evicting fits short).1 shortest isShortest).1
    exact iff_of_true found (Or.inl short)
  · obtain ⟨found, full⟩ := spec.fitting (by omega)
    simp only [short, false_or]
    cases first : cache.firstFree cache.head with
    | none =>
        rw [(full first).1]
        have noFree := (firstFree_eq_none_iff slotsLength _).mp first
        exact iff_of_false (by simp) noFree
    | some free =>
        rw [(found free first).1]
        refine iff_of_true rfl ?_
        by_contra noFree
        rw [(firstFree_eq_none_iff slotsLength cache.head).mpr
          noFree] at first
        simp at first

end RingBufferCache

namespace Monitor

variable {capacity : UInt64} {slotCount : Nat}
variable {monitor entered during after : Monitor}

/-! ## A finalization that runs alone -/

/-- A finalization makes `count` iterations of its scan and ends, with no
other step between. -/
def finalizeAlone (entered : Monitor) (count : Nat) : Option Monitor :=
  checkedRun step (fun _ _ _ => true) entered
    (List.replicate count .scan ++ [.finish])

theorem finalizeAlone_eq_some_iff {count : Nat} :
    entered.finalizeAlone count = some after ↔
      ∃ during,
        checkedRun step (fun _ _ _ => true) entered
              (List.replicate count .scan) =
            some during ∧
          during.step .finish = .ok after := by
  unfold finalizeAlone
  rw [checkedRun_append, Option.bind_eq_some_iff]
  refine exists_congr ?_
  intro during
  refine and_congr_right ?_
  intro _
  cases finished : during.step .finish with
  | error reason =>
      simp [checkedRun, finished]
  | ok next =>
      simp [checkedRun, finished]

/-- Iterations alone are a finalization that reads no pin. -/
theorem FinalizeRun.of_scans
    {count : Nat} {reads : List (Nat × Bool)} {before : Monitor}
    (run : entered.FinalizeRun reads before)
    (zero : ∀ read ∈ reads, read.2 = false)
    (unpinned : before.cache.Unpinned)
    (scanned :
      checkedRun step (fun _ _ _ => true) before
          (List.replicate count .scan) =
        some during) :
    ∃ allReads,
      entered.FinalizeRun allReads during ∧
        ∀ read ∈ allReads, read.2 = false := by
  induction count generalizing before reads with
  | zero =>
      simp only [List.replicate_zero, checkedRun,
        Option.some.injEq] at scanned
      subst scanned
      exact ⟨reads, run, zero⟩
  | succ count inductionHypothesis =>
      rw [List.replicate_succ, checkedRun] at scanned
      cases stepped : before.step .scan with
      | error reason =>
          simp [stepped] at scanned
      | ok next =>
          simp only [stepped, if_true] at scanned
          obtain ⟨frame, cache, point, running, iterated, nextEq⟩ :=
            scan_eq_ok_iff.mp stepped
          have nextUnpinned : next.cache.Unpinned := by
            rw [nextEq]
            exact unpinned.scanIteration iterated
          refine
            inductionHypothesis (FinalizeRun.scan run stepped) ?_
              nextUnpinned scanned
          intro read member
          rcases List.mem_append.mp member with earlier | here
          · exact zero read earlier
          · unfold pinReads at here
            rw [running] at here
            exact unpinned.pinReads here

/-- A running scan that has made a number of its at most `2 * slotCount + 1`
iterations returns after the others. -/
theorem scans_return
    (left : Nat) {cache : RingBufferCache} {size : UInt64}
    (slotsLength : cache.slots.length = cache.slotCount)
    (headBound : cache.head < cache.slotCount)
    (accounted : cache.Accounted)
    {iterations : Nat} {reads : List (Nat × Bool)}
    {frame : FinalizeFrame}
    (stands : during.frame = some frame) (sizeEq : frame.size = size)
    (run : cache.ScanRun size iterations reads during.cache frame.point)
    (bound : 2 * cache.slotCount + 1 ≤ iterations + left) :
    ∃ count final returned result,
      checkedRun step (fun _ _ _ => true) during
            (List.replicate count .scan) =
          some final ∧
        final.frame = some returned ∧
          returned.point = .returned result := by
  induction left generalizing during iterations reads frame with
  | zero =>
      by_cases ended : ∃ result, frame.point = .returned result
      · obtain ⟨result, point⟩ := ended
        exact ⟨0, during, frame, result, rfl, stands, point⟩
      · have progress := run.progress slotsLength headBound accounted
        obtain ⟨next, nextPoint, iterated⟩ :=
          progress.iterates slotsLength headBound
            (fun result point => ended ⟨result, point⟩)
        have further :=
          (progress.iterate slotsLength headBound accounted
            iterated).iterations_le
        omega
  | succ left inductionHypothesis =>
      by_cases ended : ∃ result, frame.point = .returned result
      · obtain ⟨result, point⟩ := ended
        exact ⟨0, during, frame, result, rfl, stands, point⟩
      · have progress := run.progress slotsLength headBound accounted
        obtain ⟨cache, point, iterated⟩ :=
          progress.iterates slotsLength headBound
            (fun result point => ended ⟨result, point⟩)
        obtain ⟨next, nextEq⟩ :
            ∃ next : Monitor,
              next =
                { cache := cache
                  frame := some { frame with point := point } } :=
          ⟨_, rfl⟩
        have stepped : during.step .scan = .ok next := by
          refine
            scan_eq_ok_iff.mpr ⟨frame, cache, point, stands, ?_, nextEq⟩
          rw [sizeEq]
          exact iterated
        have nextStands :
            next.frame = some { frame with point := point } := by
          rw [nextEq]
        have nextRun := ScanRun.iterate run iterated
        rw [show cache = next.cache by rw [nextEq]] at nextRun
        obtain ⟨count, final, returned, result, scanned, finalFrame,
            atReturn⟩ :=
          inductionHypothesis nextStands sizeEq nextRun (by omega)
        refine
          ⟨count + 1, final, returned, result, ?_, finalFrame, atReturn⟩
        rw [List.replicate_succ, checkedRun, stepped]
        exact scanned

/-- A finalization whose scan has returned can end. -/
theorem Consistent.finish_total
    (consistent : during.Consistent capacity slotCount)
    {returned : FinalizeFrame} {result : Bool}
    (stands : during.frame = some returned)
    (atReturn : returned.point = .returned result) :
    ∃ after, during.step .finish = .ok after := by
  have holds := consistent.frame stands
  obtain ⟨inflight, headers, present, stored, _⟩ := holds.reserved
  have completed :
      ∃ cache, during.cache.completeFinalize returned.key result =
        .ok cache := by
    cases result with
    | false =>
        exact
          ⟨_, completeFinalize_eq_ok_iff.mpr
            ⟨inflight, present, Or.inl ⟨rfl, rfl⟩⟩⟩
    | true =>
        exact
          ⟨_, completeFinalize_eq_ok_iff.mpr
            ⟨inflight, present,
              Or.inr ⟨rfl, headers, stored, holds.free atReturn, rfl⟩⟩⟩
  obtain ⟨cache, completed⟩ := completed
  exact
    ⟨{ cache := cache }, finish_eq_ok_iff.mpr
      ⟨returned, result, stands, atReturn, rfl, completed⟩⟩

/-! ## The next lookup -/

/-- The next `lookup` of `key` is a hit on the response with these headers and
this body. -/
def HitsWith
    (monitor : Monitor) (key : Key)
    (headers : ResponseHeaderMap) (body : Bytes) : Prop :=
  ∀ callbacks waiterAddr, ∃ ptr pinned entry,
    monitor.lookup key callbacks waiterAddr =
        .ok (.hit ptr body.length, pinned) ∧
      pinned.cache.entryAt ptr = some entry ∧
        entry.key = key ∧ entry.headers = headers ∧ entry.body = body

/-- A resident response is what the next `lookup` of its key finds. -/
theorem hitsWith_of_resident
    (wellFormed : monitor.cache.WellFormed)
    (idle : monitor.frame = none)
    {position : Nat} {entry : Entry}
    (resident : monitor.cache.Resident position entry) :
    monitor.HitsWith entry.key entry.headers entry.body := by
  intro callbacks waiterAddr
  have mapped : monitor.cache.cacheMap entry.key = some entry.addr :=
    (wellFormed.indexed _ _).mpr ⟨position, entry, resident, rfl, rfl⟩
  have found := wellFormed.entryAt_of_resident resident
  have pinnedResident :=
    (resident_updatePins_iff monitor.cache entry.addr (· + 1) position
      _).mpr ⟨entry, resident, rfl⟩
  have pinnedFound :=
    (wellFormed.updatePins entry.addr (· + 1)).entryAt_of_resident
      pinnedResident
  rw [Entry.updatePins_addr] at pinnedFound
  refine
    ⟨entry.addr,
      { cache := monitor.cache.updatePins entry.addr (· + 1) },
      entry.updatePins entry.addr (· + 1), ?_, pinnedFound, ?_, ?_, ?_⟩
  · refine lookup_eq_ok_iff.mpr ⟨idle, rfl, ?_⟩
    exact
      lookupLocked_eq_ok_iff.mpr
        (Or.inl ⟨entry.addr, entry, mapped, found, rfl, rfl⟩)
  · exact Entry.updatePins_key _ _ _
  · exact Entry.updatePins_headers _ _ _
  · exact Entry.updatePins_body _ _ _

/-- A key that is not cached is no hit. -/
theorem not_hitsWith_of_unmapped
    {key : Key} (unmapped : monitor.cache.cacheMap key = none)
    (headers : ResponseHeaderMap) (body : Bytes) :
    ¬ monitor.HitsWith key headers body := by
  intro hits
  obtain ⟨ptr, pinned, entry, looked, _⟩ := hits none 0
  obtain ⟨_, _, lookedLocked⟩ := lookup_eq_ok_iff.mp looked
  rcases lookupLocked_eq_ok_iff.mp lookedLocked with
    ⟨other, _, mapped, _⟩ | ⟨_, _, impossible, _⟩ |
      ⟨_, _, _, _, _, _, impossible, _⟩
  · rw [unmapped] at mapped
    simp at mapped
  · simp at impossible
  · simp at impossible

/-- The end of a finalization makes its response the next hit, or drops it. -/
theorem finish_hitsWith_iff
    (consistent : during.Consistent capacity slotCount)
    {returned : FinalizeFrame} {result : Bool} {inflight : Inflight}
    {headers : ResponseHeaderMap}
    (stands : during.frame = some returned)
    (atReturn : returned.point = .returned result)
    (present : during.cache.inflightMap returned.key = some inflight)
    (stored : inflight.headers = some headers)
    (finished : during.step .finish = .ok after) :
    after.HitsWith returned.key headers inflight.body ↔
      result = true := by
  have afterConsistent := consistent.step finished
  obtain ⟨_, otherResult, otherStands, otherReturn, idle, completed⟩ :=
    finish_eq_ok_iff.mp finished
  rw [stands, Option.some.injEq] at otherStands
  subst otherStands
  rw [atReturn, ScanPoint.returned.injEq] at otherReturn
  subst otherReturn
  obtain ⟨other, otherPresent, ⟨rfl, dropped⟩ |
    ⟨rfl, otherHeaders, otherStored, free, inserted⟩⟩ :=
    completeFinalize_eq_ok_iff.mp completed
  · have unmapped : after.cache.cacheMap returned.key = none := by
      rw [dropped]
      exact consistent.wellFormed.unmapped_of_inflight present
    exact
      iff_of_false (not_hitsWith_of_unmapped unmapped _ _) (by simp)
  · rw [present, Option.some.injEq] at otherPresent
    subst otherPresent
    rw [stored, Option.some.injEq] at otherStored
    subst otherStored
    have resident :
        after.cache.Resident during.cache.head
          (during.cache.newEntry returned.key headers inflight.body) := by
      rw [inserted]
      exact
        (resident_withHead_iff free _ _ _).mpr (Or.inl ⟨rfl, rfl⟩)
    exact
      iff_of_true
        (hitsWith_of_resident afterConsistent.wellFormed idle resident)
        rfl

/-! ## The publish that ends a stream -/

/-- The inflight response as a publish that ends its stream completes it. -/
def Action.completed (older : Inflight) : Action → Option Inflight
  | .publishHeaders _ headers true =>
      some { older with headers := some (older.headers.getD headers) }
  | .publishData _ data true =>
      some { older with body := older.body ++ data }
  | _ => none

theorem afterPublish_total
    {cache : RingBufferCache} {key : Key} {inflight : Inflight}
    {headers : ResponseHeaderMap}
    (present : cache.inflightMap key = some inflight)
    (stored : inflight.headers = some headers) :
    afterPublish cache key true =
      .ok
        { cache := cache
          frame :=
            some
              { key := key
                size := reservedSize key headers inflight
                point :=
                  cache.enterScan
                    (reservedSize key headers inflight) } } :=
  afterPublish_eq_ok_iff.mpr
    ⟨rfl, Or.inr ⟨rfl, inflight, headers, present, stored, rfl⟩⟩

/-- The publish that completes a response with headers enters its
finalization. -/
theorem enters_of_completed
    {action : Action} {key : Key} {older inflight : Inflight}
    {headers : ResponseHeaderMap}
    (idle : monitor.frame = none)
    (ends : action.endedKey = some key)
    (present : monitor.cache.inflightMap key = some older)
    (completes : action.completed older = some inflight)
    (stored : inflight.headers = some headers) :
    ∃ entered,
      monitor.step action = .ok entered ∧
        Enters monitor.cache key inflight headers entered := by
  have replaced :
      (monitor.cache.setInflight key (some inflight)).inflightMap key =
        some inflight := by
    simp [setInflight]
  refine
    ⟨{ cache := monitor.cache.setInflight key (some inflight)
       frame :=
        some
          { key := key
            size := reservedSize key headers inflight
            point :=
              (monitor.cache.setInflight key (some inflight)).enterScan
                (reservedSize key headers inflight) } },
      ?_, ⟨stored, rfl, rfl⟩⟩
  cases action with
  | publishHeaders other published endStream =>
      cases endStream with
      | false =>
          simp [Action.endedKey] at ends
      | true =>
          simp only [Action.endedKey, Option.some.injEq] at ends
          subst ends
          simp only [Action.completed, Option.some.injEq] at completes
          have locked :
              (monitor.cache.publishHeadersLocked other published
                  true).2 =
                monitor.cache.setInflight other (some inflight) := by
            unfold publishHeadersLocked
            rw [present, ← completes]
          have entering := afterPublish_total replaced stored
          rw [← locked] at entering
          have publishes :=
            publishHeaders_eq_ok_iff.mpr ⟨idle, rfl, entering⟩
          rw [locked] at publishes
          exact bind_eq_ok_iff.mpr ⟨_, publishes, rfl⟩
  | publishData other data endStream =>
      cases endStream with
      | false =>
          simp [Action.endedKey] at ends
      | true =>
          simp only [Action.endedKey, Option.some.injEq] at ends
          subst ends
          simp only [Action.completed, Option.some.injEq] at completes
          have locked :
              (monitor.cache.publishDataLocked other data true).2 =
                monitor.cache.setInflight other (some inflight) := by
            unfold publishDataLocked
            rw [present, ← completes]
          have entering := afterPublish_total replaced stored
          rw [← locked] at entering
          have publishes :=
            publishData_eq_ok_iff.mpr ⟨idle, rfl, entering⟩
          rw [locked] at publishes
          exact bind_eq_ok_iff.mpr ⟨_, publishes, rfl⟩
  | lookup other callbacks waiterAddr =>
      simp [Action.endedKey] at ends
  | removeWaiter other waiterAddr =>
      simp [Action.endedKey] at ends
  | scan =>
      simp [Action.endedKey] at ends
  | finish =>
      simp [Action.endedKey] at ends
  | unpin ptr =>
      simp [Action.endedKey] at ends

/-- A size within the capacity does not wrap. -/
theorem reservedSize_toNat
    {key : Key} {headers : ResponseHeaderMap} {inflight : Inflight}
    (fits :
      key.length + headers.length + inflight.body.length ≤
        capacity.toNat) :
    (reservedSize key headers inflight).toNat =
      key.length + headers.length + inflight.body.length := by
  have capacityBound := capacity.toNat_lt
  unfold reservedSize
  simp only [UInt64.toNat_add, UInt64.toNat_ofNat']
  omega

theorem Enters.unpinned
    {cache : RingBufferCache} {key : Key} {inflight : Inflight}
    {headers : ResponseHeaderMap}
    (enters : Enters cache key inflight headers entered)
    (unpinned : cache.Unpinned) : entered.cache.Unpinned := by
  rw [enters.cacheEq]
  exact unpinned

/-- When nothing is pinned, a finalization that runs alone returns. -/
theorem Enters.finalizes
    (positive : 0 < slotCount)
    (reachable :
      Reachable step (create capacity slotCount)
        (fun _ _ _ => True) entered)
    {cache : RingBufferCache} {key : Key} {inflight : Inflight}
    {headers : ResponseHeaderMap}
    (enters : Enters cache key inflight headers entered) :
    ∃ count after, entered.finalizeAlone count = some after := by
  have consistent := consistent_of_reachable reachable
  have wellFormed := consistent.wellFormed
  have headBound := consistent.headBound positive
  obtain ⟨count, during, returned, result, scanned, stands, atReturn⟩ :=
    scans_return (2 * entered.cache.slotCount + 1)
      wellFormed.slotsLength headBound wellFormed.toAccounted
      enters.frameEq rfl ScanRun.enter (by omega)
  have duringReachable :
      Reachable step (create capacity slotCount) (fun _ _ _ => True)
        during :=
    Reachable.of_checkedRun (fun _ _ _ _ => trivial) reachable scanned
  obtain ⟨after, finished⟩ :=
    (consistent_of_reachable duringReachable).finish_total stands atReturn
  exact
    ⟨count, after, finalizeAlone_eq_some_iff.mpr
      ⟨during, scanned, finished⟩⟩

/-- When nothing is pinned, the response of a finalization that runs alone is
the next hit unless it fits beside the residents and the ring is full. -/
theorem Enters.hitsWith_iff
    (positive : 0 < slotCount)
    (reachable :
      Reachable step (create capacity slotCount)
        (fun _ _ _ => True) entered)
    {cache : RingBufferCache} {key : Key} {inflight : Inflight}
    {headers : ResponseHeaderMap}
    (enters : Enters cache key inflight headers entered)
    (unpinned : cache.Unpinned)
    (fits :
      key.length + headers.length + inflight.body.length ≤
        capacity.toNat)
    {count : Nat} (finalized : entered.finalizeAlone count = some after) :
    after.HitsWith key headers inflight.body ↔
      capacity.toNat <
          cache.usedSize.toNat +
            (key.length + headers.length + inflight.body.length) ∨
        none ∈ cache.slots := by
  have consistent := consistent_of_reachable reachable
  have wellFormed := consistent.wellFormed
  obtain ⟨during, scanned, finished⟩ :=
    finalizeAlone_eq_some_iff.mp finalized
  have duringConsistent : during.Consistent capacity slotCount :=
    consistent_of_reachable
      (Reachable.of_checkedRun (fun _ _ _ _ => trivial) reachable scanned)
  obtain ⟨returned, result, stands, atReturn, _, _⟩ :=
    finish_eq_ok_iff.mp finished
  obtain ⟨reads, run, zero⟩ :=
    FinalizeRun.of_scans FinalizeRun.enter (by simp)
      (enters.unpinned unpinned) scanned
  obtain ⟨sameKey, spec⟩ :=
    run.spec positive consistent enters.frameEq rfl stands atReturn
      (fun _ => false) (fun read member => (zero read member).symm)
  obtain ⟨_, _, frameEq, scanRun⟩ := run.scanRun enters.frameEq rfl
  have present :
      during.cache.inflightMap returned.key = some inflight := by
    rw [scanRun.frame.1, sameKey, enters.cacheEq]
    simp [setInflight]
  have decided :=
    finish_hitsWith_iff duringConsistent stands atReturn present
      enters.headersEq finished
  rw [sameKey] at decided
  have sizeEq := reservedSize_toNat fits
  have resultIff :=
    spec.result_iff wellFormed.slotsLength wellFormed.toAccounted
      (by
        rw [consistent.capacityEq]
        exact sizeEq.trans_le fits)
  rw [consistent.capacityEq] at resultIff
  simp only [sizeEq] at resultIff
  rw [enters.cacheEq] at resultIff
  exact decided.trans resultIff

/-- When nothing is pinned, the publish that ends the stream of a response
within the capacity returns, and the next `lookup` is a hit on the response
exactly if entries have to make room for its bytes or a slot is free. -/
theorem fittingResponseAdmitted_iff
    (positive : 0 < slotCount)
    (reachable :
      Reachable step (create capacity slotCount)
        (fun _ _ _ => True) monitor)
    (idle : monitor.frame = none)
    (unpinned : monitor.cache.Unpinned)
    {action : Action} {key : Key} {older inflight : Inflight}
    {headers : ResponseHeaderMap}
    (ends : action.endedKey = some key)
    (present : monitor.cache.inflightMap key = some older)
    (completes : action.completed older = some inflight)
    (published : inflight.headers = some headers)
    (fits :
      key.length + headers.length + inflight.body.length ≤
        capacity.toNat) :
    ∃ entered,
      monitor.step action = .ok entered ∧
        (∃ count after, entered.finalizeAlone count = some after) ∧
          ∀ count after, entered.finalizeAlone count = some after →
            (after.HitsWith key headers inflight.body ↔
              capacity.toNat <
                  monitor.cache.usedSize.toNat +
                    (key.length + headers.length +
                      inflight.body.length) ∨
                none ∈ monitor.cache.slots) := by
  obtain ⟨entered, stepped, enters⟩ :=
    enters_of_completed idle ends present completes published
  have enteredReachable := Reachable.next reachable stepped trivial
  refine
    ⟨entered, stepped, enters.finalizes positive enteredReachable, ?_⟩
  intro count after finalized
  exact
    enters.hitsWith_iff positive enteredReachable unpinned fits finalized

/-- A response of three bytes is cached and a second one is being fetched. -/
def secondFetchRun : List Action :=
  [.lookup [1] none 0, .publishHeaders [1] [([2], [3])] false,
    .publishData [1] [4] true, .scan, .scan, .finish,
    .lookup [5] none 1, .publishHeaders [5] [([2], [3])] false]

/-- In a ring with one slot and a capacity of ten bytes the second response of
three bytes is dropped, although nothing is pinned: there is room for its
bytes, so nothing is evicted, and there is no slot for it. -/
theorem fittingResponse_dropped :
    ∃ monitor entered after older,
      Reachable step (create 10 1) (fun _ _ _ => True) monitor ∧
        monitor.frame = none ∧
          monitor.cache.Unpinned ∧
            monitor.cache.inflightMap [5] = some older ∧
              older.headers = some [([2], [3])] ∧
                older.body = [] ∧
                  monitor.step (.publishData [5] [6] true) =
                      .ok entered ∧
                    entered.finalizeAlone 2 = some after ∧
                      ¬ after.HitsWith [5] [([2], [3])] [6] := by
  have run :
      ∃ monitor entered after older,
        checkedRun step (fun _ _ _ => true) (create 10 1)
              secondFetchRun =
            some monitor ∧
          monitor.frame = none ∧
            (∀ slot ∈ monitor.cache.slots,
              ∀ entry, slot = some entry → entry.pins = 0) ∧
              monitor.cache.inflightMap [5] = some older ∧
                older.headers = some [([2], [3])] ∧
                  older.body = [] ∧
                    monitor.step (.publishData [5] [6] true) =
                        .ok entered ∧
                      entered.finalizeAlone 2 = some after ∧
                        after.cache.cacheMap [5] = none := by
    refine ⟨_, _, _, _, rfl, rfl, ?_, rfl, rfl, rfl, rfl, rfl, rfl⟩
    intro slot member entry occupied
    change slot ∈ [some _] at member
    rw [List.mem_singleton, occupied, Option.some.injEq] at member
    rw [member]
    rfl
  obtain ⟨monitor, entered, after, older, ran, idle, unpinned, present,
    stored, body, stepped, finalized, uncached⟩ := run
  refine
    ⟨monitor, entered, after, older, ?_, idle, ?_, present, stored, body,
      stepped, finalized, not_hitsWith_of_unmapped uncached _ _⟩
  · exact
      Reachable.of_checkedRun (fun _ _ _ _ => trivial) Reachable.start ran
  · intro position entry resident
    exact unpinned _ (List.mem_of_getElem? resident) entry rfl

/-- With two slots the second response is admitted. -/
theorem fittingResponseAdmitted_iff_secondFetchRun :
    ∃ monitor entered after,
      checkedRun step (fun _ _ _ => true) (create 10 2) secondFetchRun =
          some monitor ∧
        monitor.step (.publishData [5] [6] true) = .ok entered ∧
          entered.finalizeAlone 2 = some after ∧
            after.HitsWith [5] [([2], [3])] [6] := by
  have run :
      ∃ monitor after older,
        checkedRun step (fun _ _ _ => true) (create 10 2)
              secondFetchRun =
            some monitor ∧
          monitor.frame = none ∧
            (∀ slot ∈ monitor.cache.slots,
              ∀ entry, slot = some entry → entry.pins = 0) ∧
              none ∈ monitor.cache.slots ∧
                monitor.cache.inflightMap [5] = some older ∧
                  (Action.publishData [5] [6] true).completed older =
                      some
                        { headers := some [([2], [3])]
                          body := [6]
                          waiters := [] } ∧
                    ((monitor.step
                      (.publishData [5] [6] true)).toOption.bind
                        fun entered => entered.finalizeAlone 2) =
                      some after := by
    refine ⟨_, _, _, rfl, rfl, ?_, ?_, rfl, rfl, rfl⟩
    · intro slot member entry occupied
      change slot ∈ [some _, none] at member
      subst occupied
      simp only [List.mem_cons, Option.some.injEq, reduceCtorEq,
        List.not_mem_nil, or_false] at member
      rw [member]
      rfl
    · change none ∈ [some _, none]
      simp
  obtain ⟨monitor, after, older, ran, idle, unpinned, free, present,
    completes, finalized⟩ := run
  obtain ⟨entered, stepped, _, decided⟩ :=
    fittingResponseAdmitted_iff (by decide)
      (Reachable.of_checkedRun (fun _ _ _ _ => trivial)
        Reachable.start ran)
      idle
      (fun position entry resident =>
        unpinned _ (List.mem_of_getElem? resident) entry rfl)
      rfl present completes rfl (by decide)
  rw [stepped] at finalized
  exact
    ⟨monitor, entered, after, ran, stepped, finalized,
      (decided 2 after finalized).mpr (Or.inr free)⟩

end Monitor

end RingCache

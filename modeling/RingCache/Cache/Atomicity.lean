import RingCache.Cache.Admission
import RingCache.Library.Schedules

/-!
# A finalization and the pin releases during it

Pins are dropped without the mutex, so releases fall between the iterations of
a running eviction scan, which reads the pins one slot at a time.  A release of
an entry that the scan evicts could as well have come before the finalization,
and a release of an entry that stays could as well have come after it.  Every
finalization is therefore equivalent to one that nobody interrupts.
-/

namespace RingCache

open Transition RingBufferCache

namespace RingBufferCache

variable {cache next current final : RingBufferCache}
variable {ptr other : EntryPtr} {update : UInt32 → UInt32}
variable {sizeNeeded : UInt64} {point nextPoint finalPoint : ScanPoint}

/-! ## Iterations and updates of pins -/

theorem withoutHead_updatePins (entry : Entry) :
    (cache.updatePins ptr update).withoutHead
        (entry.updatePins ptr update) =
      (cache.withoutHead entry).updatePins ptr update := by
  simp [withoutHead, updatePins, List.map_set]

theorem resident_updatePins
    {position : Nat} {entry : Entry}
    (resident : cache.Resident position entry) :
    (cache.updatePins ptr update).Resident position
      (entry.updatePins ptr update) :=
  (resident_updatePins_iff cache ptr update position _).mpr
    ⟨entry, resident, rfl⟩

theorem vacant_updatePins
    {position : Nat} (vacant : cache.slots[position]? = some none) :
    (cache.updatePins ptr update).slots[position]? = some none := by
  simp [updatePins, vacant]

theorem pins_updatePins_eq_zero_iff
    {entry : Entry}
    (samePinned :
      entry.addr = ptr → (update entry.pins = 0 ↔ entry.pins = 0)) :
    (entry.updatePins ptr update).pins = 0 ↔ entry.pins = 0 := by
  unfold Entry.updatePins
  by_cases same : entry.addr = ptr
  · rw [if_pos same]
    exact samePinned same
  · rw [if_neg same]

/-- The first loop meets the same kind of slot after an update of pins that
leaves the head entry pinned or unpinned. -/
theorem tryEvictHead_updatePins
    (samePinned :
      ∀ entry,
        cache.Resident cache.head entry →
        entry.addr = ptr →
          (update entry.pins = 0 ↔ entry.pins = 0))
    (tried : cache.tryEvictHead = .ok next) :
    (cache.updatePins ptr update).tryEvictHead =
      .ok (next.updatePins ptr update) := by
  apply tryEvictHead_eq_ok_iff.mpr
  rcases tryEvictHead_eq_ok_iff.mp tried with
    ⟨vacant, rfl⟩ | ⟨entry, resident, isPinned, rfl⟩ |
      ⟨entry, resident, unpinned, rfl⟩
  · exact Or.inl ⟨vacant_updatePins vacant, rfl⟩
  · refine
      Or.inr (Or.inl
        ⟨_, resident_updatePins resident, ?_, rfl⟩)
    intro zero
    exact
      isPinned
        ((pins_updatePins_eq_zero_iff (samePinned entry resident)).mp
          zero)
  · exact
      Or.inr (Or.inr
        ⟨_, resident_updatePins resident,
          (pins_updatePins_eq_zero_iff (samePinned entry resident)).mpr
            unpinned,
          (withoutHead_updatePins entry).symm⟩)

/-- An iteration reads the pins of the head entry when it is one of the first
loop that lacks room. -/
theorem pinReads_evicting
    {start : Nat} {entry : Entry}
    (short : cache.freeSize < sizeNeeded)
    (resident : cache.Resident cache.head entry) :
    cache.pinReads sizeNeeded (.evicting start) =
      [(cache.head, decide (entry.pins ≠ 0))] := by
  unfold pinReads
  simp only [if_pos short, slotAt_eq_some_iff.mpr resident]

theorem pinReads_ne_nil_iff :
    cache.pinReads sizeNeeded point ≠ [] ↔
      (∃ start, point = .evicting start) ∧
        cache.freeSize < sizeNeeded ∧
          ∃ entry, cache.Resident cache.head entry := by
  constructor
  · intro reads
    cases point with
    | evicting start =>
        unfold pinReads at reads
        by_cases short : cache.freeSize < sizeNeeded
        · refine ⟨⟨start, rfl⟩, short, ?_⟩
          cases occupied : cache.slotAt cache.head with
          | none =>
              simp [occupied] at reads
          | some entry =>
              exact ⟨entry, slotAt_eq_some_iff.mp occupied⟩
        · simp [short] at reads
    | seeking startSlot =>
        exact absurd rfl reads
    | returned result =>
        exact absurd rfl reads
  · intro reads
    obtain ⟨⟨start, rfl⟩, short, entry, resident⟩ := reads
    rw [pinReads_evicting short resident]
    exact List.cons_ne_nil _ _

theorem pinReads_updatePins_ne_nil
    (reads :
      (cache.updatePins ptr update).pinReads sizeNeeded point ≠ []) :
    cache.pinReads sizeNeeded point ≠ [] := by
  obtain ⟨first, short, entry, resident⟩ := pinReads_ne_nil_iff.mp reads
  obtain ⟨before, beforeResident, _⟩ :=
    (resident_updatePins_iff _ _ _ _ _).mp resident
  exact pinReads_ne_nil_iff.mpr ⟨first, short, before, beforeResident⟩

/-- An iteration that reads no pin of an entry, or only whether it is pinned,
goes the same way after an update of that entry's pins. -/
theorem scanIteration_updatePins
    (samePinned :
      ∀ entry,
        cache.Resident cache.head entry →
        entry.addr = ptr →
        cache.pinReads sizeNeeded point ≠ [] →
          (update entry.pins = 0 ↔ entry.pins = 0))
    (iterated :
      cache.scanIteration sizeNeeded point = .ok (next, nextPoint)) :
    (cache.updatePins ptr update).scanIteration sizeNeeded point =
      .ok (next.updatePins ptr update, nextPoint) := by
  cases point with
  | evicting start =>
      apply scanIteration_evicting_eq_ok_iff.mpr
      rcases scanIteration_evicting_eq_ok_iff.mp iterated with
        ⟨enough, rfl, rfl⟩ | ⟨short, evicted, tried, rfl, rfl⟩
      · exact Or.inl ⟨enough, rfl, rfl⟩
      · refine
          Or.inr ⟨short, evicted.updatePins ptr update, ?_, rfl, rfl⟩
        refine tryEvictHead_updatePins ?_ tried
        intro entry resident sameAddr
        exact
          samePinned entry resident sameAddr
            (pinReads_ne_nil_iff.mpr
              ⟨⟨start, rfl⟩, short, entry, resident⟩)
  | seeking startSlot =>
      apply scanIteration_seeking_eq_ok_iff.mpr
      rcases scanIteration_seeking_eq_ok_iff.mp iterated with
        ⟨vacant, rfl, rfl⟩ | ⟨⟨entry, resident⟩, rfl, rfl⟩
      · exact Or.inl ⟨vacant_updatePins vacant, rfl, rfl⟩
      · exact
          Or.inr ⟨⟨_, resident_updatePins resident⟩, rfl, rfl⟩
  | returned result =>
      simp [scanIteration] at iterated

/-- Updates of pins that commute. -/
theorem updatePins_comm
    {first second : UInt32 → UInt32}
    (commute : ∀ pins, first (second pins) = second (first pins)) :
    (cache.updatePins ptr first).updatePins other second =
      (cache.updatePins other second).updatePins ptr first := by
  have entries :
      ∀ entry : Entry,
        (entry.updatePins ptr first).updatePins other second =
          (entry.updatePins other second).updatePins ptr first := by
    intro entry
    cases entry with
    | mk addr key headers body pins =>
        simp only [Entry.updatePins]
        by_cases one : addr = ptr
        · by_cases two : addr = other
          · simp [← one, ← two, commute]
          · simp [← one, two]
        · by_cases two : addr = other
          · simp [one, ← two]
          · simp [one, two]
  simp [updatePins, Function.comp_def, entries]

/-- An update of pins that another one undoes. -/
theorem updatePins_undo
    {undo : UInt32 → UInt32} (undone : ∀ pins, undo (update pins) = pins)
    (cache : RingBufferCache) (ptr : EntryPtr) :
    (cache.updatePins ptr update).updatePins ptr undo = cache := by
  have entries :
      ∀ entry : Entry,
        (entry.updatePins ptr update).updatePins ptr undo = entry := by
    intro entry
    cases entry with
    | mk addr key headers body pins =>
        simp only [Entry.updatePins]
        by_cases same : addr = ptr
        · simp [same, undone]
        · simp [same]
  simp [updatePins, Function.comp_def, entries]

/-! ## Interleavings of iterations and releases -/

/-- The entry at an address is resident and someone holds a pin on it. -/
def HoldsPin (cache : RingBufferCache) (ptr : EntryPtr) : Prop :=
  ∃ position entry,
    cache.Resident position entry ∧ entry.addr = ptr ∧ entry.pins ≠ 0

theorem HoldsPin.entryAt (held : cache.HoldsPin ptr) :
    ∃ entry, cache.entryAt ptr = some entry := by
  obtain ⟨position, entry, resident, sameAddr, _⟩ := held
  rw [← Option.isSome_iff_exists, RingBufferCache.entryAt,
    List.findSome?_isSome_iff]
  refine ⟨some entry, List.mem_of_getElem? resident, ?_⟩
  simp [sameAddr]

/-- A scan goes on for a number of iterations while others release pins that
they hold, given by the addresses of the entries. -/
inductive Interleaving (sizeNeeded : UInt64) :
    RingBufferCache → ScanPoint → List EntryPtr → Nat →
      RingBufferCache → ScanPoint → Prop
  | done {cache : RingBufferCache} {point : ScanPoint} :
      Interleaving sizeNeeded cache point [] 0 cache point
  | iterate
      {cache next final : RingBufferCache}
      {point nextPoint finalPoint : ScanPoint}
      {releases : List EntryPtr} {iterations : Nat} :
      cache.scanIteration sizeNeeded point = .ok (next, nextPoint) →
      Interleaving sizeNeeded next nextPoint releases iterations final
        finalPoint →
      Interleaving sizeNeeded cache point releases (iterations + 1)
        final finalPoint
  | release
      {cache final : RingBufferCache} {point finalPoint : ScanPoint}
      {ptr : EntryPtr} {releases : List EntryPtr} {iterations : Nat} :
      cache.HoldsPin ptr →
      Interleaving sizeNeeded (cache.updatePins ptr (· - 1)) point
        releases iterations final finalPoint →
      Interleaving sizeNeeded cache point (ptr :: releases) iterations
        final finalPoint

/-- Every entry stays in its slot until it is evicted. -/
theorem resident_of_scanIteration
    (iterated :
      cache.scanIteration sizeNeeded point = .ok (next, nextPoint))
    {position : Nat} {entry : Entry}
    (resident : next.Resident position entry) :
    cache.Resident position entry := by
  obtain ⟨evicted, evictedCases, nextCases⟩ :=
    scanIteration_eq_ok iterated
  have evictedResident : evicted.Resident position entry := by
    rcases nextCases with rfl | rfl
    · exact resident
    · exact resident
  rcases evictedCases with rfl | ⟨head, headResident, _, rfl⟩
  · exact evictedResident
  · exact
      ((resident_withoutHead_iff headResident _ _).mp evictedResident).2

/-- What a call has emptied, wherever it stands. -/
theorem Progress.emptied
    {reads : List (Nat × Bool)} {iterations : Nat}
    (progress : Progress cache sizeNeeded reads current iterations point) :
    ∃ head, cache.Emptied (evictedBy reads) head current := by
  cases progress with
  | evicting _ _ emptied =>
      exact ⟨_, emptied⟩
  | seeking _ _ _ _ _ emptied =>
      exact ⟨_, emptied⟩
  | found _ _ _ _ emptied =>
      exact ⟨_, emptied⟩
  | tooLarge _ unread emptied =>
      subst unread
      exact ⟨_, emptied⟩
  | lost _ _ _ emptied =>
      exact ⟨_, emptied⟩
  | full _ unread _ emptied =>
      subst unread
      exact ⟨_, emptied⟩

/-- The slots that a call reads are occupied when it is made. -/
theorem Progress.read_occupied
    {reads : List (Nat × Bool)} {iterations : Nat}
    (progress : Progress cache sizeNeeded reads current iterations point)
    {read : Nat × Bool} (member : read ∈ reads) :
    (cache.slotAt read.1).isSome = true := by
  have scanned :
      ∀ {slots : Nat},
        cache.Scanned sizeNeeded reads slots →
          (cache.slotAt read.1).isSome = true := by
    intro slots scan
    have position : read.1 ∈ reads.map Prod.fst :=
      List.mem_map_of_mem member
    rw [scan.positions, List.mem_filter] at position
    exact position.2
  cases progress with
  | evicting _ scan =>
      exact scanned scan
  | seeking _ scan =>
      exact scanned scan
  | found _ scan =>
      exact scanned scan
  | tooLarge _ unread =>
      simp [unread] at member
  | lost _ scan =>
      exact scanned scan
  | full _ unread =>
      simp [unread] at member

/-- An entry that the scan has read as pinned keeps its slot. -/
theorem Progress.survives
    {reads : List (Nat × Bool)} {iterations : Nat}
    (progress : Progress cache sizeNeeded reads current iterations point)
    {position : Nat} (member : (position, true) ∈ reads) :
    ∃ entry, current.Resident position entry := by
  have notEvicted : position ∉ evictedBy reads := by
    intro evicted
    simp only [evictedBy, List.mem_map, List.mem_filter,
      Bool.not_eq_true'] at evicted
    obtain ⟨other, ⟨otherMember, unpinned⟩, samePosition⟩ := evicted
    have same :=
      List.inj_on_of_nodup_map progress.nodup otherMember member
        samePosition
    rw [same] at unpinned
    simp at unpinned
  obtain ⟨head, emptied⟩ := progress.emptied
  have occupied : (current.slotAt position).isSome = true := by
    rw [emptied.isSome_slotAt, slotAt_withoutSlots, if_neg notEvicted]
    exact progress.read_occupied member
  obtain ⟨entry, read⟩ := Option.isSome_iff_exists.mp occupied
  exact ⟨entry, slotAt_eq_some_iff.mp read⟩

/-- An iteration that reads the head entry as unpinned evicts it. -/
theorem scanIteration_evicts
    (iterated :
      cache.scanIteration sizeNeeded point = .ok (next, nextPoint))
    {entry : Entry} (resident : cache.Resident cache.head entry)
    (reads : cache.pinReads sizeNeeded point ≠ [])
    (zero : entry.pins = 0) (other : Entry) :
    ¬ next.Resident cache.head other := by
  intro nextResident
  obtain ⟨⟨start, rfl⟩, short, _⟩ := pinReads_ne_nil_iff.mp reads
  rcases scanIteration_evicting_eq_ok_iff.mp iterated with
    ⟨enough, _, _⟩ | ⟨_, evicted, tried, rfl, _⟩
  · exact enough short
  · unfold Resident at resident
    rcases tryEvictHead_eq_ok_iff.mp tried with
      ⟨vacant, _⟩ | ⟨found, foundResident, isPinned, _⟩ |
        ⟨found, foundResident, _, rfl⟩
    · rw [resident] at vacant
      simp at vacant
    · unfold Resident at foundResident
      rw [resident, Option.some.injEq, Option.some.injEq]
        at foundResident
      subst foundResident
      exact isPinned zero
    · exact
        ((resident_withoutHead_iff foundResident _ _).mp
          nextResident).1 rfl

namespace Interleaving

variable {releases : List EntryPtr} {iterations : Nat}

theorem resident
    (run :
      Interleaving sizeNeeded cache point releases iterations final
        finalPoint)
    {position : Nat} {entry : Entry}
    (stays : final.Resident position entry) :
    ∃ earlier,
      cache.Resident position earlier ∧ earlier.addr = entry.addr := by
  induction run with
  | done =>
      exact ⟨entry, stays, rfl⟩
  | iterate iterated _ inductionHypothesis =>
      obtain ⟨earlier, resident, sameAddr⟩ := inductionHypothesis stays
      exact
        ⟨earlier, resident_of_scanIteration iterated resident, sameAddr⟩
  | release _ _ inductionHypothesis =>
      obtain ⟨earlier, resident, sameAddr⟩ := inductionHypothesis stays
      obtain ⟨before, beforeResident, rfl⟩ :=
        (resident_updatePins_iff _ _ _ _ _).mp resident
      exact ⟨before, beforeResident, by simpa using sameAddr⟩

/-- Without releases entries do not change. -/
theorem resident_alone
    (run :
      Interleaving sizeNeeded cache point [] iterations final finalPoint)
    {position : Nat} {entry : Entry}
    (stays : final.Resident position entry) :
    cache.Resident position entry := by
  generalize none : ([] : List EntryPtr) = releases at run
  induction run with
  | done =>
      exact stays
  | iterate iterated _ inductionHypothesis =>
      exact
        resident_of_scanIteration iterated
          (inductionHypothesis stays none)
  | release =>
      simp at none

/-- The iterations and releases continue a call of the scan. -/
theorem scanRun
    {base : RingBufferCache} {earlier : Nat}
    {reads : List (Nat × Bool)}
    (started : base.ScanRun sizeNeeded earlier reads cache point)
    (run :
      Interleaving sizeNeeded cache point releases iterations final
        finalPoint) :
    ∃ later total,
      base.ScanRun sizeNeeded total (reads ++ later) final
        finalPoint := by
  induction run generalizing earlier reads with
  | done =>
      exact ⟨[], earlier, by simpa using started⟩
  | iterate iterated _ inductionHypothesis =>
      obtain ⟨later, total, finalRun⟩ :=
        inductionHypothesis (ScanRun.iterate started iterated)
      rw [List.append_assoc] at finalRun
      exact ⟨_, total, finalRun⟩
  | release _ _ inductionHypothesis =>
      exact
        inductionHypothesis
          (ScanRun.interfere started (clearPins_updatePins _ _ _))

theorem holdsPin_of_mem
    (run :
      Interleaving sizeNeeded cache point releases iterations final
        finalPoint)
    (member : ptr ∈ releases) :
    ∃ position entry,
      cache.Resident position entry ∧ entry.addr = ptr := by
  induction run with
  | done =>
      simp at member
  | iterate iterated _ inductionHypothesis =>
      obtain ⟨position, entry, resident, sameAddr⟩ :=
        inductionHypothesis member
      exact
        ⟨position, entry, resident_of_scanIteration iterated resident,
          sameAddr⟩
  | release held _ inductionHypothesis =>
      rcases List.mem_cons.mp member with rfl | later
      · obtain ⟨position, entry, resident, sameAddr, _⟩ := held
        exact ⟨position, entry, resident, sameAddr⟩
      · obtain ⟨position, entry, resident, sameAddr⟩ :=
          inductionHypothesis later
        obtain ⟨before, beforeResident, rfl⟩ :=
          (resident_updatePins_iff _ _ _ _ _).mp resident
        exact
          ⟨position, before, beforeResident, by simpa using sameAddr⟩

/-- Releases of entries that an iteration does not read can come before
it. -/
theorem releases_first
    (iterated :
      cache.scanIteration sizeNeeded point = .ok (next, nextPoint))
    (unread :
      ∀ entry,
        cache.Resident cache.head entry →
        cache.pinReads sizeNeeded point ≠ [] →
          entry.addr ∉ releases)
    (run : Interleaving sizeNeeded next nextPoint releases 0 final
      nextPoint) :
    ∃ released,
      Interleaving sizeNeeded cache point releases 0 released point ∧
        released.scanIteration sizeNeeded point =
          .ok (final, nextPoint) := by
  induction releases generalizing cache next with
  | nil =>
      cases run
      exact ⟨cache, Interleaving.done, iterated⟩
  | cons ptr rest inductionHypothesis =>
      cases run with
      | release held run =>
          have moved :
              (cache.updatePins ptr (· - 1)).scanIteration sizeNeeded
                  point =
                .ok (next.updatePins ptr (· - 1), nextPoint) := by
            refine scanIteration_updatePins ?_ iterated
            intro entry resident sameAddr reads
            refine absurd ?_ (unread entry resident reads)
            rw [sameAddr]
            exact List.mem_cons_self
          have laterUnread :
              ∀ entry,
                (cache.updatePins ptr (· - 1)).Resident cache.head
                    entry →
                (cache.updatePins ptr (· - 1)).pinReads sizeNeeded
                    point ≠
                  [] →
                  entry.addr ∉ rest := by
            intro entry resident reads member
            obtain ⟨before, beforeResident, rfl⟩ :=
              (resident_updatePins_iff _ _ _ _ _).mp resident
            refine
              unread before beforeResident
                (pinReads_updatePins_ne_nil reads) ?_
            rw [Entry.updatePins_addr] at member
            exact List.mem_cons_of_mem _ member
          obtain ⟨released, releasing, scanned⟩ :=
            inductionHypothesis moved laterUnread run
          obtain ⟨position, entry, resident, sameAddr, isPinned⟩ := held
          exact
            ⟨released,
              Interleaving.release
                ⟨position, entry,
                  resident_of_scanIteration iterated resident, sameAddr,
                  isPinned⟩
                releasing,
              scanned⟩

/-- A pin more on an entry that stays changes nothing for a scan alone. -/
theorem add_pin_alone
    (run :
      Interleaving sizeNeeded cache point [] iterations final finalPoint)
    (stays :
      ∀ position entry,
        cache.Resident position entry →
        entry.addr = ptr →
          entry.pins + 1 ≠ 0 ∧ final.Resident position entry) :
    Interleaving sizeNeeded (cache.updatePins ptr (· + 1)) point []
      iterations (final.updatePins ptr (· + 1)) finalPoint := by
  generalize none : ([] : List EntryPtr) = releases at run ⊢
  induction run with
  | done =>
      exact Interleaving.done
  | @iterate before next final point nextPoint finalPoint releases
      iterations iterated rest inductionHypothesis =>
      subst none
      refine Interleaving.iterate (scanIteration_updatePins ?_ iterated)
        (inductionHypothesis ?_ rfl)
      · intro entry resident sameAddr reads
        obtain ⟨nonzero, finalResident⟩ :=
          stays before.head entry resident sameAddr
        have isPinned : entry.pins ≠ 0 := by
          intro zero
          exact
            scanIteration_evicts iterated resident reads zero entry
              (rest.resident_alone finalResident)
        exact iff_of_false nonzero isPinned
      · intro position entry resident sameAddr
        exact
          stays position entry
            (resident_of_scanIteration iterated resident) sameAddr
  | release =>
      simp at none

/-- A pin more on an entry changes nothing for the releases of others. -/
theorem add_pin_releases
    (run : Interleaving sizeNeeded cache point releases 0 final point)
    (others : ptr ∉ releases) :
    Interleaving sizeNeeded (cache.updatePins ptr (· + 1)) point releases
      0 (final.updatePins ptr (· + 1)) point := by
  induction releases generalizing cache with
  | nil =>
      cases run
      exact Interleaving.done
  | cons other rest inductionHypothesis =>
      have different : other ≠ ptr := by
        intro same
        rw [same] at others
        exact others List.mem_cons_self
      have restOthers : ptr ∉ rest :=
        fun member => others (List.mem_cons_of_mem _ member)
      cases run with
      | release held run =>
          obtain ⟨position, entry, resident, sameAddr, isPinned⟩ := held
          refine Interleaving.release ?_ ?_
          · refine
              ⟨position, _, resident_updatePins resident,
                by simpa using sameAddr, ?_⟩
            unfold Entry.updatePins
            rw [if_neg (by rw [sameAddr]; exact different)]
            exact isPinned
          · rw [updatePins_comm]
            · exact inductionHypothesis run restOthers
            · intro pins
              simp

/-- Releases of other entries leave an entry as it was. -/
theorem resident_others
    (run : Interleaving sizeNeeded cache point releases 0 final point)
    {position : Nat} {entry : Entry}
    (stays : final.Resident position entry)
    (others : entry.addr ∉ releases) :
    cache.Resident position entry := by
  induction releases generalizing cache with
  | nil =>
      cases run
      exact stays
  | cons other rest inductionHypothesis =>
      cases run with
      | release held run =>
          have later :=
            inductionHypothesis run
              (fun member => others (List.mem_cons_of_mem _ member))
          obtain ⟨before, beforeResident, rfl⟩ :=
            (resident_updatePins_iff _ _ _ _ _).mp later
          have different : before.addr ≠ other := by
            intro same
            refine others ?_
            rw [Entry.updatePins_addr, same]
            exact List.mem_cons_self
          have unchanged :
              before.updatePins other (· - 1) = before := by
            unfold Entry.updatePins
            rw [if_neg different]
          rw [unchanged]
          exact beforeResident

/-- An entry whose pins an iteration reads is not released later and then
evicted: a scan reads each slot once. -/
theorem unread_of_evicted
    {base : RingBufferCache} {earlier : Nat}
    {reads : List (Nat × Bool)}
    (slotsLength : base.slots.length = base.slotCount)
    (headBound : base.head < base.slotCount)
    (accounted : base.Accounted)
    (wellFormed : cache.WellFormed)
    (started : base.ScanRun sizeNeeded earlier reads cache point)
    (iterated :
      cache.scanIteration sizeNeeded point = .ok (next, nextPoint))
    (run :
      Interleaving sizeNeeded next nextPoint releases iterations final
        finalPoint)
    {entry : Entry} (resident : cache.Resident cache.head entry)
    (readsPins : cache.pinReads sizeNeeded point ≠ [])
    {position : Nat} {later : Entry}
    (nextResident : next.Resident position later)
    (sameAddr : later.addr = entry.addr) :
    ∃ place kept,
      final.Resident place kept ∧ kept.addr = entry.addr := by
  have samePosition : position = cache.head :=
    wellFormed.addrUnique
      (resident_of_scanIteration iterated nextResident) resident sameAddr
  have isPinned : entry.pins ≠ 0 := by
    intro zero
    rw [samePosition] at nextResident
    exact
      scanIteration_evicts iterated resident readsPins zero later
        nextResident
  have readHere :
      cache.pinReads sizeNeeded point = [(cache.head, true)] := by
    obtain ⟨⟨start, rfl⟩, short, _⟩ := pinReads_ne_nil_iff.mp readsPins
    rw [pinReads_evicting short resident]
    simp [isPinned]
  obtain ⟨afterwards, total, finalRun⟩ :=
    run.scanRun (ScanRun.iterate started iterated)
  obtain ⟨kept, keptResident⟩ :=
    (finalRun.progress slotsLength headBound accounted).survives
      (by rw [readHere]; simp : (cache.head, true) ∈ _)
  obtain ⟨before, beforeResident, beforeAddr⟩ :=
    (Interleaving.iterate iterated run).resident keptResident
  have sameEntry : entry = before := by
    unfold Resident at resident beforeResident
    rw [resident, Option.some.injEq, Option.some.injEq] at beforeResident
    exact beforeResident
  refine ⟨cache.head, kept, keptResident, ?_⟩
  rw [sameEntry, beforeAddr]

/-- A released entry that stays can be released after the scan. -/
theorem release_last
    {early late : List EntryPtr} {released scanned : RingBufferCache}
    (wellFormed : cache.WellFormed) (held : cache.HoldsPin ptr)
    (releasing :
      Interleaving sizeNeeded (cache.updatePins ptr (· - 1)) point early
        0 released point)
    (scanning :
      Interleaving sizeNeeded released point [] iterations scanned
        finalPoint)
    (others : ptr ∉ early)
    {place : Nat} {kept : Entry}
    (stays : scanned.Resident place kept) (keptAddr : kept.addr = ptr)
    (rest :
      Interleaving sizeNeeded scanned finalPoint late 0 final
        finalPoint) :
    Interleaving sizeNeeded cache point early 0
        (released.updatePins ptr (· + 1)) point ∧
      Interleaving sizeNeeded (released.updatePins ptr (· + 1)) point []
          iterations (scanned.updatePins ptr (· + 1)) finalPoint ∧
        Interleaving sizeNeeded (scanned.updatePins ptr (· + 1))
          finalPoint (ptr :: late) 0 final finalPoint := by
  obtain ⟨position, entry, resident, sameAddr, isPinned⟩ := held
  have restored :
      (cache.updatePins ptr (· - 1)).updatePins ptr (· + 1) = cache :=
    updatePins_undo (by simp) cache ptr
  have releasingFirst := releasing.add_pin_releases others
  rw [restored] at releasingFirst
  have keptReleased := scanning.resident_alone stays
  have found :
      ∀ place other,
        released.Resident place other →
        other.addr = ptr →
          place = position ∧ other.pins + 1 = entry.pins := by
    intro place other otherResident otherAddr
    have more :
        (released.updatePins ptr (· + 1)).Resident place
          { other with pins := other.pins + 1 } := by
      have updated :
          (released.updatePins ptr (· + 1)).Resident place
            (other.updatePins ptr (· + 1)) :=
        resident_updatePins otherResident
      rw [Entry.updatePins, if_pos otherAddr] at updated
      exact updated
    have earlier :=
      releasingFirst.resident_others more (otherAddr ▸ others)
    have samePlace : place = position :=
      wellFormed.addrUnique earlier resident
        (otherAddr.trans sameAddr.symm)
    refine ⟨samePlace, ?_⟩
    unfold Resident at earlier resident
    rw [samePlace, resident, Option.some.injEq, Option.some.injEq]
      at earlier
    rw [earlier]
  refine ⟨releasingFirst, scanning.add_pin_alone ?_, ?_⟩
  · intro spot other otherResident otherAddr
    obtain ⟨spotEq, pinsEq⟩ := found spot other otherResident otherAddr
    obtain ⟨placeEq, _⟩ := found place kept keptReleased keptAddr
    have sameEntry : other = kept := by
      unfold Resident at otherResident keptReleased
      rw [spotEq, ← placeEq, keptReleased, Option.some.injEq,
        Option.some.injEq] at otherResident
      exact otherResident.symm
    rw [spotEq, ← placeEq, sameEntry]
    refine ⟨?_, stays⟩
    rw [← sameEntry, pinsEq]
    exact isPinned
  · refine Interleaving.release ?_ ?_
    · refine
        ⟨place, _, resident_updatePins stays,
          by simpa using keptAddr, ?_⟩
      rw [Entry.updatePins, if_pos keptAddr]
      change kept.pins + 1 ≠ 0
      rw [(found place kept keptReleased keptAddr).2]
      exact isPinned
    · rw [updatePins_undo (by simp) scanned ptr]
      exact rest

/-- Every interleaving ends like one in which some releases come first, then
the scan runs alone, and the other releases come last. -/
theorem normal
    {base : RingBufferCache} {earlier : Nat}
    {reads : List (Nat × Bool)}
    (slotsLength : base.slots.length = base.slotCount)
    (headBound : base.head < base.slotCount)
    (accounted : base.Accounted)
    (wellFormed : cache.WellFormed)
    (started : base.ScanRun sizeNeeded earlier reads cache point)
    (run :
      Interleaving sizeNeeded cache point releases iterations final
        finalPoint) :
    ∃ early late released scanned,
      (early ++ late).Perm releases ∧
        Interleaving sizeNeeded cache point early 0 released point ∧
          Interleaving sizeNeeded released point [] iterations scanned
              finalPoint ∧
            Interleaving sizeNeeded scanned finalPoint late 0 final
                finalPoint ∧
              ∀ ptr ∈ early,
                ∀ place kept,
                  final.Resident place kept → kept.addr ≠ ptr := by
  induction run generalizing earlier reads with
  | @done cache point =>
      exact
        ⟨[], [], cache, cache, List.Perm.nil, Interleaving.done,
          Interleaving.done, Interleaving.done, by simp⟩
  | @iterate cache next final point nextPoint finalPoint releases
      iterations iterated rest inductionHypothesis =>
      obtain ⟨early, late, released, scanned, permuted, releasing,
          scanning, remaining, gone⟩ :=
        inductionHypothesis (wellFormed.scanIteration iterated)
          (ScanRun.iterate started iterated)
      have unread :
          ∀ entry,
            cache.Resident cache.head entry →
            cache.pinReads sizeNeeded point ≠ [] →
              entry.addr ∉ early := by
        intro entry resident readsPins member
        obtain ⟨position, later, nextResident, sameAddr⟩ :=
          releasing.holdsPin_of_mem member
        obtain ⟨place, kept, keptResident, keptAddr⟩ :=
          rest.unread_of_evicted slotsLength headBound accounted
            wellFormed started iterated resident readsPins nextResident
            sameAddr
        exact gone entry.addr member place kept keptResident keptAddr
      obtain ⟨moved, releasingFirst, scanned⟩ :=
        releases_first iterated unread releasing
      exact
        ⟨early, late, moved, _, permuted, releasingFirst,
          Interleaving.iterate scanned scanning, remaining, gone⟩
  | @release cache final point finalPoint ptr releases iterations held
      rest inductionHypothesis =>
      obtain ⟨early, late, released, scanned, permuted, releasing,
          scanning, remaining, gone⟩ :=
        inductionHypothesis (wellFormed.updatePins ptr (· - 1))
          (ScanRun.interfere started (clearPins_updatePins _ _ _))
      by_cases stays :
          ∃ place kept, final.Resident place kept ∧ kept.addr = ptr
      · obtain ⟨place, kept, keptResident, keptAddr⟩ := stays
        have others : ptr ∉ early :=
          fun member => gone ptr member place kept keptResident keptAddr
        obtain ⟨scannedEntry, scannedResident, scannedAddr⟩ :=
          remaining.resident keptResident
        obtain ⟨releasingFirst, scanningThen, releasingLast⟩ :=
          release_last wellFormed held releasing scanning others
            scannedResident (scannedAddr.trans keptAddr) remaining
        refine
          ⟨early, ptr :: late, _, _, ?_, releasingFirst, scanningThen,
            releasingLast, gone⟩
        exact List.perm_middle.trans (permuted.cons ptr)
      · refine
          ⟨ptr :: early, late, released, scanned, permuted.cons ptr,
            Interleaving.release held releasing, scanning, remaining, ?_⟩
        intro other member place kept keptResident keptAddr
        rcases List.mem_cons.mp member with rfl | later
        · exact stays ⟨place, kept, keptResident, keptAddr⟩
        · exact gone other later place kept keptResident keptAddr

end Interleaving

theorem WellFormed.interleaving
    {releases : List EntryPtr} {iterations : Nat}
    (wellFormed : cache.WellFormed)
    (run :
      Interleaving sizeNeeded cache point releases iterations final
        finalPoint) :
    final.WellFormed := by
  induction run with
  | done =>
      exact wellFormed
  | iterate iterated _ inductionHypothesis =>
      exact inductionHypothesis (wellFormed.scanIteration iterated)
  | release _ _ inductionHypothesis =>
      exact inductionHypothesis (wellFormed.updatePins _ _)

end RingBufferCache

namespace Monitor

variable {capacity : UInt64} {slotCount : Nat}
variable {monitor next before entered during after : Monitor}
variable {frame : FinalizeFrame} {ptr : EntryPtr} {action : Action}

/-- The entry whose pin an action releases. -/
def Action.unpinned : Action → Option EntryPtr
  | .unpin ptr => some ptr
  | _ => none

/-- Someone releases a pin that is held. -/
def Releases (monitor : Monitor) (action : Action) (_ : Monitor) : Prop :=
  ∃ ptr, action = .unpin ptr ∧ monitor.cache.HoldsPin ptr

/-- The running scan makes an iteration, or someone releases a pin. -/
def Interleaves (monitor : Monitor) (action : Action) (after : Monitor) :
    Prop :=
  action = .scan ∨ monitor.Releases action after

theorem unpin_of_holdsPin (held : monitor.cache.HoldsPin ptr) :
    monitor.step (.unpin ptr) =
      .ok
        { monitor with
          cache := monitor.cache.updatePins ptr (· - 1) } :=
  unpin_eq_ok_iff.mpr ⟨held.entryAt, rfl⟩

/-- The steps while a finalization holds the mutex are an interleaving of its
scan with releases. -/
theorem interleaving_of_schedule
    {actions : List Action}
    (schedule : Schedule step Interleaves monitor actions during)
    (running : monitor.frame = some frame) :
    ∃ iterations point,
      during.frame = some { frame with point := point } ∧
        Interleaving frame.size monitor.cache frame.point
          (actions.filterMap Action.unpinned) iterations during.cache
          point := by
  induction schedule generalizing frame with
  | done =>
      exact ⟨0, frame.point, running, Interleaving.done⟩
  | next stepped interleaves _ inductionHypothesis =>
      rcases interleaves with rfl | ⟨ptr, rfl, held⟩
      · obtain ⟨other, cache, point, otherRunning, iterated, rfl⟩ :=
          scan_eq_ok_iff.mp stepped
        rw [running, Option.some.injEq] at otherRunning
        subst otherRunning
        obtain ⟨iterations, finalPoint, finalRunning, rest⟩ :=
          inductionHypothesis rfl
        exact
          ⟨iterations + 1, finalPoint, finalRunning,
            Interleaving.iterate iterated rest⟩
      · obtain ⟨_, rfl⟩ := unpin_eq_ok_iff.mp stepped
        obtain ⟨iterations, finalPoint, finalRunning, rest⟩ :=
          inductionHypothesis running
        exact
          ⟨iterations, finalPoint, finalRunning,
            Interleaving.release held rest⟩

/-- Releases alone, whoever holds the mutex. -/
theorem schedule_of_releases
    {size : UInt64} {point : ScanPoint} {releases : List EntryPtr}
    {final : RingBufferCache}
    (run :
      Interleaving size monitor.cache point releases 0 final point) :
    Schedule step Releases monitor (releases.map .unpin)
      { monitor with cache := final } := by
  induction releases generalizing monitor with
  | nil =>
      cases run
      exact Schedule.done
  | cons ptr rest inductionHypothesis =>
      cases run with
      | release held run =>
          have later :=
            @inductionHypothesis
              { monitor with
                cache := monitor.cache.updatePins ptr (· - 1) }
              run
          exact
            Schedule.next (unpin_of_holdsPin held) ⟨ptr, rfl, held⟩
              later

/-- Iterations alone. -/
theorem scans_of_alone
    {size : UInt64} {point finalPoint : ScanPoint} {iterations : Nat}
    {cache final : RingBufferCache}
    (sameSize : frame.size = size)
    (run :
      Interleaving size cache point [] iterations final finalPoint) :
    checkedRun step (fun _ _ _ => true)
        { cache := cache, frame := some { frame with point := point } }
        (List.replicate iterations .scan) =
      some
        { cache := final
          frame := some { frame with point := finalPoint } } := by
  generalize none : ([] : List EntryPtr) = releases at run
  induction run with
  | done =>
      rfl
  | @iterate cache next final point nextPoint finalPoint releases
      iterations iterated _ inductionHypothesis =>
      have scanned :
          Monitor.scan
              { cache := cache
                frame := some { frame with point := point } } =
            .ok
              { cache := next
                frame := some { frame with point := nextPoint } } := by
        refine
          scan_eq_ok_iff.mpr
            ⟨{ frame with point := point }, next, nextPoint, rfl, ?_,
              rfl⟩
        simp only [sameSize]
        exact iterated
      rw [List.replicate_succ, checkedRun, step, scanned]
      exact inductionHypothesis none
  | release =>
      simp at none

theorem afterPublish_updatePins
    {cache : RingBufferCache} {key : Key} {endStream : Bool}
    (ptr : EntryPtr) (update : UInt32 → UInt32)
    (entering : afterPublish cache key endStream = .ok entered) :
    afterPublish (cache.updatePins ptr update) key endStream =
      .ok
        { entered with
          cache := entered.cache.updatePins ptr update } := by
  obtain ⟨cacheEq, outcome⟩ := afterPublish_eq_ok_iff.mp entering
  refine afterPublish_eq_ok_iff.mpr ⟨by rw [cacheEq], ?_⟩
  exact outcome

theorem publishHeadersLocked_updatePins
    (cache : RingBufferCache) (key : Key) (headers : ResponseHeaderMap)
    (endStream : Bool) (update : UInt32 → UInt32) :
    (cache.updatePins ptr update).publishHeadersLocked key headers
        endStream =
      ((cache.publishHeadersLocked key headers endStream).1,
        (cache.publishHeadersLocked key headers endStream).2.updatePins
          ptr update) := by
  unfold publishHeadersLocked
  have same :
      (cache.updatePins ptr update).inflightMap key =
        cache.inflightMap key :=
    rfl
  rw [same]
  cases cache.inflightMap key with
  | none =>
      rfl
  | some inflight =>
      rfl

theorem publishDataLocked_updatePins
    (cache : RingBufferCache) (key : Key) (data : Bytes)
    (endStream : Bool) (update : UInt32 → UInt32) :
    (cache.updatePins ptr update).publishDataLocked key data endStream =
      ((cache.publishDataLocked key data endStream).1,
        (cache.publishDataLocked key data endStream).2.updatePins ptr
          update) := by
  unfold publishDataLocked
  have same :
      (cache.updatePins ptr update).inflightMap key =
        cache.inflightMap key :=
    rfl
  rw [same]
  cases cache.inflightMap key with
  | none =>
      rfl
  | some inflight =>
      rfl

/-- A publish does not read pins. -/
theorem publish_updatePins
    {key : Key} (ends : action.endedKey = some key)
    (update : UInt32 → UInt32)
    (stepped : before.step action = .ok entered) :
    step { before with cache := before.cache.updatePins ptr update }
        action =
      .ok
        { entered with
          cache := entered.cache.updatePins ptr update } := by
  cases action with
  | publishHeaders other headers endStream =>
      obtain ⟨⟨posts, state⟩, published, returned⟩ :=
        bind_eq_ok_iff.mp stepped
      cases returned
      obtain ⟨free, _, entering⟩ := publishHeaders_eq_ok_iff.mp published
      have moved := afterPublish_updatePins ptr update entering
      refine
        bind_eq_ok_iff.mpr
          ⟨(_, _), publishHeaders_eq_ok_iff.mpr ⟨free, rfl, ?_⟩, rfl⟩
      rw [publishHeadersLocked_updatePins]
      exact moved
  | publishData other data endStream =>
      obtain ⟨⟨posts, state⟩, published, returned⟩ :=
        bind_eq_ok_iff.mp stepped
      cases returned
      obtain ⟨free, _, entering⟩ := publishData_eq_ok_iff.mp published
      have moved := afterPublish_updatePins ptr update entering
      refine
        bind_eq_ok_iff.mpr
          ⟨(_, _), publishData_eq_ok_iff.mpr ⟨free, rfl, ?_⟩, rfl⟩
      rw [publishDataLocked_updatePins]
      exact moved
  | lookup =>
      simp [Action.endedKey] at ends
  | removeWaiter =>
      simp [Action.endedKey] at ends
  | scan =>
      simp [Action.endedKey] at ends
  | finish =>
      simp [Action.endedKey] at ends
  | unpin =>
      simp [Action.endedKey] at ends

/-- The releases that come before a scan can come before the publish that
enters it. -/
theorem releases_before_publish
    {key : Key} {inflight : Inflight} {size : UInt64}
    {point : ScanPoint} {releases : List EntryPtr}
    {released : RingBufferCache}
    (ends : action.endedKey = some key)
    (stepped : before.step action = .ok entered)
    (cacheEq :
      entered.cache = before.cache.setInflight key (some inflight))
    (run :
      Interleaving size entered.cache point releases 0 released point) :
    ∃ cache,
      Interleaving size before.cache point releases 0 cache point ∧
        step { before with cache := cache } action =
          .ok { entered with cache := released } := by
  induction releases generalizing before entered with
  | nil =>
      cases run
      exact ⟨before.cache, Interleaving.done, stepped⟩
  | cons ptr rest inductionHypothesis =>
      cases run with
      | release held run =>
          obtain ⟨cache, releasing, publishing⟩ :=
            inductionHypothesis
              (publish_updatePins ends (· - 1) stepped)
              (by rw [cacheEq]; rfl) run
          rw [cacheEq] at held
          exact ⟨cache, Interleaving.release held releasing, publishing⟩

theorem withHead_updatePins
    {cache : RingBufferCache} {entry : Entry} {update : UInt32 → UInt32}
    (other : entry.addr ≠ ptr) :
    (cache.updatePins ptr update).withHead entry =
      (cache.withHead entry).updatePins ptr update := by
  have unchanged : entry.updatePins ptr update = entry := by
    unfold Entry.updatePins
    rw [if_neg other]
  simp [withHead, updatePins, List.map_set, unchanged]

/-- The end of a finalization does not read pins. -/
theorem completeFinalize_updatePins
    {cache stored : RingBufferCache} {key : Key} {result : Bool}
    {update : UInt32 → UInt32}
    (old : ptr < cache.nextAddr)
    (completed :
      (cache.updatePins ptr update).completeFinalize key result =
        .ok stored) :
    ∃ kept,
      cache.completeFinalize key result = .ok kept ∧
        stored = kept.updatePins ptr update ∧
          ∀ position entry,
            cache.Resident position entry →
              kept.Resident position entry := by
  obtain ⟨inflight, present, ⟨rfl, rfl⟩ |
      ⟨rfl, headers, headersEq, vacant, rfl⟩⟩ :=
    completeFinalize_eq_ok_iff.mp completed
  · exact
      ⟨_, completeFinalize_eq_ok_iff.mpr
        ⟨inflight, present, Or.inl ⟨rfl, rfl⟩⟩, rfl,
        fun _ _ resident => resident⟩
  · have free : cache.slots[cache.head]? = some none := by
      have read :
          (cache.slots.map fun slot =>
              slot.map fun entry => entry.updatePins ptr update)[
              cache.head]? =
            some none :=
        vacant
      rw [List.getElem?_map, Option.map_eq_some_iff] at read
      obtain ⟨slot, present, mapped⟩ := read
      rw [Option.map_eq_none_iff] at mapped
      rw [present, mapped]
    refine
      ⟨_, completeFinalize_eq_ok_iff.mpr
        ⟨inflight, present, Or.inr ⟨rfl, headers, headersEq, free, rfl⟩⟩,
        ?_, ?_⟩
    · have fresh :
          (cache.newEntry key headers inflight.body).addr ≠ ptr :=
        Ne.symm (Nat.ne_of_lt old)
      change
        ((cache.updatePins ptr update).withHead
              (cache.newEntry key headers inflight.body)).setInflight
            key none =
          _
      rw [withHead_updatePins fresh]
      rfl
    · intro position entry resident
      exact
        (resident_withHead_iff free _ position entry).mpr
          (Or.inr resident)

/-- The releases that come after a scan can come after the end of the
finalization. -/
theorem releases_after_finish
    {size : UInt64} {point : ScanPoint} {releases : List EntryPtr}
    {cache final : RingBufferCache}
    (wellFormed : cache.WellFormed)
    (run : Interleaving size cache point releases 0 final point)
    (finished :
      step { cache := final, frame := some frame } .finish =
        .ok after) :
    ∃ stored,
      step { cache := cache, frame := some frame } .finish =
          .ok stored ∧
        Schedule step Releases stored (releases.map .unpin) after := by
  induction releases generalizing cache with
  | nil =>
      cases run
      exact ⟨after, finished, Schedule.done⟩
  | cons ptr rest inductionHypothesis =>
      cases run with
      | release held run =>
          obtain ⟨later, laterFinished, schedule⟩ :=
            inductionHypothesis (wellFormed.updatePins ptr (· - 1)) run
          obtain ⟨position, entry, resident, rfl, isPinned⟩ := held
          obtain ⟨_, result, frameEq, atReturn, released, completed⟩ :=
            finish_eq_ok_iff.mp laterFinished
          cases frameEq
          obtain ⟨kept, keptCompleted, laterEq, keptResident⟩ :=
            completeFinalize_updatePins (wellFormed.addrBound resident)
              completed
          have keptFinished :
              Monitor.finish { cache := cache, frame := some frame } =
                .ok { cache := kept } :=
            finish_eq_ok_iff.mpr
              ⟨frame, result, rfl, atReturn, rfl, keptCompleted⟩
          refine ⟨{ cache := kept }, keptFinished, ?_⟩
          have keptHolds : kept.HoldsPin entry.addr :=
            ⟨position, entry, keptResident position entry resident, rfl,
              isPinned⟩
          have unpinned :
              step { cache := kept } (.unpin entry.addr) = .ok later := by
            rw [unpin_of_holdsPin keptHolds]
            cases later with
            | mk laterCache laterFrame =>
                simp only at released laterEq
                rw [released, laterEq]
          exact
            Schedule.next unpinned ⟨entry.addr, rfl, keptHolds⟩ schedule

/-- A finalization with pin releases between the iterations of its scan leaves
what it leaves when nobody interrupts it and the releases come before or after
it. -/
theorem finalizationAtomic
    (positive : 0 < slotCount)
    (reachable :
      Reachable step (create capacity slotCount) (fun _ _ _ => True)
        before)
    {key : Key} (ends : action.endedKey = some key)
    (stepped : before.step action = .ok entered)
    (running : entered.frame = some frame)
    {actions : List Action}
    (schedule : Schedule step Interleaves entered actions during)
    (finished : during.step .finish = .ok after) :
    ∃ (early late : List EntryPtr) (iterations : Nat)
        (released reentered stored : Monitor),
      (early ++ late).Perm (actions.filterMap Action.unpinned) ∧
        Schedule step Releases before (early.map .unpin) released ∧
          released.step action = .ok reentered ∧
            reentered.finalizeAlone iterations = some stored ∧
              Schedule step Releases stored (late.map .unpin) after := by
  have consistent :=
    consistent_of_reachable (Reachable.next reachable stepped trivial)
  have wellFormed := consistent.wellFormed
  obtain ⟨sameKey, inflight, headers, enters⟩ :=
    enters_of_step (idle_of_endedKey ends stepped) stepped running
  have atEntry := enters.frameEq.symm.trans running
  rw [Option.some.injEq] at atEntry
  obtain ⟨iterations, point, duringFrame, run⟩ :=
    interleaving_of_schedule schedule running
  have started :
      entered.cache.ScanRun frame.size 0 [] entered.cache
        frame.point := by
    rw [← atEntry]
    exact ScanRun.enter
  obtain ⟨early, late, released, scanned, permuted, releasing, scanning,
      remaining, _⟩ :=
    run.normal wellFormed.slotsLength (consistent.headBound positive)
      wellFormed.toAccounted wellFormed started
  obtain ⟨beforeReleased, releasingBefore, publishing⟩ :=
    releases_before_publish
      (sameKey : action.endedKey = some frame.key) stepped enters.cacheEq
      releasing
  have duringEq :
      during =
        { cache := during.cache
          frame := some { frame with point := point } } := by
    rw [← duringFrame]
  rw [duringEq] at finished
  obtain ⟨stored, storedFinished, releasingLast⟩ :=
    releases_after_finish
      ((wellFormed.interleaving releasing).interleaving scanning)
      remaining finished
  refine
    ⟨early, late, iterations, _, _, stored, permuted,
      schedule_of_releases releasingBefore, publishing, ?_,
      releasingLast⟩
  refine finalizeAlone_eq_some_iff.mpr ⟨_, ?_, storedFinished⟩
  have scans := scans_of_alone rfl scanning
  rw [running]
  exact scans

end Monitor

end RingCache

import RingCache.Streams.Steps

/-!
# Pinned entries stay in place

A hit lookup takes a pin under the mutex and drops it without the mutex: at its
hand-out when the body is empty, and otherwise when the fragment made of the
body is released.  The count of an entry's pins is therefore the number of
lookups and fragments that refer to it, as long as that number stays below
`2 ^ 32`, and the eviction scan, which reads the pins one slot at a time,
never takes an entry that is referred to.
-/

namespace RingCache

open Transition RingBufferCache

/-- Whether a hit lookup or its fragment refers to the entry. -/
def HitStage.refers : HitStage → Bool
  | .pinned => true
  | .copied _ => true
  | .served _ fragment => fragment

namespace Client

/-- The lookups of this stream that have pinned an entry and have not handed it
out. -/
def openLookups (ptr : EntryPtr) : Client → Nat
  | .hit lookup =>
      if lookup.entry = ptr then
        match lookup.stage with
        | .pinned => 1
        | .copied _ => 1
        | .served _ _ => 0
      else
        0
  | _ => 0

/-- The unreleased body fragments of an entry that this stream holds. -/
def fragments (ptr : EntryPtr) : Client → Nat
  | .hit lookup =>
      if lookup.entry = ptr then
        match lookup.stage with
        | .served _ true => 1
        | _ => 0
      else
        0
  | _ => 0

/-- What this stream adds to the pins of an entry. -/
def references (ptr : EntryPtr) (client : Client) : Nat :=
  client.openLookups ptr + client.fragments ptr

theorem references_hit (ptr : EntryPtr) (lookup : HitLookup) :
    references ptr (.hit lookup) =
      if lookup.entry = ptr ∧ lookup.stage.refers = true then 1
      else 0 := by
  unfold references openLookups fragments
  by_cases same : lookup.entry = ptr
  · cases stage : lookup.stage with
    | pinned =>
        simp [same, stage, HitStage.refers]
    | copied headers =>
        simp [same, stage, HitStage.refers]
    | served headers fragment =>
        cases fragment <;> simp [same, stage, HitStage.refers]
  · simp [same]

theorem references_of_not_hit
    {client : Client} (other : ∀ lookup, client ≠ .hit lookup)
    (ptr : EntryPtr) :
    client.references ptr = 0 := by
  cases client with
  | hit lookup =>
      exact absurd rfl (other lookup)
  | start dispatcher =>
      rfl
  | leader leader =>
      rfl
  | follower follower =>
      rfl

end Client

namespace RingBufferCache

variable {cache : RingBufferCache}

/-- The entry a lookup has pinned is still in its slot with the response it had
then. -/
def Holds (cache : RingBufferCache) (lookup : HitLookup) : Prop :=
  ∃ position entry snapshot,
    lookup.slot = some position ∧
      lookup.snapshot = some snapshot ∧
        cache.Resident position entry ∧
          entry.addr = lookup.entry ∧
            entry.key = snapshot.key ∧
              entry.headers = snapshot.headers ∧
                entry.body = snapshot.body

theorem Holds.of_slots
    {other : RingBufferCache} {lookup : HitLookup}
    (holds : cache.Holds lookup) (same : other.slots = cache.slots) :
    other.Holds lookup := by
  unfold Holds Resident at holds ⊢
  rw [same]
  exact holds

theorem Holds.updatePins
    {lookup : HitLookup} (holds : cache.Holds lookup)
    (ptr : EntryPtr) (update : UInt32 → UInt32) :
    (cache.updatePins ptr update).Holds lookup := by
  obtain ⟨position, entry, snapshot, slotEq, snapshotEq, resident,
    sameAddr, sameKey, sameHeaders, sameBody⟩ := holds
  refine
    ⟨position, entry.updatePins ptr update, snapshot, slotEq, snapshotEq,
      ?_, by simpa using sameAddr, by simpa using sameKey,
      by simpa using sameHeaders, by simpa using sameBody⟩
  exact
    (resident_updatePins_iff cache ptr update position _).mpr
      ⟨entry, resident, rfl⟩

/-- The eviction of an entry that the lookup does not refer to. -/
theorem Holds.withoutHead
    {lookup : HitLookup} (holds : cache.Holds lookup)
    {evicted : Entry} (atHead : cache.Resident cache.head evicted)
    (other : evicted.addr ≠ lookup.entry) :
    (cache.withoutHead evicted).Holds lookup := by
  obtain ⟨position, entry, snapshot, slotEq, snapshotEq, resident,
    sameAddr, same⟩ := holds
  refine
    ⟨position, entry, snapshot, slotEq, snapshotEq, ?_, sameAddr, same⟩
  refine (resident_withoutHead_iff atHead position entry).mpr ⟨?_, resident⟩
  intro samePosition
  subst samePosition
  unfold Resident at atHead resident
  rw [atHead] at resident
  have sameEntry : evicted = entry := by simpa using resident
  rw [sameEntry] at other
  exact other sameAddr

theorem Holds.withHead
    {lookup : HitLookup} (holds : cache.Holds lookup)
    (free : cache.slots[cache.head]? = some none) (inserted : Entry) :
    (cache.withHead inserted).Holds lookup := by
  obtain ⟨position, entry, snapshot, slotEq, snapshotEq, resident,
    same⟩ := holds
  exact
    ⟨position, entry, snapshot, slotEq, snapshotEq,
      (resident_withHead_iff free inserted position entry).mpr
        (Or.inr resident),
      same⟩

/-- The slot recorded for a resident entry is the one that owns it. -/
theorem WellFormed.slotOf_of_resident
    (wellFormed : cache.WellFormed)
    {position : Nat} {entry : Entry}
    (resident : cache.Resident position entry) :
    cache.slotOf entry.addr = some position := by
  have bound : position < cache.slots.length := by
    unfold Resident at resident
    rw [List.getElem?_eq_some_iff] at resident
    exact resident.1
  have atPosition : cache.slots[position] = some entry := by
    unfold Resident at resident
    rw [List.getElem?_eq_getElem bound, Option.some.injEq] at resident
    exact resident
  unfold slotOf
  rw [List.findIdx?_eq_some_iff_getElem]
  refine ⟨bound, by simp [atPosition], ?_⟩
  intro earlier before
  have earlierBound : earlier < cache.slots.length :=
    Nat.lt_trans before bound
  cases slot : cache.slots[earlier] with
  | none =>
      simp
  | some other =>
      have otherResident : cache.Resident earlier other := by
        unfold Resident
        rw [List.getElem?_eq_getElem earlierBound, slot]
      simp only [Option.any_some, decide_eq_true_eq]
      intro sameAddr
      have samePosition :=
        wellFormed.addrUnique otherResident resident sameAddr
      omega

end RingBufferCache

namespace World

variable {world next : World}

/-- The hit lookups on an entry that have not handed it out. -/
def openLookups (world : World) (ptr : EntryPtr) : Nat :=
  (world.clients.map (Client.openLookups ptr)).sum

/-- The unreleased body fragments of an entry. -/
def fragments (world : World) (ptr : EntryPtr) : Nat :=
  (world.clients.map (Client.fragments ptr)).sum

/-- The hits on an entry that are outstanding. -/
def references (world : World) (ptr : EntryPtr) : Nat :=
  (world.clients.map (Client.references ptr)).sum

theorem references_eq (world : World) (ptr : EntryPtr) :
    world.references ptr =
      world.openLookups ptr + world.fragments ptr :=
  List.sum_map_add

/-- The runs in which fewer than `2 ^ 32` hits on one entry are outstanding at
once. -/
def HitsBounded (_ : World) (_ : Action) (after : World) : Prop :=
  ∀ ptr, after.references ptr < 2 ^ 32

/-- Pins count references, and referenced entries are held. -/
structure Pinned (world : World) : Prop where
  counted :
    ∀ {position : Nat} {entry : Entry},
      world.monitor.cache.Resident position entry →
        entry.pins.toNat = world.references entry.addr
  known :
    ∀ {stream : StreamId} {lookup : HitLookup},
      world.clients[stream]? = some (.hit lookup) →
        lookup.entry < world.monitor.cache.nextAddr
  held :
    ∀ {stream : StreamId} {lookup : HitLookup},
      world.clients[stream]? = some (.hit lookup) →
      lookup.stage.refers = true →
        world.monitor.cache.Holds lookup

theorem create_pinned
    (capacity : UInt64) (slotCount : Nat)
    (dispatchers : List DispatcherId) :
    (create capacity slotCount dispatchers).Pinned := by
  refine
    { counted := ?_
      known := fun client => absurd client (create_client (by simp))
      held := fun client => absurd client (create_client (by simp)) }
  intro position entry resident
  have member := List.mem_of_getElem? resident
  simp [create, Monitor.create, RingBufferCache.create] at member

/-- One stream changes: the references to an entry change by its share. -/
theorem references_update
    {stream : StreamId} {old : Client}
    (client : world.clients[stream]? = some old) (new : Client)
    (clientsEq : next.clients = world.clients.set stream new)
    (ptr : EntryPtr) :
    next.references ptr + old.references ptr =
      world.references ptr + new.references ptr := by
  unfold references
  rw [clientsEq]
  exact Table.sum_map_set (Client.references ptr) new client

/-- A stream that refers to an entry is counted. -/
theorem references_pos
    {stream : StreamId} {lookup : HitLookup}
    (client : world.clients[stream]? = some (.hit lookup))
    (refers : lookup.stage.refers = true) :
    0 < world.references lookup.entry := by
  have share :=
    Table.le_sum_map (Client.references lookup.entry) client
  rw [Client.references_hit, if_pos ⟨rfl, refers⟩] at share
  exact share

/-- No stream refers to an address that has not been allocated. -/
theorem Pinned.references_fresh
    (pinned : world.Pinned) {ptr : EntryPtr}
    (fresh : world.monitor.cache.nextAddr ≤ ptr) :
    world.references ptr = 0 := by
  apply List.sum_eq_zero
  intro share member
  obtain ⟨client, clientMember, rfl⟩ := List.mem_map.mp member
  obtain ⟨stream, found⟩ := List.mem_iff_getElem?.mp clientMember
  cases client with
  | hit lookup =>
      rw [Client.references_hit]
      refine if_neg ?_
      intro outcome
      rcases outcome with ⟨same, _⟩
      exact absurd (same ▸ pinned.known found) (Nat.not_lt.mpr fresh)
  | start dispatcher =>
      rfl
  | leader leader =>
      rfl
  | follower follower =>
      rfl

/-- A step that changes neither the ring nor a hit lookup. -/
theorem Pinned.of_same
    (pinned : world.Pinned)
    (references :
      ∀ ptr, next.references ptr = world.references ptr)
    (hits :
      ∀ (stream : StreamId) (lookup : HitLookup),
        next.clients[stream]? = some (.hit lookup) →
          world.clients[stream]? = some (.hit lookup))
    (slots :
      next.monitor.cache.slots = world.monitor.cache.slots)
    (nextAddr :
      next.monitor.cache.nextAddr = world.monitor.cache.nextAddr) :
    next.Pinned := by
  refine { counted := ?_, known := ?_, held := ?_ }
  · intro position entry resident
    unfold Resident at resident
    rw [slots] at resident
    rw [references]
    exact pinned.counted resident
  · intro stream lookup client
    rw [nextAddr]
    exact pinned.known (hits _ _ client)
  · intro stream lookup client refers
    exact (pinned.held (hits _ _ client) refers).of_slots slots

/-- A stream that has no hit goes on without one. -/
theorem Pinned.of_other_update
    (pinned : world.Pinned)
    {stream : StreamId} {old new : Client}
    (client : world.clients[stream]? = some old)
    (oldOther : ∀ lookup, old ≠ .hit lookup)
    (newOther : ∀ lookup, new ≠ .hit lookup)
    (clientsEq : next.clients = world.clients.set stream new)
    (slots :
      next.monitor.cache.slots = world.monitor.cache.slots)
    (nextAddr :
      next.monitor.cache.nextAddr = world.monitor.cache.nextAddr) :
    next.Pinned := by
  refine pinned.of_same ?_ ?_ slots nextAddr
  · intro ptr
    have total := references_update client new clientsEq ptr
    rw [Client.references_of_not_hit oldOther,
      Client.references_of_not_hit newOther] at total
    exact total
  · intro read lookup found
    rw [clientsEq] at found
    exact
      (Table.getElem?_set_iff_of_ne client (oldOther lookup)
        (newOther lookup) read).mp found

/-- A hit lookup goes on, and the pins of its entry follow the change of its
references. -/
theorem Pinned.of_hit_update
    (pinned : world.Pinned)
    {stream : StreamId} {hit : HitLookup} {stage : HitStage}
    (client : world.clients[stream]? = some (.hit hit))
    (refers : hit.stage.refers = true)
    (clientsEq :
      next.clients =
        world.clients.set stream (.hit { hit with stage := stage }))
    {update : UInt32 → UInt32}
    (slots :
      next.monitor.cache.slots =
        (world.monitor.cache.updatePins hit.entry update).slots)
    (nextAddr :
      next.monitor.cache.nextAddr = world.monitor.cache.nextAddr)
    (follows :
      ∀ pins : UInt32,
        0 < pins.toNat →
          (update pins).toNat + 1 =
            pins.toNat + if stage.refers = true then 1 else 0) :
    next.Pinned := by
  have total := references_update client _ clientsEq
  simp only [Client.references_hit, refers, and_true] at total
  have sameHits :
      ∀ (read : StreamId) (lookup : HitLookup),
        next.clients[read]? = some (.hit lookup) →
          lookup.entry < world.monitor.cache.nextAddr ∧
            (lookup.stage.refers = true →
              world.monitor.cache.Holds lookup) := by
    intro read lookup found
    rw [clientsEq, Table.getElem?_set_of_some client] at found
    by_cases same : read = stream
    · rw [if_pos same, Option.some.injEq, Client.hit.injEq] at found
      subst found
      have known := pinned.known client
      have held := pinned.held client refers
      exact ⟨known, fun _ => held⟩
    · rw [if_neg same] at found
      exact ⟨pinned.known found, pinned.held found⟩
  refine { counted := ?_, known := ?_, held := ?_ }
  · intro position entry resident
    unfold Resident at resident
    rw [slots] at resident
    obtain ⟨older, olderResident, rfl⟩ :=
      (resident_updatePins_iff _ _ _ _ _).mp resident
    have before := pinned.counted olderResident
    have change := total older.addr
    by_cases mine : older.addr = hit.entry
    · have positive : 0 < older.pins.toNat := by
        rw [before, mine]
        exact references_pos client refers
      have followed := follows older.pins positive
      simp only [Entry.updatePins_addr]
      simp only [Entry.updatePins, if_pos mine]
      simp only [mine, true_and, if_true] at change
      rw [mine] at before
      rw [mine]
      omega
    · have theirs : hit.entry ≠ older.addr := Ne.symm mine
      simp only [Entry.updatePins_addr]
      simp only [Entry.updatePins, if_neg mine]
      simp only [theirs, false_and, if_false, Nat.add_zero] at change
      rw [before, change]
  · intro read lookup found
    rw [nextAddr]
    exact (sameHits read lookup found).1
  · intro read lookup found refersNow
    exact
      (((sameHits read lookup found).2 refersNow).updatePins
        hit.entry update).of_slots slots

/-- A new hit takes one more pin. -/
theorem Pinned.lookupHit
    (pinned : world.Pinned)
    (wellFormed : world.monitor.cache.WellFormed)
    {stream : StreamId} {dispatcher : DispatcherId} {key : Key}
    {ptr : EntryPtr} {entry : Entry}
    (client : world.clients[stream]? = some (.start dispatcher))
    (read : world.monitor.cache.entryAt ptr = some entry)
    (clientsEq :
      next.clients =
        world.clients.set stream
          (.hit
            { key := key
              entry := ptr
              bodyLength := entry.body.length
              stage := .pinned
              slot := world.monitor.cache.slotOf ptr
              snapshot := some entry
              source := world.history.lastEnded key }))
    (cacheEq :
      next.monitor.cache = world.monitor.cache.updatePins ptr (· + 1))
    (bounded : ∀ ptr, next.references ptr < 2 ^ 32) :
    next.Pinned := by
  have total := references_update client _ clientsEq
  have noneBefore :
      ∀ ptr, Client.references ptr (.start dispatcher) = 0 :=
    fun _ => rfl
  simp only [Client.references_hit, HitStage.refers, and_true,
    noneBefore, Nat.add_zero] at total
  obtain ⟨sameAddr, position, resident⟩ := entryAt_eq_some read
  subst sameAddr
  refine { counted := ?_, known := ?_, held := ?_ }
  · intro otherPosition other otherResident
    rw [cacheEq] at otherResident
    obtain ⟨older, olderResident, rfl⟩ :=
      (resident_updatePins_iff _ _ _ _ _).mp otherResident
    have before := pinned.counted olderResident
    have change := total older.addr
    by_cases mine : older.addr = entry.addr
    · have bound := bounded entry.addr
      simp only [Entry.updatePins_addr]
      simp only [Entry.updatePins, if_pos mine]
      rw [mine] at before change ⊢
      rw [if_pos rfl] at change
      rw [UInt32.toNat_add, before, change]
      rw [change] at bound
      exact Nat.mod_eq_of_lt bound
    · simp only [Entry.updatePins_addr]
      simp only [Entry.updatePins, if_neg mine]
      rw [if_neg (Ne.symm mine), Nat.add_zero] at change
      rw [before, change]
  · intro other lookup found
    rw [cacheEq]
    rw [clientsEq, Table.getElem?_set_of_some client] at found
    by_cases same : other = stream
    · rw [if_pos same, Option.some.injEq, Client.hit.injEq] at found
      subst found
      exact wellFormed.addrBound resident
    · rw [if_neg same] at found
      exact pinned.known found
  · intro other lookup found refers
    rw [cacheEq]
    apply Holds.updatePins
    rw [clientsEq, Table.getElem?_set_of_some client] at found
    by_cases same : other = stream
    · rw [if_pos same, Option.some.injEq, Client.hit.injEq] at found
      subst found
      exact
        ⟨position, entry, entry, wellFormed.slotOf_of_resident resident,
          rfl, resident, rfl, rfl, rfl, rfl⟩
    · rw [if_neg same] at found
      exact pinned.held found refers

/-- An eviction takes an entry that nobody refers to. -/
theorem Pinned.unreferenced
    (pinned : world.Pinned) {position : Nat} {entry : Entry}
    (resident : world.monitor.cache.Resident position entry)
    (unpinned : entry.pins = 0) :
    world.references entry.addr = 0 := by
  rw [← pinned.counted resident, unpinned]
  rfl

theorem Pinned.scan
    (pinned : world.Pinned)
    {sizeNeeded : UInt64} {before point : ScanPoint}
    {cache : RingBufferCache}
    (iterated :
      world.monitor.cache.scanIteration sizeNeeded before =
        .ok (cache, point))
    (clientsEq : next.clients = world.clients)
    (cacheEq : next.monitor.cache = cache) :
    next.Pinned := by
  have sameReferences :
      ∀ ptr, next.references ptr = world.references ptr := by
    intro ptr
    unfold references
    rw [clientsEq]
  have nextAddr := (scanIteration_frame iterated).2.2.2
  obtain ⟨evicted, evictedCases, nextCases⟩ :=
    scanIteration_eq_ok iterated
  have unmoved : cache.slots = evicted.slots := by
    rcases nextCases with rfl | rfl <;> rfl
  rcases evictedCases with rfl | ⟨entry, resident, unpinned, rfl⟩
  · refine
      pinned.of_same sameReferences ?_ (by rw [cacheEq, unmoved])
        (by rw [cacheEq, nextAddr])
    intro stream lookup found
    rwa [clientsEq] at found
  · have nobody := pinned.unreferenced resident unpinned
    refine { counted := ?_, known := ?_, held := ?_ }
    · intro position other otherResident
      unfold Resident at otherResident
      rw [cacheEq, unmoved] at otherResident
      have kept :=
        ((resident_withoutHead_iff resident position other).mp
          otherResident).2
      rw [sameReferences]
      exact pinned.counted kept
    · intro stream lookup found
      rw [clientsEq] at found
      rw [cacheEq, nextAddr]
      exact pinned.known found
    · intro stream lookup found refers
      rw [clientsEq] at found
      have other : entry.addr ≠ lookup.entry := by
        intro same
        have referenced := references_pos found refers
        rw [← same, nobody] at referenced
        simp at referenced
      rw [cacheEq]
      exact
        ((pinned.held found refers).withoutHead resident other).of_slots
          unmoved

theorem Pinned.finish
    (pinned : world.Pinned)
    {stream : StreamId} {leader : Leader} {posts : List Closure}
    {key : Key} {result : Bool} {cache : RingBufferCache}
    (client : world.clients[stream]? = some (.leader leader))
    (completed :
      world.monitor.cache.completeFinalize key result = .ok cache)
    (clientsEq :
      next.clients =
        world.clients.set stream
          (.leader { leader with call := .posting posts }))
    (cacheEq : next.monitor.cache = cache) :
    next.Pinned := by
  obtain ⟨inflight, _, ⟨_, rfl⟩ | ⟨_, headers, _, free, rfl⟩⟩ :=
    completeFinalize_eq_ok_iff.mp completed
  · exact
      pinned.of_other_update client (by simp) (by simp) clientsEq
        (by rw [cacheEq]; rfl) (by rw [cacheEq]; rfl)
  · have sameReferences :
        ∀ ptr, next.references ptr = world.references ptr := by
      intro ptr
      have total := references_update client _ clientsEq ptr
      rw [Client.references_of_not_hit (fun _ => by simp),
        Client.references_of_not_hit (fun _ => by simp)] at total
      exact total
    have hits :
        ∀ (read : StreamId) (lookup : HitLookup),
          next.clients[read]? = some (.hit lookup) →
            world.clients[read]? = some (.hit lookup) := by
      intro read lookup found
      rw [clientsEq] at found
      exact
        (Table.getElem?_set_iff_of_ne client (by simp) (by simp)
          read).mp found
    refine { counted := ?_, known := ?_, held := ?_ }
    · intro position entry resident
      rw [cacheEq] at resident
      rw [sameReferences]
      rcases (resident_withHead_iff free _ position entry).mp resident
        with ⟨_, rfl⟩ | kept
      · exact (pinned.references_fresh (Nat.le_refl _)).symm
      · exact pinned.counted kept
    · intro read lookup found
      rw [cacheEq]
      exact Nat.lt_succ_of_lt (pinned.known (hits _ _ found))
    · intro read lookup found refers
      rw [cacheEq]
      exact
        ((pinned.held (hits _ _ found) refers).withHead free
          _).of_slots rfl

/-- Every step that leaves fewer than `2 ^ 32` hits on each entry outstanding
keeps the count. -/
theorem Pinned.step
    (pinned : world.Pinned)
    (wellFormed : world.monitor.cache.WellFormed)
    {action : Action} (effect : Effect world action next)
    (bounded : ∀ ptr, next.references ptr < 2 ^ 32) :
    next.Pinned := by
  have unpins :
      ∀ pins : UInt32,
        0 < pins.toNat →
          (pins - 1).toNat + 1 = pins.toNat + 0 := by
    intro pins positive
    have atLeastOne : (1 : UInt32) ≤ pins :=
      UInt32.le_iff_toNat_le.mpr positive
    rw [UInt32.toNat_sub_of_le _ _ atLeastOne]
    exact Nat.sub_add_cancel positive
  cases effect with
  | lookupHit client free mapped read =>
      exact pinned.lookupHit wellFormed client read rfl rfl bounded
  | lookupLead client free unmapped missing =>
      exact
        pinned.of_other_update client (by simp) (by simp) rfl rfl rfl
  | lookupFollow client free unmapped present headersFirst =>
      exact
        pinned.of_other_update client (by simp) (by simp) rfl rfl rfl
  | copyHeaders client stage read =>
      exact
        pinned.of_hit_update client (by rw [stage]; rfl) rfl
          (updatePins_id_slots _ _).symm rfl (by simp [HitStage.refers])
  | handOutEmpty client stage empty read =>
      exact
        pinned.of_hit_update client (by rw [stage]; rfl) rfl rfl rfl
          (by simpa [HitStage.refers] using unpins)
  | handOutBody client stage nonempty =>
      exact
        pinned.of_hit_update client (by rw [stage]; rfl) rfl
          (updatePins_id_slots _ _).symm rfl (by simp [HitStage.refers])
  | release client stage read =>
      exact
        pinned.of_hit_update client (by rw [stage]; rfl) rfl rfl rfl
          (by simpa [HitStage.refers] using unpins)
  | publishLost client idle free missing =>
      exact
        pinned.of_other_update client (by simp) (by simp) rfl rfl rfl
  | publishOpen client idle free present stays =>
      exact
        pinned.of_other_update client (by simp) (by simp) rfl rfl rfl
  | publishEnd client idle free present ends stored =>
      exact
        pinned.of_other_update client (by simp) (by simp) rfl rfl rfl
  | scan client finalizing running iterated =>
      exact pinned.scan iterated rfl rfl
  | finish client finalizing running atReturn completed =>
      exact pinned.finish client completed rfl rfl
  | post client posting =>
      exact
        pinned.of_other_update client (by simp) (by simp) rfl rfl rfl
  | return_ client posting =>
      exact
        pinned.of_other_update client (by simp) (by simp) rfl rfl rfl
  | runCancelled queued cancelled =>
      exact
        pinned.of_same (fun _ => rfl) (fun _ _ found => found) rfl rfl
  | run queued live =>
      exact
        pinned.of_same (fun _ => rfl) (fun _ _ found => found) rfl rfl
  | cancel client =>
      exact
        pinned.of_same (fun _ => rfl) (fun _ _ found => found) rfl rfl
  | @removeWaiter stream follower client cancelled free =>
      have sameRing :=
        Monitor.SameRing.of_replacedInflight
          (removeWaiterLocked_cache world.monitor.cache follower.key
            follower.waiter.addr)
      exact
        pinned.of_same (fun _ => rfl) (fun _ _ found => found)
          sameRing.slots sameRing.nextAddr

/-! ## Reachable states -/

section Reachable

variable {capacity : UInt64} {slotCount : Nat}
variable {dispatchers : List DispatcherId}

theorem pinned_of_reachable
    (reachable :
      Reachable step (create capacity slotCount dispatchers)
        HitsBounded world) :
    world.Pinned := by
  refine
    reachable.invariant (create_pinned capacity slotCount dispatchers) ?_
  intro before action after reached pinned stepped bounded
  have wellFormed := wellFormed_of_reachable reached
  exact pinned.step wellFormed (step_effect stepped) bounded

/-- An entry that a step takes from its slot was not pinned. -/
theorem unpinned_of_gone
    {action : Action} (stepped : world.step action = .ok next)
    {position : Nat} {entry : Entry}
    (resident : world.monitor.cache.Resident position entry)
    (gone :
      ∀ later,
        next.monitor.cache.Resident position later →
          later.addr ≠ entry.addr) :
    entry.pins = 0 := by
  rcases (step_effect stepped).monitor_step with
    same | ⟨lower, lowerStepped⟩
  · rw [same] at gone
    exact absurd rfl (gone entry resident)
  · unfold Resident at gone
    rcases Monitor.ring_step lowerStepped with
      same | ⟨ptr, update, same⟩ | ⟨evicted, atHead, unpinned, same⟩ |
        ⟨_, _, _, _, _, _, _, free, same⟩
    · rw [same.slots] at gone
      exact absurd rfl (gone entry resident)
    · rw [same.slots] at gone
      refine absurd ?_ (gone (entry.updatePins ptr update) ?_)
      · simp
      · exact
          (resident_updatePins_iff _ _ _ _ _).mpr
            ⟨entry, resident, rfl⟩
    · rw [same.slots] at gone
      by_cases here : position = world.monitor.cache.head
      · subst here
        unfold Resident at resident atHead
        rw [resident] at atHead
        have sameEntry : entry = evicted := by simpa using atHead
        rw [sameEntry]
        exact unpinned
      · refine absurd rfl (gone entry ?_)
        exact
          (resident_withoutHead_iff atHead _ _).mpr ⟨here, resident⟩
    · rw [same.slots] at gone
      refine absurd rfl (gone entry ?_)
      exact
        (resident_withHead_iff free _ _ _).mpr (Or.inr resident)

/-- What holds of pins and of the entries they protect. -/
structure PinsExact (world : World) : Prop where
  counted :
    ∀ position entry,
      world.monitor.cache.Resident position entry →
        entry.pins.toNat =
          world.openLookups entry.addr + world.fragments entry.addr
  intact :
    ∀ (stream : StreamId) (lookup : HitLookup),
      world.clients[stream]? = some (.hit lookup) →
      lookup.stage.refers = true →
        world.monitor.cache.Holds lookup
  positive :
    ∀ (stream : StreamId) (lookup : HitLookup),
      world.clients[stream]? = some (.hit lookup) →
      lookup.stage.refers = true →
        ∃ entry,
          world.monitor.cache.entryAt lookup.entry = some entry ∧
            0 < entry.pins.toNat
  evicts :
    ∀ action next position entry,
      world.step action = .ok next →
      world.monitor.cache.Resident position entry →
      (∀ later,
        next.monitor.cache.Resident position later →
          later.addr ≠ entry.addr) →
        entry.pins = 0 ∧
          world.openLookups entry.addr = 0 ∧
            world.fragments entry.addr = 0

/-- In every run in which fewer than `2 ^ 32` hits on one entry are outstanding
at once, pins count the lookups and fragments that refer to an entry, and an
entry that is referred to stays in its slot as it was. -/
theorem pinnedEntriesIntact
    (reachable :
      Reachable step (create capacity slotCount dispatchers)
        HitsBounded world) :
    world.PinsExact := by
  have pinned := pinned_of_reachable reachable
  have wellFormed := wellFormed_of_reachable reachable
  refine
    { counted := ?_
      intact := fun _ _ => pinned.held
      positive := ?_
      evicts := ?_ }
  · intro position entry resident
    rw [pinned.counted resident, references_eq]
  · intro stream lookup client refers
    obtain ⟨position, entry, _, _, _, resident, sameAddr, _⟩ :=
      pinned.held client refers
    have found := wellFormed.entryAt_of_resident resident
    have count := pinned.counted resident
    rw [sameAddr] at found count
    refine ⟨entry, found, ?_⟩
    rw [count]
    exact references_pos client refers
  · intro action next position entry stepped resident gone
    have unpinned := unpinned_of_gone stepped resident gone
    have nobody := pinned.unreferenced resident unpinned
    rw [references_eq] at nobody
    exact ⟨unpinned, Nat.add_eq_zero_iff.mp nobody⟩

theorem references_bounded
    (bounded :
      Reachable step (create capacity slotCount dispatchers) HitsBounded
        world) :
    ∀ ptr, world.references ptr < 2 ^ 32 := by
  cases bounded with
  | start =>
      intro ptr
      have nobody :
          (create capacity slotCount dispatchers).references ptr = 0 := by
        apply List.sum_eq_zero
        intro count member
        simp only [create, List.map_map, List.mem_map] at member
        obtain ⟨dispatcher, _, rfl⟩ := member
        exact Client.references_of_not_hit (by simp) ptr
      omega
  | next _ _ permitted =>
      exact permitted

end Reachable

/-- A stream refers to an entry at most once. -/
theorem references_le (world : World) (ptr : EntryPtr) :
    world.references ptr ≤ world.clients.length := by
  have share :
      ∀ count ∈ world.clients.map (Client.references ptr),
        count ≤ 1 := by
    intro count member
    obtain ⟨client, _, rfl⟩ := List.mem_map.mp member
    cases client with
    | hit lookup =>
        rw [Client.references_hit]
        split <;> simp
    | start dispatcher =>
        exact Nat.zero_le 1
    | leader leader =>
        exact Nat.zero_le 1
    | follower follower =>
        exact Nat.zero_le 1
  have total := List.sum_le_card_nsmul _ 1 share
  simpa [references] using total

/-- One response is cached and hit twice: one hit holds a fragment, the other
has only pinned the entry.  A second response needs the room and a scan is
under way. -/
def pinnedRun : List Action :=
  [.move 0 (.lookup [1]),
    .move 0 (.publish (.headers [([2], [3])] false)), .move 0 .return_,
    .move 0 (.publish (.data [4] true)), .move 0 .scan, .move 0 .scan,
    .move 0 .finish, .move 0 .return_, .move 1 (.lookup [1]),
    .move 1 .copyHeaders, .move 1 .handOut, .move 2 (.lookup [1]),
    .move 3 (.lookup [5]),
    .move 3 (.publish (.headers [([2], [3])] true)), .move 3 .scan]

theorem pinnedEntriesIntact_pinnedRun :
    ∃ world,
      checkedRun step
            (fun _ _ after => decide (after.clients.length < 2 ^ 32))
            (create 3 2 [0, 0, 1, 1]) pinnedRun =
          some world ∧
        world.openLookups 0 = 1 ∧
          world.fragments 0 = 1 ∧ world.PinsExact := by
  refine ⟨_, rfl, rfl, rfl, ?_⟩
  refine
    pinnedEntriesIntact
      (Reachable.of_checkedRun ?_ Reachable.start
        (rfl :
          checkedRun step
              (fun _ _ after => decide (after.clients.length < 2 ^ 32))
              (create 3 2 [0, 0, 1, 1]) pinnedRun =
            some _))
  intro _ _ after few ptr
  exact
    Nat.lt_of_le_of_lt (after.references_le ptr) (of_decide_eq_true few)

end World

end RingCache

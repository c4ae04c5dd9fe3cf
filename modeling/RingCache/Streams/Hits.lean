import RingCache.Streams.Spool

/-!
# What a hit serves

Between the publishes of a leader and a later hit the bytes of a response move
from the inflight map to a slot and are read through a pointer, while the key
may be dropped, evicted and fetched again.  `World.Stored` says that a resident
entry is the whole response of the leader of its key that most recently ended
its stream, and that what a hit has seen of its entry is what the entry held
when it was pinned.
-/

namespace RingCache

open Transition RingBufferCache

namespace History

variable (history : History) (key other : Key) (stream : StreamId)

@[simp]
theorem lastEnded_led :
    lastEnded (.led stream other :: history) key =
      lastEnded history key := by
  simp [lastEnded]

@[simp]
theorem lastEnded_ended (cached : Bool) :
    lastEnded (.ended stream other cached :: history) key =
      if other = key then some stream else lastEnded history key := by
  unfold lastEnded
  rw [List.findSome?_cons]
  by_cases same : other = key <;> simp [same]

@[simp]
theorem lastEnded_evictedKeys (before after : RingBufferCache) :
    lastEnded (World.evictedKeys before after ++ history) key =
      lastEnded history key := by
  unfold World.evictedKeys
  split
  · simp [lastEnded]
  · simp

end History

/-- The headers a hit lookup has copied. -/
def HitStage.headers? : HitStage → Option ResponseHeaderMap
  | .pinned => none
  | .copied headers => some headers
  | .served headers _ => some headers

/-- Two entries with the same response. -/
structure Entry.SameResponse (left right : Entry) : Prop where
  key : left.key = right.key
  headers : left.headers = right.headers
  body : left.body = right.body

theorem Entry.SameResponse.trans
    {first second third : Entry}
    (left : first.SameResponse second)
    (right : second.SameResponse third) :
    first.SameResponse third :=
  ⟨left.key.trans right.key, left.headers.trans right.headers,
    left.body.trans right.body⟩

theorem Entry.sameResponse_updatePins
    (entry : Entry) (ptr : EntryPtr) (update : UInt32 → UInt32) :
    (entry.updatePins ptr update).SameResponse entry :=
  ⟨by simp, by simp, by simp⟩

/-- The entry holds the whole response of the leader. -/
structure Leader.Wrote (leader : Leader) (entry : Entry) : Prop where
  key : leader.key = entry.key
  ended : leader.log.ended = true
  headers : leader.log.headers? = some entry.headers
  body : leader.log.body = entry.body

theorem Leader.Wrote.of_same
    {leader : Leader} {entry other : Entry}
    (wrote : leader.Wrote entry) (same : other.SameResponse entry) :
    leader.Wrote other :=
  { key := wrote.key.trans same.key.symm
    ended := wrote.ended
    headers := by rw [wrote.headers, same.headers]
    body := wrote.body.trans same.body.symm }

namespace World

variable {world next : World}

/-- `entry` holds the response of the leader at `source`. -/
def WrittenBy (world : World) (source : StreamId) (entry : Entry) : Prop :=
  ∃ leader : Leader,
    world.clients[source]? = some (.leader leader) ∧ leader.Wrote entry

/-- Resident entries are the last completed responses of their keys, and hits
serve what they have pinned. -/
structure Stored (world : World) : Prop where
  resident :
    ∀ {position : Nat} {entry : Entry},
      world.monitor.cache.Resident position entry →
        ∃ source,
          world.history.lastEnded entry.key = some source ∧
            world.WrittenBy source entry
  served :
    ∀ {stream : StreamId} {lookup : HitLookup},
      world.clients[stream]? = some (.hit lookup) →
        ∃ source snapshot,
          lookup.source = some source ∧
            lookup.snapshot = some snapshot ∧
              world.WrittenBy source snapshot ∧
                snapshot.key = lookup.key ∧
                  lookup.bodyLength = snapshot.body.length ∧
                    ∀ headers,
                      lookup.stage.headers? = some headers →
                        headers = snapshot.headers
  known :
    ∀ {stream : StreamId} {lookup : HitLookup},
      world.clients[stream]? = some (.hit lookup) →
        lookup.entry < world.monitor.cache.nextAddr
  unchanged :
    ∀ {stream : StreamId} {lookup : HitLookup} {position : Nat}
        {entry snapshot : Entry},
      world.clients[stream]? = some (.hit lookup) →
      lookup.snapshot = some snapshot →
      world.monitor.cache.Resident position entry →
      entry.addr = lookup.entry →
        entry.SameResponse snapshot

theorem create_stored
    (capacity : UInt64) (slotCount : Nat)
    (dispatchers : List DispatcherId) :
    (create capacity slotCount dispatchers).Stored := by
  refine
    { resident := ?_
      served := fun client => absurd client (create_client (by simp))
      known := fun client => absurd client (create_client (by simp))
      unchanged :=
        fun client => absurd client (create_client (by simp)) }
  intro position entry resident
  have member := List.mem_of_getElem? resident
  simp [create, Monitor.create, RingBufferCache.create] at member

/-- A completed response stays with its leader. -/
theorem WrittenBy.mono
    {source : StreamId} {entry : Entry}
    (written : world.WrittenBy source entry)
    (kept :
      ∀ (stream : StreamId) (leader : Leader),
        world.clients[stream]? = some (.leader leader) →
        leader.log.ended = true →
          ∃ later : Leader,
            next.clients[stream]? = some (.leader later) ∧
              later.key = leader.key ∧ later.log = leader.log) :
    next.WrittenBy source entry := by
  obtain ⟨leader, client, wrote⟩ := written
  obtain ⟨later, laterClient, sameKey, sameLog⟩ :=
    kept source leader client wrote.ended
  refine ⟨later, laterClient, ?_⟩
  exact
    { key := sameKey.trans wrote.key
      ended := by rw [sameLog]; exact wrote.ended
      headers := by rw [sameLog]; exact wrote.headers
      body := by rw [sameLog]; exact wrote.body }

/-- A step that inserts nothing and makes no hit. -/
theorem Stored.of_same
    (stored : world.Stored)
    (kept :
      ∀ (stream : StreamId) (leader : Leader),
        world.clients[stream]? = some (.leader leader) →
        leader.log.ended = true →
          ∃ later : Leader,
            next.clients[stream]? = some (.leader later) ∧
              later.key = leader.key ∧ later.log = leader.log)
    (hits :
      ∀ (stream : StreamId) (lookup : HitLookup),
        next.clients[stream]? = some (.hit lookup) →
          world.clients[stream]? = some (.hit lookup))
    (residents :
      ∀ position entry,
        next.monitor.cache.Resident position entry →
          ∃ older,
            world.monitor.cache.Resident position older ∧
              entry.addr = older.addr ∧ entry.SameResponse older)
    (lastEnded :
      ∀ key,
        next.history.lastEnded key = world.history.lastEnded key)
    (nextAddr :
      next.monitor.cache.nextAddr = world.monitor.cache.nextAddr) :
    next.Stored := by
  refine
    { resident := ?_, served := ?_, known := ?_, unchanged := ?_ }
  · intro position entry resident
    obtain ⟨older, olderResident, _, same⟩ :=
      residents position entry resident
    obtain ⟨source, ended, leader, client, wrote⟩ :=
      stored.resident olderResident
    refine ⟨source, ?_, ?_⟩
    · rw [lastEnded, same.key]
      exact ended
    · exact
        WrittenBy.mono ⟨leader, client, wrote.of_same same⟩ kept
  · intro stream lookup client
    obtain ⟨source, snapshot, sourceEq, snapshotEq, written, rest⟩ :=
      stored.served (hits _ _ client)
    exact
      ⟨source, snapshot, sourceEq, snapshotEq, written.mono kept, rest⟩
  · intro stream lookup client
    rw [nextAddr]
    exact stored.known (hits _ _ client)
  · intro stream lookup position entry snapshot client snapshotEq
      resident sameAddr
    obtain ⟨older, olderResident, addrEq, same⟩ :=
      residents position entry resident
    have before :=
      stored.unchanged (hits _ _ client) snapshotEq olderResident
        (addrEq.symm.trans sameAddr)
    exact same.trans before

/-- Leaders other than the one that goes on keep their logs. -/
theorem kept_of_leader_update
    {stream : StreamId} {old new : Leader}
    (client : world.clients[stream]? = some (.leader old))
    (clientsEq :
      next.clients = world.clients.set stream (.leader new))
    (sameKey : new.key = old.key)
    (sameLog : old.log.ended = true → new.log = old.log)
    (other : StreamId) (leader : Leader)
    (found : world.clients[other]? = some (.leader leader))
    (ended : leader.log.ended = true) :
    ∃ later : Leader,
      next.clients[other]? = some (.leader later) ∧
        later.key = leader.key ∧ later.log = leader.log := by
  rw [clientsEq, Table.getElem?_set_of_some client]
  by_cases same : other = stream
  · subst same
    rw [client, Option.some.injEq, Client.leader.injEq] at found
    subst found
    exact ⟨new, if_pos rfl, sameKey, sameLog ended⟩
  · exact ⟨leader, by rw [if_neg same]; exact found, rfl, rfl⟩

theorem kept_of_other_update
    {stream : StreamId} {old new : Client}
    (client : world.clients[stream]? = some old)
    (oldOther : ∀ leader, old ≠ .leader leader)
    (clientsEq : next.clients = world.clients.set stream new)
    (other : StreamId) (leader : Leader)
    (found : world.clients[other]? = some (.leader leader))
    (_ended : leader.log.ended = true) :
    ∃ later : Leader,
      next.clients[other]? = some (.leader later) ∧
        later.key = leader.key ∧ later.log = leader.log := by
  have elsewhere : other ≠ stream := by
    intro same
    subst same
    rw [client, Option.some.injEq] at found
    exact oldOther leader found
  refine ⟨leader, ?_, rfl, rfl⟩
  rw [clientsEq, Table.getElem?_set_of_some client, if_neg elsewhere]
  exact found

theorem residents_of_slots
    {cache after : RingBufferCache} (same : after.slots = cache.slots)
    (position : Nat) (entry : Entry)
    (resident : after.Resident position entry) :
    ∃ older,
      cache.Resident position older ∧
        entry.addr = older.addr ∧ entry.SameResponse older := by
  unfold Resident at resident
  rw [same] at resident
  exact ⟨entry, resident, rfl, rfl, rfl, rfl⟩

theorem residents_of_updatePins
    {cache after : RingBufferCache} {ptr : EntryPtr}
    {update : UInt32 → UInt32}
    (same : after.slots = (cache.updatePins ptr update).slots)
    (position : Nat) (entry : Entry)
    (resident : after.Resident position entry) :
    ∃ older,
      cache.Resident position older ∧
        entry.addr = older.addr ∧ entry.SameResponse older := by
  unfold Resident at resident
  rw [same] at resident
  obtain ⟨older, olderResident, rfl⟩ :=
    (resident_updatePins_iff _ _ _ _ _).mp resident
  exact
    ⟨older, olderResident, by simp,
      older.sameResponse_updatePins ptr update⟩

/-- A new hit finds the last completed response of its key. -/
theorem Stored.lookupHit
    (stored : world.Stored)
    (wellFormed : world.monitor.cache.WellFormed)
    {stream : StreamId} {dispatcher : DispatcherId} {key : Key}
    {ptr : EntryPtr} {entry : Entry}
    (client : world.clients[stream]? = some (.start dispatcher))
    (mapped : world.monitor.cache.cacheMap key = some ptr)
    (read : world.monitor.cache.entryAt ptr = some entry)
    (clientsEq :
      next.clients =
        world.clients.set stream
          (.hit
            { key := key
              entry := ptr
              bodyLength := entry.body.length
              stage := .pinned
              slot := world.monitor.cache.slotOf ptr
              snapshot := some entry
              source := world.history.lastEnded key }))
    (cacheEq :
      next.monitor.cache = world.monitor.cache.updatePins ptr (· + 1))
    (historyEq : next.history = world.history) :
    next.Stored := by
  have kept := kept_of_other_update client (by simp) clientsEq
  have residents :=
    residents_of_updatePins (congrArg RingBufferCache.slots cacheEq)
  obtain ⟨sameAddr, position, atPosition⟩ := entryAt_eq_some read
  have sameKey : entry.key = key := by
    obtain ⟨other, found, otherResident, addrEq, keyEq⟩ :=
      (wellFormed.indexed key ptr).mp mapped
    rw [← wellFormed.eq_of_addr otherResident atPosition
      (addrEq.trans sameAddr.symm)]
    exact keyEq
  refine
    { resident := ?_, served := ?_, known := ?_, unchanged := ?_ }
  · intro otherPosition other otherResident
    obtain ⟨older, olderResident, _, same⟩ :=
      residents otherPosition other otherResident
    obtain ⟨source, ended, leader, found, wrote⟩ :=
      stored.resident olderResident
    refine ⟨source, ?_, ?_⟩
    · rw [historyEq, same.key]
      exact ended
    · exact
        WrittenBy.mono ⟨leader, found, wrote.of_same same⟩ kept
  · intro other lookup found
    rw [clientsEq, Table.getElem?_set_of_some client] at found
    by_cases same : other = stream
    · rw [if_pos same, Option.some.injEq, Client.hit.injEq] at found
      subst found
      obtain ⟨source, ended, written⟩ := stored.resident atPosition
      rw [sameKey] at ended
      exact
        ⟨source, entry, ended, rfl, written.mono kept, sameKey, rfl,
          by simp [HitStage.headers?]⟩
    · rw [if_neg same] at found
      obtain ⟨source, snapshot, sourceEq, snapshotEq, written, rest⟩ :=
        stored.served found
      exact
        ⟨source, snapshot, sourceEq, snapshotEq, written.mono kept,
          rest⟩
  · intro other lookup found
    rw [cacheEq]
    rw [clientsEq, Table.getElem?_set_of_some client] at found
    by_cases same : other = stream
    · rw [if_pos same, Option.some.injEq, Client.hit.injEq] at found
      subst found
      have bound := wellFormed.addrBound atPosition
      rw [sameAddr] at bound
      exact bound
    · rw [if_neg same] at found
      exact stored.known found
  · intro other lookup otherPosition otherEntry snapshot found snapshotEq
      otherResident addrEq
    obtain ⟨older, olderResident, olderAddr, sameOlder⟩ :=
      residents otherPosition otherEntry otherResident
    rw [clientsEq, Table.getElem?_set_of_some client] at found
    by_cases same : other = stream
    · rw [if_pos same, Option.some.injEq, Client.hit.injEq] at found
      subst found
      have sameSnapshot : entry = snapshot := by simpa using snapshotEq
      subst sameSnapshot
      rw [wellFormed.eq_of_addr olderResident atPosition
        ((olderAddr.symm.trans addrEq).trans sameAddr.symm)]
        at sameOlder
      exact sameOlder
    · rw [if_neg same] at found
      have before :=
        stored.unchanged found snapshotEq olderResident
          (olderAddr.symm.trans addrEq)
      exact sameOlder.trans before

/-- A hit lookup goes on with the headers of the entry it has pinned. -/
theorem Stored.of_hit_update
    (stored : world.Stored)
    {stream : StreamId} {hit : HitLookup} {stage : HitStage}
    (client : world.clients[stream]? = some (.hit hit))
    (clientsEq :
      next.clients =
        world.clients.set stream (.hit { hit with stage := stage }))
    (headers :
      ∀ snapshot,
        hit.snapshot = some snapshot →
          ∀ copied,
            stage.headers? = some copied →
              hit.stage.headers? = some copied ∨
                copied = snapshot.headers)
    {update : UInt32 → UInt32}
    (slots :
      next.monitor.cache.slots =
        (world.monitor.cache.updatePins hit.entry update).slots)
    (nextAddr :
      next.monitor.cache.nextAddr = world.monitor.cache.nextAddr)
    (historyEq : next.history = world.history) :
    next.Stored := by
  have kept := kept_of_other_update client (by simp) clientsEq
  have residents := residents_of_updatePins slots
  have hits :
      ∀ (read : StreamId) (lookup : HitLookup),
        next.clients[read]? = some (.hit lookup) →
          ∃ earlier : HitLookup,
            world.clients[read]? = some (.hit earlier) ∧
              earlier.entry = lookup.entry ∧
                earlier.snapshot = lookup.snapshot := by
    intro read lookup found
    rw [clientsEq, Table.getElem?_set_of_some client] at found
    by_cases same : read = stream
    · rw [if_pos same, Option.some.injEq, Client.hit.injEq] at found
      subst same found
      exact ⟨hit, client, rfl, rfl⟩
    · rw [if_neg same] at found
      exact ⟨lookup, found, rfl, rfl⟩
  refine
    { resident := ?_, served := ?_, known := ?_, unchanged := ?_ }
  · intro position entry resident
    obtain ⟨older, olderResident, _, same⟩ :=
      residents position entry resident
    obtain ⟨source, ended, leader, found, wrote⟩ :=
      stored.resident olderResident
    refine ⟨source, ?_, ?_⟩
    · rw [historyEq, same.key]
      exact ended
    · exact
        WrittenBy.mono ⟨leader, found, wrote.of_same same⟩ kept
  · intro read lookup found
    rw [clientsEq, Table.getElem?_set_of_some client] at found
    by_cases same : read = stream
    · rw [if_pos same, Option.some.injEq, Client.hit.injEq] at found
      subst found
      obtain ⟨source, snapshot, sourceEq, snapshotEq, written, keyEq,
        lengthEq, copiedEq⟩ := stored.served client
      refine
        ⟨source, snapshot, sourceEq, snapshotEq, written.mono kept,
          keyEq, lengthEq, ?_⟩
      intro copied stageHeaders
      rcases headers snapshot snapshotEq copied stageHeaders with
        before | same
      · exact copiedEq copied before
      · exact same
    · rw [if_neg same] at found
      obtain ⟨source, snapshot, sourceEq, snapshotEq, written, rest⟩ :=
        stored.served found
      exact
        ⟨source, snapshot, sourceEq, snapshotEq, written.mono kept,
          rest⟩
  · intro read lookup found
    obtain ⟨earlier, earlierFound, sameEntry, _⟩ :=
      hits read lookup found
    rw [nextAddr, ← sameEntry]
    exact stored.known earlierFound
  · intro read lookup position entry snapshot found snapshotEq resident
      sameAddr
    obtain ⟨earlier, earlierFound, sameEntry, sameSnapshot⟩ :=
      hits read lookup found
    obtain ⟨older, olderResident, olderAddr, same⟩ :=
      residents position entry resident
    have before :=
      stored.unchanged earlierFound (sameSnapshot.trans snapshotEq)
        olderResident
        ((olderAddr.symm.trans sameAddr).trans sameEntry.symm)
    exact same.trans before

/-- What is resident after the end of a finalization: what was resident
before, or the whole response of the leader at a new address. -/
theorem Spooled.resident_completeFinalize
    (spooled : world.Spooled) (flight : world.SingleFlight)
    {stream : StreamId} {leader : Leader} {posts : List Closure}
    {result : Bool} {cache : RingBufferCache}
    (client : world.clients[stream]? = some (.leader leader))
    (finalizing : leader.call = .finalizing posts)
    (completed :
      world.monitor.cache.completeFinalize leader.key result =
        .ok cache)
    {position : Nat} {entry : Entry}
    (resident : cache.Resident position entry) :
    world.monitor.cache.Resident position entry ∨
      (entry.addr = world.monitor.cache.nextAddr ∧
        leader.Wrote entry) := by
  have ended : leader.log.ended = true :=
    (flight.holder client finalizing).1
  have unfinished : leader.unfinished = true := by
    simp [Leader.unfinished, finalizing]
  obtain ⟨inflight, present, ⟨_, rfl⟩ | ⟨_, headers, held, free, rfl⟩⟩ :=
    completeFinalize_eq_ok_iff.mp completed
  · exact Or.inl resident
  · rcases (resident_withHead_iff free _ position entry).mp resident with
      ⟨_, rfl⟩ | before
    · obtain ⟨headersEq, bodyEq⟩ :=
        spooled.content client unfinished present
      exact
        Or.inr
          ⟨rfl,
            { key := rfl
              ended := ended
              headers := headersEq.symm.trans held
              body := bodyEq.symm }⟩
    · exact Or.inl before

/-- A finalization ends: what it inserts is the whole response of its leader,
and no other entry of the key is resident. -/
theorem Stored.finish
    (stored : world.Stored) (flight : world.SingleFlight)
    (spooled : world.Spooled)
    (wellFormed : world.monitor.cache.WellFormed)
    {stream : StreamId} {leader : Leader} {posts : List Closure}
    {result cached : Bool} {cache : RingBufferCache}
    (client : world.clients[stream]? = some (.leader leader))
    (finalizing : leader.call = .finalizing posts)
    (completed :
      world.monitor.cache.completeFinalize leader.key result =
        .ok cache)
    (clientsEq :
      next.clients =
        world.clients.set stream
          (.leader { leader with call := .posting posts }))
    (cacheEq : next.monitor.cache = cache)
    (historyEq :
      next.history =
        .ended stream leader.key cached :: world.history) :
    next.Stored := by
  have kept :=
    kept_of_leader_update client clientsEq rfl (fun _ => rfl)
  have hits :
      ∀ (read : StreamId) (lookup : HitLookup),
        next.clients[read]? = some (.hit lookup) →
          world.clients[read]? = some (.hit lookup) := by
    intro read lookup found
    rw [clientsEq] at found
    exact
      (Table.getElem?_set_iff_of_ne client (by simp) (by simp)
        read).mp found
  have unfinished : leader.unfinished = true := by
    simp [Leader.unfinished, finalizing]
  have otherKey :
      ∀ {position : Nat} {entry : Entry},
        world.monitor.cache.Resident position entry →
          leader.key ≠ entry.key := by
    intro position entry resident sameKey
    obtain ⟨⟨inflight, present⟩, _⟩ := flight.owned client unfinished
    have unmapped := wellFormed.unmapped_of_inflight present
    have mapped :=
      (wellFormed.indexed entry.key entry.addr).mpr
        ⟨position, entry, resident, rfl, rfl⟩
    rw [← sameKey, unmapped] at mapped
    simp at mapped
  have residents :
      ∀ {position : Nat} {entry : Entry},
        next.monitor.cache.Resident position entry →
          world.monitor.cache.Resident position entry ∨
            (entry.addr = world.monitor.cache.nextAddr ∧
              leader.Wrote entry) := by
    intro position entry resident
    rw [cacheEq] at resident
    exact
      spooled.resident_completeFinalize flight client finalizing
        completed resident
  refine
    { resident := ?_, served := ?_, known := ?_, unchanged := ?_ }
  · intro position entry resident
    rw [historyEq, History.lastEnded_ended]
    rcases residents resident with before | ⟨_, wrote⟩
    · obtain ⟨source, lastEnded, written⟩ := stored.resident before
      rw [if_neg (otherKey before)]
      exact ⟨source, lastEnded, written.mono kept⟩
    · rw [if_pos wrote.key]
      exact ⟨stream, rfl, WrittenBy.mono ⟨leader, client, wrote⟩ kept⟩
  · intro read lookup found
    obtain ⟨source, snapshot, sourceEq, snapshotEq, written, rest⟩ :=
      stored.served (hits _ _ found)
    exact
      ⟨source, snapshot, sourceEq, snapshotEq, written.mono kept, rest⟩
  · intro read lookup found
    have bound := stored.known (hits _ _ found)
    rw [cacheEq]
    obtain ⟨_, _, ⟨_, rfl⟩ | ⟨_, _, _, _, rfl⟩⟩ :=
      completeFinalize_eq_ok_iff.mp completed
    · exact bound
    · exact Nat.lt_succ_of_lt bound
  · intro read lookup position entry snapshot found snapshotEq resident
      sameAddr
    have bound := stored.known (hits _ _ found)
    rcases residents resident with before | ⟨fresh, _⟩
    · exact
        stored.unchanged (hits _ _ found) snapshotEq before sameAddr
    · rw [← sameAddr, fresh] at bound
      exact absurd bound (Nat.lt_irrefl _)

/-- Every step in which leaders publish in order keeps what hits serve. -/
theorem Stored.step
    (stored : world.Stored) (flight : world.SingleFlight)
    (spooled : world.Spooled)
    (wellFormed : world.monitor.cache.WellFormed)
    {action : Action} (effect : Effect world action next)
    (orderly : world.leaderCalls Log.orderly action = true) :
    next.Stored := by
  have sameLeaders :
      ∀ (stream : StreamId) (leader : Leader),
        world.clients[stream]? = some (.leader leader) →
        leader.log.ended = true →
          ∃ later : Leader,
            world.clients[stream]? = some (.leader later) ∧
              later.key = leader.key ∧ later.log = leader.log :=
    fun _ leader client _ => ⟨leader, client, rfl, rfl⟩
  have noHits :
      ∀ {stream : StreamId} {old new : Client},
        world.clients[stream]? = some old →
        (∀ lookup, old ≠ .hit lookup) →
        (∀ lookup, new ≠ .hit lookup) →
          ∀ (read : StreamId) (lookup : HitLookup),
            (world.clients.set stream new)[read]? =
                some (.hit lookup) →
              world.clients[read]? = some (.hit lookup) :=
    fun client oldOther newOther read lookup =>
      (Table.getElem?_set_iff_of_ne client (oldOther lookup)
        (newOther lookup) read).mp
  cases effect with
  | lookupHit client free mapped read =>
      exact stored.lookupHit wellFormed client mapped read rfl rfl rfl
  | lookupLead client free unmapped missing =>
      exact
        stored.of_same (kept_of_other_update client (by simp) rfl)
          (noHits client (by simp) (by simp)) (residents_of_slots rfl)
          (fun _ => by simp) rfl
  | lookupFollow client free unmapped present headersFirst =>
      exact
        stored.of_same (kept_of_other_update client (by simp) rfl)
          (noHits client (by simp) (by simp)) (residents_of_slots rfl)
          (fun _ => rfl) rfl
  | @copyHeaders stream hit entry client stage read =>
      refine
        stored.of_hit_update client rfl ?_
          (updatePins_id_slots _ _).symm rfl rfl
      intro snapshot snapshotEq copied copiedEq
      obtain ⟨sameAddr, position, resident⟩ := entryAt_eq_some read
      have same :=
        stored.unchanged client snapshotEq resident sameAddr
      have headersEq : entry.headers = copied := by
        simpa [HitStage.headers?] using copiedEq
      exact Or.inr (headersEq.symm.trans same.headers)
  | handOutEmpty client stage empty read =>
      refine stored.of_hit_update client rfl ?_ rfl rfl rfl
      intro snapshot _ copied copiedEq
      rw [stage]
      exact Or.inl copiedEq
  | handOutBody client stage nonempty =>
      refine
        stored.of_hit_update client rfl ?_
          (updatePins_id_slots _ _).symm rfl rfl
      intro snapshot _ copied copiedEq
      rw [stage]
      exact Or.inl copiedEq
  | release client stage read =>
      refine stored.of_hit_update client rfl ?_ rfl rfl rfl
      intro snapshot _ copied copiedEq
      rw [stage]
      exact Or.inl copiedEq
  | publishLost client idle free missing =>
      exact
        absurd missing
          (flight.publish_finds client
            (permits_of_leaderCalls client orderly))
  | publishOpen client idle free present stays =>
      have notEnded :=
        Log.not_ended_of_orderly (permits_of_leaderCalls client orderly)
      exact
        stored.of_same
          (kept_of_leader_update client rfl rfl (by simp [notEnded]))
          (noHits client (by simp) (by simp)) (residents_of_slots rfl)
          (fun _ => rfl) rfl
  | publishEnd client idle free present ends held =>
      have notEnded :=
        Log.not_ended_of_orderly (permits_of_leaderCalls client orderly)
      exact
        stored.of_same
          (kept_of_leader_update client rfl rfl (by simp [notEnded]))
          (noHits client (by simp) (by simp)) (residents_of_slots rfl)
          (fun _ => rfl) rfl
  | scan client finalizing running iterated =>
      refine
        stored.of_same sameLeaders (fun _ _ found => found) ?_
          (fun _ => by simp) (scanIteration_frame iterated).2.2.2
      obtain ⟨evicted, evictedCases, nextCases⟩ :=
        scanIteration_eq_ok iterated
      intro position entry resident
      have inEvicted : evicted.Resident position entry := by
        rcases nextCases with same | same
        · rw [same] at resident
          exact resident
        · rw [same] at resident
          exact resident
      rcases evictedCases with rfl | ⟨head, atHead, _, rfl⟩
      · exact ⟨entry, inEvicted, rfl, rfl, rfl, rfl⟩
      · have before :=
          ((resident_withoutHead_iff atHead position entry).mp
            inEvicted).2
        exact ⟨entry, before, rfl, rfl, rfl, rfl⟩
  | @finish stream leader posts frame result cache client finalizing
      running atReturn completed =>
      obtain ⟨_, other, otherRunning, frameKey⟩ :=
        flight.holder client finalizing
      rw [running, Option.some.injEq] at otherRunning
      subst otherRunning
      rw [frameKey] at completed
      exact
        stored.finish flight spooled wellFormed client finalizing
          completed rfl rfl rfl
  | post client posting =>
      exact
        stored.of_same
          (kept_of_leader_update client rfl rfl (fun _ => rfl))
          (noHits client (by simp) (by simp)) (residents_of_slots rfl)
          (fun _ => rfl) rfl
  | return_ client posting =>
      exact
        stored.of_same
          (kept_of_leader_update client rfl rfl (fun _ => rfl))
          (noHits client (by simp) (by simp)) (residents_of_slots rfl)
          (fun _ => rfl) rfl
  | runCancelled queued cancelled =>
      exact
        stored.of_same sameLeaders (fun _ _ found => found)
          (residents_of_slots rfl) (fun _ => rfl) rfl
  | run queued live =>
      exact
        stored.of_same sameLeaders (fun _ _ found => found)
          (residents_of_slots rfl) (fun _ => rfl) rfl
  | cancel client =>
      exact
        stored.of_same sameLeaders (fun _ _ found => found)
          (residents_of_slots rfl) (fun _ => rfl) rfl
  | @removeWaiter stream follower client cancelled free =>
      have sameRing :=
        Monitor.SameRing.of_replacedInflight
          (removeWaiterLocked_cache world.monitor.cache follower.key
            follower.waiter.addr)
      exact
        stored.of_same sameLeaders (fun _ _ found => found)
          (residents_of_slots sameRing.slots) (fun _ => rfl)
          sameRing.nextAddr

theorem stored_of_reachable
    {capacity : UInt64} {slotCount : Nat}
    {dispatchers : List DispatcherId}
    (reachable :
      Reachable step (create capacity slotCount dispatchers)
        (LeadersCall Log.orderly) world) :
    world.Stored := by
  refine
    reachable.invariant (create_stored capacity slotCount dispatchers) ?_
  intro before action after reached stored stepped orderly
  have flight := singleFlight_of_reachable reached
  have spooled := spooled_of_reachable reached
  have wellFormed := wellFormed_of_reachable reached
  exact
    stored.step flight spooled wellFormed (step_effect stepped) orderly

end World

end RingCache

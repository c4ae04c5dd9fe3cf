import RingCache.Streams.Spool

/-!
# Single flight for each key

The results of this module are about every interleaving of the locked parts of
the calls.  A history records when a stream became leader of a key, when it
ended its stream and whether its response was cached then, and when the entry
of a key was evicted.
-/

namespace RingCache

open Transition RingBufferCache

namespace History

/-- Whether the last completed response of a key is cached: `some false` when
it was dropped at its finalization or evicted since, `none` when no response
of the key has completed. -/
def cachedNow (history : History) (key : Key) : Option Bool :=
  history.findSome? fun
    | .led _ _ => none
    | .ended _ ended cached => if ended = key then some cached else none
    | .evicted evicted => if evicted = key then some false else none

variable (history : History) (key other : Key) (stream : StreamId)

@[simp]
theorem cachedNow_led :
    cachedNow (.led stream other :: history) key =
      cachedNow history key := by
  simp [cachedNow]

@[simp]
theorem cachedNow_ended (cached : Bool) :
    cachedNow (.ended stream other cached :: history) key =
      if other = key then some cached else cachedNow history key := by
  unfold cachedNow
  rw [List.findSome?_cons]
  by_cases same : other = key <;> simp [same]

@[simp]
theorem cachedNow_evicted :
    cachedNow (.evicted other :: history) key =
      if other = key then some false else cachedNow history key := by
  unfold cachedNow
  rw [List.findSome?_cons]
  by_cases same : other = key <;> simp [same]

variable {history key}

/-- The most recent completed response of a key. -/
theorem exists_last_ended :
    ∀ {history : History} {stream : StreamId} {cached : Bool},
      .ended stream key cached ∈ history →
        ∃ recent older last lastCached,
          history = recent ++ .ended last key lastCached :: older ∧
            ∀ other otherCached,
              .ended other key otherCached ∉ recent
  | [], stream, cached, member => by
      simp at member
  | happening :: rest, stream, cached, member => by
      by_cases here : ∃ last lastCached,
          happening = .ended last key lastCached
      · obtain ⟨last, lastCached, rfl⟩ := here
        exact ⟨[], rest, last, lastCached, rfl, by simp⟩
      · have later : .ended stream key cached ∈ rest := by
          rcases List.mem_cons.mp member with same | later
          · exact absurd ⟨stream, cached, same.symm⟩ here
          · exact later
        obtain ⟨recent, older, last, lastCached, rfl, absent⟩ :=
          exists_last_ended later
        refine
          ⟨happening :: recent, older, last, lastCached, rfl, ?_⟩
        intro other otherCached found
        rcases List.mem_cons.mp found with same | later
        · exact here ⟨other, otherCached, same.symm⟩
        · exact absent other otherCached later

/-- Some response of a key has completed once its end is in the history. -/
theorem cachedNow_isSome :
    ∀ {history : History} {stream : StreamId} {cached : Bool},
      .ended stream key cached ∈ history →
        (cachedNow history key).isSome = true
  | [], stream, cached, member => by
      simp at member
  | happening :: rest, stream, cached, member => by
      have ofRest :
          .ended stream key cached ∈ rest →
            (cachedNow rest key).isSome = true :=
        cachedNow_isSome
      rcases List.mem_cons.mp member with rfl | later
      · simp
      · cases happening with
        | led other led =>
            simpa using ofRest later
        | ended other ended otherCached =>
            rw [cachedNow_ended]
            split
            · rfl
            · exact ofRest later
        | evicted evicted =>
            rw [cachedNow_evicted]
            split
            · rfl
            · exact ofRest later

/-- If the last completed response of a key is not cached, it was dropped or
has been evicted since. -/
theorem dropped_or_evicted
    (notCached : cachedNow history key = some false)
    {recent older : History} {last : StreamId} {cached : Bool}
    (split : history = recent ++ .ended last key cached :: older)
    (absent :
      ∀ other otherCached, .ended other key otherCached ∉ recent) :
    cached = false ∨ .evicted key ∈ recent := by
  subst split
  induction recent with
  | nil =>
      left
      simpa using notCached
  | cons happening rest inductionHypothesis =>
      have absentRest :
          ∀ other otherCached,
            .ended other key otherCached ∉ rest :=
        fun other otherCached member =>
          absent other otherCached (List.mem_cons_of_mem _ member)
      have ofRest :
          cachedNow (rest ++ .ended last key cached :: older) key =
              some false →
            cached = false ∨ .evicted key ∈ happening :: rest := by
        intro restNotCached
        rcases inductionHypothesis absentRest restNotCached with
          dropped | evicted
        · exact Or.inl dropped
        · exact Or.inr (List.mem_cons_of_mem _ evicted)
      cases happening with
      | led stream led =>
          exact ofRest (by simpa using notCached)
      | ended stream ended endedCached =>
          have different : ended ≠ key := by
            intro same
            subst same
            exact absent stream endedCached List.mem_cons_self
          exact ofRest (by simpa [different] using notCached)
      | evicted evicted =>
          by_cases same : evicted = key
          · subst same
            exact Or.inr List.mem_cons_self
          · exact ofRest (by simpa [same] using notCached)

end History

namespace World

variable {world next : World}

/-- The history agrees with the index of cached entries and names every
finished leader. -/
structure Recorded (world : World) : Prop where
  cached :
    ∀ key : Key,
      (world.monitor.cache.cacheMap key).isSome = true ↔
        world.history.cachedNow key = some true
  finished :
    ∀ {stream : StreamId} {leader : Leader},
      world.clients[stream]? = some (.leader leader) →
      leader.unfinished = false →
        ∃ cached,
          .ended stream leader.key cached ∈ world.history

/-- What a scan iteration adds to the history matches what it takes from the
index. -/
theorem cachedNow_scanIteration
    {cache after : RingBufferCache} {sizeNeeded : UInt64}
    {before point : ScanPoint} {history : History}
    (iterated :
      cache.scanIteration sizeNeeded before = .ok (after, point))
    (recorded :
      ∀ key,
        (cache.cacheMap key).isSome = true ↔
          history.cachedNow key = some true)
    (key : Key) :
    (after.cacheMap key).isSome = true ↔
      History.cachedNow (evictedKeys cache after ++ history) key =
        some true := by
  obtain ⟨evicted, evictedCases, nextCases⟩ :=
    scanIteration_eq_ok iterated
  have unmoved :
      after.cacheMap = evicted.cacheMap ∧
        after.slots = evicted.slots := by
    rcases nextCases with rfl | rfl <;> exact ⟨rfl, rfl⟩
  unfold evictedKeys
  rw [unmoved.1, unmoved.2]
  rcases evictedCases with rfl | ⟨entry, resident, _, rfl⟩
  · cases read : evicted.slots[evicted.head]? with
    | none =>
        simpa using recorded key
    | some slot =>
        cases slot with
        | none =>
            simpa using recorded key
        | some entry =>
            simpa using recorded key
  · unfold Resident at resident
    have vacated :
        (cache.withoutHead entry).slots[cache.head]? = some none :=
      (Table.getElem?_set_of_some resident none cache.head).trans
        (if_pos rfl)
    rw [resident, vacated]
    by_cases same : key = entry.key
    · subst same
      simp [withoutHead]
    · simpa [withoutHead, same, Ne.symm same] using recorded key

theorem cachedNow_completeFinalize
    {cache after : RingBufferCache} {key : Key} {result : Bool}
    {history : History} {stream : StreamId}
    (completed : cache.completeFinalize key result = .ok after)
    (recorded :
      ∀ other,
        (cache.cacheMap other).isSome = true ↔
          history.cachedNow other = some true)
    (other : Key) :
    (after.cacheMap other).isSome = true ↔
      History.cachedNow
          (.ended stream key (after.cacheMap key).isSome :: history)
          other =
        some true := by
  rw [History.cachedNow_ended]
  by_cases same : key = other
  · subst same
    simp
  · have kept : after.cacheMap other = cache.cacheMap other := by
      obtain ⟨_, _, ⟨_, rfl⟩ | ⟨_, _, _, _, rfl⟩⟩ :=
        completeFinalize_eq_ok_iff.mp completed
      · rfl
      · simp [setInflight, withHead, newEntry, Ne.symm same]
    rw [kept, if_neg same]
    exact recorded other

/-- A step that leaves the leaders, the cached keys and the history alone
keeps the record. -/
theorem Recorded.of_same
    (recorded : world.Recorded)
    (leaders :
      ∀ (stream : StreamId) (leader : Leader),
        next.clients[stream]? = some (.leader leader) →
        leader.unfinished = false →
          ∃ earlier : Leader,
            world.clients[stream]? = some (.leader earlier) ∧
              earlier.key = leader.key ∧ earlier.unfinished = false)
    (cacheMapEq :
      next.monitor.cache.cacheMap = world.monitor.cache.cacheMap)
    (historyEq : next.history = world.history) :
    next.Recorded := by
  refine { cached := ?_, finished := ?_ }
  · rw [cacheMapEq, historyEq]
    exact recorded.cached
  · intro stream leader client finished
    obtain ⟨earlier, found, sameKey, wasFinished⟩ :=
      leaders stream leader client finished
    rw [historyEq, ← sameKey]
    exact recorded.finished found wasFinished

/-- The case of `Recorded.of_same` in which one leader goes on without
finishing. -/
theorem leaders_of_leader_update
    {stream : StreamId} {old new : Leader}
    (client : world.clients[stream]? = some (.leader old))
    (clientsEq :
      next.clients = world.clients.set stream (.leader new))
    (sameKey : new.key = old.key)
    (finishes : new.unfinished = false → old.unfinished = false)
    (other : StreamId) (leader : Leader)
    (found : next.clients[other]? = some (.leader leader))
    (finished : leader.unfinished = false) :
    ∃ earlier : Leader,
      world.clients[other]? = some (.leader earlier) ∧
        earlier.key = leader.key ∧ earlier.unfinished = false := by
  rw [clientsEq, Table.getElem?_set_of_some client] at found
  by_cases same : other = stream
  · subst same
    have sameLeader : new = leader := by simpa using found
    subst leader
    exact ⟨old, client, sameKey.symm, finishes finished⟩
  · rw [if_neg same] at found
    exact ⟨leader, found, rfl, finished⟩

theorem create_recorded
    (capacity : UInt64) (slotCount : Nat)
    (dispatchers : List DispatcherId) :
    (create capacity slotCount dispatchers).Recorded := by
  refine { cached := ?_, finished := ?_ }
  · intro key
    simp [create, Monitor.create, RingBufferCache.create,
      History.cachedNow]
  · intro stream leader client
    have member := List.mem_of_getElem? client
    simp [create] at member

theorem Recorded.step
    (recorded : world.Recorded) (flight : world.SingleFlight)
    {action : Action} (effect : Effect world action next)
    (orderly : world.leaderCalls Log.orderly action = true) :
    next.Recorded := by
  have unchanged :
      ∀ {stream : StreamId} {old new : Client},
        world.clients[stream]? = some old →
        (∀ leader, old ≠ .leader leader) →
        (∀ leader, new ≠ .leader leader) →
          ∀ (other : StreamId) (leader : Leader),
            (world.clients.set stream new)[other]? =
                some (.leader leader) →
            leader.unfinished = false →
              ∃ earlier : Leader,
                world.clients[other]? = some (.leader earlier) ∧
                  earlier.key = leader.key ∧
                    earlier.unfinished = false := by
    intro stream old new client oldOther newOther other leader
      found finished
    have before :=
      (leaders_update client oldOther newOther world.monitor other
        leader).mp found
    exact ⟨leader, before, rfl, finished⟩
  cases effect with
  | lookupHit client free mapped read =>
      exact
        recorded.of_same (unchanged client (by simp) (by simp)) rfl rfl
  | @lookupLead stream dispatcher key client free unmapped missing =>
      refine { cached := ?_, finished := ?_ }
      · intro other
        simpa [World.update, setInflight] using recorded.cached other
      · intro other leader found finished
        change
          (world.clients.set stream _)[other]? = _ at found
        rw [Table.getElem?_set_of_some client] at found
        by_cases same : other = stream
        · rw [if_pos same, Option.some.injEq, Client.leader.injEq]
            at found
          subst leader
          simp [Leader.unfinished, Log.ended] at finished
        · rw [if_neg same] at found
          obtain ⟨cached, member⟩ := recorded.finished found finished
          exact ⟨cached, List.mem_cons_of_mem _ member⟩
  | lookupFollow client free unmapped present headersFirst =>
      exact
        recorded.of_same (unchanged client (by simp) (by simp)) rfl rfl
  | copyHeaders client stage read =>
      exact
        recorded.of_same (unchanged client (by simp) (by simp)) rfl rfl
  | handOutEmpty client stage empty read =>
      exact
        recorded.of_same (unchanged client (by simp) (by simp)) rfl rfl
  | handOutBody client stage nonempty =>
      exact
        recorded.of_same (unchanged client (by simp) (by simp)) rfl rfl
  | release client stage read =>
      exact
        recorded.of_same (unchanged client (by simp) (by simp)) rfl rfl
  | publishLost client idle free missing =>
      exact
        absurd missing
          (flight.publish_finds client
            (permits_of_leaderCalls client orderly))
  | publishOpen client idle free present stays =>
      have notEnded :=
        Log.not_ended_of_orderly (permits_of_leaderCalls client orderly)
      refine
        recorded.of_same
          (leaders_of_leader_update client rfl rfl ?_) rfl rfl
      simp [Leader.unfinished, notEnded, stays]
  | publishEnd client idle free present ends stored =>
      refine
        recorded.of_same
          (leaders_of_leader_update client rfl rfl ?_) rfl rfl
      simp [Leader.unfinished]
  | scan client finalizing running iterated =>
      refine { cached := ?_, finished := ?_ }
      · exact cachedNow_scanIteration iterated recorded.cached
      · intro other leader found finished
        obtain ⟨cached, member⟩ := recorded.finished found finished
        exact ⟨cached, List.mem_append_right _ member⟩
  | @finish stream leader posts frame result cache client finalizing
      running atReturn completed =>
      obtain ⟨_, other, otherRunning, frameKey⟩ :=
        flight.holder client finalizing
      rw [running, Option.some.injEq] at otherRunning
      subst other
      rw [frameKey] at completed
      refine { cached := ?_, finished := ?_ }
      · exact cachedNow_completeFinalize completed recorded.cached
      · intro other found present finished
        change (world.clients.set stream _)[other]? = _ at present
        rw [Table.getElem?_set_of_some client] at present
        by_cases same : other = stream
        · rw [if_pos same, Option.some.injEq, Client.leader.injEq]
            at present
          subst same present
          exact ⟨_, List.mem_cons_self⟩
        · rw [if_neg same] at present
          obtain ⟨cached, member⟩ :=
            recorded.finished present finished
          exact ⟨cached, List.mem_cons_of_mem _ member⟩
  | post client posting =>
      exact
        recorded.of_same
          (leaders_of_leader_update client rfl rfl
            (by simp [Leader.unfinished, posting])) rfl rfl
  | return_ client posting =>
      exact
        recorded.of_same
          (leaders_of_leader_update client rfl rfl
            (by simp [Leader.unfinished, posting])) rfl rfl
  | runCancelled queued cancelled =>
      exact { cached := recorded.cached, finished := recorded.finished }
  | run queued live =>
      exact { cached := recorded.cached, finished := recorded.finished }
  | cancel client =>
      exact { cached := recorded.cached, finished := recorded.finished }
  | removeWaiter client cancelled free =>
      refine
        recorded.of_same
          (fun _ leader found finished => ⟨leader, found, rfl, finished⟩)
          ?_ rfl
      rcases removeWaiterLocked_cache world.monitor.cache _ _ with
        same | ⟨_, _, _, same⟩
      · rw [same]
      · rw [same]
        rfl

section Reachable

variable {capacity : UInt64} {slotCount : Nat}
variable {dispatchers : List DispatcherId}

theorem recorded_of_reachable
    (reachable :
      Reachable step (create capacity slotCount dispatchers)
        (LeadersCall Log.orderly) world) :
    world.Recorded := by
  refine
    reachable.invariant
      (create_recorded capacity slotCount dispatchers) ?_
  intro before action after reached recorded stepped orderly
  have flight := singleFlight_of_reachable reached
  exact recorded.step flight (step_effect stepped) orderly

end Reachable

/-! ## The count of leaders -/

/-- While no finalization holds the mutex, every leader has either published
its end or is unfinished. -/
theorem SingleFlight.leads_eq
    (flight : world.SingleFlight) (free : world.monitor.frame = none)
    {stream : StreamId} {client : Client}
    (found : world.clients[stream]? = some client) (key : Key) :
    client.leads key =
      client.endPublishes key + client.unfinishedLeads key := by
  cases client with
  | leader leader =>
      have once := flight.endsOnce found
      have sameEnd : leader.unfinished = !leader.log.ended := by
        cases call : leader.call with
        | finalizing posts =>
            obtain ⟨_, frame, running, _⟩ := flight.holder found call
            rw [free] at running
            simp at running
        | idle =>
            simp [Leader.unfinished, call]
        | posting posts =>
            simp [Leader.unfinished, call]
      by_cases sameKey : leader.key = key
      · cases ended : leader.log.ended <;>
          simp [Client.leads, Client.endPublishes,
            Client.unfinishedLeads, sameKey, once, sameEnd, ended]
      · simp [Client.leads, Client.endPublishes, Client.unfinishedLeads,
          sameKey]
  | start dispatcher =>
      rfl
  | hit lookup =>
      rfl
  | follower follower =>
      rfl

theorem SingleFlight.leaderResults_eq
    (flight : world.SingleFlight) (free : world.monitor.frame = none)
    (key : Key) :
    world.leaderResults key =
      world.endPublishes key +
        if (world.monitor.cache.inflightMap key).isSome then 1 else 0 := by
  have rowwise :
      world.clients.map (Client.leads key) =
        world.clients.map fun client =>
          client.endPublishes key + client.unfinishedLeads key := by
    apply List.map_congr_left
    intro client member
    obtain ⟨stream, found⟩ := List.mem_iff_getElem?.mp member
    exact flight.leads_eq free found key
  unfold leaderResults endPublishes
  rw [rowwise, List.sum_map_add, flight.counted key]

/-! ## Lookups of a key -/

/-- A lookup of an inflight key joins the stream that last led it. -/
theorem lookup_follows
    {stream : StreamId} {dispatcher : DispatcherId} {key : Key}
    {inflight : Inflight}
    (client : world.clients[stream]? = some (.start dispatcher))
    (free : world.monitor.frame = none)
    (unmapped : world.monitor.cache.cacheMap key = none)
    (present : world.monitor.cache.inflightMap key = some inflight)
    (headersFirst : inflight.headers = none → inflight.body = []) :
    ∃ next follower,
      world.step (.move stream (.lookup key)) = .ok next ∧
        next.clients[stream]? = some (.follower follower) ∧
          follower.key = key ∧
            follower.leader = world.history.lastLeader key := by
  have looked :
      world.monitor.lookup key
          (some { stream := stream, dispatcher := dispatcher }) stream =
        .ok
          (.follower (waiterOf stream dispatcher)
              (backfillPosts inflight (waiterOf stream dispatcher)),
            { cache :=
                world.monitor.cache.setInflight key
                  (some { inflight with
                    waiters :=
                      inflight.waiters ++
                        [waiterOf stream dispatcher] }) }) :=
    Monitor.lookup_eq_ok_iff.mpr
      ⟨free, rfl,
        lookupLocked_eq_ok_iff.mpr
          (Or.inr (Or.inr
            ⟨unmapped, inflight, _, present, rfl, headersFirst, rfl,
              rfl⟩))⟩
  obtain ⟨next, stepped⟩ :
      ∃ next, world.step (.move stream (.lookup key)) = .ok next := by
    simp only [step, client, World.lookup]
    rw [looked]
    exact ⟨_, rfl⟩
  cases step_effect stepped with
  | lookupHit _ _ mapped _ =>
      rw [unmapped] at mapped
      simp at mapped
  | lookupLead _ _ _ missing =>
      rw [present] at missing
      simp at missing
  | @lookupFollow _ other _ _ _ _ _ _ _ =>
      have read :
          (world.clients.set stream
              (.follower
                (world.followerOf stream other key)))[stream]? =
            some _ :=
        (Table.getElem?_set_of_some client _ stream).trans (if_pos rfl)
      exact ⟨_, _, stepped, read, rfl, rfl⟩

/-- A lookup that leads found its key neither cached nor inflight. -/
theorem missing_of_leads
    {stream : StreamId} {dispatcher : DispatcherId} {key : Key}
    {leader : Leader}
    (client : world.clients[stream]? = some (.start dispatcher))
    (stepped : world.step (.move stream (.lookup key)) = .ok next)
    (leads : next.clients[stream]? = some (.leader leader)) :
    world.monitor.cache.cacheMap key = none ∧
      world.monitor.cache.inflightMap key = none := by
  have afterLookup :
      ∀ new : Client,
        (world.clients.set stream new)[stream]? =
            some (.leader leader) →
          new = .leader leader := by
    intro new read
    rw [Table.getElem?_set_of_some client, if_pos rfl] at read
    simpa using read
  cases step_effect stepped with
  | lookupHit _ _ _ _ =>
      exact absurd (afterLookup _ leads) (by simp)
  | lookupLead _ _ unmapped missing =>
      exact ⟨unmapped, missing⟩
  | lookupFollow _ _ _ _ _ =>
      exact absurd (afterLookup _ leads) (by simp)

/-- A key that has been led and is neither cached nor inflight has a last
completed response, which was dropped or has been evicted since. -/
theorem Recorded.last_lost
    (recorded : world.Recorded) (flight : world.SingleFlight)
    {key : Key} (ledBefore : 0 < world.leaderResults key)
    (unmapped : world.monitor.cache.cacheMap key = none)
    (missing : world.monitor.cache.inflightMap key = none) :
    ∃ recent older last cached,
      world.history = recent ++ .ended last key cached :: older ∧
        (∀ other otherCached,
          .ended other key otherCached ∉ recent) ∧
          (cached = false ∨ .evicted key ∈ recent) := by
  obtain ⟨client, member, leads⟩ :
      ∃ client ∈ world.clients, 0 < client.leads key := by
    by_contra noLeader
    push Not at noLeader
    have zero : world.leaderResults key = 0 := by
      apply List.sum_eq_zero
      intro weight weightMember
      obtain ⟨client, member, rfl⟩ := List.mem_map.mp weightMember
      exact Nat.le_zero.mp (noLeader client member)
    rw [zero] at ledBefore
    simp at ledBefore
  obtain ⟨stream, found⟩ := List.mem_iff_getElem?.mp member
  cases client with
  | leader leader =>
      have sameKey : leader.key = key := by
        by_contra different
        simp [Client.leads, different] at leads
      have finished : leader.unfinished = false := by
        by_contra unfinished
        rw [Bool.not_eq_false] at unfinished
        obtain ⟨⟨inflight, present⟩, _⟩ := flight.owned found unfinished
        rw [sameKey, missing] at present
        simp at present
      obtain ⟨cached, ended⟩ := recorded.finished found finished
      rw [sameKey] at ended
      have notCached : world.history.cachedNow key = some false := by
        have completed := History.cachedNow_isSome ended
        obtain ⟨now, nowEq⟩ := Option.isSome_iff_exists.mp completed
        cases now with
        | false =>
            exact nowEq
        | true =>
            have mapped := (recorded.cached key).mpr nowEq
            rw [unmapped] at mapped
            simp at mapped
      obtain ⟨recent, older, last, lastCached, split, absent⟩ :=
        History.exists_last_ended ended
      exact
        ⟨recent, older, last, lastCached, split, absent,
          History.dropped_or_evicted notCached split absent⟩
  | start dispatcher =>
      simp [Client.leads] at leads
  | hit lookup =>
      simp [Client.leads] at leads
  | follower follower =>
      simp [Client.leads] at leads

/-! ## Single flight -/

/-- Single flight of a key: what holds of its leaders in every state, and of
the next lookup of the key. -/
structure SingleFlightPerKey (world : World) (key : Key) : Prop where
  counts :
    world.monitor.frame = none →
      world.leaderResults key =
        world.endPublishes key +
          if (world.monitor.cache.inflightMap key).isSome then 1 else 0
  follows :
    ∀ {stream other : StreamId} {leader : Leader}
        {dispatcher : DispatcherId},
      world.clients[stream]? = some (.leader leader) →
      leader.key = key →
      leader.log.ended = false →
      world.clients[other]? = some (.start dispatcher) →
      world.monitor.frame = none →
        ∃ next follower,
          world.step (.move other (.lookup key)) = .ok next ∧
            next.clients[other]? = some (.follower follower) ∧
              follower.key = key ∧ follower.leader = some stream
  unique :
    ∀ {stream other : StreamId} {leader otherLeader : Leader},
      world.clients[stream]? = some (.leader leader) →
      world.clients[other]? = some (.leader otherLeader) →
      leader.key = key →
      otherLeader.key = key →
      leader.log.ended = false →
      otherLeader.log.ended = false →
        other = stream
  finds :
    ∀ {stream : StreamId} {leader : Leader},
      world.clients[stream]? = some (.leader leader) →
      leader.key = key →
      leader.log.ended = false →
        ∃ inflight,
          world.monitor.cache.inflightMap key = some inflight ∧
            world.history.lastLeader key = some stream ∧
              inflight.headers = leader.log.headers? ∧
                inflight.body = leader.log.body
  again :
    ∀ {stream : StreamId} {dispatcher : DispatcherId} {next : World}
        {leader : Leader},
      world.clients[stream]? = some (.start dispatcher) →
      world.step (.move stream (.lookup key)) = .ok next →
      next.clients[stream]? = some (.leader leader) →
      0 < world.leaderResults key →
        ∃ recent older last cached,
          world.history = recent ++ .ended last key cached :: older ∧
            (∀ other otherCached,
              .ended other key otherCached ∉ recent) ∧
              (cached = false ∨ .evicted key ∈ recent)

/-- In every run in which leaders publish headers before data and nothing after
their end, each key has at most one unfinished leader, the owner of its
inflight response. -/
theorem singleFlightPerKey
    {capacity : UInt64} {slotCount : Nat}
    {dispatchers : List DispatcherId}
    (reachable :
      Reachable step (create capacity slotCount dispatchers)
        (LeadersCall Log.orderly) world)
    (key : Key) :
    world.SingleFlightPerKey key := by
  have flight := singleFlight_of_reachable reachable
  have spooled := spooled_of_reachable reachable
  have recorded := recorded_of_reachable reachable
  have found :
      ∀ {stream : StreamId} {leader : Leader},
        world.clients[stream]? = some (.leader leader) →
        leader.key = key →
        leader.log.ended = false →
          ∃ inflight,
            world.monitor.cache.inflightMap key = some inflight ∧
              world.history.lastLeader key = some stream ∧
                inflight.headers = leader.log.headers? ∧
                  inflight.body = leader.log.body := by
    intro stream leader client sameKey notEnded
    subst sameKey
    have unfinished := Leader.unfinished_of_not_ended notEnded
    obtain ⟨⟨inflight, present⟩, last⟩ := flight.owned client unfinished
    exact
      ⟨inflight, present, last,
        spooled.content client unfinished present⟩
  refine
    { counts := fun free => flight.leaderResults_eq free key
      follows := ?_
      unique := ?_
      finds := found
      again := ?_ }
  · intro stream other leader dispatcher client sameKey notEnded start
      free
    obtain ⟨inflight, present, last, headersEq, bodyEq⟩ :=
      found client sameKey notEnded
    rw [← last]
    refine
      lookup_follows start free
        (Monitor.exclusive_of_reachable (monitor_reachable reachable)
          present)
        present ?_
    intro noHeaders
    rw [headersEq] at noHeaders
    rw [bodyEq, spooled.headersFirst client noHeaders]
    rfl
  · intro stream other leader otherLeader client otherClient sameKey
      otherSameKey notEnded otherNotEnded
    exact
      flight.unique client (Leader.unfinished_of_not_ended notEnded)
        otherClient (Leader.unfinished_of_not_ended otherNotEnded)
        (otherSameKey.trans sameKey.symm)
  · intro stream dispatcher next leader start stepped leads ledBefore
    obtain ⟨unmapped, missing⟩ := missing_of_leads start stepped leads
    exact recorded.last_lost flight ledBefore unmapped missing

/-- A leader with one follower, whose response is dropped because it does not
fit, a second leader of the same key, whose response is cached, a leader of
another key, whose response evicts it, and a third leader of the first key. -/
def refetchedRun : List Action :=
  [.move 0 (.lookup [1]), .move 1 (.lookup [1]),
    .move 0 (.publish (.headers [([2], [3])] false)), .move 0 .post,
    .move 0 .return_, .move 0 (.publish (.data [4] true)),
    .move 0 .finish, .move 0 .post, .move 0 .return_,
    .move 2 (.lookup [1]), .move 2 (.publish (.headers [([2], [3])] true)),
    .move 2 .scan, .move 2 .scan, .move 2 .finish, .move 2 .return_,
    .move 3 (.lookup [5]), .move 3 (.publish (.headers [([2], [3])] true)),
    .move 3 .scan, .move 3 .scan, .move 3 .scan, .move 3 .finish,
    .move 3 .return_, .move 4 (.lookup [1])]

theorem singleFlightPerKey_refetchedRun :
    ∃ world,
      checkedRun step
            (fun world action _ =>
              world.leaderCalls Log.orderly action)
            (create 2 1 [0, 1, 0, 1, 0]) refetchedRun =
          some world ∧
        world.leaderResults [1] = 3 ∧
          world.endPublishes [1] = 2 ∧
            world.history.count (.evicted [1]) = 1 ∧
              world.SingleFlightPerKey [1] := by
  refine ⟨_, rfl, rfl, rfl, rfl, ?_⟩
  exact
    singleFlightPerKey
      (Reachable.of_checkedRun (fun _ _ _ checked => checked)
        Reachable.start
        (rfl :
          checkedRun step
              (fun world action _ =>
                world.leaderCalls Log.orderly action)
              (create 2 1 [0, 1, 0, 1, 0]) refetchedRun =
            some _))
      [1]

end World

end RingCache

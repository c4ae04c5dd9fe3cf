import RingCache.Streams.Leadership

/-!
# Fetches of a key

Every leader of a key fetches its response once.  A response is in flight while
it is fetched, then it is cached or dropped, and what is cached stays until it
is evicted.  So the leaders of a key are exactly as many as the responses of
the key that were lost, by a drop or an eviction, and the one that is in flight
or cached.
-/

namespace RingCache

open Transition RingBufferCache

namespace History

/-- How often a response of a key was lost: dropped at its finalization or
evicted. -/
def losses (history : History) (key : Key) : Nat :=
  history.countP fun
    | .led _ _ => false
    | .ended _ ended cached => decide (ended = key) && !cached
    | .evicted evicted => decide (evicted = key)

variable (history : History) (key other : Key) (stream : StreamId)

theorem losses_led :
    losses (.led stream other :: history) key = losses history key := by
  simp [losses]

theorem losses_ended (cached : Bool) :
    losses (.ended stream other cached :: history) key =
      losses history key +
        if other = key ∧ cached = false then 1 else 0 := by
  simp [losses, List.countP_cons]

theorem losses_evicted :
    losses (.evicted other :: history) key =
      losses history key + if other = key then 1 else 0 := by
  simp [losses, List.countP_cons]

end History

namespace World

variable {world next : World} {action : Action}

/-- The responses of a key that are cached or in flight. -/
def held (cache : RingBufferCache) (key : Key) : Nat :=
  (cache.cacheMap key).isSome.toNat + (cache.inflightMap key).isSome.toNat

/-- The leaders of every key, counted by what became of their responses. -/
def FetchesCounted (world : World) : Prop :=
  ∀ key,
    world.leaderResults key =
      world.history.losses key + held world.monitor.cache key

/-! ## Evictions and finalizations -/

/-- What a scan iteration takes from the index is lost. -/
theorem losses_scanIteration
    {cache after : RingBufferCache} {sizeNeeded : UInt64}
    {before point : ScanPoint} {history : History}
    (wellFormed : cache.WellFormed)
    (iterated :
      cache.scanIteration sizeNeeded before = .ok (after, point))
    (key : Key) :
    History.losses (evictedKeys cache after ++ history) key +
        held after key =
      history.losses key + held cache key := by
  obtain ⟨evicted, evictedCases, nextCases⟩ :=
    scanIteration_eq_ok iterated
  have unmoved :
      after.cacheMap = evicted.cacheMap ∧
        after.inflightMap = evicted.inflightMap ∧
          after.slots = evicted.slots := by
    rcases nextCases with rfl | rfl <;> exact ⟨rfl, rfl, rfl⟩
  unfold evictedKeys held
  rw [unmoved.1, unmoved.2.1, unmoved.2.2]
  rcases evictedCases with rfl | ⟨entry, resident, _, rfl⟩
  · cases read : evicted.slots[evicted.head]? with
    | none =>
        rfl
    | some slot =>
        cases slot <;> rfl
  · have mapped :=
      (wellFormed.indexed entry.key entry.addr).mpr
        ⟨_, entry, resident, rfl, rfl⟩
    unfold Resident at resident
    have vacated :
        (cache.withoutHead entry).slots[cache.head]? = some none :=
      (Table.getElem?_set_of_some resident none cache.head).trans
        (if_pos rfl)
    rw [resident, vacated]
    simp only [List.singleton_append, History.losses_evicted]
    by_cases same : entry.key = key
    · subst same
      simp only [withoutHead, mapped, Function.update_self, if_true,
        Option.isSome_none, Option.isSome_some, Bool.toNat_false,
        Bool.toNat_true]
      omega
    · simp [withoutHead, same, Ne.symm same]

/-- What a finalization ends is cached or lost. -/
theorem losses_completeFinalize
    {cache after : RingBufferCache} {key : Key} {result : Bool}
    {history : History} {stream : StreamId}
    (wellFormed : cache.WellFormed)
    (completed : cache.completeFinalize key result = .ok after)
    (other : Key) :
    History.losses
          (.ended stream key (after.cacheMap key).isSome :: history)
          other +
        held after other =
      history.losses other + held cache other := by
  have inflightEq := completeFinalize_inflightMap completed other
  rw [History.losses_ended, held, held, inflightEq]
  by_cases same : key = other
  · subst same
    obtain ⟨inflight, present, _⟩ :=
      completeFinalize_eq_ok_iff.mp completed
    have unmapped := wellFormed.unmapped_of_inflight present
    rw [present, unmapped]
    cases (after.cacheMap key).isSome <;> simp
  · have kept : after.cacheMap other = cache.cacheMap other := by
      obtain ⟨_, _, ⟨_, rfl⟩ | ⟨_, _, _, _, rfl⟩⟩ :=
        completeFinalize_eq_ok_iff.mp completed
      · rfl
      · simp [setInflight, withHead, newEntry, Ne.symm same]
    simp [kept, same, Ne.symm same]

/-! ## Runs -/

theorem leaderResults_set
    {stream : StreamId} {old new : Client} {key : Key}
    (client : world.clients[stream]? = some old)
    (clientsEq : next.clients = world.clients.set stream new) :
    next.leaderResults key + old.leads key =
      world.leaderResults key + new.leads key := by
  unfold leaderResults
  rw [clientsEq]
  exact Table.sum_map_set (Client.leads key) new client

theorem FetchesCounted.of_same
    (counted : world.FetchesCounted)
    (leaders : ∀ key, next.leaderResults key = world.leaderResults key)
    (cached :
      next.monitor.cache.cacheMap = world.monitor.cache.cacheMap)
    (inflight :
      ∀ key,
        (next.monitor.cache.inflightMap key).isSome =
          (world.monitor.cache.inflightMap key).isSome)
    (historyEq : next.history = world.history) :
    next.FetchesCounted := by
  intro key
  rw [leaders, historyEq, held, cached, inflight]
  exact counted key

theorem leaderResults_eq_of_set
    {stream : StreamId} {old new : Client}
    (client : world.clients[stream]? = some old)
    (clientsEq : next.clients = world.clients.set stream new)
    (sameLeads : ∀ key, new.leads key = old.leads key) (key : Key) :
    next.leaderResults key = world.leaderResults key := by
  have total := @leaderResults_set _ next _ _ _ key client clientsEq
  rw [sameLeads] at total
  exact Nat.add_right_cancel total

/-- One stream goes on and does not become a leader. -/
theorem FetchesCounted.of_update
    (counted : world.FetchesCounted)
    {stream : StreamId} {old new : Client}
    (client : world.clients[stream]? = some old)
    (clientsEq : next.clients = world.clients.set stream new)
    (sameLeads : ∀ key, new.leads key = old.leads key)
    (cached :
      next.monitor.cache.cacheMap = world.monitor.cache.cacheMap)
    (inflight :
      ∀ key,
        (next.monitor.cache.inflightMap key).isSome =
          (world.monitor.cache.inflightMap key).isSome)
    (historyEq : next.history = world.history) :
    next.FetchesCounted := by
  exact
    counted.of_same (leaderResults_eq_of_set client clientsEq sameLeads)
      cached inflight historyEq

/-- A stream becomes the leader of a key that nobody fetches. -/
theorem FetchesCounted.lead
    (counted : world.FetchesCounted)
    {stream : StreamId} {dispatcher : DispatcherId} {leader : Leader}
    (client : world.clients[stream]? = some (.start dispatcher))
    (missing : world.monitor.cache.inflightMap leader.key = none)
    (clientsEq :
      next.clients = world.clients.set stream (.leader leader))
    (cached :
      next.monitor.cache.cacheMap = world.monitor.cache.cacheMap)
    (inflightEq :
      next.monitor.cache.inflightMap =
        Function.update world.monitor.cache.inflightMap leader.key
          (some {}))
    (historyEq :
      next.history = .led stream leader.key :: world.history) :
    next.FetchesCounted := by
  intro key
  have total := @leaderResults_set _ next _ _ _ key client clientsEq
  have before := counted key
  rw [historyEq, History.losses_led, held, cached, inflightEq]
  rw [held] at before
  by_cases same : leader.key = key
  · subst same
    simp only [Client.leads, if_true] at total
    simp only [missing, Option.isSome_none, Bool.toNat_false] at before
    simp only [Function.update_self, Option.isSome_some,
      Bool.toNat_true]
    omega
  · simp only [Client.leads, if_neg same] at total
    rw [Function.update_of_ne (Ne.symm same)]
    omega

theorem FetchesCounted.step
    (counted : world.FetchesCounted) (flight : world.SingleFlight)
    (wellFormed : world.monitor.cache.WellFormed)
    (effect : Effect world action next) :
    next.FetchesCounted := by
  cases effect with
  | lookupHit client free mapped read =>
      exact
        counted.of_update client rfl (fun _ => rfl) rfl (fun _ => rfl)
          rfl
  | @lookupLead stream dispatcher key client free unmapped missing =>
      exact counted.lead client missing rfl rfl rfl rfl
  | lookupFollow client free unmapped present headersFirst =>
      exact
        counted.of_update client rfl (fun _ => rfl) rfl
          (isSome_setInflight present _) rfl
  | copyHeaders client stage read =>
      exact
        counted.of_update client rfl (fun _ => rfl) rfl (fun _ => rfl)
          rfl
  | handOutEmpty client stage empty read =>
      exact
        counted.of_update client rfl (fun _ => rfl) rfl (fun _ => rfl)
          rfl
  | handOutBody client stage nonempty =>
      exact
        counted.of_update client rfl (fun _ => rfl) rfl (fun _ => rfl)
          rfl
  | release client stage read =>
      exact
        counted.of_update client rfl (fun _ => rfl) rfl (fun _ => rfl)
          rfl
  | publishLost client idle free missing =>
      exact
        counted.of_update client rfl (fun _ => rfl) rfl (fun _ => rfl)
          rfl
  | publishOpen client idle free present stays =>
      exact
        counted.of_update client rfl (fun _ => rfl) rfl
          (isSome_setInflight present _) rfl
  | publishEnd client idle free present ends stored =>
      exact
        counted.of_update client rfl (fun _ => rfl) rfl
          (isSome_setInflight present _) rfl
  | scan client finalizing running iterated =>
      intro key
      exact
        (counted key).trans
          (losses_scanIteration wellFormed iterated key).symm
  | @finish stream leader posts frame result cache client finalizing
      running atReturn completed =>
      obtain ⟨_, held, heldRunning, frameKey⟩ :=
        flight.holder client finalizing
      rw [running, Option.some.injEq] at heldRunning
      subst heldRunning
      rw [frameKey] at completed
      intro key
      refine (leaderResults_eq_of_set client rfl ?_ key).trans ?_
      · intro other
        rfl
      · exact
          (counted key).trans
            (losses_completeFinalize wellFormed completed key).symm
  | post client posting =>
      exact
        counted.of_update client rfl (fun _ => rfl) rfl (fun _ => rfl)
          rfl
  | return_ client posting =>
      exact
        counted.of_update client rfl (fun _ => rfl) rfl (fun _ => rfl)
          rfl
  | removeWaiter client cancelled free =>
      refine
        counted.of_same (fun _ => rfl) ?_
          (isSome_removeWaiterLocked _ _ _) rfl
      exact
        (Monitor.SameRing.of_replacedInflight
          (removeWaiterLocked_cache world.monitor.cache _ _)).cacheMap
  | _ =>
      exact counted

section Reachable

variable {capacity : UInt64} {slotCount : Nat}
variable {dispatchers : List DispatcherId}

theorem fetchesCounted_of_reachable
    (reachable :
      Reachable World.step (create capacity slotCount dispatchers)
        (LeadersCall Log.orderly) world) :
    world.FetchesCounted := by
  refine reachable.invariant ?_ ?_
  · intro key
    simp [create, leaderResults, Client.leads, History.losses, held,
      Monitor.create, RingBufferCache.create, Function.comp_def]
  · intro before action after reached counted stepped _
    exact
      counted.step (singleFlight_of_reachable reached)
        (wellFormed_of_reachable reached) (step_effect stepped)

/-- In every run in which leaders publish headers before data and nothing
after their end, a key has been fetched once for each of its responses that
was dropped or evicted, and once more if it is cached or in flight. -/
theorem fetchesAccounted
    (reachable :
      Reachable World.step (create capacity slotCount dispatchers)
        (LeadersCall Log.orderly) world)
    (key : Key) :
    world.leaderResults key =
      world.history.losses key +
        if (world.monitor.cache.cacheMap key).isSome ∨
            (world.monitor.cache.inflightMap key).isSome then
          1
        else
          0 := by
  rw [fetchesCounted_of_reachable reachable key, held]
  cases present : world.monitor.cache.inflightMap key with
  | none =>
      cases world.monitor.cache.cacheMap key <;> simp
  | some inflight =>
      have unmapped :=
        (wellFormed_of_reachable
          reachable).unmapped_of_inflight present
      simp [unmapped]

end Reachable

/-- The first response of `refetchedRun` is dropped, the second one is evicted
and the third one is in flight. -/
theorem fetchesAccounted_refetchedRun :
    ∃ world,
      checkedRun World.step
            (fun world action _ =>
              world.leaderCalls Log.orderly action)
            (create 2 1 [0, 1, 0, 1, 0]) refetchedRun =
          some world ∧
        world.history.losses [1] = 2 ∧
          world.history.count (.evicted [1]) = 1 ∧
            (world.monitor.cache.inflightMap [1]).isSome = true ∧
              world.leaderResults [1] =
                world.history.losses [1] +
                  if (world.monitor.cache.cacheMap [1]).isSome ∨
                      (world.monitor.cache.inflightMap [1]).isSome then
                    1
                  else
                    0 := by
  obtain ⟨world, ran, lost, evicted, present⟩ :
      ∃ world,
        checkedRun World.step
              (fun world action _ =>
                world.leaderCalls Log.orderly action)
              (create 2 1 [0, 1, 0, 1, 0]) refetchedRun =
            some world ∧
          world.history.losses [1] = 2 ∧
            world.history.count (.evicted [1]) = 1 ∧
              (world.monitor.cache.inflightMap [1]).isSome = true :=
    ⟨_, rfl, rfl, rfl, rfl⟩
  exact
    ⟨world, ran, lost, evicted, present,
      fetchesAccounted
        (Reachable.of_checkedRun (fun _ _ _ checked => checked)
          Reachable.start ran)
        [1]⟩

end World

end RingCache

import RingCache.Streams.SingleFlight

/-!
# An inflight response holds what its leader has published

`World.Spooled` relates the two members of an inflight response that a publish
changes to the publish calls of the one unfinished leader of the key.  It
needs `World.SingleFlight`: publishes are matched by key only, so a second
unfinished leader would write into the same response.
-/

namespace RingCache

open Transition RingBufferCache

namespace Log

@[simp]
theorem headers?_append (log : Log) (call : Publish) :
    Log.headers? (log ++ [call]) =
      (Log.headers? log).or call.headers? := by
  simp only [headers?, List.findSome?_append, List.findSome?_cons,
    List.findSome?_nil]
  cases call.headers? <;> rfl

@[simp]
theorem body_append (log : Log) (call : Publish) :
    Log.body (log ++ [call]) = Log.body log ++ call.bytes := by
  simp [body]

end Log

/-- A publish takes its headers and its bytes into the response. -/
theorem Inflight.receive_content
    {inflight : Inflight} {log : Log}
    (headersEq : inflight.headers = log.headers?)
    (bodyEq : inflight.body = log.body) (call : Publish) :
    (inflight.receive call).headers = Log.headers? (log ++ [call]) ∧
      (inflight.receive call).body = Log.body (log ++ [call]) := by
  rw [Log.headers?_append, Log.body_append, ← headersEq, ← bodyEq]
  cases call with
  | headers published ends =>
      refine ⟨?_, by simp [receive, Publish.bytes]⟩
      cases stored : inflight.headers <;>
        simp [receive, Publish.headers?, stored]
  | data chunk ends =>
      exact ⟨by simp [receive, Publish.headers?], rfl⟩

namespace World

variable {world next : World}

/-- Every inflight response holds exactly what its unfinished leader has
published, and leaders publish headers first. -/
structure Spooled (world : World) : Prop where
  headersFirst :
    ∀ {stream : StreamId} {leader : Leader},
      world.clients[stream]? = some (.leader leader) →
      leader.log.headers? = none → leader.log = []
  content :
    ∀ {stream : StreamId} {leader : Leader} {inflight : Inflight},
      world.clients[stream]? = some (.leader leader) →
      leader.unfinished = true →
      world.monitor.cache.inflightMap leader.key = some inflight →
        inflight.headers = leader.log.headers? ∧
          inflight.body = leader.log.body

theorem create_spooled
    (capacity : UInt64) (slotCount : Nat)
    (dispatchers : List DispatcherId) :
    (create capacity slotCount dispatchers).Spooled := by
  exact
    { headersFirst :=
        fun client => absurd client (create_client (by simp))
      content :=
        fun client => absurd client (create_client (by simp)) }

/-- A step that publishes nothing and makes no new leader. -/
theorem Spooled.of_same
    (spooled : world.Spooled)
    (leaders :
      ∀ (stream : StreamId) (leader : Leader),
        next.clients[stream]? = some (.leader leader) →
          ∃ earlier : Leader,
            world.clients[stream]? = some (.leader earlier) ∧
              earlier.key = leader.key ∧
                earlier.log = leader.log ∧
                  (leader.unfinished = true →
                    earlier.unfinished = true))
    (contents :
      ∀ key inflight,
        next.monitor.cache.inflightMap key = some inflight →
          ∃ earlier,
            world.monitor.cache.inflightMap key = some earlier ∧
              earlier.headers = inflight.headers ∧
                earlier.body = inflight.body) :
    next.Spooled := by
  refine { headersFirst := ?_, content := ?_ }
  · intro stream leader client noHeaders
    obtain ⟨earlier, found, _, sameLog, _⟩ := leaders stream leader client
    rw [← sameLog] at noHeaders ⊢
    exact spooled.headersFirst found noHeaders
  · intro stream leader inflight client unfinished present
    obtain ⟨earlier, found, sameKey, sameLog, wasUnfinished⟩ :=
      leaders stream leader client
    obtain ⟨before, beforePresent, sameHeaders, sameBody⟩ :=
      contents leader.key inflight present
    rw [← sameKey] at beforePresent
    rw [← sameLog, ← sameHeaders, ← sameBody]
    exact
      spooled.content found (wasUnfinished unfinished) beforePresent

/-- The leaders of `Spooled.of_same` when a stream that is not a leader is
replaced. -/
theorem same_leaders_of_other_update
    {stream : StreamId} {old new : Client}
    (client : world.clients[stream]? = some old)
    (oldOther : ∀ leader, old ≠ .leader leader)
    (newOther : ∀ leader, new ≠ .leader leader)
    (other : StreamId) (leader : Leader)
    (found :
      (world.clients.set stream new)[other]? = some (.leader leader)) :
    ∃ earlier : Leader,
      world.clients[other]? = some (.leader earlier) ∧
        earlier.key = leader.key ∧
          earlier.log = leader.log ∧
            (leader.unfinished = true → earlier.unfinished = true) :=
  ⟨leader,
    (leaders_update client oldOther newOther world.monitor other
      leader).mp found,
    rfl, rfl, id⟩

/-- The leaders of `Spooled.of_same` when a leader's call goes on. -/
theorem same_leaders_of_call_update
    {stream : StreamId} {old : Leader} {call : Call}
    (client : world.clients[stream]? = some (.leader old))
    (wasUnfinished :
      Leader.unfinished { old with call := call } = true →
        old.unfinished = true)
    (other : StreamId) (leader : Leader)
    (found :
      (world.clients.set stream
          (.leader { old with call := call }))[other]? =
        some (.leader leader)) :
    ∃ earlier : Leader,
      world.clients[other]? = some (.leader earlier) ∧
        earlier.key = leader.key ∧
          earlier.log = leader.log ∧
            (leader.unfinished = true → earlier.unfinished = true) := by
  rw [Table.getElem?_set_of_some client] at found
  by_cases same : other = stream
  · rw [if_pos same, Option.some.injEq, Client.leader.injEq] at found
    subst same found
    exact ⟨old, client, rfl, rfl, wasUnfinished⟩
  · rw [if_neg same] at found
    exact ⟨leader, found, rfl, rfl, id⟩

/-- An unfinished leader is the only one of its key. -/
theorem SingleFlight.unique
    (flight : world.SingleFlight)
    {stream other : StreamId} {leader found : Leader}
    (client : world.clients[stream]? = some (.leader leader))
    (unfinished : leader.unfinished = true)
    (otherClient : world.clients[other]? = some (.leader found))
    (otherUnfinished : found.unfinished = true)
    (sameKey : found.key = leader.key) :
    other = stream := by
  have last := (flight.owned otherClient otherUnfinished).2
  rw [sameKey, (flight.owned client unfinished).2] at last
  simpa using last.symm

/-- A publish by the unfinished leader. -/
theorem Spooled.publish
    (spooled : world.Spooled) (flight : world.SingleFlight)
    {stream : StreamId} {leader : Leader} {call : Publish}
    {inflight : Inflight} {nextCall : Call}
    (client : world.clients[stream]? = some (.leader leader))
    (present :
      world.monitor.cache.inflightMap leader.key = some inflight)
    (permitted : Log.orderly leader.log call = true)
    (clientsEq :
      next.clients =
        world.clients.set stream
          (.leader
            { leader with
              log := leader.log ++ [call], call := nextCall }))
    (inflightEq :
      next.monitor.cache.inflightMap =
        Function.update world.monitor.cache.inflightMap leader.key
          (some (inflight.receive call))) :
    next.Spooled := by
  have unfinished : leader.unfinished = true :=
    Leader.unfinished_of_not_ended (Log.not_ended_of_orderly permitted)
  obtain ⟨headersEq, bodyEq⟩ :=
    spooled.content client unfinished present
  refine { headersFirst := ?_, content := ?_ }
  · intro other found otherClient noHeaders
    rw [clientsEq, Table.getElem?_set_of_some client] at otherClient
    by_cases same : other = stream
    · rw [if_pos same, Option.some.injEq, Client.leader.injEq]
        at otherClient
      subst otherClient
      simp only [Log.headers?_append, Option.or_eq_none_iff]
        at noHeaders
      cases call with
      | headers published ends =>
          simp [Publish.headers?] at noHeaders
      | data chunk ends =>
          simp [Log.orderly, noHeaders.1] at permitted
    · rw [if_neg same] at otherClient
      exact spooled.headersFirst otherClient noHeaders
  · intro other found otherInflight otherClient otherUnfinished
      otherPresent
    rw [clientsEq, Table.getElem?_set_of_some client] at otherClient
    rw [inflightEq] at otherPresent
    by_cases same : other = stream
    · rw [if_pos same, Option.some.injEq, Client.leader.injEq]
        at otherClient
      subst otherClient
      rw [Function.update_self, Option.some.injEq] at otherPresent
      subst otherPresent
      exact Inflight.receive_content headersEq bodyEq call
    · rw [if_neg same] at otherClient
      have different : found.key ≠ leader.key := by
        intro sameKey
        exact
          same (flight.unique client unfinished otherClient
            otherUnfinished sameKey)
      rw [Function.update_of_ne different] at otherPresent
      exact spooled.content otherClient otherUnfinished otherPresent

/-- A new leader has published nothing and its inflight response is empty. -/
theorem Spooled.lookupLead
    (spooled : world.Spooled) (flight : world.SingleFlight)
    {stream : StreamId} {dispatcher : DispatcherId} {key : Key}
    (client : world.clients[stream]? = some (.start dispatcher))
    (missing : world.monitor.cache.inflightMap key = none) :
    Spooled
      { world.update stream
          (.leader { key := key, log := [], call := .idle })
          { cache :=
              world.monitor.cache.setInflight key (some {}) } with
        history := .led stream key :: world.history } := by
  refine { headersFirst := ?_, content := ?_ }
  · intro other found otherClient noHeaders
    change (world.clients.set stream _)[other]? = _ at otherClient
    rw [Table.getElem?_set_of_some client] at otherClient
    by_cases same : other = stream
    · rw [if_pos same, Option.some.injEq, Client.leader.injEq]
        at otherClient
      subst otherClient
      rfl
    · rw [if_neg same] at otherClient
      exact spooled.headersFirst otherClient noHeaders
  · intro other found inflight otherClient unfinished present
    change (world.clients.set stream _)[other]? = _ at otherClient
    change
      Function.update world.monitor.cache.inflightMap key (some {})
          found.key = _ at present
    rw [Table.getElem?_set_of_some client] at otherClient
    by_cases same : other = stream
    · rw [if_pos same, Option.some.injEq, Client.leader.injEq]
        at otherClient
      subst otherClient
      rw [Function.update_self, Option.some.injEq] at present
      subst present
      exact ⟨rfl, rfl⟩
    · rw [if_neg same] at otherClient
      have different : found.key ≠ key := by
        intro sameKey
        obtain ⟨⟨before, beforePresent⟩, _⟩ :=
          flight.owned otherClient unfinished
        rw [sameKey, missing] at beforePresent
        simp at beforePresent
      rw [Function.update_of_ne different] at present
      exact spooled.content otherClient unfinished present

/-- Replacing the waiters of an inflight response keeps its content. -/
theorem same_contents_setInflight
    {cache : RingBufferCache} {key : Key} {inflight : Inflight}
    (present : cache.inflightMap key = some inflight)
    (waiters : List Waiter) (other : Key) (found : Inflight)
    (read :
      (cache.setInflight key
          (some { inflight with waiters := waiters })).inflightMap
          other =
        some found) :
    ∃ earlier,
      cache.inflightMap other = some earlier ∧
        earlier.headers = found.headers ∧ earlier.body = found.body := by
  by_cases same : other = key
  · subst same
    simp only [setInflight, Function.update_self, Option.some.injEq]
      at read
    subst read
    exact ⟨inflight, present, rfl, rfl⟩
  · simp only [setInflight, Function.update_of_ne same] at read
    exact ⟨found, read, rfl, rfl⟩

theorem same_contents_removeWaiterLocked
    (cache : RingBufferCache) (key : Key) (waiterAddr : Nat)
    (other : Key) (found : Inflight)
    (read :
      (cache.removeWaiterLocked key waiterAddr).inflightMap other =
        some found) :
    ∃ earlier,
      cache.inflightMap other = some earlier ∧
        earlier.headers = found.headers ∧ earlier.body = found.body := by
  rcases removeWaiterLocked_eq cache key waiterAddr with
    same | ⟨inflight, position, present, _, replaced⟩
  · rw [same] at read
    exact ⟨found, read, rfl, rfl⟩
  · rw [replaced] at read
    exact same_contents_setInflight present _ other found read

/-- Every step in which leaders publish in order keeps the spool. -/
theorem Spooled.step
    (spooled : world.Spooled) (flight : world.SingleFlight)
    {action : Action} (effect : Effect world action next)
    (orderly : world.leaderCalls Log.orderly action = true) :
    next.Spooled := by
  have sameContents :
      ∀ key inflight,
        world.monitor.cache.inflightMap key = some inflight →
          ∃ earlier,
            world.monitor.cache.inflightMap key = some earlier ∧
              earlier.headers = inflight.headers ∧
                earlier.body = inflight.body :=
    fun _ inflight present => ⟨inflight, present, rfl, rfl⟩
  have sameLeaders :
      ∀ (stream : StreamId) (leader : Leader),
        world.clients[stream]? = some (.leader leader) →
          ∃ earlier : Leader,
            world.clients[stream]? = some (.leader earlier) ∧
              earlier.key = leader.key ∧
                earlier.log = leader.log ∧
                  (leader.unfinished = true →
                    earlier.unfinished = true) :=
    fun _ leader client => ⟨leader, client, rfl, rfl, id⟩
  cases effect with
  | lookupHit client free mapped read =>
      exact
        spooled.of_same
          (same_leaders_of_other_update client (by simp) (by simp))
          sameContents
  | lookupLead client free unmapped missing =>
      exact spooled.lookupLead flight client missing
  | lookupFollow client free unmapped present headersFirst =>
      exact
        spooled.of_same
          (same_leaders_of_other_update client (by simp) (by simp))
          (same_contents_setInflight present _)
  | copyHeaders client stage read =>
      exact
        spooled.of_same
          (same_leaders_of_other_update client (by simp) (by simp))
          sameContents
  | handOutEmpty client stage empty read =>
      exact
        spooled.of_same
          (same_leaders_of_other_update client (by simp) (by simp))
          sameContents
  | handOutBody client stage nonempty =>
      exact
        spooled.of_same
          (same_leaders_of_other_update client (by simp) (by simp))
          sameContents
  | release client stage read =>
      exact
        spooled.of_same
          (same_leaders_of_other_update client (by simp) (by simp))
          sameContents
  | publishLost client idle free missing =>
      exact
        absurd missing
          (flight.publish_finds client
            (permits_of_leaderCalls client orderly))
  | publishOpen client idle free present stays =>
      exact
        spooled.publish flight client present
          (permits_of_leaderCalls client orderly) rfl rfl
  | publishEnd client idle free present ends stored =>
      exact
        spooled.publish flight client present
          (permits_of_leaderCalls client orderly) rfl rfl
  | scan client finalizing running iterated =>
      refine spooled.of_same sameLeaders ?_
      have inflightSame := (scanIteration_frame iterated).2.2.1
      simp only [inflightSame]
      exact sameContents
  | finish client finalizing running atReturn completed =>
      refine
        spooled.of_same
          (same_leaders_of_call_update client
            (by simp [Leader.unfinished, finalizing])) ?_
      intro key inflight present
      have read :=
        (completeFinalize_inflightMap completed key).symm.trans present
      split at read
      · simp at read
      · exact sameContents key inflight read
  | post client posting =>
      exact
        spooled.of_same
          (same_leaders_of_call_update client
            (by simp [Leader.unfinished, posting]))
          sameContents
  | return_ client posting =>
      exact
        spooled.of_same
          (same_leaders_of_call_update client
            (by simp [Leader.unfinished, posting]))
          sameContents
  | runCancelled queued cancelled =>
      exact spooled.of_same sameLeaders sameContents
  | run queued live =>
      exact spooled.of_same sameLeaders sameContents
  | cancel client =>
      exact spooled.of_same sameLeaders sameContents
  | removeWaiter client cancelled free =>
      exact
        spooled.of_same sameLeaders
          (same_contents_removeWaiterLocked world.monitor.cache _ _)

/-! ## Reachable states -/

section Reachable

variable {capacity : UInt64} {slotCount : Nat}
variable {dispatchers : List DispatcherId}

theorem singleFlight_of_reachable
    (reachable :
      Reachable step (create capacity slotCount dispatchers)
        (LeadersCall Log.orderly) world) :
    world.SingleFlight := by
  refine
    reachable.invariant
      (create_singleFlight capacity slotCount dispatchers) ?_
  intro before action after _ flight stepped orderly
  exact flight.step (step_effect stepped) orderly

theorem spooled_of_reachable
    (reachable :
      Reachable step (create capacity slotCount dispatchers)
        (LeadersCall Log.orderly) world) :
    world.Spooled := by
  refine
    reachable.invariant (create_spooled capacity slotCount dispatchers) ?_
  intro before action after reached spooled stepped orderly
  have flight := singleFlight_of_reachable reached
  exact spooled.step flight (step_effect stepped) orderly

end Reachable

end World

end RingCache

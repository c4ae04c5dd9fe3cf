import RingCache.Streams.Refinement

/-!
# Fresh responses

A stream gets the response of one leader of its key: its own, that of the
leader it follows, or that of the leader whose response it hits.  The abstract
cache serves a stream only what was in flight or kept when the stream was still
idle, or what was fetched after that, and so does the system: a response that
has been evicted, or dropped at its end, is not served to any stream that looks
its key up later.
-/

namespace RingCache

open Transition RingBufferCache

/-- The key a stream has looked up and the leader whose response it gets. -/
def Client.source (stream : StreamId) : Client → Option (Key × StreamId)
  | .start _ => none
  | .hit lookup => lookup.source.map fun source => (lookup.key, source)
  | .leader state => some (state.key, stream)
  | .follower state => state.leader.map fun owner => (state.key, owner)

theorem Client.role_source (stream : StreamId) (client : Client) :
    client.role.source stream = client.source stream := by
  cases client with
  | start =>
      rfl
  | hit lookup =>
      simp only [Client.role, Client.source]
      cases lookup.source <;> rfl
  | leader =>
      rfl
  | follower state =>
      simp only [Client.role, Client.source]
      cases state.leader <;> rfl

namespace World

variable {world next : World} {action : Action}
variable {state : Coalescing.State Key StreamId Publish}

theorem Effect.length_clients (effect : Effect world action next) :
    next.clients.length = world.clients.length := by
  cases effect <;> simp [update]

/-- Streams that the abstract state shows idle have not looked up
anything. -/
theorem Holds.start_of_idle
    (holds : world.Holds state) (names : world.Names state)
    {stream : StreamId} {client : Client}
    (found : world.clients[stream]? = some client)
    (idle : state.role stream = .idle) :
    ∃ dispatcher, client = .start dispatcher := by
  cases client with
  | start dispatcher =>
      exact ⟨dispatcher, rfl⟩
  | hit lookup =>
      obtain ⟨source, role, _⟩ := holds.hits found
      rw [idle] at role
      simp at role
  | leader leader =>
      rw [names.role found] at idle
      simp [Client.role] at idle
  | follower follower =>
      obtain ⟨source, role, _⟩ := holds.followers found
      rw [idle] at role
      simp at role

section Reachable

variable {capacity : UInt64} {slotCount : Nat}
variable {dispatchers : List DispatcherId}

theorem length_clients_of_reachable
    {allowed : World → Action → World → Prop}
    (reachable : Reachable step world allowed next) :
    next.clients.length = world.clients.length := by
  refine
    @Reachable.invariant _ _ _ _ _ _
      (fun later => later.clients.length = world.clients.length)
      rfl ?_ _ reachable
  intro before action after _ same stepped _
  exact (step_effect stepped).length_clients.trans same

/-- A stream gets the response of a leader of its key. -/
theorem leads_of_source
    (reachable :
      Reachable step (create capacity slotCount dispatchers)
        (LeadersCall Log.contract) world)
    {stream source : StreamId} {client : Client} {key : Key}
    (found : world.clients[stream]? = some client)
    (served : client.source stream = some (key, source)) :
    ∃ leader, world.clients[source]? = some (.leader leader) := by
  have orderly := orderly_of_contract reachable
  cases client with
  | start =>
      simp [Client.source] at served
  | hit lookup =>
      obtain ⟨named, snapshot, sourceEq, _, ⟨leader, leaderClient, _⟩,
        _⟩ := (stored_of_reachable orderly).served found
      simp only [Client.source, sourceEq, Option.map_some,
        Option.some.injEq, Prod.mk.injEq] at served
      exact ⟨leader, served.2 ▸ leaderClient⟩
  | leader leader =>
      simp only [Client.source, Option.some.injEq, Prod.mk.injEq]
        at served
      exact ⟨leader, served.2 ▸ found⟩
  | follower follower =>
      obtain ⟨owner, leader, joined, ownerClient, _⟩ :=
        (routed_of_reachable orderly).joinedLeader found
      simp only [Client.source, joined, Option.map_some,
        Option.some.injEq, Prod.mk.injEq] at served
      exact ⟨leader, served.2 ▸ ownerClient⟩

/-- What a stream gets that has not looked its key up at some moment of a run
is the response of a leader of that key which is in flight or cached at that
moment, or whose leader has not begun either. -/
theorem neverServedStale
    (reachable :
      Reachable step (create capacity slotCount dispatchers)
        (LeadersCall Log.contract) world)
    (continued :
      Reachable step world (LeadersCall Log.contract) next)
    {stream source : StreamId} {dispatcher : DispatcherId}
    {client : Client} {key : Key}
    (waiting : world.clients[stream]? = some (.start dispatcher))
    (found : next.clients[stream]? = some client)
    (served : client.source stream = some (key, source)) :
    (∃ leader,
        next.clients[source]? = some (.leader leader) ∧
          leader.key = key) ∧
      (world.fetching key = some source ∨
        world.kept key = some source ∨
          ∃ other, world.clients[source]? = some (.start other)) := by
  obtain ⟨state, reached, represents⟩ :=
    represents_of_reachable Reachable.start
      (create_represents capacity slotCount dispatchers) reachable
  obtain ⟨later, moved, laterRepresents⟩ :=
    represents_of_reachable reachable represents continued
  obtain ⟨leader, leads⟩ :=
    leads_of_source (reachable.trans continued) found served
  have idle : state.role stream = .idle :=
    represents.names.role waiting
  have laterServed :
      (later.role stream).source stream = some (key, source) := by
    rw [laterRepresents.names.role found, Client.role_source]
    exact served
  constructor
  · have laterReached : Coalescing.Reached Log.ended later :=
      Relation.ReflTransGen.trans reached moved
    have role := laterReached.wellFormed.source_leads laterServed
    rw [laterRepresents.names.role leads] at role
    refine ⟨leader, leads, ?_⟩
    simpa [Client.role] using role
  · rcases (Coalescing.since_of_steps moved).served idle laterServed with
      fetched | keeps | sourceIdle
    · rw [represents.names.fetching key] at fetched
      exact Or.inl fetched
    · rw [represents.names.kept key] at keeps
      exact Or.inr (Or.inl keeps)
    · have within : source < world.clients.length := by
        rw [← length_clients_of_reachable continued]
        exact (List.getElem?_eq_some_iff.mp leads).1
      have present := List.getElem?_eq_getElem within
      obtain ⟨other, isStart⟩ :=
        (holds_of_reachable reachable represents).start_of_idle
          represents.names present sourceIdle
      rw [isStart] at present
      exact Or.inr (Or.inr ⟨other, present⟩)

end Reachable

/-- The hit of `servedRun` looks the key up after `coalescedRun`, when the
response of the leader is cached. -/
theorem neverServedStale_servedRun :
    ∃ world next client,
      checkedRun step
            (fun world action _ =>
              world.leaderCalls Log.contract action)
            (create 9 1 [0, 1, 0, 1]) coalescedRun =
          some world ∧
        checkedRun step
              (fun world action _ =>
                world.leaderCalls Log.contract action)
              world servedRun =
            some next ∧
          world.clients[3]? = some (.start 1) ∧
            next.clients[3]? = some client ∧
              client.source 3 = some ([1], 0) ∧
                world.kept [1] = some 0 ∧
                  (∃ leader,
                      next.clients[0]? = some (.leader leader) ∧
                        leader.key = [1]) ∧
                    (world.fetching [1] = some 0 ∨
                      world.kept [1] = some 0 ∨
                        ∃ other,
                          world.clients[0]? =
                            some (.start other)) := by
  obtain ⟨world, next, client, ran, continued, waiting, found, served,
      keeps⟩ :
      ∃ world next client,
        checkedRun step
              (fun world action _ =>
                world.leaderCalls Log.contract action)
              (create 9 1 [0, 1, 0, 1]) coalescedRun =
            some world ∧
          checkedRun step
                (fun world action _ =>
                  world.leaderCalls Log.contract action)
                world servedRun =
              some next ∧
            world.clients[3]? = some (.start 1) ∧
              next.clients[3]? = some client ∧
                client.source 3 = some ([1], 0) ∧
                  world.kept [1] = some 0 :=
    ⟨_, _, _, rfl, rfl, rfl, rfl, rfl, rfl⟩
  exact
    ⟨world, next, client, ran, continued, waiting, found, served, keeps,
      neverServedStale
        (Reachable.of_checkedRun (fun _ _ _ checked => checked)
          Reachable.start ran)
        (Reachable.of_checkedRun (fun _ _ _ checked => checked)
          Reachable.start continued)
        waiting found served⟩

end World

end RingCache

import RingCache.Filter.Steps

/-!
# Filters and clients of the cache

The members of a filter say what its stream is to the cache: its role, its key
and its waiter, and for a leader how much of its response it has published.
Since the host encodes one response through the filter of a leader, in order,
the publish calls of a leader keep the call contract.
-/

namespace RingCache

open Transition RingBufferCache

/-- What a leader has published when this much of its response has passed
through its filter. -/
def ResponseStage.Logs : ResponseStage → Log → Prop
  | .notStarted, log => log = []
  | .started, log => log.headers?.isSome = true ∧ log.ended = false
  | .complete false, log => log.ended = true
  | .complete true, log =>
      log.headers?.isSome = true ∧ log.ended = false

/-- A response never goes back to its beginning. -/
theorem ResponseStage.next_ne_notStarted
    (stage : ResponseStage) (part : ResponsePart) :
    (stage.next part).getD .started ≠ .notStarted := by
  unfold ResponseStage.next
  split <;> simp
  · split <;> simp
  · split <;> simp

/-- The next part of a response is a permitted publish. -/
theorem ResponseStage.Logs.contract
    {stage after : ResponseStage} {log : Log} {part : ResponsePart}
    {call : Publish}
    (logs : stage.Logs log) (ordered : stage.next part = some after)
    (calls : part.publish = some call) :
    log.contract call = true := by
  cases part with
  | headers published ends =>
      cases calls
      cases stage with
      | notStarted =>
          have empty : log = [] := logs
          rw [empty]
          rfl
      | started =>
          simp [ResponseStage.next] at ordered
      | complete trailers =>
          simp [ResponseStage.next] at ordered
  | data chunk ends =>
      cases calls
      cases stage with
      | notStarted =>
          simp [ResponseStage.next] at ordered
      | started =>
          obtain ⟨hasHeaders, notEnded⟩ := logs
          simp [Log.contract, hasHeaders, notEnded]
      | complete trailers =>
          simp [ResponseStage.next] at ordered
  | trailers =>
      simp [ResponsePart.publish] at calls

/-- What has been published after the next part. -/
theorem ResponseStage.Logs.append
    {stage after : ResponseStage} {log : Log} {part : ResponsePart}
    {call : Publish}
    (logs : stage.Logs log) (ordered : stage.next part = some after)
    (calls : part.publish = some call) :
    after.Logs (log ++ [call]) := by
  cases part with
  | headers published ends =>
      cases calls
      cases stage with
      | notStarted =>
          have empty : log = [] := logs
          subst empty
          cases ends with
          | false =>
              have same : .started = after := by
                simpa [ResponseStage.next] using ordered
              subst same
              exact ⟨rfl, rfl⟩
          | true =>
              have same : .complete false = after := by
                simpa [ResponseStage.next] using ordered
              subst same
              rfl
      | started =>
          simp [ResponseStage.next] at ordered
      | complete trailers =>
          simp [ResponseStage.next] at ordered
  | data chunk ends =>
      cases calls
      cases stage with
      | notStarted =>
          simp [ResponseStage.next] at ordered
      | started =>
          obtain ⟨hasHeaders, notEnded⟩ := logs
          cases ends with
          | false =>
              have same : .started = after := by
                simpa [ResponseStage.next] using ordered
              subst same
              refine ⟨?_, ?_⟩
              · simp [hasHeaders]
              · simp [notEnded, Publish.endStream]
          | true =>
              have same : .complete false = after := by
                simpa [ResponseStage.next] using ordered
              subst same
              change Log.ended _ = true
              simp [Publish.endStream]
      | complete trailers =>
          simp [ResponseStage.next] at ordered
  | trailers =>
      simp [ResponsePart.publish] at calls

theorem ResponsePart.publish_endStream
    {part : ResponsePart} {call : Publish}
    (calls : part.publish = some call) :
    call.endStream = part.endStream := by
  cases part with
  | headers published ends =>
      cases calls
      rfl
  | data chunk ends =>
      cases calls
      rfl
  | trailers =>
      simp [ResponsePart.publish] at calls

namespace RingCacheFilter

variable (filter : RingCacheFilter) (endStream : Bool)

@[simp]
theorem markDone_role : (filter.markDone endStream).role = filter.role := by
  cases endStream <;> rfl

@[simp]
theorem markDone_key : (filter.markDone endStream).key = filter.key := by
  cases endStream <;> rfl

@[simp]
theorem markDone_waiter :
    (filter.markDone endStream).waiter = filter.waiter := by
  cases endStream <;> rfl

@[simp]
theorem markDone_done :
    (filter.markDone endStream).done = (filter.done || endStream) := by
  cases endStream <;> simp [markDone]

variable {filter}

/-- `buildKey` changes the key only, and nothing when it fails. -/
theorem buildKey_eq
    {host path : Bytes} {builds : Bool} {built : RingCacheFilter}
    (build : filter.buildKey host path = (builds, built)) :
    (builds = false → built = filter) ∧
      built.role = filter.role ∧
        built.done = filter.done ∧ built.waiter = filter.waiter := by
  unfold buildKey at build
  split at build
  · cases build
    exact ⟨fun _ => rfl, rfl, rfl, rfl⟩
  · cases build
    exact ⟨fun impossible => by simp at impossible, rfl, rfl, rfl⟩

end RingCacheFilter

/-- The filter of a stream agrees with its client. -/
def Stream.Fits (stream : Stream) : Client → Prop
  | .start _ =>
      stream.filter.role = .unset ∧
        (stream.response = .notStarted → stream.filter.done = false)
  | .hit lookup =>
      (stream.filter.role = .unset ∨ stream.filter.role = .cached) ∧
        stream.filter.key = lookup.key
  | .leader leader =>
      stream.filter.role = .leader ∧
        stream.filter.key = leader.key ∧
          stream.response.Logs leader.log ∧
            stream.filter.done = leader.log.ended
  | .follower follower =>
      stream.filter.role = .follower ∧
        stream.filter.key = follower.key ∧
          stream.filter.waiter = some follower.waiter

/-- A change of what neither the filter nor the response is about. -/
theorem Stream.Fits.congr
    {stream other : Stream} {client : Client}
    (fits : stream.Fits client)
    (sameFilter : other.filter = stream.filter)
    (sameResponse : other.response = stream.response) :
    other.Fits client := by
  unfold Stream.Fits at fits ⊢
  rw [sameFilter, sameResponse]
  exact fits

/-- A step inside a call leaves the filter in agreement with its client. -/
theorem Stream.Fits.move
    {stream : Stream} {client moved : Client} {move : World.Move}
    (fits : stream.Fits client) (moves : client.Moved move moved)
    (notLookup : ∀ key, move ≠ .lookup key)
    (notPublish : ∀ call, move ≠ .publish call) :
    stream.Fits moved := by
  cases moves with
  | hit sameKey pinned =>
      exact absurd rfl (notLookup _)
  | led =>
      exact absurd rfl (notLookup _)
  | followed sameKey =>
      exact absurd rfl (notLookup _)
  | hitWent _ _ =>
      exact fits
  | published busy =>
      exact absurd rfl (notPublish _)
  | leaderWent _ _ _ =>
      exact fits
  | followerWent _ =>
      exact fits

namespace System

variable {system next : System}

/-- Every stream has a client and its filter agrees with it. -/
def Matched (system : System) : Prop :=
  ∀ id : StreamId,
    Option.Rel Stream.Fits system.streams[id]? system.world.clients[id]?

theorem Matched.client
    (matched : system.Matched) {id : StreamId} {stream : Stream}
    (found : system.streams[id]? = some stream) :
    ∃ client,
      system.world.clients[id]? = some client ∧ stream.Fits client := by
  have related := matched id
  rw [found] at related
  cases client : system.world.clients[id]? with
  | none =>
      rw [client] at related
      cases related
  | some present =>
      rw [client] at related
      cases related with
      | some fits =>
          exact ⟨present, rfl, fits⟩

theorem Matched.stream
    (matched : system.Matched) {id : StreamId} {client : Client}
    (found : system.world.clients[id]? = some client) :
    ∃ stream,
      system.streams[id]? = some stream ∧ stream.Fits client := by
  have related := matched id
  rw [found] at related
  cases stream : system.streams[id]? with
  | none =>
      rw [stream] at related
      cases related
  | some present =>
      rw [stream] at related
      cases related with
      | some fits =>
          exact ⟨present, rfl, fits⟩

/-- A filter with the role of a leader is a leader to the cache. -/
theorem Matched.leader
    (matched : system.Matched) {id : StreamId} {stream : Stream}
    (found : system.streams[id]? = some stream)
    (leads : stream.filter.role = .leader) :
    ∃ leader : Leader,
      system.world.clients[id]? = some (.leader leader) ∧
        stream.filter.key = leader.key ∧
          stream.response.Logs leader.log ∧
            stream.filter.done = leader.log.ended := by
  obtain ⟨client, present, fits⟩ := matched.client found
  cases client with
  | start dispatcher =>
      simp [Stream.Fits, leads] at fits
  | hit lookup =>
      simp [Stream.Fits, leads] at fits
  | leader leader =>
      exact ⟨leader, present, fits.2⟩
  | follower follower =>
      simp [Stream.Fits, leads] at fits

theorem create_matched
    (capacity : UInt64) (slotCount : Nat) (requests : List Request) :
    (create capacity slotCount requests).Matched := by
  intro id
  simp only [create, World.create, List.getElem?_map]
  cases requests[id]? with
  | none =>
      exact Option.Rel.none
  | some request =>
      exact Option.Rel.some ⟨rfl, fun _ => rfl⟩

/-- The client of a stream after its lookup. -/
theorem Matched.lookup
    (matched : system.Matched)
    {id : StreamId} {stream : Stream} {key : Key} {world : World}
    (found : system.streams[id]? = some stream)
    (looked : system.world.step (.move id (.lookup key)) = .ok world) :
    ∃ client,
      (∀ other : StreamId,
        world.clients[other]? =
          if other = id then some client
          else system.world.clients[other]?) ∧
        stream.filter.role = .unset ∧
          (stream.response = .notStarted →
            stream.filter.done = false) ∧
            ((∃ lookup, client = .hit lookup ∧ lookup.key = key) ∨
              client = .leader { key := key, log := [], call := .idle } ∨
                ∃ follower : Follower,
                  client = .follower follower ∧ follower.key = key) := by
  obtain ⟨old, present, fits⟩ := matched.client found
  obtain ⟨before, client, beforePresent, clients, moved⟩ :=
    World.move_clients looked
  rw [present, Option.some.injEq] at beforePresent
  subst beforePresent
  refine ⟨client, clients, ?_⟩
  cases moved with
  | hit sameKey pinned =>
      exact ⟨fits.1, fits.2, Or.inl ⟨_, rfl, sameKey⟩⟩
  | led =>
      exact ⟨fits.1, fits.2, Or.inr (Or.inl rfl)⟩
  | followed sameKey =>
      exact ⟨fits.1, fits.2, Or.inr (Or.inr ⟨_, rfl, sameKey⟩)⟩
  | hitWent notLookup _ =>
      exact absurd rfl (notLookup key)
  | leaderWent _ notLookup _ =>
      exact absurd rfl (notLookup key)
  | followerWent notLookup =>
      exact absurd rfl (notLookup key)

theorem not_lookup_of_proceeds
    {stream : Stream} {move : World.Move}
    (permitted : proceeds stream move = true) (key : Key) :
    move ≠ .lookup key := by
  intro same
  subst same
  simp [proceeds] at permitted

theorem not_publish_of_proceeds
    {stream : Stream} {move : World.Move}
    (permitted : proceeds stream move = true) (call : Publish) :
    move ≠ .publish call := by
  intro same
  subst same
  simp [proceeds] at permitted

/-- What a callback leaves in the filter agrees with what it leaves in the
cache. -/
theorem CallbackEffect.fits
    {id : StreamId} {stream after : Stream} {callback : Callback}
    {world : World}
    (effect : CallbackEffect system id stream callback after world)
    (matched : system.Matched)
    (found : system.streams[id]? = some stream) :
    ∃ client,
      (∀ other : StreamId,
        world.clients[other]? =
          if other = id then some client
          else system.world.clients[other]?) ∧
        after.Fits client := by
  obtain ⟨present, presentEq, fits⟩ := matched.client found
  have unchanged := Table.getElem?_eq_ite_of_some presentEq
  cases effect with
  | unkeyed callable awaiting built =>
      have sameFilter :=
        (RingCacheFilter.buildKey_eq built).1 rfl
      exact ⟨present, unchanged, fits.congr sameFilter rfl⟩
  | hit callable awaiting built looked client =>
      obtain ⟨_, sameRole, _, _⟩ := RingCacheFilter.buildKey_eq built
      obtain ⟨new, clients, unset, _, result⟩ :=
        matched.lookup found looked
      rw [clients, if_pos rfl, Option.some.injEq] at client
      refine ⟨new, clients, ?_⟩
      rcases result with ⟨other, isHit, sameKey⟩ | isNew | ⟨_, follows, _⟩
      · rw [isHit]
        exact ⟨Or.inl (sameRole.trans unset), sameKey.symm⟩
      · simp [client] at isNew
      · simp [client] at follows
  | lead callable awaiting fresh built looked client =>
      obtain ⟨_, _, sameDone, _⟩ := RingCacheFilter.buildKey_eq built
      obtain ⟨new, clients, _, open_, result⟩ :=
        matched.lookup found looked
      rw [clients, if_pos rfl, Option.some.injEq] at client
      refine ⟨new, clients, ?_⟩
      rcases result with ⟨hit, isHit, _⟩ | isNew | ⟨follower, follows, _⟩
      · simp [client] at isHit
      · rw [isNew]
        exact ⟨rfl, rfl, fresh ▸ rfl, sameDone.trans (open_ fresh)⟩
      · simp [client] at follows
  | follow callable awaiting fresh built looked client =>
      obtain ⟨new, clients, _, _, result⟩ :=
        matched.lookup found looked
      rw [clients, if_pos rfl, Option.some.injEq] at client
      refine ⟨new, clients, ?_⟩
      rcases result with ⟨hit, isHit, _⟩ | isNew | ⟨other, follows, sameKey⟩
      · simp [client] at isHit
      · simp [client] at isNew
      · rw [client] at follows ⊢
        cases follows
        exact ⟨rfl, sameKey.symm, rfl⟩
  | serve deciding client stage read =>
      rw [presentEq, Option.some.injEq] at client
      subst client
      exact ⟨_, unchanged, Or.inr rfl, fits.2⟩
  | decodeData callable receiving =>
      exact ⟨present, unchanged, fits.congr rfl rfl⟩
  | decodeTrailers callable receiving =>
      exact ⟨present, unchanged, fits.congr rfl rfl⟩
  | @pass _ part callable origin ordered =>
      refine ⟨present, unchanged, ?_⟩
      cases present with
      | start dispatcher =>
          refine ⟨by simpa using fits.1, ?_⟩
          intro restarted
          exact absurd restarted (ResponseStage.next_ne_notStarted _ _)
      | hit lookup =>
          simpa [Stream.Fits] using fits
      | leader leader =>
          obtain ⟨leads, sameKey, logs, sameDone⟩ := fits
          obtain ⟨rfl, started⟩ := ordered leads
          have closes :
              (stream.response.next .trailers).getD .started =
                .complete true := by
            rw [started]
            rfl
          rw [started] at logs
          refine ⟨leads, sameKey, ?_, sameDone⟩
          change ResponseStage.Logs (Option.getD _ _) leader.log
          rw [closes]
          exact logs
      | follower follower =>
          simpa [Stream.Fits] using fits
  | publish callable origin leads ordered calls stepped =>
      obtain ⟨before, new, beforeEq, clients, moved⟩ :=
        World.move_clients stepped
      rw [presentEq, Option.some.injEq] at beforeEq
      subst beforeEq
      refine ⟨new, clients, ?_⟩
      cases moved with
      | published busy =>
          obtain ⟨_, sameKey, logs, sameDone⟩ := fits
          refine
            ⟨by simpa using leads, by simpa using sameKey,
              logs.append ordered calls, ?_⟩
          simp [sameDone, ResponsePart.publish_endStream calls]
      | hitWent notLookup _ =>
          rcases fits.1 with unset | cached
          · simp [leads] at unset
          · simp [leads] at cached
      | leaderWent _ _ notPublish =>
          exact absurd rfl (notPublish _)
      | followerWent notLookup =>
          have follows := fits.1
          simp [leads] at follows
  | cancel callable follows notDone stepped =>
      obtain ⟨before, new, beforeEq, clients, moved⟩ :=
        World.move_clients stepped
      rw [presentEq, Option.some.injEq] at beforeEq
      subst beforeEq
      have keeps := fits.move moved (by simp) (by simp)
      exact ⟨new, clients, keeps.congr rfl rfl⟩
  | destroy callable keeps =>
      exact ⟨present, unchanged, fits.congr rfl rfl⟩
  | proceed permitted stepped =>
      obtain ⟨before, new, beforeEq, clients, moved⟩ :=
        World.move_clients stepped
      rw [presentEq, Option.some.injEq] at beforeEq
      subst beforeEq
      have keeps :=
        fits.move moved (not_lookup_of_proceeds permitted)
          (not_publish_of_proceeds permitted)
      exact ⟨new, clients, keeps.congr rfl rfl⟩

theorem Matched.step
    {action : Action} (matched : system.Matched)
    (effect : Effect system action next) :
    next.Matched := by
  cases effect with
  | @callback id stream after _ world found effect =>
      obtain ⟨client, clients, fits⟩ := effect.fits matched found
      intro other
      simp only [System.update, clients]
      rw [Table.getElem?_set_of_some found]
      by_cases same : other = id
      · rw [if_pos same, if_pos same]
        exact Option.Rel.some fits
      · rw [if_neg same, if_neg same]
        exact matched other
  | run stepped =>
      intro other
      simp only [(World.run_frame stepped).1]
      exact matched other

/-! ## The cache under its filters -/

/-- Every callback and every run of a closure is no step or one step of the
cache and its clients, and leaders keep their call contract. -/
theorem Effect.world_step
    {action : Action} (matched : system.Matched)
    (effect : Effect system action next) :
    next.world = system.world ∨
      ∃ lower,
        system.world.step lower = .ok next.world ∧
          World.LeadersCall Log.contract system.world lower
            next.world := by
  cases effect with
  | callback found effect =>
      cases effect with
      | hit callable awaiting built looked client =>
          exact Or.inr ⟨_, looked, rfl⟩
      | lead callable awaiting fresh built looked client =>
          exact Or.inr ⟨_, looked, rfl⟩
      | follow callable awaiting fresh built looked client =>
          exact Or.inr ⟨_, looked, rfl⟩
      | publish callable origin leads ordered calls stepped =>
          refine Or.inr ⟨_, stepped, ?_⟩
          obtain ⟨client, present, fits⟩ := matched.client found
          unfold World.LeadersCall World.leaderCalls
          simp only [present]
          cases client with
          | leader leader =>
              obtain ⟨_, _, logs, _⟩ := fits
              exact logs.contract ordered calls
          | _ =>
              rfl
      | cancel callable follows notDone stepped =>
          exact Or.inr ⟨_, stepped, rfl⟩
      | @proceed move _ permitted stepped =>
          refine Or.inr ⟨_, stepped, ?_⟩
          unfold World.LeadersCall World.leaderCalls
          split
          · next id call moveEq =>
              cases moveEq
              exact
                absurd rfl (not_publish_of_proceeds permitted _)
          · rfl
      | _ =>
          exact Or.inl rfl
  | run stepped =>
      exact Or.inr ⟨_, stepped, rfl⟩

section Reachable

variable {capacity : UInt64} {slotCount : Nat}
variable {requests : List Request}
variable {allowed : System → Action → System → Prop}

theorem matched_of_reachable
    (reachable :
      Reachable step (create capacity slotCount requests) allowed
        system) :
    system.Matched := by
  refine
    invariant_of_effects (create_matched capacity slotCount requests)
      (fun matched => matched) ?_ reachable
  intro before after action _ matched effect
  exact matched.step effect

/-- Every run of the host is a run of the cache and its clients in which
leaders keep their call contract. -/
theorem world_reachable
    (reachable :
      Reachable step (create capacity slotCount requests) allowed
        system) :
    Reachable World.step
      (World.create capacity slotCount
        (requests.map Request.dispatcher))
      (World.LeadersCall Log.contract) system.world := by
  refine
    @invariant_of_effects _ _ _
      (fun later =>
        Reachable World.step
          (World.create capacity slotCount
            (requests.map Request.dispatcher))
          (World.LeadersCall Log.contract) later.world)
      Reachable.start (fun lower => lower) ?_ reachable
  intro before after action reached lower effect
  rcases effect.world_step (matched_of_reachable reached) with
    unchanged | ⟨lowerAction, stepped, contract⟩
  · rw [unchanged]
    exact lower
  · exact Reachable.next lower stepped contract

theorem routed_of_reachable
    (reachable :
      Reachable step (create capacity slotCount requests) allowed
        system) :
    system.world.Routed :=
  World.routed_of_reachable
    (World.orderly_of_contract (world_reachable reachable))

end Reachable

end System

end RingCache

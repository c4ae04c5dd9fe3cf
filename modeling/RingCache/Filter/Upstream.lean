import RingCache.Filter.Matching

/-!
# Requests that reach the upstream

A follower stops the iteration of the decoder chain in `decodeHeaders`, and so
does a hit.  `decodeData` and `decodeTrailers` do not ask for the role and
continue, which resumes the chain.  A request is held back exactly as long as
no such callback is made on its filter; then every request that reaches the
upstream is that of a leader.
-/

namespace RingCache

open Transition RingBufferCache

/-- `buildKey` builds no empty key. -/
theorem RingCacheFilter.buildKey_ne_nil
    {filter built : RingCacheFilter} {host path : Bytes}
    (build : filter.buildKey host path = (true, built)) :
    built.key ≠ [] := by
  unfold RingCacheFilter.buildKey at build
  split at build
  · simp at build
  · cases build
    simp [RingCacheFilter.separator]

namespace Stream

/-- Whether this stream has passed a request for the key on to the
upstream. -/
def upstream (key : Key) (stream : Stream) : Nat :=
  if stream.forwarded = true ∧ stream.filter.key = key then 1 else 0

/-- A request is passed on by a leader, or by a filter that has built no
key. -/
structure Held (stream : Stream) : Prop where
  awaiting :
    stream.request = .awaiting →
      stream.filter.role = .unset ∧
        stream.filter.key = [] ∧ stream.forwarded = false
  deciding :
    ∀ endStream,
      stream.request = .deciding endStream →
        stream.forwarded = false ∧ stream.filter.key ≠ []
  unkeyed :
    stream.filter.role = .unset →
    (∀ endStream, stream.request ≠ .deciding endStream) →
      stream.filter.key = []
  keyed : stream.filter.role ≠ .unset → stream.filter.key ≠ []
  leads : stream.filter.role = .leader → stream.forwarded = true
  forwarded :
    stream.forwarded = true →
      stream.filter.role = .leader ∨ stream.filter.role = .unset

/-- A request after a callback that has decoded its headers. -/
theorem Held.of_after
    {stream : Stream} {ends : Bool}
    (decoded : stream.request = RequestStage.after ends)
    (unkeyed : stream.filter.role = .unset → stream.filter.key = [])
    (keyed : stream.filter.role ≠ .unset → stream.filter.key ≠ [])
    (leads : stream.filter.role = .leader → stream.forwarded = true)
    (forwarded :
      stream.forwarded = true →
        stream.filter.role = .leader ∨ stream.filter.role = .unset) :
    stream.Held := by
  refine
    { awaiting := ?_
      deciding := ?_
      unkeyed := fun unset _ => unkeyed unset
      keyed := keyed
      leads := leads
      forwarded := forwarded }
  · intro awaiting
    rw [decoded] at awaiting
    exact absurd awaiting (RequestStage.after_ne_awaiting _)
  · intro endStream deciding
    rw [decoded] at deciding
    exact absurd deciding (RequestStage.after_ne_deciding _ _)

theorem Held.congr
    {stream other : Stream} (held : stream.Held)
    (sameRole : other.filter.role = stream.filter.role)
    (sameKey : other.filter.key = stream.filter.key)
    (sameRequest : other.request = stream.request)
    (sameForwarded : other.forwarded = stream.forwarded) :
    other.Held := by
  refine
    { awaiting := ?_
      deciding := ?_
      unkeyed := ?_
      keyed := ?_
      leads := ?_
      forwarded := ?_ }
  · rw [sameRole, sameKey, sameRequest, sameForwarded]
    exact held.awaiting
  · rw [sameKey, sameRequest, sameForwarded]
    exact held.deciding
  · rw [sameRole, sameKey, sameRequest]
    exact held.unkeyed
  · rw [sameRole, sameKey]
    exact held.keyed
  · rw [sameRole, sameForwarded]
    exact held.leads
  · rw [sameRole, sameForwarded]
    exact held.forwarded

/-- A body or trailers of a request that has not been stopped. -/
theorem Held.resume
    {stream : Stream} (held : stream.Held)
    (receiving : stream.request = .receiving)
    (notFollower : stream.filter.role ≠ .follower)
    (notCached : stream.filter.role ≠ .cached)
    {request : RequestStage}
    (notAwaiting : request ≠ .awaiting)
    (notDeciding : ∀ endStream, request ≠ .deciding endStream) :
    Held { stream with request := request, forwarded := true } := by
  refine
    { awaiting := fun same => absurd same notAwaiting
      deciding := fun _ same => absurd same (notDeciding _)
      unkeyed := fun unset _ => held.unkeyed unset (by simp [receiving])
      keyed := held.keyed
      leads := fun _ => rfl
      forwarded := ?_ }
  intro _
  cases role : stream.filter.role with
  | unset =>
      exact Or.inr rfl
  | leader =>
      exact Or.inl rfl
  | cached =>
      exact absurd role notCached
  | follower =>
      exact absurd role notFollower

end Stream

namespace System

variable {system next : System}

/-- The requests for a key that have been passed on to the upstream. -/
def upstreamRequests (system : System) (key : Key) : Nat :=
  (system.streams.map (Stream.upstream key)).sum

/-- Requests of followers are not passed on and get no response from upstream,
and for each key at most one request per leader is passed on. -/
structure FollowersHeld (system : System) : Prop where
  held :
    ∀ {id : StreamId} {stream : Stream},
      system.streams[id]? = some stream →
      stream.filter.role = .follower →
        stream.forwarded = false
  unanswered :
    ∀ {id : StreamId} {stream : Stream} {part : ResponsePart}
        {next : System},
      system.streams[id]? = some stream →
      stream.filter.role = .follower →
        system.step (.callback id (.encode true part)) ≠ .ok next
  counted :
    ∀ key : Key,
      key ≠ [] →
        system.upstreamRequests key ≤ system.world.leaderResults key

/-- The filter has stopped the iteration in `decodeHeaders`. -/
def stopped (stream : Stream) : Bool :=
  stream.filter.role == .follower || stream.filter.role == .cached

/-- The action is no callback for a body or trailers of a request that has been
stopped. -/
def headersOnly (system : System) : Action → Bool
  | .callback id (.decodeData _) | .callback id .decodeTrailers =>
      match system.streams[id]? with
      | some stream => !stopped stream
      | none => true
  | _ => true

/-- The runs in which requests of followers and hits consist of headers. -/
def HeadersOnly (system : System) (action : Action) (_ : System) : Prop :=
  system.headersOnly action = true

/-- A callback that is permitted keeps a request held. -/
theorem CallbackEffect.held
    {id : StreamId} {stream after : Stream} {callback : Callback}
    {world : World}
    (effect : CallbackEffect system id stream callback after world)
    (found : system.streams[id]? = some stream)
    (permitted : system.headersOnly (.callback id callback) = true)
    (held : stream.Held) :
    after.Held := by
  cases effect with
  | unkeyed callable awaiting built =>
      have sameFilter := (RingCacheFilter.buildKey_eq built).1 rfl
      obtain ⟨unset, noKey, _⟩ := held.awaiting awaiting
      rw [sameFilter]
      exact
        Stream.Held.of_after rfl (fun _ => noKey) held.keyed
          (fun _ => rfl) (fun _ => Or.inr unset)
  | hit callable awaiting built looked client =>
      have sameRole := (RingCacheFilter.buildKey_eq built).2.1
      have key := RingCacheFilter.buildKey_ne_nil built
      obtain ⟨unset, _, notForwarded⟩ := held.awaiting awaiting
      exact
        { awaiting := fun same => by simp at same
          deciding := fun _ _ => ⟨notForwarded, key⟩
          unkeyed := fun _ notDeciding => absurd rfl (notDeciding _)
          keyed := fun _ => key
          leads := fun leads => by simp [sameRole, unset] at leads
          forwarded := fun _ => Or.inr (sameRole.trans unset) }
  | lead callable awaiting fresh built looked client =>
      have key := RingCacheFilter.buildKey_ne_nil built
      exact
        Stream.Held.of_after rfl (by simp) (fun _ => key)
          (fun _ => rfl) (fun _ => Or.inl rfl)
  | follow callable awaiting fresh built looked client =>
      have key := RingCacheFilter.buildKey_ne_nil built
      obtain ⟨_, _, notForwarded⟩ := held.awaiting awaiting
      exact
        Stream.Held.of_after rfl (by simp) (fun _ => key) (by simp)
          (by simp [notForwarded])
  | serve deciding client stage read =>
      obtain ⟨notForwarded, key⟩ := held.deciding _ deciding
      exact
        Stream.Held.of_after rfl (by simp) (fun _ => key) (by simp)
          (by simp [notForwarded])
  | decodeData callable receiving =>
      have running :
          stream.filter.role ≠ .follower ∧
            stream.filter.role ≠ .cached := by
        simpa [headersOnly, found, stopped] using permitted
      exact
        held.resume receiving running.1 running.2
          (RequestStage.after_ne_awaiting _)
          (RequestStage.after_ne_deciding _)
  | decodeTrailers callable receiving =>
      have running :
          stream.filter.role ≠ .follower ∧
            stream.filter.role ≠ .cached := by
        simpa [headersOnly, found, stopped] using permitted
      exact
        held.resume receiving running.1 running.2 (by simp) (by simp)
  | pass callable origin ordered =>
      exact held.congr (by simp) (by simp) rfl rfl
  | publish callable origin leads ordered calls stepped =>
      exact held.congr (by simp) (by simp) rfl rfl
  | cancel callable follows notDone stepped =>
      exact held.congr rfl rfl rfl rfl
  | destroy callable keeps =>
      exact held.congr rfl rfl rfl rfl
  | proceed permits stepped =>
      exact held.congr rfl rfl rfl rfl

/-- The requests of all streams are held. -/
def AllHeld (system : System) : Prop :=
  ∀ (id : StreamId) (stream : Stream),
    system.streams[id]? = some stream → stream.Held

theorem create_allHeld
    (capacity : UInt64) (slotCount : Nat) (requests : List Request) :
    (create capacity slotCount requests).AllHeld := by
  intro id stream found
  obtain ⟨host, path, rfl⟩ := create_stream found
  exact
    { awaiting := fun _ => ⟨rfl, rfl, rfl⟩
      deciding := fun _ deciding => by simp at deciding
      unkeyed := fun _ _ => rfl
      keyed := fun keyed => absurd rfl keyed
      leads := fun leads => by simp at leads
      forwarded := fun _ => Or.inr rfl }

theorem AllHeld.step
    {action : Action} (allHeld : system.AllHeld)
    (effect : Effect system action next)
    (permitted : system.headersOnly action = true) :
    next.AllHeld := by
  intro other later laterFound
  cases effect with
  | @callback id stream after _ world found effect =>
      rcases update_cases found laterFound with
        ⟨rfl, rfl⟩ | ⟨different, before⟩
      · exact effect.held found permitted (allHeld other stream found)
      · exact allHeld other later before
  | run stepped =>
      exact allHeld other later laterFound

/-- A teardown inside a closure passes no request on. -/
theorem AllHeld.stepped
    {action : Action} (allHeld : system.AllHeld)
    (stepped : system.step action = .ok next)
    (permitted : system.headersOnly action = true) :
    next.AllHeld := by
  rcases step_cases stepped with effect | nested
  · exact allHeld.step effect permitted
  · cases nested with
    | intro queued live ran destroyed =>
        have afterRun := allHeld.step (run_effect ran) rfl
        have torn := afterRun.step (callback_effect destroyed) rfl
        exact torn

/-- While all requests are held, those for a key that have been passed on are
those of its leaders. -/
theorem AllHeld.upstreamRequests_eq
    (allHeld : system.AllHeld) (matched : system.Matched)
    {key : Key} (keyed : key ≠ []) :
    system.upstreamRequests key = system.world.leaderResults key := by
  refine Table.sum_map_eq_of_rel _ _ ?_
  intro position
  have related := matched position
  cases found : system.streams[position]? with
  | none =>
      rw [found] at related
      cases client : system.world.clients[position]? with
      | none =>
          exact Option.Rel.none
      | some present =>
          rw [client] at related
          cases related
  | some stream =>
      obtain ⟨client, present, fits⟩ := matched.client found
      rw [present]
      refine Option.Rel.some ?_
      have held := allHeld position stream found
      unfold Stream.upstream
      by_cases leads : stream.filter.role = .leader
      · obtain ⟨leader, isLeader, sameKey, _⟩ :=
          matched.leader found leads
        rw [present, Option.some.injEq] at isLeader
        subst isLeader
        simp [Client.leads, held.leads leads, sameKey]
      · have notPassed :
            ¬(stream.forwarded = true ∧ stream.filter.key = key) := by
          intro outcome
          rcases outcome with ⟨passed, sameKey⟩
          have unset : stream.filter.role = .unset :=
            (held.forwarded passed).resolve_left leads
          have notDeciding :
              ∀ endStream, stream.request ≠ .deciding endStream := by
            intro endStream deciding
            rw [(held.deciding endStream deciding).1] at passed
            simp at passed
          rw [held.unkeyed unset notDeciding] at sameKey
          exact keyed sameKey.symm
        rw [if_neg notPassed]
        cases client with
        | leader leader =>
            exact absurd fits.1 leads
        | _ =>
            rfl

theorem AllHeld.followersHeld
    (allHeld : system.AllHeld) (matched : system.Matched) :
    system.FollowersHeld := by
  have notForwarded :
      ∀ {id : StreamId} {stream : Stream},
        system.streams[id]? = some stream →
        stream.filter.role = .follower →
          stream.forwarded = false := by
    intro id stream found follows
    by_contra passed
    have forwarded : stream.forwarded = true := by simpa using passed
    rcases (allHeld id stream found).forwarded forwarded with
      leads | unset
    · simp [follows] at leads
    · simp [follows] at unset
  refine
    { held := notForwarded
      unanswered := ?_
      counted := ?_ }
  · intro id stream part next found follows stepped
    have blocked := notForwarded found follows
    cases callback_effect stepped with
    | callback present effect =>
        rw [found, Option.some.injEq] at present
        subst present
        cases effect with
        | pass _ origin _ =>
            rw [origin rfl] at blocked
            simp at blocked
        | publish _ origin _ _ _ _ =>
            rw [origin rfl] at blocked
            simp at blocked
  · intro key keyed
    exact Nat.le_of_eq (allHeld.upstreamRequests_eq matched keyed)

/-- A callback that is not permitted resumes a stopped request. -/
theorem Effect.resumes
    {action : Action} (effect : Effect system action next)
    (refused : system.headersOnly action = false) :
    ∃ (id : StreamId) (stream : Stream) (request : RequestStage),
      system.streams[id]? = some stream ∧
        stopped stream = true ∧
          next =
            system.update id
              { stream with request := request, forwarded := true }
              system.world := by
  cases effect with
  | @callback id stream after callback world found effect =>
      cases effect with
      | decodeData callable receiving =>
          have isStopped : stopped stream = true := by
            simpa [headersOnly, found] using refused
          exact ⟨id, stream, _, found, isStopped, rfl⟩
      | decodeTrailers callable receiving =>
          have isStopped : stopped stream = true := by
            simpa [headersOnly, found] using refused
          exact ⟨id, stream, _, found, isStopped, rfl⟩
      | _ =>
          simp [headersOnly] at refused
  | run stepped =>
      simp [headersOnly] at refused

/-- A stopped request that is resumed is passed on without a leader. -/
theorem AllHeld.not_followersHeld
    {action : Action} (allHeld : system.AllHeld)
    (matched : system.Matched) (effect : Effect system action next)
    (refused : system.headersOnly action = false) :
    ¬ next.FollowersHeld := by
  intro followersHeld
  obtain ⟨id, stream, request, found, isStopped, rfl⟩ :=
    effect.resumes refused
  have held := allHeld id stream found
  have later :
      (system.update id
          { stream with request := request, forwarded := true }
          system.world).streams[id]? =
        some
          { stream with request := request, forwarded := true } := by
    simp only [System.update]
    rw [Table.getElem?_set_of_some found, if_pos rfl]
  simp only [stopped, Bool.or_eq_true, beq_iff_eq] at isStopped
  rcases isStopped with follows | cached
  · have notForwarded := followersHeld.held later follows
    simp at notForwarded
  · have key : stream.filter.key ≠ [] := held.keyed (by simp [cached])
    have notForwarded : stream.forwarded = false := by
      by_contra passed
      have forwarded : stream.forwarded = true := by simpa using passed
      rcases held.forwarded forwarded with leads | unset
      · simp [cached] at leads
      · simp [cached] at unset
    have bound := followersHeld.counted stream.filter.key key
    have before := allHeld.upstreamRequests_eq matched key
    have change :=
      Table.sum_map_set (Stream.upstream stream.filter.key)
        { stream with request := request, forwarded := true } found
    simp only [upstreamRequests, System.update] at bound before
    simp only [Stream.upstream, notForwarded, Bool.false_eq_true,
      false_and, if_false, and_self, if_true] at change
    omega

section Reachable

variable {capacity : UInt64} {slotCount : Nat}
variable {requests : List Request}

theorem allHeld_of_reachable
    (reachable :
      Reachable step (create capacity slotCount requests) HeadersOnly
        system) :
    system.AllHeld := by
  refine
    reachable.invariant (create_allHeld capacity slotCount requests) ?_
  intro before action after _ allHeld stepped permitted
  exact allHeld.stepped stepped permitted

/-- In every run in which the requests of followers and hits consist of
headers, no request of a follower is passed on to the upstream; the first
callback for a body or trailers of such a request passes it on. -/
theorem followersHeld_iff_headersOnly
    (reachable :
      Reachable step (create capacity slotCount requests) HeadersOnly
        system) :
    system.FollowersHeld ∧
      ∀ (action : Action) (next : System),
        system.step action = .ok next →
          (next.FollowersHeld ↔ system.headersOnly action = true) := by
  have allHeld := allHeld_of_reachable reachable
  have matched := matched_of_reachable reachable
  refine ⟨allHeld.followersHeld matched, ?_⟩
  intro action next stepped
  constructor
  · intro followersHeld
    by_contra refused
    have notPermitted : system.headersOnly action = false := by
      simpa using refused
    rcases step_cases stepped with effect | nested
    · have broken :=
        allHeld.not_followersHeld matched effect notPermitted
      exact broken followersHeld
    · cases nested
      simp [headersOnly] at notPermitted
  · intro permitted
    have laterHeld := allHeld.stepped stepped permitted
    have laterMatched :=
      matched_of_reachable (Reachable.next reachable stepped permitted)
    exact laterHeld.followersHeld laterMatched

end Reachable

/-- The request of a leader has a body, and a follower joins it. -/
def headersOnlyRun : List Action :=
  [.callback 0 (.decodeHeaders false), .callback 1 (.decodeHeaders true),
    .callback 0 (.decodeData true),
    .callback 0 (.encode true (.headers [([5], [6])] false))]

theorem followersHeld_iff_headersOnly_headersOnlyRun :
    ∃ system,
      checkedRun step
            (fun system action _ => system.headersOnly action)
            (create 16 1 [⟨0, [1], [2]⟩, ⟨1, [1], [2]⟩])
            headersOnlyRun =
          some system ∧
        system.upstreamRequests [1, 47, 47, 47, 2] = 1 ∧
          system.FollowersHeld := by
  refine ⟨_, rfl, rfl, ?_⟩
  exact
    (followersHeld_iff_headersOnly
      (Reachable.of_checkedRun (fun _ _ _ checked => checked)
        Reachable.start
        (rfl :
          checkedRun step
              (fun system action _ => system.headersOnly action)
              (create 16 1 [⟨0, [1], [2]⟩, ⟨1, [1], [2]⟩])
              headersOnlyRun =
            some _))).1

/-- The request of a follower has a body. -/
def bodyRun : List Action :=
  [.callback 0 (.decodeHeaders true),
    .callback 1 (.decodeHeaders false), .callback 1 (.decodeData true)]

theorem followerForwarded_bodyRun :
    ∃ system,
      Reachable step
          (create 16 1 [⟨0, [1], [2]⟩, ⟨1, [1], [2]⟩])
          (fun _ _ _ => True) system ∧
        system.upstreamRequests [1, 47, 47, 47, 2] = 2 ∧
          system.world.leaderResults [1, 47, 47, 47, 2] = 1 ∧
            ¬ system.FollowersHeld := by
  have run :
      ∃ system stream,
        checkedRun step (fun _ _ _ => true)
              (create 16 1 [⟨0, [1], [2]⟩, ⟨1, [1], [2]⟩]) bodyRun =
            some system ∧
          system.streams[1]? = some stream ∧
            stream.filter.role = .follower ∧
              stream.forwarded = true ∧
                system.upstreamRequests [1, 47, 47, 47, 2] = 2 ∧
                  system.world.leaderResults [1, 47, 47, 47, 2] = 1 :=
    ⟨_, _, rfl, rfl, rfl, rfl, rfl, rfl⟩
  obtain ⟨system, stream, ran, found, follows, forwarded, requests,
    leaders⟩ := run
  refine
    ⟨system,
      Reachable.of_checkedRun (fun _ _ _ _ => trivial) Reachable.start
        ran,
      requests, leaders, ?_⟩
  intro followersHeld
  have notForwarded := followersHeld.held found follows
  rw [forwarded] at notForwarded
  simp at notForwarded

end System

end RingCache

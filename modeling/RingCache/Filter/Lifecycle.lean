import RingCache.Filter.Isolation

/-!
# The life of a filter

A filter is made for one request.  Its role, its key and its waiter are set
while `decodeHeaders` runs and never again: the key is that of the request, the
role is what the lookup returned, and the waiter is there exactly in a
follower, so that `onDestroy` finds it whenever it asks for it.
-/

namespace RingCache

open Transition RingBufferCache

/-- Once a filter has a role it keeps its role, its key and its waiter, and
once it is done it stays done. -/
structure RingCacheFilter.KeptBy (filter later : RingCacheFilter) :
    Prop where
  members :
    filter.role ≠ .unset →
      later.role = filter.role ∧ later.key = filter.key ∧
        later.waiter = filter.waiter
  done : filter.done = true → later.done = true

theorem RingCacheFilter.KeptBy.trans
    {first second third : RingCacheFilter}
    (early : first.KeptBy second) (late : second.KeptBy third) :
    first.KeptBy third := by
  refine { members := ?_, done := fun done => late.done (early.done done) }
  intro hasRole
  obtain ⟨role, key, waiter⟩ := early.members hasRole
  rw [← role] at hasRole
  obtain ⟨laterRole, laterKey, laterWaiter⟩ := late.members hasRole
  exact
    ⟨laterRole.trans role, laterKey.trans key,
      laterWaiter.trans waiter⟩

/-! ## One stream -/

namespace Stream.LookedUp

variable {stream after : Stream}

theorem congr
    (lookedUp : stream.LookedUp)
    (sameRequest : after.host = stream.host ∧ after.path = stream.path)
    (sameKey : after.filter.key = stream.filter.key) :
    after.LookedUp := by
  refine { hasHost := ?_, hasPath := ?_, ownKey := ?_ }
  · rw [sameRequest.1]
    exact lookedUp.hasHost
  · rw [sameRequest.2]
    exact lookedUp.hasPath
  · rw [sameKey, sameRequest.1, sameRequest.2]
    exact lookedUp.ownKey

/-- A stream that has looked up has a key. -/
theorem key_ne_nil (lookedUp : stream.LookedUp) :
    stream.filter.key ≠ [] := by
  rw [lookedUp.ownKey,
    RingCacheFilter.requestKey_eq lookedUp.hasHost lookedUp.hasPath]
  simp [RingCacheFilter.separator]

/-- A lookup gives a stream the key of its request. -/
theorem of_buildKey
    {filter : RingCacheFilter}
    (fresh : stream.filter.key = [])
    (built :
      stream.filter.buildKey stream.host stream.path = (true, filter))
    (sameRequest : after.host = stream.host ∧ after.path = stream.path)
    (sameKey : after.filter.key = filter.key) :
    after.LookedUp := by
  obtain ⟨hasHost, hasPath, ownKey⟩ :=
    RingCacheFilter.buildKey_key fresh built
  refine { hasHost := ?_, hasPath := ?_, ownKey := ?_ }
  · rw [sameRequest.1]
    exact hasHost
  · rw [sameRequest.2]
    exact hasPath
  · rw [sameKey, sameRequest.1, sameRequest.2]
    exact ownKey

end Stream.LookedUp

/-- What the members of a filter are at each stage of its request. -/
structure Stream.Lifecycle (stream : Stream) : Prop where
  awaiting :
    stream.request = .awaiting →
      stream.filter.role = .unset ∧ stream.filter.key = []
  deciding :
    ∀ endStream,
      stream.request = .deciding endStream →
        stream.filter.role = .unset ∧ stream.filter.key ≠ []
  decided :
    stream.request ≠ .awaiting →
    (∀ endStream, stream.request ≠ .deciding endStream) →
      (stream.filter.role = .unset ↔ stream.filter.key = [])
  keyed : stream.filter.key ≠ [] → stream.LookedUp
  waits :
    stream.filter.waiter.isSome = true ↔
      stream.filter.role = .follower

namespace Stream.Lifecycle

variable {stream after : Stream}

/-- A filter whose `decodeHeaders` has returned. -/
theorem of_decided
    {ends : Bool}
    (request : after.request = RequestStage.after ends)
    (decided :
      after.filter.role = .unset ↔ after.filter.key = [])
    (keyed : after.filter.key ≠ [] → after.LookedUp)
    (waits :
      after.filter.waiter.isSome = true ↔
        after.filter.role = .follower) :
    after.Lifecycle := by
  refine
    { awaiting := ?_
      deciding := ?_
      decided := fun _ _ => decided
      keyed := keyed
      waits := waits }
  · intro awaits
    rw [request] at awaits
    exact absurd awaits (RequestStage.after_ne_awaiting ends)
  · intro endStream deciding
    rw [request] at deciding
    exact absurd deciding (RequestStage.after_ne_deciding ends endStream)

/-- A callback that keeps the role, the key, the waiter and the request. -/
theorem congr
    (lifecycle : stream.Lifecycle)
    (sameRequest : after.host = stream.host ∧ after.path = stream.path)
    (request : after.request = stream.request)
    (role : after.filter.role = stream.filter.role)
    (key : after.filter.key = stream.filter.key)
    (waiter : after.filter.waiter = stream.filter.waiter) :
    after.Lifecycle := by
  refine
    { awaiting := ?_
      deciding := ?_
      decided := ?_
      keyed := ?_
      waits := ?_ }
  · rw [request, role, key]
    exact lifecycle.awaiting
  · rw [request, role, key]
    exact lifecycle.deciding
  · rw [request, role, key]
    exact lifecycle.decided
  · intro hasKey
    rw [key] at hasKey
    exact (lifecycle.keyed hasKey).congr sameRequest key
  · rw [waiter, role]
    exact lifecycle.waits

/-- The body and the trailers of a request change no member. -/
theorem resume
    (lifecycle : stream.Lifecycle) {ends : Bool}
    (receiving : stream.request = .receiving)
    (sameRequest : after.host = stream.host ∧ after.path = stream.path)
    (request : after.request = RequestStage.after ends)
    (filter : after.filter = stream.filter) :
    after.Lifecycle := by
  refine of_decided request ?_ ?_ ?_
  · rw [filter]
    exact
      lifecycle.decided (by simp [receiving]) (by simp [receiving])
  · intro hasKey
    rw [filter] at hasKey
    exact (lifecycle.keyed hasKey).congr sameRequest (by rw [filter])
  · rw [filter]
    exact lifecycle.waits

theorem waiter_eq_none
    (lifecycle : stream.Lifecycle)
    (notFollower : stream.filter.role ≠ .follower) :
    stream.filter.waiter = none := by
  rw [← Option.not_isSome_iff_eq_none, lifecycle.waits]
  exact notFollower

end Stream.Lifecycle

namespace System

variable {system next : System}

/-! ## Callbacks -/

theorem CallbackEffect.lifecycle
    {id : StreamId} {stream after : Stream} {callback : Callback}
    {world : World}
    (effect : CallbackEffect system id stream callback after world)
    (lifecycle : stream.Lifecycle) :
    after.Lifecycle := by
  have sameRequest := effect.sameRequest
  cases effect with
  | unkeyed callable awaiting built =>
      have sameFilter := (RingCacheFilter.buildKey_eq built).1 rfl
      subst sameFilter
      obtain ⟨unset, noKey⟩ := lifecycle.awaiting awaiting
      refine Stream.Lifecycle.of_decided rfl ?_ ?_ lifecycle.waits
      · exact ⟨fun _ => noKey, fun _ => unset⟩
      · intro hasKey
        exact absurd noKey hasKey
  | hit callable awaiting built looked client =>
      obtain ⟨unset, noKey⟩ := lifecycle.awaiting awaiting
      obtain ⟨_, sameRole, _, sameWaiter⟩ :=
        RingCacheFilter.buildKey_eq built
      have lookedUp :=
        Stream.LookedUp.of_buildKey noKey built sameRequest rfl
      refine
        { awaiting := by simp
          deciding :=
            fun _ _ => ⟨sameRole.trans unset, lookedUp.key_ne_nil⟩
          decided := fun _ notDeciding => absurd rfl (notDeciding _)
          keyed := fun _ => lookedUp
          waits := ?_ }
      rw [sameRole, sameWaiter]
      exact lifecycle.waits
  | lead callable awaiting fresh built looked client =>
      obtain ⟨unset, noKey⟩ := lifecycle.awaiting awaiting
      obtain ⟨_, _, _, sameWaiter⟩ := RingCacheFilter.buildKey_eq built
      have lookedUp :=
        Stream.LookedUp.of_buildKey noKey built sameRequest rfl
      have noWaiter := lifecycle.waiter_eq_none (by simp [unset])
      refine
        Stream.Lifecycle.of_decided rfl ?_ (fun _ => lookedUp) ?_
      · simpa using lookedUp.key_ne_nil
      · simp [sameWaiter, noWaiter]
  | follow callable awaiting fresh built looked client =>
      obtain ⟨unset, noKey⟩ := lifecycle.awaiting awaiting
      have lookedUp :=
        Stream.LookedUp.of_buildKey noKey built sameRequest rfl
      refine
        Stream.Lifecycle.of_decided rfl ?_ (fun _ => lookedUp)
          (by simp)
      simpa using lookedUp.key_ne_nil
  | serve deciding client stage read =>
      obtain ⟨unset, hasKey⟩ := lifecycle.deciding _ deciding
      have noWaiter := lifecycle.waiter_eq_none (by simp [unset])
      refine Stream.Lifecycle.of_decided rfl ?_ ?_ ?_
      · simpa using hasKey
      · intro _
        exact (lifecycle.keyed hasKey).congr sameRequest rfl
      · simp [noWaiter]
  | decodeData callable receiving =>
      exact lifecycle.resume receiving sameRequest rfl rfl
  | decodeTrailers callable receiving =>
      exact
        lifecycle.resume receiving sameRequest
          (rfl : _ = RequestStage.after true) rfl
  | pass callable origin ordered =>
      exact
        lifecycle.congr sameRequest rfl (by simp) (by simp) (by simp)
  | publish callable origin leads ordered calls stepped =>
      exact
        lifecycle.congr sameRequest rfl (by simp) (by simp) (by simp)
  | cancel callable follows notDone stepped =>
      exact lifecycle.congr sameRequest rfl rfl rfl rfl
  | destroy callable keeps =>
      exact lifecycle.congr sameRequest rfl rfl rfl rfl
  | proceed permitted stepped =>
      exact lifecycle.congr sameRequest rfl rfl rfl rfl

theorem CallbackEffect.keepsMembers
    {id : StreamId} {stream after : Stream} {callback : Callback}
    {world : World}
    (effect : CallbackEffect system id stream callback after world)
    (lifecycle : stream.Lifecycle) :
    stream.filter.KeptBy after.filter := by
  have undecided :
      stream.request = .awaiting → stream.filter.role = .unset :=
    fun awaiting => (lifecycle.awaiting awaiting).1
  cases effect with
  | unkeyed callable awaiting built =>
      obtain ⟨_, _, sameDone, _⟩ := RingCacheFilter.buildKey_eq built
      exact
        ⟨fun hasRole => absurd (undecided awaiting) hasRole,
          fun done => sameDone.trans done⟩
  | hit callable awaiting built looked client =>
      obtain ⟨_, _, sameDone, _⟩ := RingCacheFilter.buildKey_eq built
      exact
        ⟨fun hasRole => absurd (undecided awaiting) hasRole,
          fun done => sameDone.trans done⟩
  | lead callable awaiting fresh built looked client =>
      obtain ⟨_, _, sameDone, _⟩ := RingCacheFilter.buildKey_eq built
      exact
        ⟨fun hasRole => absurd (undecided awaiting) hasRole,
          fun done => sameDone.trans done⟩
  | follow callable awaiting fresh built looked client =>
      obtain ⟨_, _, sameDone, _⟩ := RingCacheFilter.buildKey_eq built
      exact
        ⟨fun hasRole => absurd (undecided awaiting) hasRole,
          fun done => sameDone.trans done⟩
  | serve deciding client stage read =>
      exact
        ⟨fun hasRole =>
            absurd (lifecycle.deciding _ deciding).1 hasRole,
          fun _ => rfl⟩
  | decodeData callable receiving =>
      exact ⟨fun _ => ⟨rfl, rfl, rfl⟩, fun done => done⟩
  | decodeTrailers callable receiving =>
      exact ⟨fun _ => ⟨rfl, rfl, rfl⟩, fun done => done⟩
  | pass callable origin ordered =>
      exact
        ⟨fun _ => ⟨by simp, by simp, by simp⟩,
          fun done => by simp [done]⟩
  | publish callable origin leads ordered calls stepped =>
      exact
        ⟨fun _ => ⟨by simp, by simp, by simp⟩,
          fun done => by simp [done]⟩
  | cancel callable follows notDone stepped =>
      exact ⟨fun _ => ⟨rfl, rfl, rfl⟩, fun done => done⟩
  | destroy callable keeps =>
      exact ⟨fun _ => ⟨rfl, rfl, rfl⟩, fun done => done⟩
  | proceed permitted stepped =>
      exact ⟨fun _ => ⟨rfl, rfl, rfl⟩, fun done => done⟩

/-- Every filter is at some stage of its life. -/
def Lifecycle (system : System) : Prop :=
  ∀ (id : StreamId) (stream : Stream),
    system.streams[id]? = some stream → stream.Lifecycle

theorem Lifecycle.step
    {action : Action} (lifecycle : system.Lifecycle)
    (effect : Effect system action next) :
    next.Lifecycle := by
  intro id stream found
  cases effect with
  | callback callerFound effect =>
      rcases update_cases callerFound found with
        ⟨rfl, rfl⟩ | ⟨_, before⟩
      · exact effect.lifecycle (lifecycle _ _ callerFound)
      · exact lifecycle id stream before
  | run stepped =>
      exact lifecycle id stream found

/-- Every stream of the state after a step was there before it, and its filter
has been kept. -/
theorem Effect.keepsMembers
    {action : Action} (effect : Effect system action next)
    (lifecycle : system.Lifecycle)
    {id : StreamId} {after : Stream}
    (found : next.streams[id]? = some after) :
    ∃ stream,
      system.streams[id]? = some stream ∧
        stream.filter.KeptBy after.filter := by
  have same : after.filter.KeptBy after.filter :=
    { members := fun _ => ⟨rfl, rfl, rfl⟩, done := fun done => done }
  cases effect with
  | callback callerFound effect =>
      rcases update_cases callerFound found with
        ⟨rfl, rfl⟩ | ⟨_, before⟩
      · exact
          ⟨_, callerFound,
            effect.keepsMembers (lifecycle _ _ callerFound)⟩
      · exact ⟨after, before, same⟩
  | run stepped =>
      exact ⟨after, found, same⟩

section Reachable

variable {capacity : UInt64} {slotCount : Nat}
variable {requests : List Request}
variable {allowed : System → Action → System → Prop}

theorem lifecycle_of_reachable
    (reachable :
      Reachable step (create capacity slotCount requests) allowed
        system) :
    system.Lifecycle := by
  refine
    invariant_of_effects ?_ (fun lifecycle => lifecycle) ?_ reachable
  · intro id stream found
    obtain ⟨host, path, rfl⟩ := create_stream found
    exact
      { awaiting := fun _ => ⟨rfl, rfl⟩
        deciding := by simp
        decided := fun notAwaiting => absurd rfl notAwaiting
        keyed := fun hasKey => absurd rfl hasKey
        waits := by simp }
  · intro before after action _ lifecycle effect
    exact lifecycle.step effect

/-- In every run, the members of a filter are what its request has made of
them, a filter that has a role keeps its role, its key and its waiter in every
continuation, a filter that is done stays done, and when `onDestroy` asks for
the waiter it is there and is the one that the cache knows under the key. -/
theorem filterMembersSetOnce
    {later : System}
    (reachable :
      Reachable step (create capacity slotCount requests) allowed
        system)
    (continued : Reachable step system allowed later)
    {id : StreamId} {stream after : Stream}
    (found : system.streams[id]? = some stream)
    (laterFound : later.streams[id]? = some after) :
    stream.Lifecycle ∧ stream.filter.KeptBy after.filter ∧
      (stream.filter.onDestroy = true →
        ∃ follower : Follower,
          system.world.clients[id]? = some (.follower follower) ∧
            stream.filter.waiter = some follower.waiter ∧
              stream.filter.key = follower.key) := by
  refine ⟨lifecycle_of_reachable reachable id stream found, ?_, ?_⟩
  · have kept :
        ∀ last : Stream,
          later.streams[id]? = some last →
            stream.filter.KeptBy last.filter := by
      refine
        @invariant_of_effects _ _ _
          (fun state : System =>
            ∀ last : Stream,
              state.streams[id]? = some last →
                stream.filter.KeptBy last.filter)
          ?_ (fun kept => kept) ?_ continued
      · intro last lastFound
        rw [found, Option.some.injEq] at lastFound
        subst lastFound
        exact
          { members := fun _ => ⟨rfl, rfl, rfl⟩
            done := fun done => done }
      · intro before next action reached kept effect last lastFound
        have fromStart := reachable.weaken fun _ _ _ _ => trivial
        obtain ⟨middle, middleFound, laterKept⟩ :=
          effect.keepsMembers
            (lifecycle_of_reachable (fromStart.trans reached)) lastFound
        exact (kept middle middleFound).trans laterKept
    exact kept after laterFound
  · intro destroys
    have follows : stream.filter.role = .follower := by
      simp only [RingCacheFilter.onDestroy, Bool.and_eq_true,
        beq_iff_eq] at destroys
      exact destroys.1
    obtain ⟨client, present, fits⟩ :=
      (matched_of_reachable reachable).client found
    cases client with
    | start dispatcher =>
        simp [Stream.Fits, follows] at fits
    | hit lookup =>
        simp [Stream.Fits, follows] at fits
    | leader leader =>
        simp [Stream.Fits, follows] at fits
    | follower follower =>
        exact ⟨follower, present, fits.2.2, fits.2.1⟩

end Reachable

/-- A leader and its follower. -/
def joinedRun : List Action :=
  [.callback 0 (.decodeHeaders true), .callback 1 (.decodeHeaders true)]

/-- The follower is destroyed. -/
def leavingRun : List Action :=
  [.callback 1 .onDestroy, .callback 1 (.proceed .removeWaiter)]

theorem filterMembersSetOnce_leavingRun :
    ∃ system later stream after,
      checkedRun step (fun _ _ _ => true)
            (create 16 1 [⟨0, [1], [2]⟩, ⟨1, [1], [2]⟩]) joinedRun =
          some system ∧
        checkedRun step (fun _ _ _ => true) system leavingRun =
            some later ∧
          system.streams[1]? = some stream ∧
            later.streams[1]? = some after ∧
              stream.Lifecycle ∧ stream.filter.KeptBy after.filter ∧
                (true = true →
                  ∃ follower : Follower,
                    system.world.clients[1]? =
                        some (.follower follower) ∧
                      stream.filter.waiter = some follower.waiter ∧
                        stream.filter.key = follower.key) := by
  obtain ⟨system, later, stream, after, ran, continued, found,
      laterFound, destroys⟩ :
      ∃ system later stream after,
        checkedRun step (fun _ _ _ => true)
              (create 16 1 [⟨0, [1], [2]⟩, ⟨1, [1], [2]⟩]) joinedRun =
            some system ∧
          checkedRun step (fun _ _ _ => true) system leavingRun =
              some later ∧
            system.streams[1]? = some stream ∧
              later.streams[1]? = some after ∧
                stream.filter.onDestroy = true :=
    ⟨_, _, _, _, rfl, rfl, rfl, rfl, rfl⟩
  have reachable :
      Reachable step
        (create 16 1 [⟨0, [1], [2]⟩, ⟨1, [1], [2]⟩])
        (fun _ _ _ => True) system :=
    Reachable.of_checkedRun (fun _ _ _ _ => trivial) Reachable.start ran
  have setOnce :=
    filterMembersSetOnce reachable
      (Reachable.of_checkedRun (fun _ _ _ _ => trivial)
        Reachable.start continued)
      found laterFound
  rw [destroys] at setOnce
  exact
    ⟨system, later, stream, after, ran, continued, found, laterFound,
      setOnce⟩

end System

end RingCache

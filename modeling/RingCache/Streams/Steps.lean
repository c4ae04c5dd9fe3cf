import RingCache.Cache.Accounting
import RingCache.Streams.Basic

/-!
# What each step of the system can do

`World.Effect` lists the steps of the system with the facts that hold before
each and the state after it.  `World.step_effect` is the only proof that
unfolds the step function; invariants are proved by cases on the effect.
-/

namespace RingCache

open Transition RingBufferCache

/-- The inflight response after the locked part of a publish. -/
def Inflight.receive (inflight : Inflight) : Publish → Inflight
  | .headers published _ =>
      { inflight with
        headers := some (inflight.headers.getD published) }
  | .data chunk _ => { inflight with body := inflight.body ++ chunk }

/-- The closure a publish posts to one waiter. -/
def Inflight.closureFor (inflight : Inflight) :
    Publish → Waiter → Closure
  | .headers published ends, waiter =>
      .headers waiter (inflight.headers.getD published) ends
  | .data chunk ends, waiter => .data waiter chunk ends

/-- The closures a publish posts once it has released the mutex. -/
def Inflight.notify (inflight : Inflight) (call : Publish) :
    List Closure :=
  inflight.waiters.map (inflight.closureFor call)

@[simp]
theorem Inflight.receive_waiters (inflight : Inflight) (call : Publish) :
    (inflight.receive call).waiters = inflight.waiters := by
  cases call <;> rfl

@[simp]
theorem Inflight.closureFor_waiter
    (inflight : Inflight) (call : Publish) (waiter : Waiter) :
    (inflight.closureFor call waiter).waiter = waiter := by
  cases call <;> rfl

/-- The three ways the locked part of a publish can go. -/
theorem Monitor.publish_eq_ok
    {monitor next : Monitor} {key : Key} {call : Publish}
    {posts : List Closure}
    (published : monitor.publish key call = .ok (posts, next)) :
    monitor.frame = none ∧
      ((monitor.cache.inflightMap key = none ∧
          posts = [] ∧ next = { cache := monitor.cache }) ∨
        ∃ inflight,
          monitor.cache.inflightMap key = some inflight ∧
            posts = inflight.notify call ∧
              ((call.endStream = false ∧
                  next =
                    { cache :=
                        monitor.cache.setInflight key
                          (some (inflight.receive call)) }) ∨
                (call.endStream = true ∧
                  ∃ headers,
                    (inflight.receive call).headers = some headers ∧
                      next =
                        { cache :=
                            monitor.cache.setInflight key
                              (some (inflight.receive call))
                          frame :=
                            some
                              { key := key
                                size :=
                                  reservedSize key headers
                                    (inflight.receive call)
                                point :=
                                  (monitor.cache.setInflight key
                                      (some (inflight.receive
                                        call))).enterScan
                                    (reservedSize key headers
                                      (inflight.receive call)) } }))) := by
  have locked :
      monitor.frame = none ∧
        ∃ cache,
          afterPublish cache key call.endStream = .ok next ∧
            ((monitor.cache.inflightMap key = none ∧
                posts = [] ∧ cache = monitor.cache) ∨
              ∃ inflight,
                monitor.cache.inflightMap key = some inflight ∧
                  posts = inflight.notify call ∧
                    cache =
                      monitor.cache.setInflight key
                        (some (inflight.receive call))) := by
    cases call with
    | headers headers endStream =>
        obtain ⟨free, postsEq, entered⟩ :=
          publishHeaders_eq_ok_iff.mp published
        refine ⟨free, _, entered, ?_⟩
        unfold publishHeadersLocked at postsEq ⊢
        cases found : monitor.cache.inflightMap key with
        | none =>
            rw [found] at postsEq
            exact Or.inl ⟨rfl, postsEq, rfl⟩
        | some inflight =>
            rw [found] at postsEq
            exact Or.inr ⟨inflight, rfl, postsEq, rfl⟩
    | data data endStream =>
        obtain ⟨free, postsEq, entered⟩ :=
          publishData_eq_ok_iff.mp published
        refine ⟨free, _, entered, ?_⟩
        unfold publishDataLocked at postsEq ⊢
        cases found : monitor.cache.inflightMap key with
        | none =>
            rw [found] at postsEq
            exact Or.inl ⟨rfl, postsEq, rfl⟩
        | some inflight =>
            rw [found] at postsEq
            exact Or.inr ⟨inflight, rfl, postsEq, rfl⟩
  obtain ⟨free, cache, entered, cases⟩ := locked
  refine ⟨free, ?_⟩
  obtain ⟨sameCache, outcome⟩ := afterPublish_eq_ok_iff.mp entered
  rcases cases with ⟨missing, postsEq, rfl⟩ |
    ⟨inflight, present, postsEq, rfl⟩
  · refine Or.inl ⟨missing, postsEq, ?_⟩
    rcases outcome with ⟨_, released⟩ | ⟨_, _, _, present, _⟩
    · cases next
      simp_all
    · rw [missing] at present
      simp at present
  · refine Or.inr ⟨inflight, present, postsEq, ?_⟩
    rcases outcome with ⟨stays | missing, released⟩ |
      ⟨ends, other, headers, found, stored, entered⟩
    · refine Or.inl ⟨stays, ?_⟩
      cases next
      simp_all
    · simp [setInflight] at missing
    · refine Or.inr ⟨ends, headers, ?_⟩
      have same : inflight.receive call = other := by
        simpa [setInflight] using found
      subst other
      refine ⟨stored, ?_⟩
      cases next
      simp_all

namespace World

/-- The waiter of a follower. -/
def waiterOf (stream : StreamId) (dispatcher : DispatcherId) : Waiter :=
  makeWaiter stream { stream := stream, dispatcher := dispatcher }

/-- The follower that a stream becomes: it joins the last leader of its
key. -/
def followerOf
    (world : World) (stream : StreamId) (dispatcher : DispatcherId)
    (key : Key) : Follower where
  key := key
  waiter := waiterOf stream dispatcher
  leader := world.history.lastLeader key

/-- The streams of a new system have not looked up yet. -/
theorem create_client
    {capacity : UInt64} {slotCount : Nat}
    {dispatchers : List DispatcherId} {stream : StreamId}
    {client : Client}
    (looked : ∀ dispatcher, client ≠ .start dispatcher) :
    (create capacity slotCount dispatchers).clients[stream]? ≠
      some client := by
  intro found
  have member := List.mem_of_getElem? found
  simp only [create, List.mem_map] at member
  obtain ⟨dispatcher, _, same⟩ := member
  exact looked dispatcher same.symm

/-- The steps of the system: the facts before each and the state after. -/
inductive Effect (world : World) : Action → World → Prop
  | lookupHit
      {stream : StreamId} {dispatcher : DispatcherId} {key : Key}
      {ptr : EntryPtr} {entry : Entry}
      (client : world.clients[stream]? = some (.start dispatcher))
      (free : world.monitor.frame = none)
      (mapped : world.monitor.cache.cacheMap key = some ptr)
      (read : world.monitor.cache.entryAt ptr = some entry) :
      Effect world (.move stream (.lookup key))
        (world.update stream
          (.hit
            { key := key
              entry := ptr
              bodyLength := entry.body.length
              stage := .pinned
              slot := world.monitor.cache.slotOf ptr
              snapshot := some entry
              source := world.history.lastEnded key })
          { cache := world.monitor.cache.updatePins ptr (· + 1) })
  | lookupLead
      {stream : StreamId} {dispatcher : DispatcherId} {key : Key}
      (client : world.clients[stream]? = some (.start dispatcher))
      (free : world.monitor.frame = none)
      (unmapped : world.monitor.cache.cacheMap key = none)
      (missing : world.monitor.cache.inflightMap key = none) :
      Effect world (.move stream (.lookup key))
        { world.update stream
            (.leader { key := key, log := [], call := .idle })
            { cache :=
                world.monitor.cache.setInflight key (some {}) } with
          history := .led stream key :: world.history }
  | lookupFollow
      {stream : StreamId} {dispatcher : DispatcherId} {key : Key}
      {inflight : Inflight}
      (client : world.clients[stream]? = some (.start dispatcher))
      (free : world.monitor.frame = none)
      (unmapped : world.monitor.cache.cacheMap key = none)
      (present : world.monitor.cache.inflightMap key = some inflight)
      (headersFirst : inflight.headers = none → inflight.body = []) :
      Effect world (.move stream (.lookup key))
        { world.update stream
            (.follower
              { key := key
                waiter := waiterOf stream dispatcher
                leader := world.history.lastLeader key })
            { cache :=
                world.monitor.cache.setInflight key
                  (some { inflight with
                    waiters :=
                      inflight.waiters ++
                        [waiterOf stream dispatcher] }) } with
          queues :=
            (backfillPosts inflight
              (waiterOf stream dispatcher)).foldl post world.queues }
  | copyHeaders
      {stream : StreamId} {hit : HitLookup} {entry : Entry}
      (client : world.clients[stream]? = some (.hit hit))
      (stage : hit.stage = .pinned)
      (read : world.monitor.cache.entryAt hit.entry = some entry) :
      Effect world (.move stream .copyHeaders)
        (world.update stream
          (.hit { hit with stage := .copied entry.headers })
          world.monitor)
  | handOutEmpty
      {stream : StreamId} {hit : HitLookup}
      {headers : ResponseHeaderMap} {entry : Entry}
      (client : world.clients[stream]? = some (.hit hit))
      (stage : hit.stage = .copied headers)
      (empty : hit.bodyLength = 0)
      (read : world.monitor.cache.entryAt hit.entry = some entry) :
      Effect world (.move stream .handOut)
        (world.update stream
          (.hit { hit with stage := .served headers false })
          { world.monitor with
            cache :=
              world.monitor.cache.updatePins hit.entry (· - 1) })
  | handOutBody
      {stream : StreamId} {hit : HitLookup}
      {headers : ResponseHeaderMap}
      (client : world.clients[stream]? = some (.hit hit))
      (stage : hit.stage = .copied headers)
      (nonempty : hit.bodyLength ≠ 0) :
      Effect world (.move stream .handOut)
        (world.update stream
          (.hit { hit with stage := .served headers true })
          world.monitor)
  | release
      {stream : StreamId} {hit : HitLookup}
      {headers : ResponseHeaderMap} {entry : Entry}
      (client : world.clients[stream]? = some (.hit hit))
      (stage : hit.stage = .served headers true)
      (read : world.monitor.cache.entryAt hit.entry = some entry) :
      Effect world (.move stream .release)
        (world.update stream
          (.hit { hit with stage := .served headers false })
          { world.monitor with
            cache :=
              world.monitor.cache.updatePins hit.entry (· - 1) })
  | publishLost
      {stream : StreamId} {leader : Leader} {call : Publish}
      (client : world.clients[stream]? = some (.leader leader))
      (idle : leader.call = .idle)
      (free : world.monitor.frame = none)
      (missing : world.monitor.cache.inflightMap leader.key = none) :
      Effect world (.move stream (.publish call))
        (world.update stream
          (.leader
            { leader with
              log := leader.log ++ [call], call := .posting [] })
          world.monitor)
  | publishOpen
      {stream : StreamId} {leader : Leader} {call : Publish}
      {inflight : Inflight}
      (client : world.clients[stream]? = some (.leader leader))
      (idle : leader.call = .idle)
      (free : world.monitor.frame = none)
      (present :
        world.monitor.cache.inflightMap leader.key = some inflight)
      (stays : call.endStream = false) :
      Effect world (.move stream (.publish call))
        (world.update stream
          (.leader
            { leader with
              log := leader.log ++ [call]
              call := .posting (inflight.notify call) })
          { cache :=
              world.monitor.cache.setInflight leader.key
                (some (inflight.receive call)) })
  | publishEnd
      {stream : StreamId} {leader : Leader} {call : Publish}
      {inflight : Inflight} {headers : ResponseHeaderMap}
      (client : world.clients[stream]? = some (.leader leader))
      (idle : leader.call = .idle)
      (free : world.monitor.frame = none)
      (present :
        world.monitor.cache.inflightMap leader.key = some inflight)
      (ends : call.endStream = true)
      (stored : (inflight.receive call).headers = some headers) :
      Effect world (.move stream (.publish call))
        (world.update stream
          (.leader
            { leader with
              log := leader.log ++ [call]
              call := .finalizing (inflight.notify call) })
          { cache :=
              world.monitor.cache.setInflight leader.key
                (some (inflight.receive call))
            frame :=
              some
                { key := leader.key
                  size :=
                    Monitor.reservedSize leader.key headers
                      (inflight.receive call)
                  point :=
                    (world.monitor.cache.setInflight leader.key
                        (some (inflight.receive call))).enterScan
                      (Monitor.reservedSize leader.key headers
                        (inflight.receive call)) } })
  | scan
      {stream : StreamId} {leader : Leader} {posts : List Closure}
      {frame : FinalizeFrame} {cache : RingBufferCache}
      {point : ScanPoint}
      (client : world.clients[stream]? = some (.leader leader))
      (finalizing : leader.call = .finalizing posts)
      (running : world.monitor.frame = some frame)
      (iterated :
        world.monitor.cache.scanIteration frame.size frame.point =
          .ok (cache, point)) :
      Effect world (.move stream .scan)
        { world with
          monitor :=
            { cache := cache, frame := some { frame with point := point } }
          history :=
            evictedKeys world.monitor.cache cache ++ world.history }
  | finish
      {stream : StreamId} {leader : Leader} {posts : List Closure}
      {frame : FinalizeFrame} {result : Bool} {cache : RingBufferCache}
      (client : world.clients[stream]? = some (.leader leader))
      (finalizing : leader.call = .finalizing posts)
      (running : world.monitor.frame = some frame)
      (atReturn : frame.point = .returned result)
      (completed :
        world.monitor.cache.completeFinalize frame.key result =
          .ok cache) :
      Effect world (.move stream .finish)
        { world.update stream
            (.leader { leader with call := .posting posts })
            { cache := cache } with
          history :=
            .ended stream leader.key
                (cache.cacheMap leader.key).isSome ::
              world.history }
  | post
      {stream : StreamId} {leader : Leader} {closure : Closure}
      {rest : List Closure}
      (client : world.clients[stream]? = some (.leader leader))
      (posting : leader.call = .posting (closure :: rest)) :
      Effect world (.move stream .post)
        { world.update stream
            (.leader { leader with call := .posting rest })
            world.monitor with
          queues := World.post world.queues closure }
  | return_
      {stream : StreamId} {leader : Leader}
      (client : world.clients[stream]? = some (.leader leader))
      (posting : leader.call = .posting []) :
      Effect world (.move stream .return_)
        (world.update stream
          (.leader { leader with call := .idle }) world.monitor)
  | runCancelled
      {dispatcher : DispatcherId} {closure : Closure}
      {rest : List Closure}
      (queued : world.queues dispatcher = closure :: rest)
      (cancelled : world.cancelled closure.waiter.addr = true) :
      Effect world (.run dispatcher)
        { world with
          queues := Function.update world.queues dispatcher rest }
  | run
      {dispatcher : DispatcherId} {closure : Closure}
      {rest : List Closure}
      (queued : world.queues dispatcher = closure :: rest)
      (live : world.cancelled closure.waiter.addr = false) :
      Effect world (.run dispatcher)
        { world with
          queues := Function.update world.queues dispatcher rest
          delivered :=
            Function.update world.delivered
              closure.waiter.callbacks.stream
              (world.delivered closure.waiter.callbacks.stream ++
                closure.calls) }
  | cancel
      {stream : StreamId} {follower : Follower}
      (client : world.clients[stream]? = some (.follower follower)) :
      Effect world (.move stream .cancel)
        { world with
          cancelled :=
            Function.update world.cancelled follower.waiter.addr true }
  | removeWaiter
      {stream : StreamId} {follower : Follower}
      (client : world.clients[stream]? = some (.follower follower))
      (cancelled : world.cancelled follower.waiter.addr = true)
      (free : world.monitor.frame = none) :
      Effect world (.move stream .removeWaiter)
        { world with
          monitor :=
            { cache :=
                world.monitor.cache.removeWaiterLocked follower.key
                  follower.waiter.addr } }

variable {world next : World}

private theorem lookup_effect
    {stream : StreamId} {dispatcher : DispatcherId} {key : Key}
    (client : world.clients[stream]? = some (.start dispatcher))
    (looked : world.lookup stream dispatcher key = .ok next) :
    Effect world (.move stream (.lookup key)) next := by
  obtain ⟨⟨result, monitor⟩, found, returned⟩ :=
    bind_eq_ok_iff.mp looked
  obtain ⟨free, released, lookedLocked⟩ :=
    Monitor.lookup_eq_ok_iff.mp found
  cases monitor with
  | mk cache frame =>
      simp only at released lookedLocked
      subst released
      rcases lookupLocked_eq_ok_iff.mp lookedLocked with
        ⟨ptr, entry, mapped, read, rfl, rfl⟩ |
          ⟨unmapped, missing, rfl, rfl⟩ |
            ⟨unmapped, inflight, caller, present, sameCaller,
              headersFirst, rfl, rfl⟩
      · cases returned
        rw [read]
        exact Effect.lookupHit client free mapped read
      · cases returned
        exact Effect.lookupLead client free unmapped missing
      · cases sameCaller
        cases returned
        exact
          Effect.lookupFollow client free unmapped present headersFirst

private theorem hitStep_effect
    {stream : StreamId} {hit : HitLookup} {move : Move}
    (client : world.clients[stream]? = some (.hit hit))
    (stepped : world.hitStep stream hit hit.stage move = .ok next) :
    Effect world (.move stream move) next := by
  cases stage : hit.stage with
  | pinned =>
      rw [stage] at stepped
      cases move <;> try (simp [hitStep] at stepped; done)
      rw [hitStep] at stepped
      cases read : world.monitor.cache.entryAt hit.entry with
      | none =>
          simp [read] at stepped
      | some entry =>
          simp only [read] at stepped
          cases stepped
          exact Effect.copyHeaders client stage read
  | copied headers =>
      rw [stage] at stepped
      cases move <;> try (simp [hitStep] at stepped; done)
      rw [hitStep] at stepped
      by_cases empty : hit.bodyLength = 0
      · rw [if_pos empty, bind_eq_ok_iff] at stepped
        obtain ⟨monitor, unpinned, returned⟩ := stepped
        obtain ⟨⟨entry, read⟩, rfl⟩ :=
          Monitor.unpin_eq_ok_iff.mp unpinned
        cases returned
        exact Effect.handOutEmpty client stage empty read
      · rw [if_neg empty] at stepped
        cases stepped
        exact Effect.handOutBody client stage empty
  | served headers fragment =>
      rw [stage] at stepped
      cases fragment with
      | false =>
          cases move <;> simp [hitStep] at stepped
      | true =>
          cases move <;> try (simp [hitStep] at stepped; done)
          rw [hitStep, bind_eq_ok_iff] at stepped
          obtain ⟨monitor, unpinned, returned⟩ := stepped
          obtain ⟨⟨entry, read⟩, rfl⟩ :=
            Monitor.unpin_eq_ok_iff.mp unpinned
          cases returned
          exact Effect.release client stage read

private theorem publish_effect
    {stream : StreamId} {leader : Leader} {call : Publish}
    (client : world.clients[stream]? = some (.leader leader))
    (idle : leader.call = .idle)
    (stepped :
      world.leaderStep stream leader .idle (.publish call) = .ok next) :
    Effect world (.move stream (.publish call)) next := by
  rw [leaderStep, bind_eq_ok_iff] at stepped
  obtain ⟨⟨posts, monitor⟩, published, returned⟩ := stepped
  obtain ⟨free, outcome⟩ := Monitor.publish_eq_ok published
  rcases outcome with ⟨missing, rfl, rfl⟩ |
    ⟨inflight, present, rfl, ⟨stays, rfl⟩ |
      ⟨ends, headers, stored, rfl⟩⟩
  · cases returned
    have sameMonitor :
        ({ cache := world.monitor.cache } : Monitor) = world.monitor := by
      cases monitorEq : world.monitor with
      | mk cache frame =>
          rw [monitorEq] at free
          simp only at free
          subst free
          rfl
    rw [sameMonitor]
    simp only [free, Option.isSome_none, Bool.false_eq_true, if_false]
    exact Effect.publishLost client idle free missing
  · cases returned
    exact Effect.publishOpen client idle free present stays
  · cases returned
    exact Effect.publishEnd client idle free present ends stored

private theorem leaderStep_effect
    {stream : StreamId} {leader : Leader} {move : Move}
    (client : world.clients[stream]? = some (.leader leader))
    (stepped :
      world.leaderStep stream leader leader.call move = .ok next) :
    Effect world (.move stream move) next := by
  cases call : leader.call with
  | idle =>
      rw [call] at stepped
      cases move <;> try (simp [leaderStep] at stepped; done)
      exact publish_effect client call stepped
  | finalizing posts =>
      rw [call] at stepped
      cases move <;> try (simp [leaderStep] at stepped; done)
      · rw [leaderStep, bind_eq_ok_iff] at stepped
        obtain ⟨monitor, scanned, returned⟩ := stepped
        obtain ⟨frame, cache, point, running, iterated, rfl⟩ :=
          Monitor.scan_eq_ok_iff.mp scanned
        cases returned
        exact Effect.scan client call running iterated
      · rw [leaderStep, bind_eq_ok_iff] at stepped
        obtain ⟨monitor, finished, returned⟩ := stepped
        obtain ⟨frame, result, running, atReturn, released,
          completed⟩ := Monitor.finish_eq_ok_iff.mp finished
        cases monitor with
        | mk cache frame =>
            simp only at released completed
            subst released
            cases returned
            exact
              Effect.finish client call running atReturn completed
  | posting posts =>
      rw [call] at stepped
      cases posts with
      | nil =>
          cases move <;> try (simp [leaderStep] at stepped; done)
          rw [leaderStep] at stepped
          cases stepped
          exact Effect.return_ client call
      | cons closure rest =>
          cases move <;> try (simp [leaderStep] at stepped; done)
          rw [leaderStep] at stepped
          cases stepped
          exact Effect.post client call

private theorem followerStep_effect
    {stream : StreamId} {follower : Follower} {move : Move}
    (client : world.clients[stream]? = some (.follower follower))
    (stepped : world.followerStep follower move = .ok next) :
    Effect world (.move stream move) next := by
  cases move <;> try (simp [followerStep] at stepped; done)
  · rw [followerStep] at stepped
    cases stepped
    exact Effect.cancel client
  · rw [followerStep] at stepped
    by_cases cancelled : world.cancelled follower.waiter.addr = true
    · rw [if_pos cancelled, bind_eq_ok_iff] at stepped
      obtain ⟨monitor, removed, returned⟩ := stepped
      obtain ⟨free, rfl⟩ := Monitor.removeWaiter_eq_ok_iff.mp removed
      cases returned
      exact Effect.removeWaiter client cancelled free
    · rw [if_neg cancelled] at stepped
      simp at stepped

private theorem runNext_effect
    {dispatcher : DispatcherId}
    (stepped : world.runNext dispatcher = .ok next) :
    Effect world (.run dispatcher) next := by
  unfold runNext at stepped
  cases queued : world.queues dispatcher with
  | nil =>
      simp [queued] at stepped
  | cons closure rest =>
      simp only [queued] at stepped
      by_cases cancelled : world.cancelled closure.waiter.addr = true
      · rw [if_pos cancelled] at stepped
        cases stepped
        exact Effect.runCancelled queued cancelled
      · rw [if_neg cancelled] at stepped
        cases stepped
        exact Effect.run queued (by simpa using cancelled)

/-- Every step is one of the listed effects. -/
theorem step_effect
    {action : Action} (stepped : world.step action = .ok next) :
    Effect world action next := by
  cases action with
  | run dispatcher =>
      exact runNext_effect stepped
  | move stream move =>
      rw [step] at stepped
      split at stepped
      · simp at stepped
      · next dispatcher client =>
          cases move <;> try (simp at stepped; done)
          exact lookup_effect client stepped
      · next hit client =>
          exact hitStep_effect client stepped
      · next leader client =>
          exact leaderStep_effect client stepped
      · next follower client =>
          exact followerStep_effect client stepped

private theorem publishHeadersLocked_of_present
    {cache : RingBufferCache} {key : Key} {inflight : Inflight}
    (present : cache.inflightMap key = some inflight)
    (headers : ResponseHeaderMap) (endStream : Bool) :
    cache.publishHeadersLocked key headers endStream =
      (inflight.notify (.headers headers endStream),
        cache.setInflight key
          (some (inflight.receive (.headers headers endStream)))) := by
  unfold publishHeadersLocked
  rw [present]
  rfl

private theorem publishDataLocked_of_present
    {cache : RingBufferCache} {key : Key} {inflight : Inflight}
    (present : cache.inflightMap key = some inflight)
    (data : Bytes) (endStream : Bool) :
    cache.publishDataLocked key data endStream =
      (inflight.notify (.data data endStream),
        cache.setInflight key
          (some (inflight.receive (.data data endStream)))) := by
  unfold publishDataLocked
  rw [present]
  rfl

/-- A publish that finds its inflight response is a step of the cache. -/
private theorem publish_monitor_step
    {monitor after : Monitor} {key : Key} {inflight : Inflight}
    (call : Publish)
    (free : monitor.frame = none)
    (present : monitor.cache.inflightMap key = some inflight)
    (entered :
      Monitor.afterPublish
          (monitor.cache.setInflight key (some (inflight.receive call)))
          key call.endStream =
        .ok after) :
    ∃ action, monitor.step action = .ok after := by
  cases call with
  | headers headers endStream =>
      have published :
          monitor.publishHeaders key headers endStream =
            .ok (inflight.notify (.headers headers endStream), after) := by
        apply Monitor.publishHeaders_eq_ok_iff.mpr
        rw [publishHeadersLocked_of_present present]
        exact ⟨free, rfl, entered⟩
      exact
        ⟨.publishHeaders key headers endStream,
          bind_eq_ok_iff.mpr ⟨_, published, rfl⟩⟩
  | data data endStream =>
      have published :
          monitor.publishData key data endStream =
            .ok (inflight.notify (.data data endStream), after) := by
        apply Monitor.publishData_eq_ok_iff.mpr
        rw [publishDataLocked_of_present present]
        exact ⟨free, rfl, entered⟩
      exact
        ⟨.publishData key data endStream,
          bind_eq_ok_iff.mpr ⟨_, published, rfl⟩⟩

/-- The locked part of a lookup is a step of the cache. -/
private theorem lookup_monitor_step
    {monitor : Monitor} {cache : RingBufferCache} {key : Key}
    {result : LookupLocked}
    (callbacks : Option Callbacks) (waiterAddr : Nat)
    (free : monitor.frame = none)
    (looked :
      monitor.cache.lookupLocked key callbacks waiterAddr =
        .ok (result, cache)) :
    ∃ lower, monitor.step lower = .ok { cache := cache } :=
  ⟨.lookup key callbacks waiterAddr,
    bind_eq_ok_iff.mpr
      ⟨(result, { cache := cache }),
        Monitor.lookup_eq_ok_iff.mpr ⟨free, rfl, looked⟩, rfl⟩⟩

/-- Every step of the system is no step or one step of the cache. -/
theorem Effect.monitor_step
    {action : Action} (effect : Effect world action next) :
    next.monitor = world.monitor ∨
      ∃ lower, world.monitor.step lower = .ok next.monitor := by
  cases effect with
  | @lookupHit stream dispatcher key ptr entry _ free mapped read =>
      exact
        Or.inr (lookup_monitor_step
          (some ⟨stream, dispatcher⟩) stream free
          (lookupLocked_eq_ok_iff.mpr
            (Or.inl ⟨ptr, entry, mapped, read, rfl, rfl⟩)))
  | @lookupLead stream dispatcher key _ free unmapped missing =>
      exact
        Or.inr (lookup_monitor_step
          (some ⟨stream, dispatcher⟩) stream free
          (lookupLocked_eq_ok_iff.mpr
            (Or.inr (Or.inl ⟨unmapped, missing, rfl, rfl⟩))))
  | @lookupFollow stream dispatcher key inflight _ free unmapped
      present headersFirst =>
      exact
        Or.inr (lookup_monitor_step
          (some ⟨stream, dispatcher⟩) stream free
          (lookupLocked_eq_ok_iff.mpr
            (Or.inr (Or.inr
              ⟨unmapped, inflight, _, present, rfl, headersFirst, rfl,
                rfl⟩))))
  | copyHeaders _ _ _ =>
      exact Or.inl rfl
  | @handOutEmpty stream hit headers entry _ _ _ read =>
      exact
        Or.inr ⟨.unpin hit.entry,
          Monitor.unpin_eq_ok_iff.mpr ⟨⟨entry, read⟩, rfl⟩⟩
  | handOutBody _ _ _ =>
      exact Or.inl rfl
  | @release stream hit headers entry _ _ read =>
      exact
        Or.inr ⟨.unpin hit.entry,
          Monitor.unpin_eq_ok_iff.mpr ⟨⟨entry, read⟩, rfl⟩⟩
  | publishLost _ _ _ _ =>
      exact Or.inl rfl
  | @publishOpen stream leader call inflight _ _ free present stays =>
      refine Or.inr (publish_monitor_step call free present ?_)
      rw [Monitor.afterPublish_eq_ok_iff]
      exact ⟨rfl, Or.inl ⟨Or.inl stays, rfl⟩⟩
  | @publishEnd stream leader call inflight headers _ _ free present
      ends stored =>
      refine Or.inr (publish_monitor_step call free present ?_)
      rw [Monitor.afterPublish_eq_ok_iff]
      refine
        ⟨rfl, Or.inr
          ⟨ends, inflight.receive call, headers, ?_, stored, rfl⟩⟩
      simp [setInflight]
  | @scan stream leader posts frame cache point _ _ running iterated =>
      exact
        Or.inr ⟨.scan,
          Monitor.scan_eq_ok_iff.mpr
            ⟨frame, cache, point, running, iterated, rfl⟩⟩
  | @finish stream leader posts frame result cache _ _ running atReturn
      completed =>
      exact
        Or.inr ⟨.finish,
          Monitor.finish_eq_ok_iff.mpr
            ⟨frame, result, running, atReturn, rfl, completed⟩⟩
  | post _ _ =>
      exact Or.inl rfl
  | return_ _ _ =>
      exact Or.inl rfl
  | runCancelled _ _ =>
      exact Or.inl rfl
  | run _ _ =>
      exact Or.inl rfl
  | cancel _ =>
      exact Or.inl rfl
  | @removeWaiter stream follower _ _ free =>
      exact
        Or.inr ⟨.removeWaiter follower.key follower.waiter.addr,
          Monitor.removeWaiter_eq_ok_iff.mpr ⟨free, rfl⟩⟩

/-- The cache of a reachable system is in a reachable state of its own. -/
theorem monitor_reachable
    {capacity : UInt64} {slotCount : Nat}
    {dispatchers : List DispatcherId}
    {allowed : World → Action → World → Prop}
    (reachable :
      Reachable step (create capacity slotCount dispatchers) allowed
        world) :
    Reachable Monitor.step (Monitor.create capacity slotCount)
      (fun _ _ _ => True) world.monitor := by
  refine Reachable.project World.monitor rfl ?_ reachable
  intro before action after _ stepped _
  rcases (step_effect stepped).monitor_step with
    same | ⟨lower, lowerStepped⟩
  · exact Or.inl same
  · exact Or.inr ⟨lower, lowerStepped, trivial⟩

/-- The cache of a reachable system keeps its invariant. -/
theorem wellFormed_of_reachable
    {capacity : UInt64} {slotCount : Nat}
    {dispatchers : List DispatcherId}
    {allowed : World → Action → World → Prop}
    (reachable :
      Reachable step (create capacity slotCount dispatchers) allowed
        world) :
    world.monitor.cache.WellFormed :=
  (Monitor.consistent_of_reachable
    (monitor_reachable reachable)).wellFormed

end World

end RingCache

import RingCache.Library.Tables
import RingCache.Streams.Steps

/-!
# One unfinished leader for each inflight key

Nothing in the cache names the leader of an inflight response: publishes are
matched by key.  `World.SingleFlight` says that an inflight response belongs to
the stream that most recently got the key as leader, that this stream is the
only unfinished leader of the key, and that the call holding the mutex is that
of an unfinished leader.  The invariant is kept by every step in which leaders
publish headers before data and nothing after the end of their stream.
-/

namespace RingCache

open Transition RingBufferCache

namespace Log

@[simp]
theorem ended_append (log : Log) (call : Publish) :
    Log.ended (log ++ [call]) = (Log.ended log || call.endStream) := by
  simp [ended]

/-- A leader may publish until it has ended the stream, data only after
headers. -/
def orderly (log : Log) : Publish → Bool
  | .headers _ _ => !log.ended
  | .data _ _ => !log.ended && log.headers?.isSome

/-- A leader that may publish has not ended its stream. -/
theorem not_ended_of_orderly
    {log : Log} {call : Publish}
    (permitted : orderly log call = true) :
    log.ended = false := by
  cases call with
  | headers published ends =>
      simpa [orderly] using permitted
  | data chunk ends =>
      simp only [orderly, Bool.and_eq_true, Bool.not_eq_true']
        at permitted
      exact permitted.1

end Log

/-- A leader whose last publish, if it ends the stream, still holds the
mutex. -/
def Leader.unfinished (leader : Leader) : Bool :=
  !leader.log.ended ||
    match leader.call with
    | .finalizing _ => true
    | _ => false

theorem Leader.unfinished_of_not_ended
    {leader : Leader} (notEnded : leader.log.ended = false) :
    leader.unfinished = true := by
  simp [Leader.unfinished, notEnded]

namespace Client

def leads (key : Key) : Client → Nat
  | .leader state => if state.key = key then 1 else 0
  | _ => 0

/-- The publishes with `end_stream` made by a leader of the key. -/
def endPublishes (key : Key) : Client → Nat
  | .leader state =>
      if state.key = key then
        state.log.countP Publish.endStream
      else
        0
  | _ => 0

def unfinishedLeads (key : Key) : Client → Nat
  | .leader state =>
      if state.key = key ∧ state.unfinished = true then 1 else 0
  | _ => 0

end Client

namespace History

variable (history : History) (key other : Key) (stream : StreamId)

@[simp]
theorem lastLeader_led :
    lastLeader (.led stream other :: history) key =
      if other = key then some stream else lastLeader history key := by
  unfold lastLeader
  rw [List.findSome?_cons]
  by_cases same : other = key <;> simp [same]

@[simp]
theorem lastLeader_ended (cached : Bool) :
    lastLeader (.ended stream other cached :: history) key =
      lastLeader history key := by
  simp [lastLeader]

@[simp]
theorem lastLeader_evicted :
    lastLeader (.evicted other :: history) key =
      lastLeader history key := by
  simp [lastLeader]

@[simp]
theorem lastLeader_evictedKeys (before after : RingBufferCache) :
    lastLeader (World.evictedKeys before after ++ history) key =
      lastLeader history key := by
  unfold World.evictedKeys
  split
  · simp
  · simp

end History

namespace World

variable {world next : World}

/-- The Leader results returned for a key. -/
def leaderResults (world : World) (key : Key) : Nat :=
  (world.clients.map (Client.leads key)).sum

/-- The publishes with `end_stream` made by the leaders of a key. -/
def endPublishes (world : World) (key : Key) : Nat :=
  (world.clients.map (Client.endPublishes key)).sum

/-- What the environment promises about the publish calls of leaders. -/
def leaderCalls (permits : Log → Publish → Bool) (world : World) :
    Action → Bool
  | .move stream (.publish call) =>
      match world.clients[stream]? with
      | some (.leader leader) => permits leader.log call
      | _ => true
  | _ => true

/-- The runs in which every publish of a leader is permitted after what the
leader has published. -/
def LeadersCall (permits : Log → Publish → Bool)
    (world : World) (action : Action) (_ : World) : Prop :=
  world.leaderCalls permits action = true

/-- A weaker permission admits at least the same calls. -/
theorem leaderCalls_mono
    {permits wider : Log → Publish → Bool}
    (weaker :
      ∀ log call, permits log call = true → wider log call = true)
    {action : Action}
    (allowed : world.leaderCalls permits action = true) :
    world.leaderCalls wider action = true := by
  unfold leaderCalls at allowed ⊢
  split
  · next stream call =>
      split
      · next leader client =>
          simp only [client] at allowed
          exact weaker leader.log call allowed
      · rfl
  · rfl

theorem permits_of_leaderCalls
    {permits : Log → Publish → Bool} {stream : StreamId}
    {leader : Leader} {call : Publish}
    (client : world.clients[stream]? = some (.leader leader))
    (allowed :
      world.leaderCalls permits (.move stream (.publish call)) = true) :
    permits leader.log call = true := by
  simpa [leaderCalls, client] using allowed

theorem get_update
    {stream : StreamId} {old : Client}
    (present : world.clients[stream]? = some old)
    (new : Client) (monitor : Monitor) (read : StreamId) :
    (world.update stream new monitor).clients[read]? =
      if read = stream then some new else world.clients[read]? :=
  Table.getElem?_set_of_some present new read

/-- Inflight responses and unfinished leaders correspond. -/
structure SingleFlight (world : World) : Prop where
  owned :
    ∀ {stream : StreamId} {leader : Leader},
      world.clients[stream]? = some (.leader leader) →
      leader.unfinished = true →
        (∃ inflight,
            world.monitor.cache.inflightMap leader.key =
              some inflight) ∧
          world.history.lastLeader leader.key = some stream
  owner :
    ∀ {key inflight},
      world.monitor.cache.inflightMap key = some inflight →
        ∃ (stream : StreamId) (leader : Leader),
          world.history.lastLeader key = some stream ∧
            world.clients[stream]? = some (.leader leader) ∧
              leader.key = key ∧ leader.unfinished = true
  holder :
    ∀ {stream : StreamId} {leader : Leader} {posts : List Closure},
      world.clients[stream]? = some (.leader leader) →
      leader.call = .finalizing posts →
        leader.log.ended = true ∧
          ∃ frame,
            world.monitor.frame = some frame ∧
              frame.key = leader.key
  running :
    ∀ {frame},
      world.monitor.frame = some frame →
        ∃ (stream : StreamId) (leader : Leader) (posts : List Closure),
          world.clients[stream]? = some (.leader leader) ∧
            leader.key = frame.key ∧ leader.call = .finalizing posts
  counted :
    ∀ key : Key,
      (world.clients.map (Client.unfinishedLeads key)).sum =
        if (world.monitor.cache.inflightMap key).isSome then 1 else 0
  endsOnce :
    ∀ {stream : StreamId} {leader : Leader},
      world.clients[stream]? = some (.leader leader) →
        leader.log.countP Publish.endStream =
          if leader.log.ended then 1 else 0

/-- A publish in order finds the inflight response of its leader. -/
theorem SingleFlight.publish_finds
    (flight : world.SingleFlight)
    {stream : StreamId} {leader : Leader} {call : Publish}
    (client : world.clients[stream]? = some (.leader leader))
    (permitted : leader.log.orderly call = true) :
    world.monitor.cache.inflightMap leader.key ≠ none := by
  have notEnded := Log.not_ended_of_orderly permitted
  obtain ⟨⟨inflight, present⟩, _⟩ :=
    flight.owned client (Leader.unfinished_of_not_ended notEnded)
  rw [present]
  simp

theorem create_singleFlight
    (capacity : UInt64) (slotCount : Nat)
    (dispatchers : List DispatcherId) :
    (create capacity slotCount dispatchers).SingleFlight := by
  refine
    { owned := fun client => absurd client (create_client (by simp))
      owner := ?_
      holder := fun client => absurd client (create_client (by simp))
      running := ?_
      counted := ?_
      endsOnce :=
        fun client => absurd client (create_client (by simp)) }
  · intro key inflight present
    simp [create, Monitor.create, RingBufferCache.create] at present
  · intro frame running
    simp [create, Monitor.create] at running
  · intro key
    simp [create, Monitor.create, RingBufferCache.create,
      Client.unfinishedLeads, Function.comp_def]

theorem exists_inflight_iff
    (inflightKeys :
      ∀ key,
        (next.monitor.cache.inflightMap key).isSome =
          (world.monitor.cache.inflightMap key).isSome)
    (key : Key) :
    (∃ inflight, next.monitor.cache.inflightMap key = some inflight) ↔
      ∃ inflight,
        world.monitor.cache.inflightMap key = some inflight := by
  rw [← Option.isSome_iff_exists, ← Option.isSome_iff_exists,
    inflightKeys]

/-- A step that leaves the leaders, the keys of inflight responses, the key of
the running finalization and the last leader of every key alone keeps the
invariant. -/
theorem SingleFlight.of_same_leaders
    (flight : world.SingleFlight)
    (leaders :
      ∀ (stream : StreamId) (leader : Leader),
        next.clients[stream]? = some (.leader leader) ↔
          world.clients[stream]? = some (.leader leader))
    (totals :
      ∀ key,
        (next.clients.map (Client.unfinishedLeads key)).sum =
          (world.clients.map (Client.unfinishedLeads key)).sum)
    (inflightKeys :
      ∀ key,
        (next.monitor.cache.inflightMap key).isSome =
          (world.monitor.cache.inflightMap key).isSome)
    (frameKey :
      next.monitor.frame.map FinalizeFrame.key =
        world.monitor.frame.map FinalizeFrame.key)
    (lastLeaders :
      ∀ key,
        next.history.lastLeader key = world.history.lastLeader key) :
    next.SingleFlight := by
  have inflightIff := exists_inflight_iff inflightKeys
  have frameIff :
      ∀ key,
        (∃ frame,
            next.monitor.frame = some frame ∧ frame.key = key) ↔
          ∃ frame,
            world.monitor.frame = some frame ∧ frame.key = key := by
    intro key
    rw [← Option.map_eq_some_iff, frameKey, Option.map_eq_some_iff]
  refine
    { owned := ?_
      owner := ?_
      holder := ?_
      running := ?_
      counted := ?_
      endsOnce := ?_ }
  · intro stream leader client unfinished
    rw [leaders] at client
    rw [inflightIff, lastLeaders]
    exact flight.owned client unfinished
  · intro key inflight present
    obtain ⟨inflight, before⟩ := (inflightIff key).mp ⟨inflight, present⟩
    obtain ⟨stream, leader, last, client, sameKey, unfinished⟩ :=
      flight.owner before
    exact
      ⟨stream, leader, (lastLeaders key).trans last,
        (leaders _ _).mpr client, sameKey, unfinished⟩
  · intro stream leader posts client finalizing
    rw [leaders] at client
    rw [frameIff]
    exact flight.holder client finalizing
  · intro frame running
    obtain ⟨before, beforeRunning, sameKey⟩ :=
      (frameIff frame.key).mp ⟨frame, running, rfl⟩
    obtain ⟨stream, leader, posts, client, leaderKey, finalizing⟩ :=
      flight.running beforeRunning
    exact
      ⟨stream, leader, posts, (leaders _ _).mpr client,
        leaderKey.trans sameKey, finalizing⟩
  · intro key
    rw [totals, inflightKeys]
    exact flight.counted key
  · intro stream leader client
    rw [leaders] at client
    exact flight.endsOnce client

/-- Replacing a stream that is not a leader by one that is not a leader
changes no leader. -/
theorem leaders_update
    {stream : StreamId} {old new : Client}
    (present : world.clients[stream]? = some old)
    (oldOther : ∀ leader, old ≠ .leader leader)
    (newOther : ∀ leader, new ≠ .leader leader)
    (monitor : Monitor) (read : StreamId) (leader : Leader) :
    (world.update stream new monitor).clients[read]? =
        some (.leader leader) ↔
      world.clients[read]? = some (.leader leader) := by
  rw [get_update present]
  by_cases same : read = stream
  · subst same
    simp [present, oldOther, newOther]
  · simp [same]

/-- A stream that is not a leader weighs nothing in a total over leaders. -/
theorem unfinishedLeads_update
    {stream : StreamId} {old new : Client}
    (present : world.clients[stream]? = some old)
    (oldOther : ∀ leader, old ≠ .leader leader)
    (newOther : ∀ leader, new ≠ .leader leader)
    (monitor : Monitor) (key : Key) :
    ((world.update stream new monitor).clients.map
          (Client.unfinishedLeads key)).sum =
      (world.clients.map (Client.unfinishedLeads key)).sum := by
  have zero :
      ∀ client : Client,
        (∀ leader, client ≠ .leader leader) →
          client.unfinishedLeads key = 0 := by
    intro client other
    cases client with
    | leader leader =>
        exact absurd rfl (other leader)
    | start _ =>
        rfl
    | hit _ =>
        rfl
    | follower _ =>
        rfl
  have total :=
    Table.sum_map_set (Client.unfinishedLeads key) new present
  rw [zero old oldOther, zero new newOther] at total
  exact total

/-- A leader that goes on without finishing keeps the invariant: it does not
hold the mutex before, and afterwards it holds it exactly when it has entered
a finalization of its own key. -/
theorem SingleFlight.of_leader_update
    (flight : world.SingleFlight)
    {stream : StreamId} {old new : Leader}
    (client : world.clients[stream]? = some (.leader old))
    (clientsEq :
      next.clients = world.clients.set stream (.leader new))
    (sameKey : new.key = old.key)
    (sameUnfinished : new.unfinished = old.unfinished)
    (once :
      new.log.countP Publish.endStream =
        if new.log.ended then 1 else 0)
    (inflightKeys :
      ∀ key,
        (next.monitor.cache.inflightMap key).isSome =
          (world.monitor.cache.inflightMap key).isSome)
    (lastLeaders :
      ∀ key,
        next.history.lastLeader key = world.history.lastLeader key)
    (oldFree : ∀ posts, old.call ≠ .finalizing posts)
    (newCall :
      ((∀ posts, new.call ≠ .finalizing posts) ∧
          next.monitor.frame = world.monitor.frame) ∨
        ∃ posts frame,
          new.call = .finalizing posts ∧
            new.log.ended = true ∧
              world.monitor.frame = none ∧
                next.monitor.frame = some frame ∧
                  frame.key = new.key) :
    next.SingleFlight := by
  have read :
      ∀ other : StreamId,
        next.clients[other]? =
          if other = stream then some (.leader new)
          else world.clients[other]? := by
    intro other
    rw [clientsEq]
    exact Table.getElem?_set_of_some client (.leader new) other
  have readElsewhere :
      ∀ {other : StreamId} {leader : Leader},
        other ≠ stream →
        next.clients[other]? = some (.leader leader) →
          world.clients[other]? = some (.leader leader) := by
    intro other leader elsewhere found
    simpa [read, elsewhere] using found
  have inflightIff := exists_inflight_iff inflightKeys
  refine
    { owned := ?_
      owner := ?_
      holder := ?_
      running := ?_
      counted := ?_
      endsOnce := ?_ }
  · intro other leader found unfinished
    rw [inflightIff, lastLeaders]
    by_cases same : other = stream
    · subst same
      have sameLeader : new = leader := by simpa [read] using found
      subst leader
      rw [sameKey]
      exact flight.owned client (sameUnfinished ▸ unfinished)
    · exact flight.owned (readElsewhere same found) unfinished
  · intro key inflight present
    obtain ⟨inflight, before⟩ :=
      (inflightIff key).mp ⟨inflight, present⟩
    obtain ⟨other, leader, last, found, leaderKey, unfinished⟩ :=
      flight.owner before
    by_cases same : other = stream
    · subst same
      have sameLeader : old = leader := by simpa [client] using found
      subst leader
      exact
        ⟨other, new, (lastLeaders key).trans last, by simp [read],
          sameKey.trans leaderKey, sameUnfinished.trans unfinished⟩
    · exact
        ⟨other, leader, (lastLeaders key).trans last,
          by simpa [read, same] using found, leaderKey, unfinished⟩
  · intro other leader posts found finalizing
    by_cases same : other = stream
    · subst same
      have sameLeader : new = leader := by simpa [read] using found
      subst leader
      rcases newCall with ⟨free, _⟩ | ⟨_, frame, _, ended, _, entered,
        frameKey⟩
      · exact absurd finalizing (free posts)
      · exact ⟨ended, frame, entered, frameKey⟩
    · have before := readElsewhere same found
      obtain ⟨ended, frame, running, frameKey⟩ :=
        flight.holder before finalizing
      rcases newCall with ⟨_, sameFrame⟩ | ⟨_, _, _, _, released, _⟩
      · exact ⟨ended, frame, sameFrame.trans running, frameKey⟩
      · rw [released] at running
        simp at running
  · intro frame running
    rcases newCall with ⟨_, sameFrame⟩ |
      ⟨posts, entered, finalizing, _, _, enteredEq, frameKey⟩
    · rw [sameFrame] at running
      obtain ⟨other, leader, posts, found, leaderKey, finalizing⟩ :=
        flight.running running
      have elsewhere : other ≠ stream := by
        intro same
        subst same
        have sameLeader : old = leader := by simpa [client] using found
        subst leader
        exact oldFree posts finalizing
      exact
        ⟨other, leader, posts, by simpa [read, elsewhere] using found,
          leaderKey, finalizing⟩
    · rw [enteredEq, Option.some.injEq] at running
      subst running
      exact
        ⟨stream, new, posts, by simp [read], frameKey.symm, finalizing⟩
  · intro key
    have total :=
      Table.sum_map_set (Client.unfinishedLeads key) (.leader new)
        client
    have weight :
        Client.unfinishedLeads key (.leader new) =
          Client.unfinishedLeads key (.leader old) := by
      simp [Client.unfinishedLeads, sameKey, sameUnfinished]
    rw [weight] at total
    rw [clientsEq, inflightKeys, ← flight.counted key]
    exact Nat.add_right_cancel total
  · intro other leader found
    by_cases same : other = stream
    · subst same
      have sameLeader : new = leader := by simpa [read] using found
      subst leader
      exact once
    · exact flight.endsOnce (readElsewhere same found)

/-- A new leader: its key was neither cached nor inflight. -/
theorem SingleFlight.lookupLead
    (flight : world.SingleFlight)
    {stream : StreamId} {dispatcher : DispatcherId} {key : Key}
    (client : world.clients[stream]? = some (.start dispatcher))
    (free : world.monitor.frame = none)
    (missing : world.monitor.cache.inflightMap key = none) :
    SingleFlight
      { world.update stream
          (.leader { key := key, log := [], call := .idle })
          { cache :=
              world.monitor.cache.setInflight key (some {}) } with
        history := .led stream key :: world.history } := by
  have read :=
    get_update client (.leader { key := key, log := [], call := .idle })
      { cache := world.monitor.cache.setInflight key (some {}) }
  have readElsewhere :
      ∀ {other : StreamId} {leader : Leader},
        other ≠ stream →
        (world.update stream
              (.leader { key := key, log := [], call := .idle })
              { cache :=
                  world.monitor.cache.setInflight key
                    (some {}) }).clients[other]? =
            some (.leader leader) →
          world.clients[other]? = some (.leader leader) := by
    intro other leader elsewhere found
    simpa [read, elsewhere] using found
  have otherKey :
      ∀ {other : StreamId} {leader : Leader},
        world.clients[other]? = some (.leader leader) →
        leader.unfinished = true → leader.key ≠ key := by
    intro other leader found unfinished sameKey
    obtain ⟨⟨inflight, present⟩, _⟩ := flight.owned found unfinished
    rw [sameKey, missing] at present
    simp at present
  refine
    { owned := ?_
      owner := ?_
      holder := ?_
      running := ?_
      counted := ?_
      endsOnce := ?_ }
  · intro other leader found unfinished
    by_cases same : other = stream
    · subst same
      have sameLeader :
          ({ key := key, log := [], call := .idle } : Leader) =
            leader := by
        simpa [read] using found
      subst leader
      exact
        ⟨⟨{}, by simp [World.update, setInflight]⟩, by simp⟩
    · have before := readElsewhere same found
      have different := otherKey before unfinished
      obtain ⟨present, last⟩ := flight.owned before unfinished
      refine ⟨?_, ?_⟩
      · simpa [World.update, setInflight, different] using present
      · simpa [Ne.symm different] using last
  · intro other inflight present
    by_cases same : other = key
    · subst same
      exact
        ⟨stream, { key := other, log := [], call := .idle }, by simp,
          by simp [read], rfl, rfl⟩
    · have before :
          world.monitor.cache.inflightMap other = some inflight := by
        simpa [World.update, setInflight, same] using present
      obtain ⟨owner, leader, last, found, leaderKey, unfinished⟩ :=
        flight.owner before
      have elsewhere : owner ≠ stream := by
        intro same
        subst same
        rw [client] at found
        simp at found
      exact
        ⟨owner, leader, by simpa [Ne.symm same] using last,
          by simpa [read, elsewhere] using found, leaderKey,
          unfinished⟩
  · intro other leader posts found finalizing
    by_cases same : other = stream
    · subst same
      have sameLeader :
          ({ key := key, log := [], call := .idle } : Leader) =
            leader := by
        simpa [read] using found
      subst leader
      simp at finalizing
    · obtain ⟨_, frame, running, _⟩ :=
        flight.holder (readElsewhere same found) finalizing
      rw [free] at running
      simp at running
  · intro frame running
    simp [World.update] at running
  · intro other
    have total :=
      Table.sum_map_set (Client.unfinishedLeads other)
        (.leader { key := key, log := [], call := .idle }) client
    have before := flight.counted other
    change
      ((world.clients.set stream _).map
        (Client.unfinishedLeads other)).sum = _
    by_cases same : key = other
    · subst same
      simp only [missing, Option.isSome_none, Bool.false_eq_true,
        if_false] at before
      simp [World.update, setInflight, Client.unfinishedLeads,
        Leader.unfinished, Log.ended] at total ⊢
      omega
    · simp [World.update, setInflight, Client.unfinishedLeads, same,
        Ne.symm same] at total ⊢
      omega
  · intro other leader found
    by_cases same : other = stream
    · subst same
      have sameLeader :
          ({ key := key, log := [], call := .idle } : Leader) =
            leader := by
        simpa [read] using found
      subst leader
      rfl
    · exact flight.endsOnce (readElsewhere same found)

/-- The finalization of a leader ends: the leader is finished and its inflight
response is gone. -/
theorem SingleFlight.finish
    (flight : world.SingleFlight)
    {stream : StreamId} {leader : Leader} {posts : List Closure}
    {cache : RingBufferCache} {cached : Bool}
    (client : world.clients[stream]? = some (.leader leader))
    (finalizing : leader.call = .finalizing posts)
    (erased :
      ∀ key,
        cache.inflightMap key =
          if key = leader.key then none
          else world.monitor.cache.inflightMap key) :
    SingleFlight
      { world.update stream
          (.leader { leader with call := .posting posts })
          { cache := cache } with
        history := .ended stream leader.key cached :: world.history } := by
  have read :=
    get_update client (.leader { leader with call := .posting posts })
      { cache := cache }
  have readElsewhere :
      ∀ {other : StreamId} {found : Leader},
        other ≠ stream →
        (world.update stream
              (.leader { leader with call := .posting posts })
              { cache := cache }).clients[other]? =
            some (.leader found) →
          world.clients[other]? = some (.leader found) := by
    intro other found elsewhere present
    simpa [read, elsewhere] using present
  have ended : leader.log.ended = true :=
    (flight.holder client finalizing).1
  have wasUnfinished : leader.unfinished = true := by
    simp [Leader.unfinished, finalizing]
  have nowFinished :
      Leader.unfinished { leader with call := .posting posts } =
        false := by
    simp [Leader.unfinished, ended]
  have otherKey :
      ∀ {other : StreamId} {found : Leader},
        other ≠ stream →
        world.clients[other]? = some (.leader found) →
        found.unfinished = true → found.key ≠ leader.key := by
    intro other found elsewhere present unfinished sameKey
    have last := (flight.owned present unfinished).2
    rw [sameKey, (flight.owned client wasUnfinished).2] at last
    exact elsewhere (by simpa using last.symm)
  refine
    { owned := ?_
      owner := ?_
      holder := ?_
      running := ?_
      counted := ?_
      endsOnce := ?_ }
  · intro other found present unfinished
    by_cases same : other = stream
    · subst same
      have sameLeader :
          ({ leader with call := .posting posts } : Leader) = found := by
        simpa [read] using present
      subst found
      rw [nowFinished] at unfinished
      simp at unfinished
    · have before := readElsewhere same present
      have different := otherKey same before unfinished
      obtain ⟨inflight, last⟩ := flight.owned before unfinished
      refine ⟨?_, by simpa using last⟩
      simpa [World.update, erased, different] using inflight
  · intro key inflight present
    have different : key ≠ leader.key := by
      intro same
      simp [World.update, erased, same] at present
    have before :
        world.monitor.cache.inflightMap key = some inflight := by
      simpa [World.update, erased, different] using present
    obtain ⟨owner, found, last, ownerClient, ownerKey, unfinished⟩ :=
      flight.owner before
    have elsewhere : owner ≠ stream := by
      intro same
      subst same
      have sameLeader : leader = found := by
        simpa [client] using ownerClient
      subst found
      exact different ownerKey.symm
    exact
      ⟨owner, found, by simpa using last,
        by simpa [read, elsewhere] using ownerClient, ownerKey,
        unfinished⟩
  · intro other found otherPosts present otherFinalizing
    by_cases same : other = stream
    · subst same
      have sameLeader :
          ({ leader with call := .posting posts } : Leader) = found := by
        simpa [read] using present
      subst found
      simp at otherFinalizing
    · have before := readElsewhere same present
      have unfinished : found.unfinished = true := by
        simp [Leader.unfinished, otherFinalizing]
      obtain ⟨_, frame, running, frameKey⟩ :=
        flight.holder before otherFinalizing
      obtain ⟨_, ownFrame, ownRunning, ownKey⟩ :=
        flight.holder client finalizing
      rw [running, Option.some.injEq] at ownRunning
      subst ownFrame
      exact
        absurd (frameKey.symm.trans ownKey)
          (otherKey same before unfinished)
  · intro frame running
    simp [World.update] at running
  · intro key
    have total :=
      Table.sum_map_set (Client.unfinishedLeads key)
        (.leader { leader with call := .posting posts }) client
    have before := flight.counted key
    change
      ((world.clients.set stream _).map
        (Client.unfinishedLeads key)).sum = _
    obtain ⟨⟨inflight, present⟩, _⟩ :=
      flight.owned client wasUnfinished
    by_cases same : leader.key = key
    · subst same
      simp only [present, Option.isSome_some, if_true] at before
      simp [World.update, erased, Client.unfinishedLeads, wasUnfinished,
        nowFinished] at total ⊢
      omega
    · simp [World.update, erased, Client.unfinishedLeads, same,
        Ne.symm same] at total ⊢
      omega
  · intro other found present
    by_cases same : other = stream
    · subst same
      have sameLeader :
          ({ leader with call := .posting posts } : Leader) = found := by
        simpa [read] using present
      subst found
      have once := flight.endsOnce client
      exact once
    · exact flight.endsOnce (readElsewhere same present)

/-- Replacing an inflight response keeps the set of inflight keys. -/
theorem isSome_setInflight
    {cache : RingBufferCache} {key : Key} {inflight : Inflight}
    (present : cache.inflightMap key = some inflight)
    (replacement : Inflight) (other : Key) :
    ((cache.setInflight key (some replacement)).inflightMap
        other).isSome =
      (cache.inflightMap other).isSome := by
  by_cases same : other = key
  · subst same
    simp [setInflight, present]
  · simp [setInflight, same]

theorem isSome_removeWaiterLocked
    (cache : RingBufferCache) (key : Key) (waiterAddr : Nat)
    (other : Key) :
    ((cache.removeWaiterLocked key waiterAddr).inflightMap
        other).isSome =
      (cache.inflightMap other).isSome := by
  rcases removeWaiterLocked_cache cache key waiterAddr with
    same | ⟨inflight, replaced, present, same⟩
  · rw [same]
  · rw [same]
    exact isSome_setInflight present replaced other

/-- The end of a finalization erases the inflight response of its key. -/
theorem completeFinalize_inflightMap
    {cache after : RingBufferCache} {key : Key} {result : Bool}
    (completed : cache.completeFinalize key result = .ok after)
    (other : Key) :
    after.inflightMap other =
      if other = key then none else cache.inflightMap other := by
  obtain ⟨inflight, present, ⟨_, rfl⟩ | ⟨_, headers, _, _, rfl⟩⟩ :=
    completeFinalize_eq_ok_iff.mp completed
  · simp [setInflight, Function.update_apply]
  · simp [setInflight, withHead, Function.update_apply]

theorem countP_endStream_append
    {log : Log}
    (once :
      log.countP Publish.endStream = if log.ended then 1 else 0)
    (notEnded : log.ended = false) (call : Publish) :
    (log ++ [call]).countP Publish.endStream =
      if Log.ended (log ++ [call]) then 1 else 0 := by
  rw [List.countP_append, once, Log.ended_append, notEnded]
  cases ends : call.endStream <;> simp [ends]

/-- Every step in which leaders publish in order keeps the invariant. -/
theorem SingleFlight.step
    (flight : world.SingleFlight)
    {action : Action} (effect : Effect world action next)
    (orderly : world.leaderCalls Log.orderly action = true) :
    next.SingleFlight := by
  cases effect with
  | lookupHit client free mapped read =>
      exact
        flight.of_same_leaders
          (leaders_update client (by simp) (by simp) _)
          (unfinishedLeads_update client (by simp) (by simp) _)
          (fun _ => rfl) (by rw [free]; rfl) (fun _ => rfl)
  | lookupLead client free unmapped missing =>
      exact flight.lookupLead client free missing
  | lookupFollow client free unmapped present headersFirst =>
      exact
        flight.of_same_leaders
          (leaders_update client (by simp) (by simp) world.monitor)
          (unfinishedLeads_update client (by simp) (by simp)
            world.monitor)
          (isSome_setInflight present _) (by rw [free]; rfl)
          (fun _ => rfl)
  | copyHeaders client stage read =>
      exact
        flight.of_same_leaders
          (leaders_update client (by simp) (by simp) _)
          (unfinishedLeads_update client (by simp) (by simp) _)
          (fun _ => rfl) rfl (fun _ => rfl)
  | handOutEmpty client stage empty read =>
      exact
        flight.of_same_leaders
          (leaders_update client (by simp) (by simp) _)
          (unfinishedLeads_update client (by simp) (by simp) _)
          (fun _ => rfl) rfl (fun _ => rfl)
  | handOutBody client stage nonempty =>
      exact
        flight.of_same_leaders
          (leaders_update client (by simp) (by simp) _)
          (unfinishedLeads_update client (by simp) (by simp) _)
          (fun _ => rfl) rfl (fun _ => rfl)
  | release client stage read =>
      exact
        flight.of_same_leaders
          (leaders_update client (by simp) (by simp) _)
          (unfinishedLeads_update client (by simp) (by simp) _)
          (fun _ => rfl) rfl (fun _ => rfl)
  | publishLost client idle free missing =>
      exact
        absurd missing
          (flight.publish_finds client
            (permits_of_leaderCalls client orderly))
  | @publishOpen stream leader call inflight client idle free present
      stays =>
      have notEnded :=
        Log.not_ended_of_orderly (permits_of_leaderCalls client orderly)
      refine
        flight.of_leader_update client rfl rfl ?_
          (countP_endStream_append (flight.endsOnce client) notEnded call)
          (isSome_setInflight present _) (fun _ => rfl) (by simp [idle])
          (Or.inl ⟨by simp, by simp [World.update, free]⟩)
      simp [Leader.unfinished, notEnded, stays]
  | @publishEnd stream leader call inflight headers client idle free
      present ends stored =>
      have notEnded :=
        Log.not_ended_of_orderly (permits_of_leaderCalls client orderly)
      refine
        flight.of_leader_update client rfl rfl ?_
          (countP_endStream_append (flight.endsOnce client) notEnded call)
          (isSome_setInflight present _) (fun _ => rfl) (by simp [idle])
          (Or.inr ⟨_, _, rfl, ?_, free, rfl, rfl⟩)
      · simp [Leader.unfinished, notEnded]
      · simp [ends]
  | scan client finalizing running iterated =>
      have inflightSame := (scanIteration_frame iterated).2.2.1
      exact
        flight.of_same_leaders (fun _ _ => Iff.rfl) (fun _ => rfl)
          (fun _ => by rw [inflightSame]) (by rw [running]; rfl)
          (fun _ => by simp)
  | @finish stream leader posts frame result cache client finalizing
      running atReturn completed =>
      obtain ⟨_, other, otherRunning, frameKey⟩ :=
        flight.holder client finalizing
      rw [running, Option.some.injEq] at otherRunning
      subst other
      refine flight.finish client finalizing ?_
      intro key
      rw [← frameKey]
      exact completeFinalize_inflightMap completed key
  | post client posting =>
      have once := flight.endsOnce client
      exact
        flight.of_leader_update client rfl rfl
          (by simp [Leader.unfinished, posting]) once (fun _ => rfl)
          (fun _ => rfl)
          (by simp [posting]) (Or.inl ⟨by simp, rfl⟩)
  | return_ client posting =>
      have once := flight.endsOnce client
      exact
        flight.of_leader_update client rfl rfl
          (by simp [Leader.unfinished, posting]) once (fun _ => rfl)
          (fun _ => rfl)
          (by simp [posting]) (Or.inl ⟨by simp, rfl⟩)
  | runCancelled queued cancelled =>
      exact
        flight.of_same_leaders (fun _ _ => Iff.rfl) (fun _ => rfl)
          (fun _ => rfl) rfl (fun _ => rfl)
  | run queued live =>
      exact
        flight.of_same_leaders (fun _ _ => Iff.rfl) (fun _ => rfl)
          (fun _ => rfl) rfl (fun _ => rfl)
  | cancel client =>
      exact
        flight.of_same_leaders (fun _ _ => Iff.rfl) (fun _ => rfl)
          (fun _ => rfl) rfl (fun _ => rfl)
  | removeWaiter client cancelled free =>
      exact
        flight.of_same_leaders (fun _ _ => Iff.rfl) (fun _ => rfl)
          (isSome_removeWaiterLocked _ _ _) (by rw [free])
          (fun _ => rfl)

end World

end RingCache

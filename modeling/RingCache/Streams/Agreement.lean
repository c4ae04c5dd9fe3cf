import RingCache.Streams.Refinement

/-!
# Sharers of a response agree

Followers of a leader and hits on what it has published share one response,
each as far as it has come.  At any two moments of a run, what one sharer has
and what another has are parts of the same response: their headers are the
same, one body is a beginning of the other, and a sharer that has the end has
all that any other has.
-/

namespace RingCache

open Transition RingBufferCache

/-- The headers an event carries. -/
def Event.headers? : Event → Option ResponseHeaderMap
  | .encodeHeaders headers _ _ => some headers
  | .encodeData _ _ => none

namespace ExactDelivery

variable {log : Log} {events : List Event}

theorem findSome?_headers (exact : ExactDelivery log events) :
    events.findSome? Event.headers? = log.headers? := by
  cases stored : log.headers? with
  | none =>
      rw [exact.silent stored]
      rfl
  | some headers =>
      obtain ⟨ends, details, rest, eventsEq, _⟩ :=
        exact.headersOnce headers stored
      rw [eventsEq]
      rfl

theorem ended_of_any
    (exact : ExactDelivery log events)
    (ends : events.any Event.endStream = true) :
    log.ended = true := by
  by_contra unended
  obtain ⟨event, member, eventEnds⟩ := List.any_eq_true.mp ends
  have stays :=
    exact.open_of_not_ended (Bool.eq_false_iff.mpr unended) member
  rw [stays] at eventEnds
  simp at eventEnds

end ExactDelivery

/-! ## Portions of a response -/

/-- What somebody has who has come as far as the first `count` calls of a
log. -/
structure Portion
    (log : Log) (count : Nat) (headers : Option ResponseHeaderMap)
    (body : Bytes) (complete : Bool) : Prop where
  within : count ≤ log.length
  headers :
    ∀ found, headers = some found → log.headers? = some found
  body : body = Log.body (log.take count)
  complete : complete = true → Log.ended (log.take count) = true

namespace Portion

variable {log longer : Log} {count other : Nat}
variable {headers otherHeaders : Option ResponseHeaderMap}
variable {body otherBody : Bytes} {complete otherComplete : Bool}

/-- A portion of a response is a portion of what it grows to. -/
theorem extend
    (portion : Portion log count headers body complete)
    (extended : log <+: longer) :
    Portion longer count headers body complete := by
  obtain ⟨rest, rfl⟩ := extended
  have sameTake : (log ++ rest).take count = log.take count :=
    List.take_append_of_le_length portion.within
  refine
    { within := ?_
      headers := ?_
      body := ?_
      complete := ?_ }
  · rw [List.length_append]
    exact Nat.le_add_right_of_le portion.within
  · intro found present
    exact
      (List.prefix_append log rest).findSome?_eq_some
        (portion.headers found present)
  · rw [sameTake]
    exact portion.body
  · rw [sameTake]
    exact portion.complete

theorem body_prefix
    (first : Portion log count headers body complete)
    (second : Portion log other otherHeaders otherBody otherComplete)
    (behind : count ≤ other) :
    body <+: otherBody := by
  rw [first.body, second.body]
  exact (List.take_prefix_take_left behind).flatMap Publish.bytes

/-- Whoever has the end has all that others have. -/
theorem body_prefix_of_complete
    (closed :
      ∀ {taken : Nat},
        Log.ended (log.take taken) = true → log.length ≤ taken)
    (first : Portion log count headers body complete)
    (second : Portion log other otherHeaders otherBody otherComplete)
    (ends : otherComplete = true) :
    body <+: otherBody := by
  refine first.body_prefix second ?_
  exact Nat.le_trans first.within (closed (second.complete ends))

end Portion

namespace World

variable {world next : World}
variable {state : Coalescing.State Key StreamId Publish}

/-! ## What sharers have -/

/-- What a stream has of the response of `source`: a follower what has been
executed on its callbacks, a hit the headers that it has copied and the body
of the entry that it has pinned. -/
inductive Shares (world : World) (stream source : StreamId) :
    Option ResponseHeaderMap → Bytes → Bool → Prop
  | follower
      {follower : Follower}
      (client : world.clients[stream]? = some (.follower follower))
      (joined : follower.leader = some source) :
      Shares world stream source
        ((world.delivered stream).findSome? Event.headers?)
        ((world.delivered stream).flatMap Event.bytes)
        ((world.delivered stream).any Event.endStream)
  | hit
      {lookup : HitLookup} {entry : Entry}
      (client : world.clients[stream]? = some (.hit lookup))
      (served : lookup.source = some source)
      (read : world.monitor.cache.entryAt lookup.entry = some entry) :
      Shares world stream source lookup.stage.headers? entry.body true

variable {stream source : StreamId}
variable {headers : Option ResponseHeaderMap} {body : Bytes}
variable {complete : Bool}

/-- A sharer has a portion of what the abstract state says its source has
published. -/
theorem Shares.portion
    (shares : world.Shares stream source headers body complete)
    (represents : world.Represents state) (holds : world.Holds state)
    (wellFormed : Coalescing.WellFormed Log.ended state) :
    (∃ key, state.role source = .leader key) ∧
      ∃ count,
        Portion (state.published source) count headers body
          complete := by
  cases shares with
  | @follower follower client joined =>
      obtain ⟨named, role, received⟩ := holds.followers client
      have sameSource : source = named := by
        have sameRole :=
          (represents.names.role client).symm.trans role
        simpa [Client.role, joined] using sameRole
      subst sameSource
      obtain ⟨leads, within⟩ := wellFormed.followers role
      refine ⟨⟨_, leads⟩, state.seen stream, ?_⟩
      refine
        { within := within
          headers := ?_
          body := received.body
          complete := received.ended_of_any }
      intro found present
      rw [received.findSome?_headers] at present
      exact (List.take_prefix _ _).findSome?_eq_some present
  | @hit lookup entry client served read =>
      obtain ⟨named, role, _, copied, resident⟩ := holds.hits client
      have sameSource : source = named := by
        have sameRole :=
          (represents.names.role client).symm.trans role
        simpa [Client.role, served] using sameRole
      subst sameSource
      obtain ⟨leads, ended⟩ := wellFormed.hits role
      obtain ⟨sameAddr, position, atPosition⟩ := entryAt_eq_some read
      refine ⟨⟨_, leads⟩, (state.published source).length, ?_⟩
      refine
        { within := Nat.le_refl _
          headers := copied
          body := ?_
          complete := ?_ }
      · rw [List.take_length]
        exact (resident atPosition sameAddr).2.symm
      · rw [List.take_length]
        exact fun _ => ended

section Reachable

variable {capacity : UInt64} {slotCount : Nat}
variable {dispatchers : List DispatcherId}

/-- Two streams that share the response of one leader, at the same or at two
different moments of a run in which leaders keep their call contract, have the
same headers and bodies of which one is a beginning of the other, and whoever
has the end has all that the other has. -/
theorem sharersAgree
    (reachable :
      Reachable step (create capacity slotCount dispatchers)
        (LeadersCall Log.contract) world)
    (continued :
      Reachable step world (LeadersCall Log.contract) next)
    {first second source : StreamId}
    {firstHeaders secondHeaders : Option ResponseHeaderMap}
    {firstBody secondBody : Bytes}
    {firstComplete secondComplete : Bool}
    (early :
      world.Shares first source firstHeaders firstBody firstComplete)
    (late :
      next.Shares second source secondHeaders secondBody
        secondComplete) :
    (∀ one other,
        firstHeaders = some one →
        secondHeaders = some other →
          one = other) ∧
      (firstBody <+: secondBody ∨ secondBody <+: firstBody) ∧
        (firstComplete = true → secondBody <+: firstBody) ∧
          (secondComplete = true → firstBody <+: secondBody) := by
  obtain ⟨state, reached, represents⟩ :=
    represents_of_reachable Reachable.start
      (create_represents capacity slotCount dispatchers) reachable
  obtain ⟨later, moved, laterRepresents⟩ :=
    represents_of_reachable reachable represents continued
  have laterReached : Coalescing.Reached Log.ended later :=
    Relation.ReflTransGen.trans reached moved
  obtain ⟨⟨key, leads⟩, count, earlyPortion⟩ :=
    early.portion represents (holds_of_reachable reachable represents)
      (Coalescing.Reached.wellFormed reached)
  obtain ⟨_, otherCount, latePortion⟩ :=
    late.portion laterRepresents
      (holds_of_reachable (reachable.trans continued) laterRepresents)
      laterReached.wellFormed
  have grown := (Coalescing.extends_of_steps moved).published leads
  replace earlyPortion := earlyPortion.extend grown
  refine ⟨?_, ?_, ?_, ?_⟩
  · intro one other oneHeaders otherHeaders
    have sameHeaders :=
      (earlyPortion.headers one oneHeaders).symm.trans
        (latePortion.headers other otherHeaders)
    exact Option.some.inj sameHeaders
  · rcases Nat.le_total count otherCount with behind | ahead
    · exact Or.inl (earlyPortion.body_prefix latePortion behind)
    · exact Or.inr (latePortion.body_prefix earlyPortion ahead)
  · intro ends
    exact
      latePortion.body_prefix_of_complete laterReached.closed
        earlyPortion ends
  · intro ends
    exact
      earlyPortion.body_prefix_of_complete laterReached.closed
        latePortion ends

end Reachable

/-- In `coalescedRun` a follower has the headers of the response, which a hit
of `servedRun` has with the whole body. -/
theorem sharersAgree_servedRun :
    ∃ world next,
      checkedRun step
            (fun world action _ =>
              world.leaderCalls Log.contract action)
            (create 9 1 [0, 1, 0, 1]) coalescedRun =
          some world ∧
        checkedRun step
              (fun world action _ =>
                world.leaderCalls Log.contract action)
              world servedRun =
            some next ∧
          world.Shares 2 0 (some [([2], [3])]) [] false ∧
            next.Shares 3 0 (some [([2], [3])]) [4] true ∧
              (true = true → ([] : Bytes) <+: [4]) := by
  obtain ⟨world, next, ran, continued, follows, received, hits, read⟩ :
      ∃ world next,
        checkedRun step
              (fun world action _ =>
                world.leaderCalls Log.contract action)
              (create 9 1 [0, 1, 0, 1]) coalescedRun =
            some world ∧
          checkedRun step
                (fun world action _ =>
                  world.leaderCalls Log.contract action)
                world servedRun =
              some next ∧
            world.clients[2]? =
                some (.follower
                  { key := [1]
                    waiter := waiterOf 2 0
                    leader := some 0 }) ∧
              world.delivered 2 =
                  [.encodeHeaders [([2], [3])] false
                    .coalescedBackfill] ∧
                next.clients[3]? =
                    some (.hit
                      { key := [1]
                        entry := 0
                        bodyLength := 1
                        stage := .copied [([2], [3])]
                        slot := some 0
                        snapshot :=
                          some
                            { addr := 0
                              key := [1]
                              headers := [([2], [3])]
                              body := [4]
                              pins := 0 }
                        source := some 0 }) ∧
                  next.monitor.cache.entryAt 0 =
                    some
                      { addr := 0
                        key := [1]
                        headers := [([2], [3])]
                        body := [4]
                        pins := 1 } :=
    ⟨_, _, rfl, rfl, rfl, rfl, rfl, rfl⟩
  have early : world.Shares 2 0 (some [([2], [3])]) [] false := by
    have shares := Shares.follower follows rfl
    rw [received] at shares
    exact shares
  have late : next.Shares 3 0 (some [([2], [3])]) [4] true :=
    Shares.hit hits rfl read
  exact
    ⟨world, next, ran, continued, early, late,
      (sharersAgree
        (Reachable.of_checkedRun (fun _ _ _ checked => checked)
          Reachable.start ran)
        (Reachable.of_checkedRun (fun _ _ _ checked => checked)
          Reachable.start continued)
        early late).2.2.2⟩

end World

end RingCache

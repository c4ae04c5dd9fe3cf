import RingCache.Streams.Spool

/-!
# The events of a published response

`ExactDelivery log events` says that `events` are the response whose publish
calls so far are `log`, whatever its chunking.  It holds of nothing published,
of the backfill of an inflight response, and it is kept when one more publish
and its event are appended.
-/

namespace RingCache

open RingBufferCache

namespace Event

def endStream : Event → Bool
  | .encodeHeaders _ ends _ => ends
  | .encodeData _ ends => ends

/-- The body bytes an event carries. -/
def bytes : Event → Bytes
  | .encodeHeaders _ _ _ => []
  | .encodeData chunk _ => chunk

def isData : Event → Bool
  | .encodeHeaders _ _ _ => false
  | .encodeData _ _ => true

end Event

/-- The event a publish causes at a waiter. -/
def Publish.event : Publish → Event
  | .headers published ends => .encodeHeaders published ends .coalesced
  | .data chunk ends => .encodeData chunk ends

/-- The call contract of a leader: headers once and first, then data, nothing
after the end. -/
def Log.contract (log : Log) : Publish → Bool
  | .headers _ _ => log.isEmpty
  | .data _ _ => log.headers?.isSome && !log.ended

theorem Log.orderly_of_contract
    {log : Log} {call : Publish}
    (permitted : log.contract call = true) :
    log.orderly call = true := by
  cases call with
  | headers published ends =>
      have empty : log = [] := by
        simpa [Log.contract] using permitted
      subst empty
      rfl
  | data chunk ends =>
      simpa [Log.contract, Log.orderly, Bool.and_comm] using permitted

/-- The events are the published part of a response: nothing before its
headers, then the headers once, then all bytes published so far, with
`end_stream` on the last event exactly if the response has ended. -/
structure ExactDelivery (log : Log) (events : List Event) : Prop where
  silent : log.headers? = none → events = []
  headersOnce :
    ∀ headers,
      log.headers? = some headers →
        ∃ ends details rest,
          events = .encodeHeaders headers ends details :: rest ∧
            ∀ event ∈ rest, event.isData = true
  body : events.flatMap Event.bytes = log.body
  openBefore : ∀ event ∈ events.dropLast, event.endStream = false
  endLast :
    ∀ event,
      events.getLast? = some event → event.endStream = log.ended

namespace ExactDelivery

/-- While a response has not ended no event ends the stream. -/
theorem open_of_not_ended
    {log : Log} {events : List Event}
    (exact : ExactDelivery log events) (notEnded : log.ended = false)
    {event : Event} (member : event ∈ events) :
    event.endStream = false := by
  have nonempty : events ≠ [] := List.ne_nil_of_mem member
  rw [← List.dropLast_concat_getLast nonempty, List.mem_append,
    List.mem_singleton] at member
  rcases member with earlier | last
  · exact exact.openBefore event earlier
  · rw [exact.endLast event
      (last ▸ List.getLast?_eq_some_getLast nonempty)]
    exact notEnded

/-- Nothing follows an event that ends the stream. -/
theorem nothing_after_end
    {log : Log} {before after : List Event}
    (exact : ExactDelivery log (before ++ after))
    (ended : before.any Event.endStream = true) :
    after = [] := by
  by_contra nonempty
  obtain ⟨event, member, ends⟩ := List.any_eq_true.mp ended
  have earlier : event ∈ (before ++ after).dropLast := by
    rw [List.dropLast_append_of_ne_nil nonempty]
    exact List.mem_append_left _ member
  rw [exact.openBefore event earlier] at ends
  simp at ends

/-- A response that has ended ends the stream once. -/
theorem countP_endStream
    {log : Log} {events : List Event}
    (exact : ExactDelivery log events) (ended : log.ended = true)
    (published : log.headers?.isSome = true) :
    events.countP Event.endStream = 1 := by
  obtain ⟨headers, stored⟩ := Option.isSome_iff_exists.mp published
  obtain ⟨ends, details, rest, eventsEq, _⟩ :=
    exact.headersOnce headers stored
  have nonempty : events ≠ [] := by
    rw [eventsEq]
    simp
  have last :=
    exact.endLast _ (List.getLast?_eq_some_getLast nonempty)
  have earlier : events.dropLast.countP Event.endStream = 0 := by
    rw [List.countP_eq_zero]
    intro event member
    simp [exact.openBefore event member]
  rw [← List.dropLast_concat_getLast nonempty, List.countP_append,
    earlier, List.countP_singleton, last, ended]
  rfl

/-- The event of one more publish. -/
theorem append
    {log : Log} {events : List Event}
    (exact : ExactDelivery log events) {call : Publish}
    (permitted : log.contract call = true) :
    ExactDelivery (log ++ [call]) (events ++ [call.event]) := by
  have notEnded : log.ended = false :=
    Log.not_ended_of_orderly (Log.orderly_of_contract permitted)
  cases call with
  | headers published ends =>
      have empty : log = [] := by
        simpa [Log.contract] using permitted
      subst empty
      have none : events = [] := exact.silent rfl
      subst none
      refine
        { silent := ?_
          headersOnce := ?_
          body := ?_
          openBefore := ?_
          endLast := ?_ }
      · simp [Log.headers?, Publish.headers?]
      · intro headers stored
        have same : published = headers := by
          simpa [Log.headers?, Publish.headers?] using stored
        subst same
        exact ⟨ends, .coalesced, [], rfl, by simp⟩
      · simp [Log.body, Publish.bytes, Publish.event, Event.bytes]
      · simp
      · intro event last
        have same : Publish.event (.headers published ends) = event := by
          simpa using last
        subst same
        simp [Log.ended, Publish.event, Event.endStream,
          Publish.endStream]
  | data chunk ends =>
      have hasHeaders : log.headers?.isSome = true := by
        simp only [Log.contract, Bool.and_eq_true] at permitted
        exact permitted.1
      obtain ⟨stored, storedEq⟩ := Option.isSome_iff_exists.mp hasHeaders
      refine
        { silent := ?_
          headersOnce := ?_
          body := ?_
          openBefore := ?_
          endLast := ?_ }
      · simp [storedEq]
      · intro headers found
        have same : log.headers? = some headers := by
          simpa [storedEq] using found
        obtain ⟨firstEnds, details, rest, eventsEq, onlyData⟩ :=
          exact.headersOnce headers same
        refine
          ⟨firstEnds, details, rest ++ [.encodeData chunk ends], ?_, ?_⟩
        · rw [eventsEq]
          rfl
        · intro event member
          rcases List.mem_append.mp member with earlier | last
          · exact onlyData event earlier
          · rw [List.mem_singleton] at last
            rw [last]
            rfl
      · rw [List.flatMap_append, exact.body, Log.body_append]
        simp [Publish.event, Event.bytes, Publish.bytes]
      · rw [List.dropLast_concat]
        intro event member
        exact exact.open_of_not_ended notEnded member
      · intro event last
        have same : Publish.event (.data chunk ends) = event := by
          simpa using last
        subst same
        simp [notEnded, Publish.event, Event.endStream,
          Publish.endStream]

/-- The backfill of a response that has not ended. -/
theorem backfill
    {log : Log} {inflight : Inflight}
    (headersEq : inflight.headers = log.headers?)
    (bodyEq : inflight.body = log.body)
    (headersFirst : log.headers? = none → log = [])
    (notEnded : log.ended = false) (waiter : Waiter) :
    ExactDelivery log
      ((backfillPosts inflight waiter).flatMap Closure.calls) := by
  unfold backfillPosts
  cases stored : inflight.headers with
  | none =>
      rw [headersEq] at stored
      have empty := headersFirst stored
      subst empty
      exact
        { silent := fun _ => rfl
          headersOnce := by simp [Log.headers?]
          body := rfl
          openBefore := by simp
          endLast := by simp }
  | some headers =>
      rw [headersEq] at stored
      simp only [List.flatMap_cons, List.flatMap_nil, List.append_nil,
        Closure.calls, bodyEq]
      refine
        { silent := ?_
          headersOnce := ?_
          body := ?_
          openBefore := ?_
          endLast := ?_ }
      · simp [stored]
      · intro other found
        have same : headers = other := by simpa [stored] using found
        subst same
        refine ⟨false, .coalescedBackfill, _, rfl, ?_⟩
        intro event member
        split at member
        · rw [List.mem_singleton] at member
          rw [member]
          rfl
        · simp at member
      · by_cases nonempty : 0 < log.body.length
        · simp [nonempty, Event.bytes]
        · have empty : log.body = [] := by
            simpa using nonempty
          simp [empty, Event.bytes]
      · intro event member
        split at member
        · have same : event = .encodeHeaders headers false
              .coalescedBackfill := by
            simpa using member
          rw [same]
          rfl
        · simp at member
      · intro event last
        rw [notEnded]
        split at last
        · have same : Event.encodeData log.body false = event := by
            simpa using last
          rw [← same]
          rfl
        · have same :
              Event.encodeHeaders headers false .coalescedBackfill =
                event := by
            simpa using last
          rw [← same]
          rfl

end ExactDelivery

end RingCache

import RingCache.Cache.Operations
import RingCache.Library.Transition

/-!
# What each operation of the cache can do

One inversion theorem for each operation: if the operation returns, then its
guards held and its result is the stated one.  Later modules use these and do
not unfold the operations.
-/

namespace RingCache

open Transition

theorem assertThat_eq_ok_iff
    {condition : Bool} {assertion : Assertion} {result : Unit} :
    assertThat condition assertion = .ok result ↔ condition = true := by
  unfold assertThat
  cases condition <;> simp

theorem Inflight.size_eq_ok_iff
    {inflight : Inflight} {size : UInt64} :
    inflight.size = .ok size ↔
      ∃ headers,
        inflight.headers = some headers ∧
          size =
            UInt64.ofNat headers.length +
              UInt64.ofNat inflight.body.length := by
  unfold Inflight.size
  cases inflight.headers with
  | none =>
      simp
  | some headers =>
      simp [eq_comm]

namespace RingBufferCache

variable {cache next : RingBufferCache}

/-! ## Eviction and insertion -/

theorem evictHeadLocked_eq_ok_iff :
    cache.evictHeadLocked = .ok next ↔
      ∃ entry,
        cache.Resident cache.head entry ∧
          entry.pins = 0 ∧ next = cache.withoutHead entry := by
  unfold evictHeadLocked Resident
  split
  · next missing =>
      simp [missing]
  · next vacant =>
      simp [vacant]
  · next entry occupied =>
      simp only [bind_eq_ok_iff, assertThat_eq_ok_iff,
        decide_eq_true_eq, occupied, Option.some.injEq]
      constructor
      · intro outcome
        rcases outcome with ⟨_, unpinned, returned⟩
        have same : cache.withoutHead entry = next := by
          simpa [pure, Except.pure] using returned
        exact ⟨entry, rfl, unpinned, same.symm⟩
      · intro outcome
        rcases outcome with ⟨other, rfl, unpinned, rfl⟩
        exact ⟨(), unpinned, rfl⟩

/-- The three kinds of slot the eviction loop can meet. -/
theorem tryEvictHead_eq_ok_iff :
    cache.tryEvictHead = .ok next ↔
      (cache.slots[cache.head]? = some none ∧ next = cache) ∨
        (∃ entry,
          cache.Resident cache.head entry ∧
            entry.pins ≠ 0 ∧ next = cache) ∨
          ∃ entry,
            cache.Resident cache.head entry ∧
              entry.pins = 0 ∧ next = cache.withoutHead entry := by
  unfold tryEvictHead
  split
  · next missing =>
      simp [Resident, missing]
  · next vacant =>
      simp [Resident, vacant, eq_comm]
  · next entry occupied =>
      by_cases unpinned : entry.pins = 0
      · rw [if_pos unpinned, evictHeadLocked_eq_ok_iff]
        simp [Resident, occupied, unpinned]
      · rw [if_neg unpinned]
        simp [Resident, occupied, unpinned, eq_comm]

theorem insertEntryLocked_eq_ok_iff
    {key : Key} {headers : Option ResponseHeaderMap} {body : Bytes} :
    cache.insertEntryLocked key headers body = .ok next ↔
      ∃ stored,
        headers = some stored ∧
          cache.slots[cache.head]? = some none ∧
            next = cache.withHead (cache.newEntry key stored body) := by
  unfold insertEntryLocked
  split
  · next missing =>
      simp [missing]
  · next entry occupied =>
      simp [occupied]
  · next vacant =>
      cases headers with
      | none =>
          simp
      | some stored =>
          simp [vacant, eq_comm]

/-- The iterations of the first loop. -/
theorem scanIteration_evicting_eq_ok_iff
    {sizeNeeded : UInt64} {start : Nat} {point : ScanPoint} :
    cache.scanIteration sizeNeeded (.evicting start) =
        .ok (next, point) ↔
      (¬ cache.freeSize < sizeNeeded ∧
          next = cache ∧ point = .seeking cache.head) ∨
        (cache.freeSize < sizeNeeded ∧
          ∃ evicted,
            cache.tryEvictHead = .ok evicted ∧
              next = evicted.advanceHead ∧
                point =
                  if start = next.head ∧ next.freeSize < sizeNeeded then
                    .returned false
                  else
                    .evicting start) := by
  rw [scanIteration]
  by_cases short : cache.freeSize < sizeNeeded
  · rw [if_pos short, bind_eq_ok_iff]
    simp only [short, not_true_eq_false, false_and, true_and, false_or]
    constructor
    · intro outcome
      rcases outcome with ⟨evicted, tried, returned⟩
      by_cases lost :
          start = evicted.advanceHead.head ∧
            evicted.advanceHead.freeSize < sizeNeeded
      · rw [if_pos lost] at returned
        cases returned
        exact ⟨evicted, tried, rfl, by rw [if_pos lost]⟩
      · rw [if_neg lost] at returned
        cases returned
        exact ⟨evicted, tried, rfl, by rw [if_neg lost]⟩
    · intro outcome
      rcases outcome with ⟨evicted, tried, rfl, rfl⟩
      refine ⟨evicted, tried, ?_⟩
      by_cases lost :
          start = evicted.advanceHead.head ∧
            evicted.advanceHead.freeSize < sizeNeeded
      · rw [if_pos lost, if_pos lost]
        rfl
      · rw [if_neg lost, if_neg lost]
        rfl
  · rw [if_neg short]
    simp only [short, not_false_eq_true, true_and, false_and, or_false,
      Except.ok.injEq, Prod.mk.injEq]
    constructor
    · intro outcome
      rcases outcome with ⟨rfl, rfl⟩
      exact ⟨rfl, rfl⟩
    · intro outcome
      rcases outcome with ⟨rfl, rfl⟩
      exact ⟨rfl, rfl⟩

/-- The iterations of the second loop. -/
theorem scanIteration_seeking_eq_ok_iff
    {sizeNeeded : UInt64} {startSlot : Nat} {point : ScanPoint} :
    cache.scanIteration sizeNeeded (.seeking startSlot) =
        .ok (next, point) ↔
      (cache.slots[cache.head]? = some none ∧
          next = cache ∧ point = .returned true) ∨
        ((∃ entry, cache.Resident cache.head entry) ∧
          next = cache.advanceHead ∧
            point =
              if next.head = startSlot then
                .returned false
              else
                .seeking startSlot) := by
  rw [scanIteration]
  unfold Resident
  split
  · next missing =>
      simp [missing]
  · next entry occupied =>
      simp only [occupied, reduceCtorEq, Option.some.injEq, false_and,
        exists_eq', true_and, false_or]
      by_cases wrapped : cache.advanceHead.head = startSlot
      · rw [if_pos wrapped]
        simp only [Except.ok.injEq, Prod.mk.injEq]
        constructor
        · intro outcome
          rcases outcome with ⟨rfl, rfl⟩
          exact ⟨rfl, by rw [if_pos wrapped]⟩
        · intro outcome
          rcases outcome with ⟨rfl, rfl⟩
          exact ⟨rfl, by rw [if_pos wrapped]⟩
      · rw [if_neg wrapped]
        simp only [Except.ok.injEq, Prod.mk.injEq]
        constructor
        · intro outcome
          rcases outcome with ⟨rfl, rfl⟩
          exact ⟨rfl, by rw [if_neg wrapped]⟩
        · intro outcome
          rcases outcome with ⟨rfl, rfl⟩
          exact ⟨rfl, by rw [if_neg wrapped]⟩
  · next vacant =>
      simp only [bind_eq_ok_iff, assertThat_eq_ok_iff, vacant,
        decide_true, true_and, Option.some.injEq, reduceCtorEq,
        exists_false, false_and, or_false, exists_const]
      simp [pure, Except.pure, eq_comm]

/-- Whatever its point, one iteration evicts the head entry or no entry, and
then advances the head or leaves it. -/
theorem scanIteration_eq_ok
    {sizeNeeded : UInt64} {before after : ScanPoint}
    (iterated :
      cache.scanIteration sizeNeeded before = .ok (next, after)) :
    ∃ evicted,
      (evicted = cache ∨
          ∃ entry,
            cache.Resident cache.head entry ∧
              entry.pins = 0 ∧ evicted = cache.withoutHead entry) ∧
        (next = evicted ∨ next = evicted.advanceHead) := by
  cases before with
  | evicting start =>
      rcases scanIteration_evicting_eq_ok_iff.mp iterated with
        ⟨_, rfl, _⟩ | ⟨_, evicted, tried, rfl, _⟩
      · exact ⟨next, Or.inl rfl, Or.inl rfl⟩
      · refine ⟨evicted, ?_, Or.inr rfl⟩
        rcases tryEvictHead_eq_ok_iff.mp tried with
          ⟨_, rfl⟩ | ⟨_, _, _, rfl⟩ | freed
        · exact Or.inl rfl
        · exact Or.inl rfl
        · exact Or.inr freed
  | seeking startSlot =>
      rcases scanIteration_seeking_eq_ok_iff.mp iterated with
        ⟨_, rfl, _⟩ | ⟨_, rfl, _⟩
      · exact ⟨next, Or.inl rfl, Or.inl rfl⟩
      · exact ⟨cache, Or.inl rfl, Or.inr rfl⟩
  | returned result =>
      simp [scanIteration] at iterated

/-! ## Finalization -/

theorem finalizeSize_eq_ok_iff {key : Key} {size : UInt64} :
    cache.finalizeSize key = .ok size ↔
      ∃ inflight headers,
        cache.inflightMap key = some inflight ∧
          inflight.headers = some headers ∧
            size =
              UInt64.ofNat headers.length +
                  UInt64.ofNat inflight.body.length +
                UInt64.ofNat key.length := by
  unfold finalizeSize
  cases found : cache.inflightMap key with
  | none =>
      simp
  | some inflight =>
      simp only [bind_eq_ok_iff, Inflight.size_eq_ok_iff,
        Option.some.injEq]
      constructor
      · intro outcome
        rcases outcome with ⟨reserved, ⟨headers, present, rfl⟩, returned⟩
        cases returned
        exact ⟨inflight, headers, rfl, present, rfl⟩
      · intro outcome
        rcases outcome with ⟨_, headers, rfl, present, rfl⟩
        exact ⟨_, ⟨headers, present, rfl⟩, rfl⟩

theorem completeFinalize_eq_ok_iff {key : Key} {result : Bool} :
    cache.completeFinalize key result = .ok next ↔
      ∃ inflight,
        cache.inflightMap key = some inflight ∧
          ((result = false ∧ next = cache.setInflight key none) ∨
            (result = true ∧
              ∃ headers,
                inflight.headers = some headers ∧
                  cache.slots[cache.head]? = some none ∧
                    next =
                      (cache.withHead
                          (cache.newEntry key headers
                            inflight.body)).setInflight key none)) := by
  unfold completeFinalize
  cases found : cache.inflightMap key with
  | none =>
      simp
  | some inflight =>
      cases result with
      | false =>
          simp [eq_comm]
      | true =>
          simp only [if_true, bind_eq_ok_iff,
            insertEntryLocked_eq_ok_iff, Option.some.injEq]
          constructor
          · intro outcome
            rcases outcome with
              ⟨stored, ⟨headers, present, free, rfl⟩, returned⟩
            cases returned
            exact
              ⟨inflight, rfl,
                Or.inr ⟨trivial, headers, present, free, rfl⟩⟩
          · intro outcome
            rcases outcome with
              ⟨_, rfl,
              ⟨impossible, _⟩ | ⟨_, headers, present, free, rfl⟩⟩
            · simp at impossible
            · exact ⟨_, ⟨headers, present, free, rfl⟩, rfl⟩

/-! ## Lookup and publishing -/

/-- The waiter that `lookup` makes for a follower. -/
def makeWaiter (waiterAddr : Nat) (callbacks : Callbacks) : Waiter where
  addr := waiterAddr
  dispatcher := callbacks.dispatcher
  callbacks := callbacks

/-- The closures that `attachBackfillWaiterLocked` posts. -/
def backfillPosts (inflight : Inflight) (waiter : Waiter) : List Closure :=
  match inflight.headers with
  | none => []
  | some headers => [.backfill waiter headers inflight.body]

theorem attachBackfillWaiterLocked_eq_ok_iff
    {inflight attached : Inflight} {waiter : Waiter}
    {posts : List Closure} :
    attachBackfillWaiterLocked inflight waiter =
        .ok (posts, attached) ↔
      (inflight.headers = none → inflight.body = []) ∧
        posts = backfillPosts inflight waiter ∧
          attached =
            { inflight with
              waiters := inflight.waiters ++ [waiter] } := by
  unfold attachBackfillWaiterLocked backfillPosts
  cases missing : inflight.headers with
  | none =>
      simp only [bind_eq_ok_iff, assertThat_eq_ok_iff]
      cases bodyEq : inflight.body <;>
        simp [pure, Except.pure, eq_comm]
  | some headers =>
      simp only [bind_eq_ok_iff, assertThat_eq_ok_iff]
      simp [pure, Except.pure, eq_comm]

/-- The three outcomes of `lookup`. -/
theorem lookupLocked_eq_ok_iff
    {key : Key} {callbacks : Option Callbacks} {waiterAddr : Nat}
    {result : LookupLocked} :
    cache.lookupLocked key callbacks waiterAddr = .ok (result, next) ↔
      (∃ ptr entry,
          cache.cacheMap key = some ptr ∧
            cache.entryAt ptr = some entry ∧
              result = .hit ptr entry.body.length ∧
                next = cache.updatePins ptr (· + 1)) ∨
        (cache.cacheMap key = none ∧
          cache.inflightMap key = none ∧
            result = .leader ∧ next = cache.setInflight key (some {})) ∨
          (cache.cacheMap key = none ∧
            ∃ inflight caller,
              cache.inflightMap key = some inflight ∧
                callbacks = some caller ∧
                  (inflight.headers = none → inflight.body = []) ∧
                    result =
                      .follower (makeWaiter waiterAddr caller)
                        (backfillPosts inflight
                          (makeWaiter waiterAddr caller)) ∧
                      next =
                        cache.setInflight key
                          (some { inflight with
                            waiters :=
                              inflight.waiters ++
                                [makeWaiter waiterAddr caller] })) := by
  unfold lookupLocked
  cases mapped : cache.cacheMap key with
  | some ptr =>
      cases read : cache.entryAt ptr with
      | none =>
          simp [read]
      | some entry =>
          simp [read, eq_comm]
  | none =>
      cases found : cache.inflightMap key with
      | none =>
          simp [eq_comm]
      | some inflight =>
          cases callbacks with
          | none =>
              simp
          | some caller =>
              simp only [bind_eq_ok_iff]
              constructor
              · intro outcome
                rcases outcome with ⟨⟨posts, attached⟩, attaching, returned⟩
                obtain ⟨headersFirst, rfl, rfl⟩ :=
                  attachBackfillWaiterLocked_eq_ok_iff.mp attaching
                cases returned
                exact
                  Or.inr (Or.inr
                    ⟨trivial, inflight, caller, rfl, rfl,
                      headersFirst, rfl, rfl⟩)
              · intro outcome
                rcases outcome with
                  ⟨_, _, impossible, _⟩ |
                    ⟨_, impossible, _⟩ |
                      ⟨_, _, _, sameInflight, sameCaller,
                        headersFirst, rfl, rfl⟩
                · simp at impossible
                · simp at impossible
                · cases sameInflight
                  cases sameCaller
                  exact
                    ⟨_, attachBackfillWaiterLocked_eq_ok_iff.mpr
                      ⟨headersFirst, rfl, rfl⟩, rfl⟩

theorem unpin_eq_ok_iff {ptr : EntryPtr} :
    cache.unpin ptr = .ok next ↔
      (∃ entry, cache.entryAt ptr = some entry) ∧
        next = cache.updatePins ptr (· - 1) := by
  unfold unpin
  cases cache.entryAt ptr with
  | none =>
      simp
  | some entry =>
      simp [eq_comm]

end RingBufferCache

namespace Monitor

open RingBufferCache

variable {monitor next : Monitor}

theorem locked_eq_ok_iff
    {α : Type} {critical : Except Stop α} {result : α} :
    monitor.locked critical = .ok result ↔
      monitor.frame = none ∧ critical = .ok result := by
  unfold locked
  cases monitor.frame with
  | none =>
      simp
  | some frame =>
      simp

theorem lookup_eq_ok_iff
    {key : Key} {callbacks : Option Callbacks} {waiterAddr : Nat}
    {result : LookupLocked} :
    monitor.lookup key callbacks waiterAddr = .ok (result, next) ↔
      monitor.frame = none ∧
        next.frame = none ∧
          monitor.cache.lookupLocked key callbacks waiterAddr =
            .ok (result, next.cache) := by
  unfold lookup
  rw [locked_eq_ok_iff, bind_eq_ok_iff]
  constructor
  · intro outcome
    rcases outcome with ⟨free, ⟨outcome, cache⟩, looked, returned⟩
    cases returned
    exact ⟨free, rfl, looked⟩
  · intro outcome
    rcases outcome with ⟨free, released, looked⟩
    refine ⟨free, (result, next.cache), looked, ?_⟩
    cases next
    cases released
    rfl

/-- The size that `finalizeLocked` reserves for a response with these
headers. -/
def reservedSize
    (key : Key) (headers : ResponseHeaderMap) (inflight : Inflight) :
    UInt64 :=
  UInt64.ofNat headers.length + UInt64.ofNat inflight.body.length +
    UInt64.ofNat key.length

/-- The locked part of a publish ends without a finalization, or enters one
for the inflight response it has just updated. -/
theorem afterPublish_eq_ok_iff
    {cache : RingBufferCache} {key : Key} {endStream : Bool} :
    afterPublish cache key endStream = .ok next ↔
      next.cache = cache ∧
        (((endStream = false ∨ cache.inflightMap key = none) ∧
            next.frame = none) ∨
          (endStream = true ∧
            ∃ inflight headers,
              cache.inflightMap key = some inflight ∧
                inflight.headers = some headers ∧
                  next.frame =
                    some
                      { key := key
                        size := reservedSize key headers inflight
                        point :=
                          cache.enterScan
                            (reservedSize key headers inflight) })) := by
  unfold afterPublish
  by_cases ends :
      endStream = true ∧ (cache.inflightMap key).isSome = true
  · rw [if_pos ends, bind_eq_ok_iff]
    simp only [finalizeSize_eq_ok_iff]
    obtain ⟨ended, found⟩ := ends
    constructor
    · intro outcome
      rcases outcome with
        ⟨_, ⟨inflight, headers, present, stored, rfl⟩, returned⟩
      cases returned
      exact
        ⟨rfl, Or.inr
          ⟨ended, inflight, headers, present, stored, rfl⟩⟩
    · intro outcome
      rcases outcome with
        ⟨sameCache, ⟨stays | missing, _⟩ |
        ⟨_, inflight, headers, present, stored, entered⟩⟩
      · simp [ended] at stays
      · simp [missing] at found
      · refine
          ⟨_, ⟨inflight, headers, present, stored, rfl⟩, ?_⟩
        cases next with
        | mk nextCache nextFrame =>
            simp only at sameCache entered
            rw [sameCache, entered]
            rfl
  · rw [if_neg ends]
    constructor
    · intro returned
      cases returned
      refine ⟨rfl, Or.inl ⟨?_, rfl⟩⟩
      cases endStream <;> simp_all
    · intro outcome
      rcases outcome with
        ⟨sameCache, ⟨_, released⟩ |
        ⟨ended, inflight, headers, present, _⟩⟩
      · cases next
        cases sameCache
        cases released
        rfl
      · exact absurd ⟨ended, by simp [present]⟩ ends

/-- The shape that the two publish calls share. -/
theorem locked_afterPublish_eq_ok_iff
    {key : Key} {endStream : Bool} {posts : List Closure}
    {published : List Closure × RingBufferCache} :
    (monitor.locked do
        let next ← afterPublish published.2 key endStream
        return (published.1, next)) = .ok (posts, next) ↔
      monitor.frame = none ∧
        posts = published.1 ∧
          afterPublish published.2 key endStream = .ok next := by
  rw [locked_eq_ok_iff, bind_eq_ok_iff]
  constructor
  · intro outcome
    rcases outcome with ⟨free, middle, entered, returned⟩
    cases returned
    exact ⟨free, rfl, entered⟩
  · intro outcome
    rcases outcome with ⟨free, rfl, entered⟩
    exact ⟨free, next, entered, rfl⟩

theorem publishHeaders_eq_ok_iff
    {key : Key} {headers : ResponseHeaderMap} {endStream : Bool}
    {posts : List Closure} :
    monitor.publishHeaders key headers endStream = .ok (posts, next) ↔
      monitor.frame = none ∧
        posts =
            (monitor.cache.publishHeadersLocked
              key headers endStream).1 ∧
          afterPublish
              (monitor.cache.publishHeadersLocked
                key headers endStream).2
              key endStream =
            .ok next := by
  exact locked_afterPublish_eq_ok_iff

theorem publishData_eq_ok_iff
    {key : Key} {data : Bytes} {endStream : Bool}
    {posts : List Closure} :
    monitor.publishData key data endStream = .ok (posts, next) ↔
      monitor.frame = none ∧
        posts =
            (monitor.cache.publishDataLocked key data endStream).1 ∧
          afterPublish
              (monitor.cache.publishDataLocked key data endStream).2
              key endStream =
            .ok next := by
  exact locked_afterPublish_eq_ok_iff

theorem removeWaiter_eq_ok_iff {key : Key} {waiterAddr : Nat} :
    monitor.removeWaiter key waiterAddr = .ok next ↔
      monitor.frame = none ∧
        next =
          { cache := monitor.cache.removeWaiterLocked key waiterAddr } := by
  unfold removeWaiter
  rw [locked_eq_ok_iff]
  simp [eq_comm]

theorem scan_eq_ok_iff :
    monitor.scan = .ok next ↔
      ∃ frame cache point,
        monitor.frame = some frame ∧
          monitor.cache.scanIteration frame.size frame.point =
              .ok (cache, point) ∧
            next =
              { cache := cache
                frame := some { frame with point := point } } := by
  unfold scan
  cases monitor.frame with
  | none =>
      simp
  | some frame =>
      simp only [bind_eq_ok_iff, Option.some.injEq]
      constructor
      · intro outcome
        rcases outcome with ⟨⟨cache, point⟩, iterated, returned⟩
        cases returned
        exact ⟨frame, cache, point, rfl, iterated, rfl⟩
      · intro outcome
        rcases outcome with ⟨_, cache, point, rfl, iterated, rfl⟩
        exact ⟨(cache, point), iterated, rfl⟩

theorem finish_eq_ok_iff :
    monitor.finish = .ok next ↔
      ∃ frame result,
        monitor.frame = some frame ∧
          frame.point = .returned result ∧
            next.frame = none ∧
              monitor.cache.completeFinalize frame.key result =
                .ok next.cache := by
  unfold finish
  split
  · next key size result running =>
      rw [bind_eq_ok_iff]
      simp only [running, Option.some.injEq]
      constructor
      · intro outcome
        rcases outcome with ⟨cache, completed, returned⟩
        cases returned
        exact ⟨_, result, rfl, rfl, rfl, completed⟩
      · intro outcome
        rcases outcome with ⟨_, other, rfl, atReturn, released, completed⟩
        cases atReturn
        refine ⟨next.cache, completed, ?_⟩
        cases next
        cases released
        rfl
  · next elsewhere =>
      simp only [reduceCtorEq, false_iff]
      intro outcome
      rcases outcome with ⟨⟨key, size, point⟩, result, running, atReturn, _⟩
      cases atReturn
      exact elsewhere key size result running

theorem unpin_eq_ok_iff {ptr : EntryPtr} :
    monitor.unpin ptr = .ok next ↔
      (∃ entry, monitor.cache.entryAt ptr = some entry) ∧
        next =
          { monitor with
            cache := monitor.cache.updatePins ptr (· - 1) } := by
  unfold unpin
  simp only [bind_eq_ok_iff, RingBufferCache.unpin_eq_ok_iff]
  constructor
  · intro outcome
    rcases outcome with ⟨cache, ⟨found, rfl⟩, returned⟩
    cases returned
    exact ⟨found, rfl⟩
  · intro outcome
    rcases outcome with ⟨found, rfl⟩
    exact ⟨_, ⟨found, rfl⟩, rfl⟩

end Monitor

end RingCache

import RingCache.Cache.Basic

/-!
# The operations of `RingBufferCache`

Each function below is the part of a function of `cache.cc` that runs without
interruption.  Functions that hold `mutex_` run in one piece, except that the
loops of `evictTillCapacityLocked` are cut at their iterations: other threads
drop pins without the mutex, so the scan can see the pins of two slots at
different times.  `Monitor` is the cache together with the call that is inside
the scan and holds the mutex.
-/

namespace RingCache

namespace RingBufferCache

/-- Replace or erase the inflight response of a key. -/
def setInflight
    (cache : RingBufferCache) (key : Key) (inflight : Option Inflight) :
    RingBufferCache :=
  { cache with
    inflightMap := Function.update cache.inflightMap key inflight }

/-! ## Eviction and insertion -/

/-- `head_ = (head_ + 1) % slot_count_`. -/
def advanceHead (cache : RingBufferCache) : RingBufferCache :=
  { cache with head := (cache.head + 1) % cache.slotCount }

/-- `capacity_ - used_size_`. -/
def freeSize (cache : RingBufferCache) : UInt64 :=
  cache.capacity - cache.usedSize

/-- The cache after its head slot has given up `entry`. -/
def withoutHead (cache : RingBufferCache) (entry : Entry) :
    RingBufferCache :=
  { cache with
    usedSize := cache.usedSize - entry.size
    cacheMap := Function.update cache.cacheMap entry.key none
    slots := cache.slots.set cache.head none }

def evictHeadLocked (cache : RingBufferCache) :
    Except Stop RingBufferCache :=
  match cache.slots[cache.head]? with
  | none => .error (.fault .slotOutOfRange)
  | some none => .error (.fault (.assertion .evictHeadOccupied))
  | some (some entry) => do
      assertThat (entry.pins = 0) .entryUnpinned
      return cache.withoutHead entry

/-- The body of the first loop of `evictTillCapacityLocked` up to the advance
of the head: evict the head slot if it is occupied and not pinned. -/
def tryEvictHead (cache : RingBufferCache) :
    Except Stop RingBufferCache :=
  match cache.slots[cache.head]? with
  | none => .error (.fault .slotOutOfRange)
  | some none => .ok cache
  | some (some entry) =>
      if entry.pins = 0 then cache.evictHeadLocked else .ok cache

/-- Where a call of `evictTillCapacityLocked` stands: at the guard of its
first loop, at the guard of its second loop, or at its return. -/
inductive ScanPoint where
  | evicting (start : Nat)
  | seeking (startSlot : Nat)
  | returned (result : Bool)
  deriving DecidableEq, Repr

/-- `evictTillCapacityLocked` up to its first loop. -/
def enterScan (cache : RingBufferCache) (sizeNeeded : UInt64) : ScanPoint :=
  if cache.capacity < sizeNeeded then
    .returned false
  else
    .evicting cache.head

/-- One iteration of a loop of `evictTillCapacityLocked`, from one loop guard
to the next or to the return. -/
def scanIteration (cache : RingBufferCache) (sizeNeeded : UInt64) :
    ScanPoint → Except Stop (RingBufferCache × ScanPoint)
  | .evicting start =>
      if cache.freeSize < sizeNeeded then do
        let evicted ← cache.tryEvictHead
        let advanced := evicted.advanceHead
        if start = advanced.head ∧ advanced.freeSize < sizeNeeded then
          return (advanced, .returned false)
        else
          return (advanced, .evicting start)
      else
        .ok (cache, .seeking cache.head)
  | .seeking startSlot =>
      match cache.slots[cache.head]? with
      | none => .error (.fault .slotOutOfRange)
      | some (some _) =>
          if cache.advanceHead.head = startSlot then
            .ok (cache.advanceHead, .returned false)
          else
            .ok (cache.advanceHead, .seeking startSlot)
      | some none => do
          assertThat (cache.slots[cache.head]? = some none)
            .evictionFreeHead
          return (cache, .returned true)
  | .returned _ => .error .blocked

/-- The cache after its head slot has received `entry`. -/
def withHead (cache : RingBufferCache) (entry : Entry) :
    RingBufferCache :=
  { cache with
    slots := cache.slots.set cache.head (some entry)
    cacheMap := Function.update cache.cacheMap entry.key (some entry.addr)
    head := (cache.head + 1) % cache.slotCount
    usedSize := cache.usedSize + entry.size
    nextAddr := cache.nextAddr + 1 }

/-- The entry that `insertEntryLocked` makes. -/
def newEntry
    (cache : RingBufferCache) (key : Key)
    (headers : ResponseHeaderMap) (body : Bytes) : Entry where
  addr := cache.nextAddr
  key := key
  headers := headers
  body := body
  pins := 0

/-- `insertEntryLocked`; `used_size_` is increased by `slot.size()`, which
reads through the moved `headers_`. -/
def insertEntryLocked
    (cache : RingBufferCache) (key : Key)
    (headers : Option ResponseHeaderMap) (body : Bytes) :
    Except Stop RingBufferCache :=
  match cache.slots[cache.head]? with
  | none => .error (.fault .slotOutOfRange)
  | some (some _) => .error (.fault (.assertion .insertHeadEmpty))
  | some none =>
      match headers with
      | none => .error (.fault .nullHeaders)
      | some headers =>
          .ok (cache.withHead (cache.newEntry key headers body))

/-! ## Finalization -/

/-- The size that `finalizeLocked` reserves. -/
def finalizeSize (cache : RingBufferCache) (key : Key) :
    Except Stop UInt64 :=
  match cache.inflightMap key with
  | none => .error (.fault (.assertion .finalizeKeyInflight))
  | some inflight => do
      let size ← inflight.size
      return size + UInt64.ofNat key.length

/-- The rest of `finalizeLocked` once `evictTillCapacityLocked` has returned
`result`: move the response to the free slot or drop it. -/
def completeFinalize
    (cache : RingBufferCache) (key : Key) (result : Bool) :
    Except Stop RingBufferCache :=
  match cache.inflightMap key with
  | none => .error (.fault (.assertion .finalizeKeyInflight))
  | some inflight =>
      if result then do
        let stored ←
          cache.insertEntryLocked key inflight.headers inflight.body
        return stored.setInflight key none
      else
        .ok (cache.setInflight key none)

/-! ## Lookup -/

/-- Push the waiter and post what it has missed: the closures are those posted
to its dispatcher while the mutex is held. -/
def attachBackfillWaiterLocked (inflight : Inflight) (waiter : Waiter) :
    Except Stop (List Closure × Inflight) := do
  let attached := { inflight with waiters := inflight.waiters ++ [waiter] }
  assertThat (inflight.headers.isSome || inflight.body.isEmpty)
    .backfillHeadersOrEmptyBody
  match inflight.headers with
  | none => return ([], attached)
  | some headers =>
      return ([.backfill waiter headers inflight.body], attached)

/-- What the locked part of `lookup` leaves for the rest of the call. -/
inductive LookupLocked where
  | hit (entry : EntryPtr) (bodyLength : Nat)
  | leader
  | follower (waiter : Waiter) (posts : List Closure)
  deriving DecidableEq, Repr

/-- The locked part of `lookup`.  `waiterAddr` is the address that
`std::make_shared<Waiter>` returns in the follower branch. -/
def lookupLocked
    (cache : RingBufferCache) (key : Key)
    (callbacks : Option Callbacks) (waiterAddr : Nat) :
    Except Stop (LookupLocked × RingBufferCache) :=
  match cache.cacheMap key with
  | some ptr =>
      match cache.entryAt ptr with
      | none => .error (.fault .danglingEntry)
      | some entry =>
          .ok (.hit ptr entry.body.length, cache.updatePins ptr (· + 1))
  | none =>
      match cache.inflightMap key with
      | none =>
          .ok (.leader, cache.setInflight key (some {}))
      | some inflight =>
          match callbacks with
          | none => .error (.fault .nullCallbacks)
          | some callbacks => do
              let waiter : Waiter :=
                { addr := waiterAddr
                  dispatcher := callbacks.dispatcher
                  callbacks := callbacks }
              let (posts, attached) ←
                attachBackfillWaiterLocked inflight waiter
              return (.follower waiter posts,
                cache.setInflight key (some attached))

/-- `pin_ptr->fetch_sub(1)`, made without the mutex. -/
def unpin (cache : RingBufferCache) (ptr : EntryPtr) :
    Except Stop RingBufferCache :=
  match cache.entryAt ptr with
  | none => .error (.fault .danglingEntry)
  | some _ => .ok (cache.updatePins ptr (· - 1))

/-! ## Publishing -/

/-- The locked part of `publishHeaders` before `finalizeLocked`: the closures
are those to post once the mutex is released. -/
def publishHeadersLocked
    (cache : RingBufferCache) (key : Key)
    (responseHeaders : ResponseHeaderMap) (endStream : Bool) :
    List Closure × RingBufferCache :=
  match cache.inflightMap key with
  | none => ([], cache)
  | some inflight =>
      let headers := inflight.headers.getD responseHeaders
      (inflight.waiters.map fun waiter =>
          .headers waiter headers endStream,
        cache.setInflight key
          (some { inflight with headers := some headers }))

/-- The locked part of `publishData` before `finalizeLocked`. -/
def publishDataLocked
    (cache : RingBufferCache) (key : Key)
    (data : Bytes) (endStream : Bool) :
    List Closure × RingBufferCache :=
  match cache.inflightMap key with
  | none => ([], cache)
  | some inflight =>
      (inflight.waiters.map fun waiter => .data waiter data endStream,
        cache.setInflight key
          (some { inflight with body := inflight.body ++ data }))

/-- Swap the element at `position` with the last one and pop. -/
def swapPop (waiters : List Waiter) (position : Nat) : List Waiter :=
  match waiters.getLast? with
  | none => waiters
  | some last => (waiters.set position last).dropLast

/-- `removeWaiter`; a waiter is found by the address of its shared pointer. -/
def removeWaiterLocked
    (cache : RingBufferCache) (key : Key) (waiterAddr : Nat) :
    RingBufferCache :=
  match cache.inflightMap key with
  | none => cache
  | some inflight =>
      match inflight.waiters.findIdx? fun waiter =>
          waiter.addr = waiterAddr with
      | none => cache
      | some position =>
          cache.setInflight key
            (some { inflight with
              waiters := swapPop inflight.waiters position })

end RingBufferCache

/-! ## The cache and its mutex -/

/-- A call of `finalizeLocked` that is inside `evictTillCapacityLocked`. -/
structure FinalizeFrame where
  key : Key
  size : UInt64
  point : RingBufferCache.ScanPoint
  deriving DecidableEq, Repr

/-- The cache and the finalization that holds its mutex, if one is running. -/
structure Monitor where
  cache : RingBufferCache
  frame : Option FinalizeFrame := none

namespace Monitor

open RingBufferCache

/-- Run a critical section, which waits while a finalization holds the
mutex. -/
def locked {α : Type} (monitor : Monitor) (critical : Except Stop α) :
    Except Stop α :=
  match monitor.frame with
  | none => critical
  | some _ => .error .blocked

def lookup
    (monitor : Monitor) (key : Key)
    (callbacks : Option Callbacks) (waiterAddr : Nat) :
    Except Stop (LookupLocked × Monitor) :=
  monitor.locked do
    let (result, cache) ←
      monitor.cache.lookupLocked key callbacks waiterAddr
    return (result, { cache := cache })

/-- Enter `finalizeLocked` when the publish found its inflight entry and ends
the stream; otherwise the mutex is released. -/
def afterPublish
    (cache : RingBufferCache) (key : Key) (endStream : Bool) :
    Except Stop Monitor :=
  if endStream ∧ (cache.inflightMap key).isSome then do
    let size ← cache.finalizeSize key
    return {
      cache := cache
      frame := some
        { key := key, size := size, point := cache.enterScan size } }
  else
    .ok { cache := cache }

def publishHeaders
    (monitor : Monitor) (key : Key)
    (responseHeaders : ResponseHeaderMap) (endStream : Bool) :
    Except Stop (List Closure × Monitor) :=
  monitor.locked do
    let published :=
      monitor.cache.publishHeadersLocked key responseHeaders endStream
    let next ← afterPublish published.2 key endStream
    return (published.1, next)

def publishData
    (monitor : Monitor) (key : Key) (data : Bytes) (endStream : Bool) :
    Except Stop (List Closure × Monitor) :=
  monitor.locked do
    let published :=
      monitor.cache.publishDataLocked key data endStream
    let next ← afterPublish published.2 key endStream
    return (published.1, next)

def removeWaiter (monitor : Monitor) (key : Key) (waiterAddr : Nat) :
    Except Stop Monitor :=
  monitor.locked
    (.ok { cache := monitor.cache.removeWaiterLocked key waiterAddr })

/-- The running finalization makes one iteration of its scan. -/
def scan (monitor : Monitor) : Except Stop Monitor :=
  match monitor.frame with
  | none => .error .blocked
  | some frame => do
      let (cache, point) ←
        monitor.cache.scanIteration frame.size frame.point
      return { cache := cache, frame := some { frame with point := point } }

/-- The running finalization has its scan's result, ends and releases the
mutex. -/
def finish (monitor : Monitor) : Except Stop Monitor :=
  match monitor.frame with
  | some ⟨key, _, .returned result⟩ => do
      let cache ← monitor.cache.completeFinalize key result
      return { cache := cache }
  | _ => .error .blocked

def unpin (monitor : Monitor) (ptr : EntryPtr) : Except Stop Monitor := do
  let cache ← monitor.cache.unpin ptr
  return { monitor with cache := cache }

/-- The calls on the cache, by any caller, and the steps of a running
finalization. -/
inductive Action where
  | lookup
      (key : Key) (callbacks : Option Callbacks) (waiterAddr : Nat)
  | publishHeaders
      (key : Key) (headers : ResponseHeaderMap) (endStream : Bool)
  | publishData (key : Key) (data : Bytes) (endStream : Bool)
  | removeWaiter (key : Key) (waiterAddr : Nat)
  | scan
  | finish
  | unpin (ptr : EntryPtr)
  deriving DecidableEq, Repr

def step (monitor : Monitor) : Action → Except Stop Monitor
  | .lookup key callbacks waiterAddr => do
      let result ← monitor.lookup key callbacks waiterAddr
      return result.2
  | .publishHeaders key headers endStream => do
      let result ← monitor.publishHeaders key headers endStream
      return result.2
  | .publishData key data endStream => do
      let result ← monitor.publishData key data endStream
      return result.2
  | .removeWaiter key waiterAddr => monitor.removeWaiter key waiterAddr
  | .scan => monitor.scan
  | .finish => monitor.finish
  | .unpin ptr => monitor.unpin ptr

/-- A new cache, with its mutex free. -/
def create (capacity : UInt64) (slotCount : Nat) : Monitor where
  cache := RingBufferCache.create capacity slotCount

end Monitor

end RingCache

import Mathlib.Logic.Function.Basic

/-!
# The data model of `RingBufferCache`

The types follow `cache.h`.  Strings are lists of bytes and a response header
map is a list of fields.  A pointer to an `Entry` is the address of the entry:
the entry itself is owned by its slot, so an address that no slot holds is
dangling, and addresses are never used twice.  The byte counts `capacity_` and
`used_size_` are 64-bit and `pins_` is 32-bit, with the wrap-around of the
machine types; slot positions are natural numbers, since they stay below
`slot_count_`.
-/

namespace RingCache

abbrev Bytes := List UInt8

abbrev Key := Bytes

abbrev ResponseHeaderMap := List (Bytes × Bytes)

/-- The address of an `Entry`. -/
abbrev EntryPtr := Nat

abbrev StreamId := Nat

abbrev DispatcherId := Nat

/-- The members of `Http::StreamDecoderFilterCallbacks` that the cache uses:
the stream they belong to and its dispatcher. -/
structure Callbacks where
  stream : StreamId
  dispatcher : DispatcherId
  deriving DecidableEq, Repr

/-- The constant members of a `Waiter` and the address its shared pointers
hold.  The flag `cancelled` lives at that address. -/
structure Waiter where
  addr : Nat
  dispatcher : DispatcherId
  callbacks : Callbacks
  deriving DecidableEq, Repr

/-- The response code details the cache passes to `encodeHeaders`:
`ring_cache.hit`, `ring_cache.coalesced` and
`ring_cache.coalesced_backfill`. -/
inductive Details where
  | hit
  | coalesced
  | coalescedBackfill
  deriving DecidableEq, Repr

/-- A call made on the decoder filter callbacks of a stream. -/
inductive Event where
  | encodeHeaders
      (headers : ResponseHeaderMap) (endStream : Bool) (details : Details)
  | encodeData (data : Bytes) (endStream : Bool)
  deriving DecidableEq, Repr

/-- The closures the cache posts to dispatchers, with what they capture. -/
inductive Closure where
  | headers
      (waiter : Waiter) (headers : ResponseHeaderMap) (endStream : Bool)
  | data (waiter : Waiter) (chunk : Bytes) (endStream : Bool)
  | backfill
      (waiter : Waiter) (headers : ResponseHeaderMap) (body : Bytes)
  deriving DecidableEq, Repr

namespace Closure

def waiter : Closure → Waiter
  | .headers waiter _ _ => waiter
  | .data waiter _ _ => waiter
  | .backfill waiter _ _ => waiter

/-- The calls the closure makes on the waiter's callbacks when the waiter has
not been cancelled. -/
def calls : Closure → List Event
  | .headers _ copied endStream =>
      [.encodeHeaders copied endStream .coalesced]
  | .data _ chunk endStream =>
      [.encodeData chunk endStream]
  | .backfill _ copied body =>
      .encodeHeaders copied false .coalescedBackfill ::
        if 0 < body.length then [.encodeData body false] else []

end Closure

/-- A cached response.  `insertEntryLocked` reads the size of the map through
`headers_` before it returns, so an entry that stays in a slot holds a map and
not a null pointer. -/
structure Entry where
  addr : EntryPtr
  key : Key
  headers : ResponseHeaderMap
  body : Bytes
  pins : UInt32
  deriving DecidableEq, Repr

def Entry.size (entry : Entry) : UInt64 :=
  UInt64.ofNat entry.key.length + UInt64.ofNat entry.headers.length +
    UInt64.ofNat entry.body.length

/-- An atomic update of `pins_` through the pointer `ptr`, as this entry sees
it. -/
def Entry.updatePins
    (entry : Entry) (ptr : EntryPtr) (update : UInt32 → UInt32) : Entry :=
  if entry.addr = ptr then
    { entry with pins := update entry.pins }
  else
    entry

/-- A response that is being fetched by its leader. -/
structure Inflight where
  headers : Option ResponseHeaderMap := none
  body : Bytes := []
  waiters : List Waiter := []
  deriving DecidableEq, Repr

/-- The assertions of `cache.cc` and `cache.h`. -/
inductive Assertion where
  | finalizeKeyInflight
  | backfillHeadersOrEmptyBody
  | evictionFreeHead
  | evictHeadOccupied
  | insertHeadEmpty
  | entryUnpinned
  deriving DecidableEq, Repr

/-- What the code must never do. -/
inductive Fault where
  | nullHeaders
  | nullCallbacks
  | danglingEntry
  | slotOutOfRange
  | assertion (violated : Assertion)
  deriving DecidableEq, Repr

/-- Why an action has no next state: its thread is not at that point or waits
for `mutex_`, or the action is a fault. -/
inductive Stop where
  | blocked
  | fault (reason : Fault)
  deriving DecidableEq, Repr

/-- `ASSERT(condition)`. -/
def assertThat (condition : Bool) (assertion : Assertion) :
    Except Stop Unit :=
  if condition then .ok () else .error (.fault (.assertion assertion))

/-- `Inflight::size()`, which reads through `headers_`. -/
def Inflight.size (inflight : Inflight) : Except Stop UInt64 :=
  match inflight.headers with
  | none => .error (.fault .nullHeaders)
  | some headers =>
      .ok
        (UInt64.ofNat headers.length + UInt64.ofNat inflight.body.length)

/-- The members of `RingBufferCache` that `mutex_` guards, its two constants
and the next address the allocator returns. -/
structure RingBufferCache where
  capacity : UInt64
  slotCount : Nat
  usedSize : UInt64 := 0
  cacheMap : Key → Option EntryPtr := fun _ => none
  inflightMap : Key → Option Inflight := fun _ => none
  slots : List (Option Entry)
  head : Nat := 0
  nextAddr : EntryPtr := 0

namespace RingBufferCache

/-- The constructor. -/
def create (capacity : UInt64) (slotCount : Nat) : RingBufferCache where
  capacity := capacity
  slotCount := slotCount
  slots := List.replicate slotCount none

/-- `entry` is owned by the slot at `position`. -/
def Resident
    (cache : RingBufferCache) (position : Nat) (entry : Entry) : Prop :=
  cache.slots[position]? = some (some entry)

/-- The entry at an address, if it has not been destroyed. -/
def entryAt (cache : RingBufferCache) (ptr : EntryPtr) : Option Entry :=
  cache.slots.findSome? fun slot =>
    slot.filter fun entry => entry.addr = ptr

/-- The slot that owns the entry at an address. -/
def slotOf (cache : RingBufferCache) (ptr : EntryPtr) : Option Nat :=
  cache.slots.findIdx? fun slot =>
    slot.any fun entry => entry.addr = ptr

/-- Apply an atomic update to `pins_` of the entry at an address. -/
def updatePins
    (cache : RingBufferCache) (ptr : EntryPtr) (update : UInt32 → UInt32) :
    RingBufferCache :=
  { cache with
    slots := cache.slots.map fun slot =>
      slot.map fun entry => entry.updatePins ptr update }

end RingBufferCache

end RingCache

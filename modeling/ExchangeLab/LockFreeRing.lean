import ExchangeLab.Lib.Transition
import Mathlib.Logic.Function.Basic

/-!
# ExchangeLab.LockFreeRing

The single-producer, single-consumer ring on its machine words: one thread in `try_emplace` and one in
`try_consume`, interleaved one access of an atomic or of a slot at a time.

`try_push` and `try_pop` are these with a copy for the callback. What follows an access and touches
only the thread's own data belongs to the access.
-/

namespace ExchangeLab

/-- A capacity the class compiles for: its two static assertions. -/
structure RingCapacity where
  value : UInt64
  atLeastTwo : 2 ≤ value
  powerOfTwo : value &&& (value - 1) = 0

def RingCapacity.mask (capacity : RingCapacity) : UInt64 := capacity.value - 1

namespace LockFreeRing

/-- Where the producer is in `try_emplace`, with the position it has loaded. -/
inductive Producing (α : Type) where
  | idle
  /-- The cached copy of the read position made the ring look full. -/
  | loadingRead (write : UInt64) (value : α)
  | writing (write : UInt64) (value : α)
  | storing (write : UInt64) (value : α)
  deriving DecidableEq, Repr

/-- Where the consumer is in `try_consume`, with the position it has loaded. -/
inductive Consuming (α : Type) where
  | idle
  /-- The cached copy of the write position made the ring look empty. -/
  | loadingWrite (read : UInt64)
  | reading (read : UInt64)
  /-- With what the callback was given. -/
  | storing (read : UInt64) (value : α)
  deriving DecidableEq, Repr

/-- What a step shows: the two calls returning true or false. -/
inductive Event (α : Type) where
  | silent
  | pushed (value : α)
  | pushFailed
  | popped (value : α)
  | popFailed
  deriving DecidableEq, Repr

end LockFreeRing

open LockFreeRing in
structure LockFreeRing (α : Type) where
  slots : UInt64 → α
  writePosition : UInt64
  cachedReadPosition : UInt64
  readPosition : UInt64
  cachedWritePosition : UInt64
  producing : Producing α := .idle
  consuming : Consuming α := .idle

namespace LockFreeRing

variable {α : Type}

/-- An empty ring with no call under way. -/
def start (slots : UInt64 → α) (position : UInt64) : LockFreeRing α where
  slots := slots
  writePosition := position
  cachedReadPosition := position
  readPosition := position
  cachedWritePosition := position

/-- `try_emplace`: a call loads its own position. -/
def pushCall (capacity : RingCapacity) (value : α) (ring : LockFreeRing α) :
    Option (Event α × LockFreeRing α) :=
  match ring.producing with
  | .idle =>
    let write := ring.writePosition
    if write - ring.cachedReadPosition ≥ capacity.value then
      some (.silent, { ring with producing := .loadingRead write value })
    else
      some (.silent, { ring with producing := .writing write value })
  | _ => none

def pushStep (capacity : RingCapacity) (ring : LockFreeRing α) :
    Option (Event α × LockFreeRing α) :=
  match ring.producing with
  | .idle => none
  | .loadingRead write value =>
    let refreshed := { ring with cachedReadPosition := ring.readPosition }
    if write - refreshed.cachedReadPosition ≥ capacity.value then
      some (.pushFailed, { refreshed with producing := .idle })
    else
      some (.silent, { refreshed with producing := .writing write value })
  | .writing write value =>
    some (.silent, { ring with
      slots := Function.update ring.slots (write &&& capacity.mask) value
      producing := .storing write value })
  | .storing write value =>
    some (.pushed value, { ring with writePosition := write + 1, producing := .idle })

/-- `try_consume`: a call loads its own position. -/
def popCall (ring : LockFreeRing α) : Option (Event α × LockFreeRing α) :=
  match ring.consuming with
  | .idle =>
    let read := ring.readPosition
    if read = ring.cachedWritePosition then
      some (.silent, { ring with consuming := .loadingWrite read })
    else
      some (.silent, { ring with consuming := .reading read })
  | _ => none

def popStep (capacity : RingCapacity) (ring : LockFreeRing α) :
    Option (Event α × LockFreeRing α) :=
  match ring.consuming with
  | .idle => none
  | .loadingWrite read =>
    let refreshed := { ring with cachedWritePosition := ring.writePosition }
    if read = refreshed.cachedWritePosition then
      some (.popFailed, { refreshed with consuming := .idle })
    else
      some (.silent, { refreshed with consuming := .reading read })
  | .reading read =>
    some (.silent, { ring with consuming := .storing read (ring.slots (read &&& capacity.mask)) })
  | .storing read value =>
    some (.popped value, { ring with readPosition := read + 1, consuming := .idle })

inductive Step (capacity : RingCapacity) :
    LockFreeRing α → Event α → LockFreeRing α → Prop
  | pushCall {ring ring' : LockFreeRing α} {event : Event α} (value : α)
      (h : ring.pushCall capacity value = some (event, ring')) : Step capacity ring event ring'
  | push {ring ring' : LockFreeRing α} {event : Event α}
      (h : ring.pushStep capacity = some (event, ring')) : Step capacity ring event ring'
  | popCall {ring ring' : LockFreeRing α} {event : Event α}
      (h : ring.popCall = some (event, ring')) : Step capacity ring event ring'
  | pop {ring ring' : LockFreeRing α} {event : Event α}
      (h : ring.popStep capacity = some (event, ring')) : Step capacity ring event ring'

/-- The slot the producer is about to access. -/
def producerSlot? (capacity : RingCapacity) (ring : LockFreeRing α) : Option UInt64 :=
  match ring.producing with
  | .writing write _ => some (write &&& capacity.mask)
  | _ => none

/-- The slot the consumer is about to access. -/
def consumerSlot? (capacity : RingCapacity) (ring : LockFreeRing α) : Option UInt64 :=
  match ring.consuming with
  | .reading read => some (read &&& capacity.mask)
  | _ => none

end LockFreeRing

end ExchangeLab

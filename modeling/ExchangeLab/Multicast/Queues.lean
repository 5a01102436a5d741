import ExchangeLab.MulticastPublisher
import Mathlib.Data.List.Perm.Subperm

/-!
# ExchangeLab.Multicast.Queues

What holds of the publisher in every interleaving.

* `Sound`: a shard has one thread that sends on it; a shard's queue holds what was stored there; what
  the publisher thread has consumed from it is the part before the read position; and what `send`
  has accepted is all of it but the datagram its thread is still about to return with.
* `Sound.step`, `sound_run`.
-/

namespace ExchangeLab

namespace MulticastPublisher

open Transition

/-! ## What a run shows -/

namespace Event

def stored? : Event → Option (Nat × Datagram)
  | .stored shard datagram => some (shard, datagram)
  | _ => none

def accepted? : Event → Option (Nat × Datagram)
  | .accepted shard datagram => some (shard, datagram)
  | _ => none

def consumed? : Event → Option (Nat × Datagram)
  | .consumed shard datagram _ => some (shard, datagram)
  | _ => none

end Event

def stored (events : List Event) : List (Nat × Datagram) := events.filterMap Event.stored?

/-- The datagrams `send` returned true for, with the shard of the thread. -/
def accepted (events : List Event) : List (Nat × Datagram) := events.filterMap Event.accepted?

/-- The datagrams `publisher_loop` took off the queues. -/
def consumed (events : List Event) : List (Nat × Datagram) := events.filterMap Event.consumed?

@[simp] theorem stored_snoc (events : List Event) (event : Event) :
    stored (events ++ [event]) = stored events ++ event.stored?.toList := by
  cases h : event.stored? <;> simp [stored, h]

@[simp] theorem accepted_snoc (events : List Event) (event : Event) :
    accepted (events ++ [event]) = accepted events ++ event.accepted?.toList := by
  cases h : event.accepted? <;> simp [accepted, h]

@[simp] theorem consumed_snoc (events : List Event) (event : Event) :
    consumed (events ++ [event]) = consumed events ++ event.consumed?.toList := by
  cases h : event.consumed? <;> simp [consumed, h]

/-- The part of a history that is about one shard. -/
def onShard (shard : Nat) (history : List (Nat × Datagram)) : List Datagram :=
  (history.filter fun entry => entry.1 = shard).map Prod.snd

@[simp] theorem onShard_nil (shard : Nat) : onShard shard [] = [] := rfl

@[simp] theorem onShard_append (shard : Nat) (xs ys : List (Nat × Datagram)) :
    onShard shard (xs ++ ys) = onShard shard xs ++ onShard shard ys := by
  simp [onShard]

@[simp] theorem onShard_same (shard : Nat) (datagram : Datagram) :
    onShard shard [(shard, datagram)] = [datagram] := by
  simp [onShard]

theorem onShard_other {shard other : Nat} (h : other ≠ shard) (datagram : Datagram) :
    onShard shard [(other, datagram)] = [] := by
  simp [onShard, h]

theorem count_onShard (shard : Nat) (datagram : Datagram) (xs : List (Nat × Datagram)) :
    (onShard shard xs).count datagram = xs.count (shard, datagram) := by
  induction xs with
  | nil => rfl
  | cons entry xs ih =>
    obtain ⟨other, datagram'⟩ := entry
    rw [List.count_cons, ← ih]
    by_cases h : other = shard
    · subst h
      simp [onShard, List.count_cons]
    · simp [onShard, h]

/-! ## What a thread in `send` relies on -/

/-- The datagram that is stored and that `send` will return true for. -/
def Sending.pending : Sending → List Datagram
  | .deactivating _ (some datagram) => [datagram]
  | .testing _ datagram => [datagram]
  | .signalling _ datagram => [datagram]
  | _ => []

def Room (publisher : MulticastPublisher) (shard : Nat) : Prop :=
  (publisher.queue shard).writePosition <
    (publisher.queue shard).cachedReadPosition + queueCapacityPerProducer

def Raised (publisher : MulticastPublisher) (shard : Nat) : Prop :=
  (publisher.shards shard).activeSender = true

def Fits (publisher : MulticastPublisher) (thread : Nat) : Sending → Prop
  | .idle | .registering _ => True
  | .activating shard _ | .testing shard _ | .signalling shard _ =>
    publisher.registration thread = some shard
  | .rechecking shard _ | .withdrawing shard | .loadingWrite shard _ | .loadingRead shard _
  | .deactivating shard _ => publisher.registration thread = some shard ∧ Raised publisher shard
  | .writing shard _ =>
    publisher.registration thread = some shard ∧ Raised publisher shard ∧ Room publisher shard
  | .storing shard datagram =>
    publisher.registration thread = some shard ∧ Raised publisher shard ∧ Room publisher shard ∧
      (publisher.queue shard).slots
        ((publisher.queue shard).writePosition % queueCapacityPerProducer) = datagram

/-- How many datagrams of a shard the publisher thread has taken. -/
def taken (publisher : MulticastPublisher) (shard : Nat) : Nat :=
  (publisher.queue shard).readPosition + if publisher.publishing = .storingRead shard then 1 else 0

/-- The shard whose first datagram the publisher thread has before it. -/
def Publishing.taking? : Publishing → Option Nat
  | .consuming shard | .storingRead shard => some shard
  | _ => none

structure Sound (events : List Event) (publisher : MulticastPublisher) : Prop where
  registered : ∀ thread shard, publisher.registration thread = some shard →
    shard < publisher.nextProducerShard ∧ shard < producerShardCount
  distinct : ∀ thread thread' shard, publisher.registration thread = some shard →
    publisher.registration thread' = some shard → thread = thread'
  fits : ∀ thread, Fits publisher thread (publisher.sending thread)
  holds : ∀ shard, (publisher.queue shard).Holds (onShard shard (stored events))
  owned : ∀ thread shard, publisher.registration thread = some shard →
    onShard shard (stored events) =
      onShard shard (accepted events) ++ (publisher.sending thread).pending
  unowned : ∀ shard, (∀ thread, publisher.registration thread ≠ some shard) →
    onShard shard (stored events) = [] ∧ onShard shard (accepted events) = []
  drawn : ∀ shard, onShard shard (consumed events) =
    (onShard shard (stored events)).take (publisher.taken shard)
  takes : ∀ shard, publisher.publishing.taking? = some shard →
    (publisher.queue shard).readPosition < (publisher.queue shard).cachedWritePosition
  counted : publisher.sent + publisher.sendErrors = (consumed events).length

theorem Sound.taken_le {events : List Event} {publisher : MulticastPublisher}
    (h : Sound events publisher) (shard : Nat) :
    publisher.taken shard ≤ (onShard shard (stored events)).length := by
  have := (h.holds shard).written
  have := (h.holds shard).cachedWrite
  rw [(h.holds shard).length, taken]
  split
  · rename_i hstoring
    have := h.takes shard (congrArg Publishing.taking? hstoring)
    omega
  · omega

/-! ## A thread that has its shard -/

/-- What a step of the thread on its shard leaves alone. -/
structure Touches (publisher publisher' : MulticastPublisher) (thread shard : Nat) : Prop where
  shards : ∀ other, other ≠ shard → publisher'.shards other = publisher.shards other
  producers : ∀ other, other ≠ thread → publisher'.producers other = publisher.producers other
  registration : publisher'.registration thread = publisher.registration thread
  nextProducerShard : publisher'.nextProducerShard = publisher.nextProducerShard
  readPosition :
    (publisher'.queue shard).readPosition = (publisher.queue shard).readPosition
  cachedWritePosition :
    (publisher'.queue shard).cachedWritePosition = (publisher.queue shard).cachedWritePosition
  publishing : publisher'.publishing = publisher.publishing
  running : publisher'.running = publisher.running
  stopping : publisher'.stopping = publisher.stopping
  sent : publisher'.sent = publisher.sent
  sendErrors : publisher'.sendErrors = publisher.sendErrors

/-- A step that shows nothing but of the shard, and nothing consumed. -/
def Event.Within (shard : Nat) (event : Event) : Prop :=
  event.consumed? = none ∧
    ∀ other, other ≠ shard → onShard other event.stored?.toList = [] ∧
      onShard other event.accepted?.toList = []

section Touches

variable {publisher publisher' : MulticastPublisher} {thread shard : Nat}

theorem Touches.registrations (h : Touches publisher publisher' thread shard) (other : Nat) :
    publisher'.registration other = publisher.registration other := by
  by_cases hother : other = thread
  · rw [hother, h.registration]
  · simp only [MulticastPublisher.registration, h.producers other hother]

/-- Two states of a shard that its producer does not tell apart. -/
structure ProducerShard.Alike (shard shard' : ProducerShard) : Prop where
  activeSender : shard'.activeSender = shard.activeSender
  slots : shard'.queue.slots = shard.queue.slots
  writePosition : shard'.queue.writePosition = shard.queue.writePosition
  cachedReadPosition : shard'.queue.cachedReadPosition = shard.queue.cachedReadPosition

theorem ProducerShard.Alike.of_eq {shard shard' : ProducerShard} (h : shard' = shard) :
    shard.Alike shard' := by
  subst h
  exact ⟨rfl, rfl, rfl, rfl⟩

/-- What a thread relies on is its registration and its own shard. -/
theorem Fits.congr {sending : Sending} (h : Fits publisher thread sending)
    (hregistration : publisher'.registration thread = publisher.registration thread)
    (hshard : ∀ shard, publisher.registration thread = some shard →
      (publisher.shards shard).Alike (publisher'.shards shard)) :
    Fits publisher' thread sending := by
  cases sending <;> simp only [Fits, hregistration] at h ⊢
  case activating | testing | signalling => exact h
  case storing shard datagram =>
    obtain ⟨hactive, hslots, hwrite, hread⟩ := hshard shard h.1
    simpa only [Raised, Room, queue, hactive, hslots, hwrite, hread] using h
  case writing shard datagram =>
    obtain ⟨hactive, hslots, hwrite, hread⟩ := hshard shard h.1
    simpa only [Raised, Room, queue, hactive, hwrite, hread] using h
  all_goals
    have hactive := (hshard _ h.1).activeSender
    simpa only [Raised, hactive] using h

theorem Sound.own {events : List Event} {event : Event} (h : Sound events publisher)
    (hregistration : publisher.registration thread = some shard)
    (htouches : Touches publisher publisher' thread shard) (hwithin : event.Within shard)
    (hfits : Fits publisher' thread (publisher'.sending thread))
    (hholds : (publisher'.queue shard).Holds (onShard shard (stored (events ++ [event]))))
    (howned : onShard shard (stored (events ++ [event])) =
      onShard shard (accepted (events ++ [event])) ++ (publisher'.sending thread).pending) :
    Sound (events ++ [event]) publisher' where
  registered := by
    intro other j hother
    rw [htouches.registrations] at hother
    rw [htouches.nextProducerShard]
    exact h.registered other j hother
  distinct := by
    intro t t' j ht ht'
    rw [htouches.registrations] at ht ht'
    exact h.distinct t t' j ht ht'
  fits := by
    intro other
    by_cases hother : other = thread
    · rw [hother]
      exact hfits
    · have hsending : publisher'.sending other = publisher.sending other := by
        simp only [sending, htouches.producers other hother]
      rw [hsending]
      refine (h.fits other).congr (htouches.registrations other) fun j hj => .of_eq ?_
      refine htouches.shards j ?_
      rintro rfl
      exact hother (h.distinct other thread j hj hregistration)
  holds := by
    intro j
    by_cases hj : j = shard
    · rw [hj]
      exact hholds
    · rw [queue, htouches.shards j hj, stored_snoc, onShard_append, (hwithin.2 j hj).1,
        List.append_nil]
      exact h.holds j
  owned := by
    intro other j hother
    by_cases hj : j = shard
    · subst hj
      rw [htouches.registrations] at hother
      rw [h.distinct other thread j hother hregistration]
      exact howned
    · have hne : other ≠ thread := by
        rintro rfl
        rw [htouches.registrations, hregistration] at hother
        exact hj (Option.some.inj hother).symm
      rw [htouches.registrations] at hother
      rw [stored_snoc, accepted_snoc, onShard_append, onShard_append, (hwithin.2 j hj).1,
        (hwithin.2 j hj).2, List.append_nil, List.append_nil, h.owned other j hother, sending,
        sending, htouches.producers other hne]
  unowned := by
    intro j hnone
    have hj : j ≠ shard := by
      rintro rfl
      exact hnone thread (by rw [htouches.registrations]; exact hregistration)
    rw [stored_snoc, accepted_snoc, onShard_append, onShard_append, (hwithin.2 j hj).1,
      (hwithin.2 j hj).2, List.append_nil, List.append_nil]
    refine h.unowned j fun other => ?_
    rw [← htouches.registrations]
    exact hnone other
  drawn := by
    intro j
    have htaken : publisher'.taken j = publisher.taken j := by
      by_cases hj : j = shard
      · rw [hj, taken, taken, htouches.readPosition, htouches.publishing]
      · rw [taken, taken, queue, queue, htouches.shards j hj, htouches.publishing]
    rw [consumed_snoc, hwithin.1, htaken, Option.toList_none, List.append_nil, h.drawn j,
      stored_snoc, onShard_append, List.take_append_of_le_length (h.taken_le j)]
  takes := by
    intro j hj
    rw [htouches.publishing] at hj
    by_cases hshard : j = shard
    · rw [hshard, htouches.readPosition, htouches.cachedWritePosition, ← hshard]
      exact h.takes j hj
    · rw [queue, htouches.shards j hshard]
      exact h.takes j hj
  counted := by
    rw [htouches.sent, htouches.sendErrors, h.counted, consumed_snoc, hwithin.1]
    simp

/-- A step that adds nothing to a history. -/
def Event.Quiet (event : Event) : Prop :=
  event.stored? = none ∧ event.accepted? = none ∧ event.consumed? = none

theorem Event.Quiet.within {event : Event} (h : event.Quiet) (shard : Nat) :
    event.Within shard := by
  obtain ⟨hstored, haccepted, hconsumed⟩ := h
  refine ⟨hconsumed, fun _ _ => ?_⟩
  rw [hstored, haccepted]
  exact ⟨rfl, rfl⟩

theorem Sound.ownQuiet {events : List Event} {event : Event} (h : Sound events publisher)
    (hregistration : publisher.registration thread = some shard)
    (htouches : Touches publisher publisher' thread shard) (hquiet : event.Quiet)
    (hfits : Fits publisher' thread (publisher'.sending thread))
    (hholds : (publisher'.queue shard).Holds (onShard shard (stored events)))
    (hpending : (publisher'.sending thread).pending = (publisher.sending thread).pending) :
    Sound (events ++ [event]) publisher' := by
  refine h.own hregistration htouches (hquiet.within shard) hfits ?_ ?_
  · rw [stored_snoc, hquiet.1, Option.toList_none, List.append_nil]
    exact hholds
  · rw [stored_snoc, accepted_snoc, hquiet.1, hquiet.2.1, Option.toList_none, List.append_nil,
      List.append_nil, hpending]
    exact h.owned thread shard hregistration

end Touches

section Updates

variable (publisher : MulticastPublisher) (thread shard : Nat)

@[simp] theorem setSending_sending (sending : Sending) :
    (publisher.setSending thread sending).sending thread = sending := by
  simp [setSending, MulticastPublisher.sending]

theorem setSending_other {other : Nat} (h : other ≠ thread) (sending : Sending) :
    (publisher.setSending thread sending).sending other = publisher.sending other := by
  simp [setSending, MulticastPublisher.sending, Function.update_of_ne h]

@[simp] theorem setSending_registration (sending : Sending) (other : Nat) :
    (publisher.setSending thread sending).registration other = publisher.registration other := by
  by_cases h : other = thread
  · simp [setSending, MulticastPublisher.registration, h]
  · simp [setSending, MulticastPublisher.registration, Function.update_of_ne h]

@[simp] theorem setSending_shards (sending : Sending) :
    (publisher.setSending thread sending).shards = publisher.shards := rfl

@[simp] theorem setSending_queue (sending : Sending) :
    (publisher.setSending thread sending).queue = publisher.queue := rfl

theorem register_registration (other : Nat) :
    (publisher.register thread shard).registration other =
      if other = thread then some shard else publisher.registration other := by
  by_cases h : other = thread <;> simp [register, registration, h]

@[simp] theorem register_sending (other : Nat) :
    (publisher.register thread shard).sending other = publisher.sending other := by
  by_cases h : other = thread <;> simp [register, sending, h]

@[simp] theorem setQueue_queue (queue : SpscRing Datagram queueCapacityPerProducer) :
    (publisher.setQueue shard queue).queue shard = queue := by
  simp [setQueue, MulticastPublisher.queue]

@[simp] theorem setQueue_activeSender (queue : SpscRing Datagram queueCapacityPerProducer)
    (other : Nat) : ((publisher.setQueue shard queue).shards other).activeSender =
      (publisher.shards other).activeSender := by
  by_cases h : other = shard
  · simp [setQueue, h]
  · simp [setQueue, Function.update_of_ne h]

@[simp] theorem setQueue_registration (queue : SpscRing Datagram queueCapacityPerProducer) :
    (publisher.setQueue shard queue).registration = publisher.registration := rfl

@[simp] theorem setActiveSender_activeSender (activeSender : Bool) :
    ((publisher.setActiveSender shard activeSender).shards shard).activeSender = activeSender := by
  simp [setActiveSender]

@[simp] theorem setActiveSender_queue (activeSender : Bool) :
    (publisher.setActiveSender shard activeSender).queue = publisher.queue := by
  funext other
  by_cases h : other = shard
  · simp [setActiveSender, queue, h]
  · simp [setActiveSender, queue, Function.update_of_ne h]

@[simp] theorem setActiveSender_registration (activeSender : Bool) :
    (publisher.setActiveSender shard activeSender).registration = publisher.registration := rfl

@[simp] theorem setQueue_self : publisher.setQueue shard (publisher.queue shard) = publisher := by
  simp [setQueue, queue]

@[simp] theorem setPublishing_publishing (publishing : Publishing) :
    (publisher.setPublishing publishing).publishing = publishing := rfl

@[simp] theorem setPublishing_shards (publishing : Publishing) :
    (publisher.setPublishing publishing).shards = publisher.shards := rfl

@[simp] theorem setPublishing_queue (publishing : Publishing) :
    (publisher.setPublishing publishing).queue = publisher.queue := rfl

@[simp] theorem setPublishing_running (publishing : Publishing) :
    (publisher.setPublishing publishing).running = publisher.running := rfl

@[simp] theorem setPublishing_setPublishing (publishing publishing' : Publishing) :
    (publisher.setPublishing publishing).setPublishing publishing' =
      publisher.setPublishing publishing' := rfl

theorem Touches.trans {publisher publisher' publisher'' : MulticastPublisher} {thread shard : Nat}
    (h : Touches publisher publisher' thread shard)
    (h' : Touches publisher' publisher'' thread shard) :
    Touches publisher publisher'' thread shard where
  shards := fun other hother => (h'.shards other hother).trans (h.shards other hother)
  producers := fun other hother => (h'.producers other hother).trans (h.producers other hother)
  registration := h'.registration.trans h.registration
  nextProducerShard := h'.nextProducerShard.trans h.nextProducerShard
  readPosition := h'.readPosition.trans h.readPosition
  cachedWritePosition := h'.cachedWritePosition.trans h.cachedWritePosition
  publishing := h'.publishing.trans h.publishing
  running := h'.running.trans h.running
  stopping := h'.stopping.trans h.stopping
  sent := h'.sent.trans h.sent
  sendErrors := h'.sendErrors.trans h.sendErrors

theorem touches_setSending (sending : Sending) :
    Touches publisher (publisher.setSending thread sending) thread shard where
  shards := fun _ _ => rfl
  producers := fun _ hother => Function.update_of_ne hother _ _
  registration := setSending_registration publisher thread sending thread
  nextProducerShard := rfl
  readPosition := rfl
  cachedWritePosition := rfl
  publishing := rfl
  running := rfl
  stopping := rfl
  sent := rfl
  sendErrors := rfl

theorem touches_setActiveSender (activeSender : Bool) :
    Touches publisher (publisher.setActiveSender shard activeSender) thread shard where
  shards := fun _ hother => Function.update_of_ne hother _ _
  producers := fun _ _ => rfl
  registration := rfl
  nextProducerShard := rfl
  readPosition := by rw [setActiveSender_queue]
  cachedWritePosition := by rw [setActiveSender_queue]
  publishing := rfl
  running := rfl
  stopping := rfl
  sent := rfl
  sendErrors := rfl

theorem touches_setQueue (queue : SpscRing Datagram queueCapacityPerProducer)
    (hread : queue.readPosition = (publisher.queue shard).readPosition)
    (hcached : queue.cachedWritePosition = (publisher.queue shard).cachedWritePosition) :
    Touches publisher (publisher.setQueue shard queue) thread shard where
  shards := fun _ hother => Function.update_of_ne hother _ _
  producers := fun _ _ => rfl
  registration := rfl
  nextProducerShard := rfl
  readPosition := by rw [setQueue_queue, hread]
  cachedWritePosition := by rw [setQueue_queue, hcached]
  publishing := rfl
  running := rfl
  stopping := rfl
  sent := rfl
  sendErrors := rfl

theorem touches_wake (wakeRequested : Bool) :
    Touches publisher { publisher with wakeRequested } thread shard :=
  ⟨fun _ _ => rfl, fun _ _ => rfl, rfl, rfl, rfl, rfl, rfl, rfl, rfl, rfl, rfl⟩

theorem Touches.setSending {publisher publisher' : MulticastPublisher} {thread shard : Nat}
    (h : Touches publisher publisher' thread shard) (sending : Sending) :
    Touches publisher (publisher'.setSending thread sending) thread shard :=
  h.trans (touches_setSending publisher' thread shard sending)

end Updates

end MulticastPublisher

end ExchangeLab

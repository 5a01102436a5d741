import ExchangeLab.Multicast.Drain

/-!
# ExchangeLab.Multicast.Calls

A thread stores what it calls `send` with in the order of the calls, whatever it is refused.

* `offered`: what a thread has stored and may still store.
* `offered_call`: a call adds its datagram, or nothing.
* `offered_send`: a step keeps what it is, or drops the datagram of the call.
* `Publishes.offered`, `offered_stop`: the other threads keep it.
-/

namespace ExchangeLab

namespace MulticastPublisher

open Transition

/-- The datagram that a call of `send` may still store. -/
def Sending.unstored : Sending → List Datagram
  | .registering datagram | .activating _ datagram | .rechecking _ datagram
  | .loadingWrite _ datagram | .loadingRead _ datagram | .writing _ datagram
  | .storing _ datagram => [datagram]
  | _ => []

/-- What the thread has stored. -/
def storedBy (publisher : MulticastPublisher) (thread : Nat) (events : List Event) :
    List Datagram :=
  match publisher.registration thread with
  | some shard => onShard shard (stored events)
  | none => []

def offered (publisher : MulticastPublisher) (thread : Nat) (events : List Event) :
    List Datagram :=
  publisher.storedBy thread events ++ (publisher.sending thread).unstored

variable {publisher publisher' : MulticastPublisher} {events : List Event} {event : Event}
variable {thread shard : Nat} {datagram : Datagram}

theorem storedBy_of_registration (h : publisher.registration thread = some shard) :
    publisher.storedBy thread events = onShard shard (stored events) := by
  rw [storedBy, h]

theorem storedBy_congr
    (hregistration : publisher'.registration thread = publisher.registration thread)
    (hstored : ∀ shard, publisher.registration thread = some shard →
      onShard shard event.stored?.toList = []) :
    publisher'.storedBy thread (events ++ [event]) = publisher.storedBy thread events := by
  rw [storedBy, storedBy, hregistration]
  cases hshard : publisher.registration thread with
  | none => rfl
  | some shard =>
    simp only [stored_snoc, onShard_append, hstored shard hshard, List.append_nil]

theorem offered_congr
    (hregistration : publisher'.registration thread = publisher.registration thread)
    (hsending : publisher'.sending thread = publisher.sending thread)
    (hstored : ∀ shard, publisher.registration thread = some shard →
      onShard shard event.stored?.toList = []) :
    publisher'.offered thread (events ++ [event]) = publisher.offered thread events := by
  rw [offered, offered, storedBy_congr hregistration hstored, hsending]

/-- What a step of a thread does to what the threads offer. -/
structure Offers (events : List Event) (publisher : MulticastPublisher) (event : Event)
    (publisher' : MulticastPublisher) (thread : Nat) (called : List Datagram) : Prop where
  own : publisher'.offered thread (events ++ [event]) <+: publisher.offered thread events ++ called
  other : ∀ other, other ≠ thread →
    publisher'.offered other (events ++ [event]) = publisher.offered other events

/-- A thread goes on without storing anything. -/
theorem offers_kept {called : List Datagram}
    (hregistration : ∀ other, publisher'.registration other = publisher.registration other)
    (hsending : ∀ other, other ≠ thread → publisher'.sending other = publisher.sending other)
    (hstored : event.stored? = none)
    (hunstored : (publisher'.sending thread).unstored <+:
      (publisher.sending thread).unstored ++ called) :
    Offers events publisher event publisher' thread called := by
  have hnone : ∀ shard, onShard shard event.stored?.toList = [] := by
    rw [hstored]
    exact fun _ => rfl
  constructor
  · rw [offered, offered, storedBy_congr (hregistration thread) fun shard _ => hnone shard,
      List.append_assoc]
    exact (List.prefix_append_right_inj _).mpr hunstored
  · exact fun other hother =>
      offered_congr (hregistration other) (hsending other hother) fun shard _ => hnone shard

theorem Touches.offers {called : List Datagram} (h : Touches publisher publisher' thread shard)
    (hstored : event.stored? = none)
    (hunstored : (publisher'.sending thread).unstored <+:
      (publisher.sending thread).unstored ++ called) :
    Offers events publisher event publisher' thread called := by
  refine offers_kept h.registrations (fun other hother => ?_) hstored hunstored
  simp only [sending, h.producers other hother]

theorem offered_call (hcall : sendCall thread datagram publisher = some (event, publisher')) :
    Offers events publisher event publisher' thread [datagram] := by
  rw [sendCall] at hcall
  split at hcall
  · rename_i hidle
    split at hcall <;> cases hcall
    · refine ⟨?_, fun other _ => offered_congr rfl rfl fun _ _ => rfl⟩
      rw [offered_congr rfl rfl fun _ _ => rfl]
      exact List.prefix_append _ _
    · refine (touches_setSending publisher thread 0 _).offers rfl ?_
      simp [hidle, Sending.unstored]
  · cases hcall

/-- The first call of a thread takes a shard on which nothing was stored. -/
theorem Sound.offered_register (h : Sound events publisher)
    (hsending : publisher.sending thread = .registering datagram)
    (hnone : publisher.registration thread = none) :
    Offers events publisher .silent
      (({ publisher with nextProducerShard := publisher.nextProducerShard + 1 }.register thread
        publisher.nextProducerShard).setSending thread
          (.activating publisher.nextProducerShard datagram)) thread [] := by
  have hfresh : ∀ other, publisher.registration other ≠ some publisher.nextProducerShard := by
    intro other hother
    exact Nat.lt_irrefl _ (h.registered other _ hother).1
  have hregistration : ∀ other, (({ publisher with
      nextProducerShard := publisher.nextProducerShard + 1 }.register thread
        publisher.nextProducerShard).setSending thread
          (.activating publisher.nextProducerShard datagram)).registration other =
      if other = thread then some publisher.nextProducerShard
      else publisher.registration other := by
    intro other
    rw [setSending_registration, register_registration]
    rfl
  constructor
  · have hempty := (h.unowned publisher.nextProducerShard hfresh).1
    rw [offered, offered, storedBy_of_registration ((hregistration thread).trans (if_pos rfl)),
      storedBy, hnone, hsending, setSending_sending]
    simp [hempty, Event.stored?, Sending.unstored]
  · intro other hother
    refine offered_congr ((hregistration other).trans (if_neg hother)) ?_ fun _ _ => rfl
    rw [setSending_other _ thread hother, register_sending]
    rfl

theorem Sound.offered_store (h : Sound events publisher)
    (hsending : publisher.sending thread = .storing shard datagram) :
    Offers events publisher (.stored shard datagram)
      ((publisher.setQueue shard (publisher.queue shard).storeWritePosition).setSending thread
        (.deactivating shard (some datagram))) thread [] := by
  have hfits := h.fits thread
  rw [hsending] at hfits
  have hregistration := hfits.1
  have htouches := (touches_setQueue publisher thread shard
    (publisher.queue shard).storeWritePosition rfl rfl).setSending
      (.deactivating shard (some datagram))
  constructor
  · rw [offered, offered, storedBy_of_registration (htouches.registration.trans hregistration),
      storedBy_of_registration hregistration, hsending, setSending_sending]
    simp [Event.stored?, Sending.unstored]
  · intro other hother
    refine offered_congr (htouches.registrations other) ?_ fun shard' hshard' => ?_
    · simp only [sending, htouches.producers other hother]
    · have hne : shard ≠ shard' := by
        rintro rfl
        exact hother (h.distinct other thread shard hshard' hregistration)
      exact onShard_other hne datagram

theorem Sound.offered_send (h : Sound events publisher)
    (hsend : sendStep thread publisher = some (event, publisher')) :
    Offers events publisher event publisher' thread [] := by
  cases hsending : publisher.sending thread with
  | idle => simp [sendStep, hsending] at hsend
  | registering datagram =>
    simp only [sendStep, hsending] at hsend
    split at hsend
    · cases hsend
      refine (touches_setSending publisher thread 0 _).offers rfl ?_
      simp [hsending, Sending.unstored]
    · rename_i hnone
      split at hsend <;> cases hsend
      · refine offers_kept (setSending_registration _ thread _) ?_ rfl ?_
        · exact fun other hother => setSending_other _ thread hother _
        · simp [hsending, Sending.unstored]
      · exact h.offered_register hsending hnone
  | activating shard datagram =>
    simp only [sendStep, hsending] at hsend
    cases hsend
    refine ((touches_setActiveSender publisher thread shard true).setSending _).offers rfl ?_
    simp [hsending, Sending.unstored]
  | rechecking shard datagram | loadingWrite shard datagram | testing shard datagram =>
    simp only [sendStep, hsending] at hsend
    split at hsend <;> cases hsend <;>
      exact (touches_setSending publisher thread 0 _).offers rfl
        (by simp [hsending, Sending.unstored])
  | withdrawing shard =>
    simp only [sendStep, hsending] at hsend
    cases hsend
    refine ((touches_setActiveSender publisher thread shard false).setSending _).offers rfl ?_
    simp [hsending, Sending.unstored]
  | loadingRead shard datagram =>
    simp only [sendStep, hsending] at hsend
    split at hsend <;> cases hsend <;>
      exact ((touches_setQueue publisher thread shard (publisher.queue shard).loadReadPosition rfl
        rfl).setSending _).offers rfl (by simp [hsending, Sending.unstored])
  | writing shard datagram =>
    simp only [sendStep, hsending] at hsend
    cases hsend
    refine ((touches_setQueue publisher thread shard ((publisher.queue shard).writeSlot datagram)
      rfl rfl).setSending _).offers rfl ?_
    simp [hsending, Sending.unstored]
  | storing shard datagram =>
    simp only [sendStep, hsending] at hsend
    cases hsend
    exact h.offered_store hsending
  | deactivating shard queued =>
    cases queued <;> simp only [sendStep, hsending] at hsend <;> cases hsend <;>
      exact ((touches_setActiveSender publisher thread shard false).setSending _).offers rfl
        (by simp [hsending, Sending.unstored])
  | signalling shard datagram =>
    simp only [sendStep, hsending] at hsend
    cases hsend
    refine ((touches_wake publisher thread 0 true).setSending _).offers rfl ?_
    simp [hsending, Sending.unstored]

theorem Publishes.offered (h : Publishes publisher event publisher') (thread : Nat) :
    publisher'.offered thread (events ++ [event]) = publisher.offered thread events := by
  refine offered_congr ?_ ?_ fun shard _ => ?_
  · rw [registration, h.producers, ← registration]
  · rw [sending, h.producers, ← sending]
  · rw [h.stored]
    rfl

theorem offered_stop (hstop : stopStep publisher = some (event, publisher')) (thread : Nat) :
    publisher'.offered thread (events ++ [event]) = publisher.offered thread events := by
  simp only [stopStep] at hstop
  split at hstop
  · cases hstop
    exact offered_congr rfl rfl fun _ _ => rfl
  · cases hstop
    exact offered_congr rfl rfl fun _ _ => rfl
  · split at hstop <;> cases hstop
    exact offered_congr rfl rfl fun _ _ => rfl
  · cases hstop

end MulticastPublisher

end ExchangeLab

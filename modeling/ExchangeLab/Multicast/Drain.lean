import ExchangeLab.Multicast.Steps

/-!
# ExchangeLab.Multicast.Drain

What `publisher_loop` has consumed when it exits.

The exit check looks at all queues and then at all flags. `Exiting` says what it knows on the way, in
a run in which no flag of a shard it has found empty goes down over a queue that is not (`Guarded`):
a queue it has found empty is empty still, or has a thread with its flag up; and once the flag was
found down, nothing is stored on the shard any more.

* `Sends`, `sends_send`: what a step of `send` can do to the exit check.
* `Exiting.step`, `exiting_run`.
* `Sound.consumed_stored`: at the exit all that was stored is consumed.
-/

namespace ExchangeLab

namespace MulticastPublisher

open Transition

def Empty (publisher : MulticastPublisher) (shard : Nat) : Prop :=
  (publisher.queue shard).readPosition = (publisher.queue shard).writePosition

/-- The exit check finds the queue of the shard empty, and has not yet looked at its flag. -/
def SeenEmpty (publisher : MulticastPublisher) (shard : Nat) : Prop :=
  match publisher.publishing with
  | .queueWrite true _ next => shard < next
  | .queueRead true _ next write =>
    shard < next ∨ shard = next ∧ write = (publisher.queue shard).readPosition
  | .activeSender _ next => next ≤ shard
  | _ => False

/-- The exit check has found the flag of the shard down as well. -/
def SeenIdle (publisher : MulticastPublisher) (shard : Nat) : Prop :=
  match publisher.publishing with
  | .activeSender _ next => shard < next
  | .exited => True
  | _ => False

/-- The step does not take down the flag of a shard that the exit check has found empty and that is
not empty any more. -/
def Guarded (publisher : MulticastPublisher) (event : Event) : Prop :=
  ∀ shard, event = .cleared shard → SeenEmpty publisher shard → Empty publisher shard

def GuardedStep (publisher : MulticastPublisher) (event : Event)
    (publisher' : MulticastPublisher) : Prop :=
  Step publisher event publisher' ∧ Guarded publisher event

/-- The shard on which the thread, past its second look at `running_`, may still store. -/
def Sending.storesOn? : Sending → Option Nat
  | .loadingWrite shard _ | .loadingRead shard _ | .writing shard _ | .storing shard _ => some shard
  | _ => none

/-- Past the look at `running_` that found the publisher stopped. -/
def Publishing.exiting : Publishing → Bool
  | .queueWrite exiting _ _ | .queueRead exiting _ _ _ => exiting
  | .activeSender _ _ | .exited => true
  | _ => false

structure Exiting (publisher : MulticastPublisher) : Prop where
  stopped : publisher.publishing.exiting = true → publisher.running = false
  seen : ∀ shard, shard < producerShardCount → SeenEmpty publisher shard → Empty publisher shard ∨
    ∃ thread queued, publisher.sending thread = .deactivating shard queued
  idle : ∀ shard, shard < producerShardCount → SeenIdle publisher shard → Empty publisher shard ∧
    ∀ thread, (publisher.sending thread).storesOn? ≠ some shard

/-! ## What one step of `send` does -/

/-- What every step of the thread leaves alone. -/
structure Stays (publisher publisher' : MulticastPublisher) (thread : Nat) : Prop where
  sending : ∀ other, other ≠ thread → publisher'.sending other = publisher.sending other
  readPosition : ∀ shard,
    (publisher'.queue shard).readPosition = (publisher.queue shard).readPosition
  publishing : publisher'.publishing = publisher.publishing
  running : publisher'.running = publisher.running
  stopping : publisher'.stopping = publisher.stopping

inductive Sends (thread : Nat) (publisher : MulticastPublisher) :
    Event → MulticastPublisher → Prop
  | goesOn {event : Event} {publisher' : MulticastPublisher}
      (hfrom : ∀ shard queued, publisher.sending thread ≠ .deactivating shard queued)
      (hto : ∀ shard, (publisher'.sending thread).storesOn? = some shard →
        (publisher.sending thread).storesOn? = some shard ∨ publisher.running = true)
      (hwrite : ∀ shard,
        (publisher'.queue shard).writePosition = (publisher.queue shard).writePosition) :
      Sends thread publisher event publisher'
  | stores {shard : Nat} {datagram : Datagram} {publisher' : MulticastPublisher}
      (hfrom : publisher.sending thread = .storing shard datagram)
      (hto : publisher'.sending thread = .deactivating shard (some datagram))
      (hwrite : ∀ other, other ≠ shard →
        (publisher'.queue other).writePosition = (publisher.queue other).writePosition) :
      Sends thread publisher (.stored shard datagram) publisher'
  | clears {shard : Nat} {queued : Option Datagram} {publisher' : MulticastPublisher}
      (hfrom : publisher.sending thread = .deactivating shard queued)
      (hto : (publisher'.sending thread).storesOn? = none)
      (hwrite : ∀ other,
        (publisher'.queue other).writePosition = (publisher.queue other).writePosition) :
      Sends thread publisher (.cleared shard) publisher'

theorem Touches.stays {publisher publisher' : MulticastPublisher} {thread shard : Nat}
    (h : Touches publisher publisher' thread shard) : Stays publisher publisher' thread where
  sending := by
    intro other hother
    simp only [MulticastPublisher.sending, h.producers other hother]
  readPosition := by
    intro other
    by_cases hother : other = shard
    · rw [hother, h.readPosition]
    · rw [queue, queue, h.shards other hother]
  publishing := h.publishing
  running := h.running
  stopping := h.stopping

theorem Touches.writePosition {publisher publisher' : MulticastPublisher} {thread shard : Nat}
    (h : Touches publisher publisher' thread shard)
    (hwrite : (publisher'.queue shard).writePosition = (publisher.queue shard).writePosition)
    (other : Nat) :
    (publisher'.queue other).writePosition = (publisher.queue other).writePosition := by
  by_cases hother : other = shard
  · rw [hother, hwrite]
  · rw [queue, queue, h.shards other hother]

section Send

variable {publisher publisher' : MulticastPublisher} {thread shard : Nat} {event : Event}

theorem sends_call {datagram : Datagram}
    (hcall : sendCall thread datagram publisher = some (event, publisher')) :
    Stays publisher publisher' thread ∧ Sends thread publisher event publisher' := by
  rw [sendCall] at hcall
  split at hcall
  · rename_i hidle
    split at hcall
    · cases hcall
      refine ⟨⟨fun _ _ => rfl, fun _ => rfl, rfl, rfl, rfl⟩, .goesOn ?_ ?_ fun _ => rfl⟩
      · simp [hidle]
      · exact fun _ h => .inl h
    · cases hcall
      refine ⟨(touches_setSending publisher thread 0 _).stays, .goesOn ?_ ?_ fun _ => rfl⟩
      · simp [hidle]
      · simp [Sending.storesOn?]
  · cases hcall

theorem sends_send (hsend : sendStep thread publisher = some (event, publisher')) :
    Stays publisher publisher' thread ∧ Sends thread publisher event publisher' := by
  cases hsending : publisher.sending thread with
  | idle => simp [sendStep, hsending] at hsend
  | registering datagram =>
    simp only [sendStep, hsending] at hsend
    split at hsend
    · cases hsend
      refine ⟨(touches_setSending publisher thread 0 _).stays, .goesOn ?_ ?_ fun _ => rfl⟩
      · simp [hsending]
      · simp [Sending.storesOn?]
    · split at hsend
      · cases hsend
        refine ⟨⟨?_, fun _ => rfl, rfl, rfl, rfl⟩, .goesOn ?_ ?_ fun _ => rfl⟩
        · exact fun other hother => setSending_other _ thread hother _
        · simp [hsending]
        · simp [Sending.storesOn?]
      · cases hsend
        refine ⟨⟨?_, fun _ => rfl, rfl, rfl, rfl⟩, .goesOn ?_ ?_ fun _ => rfl⟩
        · intro other hother
          rw [setSending_other _ thread hother, register_sending]
          rfl
        · simp [hsending]
        · simp [Sending.storesOn?]
  | activating shard datagram =>
    simp only [sendStep, hsending] at hsend
    cases hsend
    have htouches := (touches_setActiveSender publisher thread shard true).setSending
      (.rechecking shard datagram)
    refine ⟨htouches.stays, .goesOn ?_ ?_ (htouches.writePosition (by simp))⟩
    · simp [hsending]
    · simp [Sending.storesOn?]
  | rechecking shard datagram =>
    simp only [sendStep, hsending] at hsend
    split at hsend
    · rename_i hrunning
      cases hsend
      refine ⟨(touches_setSending publisher thread 0 _).stays, .goesOn ?_ ?_ fun _ => rfl⟩
      · simp [hsending]
      · exact fun _ _ => .inr hrunning
    · cases hsend
      refine ⟨(touches_setSending publisher thread 0 _).stays, .goesOn ?_ ?_ fun _ => rfl⟩
      · simp [hsending]
      · simp [Sending.storesOn?]
  | withdrawing shard =>
    simp only [sendStep, hsending] at hsend
    cases hsend
    have htouches := (touches_setActiveSender publisher thread shard false).setSending .idle
    refine ⟨htouches.stays, .goesOn ?_ ?_ (htouches.writePosition (by simp))⟩
    · simp [hsending]
    · simp [Sending.storesOn?]
  | loadingWrite shard datagram =>
    simp only [sendStep, hsending] at hsend
    split at hsend
    all_goals
      cases hsend
      refine ⟨(touches_setSending publisher thread 0 _).stays, .goesOn ?_ ?_ fun _ => rfl⟩
      · simp [hsending]
      · simp [hsending, Sending.storesOn?]
  | loadingRead shard datagram =>
    have htouches := touches_setQueue publisher thread shard
      (publisher.queue shard).loadReadPosition rfl rfl
    simp only [sendStep, hsending] at hsend
    split at hsend
    · cases hsend
      have htouches := htouches.setSending (.deactivating shard none)
      refine ⟨htouches.stays, .goesOn ?_ ?_ (htouches.writePosition ?_)⟩
      · simp [hsending]
      · simp [Sending.storesOn?]
      · simp [SpscRing.loadReadPosition]
    · cases hsend
      have htouches := htouches.setSending (.writing shard datagram)
      refine ⟨htouches.stays, .goesOn ?_ ?_ (htouches.writePosition ?_)⟩
      · simp [hsending]
      · simp [hsending, Sending.storesOn?]
      · simp [SpscRing.loadReadPosition]
  | writing shard datagram =>
    simp only [sendStep, hsending] at hsend
    cases hsend
    have htouches := (touches_setQueue publisher thread shard
      ((publisher.queue shard).writeSlot datagram) rfl rfl).setSending (.storing shard datagram)
    refine ⟨htouches.stays, .goesOn ?_ ?_ (htouches.writePosition ?_)⟩
    · simp [hsending]
    · simp [hsending, Sending.storesOn?]
    · simp [SpscRing.writeSlot]
  | storing shard datagram =>
    simp only [sendStep, hsending] at hsend
    cases hsend
    have htouches := (touches_setQueue publisher thread shard
      (publisher.queue shard).storeWritePosition rfl rfl).setSending
        (.deactivating shard (some datagram))
    refine ⟨htouches.stays, .stores hsending (setSending_sending _ thread _) ?_⟩
    intro other hother
    have hshards := htouches.shards other hother
    exact congrArg (fun shard => shard.queue.writePosition) hshards
  | deactivating shard queued =>
    have htouches := touches_setActiveSender publisher thread shard false
    simp only [sendStep, hsending] at hsend
    split at hsend
    · cases hsend
      have htouches := htouches.setSending .idle
      refine ⟨htouches.stays, .clears hsending ?_ (htouches.writePosition (by simp))⟩
      simp [Sending.storesOn?]
    · rename_i datagram
      cases hsend
      have htouches := htouches.setSending (.testing shard datagram)
      refine ⟨htouches.stays, .clears hsending ?_ (htouches.writePosition (by simp))⟩
      simp [Sending.storesOn?]
  | testing shard datagram =>
    simp only [sendStep, hsending] at hsend
    split at hsend
    all_goals
      cases hsend
      refine ⟨(touches_setSending publisher thread 0 _).stays, .goesOn ?_ ?_ fun _ => rfl⟩
      · simp [hsending]
      · simp [Sending.storesOn?]
  | signalling shard datagram =>
    simp only [sendStep, hsending] at hsend
    cases hsend
    have htouches := (touches_wake publisher thread 0 true).setSending .idle
    refine ⟨htouches.stays, .goesOn ?_ ?_ fun _ => rfl⟩
    · simp [hsending]
    · simp [Sending.storesOn?]

end Send

/-! ## The exit check -/

section Exit

variable {publisher publisher' : MulticastPublisher} {thread shard : Nat} {event : Event}

theorem exiting_start (slots : Nat → Nat → Datagram) : Exiting (start slots) where
  stopped := by
    intro h
    cases h
  seen := fun _ _ h => h.elim
  idle := fun _ _ h => h.elim

theorem SeenEmpty.exiting (h : SeenEmpty publisher shard) :
    publisher.publishing.exiting = true := by
  unfold SeenEmpty at h
  split at h <;> simp_all [Publishing.exiting]

theorem SeenIdle.exiting (h : SeenIdle publisher shard) :
    publisher.publishing.exiting = true := by
  unfold SeenIdle at h
  split at h <;> simp_all [Publishing.exiting]

theorem Stays.seenEmpty (h : Stays publisher publisher' thread) :
    SeenEmpty publisher' shard ↔ SeenEmpty publisher shard := by
  simp only [SeenEmpty, h.publishing, h.readPosition]

theorem Stays.seenIdle (h : Stays publisher publisher' thread) :
    SeenIdle publisher' shard ↔ SeenIdle publisher shard := by
  simp only [SeenIdle, h.publishing]

theorem Stays.empty (h : Stays publisher publisher' thread)
    (hwrite : (publisher'.queue shard).writePosition = (publisher.queue shard).writePosition) :
    Empty publisher' shard ↔ Empty publisher shard := by
  simp only [Empty, h.readPosition, hwrite]

/-- A step of a thread in `send` while the exit check is at work. The flag of a thread that stores
stays up until the check has seen it, by `hguard`; no other thread can store any more. -/
theorem Exiting.send (h : Exiting publisher) (hstays : Stays publisher publisher' thread)
    (hsends : Sends thread publisher event publisher') (hguard : Guarded publisher event) :
    Exiting publisher' where
  stopped := by
    rw [hstays.publishing, hstays.running]
    exact h.stopped
  seen := by
    intro shard hshard hseen
    rw [hstays.seenEmpty] at hseen
    have hother : ∀ other queued, other ≠ thread →
        publisher.sending other = .deactivating shard queued →
        ∃ thread queued, publisher'.sending thread = .deactivating shard queued := by
      intro other queued hne hother
      exact ⟨other, queued, by rw [hstays.sending other hne, hother]⟩
    cases hsends with
    | goesOn hfrom hto hwrite =>
      rw [hstays.empty (hwrite shard)]
      rcases h.seen shard hshard hseen with hempty | ⟨other, queued, hup⟩
      · exact .inl hempty
      · refine .inr (hother other queued ?_ hup)
        rintro rfl
        exact hfrom shard queued hup
    | @stores stored datagram _ hfrom hto hwrite =>
      by_cases hstored : shard = stored
      · subst hstored
        exact .inr ⟨thread, some datagram, hto⟩
      · rw [hstays.empty (hwrite shard hstored)]
        rcases h.seen shard hshard hseen with hempty | ⟨other, queued, hup⟩
        · exact .inl hempty
        · refine .inr (hother other queued ?_ hup)
          rintro rfl
          rw [hfrom] at hup
          cases hup
    | @clears cleared queued _ hfrom hto hwrite =>
      rw [hstays.empty (hwrite shard)]
      by_cases hcleared : shard = cleared
      · subst hcleared
        exact .inl (hguard shard rfl hseen)
      · rcases h.seen shard hshard hseen with hempty | ⟨other, queued', hup⟩
        · exact .inl hempty
        · refine .inr (hother other queued' ?_ hup)
          rintro rfl
          rw [hfrom] at hup
          cases hup
          exact hcleared rfl
  idle := by
    intro shard hshard hidle
    rw [hstays.seenIdle] at hidle
    obtain ⟨hempty, hnone⟩ := h.idle shard hshard hidle
    have hstopped := h.stopped hidle.exiting
    have hothers : (publisher'.sending thread).storesOn? ≠ some shard →
        ∀ other, (publisher'.sending other).storesOn? ≠ some shard := by
      intro hthread other
      by_cases hother : other = thread
      · rw [hother]
        exact hthread
      · rw [hstays.sending other hother]
        exact hnone other
    cases hsends with
    | goesOn hfrom hto hwrite =>
      refine ⟨(hstays.empty (hwrite shard)).mpr hempty, hothers fun hstores => ?_⟩
      rcases hto shard hstores with hstores | hrunning
      · exact hnone thread hstores
      · rw [hstopped] at hrunning
        cases hrunning
    | @stores stored datagram _ hfrom hto hwrite =>
      have hstored : shard ≠ stored := by
        rintro rfl
        exact hnone thread (by rw [hfrom]; rfl)
      refine ⟨(hstays.empty (hwrite shard hstored)).mpr hempty, hothers ?_⟩
      rw [hto]
      simp [Sending.storesOn?]
    | clears hfrom hto hwrite =>
      refine ⟨(hstays.empty (hwrite shard)).mpr hempty, hothers ?_⟩
      rw [hto]
      simp

theorem Exiting.of_not_exiting (h : publisher.publishing.exiting = false) :
    Exiting publisher where
  stopped := by
    intro hexiting
    rw [h] at hexiting
    cases hexiting
  seen := by
    intro shard _ hseen
    have := hseen.exiting
    rw [h] at this
    cases this
  idle := by
    intro shard _ hidle
    have := hidle.exiting
    rw [h] at this
    cases this

/-- A shard the thread is active on has its flag up. -/
theorem Sound.raised {events : List Event} (h : Sound events publisher)
    (hactive : (publisher.sending thread).storesOn? = some shard ∨
      ∃ queued, publisher.sending thread = .deactivating shard queued) :
    (publisher.shards shard).activeSender = true := by
  have hfits := h.fits thread
  rcases hactive with hactive | ⟨queued, hactive⟩
  · cases hsending : publisher.sending thread <;> rw [hsending] at hactive hfits <;>
      simp only [Sending.storesOn?, Option.some.injEq, reduceCtorEq] at hactive <;>
      subst hactive
    · exact hfits.2
    · exact hfits.2
    · exact hfits.2.1
    · exact hfits.2.1
  · rw [hactive] at hfits
    exact hfits.2

/-- The check turns to the next queue, or to the flags. -/
theorem Exiting.nextQueue {cursor : Nat} (h : Exiting publisher)
    (hat : publisher.publishing =
      .queueRead true cursor shard (publisher.queue shard).readPosition) :
    Exiting (publisher.setPublishing (queueNext true cursor shard)) := by
  have hstopped : publisher.running = false := h.stopped (congrArg Publishing.exiting hat)
  have hseen : ∀ other, other ≤ shard → SeenEmpty publisher other := by
    intro other hle
    simp only [SeenEmpty, hat]
    rcases Nat.lt_or_eq_of_le hle with hlt | rfl
    · exact .inl hlt
    · exact .inr ⟨rfl, rfl⟩
  rw [queueNext]
  split
  · refine ⟨fun _ => hstopped, fun other hother hseen' => ?_, fun _ _ hidle => hidle.elim⟩
    exact h.seen other hother (hseen other (Nat.lt_succ_iff.mp hseen'))
  · rename_i hlast
    rw [if_pos rfl]
    refine ⟨fun _ => hstopped, fun other hother _ => ?_, fun _ _ hidle => ?_⟩
    · exact h.seen other hother (hseen other (by omega))
    · exact absurd hidle (Nat.not_lt_zero _)

/-- The check turns to the next flag, or exits. -/
theorem Exiting.nextSender {events : List Event} {cursor : Nat} (h : Exiting publisher)
    (hsound : Sound events publisher) (hat : publisher.publishing = .activeSender cursor shard)
    (hdown : (publisher.shards shard).activeSender = false) :
    Exiting (publisher.setPublishing (senderNext cursor shard)) := by
  have hstopped : publisher.running = false := h.stopped (congrArg Publishing.exiting hat)
  have hidle : ∀ other, other < producerShardCount → other ≤ shard → Empty publisher other ∧
      ∀ thread, (publisher.sending thread).storesOn? ≠ some other := by
    intro other hother hle
    rcases Nat.lt_or_eq_of_le hle with hlt | rfl
    · exact h.idle other hother (by simpa only [SeenIdle, hat] using hlt)
    · have hdown' : ∀ thread, ¬ ((publisher.sending thread).storesOn? = some other ∨
          ∃ queued, publisher.sending thread = .deactivating other queued) := by
        intro thread hactive
        have hup := hsound.raised hactive
        rw [hdown] at hup
        cases hup
      refine ⟨?_, fun thread hstores => hdown' thread (.inl hstores)⟩
      have hseen : SeenEmpty publisher other := by simp only [SeenEmpty, hat, Nat.le_refl]
      rcases h.seen other hother hseen with hempty | ⟨thread, queued, hup⟩
      · exact hempty
      · exact absurd (.inr ⟨queued, hup⟩) (hdown' thread)
  rw [senderNext]
  split
  · refine ⟨fun _ => hstopped, fun other hother hseen => ?_, fun other hother hidle' => ?_⟩
    · refine h.seen other hother ?_
      simp only [SeenEmpty, hat]
      exact Nat.le_of_succ_le hseen
    · exact hidle other hother (Nat.lt_succ_iff.mp hidle')
  · refine ⟨fun _ => hstopped, fun _ _ hseen => hseen.elim, fun other hother _ => ?_⟩
    exact hidle other hother (by omega)

theorem Exiting.publish {events : List Event} {success : Bool} (h : Exiting publisher)
    (hsound : Sound events publisher)
    (hpublish : publishStep success publisher = some (event, publisher')) :
    Exiting publisher' := by
  cases hat : publisher.publishing with
  | scanning cursor offset | waiting cursor | recheckingRunning cursor =>
    simp only [publishStep, hat] at hpublish
    split at hpublish <;> cases hpublish <;> exact .of_not_exiting rfl
  | consuming shard | storingRead shard | clearing cursor =>
    simp only [publishStep, hat] at hpublish
    cases hpublish
    exact .of_not_exiting rfl
  | loadingWrite cursor offset =>
    simp only [publishStep, hat] at hpublish
    split at hpublish <;> cases hpublish
    · refine .of_not_exiting ?_
      simp only [setPublishing, scanNext]
      split <;> rfl
    · exact .of_not_exiting rfl
  | checkingRunning cursor =>
    simp only [publishStep, hat] at hpublish
    split at hpublish <;> cases hpublish
    · exact .of_not_exiting rfl
    · rename_i hstopped
      refine ⟨fun _ => Bool.eq_false_iff.mpr hstopped, fun _ _ hseen => ?_, fun _ _ h => h.elim⟩
      exact absurd hseen (Nat.not_lt_zero _)
  | queueWrite exiting cursor shard =>
    simp only [publishStep, hat] at hpublish
    cases hpublish
    cases exiting
    · exact .of_not_exiting rfl
    · refine ⟨fun _ => h.stopped (congrArg Publishing.exiting hat), ?_, fun _ _ h => h.elim⟩
      rintro other hother (hlt | ⟨rfl, hread⟩)
      · exact h.seen other hother (by simpa only [SeenEmpty, hat] using hlt)
      · exact .inl hread.symm
  | queueRead exiting cursor shard write =>
    simp only [publishStep, hat] at hpublish
    split at hpublish <;> cases hpublish
    · rename_i hempty
      cases exiting
      · refine .of_not_exiting ?_
        simp only [setPublishing, queueNext]
        split <;> rfl
      · rw [SpscRing.emptyApprox, beq_iff_eq] at hempty
        rw [hempty] at hat
        exact h.nextQueue hat
    · exact .of_not_exiting rfl
  | activeSender cursor shard =>
    simp only [publishStep, hat] at hpublish
    split at hpublish <;> cases hpublish
    · exact .of_not_exiting rfl
    · rename_i hdown
      exact h.nextSender hsound hat (Bool.eq_false_iff.mpr hdown)
  | exited => simp [publishStep, hat] at hpublish

theorem Exiting.stop (h : Exiting publisher)
    (hstop : stopStep publisher = some (event, publisher')) : Exiting publisher' := by
  simp only [stopStep] at hstop
  split at hstop
  · cases hstop
    exact ⟨fun _ => rfl, h.seen, h.idle⟩
  · cases hstop
    exact ⟨h.stopped, h.seen, h.idle⟩
  · split at hstop <;> cases hstop
    exact ⟨h.stopped, h.seen, h.idle⟩
  · cases hstop

theorem Exiting.step {events : List Event} (h : Exiting publisher) (hsound : Sound events publisher)
    (hstep : GuardedStep publisher event publisher') : Exiting publisher' := by
  obtain ⟨hstep, hguard⟩ := hstep
  cases hstep with
  | call thread datagram hcall =>
    obtain ⟨hstays, hsends⟩ := sends_call hcall
    exact h.send hstays hsends hguard
  | send thread hsend =>
    obtain ⟨hstays, hsends⟩ := sends_send hsend
    exact h.send hstays hsends hguard
  | publish success hpublish => exact h.publish hsound hpublish
  | stop hstop => exact h.stop hstop

end Exit

/-! ## What is consumed -/

section Drained

variable {publisher : MulticastPublisher} {events : List Event} {slots : Nat → Nat → Datagram}

theorem run_of_guarded {publisher' : MulticastPublisher}
    (h : Run GuardedStep publisher events publisher') : Run Step publisher events publisher' := by
  induction h with
  | nil => exact .nil _
  | snoc _ hstep ih => exact ih.snoc hstep.1

theorem exiting_run (h : Run GuardedStep (start slots) events publisher) : Exiting publisher :=
  h.history (P := fun _ => Exiting) (exiting_start slots) fun _ _ _ _ hrun hexiting hstep =>
    hexiting.step (sound_run (run_of_guarded hrun)) hstep

/-- What a step of the publisher thread leaves alone. -/
structure Publishes (publisher : MulticastPublisher) (event : Event)
    (publisher' : MulticastPublisher) : Prop where
  producers : publisher'.producers = publisher.producers
  running : publisher'.running = publisher.running
  stopping : publisher'.stopping = publisher.stopping
  stored : event.stored? = none

theorem publishes_publish {success : Bool} {event : Event} {publisher' : MulticastPublisher}
    (hpublish : publishStep success publisher = some (event, publisher')) :
    Publishes publisher event publisher' := by
  cases hat : publisher.publishing
  all_goals simp only [publishStep, hat, reduceCtorEq] at hpublish
  case consuming =>
    cases hpublish
    cases success <;> exact ⟨rfl, rfl, rfl, rfl⟩
  case storingRead | queueWrite | clearing =>
    cases hpublish
    exact ⟨rfl, rfl, rfl, rfl⟩
  all_goals split at hpublish <;> cases hpublish <;> exact ⟨rfl, rfl, rfl, rfl⟩

/-- `stop` returns after it has joined the publisher thread. -/
theorem exited_of_returned (h : Run Step (start slots) events publisher)
    (hreturned : publisher.stopping = .returned) : publisher.publishing = .exited := by
  refine h.invariant
    (P := fun publisher => publisher.stopping = .returned → publisher.publishing = .exited) ?_ ?_
    hreturned
  · intro hstart
    cases hstart
  · intro publisher event publisher' hexited hstep hreturned
    cases hstep with
    | call thread datagram hcall =>
      obtain ⟨hstays, -⟩ := sends_call hcall
      rw [hstays.publishing]
      exact hexited (hstays.stopping ▸ hreturned)
    | send thread hsend =>
      obtain ⟨hstays, -⟩ := sends_send hsend
      rw [hstays.publishing]
      exact hexited (hstays.stopping ▸ hreturned)
    | publish success hpublish =>
      rw [(publishes_publish hpublish).stopping] at hreturned
      simp [publishStep, hexited hreturned] at hpublish
    | stop hstop =>
      simp only [stopStep] at hstop
      split at hstop
      · cases hstop
        cases hreturned
      · cases hstop
        cases hreturned
      · split at hstop <;> cases hstop
        assumption
      · cases hstop

/-- Nothing is accepted on a shard but what was stored there, in order. -/
theorem Sound.accepted_prefix (h : Sound events publisher) (shard : Nat) :
    onShard shard (accepted events) <+: onShard shard (stored events) := by
  by_cases howned : ∃ thread, publisher.registration thread = some shard
  · obtain ⟨thread, hthread⟩ := howned
    exact ⟨_, (h.owned thread shard hthread).symm⟩
  · obtain ⟨-, haccepted⟩ := h.unowned shard fun thread hthread => howned ⟨thread, hthread⟩
    rw [haccepted]
    exact List.nil_prefix

theorem Sound.accepted_stored (h : Sound events publisher)
    (hidle : ∀ thread, publisher.sending thread = .idle) (shard : Nat) :
    onShard shard (accepted events) = onShard shard (stored events) := by
  by_cases howned : ∃ thread, publisher.registration thread = some shard
  · obtain ⟨thread, hthread⟩ := howned
    rw [h.owned thread shard hthread, hidle thread]
    simp [Sending.pending]
  · obtain ⟨hstored, haccepted⟩ :=
      h.unowned shard fun thread hthread => howned ⟨thread, hthread⟩
    rw [hstored, haccepted]

/-- Once the loop has exited, all that was ever stored is consumed. -/
theorem Sound.consumed_stored (h : Sound events publisher) (hexiting : Exiting publisher)
    (hexit : publisher.publishing = .exited) (shard : Nat) :
    onShard shard (consumed events) = onShard shard (stored events) := by
  rw [h.drawn shard, taken, hexit, if_neg (by simp), Nat.add_zero]
  refine List.take_of_length_le ?_
  by_cases hshard : shard < producerShardCount
  · have hidle : SeenIdle publisher shard := by simp only [SeenIdle, hexit]
    exact Nat.le_of_eq ((h.holds shard).length.trans (hexiting.idle shard hshard hidle).1.symm)
  · obtain ⟨hstored, -⟩ := h.unowned shard fun thread hthread =>
      hshard (h.registered thread shard hthread).2
    rw [hstored]
    exact Nat.zero_le _

end Drained

end MulticastPublisher

end ExchangeLab

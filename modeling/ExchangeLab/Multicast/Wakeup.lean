import ExchangeLab.Multicast.Shutdown

/-!
# ExchangeLab.Multicast.Wakeup

The publisher thread going to sleep against the threads in `send` and in `stop`.

Before it waits, the publisher thread clears `wake_requested_` and looks at all queues once more.
`Arming` says what it knows on the way: a queue it has passed is empty, or the flag is up again, or
the thread that has queued a datagram has yet to signal.

* `Signals`, `signals_send`: what a step of `send` can do to the flag.
* `Arming.step`, `arming_run`.
* `no_missed_wakeup`: a publisher thread that waits has nothing to do, or will be told.
-/

namespace ExchangeLab

namespace MulticastPublisher

open Transition

/-- What a thread in `send` has queued, up to the end of its `signal_consumer`. -/
def Sending.unsignalled? : Sending → Option Datagram
  | .deactivating _ queued => queued
  | .testing _ queued | .signalling _ queued => some queued
  | _ => none

/-- Some thread has queued a datagram and has not finished `signal_consumer`. -/
def Unsignalled (publisher : MulticastPublisher) : Prop :=
  ∃ thread datagram, (publisher.sending thread).unsignalled? = some datagram

/-- In `wake_requested_.wait(false)`, with the flag false. -/
def Blocked (publisher : MulticastPublisher) : Prop :=
  (∃ cursor, publisher.publishing = .waiting cursor) ∧ publisher.wakeRequested = false

/-- What a blocked publisher thread can rely on. -/
structure Awaited (publisher : MulticastPublisher) : Prop where
  queues : (∀ shard, shard < producerShardCount → Empty publisher shard) ∨ Unsignalled publisher
  /-- `stop` has not executed its test-and-set. -/
  stopping : publisher.stopping = .idle ∨ publisher.stopping = .signalling

/-- The pass of `all_queues_empty` since the flag was cleared has found the queue empty. -/
def Passed (publisher : MulticastPublisher) (shard : Nat) : Prop :=
  match publisher.publishing with
  | .queueWrite false _ next => shard < next
  | .queueRead false _ next write =>
    shard < next ∨ shard = next ∧ write = (publisher.queue shard).readPosition
  | .recheckingRunning _ | .waiting _ => shard < producerShardCount
  | _ => False

def Covered (publisher : MulticastPublisher) (shard : Nat) : Prop :=
  publisher.wakeRequested = true ∨ Unsignalled publisher ∨ Empty publisher shard

structure Arming (publisher : MulticastPublisher) : Prop where
  passed : ∀ shard, Passed publisher shard → Covered publisher shard
  stopped : publisher.stopping ≠ .idle → publisher.running = false
  signalled : ∀ cursor, publisher.publishing = .waiting cursor →
    publisher.stopping = .idle ∨ publisher.stopping = .signalling ∨ publisher.wakeRequested = true

/-! ## What one step of `send` does -/

inductive Signals (thread : Nat) (publisher publisher' : MulticastPublisher) : Prop
  | goesOn
      (hunsignalled : (publisher'.sending thread).unsignalled? =
        (publisher.sending thread).unsignalled?)
      (hwake : publisher'.wakeRequested = publisher.wakeRequested)
      (hwrite : ∀ shard,
        (publisher'.queue shard).writePosition = (publisher.queue shard).writePosition)
  | stores {datagram : Datagram}
      (hunsignalled : (publisher'.sending thread).unsignalled? = some datagram)
      (hwake : publisher'.wakeRequested = publisher.wakeRequested)
  | signals (hwake : publisher'.wakeRequested = true)
      (hwrite : ∀ shard,
        (publisher'.queue shard).writePosition = (publisher.queue shard).writePosition)

section Send

variable {publisher publisher' : MulticastPublisher} {thread shard : Nat} {event : Event}

theorem setQueue_writePosition {queue : SpscRing Datagram queueCapacityPerProducer}
    (h : queue.writePosition = (publisher.queue shard).writePosition) (other : Nat) :
    ((publisher.setQueue shard queue).queue other).writePosition =
      (publisher.queue other).writePosition := by
  by_cases hother : other = shard
  · rw [hother, setQueue_queue, h]
  · simp [setQueue, MulticastPublisher.queue, Function.update_of_ne hother]

theorem signals_call {datagram : Datagram}
    (hcall : sendCall thread datagram publisher = some (event, publisher')) :
    Signals thread publisher publisher' := by
  rw [sendCall] at hcall
  split at hcall
  · rename_i hidle
    split at hcall <;> cases hcall
    · exact .goesOn rfl rfl fun _ => rfl
    · exact .goesOn (by simp [hidle, Sending.unsignalled?]) rfl fun _ => rfl
  · cases hcall

theorem signals_send (hsend : sendStep thread publisher = some (event, publisher')) :
    Signals thread publisher publisher' := by
  cases hsending : publisher.sending thread with
  | idle => simp [sendStep, hsending] at hsend
  | registering datagram =>
    simp only [sendStep, hsending] at hsend
    split at hsend
    · cases hsend
      exact .goesOn (by simp [hsending, Sending.unsignalled?]) rfl fun _ => rfl
    · split at hsend <;> cases hsend
      · exact .goesOn (by simp [hsending, Sending.unsignalled?]) rfl fun _ => rfl
      · exact .goesOn (by simp [hsending, Sending.unsignalled?]) rfl fun _ => rfl
  | activating shard datagram =>
    simp only [sendStep, hsending] at hsend
    cases hsend
    exact .goesOn (by simp [hsending, Sending.unsignalled?]) rfl (by simp)
  | rechecking shard datagram =>
    simp only [sendStep, hsending] at hsend
    split at hsend <;> cases hsend <;>
      exact .goesOn (by simp [hsending, Sending.unsignalled?]) rfl fun _ => rfl
  | withdrawing shard =>
    simp only [sendStep, hsending] at hsend
    cases hsend
    exact .goesOn (by simp [hsending, Sending.unsignalled?]) rfl (by simp)
  | loadingWrite shard datagram =>
    simp only [sendStep, hsending] at hsend
    split at hsend <;> cases hsend <;>
      exact .goesOn (by simp [hsending, Sending.unsignalled?]) rfl fun _ => rfl
  | loadingRead shard datagram =>
    simp only [sendStep, hsending] at hsend
    have hsame : (publisher.queue shard).loadReadPosition.writePosition =
        (publisher.queue shard).writePosition := rfl
    split at hsend <;> cases hsend <;>
      exact .goesOn (by simp [hsending, Sending.unsignalled?]) rfl (setQueue_writePosition hsame)
  | writing shard datagram =>
    simp only [sendStep, hsending] at hsend
    have hsame : ((publisher.queue shard).writeSlot datagram).writePosition =
        (publisher.queue shard).writePosition := rfl
    cases hsend
    exact .goesOn (by simp [hsending, Sending.unsignalled?]) rfl (setQueue_writePosition hsame)
  | storing shard datagram =>
    simp only [sendStep, hsending] at hsend
    cases hsend
    exact @Signals.stores _ _ _ datagram (by simp [Sending.unsignalled?]) rfl
  | deactivating shard queued =>
    cases queued <;> simp only [sendStep, hsending] at hsend <;> cases hsend <;>
      exact .goesOn (by simp [hsending, Sending.unsignalled?]) rfl (by simp)
  | testing shard datagram =>
    simp only [sendStep, hsending] at hsend
    split at hsend <;> cases hsend
    · rename_i hwake
      exact .signals hwake fun _ => rfl
    · exact .goesOn (by simp [hsending, Sending.unsignalled?]) rfl fun _ => rfl
  | signalling shard datagram =>
    simp only [sendStep, hsending] at hsend
    cases hsend
    exact .signals rfl fun _ => rfl

/-- A thread that stores has a signal to give, and one that has given it leaves the flag up. -/
theorem Covered.send (h : Covered publisher shard) (hstays : Stays publisher publisher' thread)
    (hsignals : Signals thread publisher publisher') : Covered publisher' shard := by
  cases hsignals with
  | goesOn hunsignalled hwake hwrite =>
    rw [Covered, hwake, hstays.empty (hwrite shard)]
    refine h.imp_right (Or.imp_left ?_)
    rintro ⟨other, datagram, hother⟩
    refine ⟨other, datagram, ?_⟩
    by_cases hthread : other = thread
    · rw [hthread, hunsignalled, ← hthread, hother]
    · rw [hstays.sending other hthread, hother]
  | stores hunsignalled hwake => exact .inr (.inl ⟨thread, _, hunsignalled⟩)
  | signals hwake hwrite => exact .inl hwake

theorem Stays.passed (h : Stays publisher publisher' thread) :
    Passed publisher' shard ↔ Passed publisher shard := by
  simp only [Passed, h.publishing, h.readPosition]

theorem Signals.wakeRequested (h : Signals thread publisher publisher')
    (hwake : publisher.wakeRequested = true) : publisher'.wakeRequested = true := by
  cases h with
  | goesOn _ hsame _ => rw [hsame, hwake]
  | stores _ hsame => rw [hsame, hwake]
  | signals hup _ => exact hup

theorem Arming.send (h : Arming publisher) (hstays : Stays publisher publisher' thread)
    (hsignals : Signals thread publisher publisher') : Arming publisher' where
  passed := by
    intro shard hpassed
    exact (h.passed shard (hstays.passed.mp hpassed)).send hstays hsignals
  stopped := by
    rw [hstays.stopping, hstays.running]
    exact h.stopped
  signalled := by
    intro cursor hwaiting
    rw [hstays.publishing] at hwaiting
    rw [hstays.stopping]
    exact (h.signalled cursor hwaiting).imp_right (Or.imp_right hsignals.wakeRequested)

end Send

/-! ## What one step of `publisher_loop` does -/

/-- Between the clear and the wait. -/
def Publishing.arming : Publishing → Bool
  | .queueWrite false _ _ | .queueRead false _ _ _ | .recheckingRunning _ | .waiting _ => true
  | _ => false

section Publish

variable {publisher publisher' : MulticastPublisher} {shard : Nat} {event : Event}

theorem Passed.arming (h : Passed publisher shard) : publisher.publishing.arming = true := by
  unfold Passed at h
  split at h <;> simp_all [Publishing.arming]

theorem arming_start (slots : Nat → Nat → Datagram) : Arming (start slots) where
  passed := fun _ h => h.elim
  stopped := fun h => absurd rfl h
  signalled := fun _ h => Publishing.noConfusion h

theorem Arming.of_not_arming {success : Bool} (h : Arming publisher)
    (hpublish : publishStep success publisher = some (event, publisher'))
    (hoff : publisher'.publishing.arming = false) : Arming publisher' where
  passed := by
    intro shard hpassed
    rw [hpassed.arming] at hoff
    cases hoff
  stopped := by
    rw [(publishes_publish hpublish).stopping, (publishes_publish hpublish).running]
    exact h.stopped
  signalled := by
    intro cursor hwaiting
    rw [hwaiting] at hoff
    cases hoff

/-- The thread moves on and has passed no queue that is not covered. -/
theorem Arming.setPublishing {publishing : Publishing} (h : Arming publisher)
    (hpassed : ∀ shard, Passed (publisher.setPublishing publishing) shard →
      Covered publisher shard)
    (hwaiting : ∀ cursor, publishing = .waiting cursor → publisher.running = true) :
    Arming (publisher.setPublishing publishing) where
  passed := hpassed
  stopped := h.stopped
  signalled := by
    intro cursor hat
    refine .inl ?_
    by_contra hstopping
    have hstopped := h.stopped hstopping
    rw [hwaiting cursor hat] at hstopped
    cases hstopped

theorem Arming.publish {success : Bool} (h : Arming publisher)
    (hpublish : publishStep success publisher = some (event, publisher')) :
    Arming publisher' := by
  have hoff := h.of_not_arming hpublish
  cases hat : publisher.publishing with
  | scanning cursor offset | checkingRunning cursor =>
    simp only [publishStep, hat] at hpublish
    split at hpublish <;> cases hpublish <;> exact hoff rfl
  | activeSender cursor shard =>
    simp only [publishStep, hat] at hpublish
    split at hpublish <;> cases hpublish <;> refine hoff ?_
    · rfl
    · simp only [setPublishing_publishing, senderNext]
      split <;> rfl
  | loadingWrite cursor offset =>
    simp only [publishStep, hat] at hpublish
    split at hpublish <;> cases hpublish <;> refine hoff ?_
    · simp only [setPublishing_publishing, scanNext]
      split <;> rfl
    · rfl
  | consuming shard | storingRead shard =>
    simp only [publishStep, hat] at hpublish
    cases hpublish
    exact hoff rfl
  | clearing cursor =>
    simp only [publishStep, hat] at hpublish
    cases hpublish
    exact ⟨fun _ hpassed => absurd hpassed (Nat.not_lt_zero _), h.stopped,
      fun _ hwaiting => Publishing.noConfusion hwaiting⟩
  | queueWrite exiting cursor next =>
    simp only [publishStep, hat] at hpublish
    cases hpublish
    cases exiting
    · refine h.setPublishing ?_ (fun _ hwaiting => Publishing.noConfusion hwaiting)
      rintro shard (hlt | ⟨rfl, hread⟩)
      · exact h.passed shard (by simpa only [Passed, hat] using hlt)
      · exact .inr (.inr hread.symm)
    · exact hoff rfl
  | queueRead exiting cursor next write =>
    simp only [publishStep, hat] at hpublish
    split at hpublish <;> cases hpublish
    · rename_i hempty
      rw [SpscRing.emptyApprox, beq_iff_eq] at hempty
      cases exiting
      · have hpassed : ∀ shard, shard < next + 1 → Covered publisher shard := by
          intro shard hlt
          refine h.passed shard ?_
          simp only [Passed, hat]
          rcases Nat.lt_succ_iff_lt_or_eq.mp hlt with hlt | rfl
          · exact .inl hlt
          · exact .inr ⟨rfl, hempty⟩
        refine h.setPublishing ?_ ?_
        · intro shard hshard
          refine hpassed shard ?_
          by_cases hmore : next + 1 < producerShardCount
          · simpa only [Passed, setPublishing_publishing, queueNext, if_pos hmore] using hshard
          · simp only [Passed, setPublishing_publishing, queueNext, if_neg hmore] at hshard
            exact Nat.lt_of_lt_of_le hshard (Nat.le_of_not_lt hmore)
        · intro cursor' hwaiting
          rw [queueNext] at hwaiting
          split at hwaiting <;> simp at hwaiting
      · refine hoff ?_
        simp only [setPublishing_publishing, queueNext]
        split <;> rfl
    · exact hoff rfl
  | recheckingRunning cursor =>
    simp only [publishStep, hat] at hpublish
    split at hpublish <;> cases hpublish
    · rename_i hrunning
      refine h.setPublishing ?_ fun _ _ => hrunning
      intro shard hpassed
      exact h.passed shard (by simpa only [Passed, setPublishing_publishing, hat] using hpassed)
    · exact hoff rfl
  | waiting cursor =>
    simp only [publishStep, hat] at hpublish
    split at hpublish <;> cases hpublish
    exact hoff rfl
  | exited => simp [publishStep, hat] at hpublish

theorem Arming.stop (h : Arming publisher)
    (hstop : stopStep publisher = some (event, publisher')) : Arming publisher' := by
  simp only [stopStep] at hstop
  split at hstop
  · cases hstop
    exact ⟨h.passed, fun _ => rfl, fun _ _ => .inr (.inl rfl)⟩
  · rename_i hstopping
    cases hstop
    refine ⟨fun _ _ => .inl rfl, fun _ => h.stopped ?_, fun _ _ => .inr (.inr rfl)⟩
    rw [hstopping]
    exact Stopping.noConfusion
  · rename_i hstopping
    split at hstop
    · rename_i hexited
      cases hstop
      refine ⟨h.passed, fun _ => h.stopped ?_, fun cursor hwaiting => ?_⟩
      · rw [hstopping]
        exact Stopping.noConfusion
      · rw [hexited] at hwaiting
        cases hwaiting
    · cases hstop
  · cases hstop

theorem Arming.step (h : Arming publisher) (hstep : Step publisher event publisher') :
    Arming publisher' := by
  cases hstep with
  | call thread datagram hcall => exact h.send (sends_call hcall).1 (signals_call hcall)
  | send thread hsend => exact h.send (sends_send hsend).1 (signals_send hsend)
  | publish success hpublish => exact h.publish hpublish
  | stop hstop => exact h.stop hstop

end Publish

/-! ## No missed wake-up -/

section Wakeup

variable {publisher : MulticastPublisher} {events : List Event} {slots : Nat → Nat → Datagram}

theorem arming_run (h : Run Step (start slots) events publisher) : Arming publisher :=
  h.invariant (arming_start slots) fun _ _ _ harming hstep => harming.step hstep

theorem no_missed_wakeup (h : Run Step (start slots) events publisher)
    (hblocked : Blocked publisher) : Awaited publisher := by
  obtain ⟨⟨cursor, hwaiting⟩, hflag⟩ := hblocked
  have harming := arming_run h
  refine ⟨?_, ?_⟩
  · by_cases hunsignalled : Unsignalled publisher
    · exact .inr hunsignalled
    · refine .inl fun shard hshard => ?_
      have hpassed : Passed publisher shard := by simpa only [Passed, hwaiting] using hshard
      rcases harming.passed shard hpassed with hwake | hother | hempty
      · rw [hflag] at hwake
        cases hwake
      · exact absurd hother hunsignalled
      · exact hempty
  · rcases harming.signalled cursor hwaiting with hidle | hsignalling | hwake
    · exact .inl hidle
    · exact .inr hsignalling
    · rw [hflag] at hwake
      cases hwake

/-- The publisher thread as it waits for the first datagram. -/
def asleep : MulticastPublisher := (start fun _ _ => []).setPublishing (.waiting 0)

theorem reaches_asleep : Reaches Step fresh [] [] asleep := by
  have hstart : Reaches Step fresh [] [] ((start fun _ _ => []).setPublishing (.scanning 0 0)) :=
    ⟨[], .nil _, rfl, rfl⟩
  have hchecking := Reaches.scan (fun _ _ h => h) (fun _ => rfl) (fun _ => rfl)
    producerShardCount 0 rfl (by decide) hstart
  have hclearing : Reaches Step fresh [] [] ((start fun _ _ => []).setPublishing (.clearing 0)) :=
    hchecking.silent (.publish true rfl)
  have hcleared : Reaches Step fresh [] []
      ((start fun _ _ => []).setPublishing (.queueWrite false 0 0)) :=
    hclearing.silent (.publish true rfl)
  have hempty : ∀ shard, Empty (start fun _ _ => []) shard := fun _ => rfl
  have hrechecking := Reaches.queues (fun _ _ h => h) hempty producerShardCount 0 rfl (by decide)
    hcleared
  exact hrechecking.silent (.publish true rfl)

/-- The publisher thread waits, and another has stored a datagram and not yet signalled. -/
theorem no_missed_wakeup_stored : ∃ events publisher,
    Run Step (start fun _ _ => []) events publisher ∧ Blocked publisher ∧
      (publisher.queue 0).readPosition = 0 ∧ (publisher.queue 0).writePosition = 1 ∧
      publisher.sending 0 = .testing 0 [1] ∧ Awaited publisher := by
  have hcall := reaches_asleep.silent (.call 0 [1] rfl)
  have hregister := hcall.silent (.send 0 rfl)
  have hactivate := hregister.silent (.send 0 rfl)
  have hrecheck := hactivate.silent (.send 0 rfl)
  have hloading := hrecheck.silent (.send 0 rfl)
  have hwriting := hloading.silent (.send 0 rfl)
  have hstoring := hwriting.next (.send 0 rfl)
  obtain ⟨publisher, ⟨events, hrun, -⟩, hblocked, hread, hwrite, hsending⟩ : ∃ publisher,
      Reaches Step fresh [] [] publisher ∧ Blocked publisher ∧
        (publisher.queue 0).readPosition = 0 ∧ (publisher.queue 0).writePosition = 1 ∧
        publisher.sending 0 = .testing 0 [1] :=
    ⟨_, hstoring.next (.send 0 rfl), ⟨⟨0, rfl⟩, rfl⟩, rfl, rfl, rfl⟩
  exact ⟨events, publisher, hrun, hblocked, hread, hwrite, hsending, no_missed_wakeup hrun hblocked⟩

end Wakeup

end MulticastPublisher

end ExchangeLab

import ExchangeLab.Multicast.Drain

/-!
# ExchangeLab.Multicast.Shutdown

Shutdown against the datagrams that `send` has accepted.

A thread that was past its second look at `running_` when `stop` came can still store its datagram
after the exit check has found its queue empty, and take its flag down before the check reads it: then
the loop exits, the datagram stays in the queue, and `send` returns true.

* `shutdown_drains`: in a run without such a step, all that `send` accepted is consumed before the
  loop exits.
* `shutdown_loses`: a run with one, in which the only datagram is lost.
-/

namespace ExchangeLab

namespace MulticastPublisher

open Transition

/-- `stop` and `send` against `publisher_loop`: what `send` has returned true for is consumed when
the loop has exited, and is what is counted once `stop` and every `send` have returned. -/
structure Drained (events : List Event) (publisher : MulticastPublisher) : Prop where
  consumed : publisher.publishing = .exited → (accepted events).Subperm (consumed events)
  counted : publisher.stopping = .returned → (∀ thread, publisher.sending thread = .idle) →
    publisher.sent + publisher.sendErrors = (accepted events).length

/-! ## Passes of `publisher_loop` that find nothing -/

/-- What a run by the steps allowed has accepted and consumed on the way to a state. -/
def Reaches (step : MulticastPublisher → Event → MulticastPublisher → Prop)
    (first : MulticastPublisher) (sends consumes : List (Nat × Datagram))
    (publisher : MulticastPublisher) : Prop :=
  ∃ events, Run step first events publisher ∧ accepted events = sends ∧
    consumed events = consumes

/-- As `start` leaves it, with empty slots. -/
def fresh : MulticastPublisher := start fun _ _ => []

section Passes

variable {step : MulticastPublisher → Event → MulticastPublisher → Prop}
variable {sends consumes : List (Nat × Datagram)} {first publisher publisher' : MulticastPublisher}

theorem Reaches.next {event : Event} (h : Reaches step first sends consumes publisher)
    (hstep : step publisher event publisher') :
    Reaches step first (sends ++ event.accepted?.toList) (consumes ++ event.consumed?.toList)
      publisher' := by
  obtain ⟨events, hrun, haccepted, hconsumed⟩ := h
  refine ⟨events ++ [event], hrun.snoc hstep, ?_, ?_⟩
  · rw [accepted_snoc, haccepted]
  · rw [consumed_snoc, hconsumed]

theorem Reaches.silent (h : Reaches step first sends consumes publisher)
    (hstep : step publisher .silent publisher') : Reaches step first sends consumes publisher' := by
  simpa [Event.accepted?, Event.consumed?] using h.next hstep

/-- The publisher thread takes a step that only moves it. -/
theorem Reaches.turn {b a : Publishing} (hsilent : ∀ publisher publisher',
      Step publisher .silent publisher' → step publisher .silent publisher')
    (h : Reaches step first sends consumes (publisher.setPublishing b))
    (hturn : publishStep true (publisher.setPublishing b) =
      some (.silent, publisher.setPublishing a)) :
    Reaches step first sends consumes (publisher.setPublishing a) :=
  h.silent (hsilent _ _ (.publish true hturn))

/-- A pass of `try_consume` over queues with nothing in them. -/
theorem Reaches.scan {cursor : Nat} (hsilent : ∀ publisher publisher',
      Step publisher .silent publisher' → step publisher .silent publisher')
    (hempty : ∀ shard, (publisher.queue shard).empty = true)
    (hloaded : ∀ shard, (publisher.queue shard).loadWritePosition = publisher.queue shard) :
    ∀ rest offset, offset + rest = producerShardCount → 0 < rest →
      Reaches step first sends consumes (publisher.setPublishing (.scanning cursor offset)) →
      Reaches step first sends consumes (publisher.setPublishing (.checkingRunning cursor)) := by
  intro rest
  induction rest with
  | zero => exact fun _ _ hrest => absurd hrest (Nat.lt_irrefl 0)
  | succ rest ih =>
    intro offset hoffset _ h
    have hload := Reaches.turn (a := .loadingWrite cursor offset) hsilent h
      (by simp [publishStep, hempty])
    have hnext := Reaches.turn (a := scanNext cursor offset) hsilent hload (by
      have hself := setQueue_self (publisher.setPublishing (.loadingWrite cursor offset))
        (scanned cursor offset)
      simp only [setPublishing_queue] at hself
      simp [publishStep, hempty, hloaded, hself])
    rw [scanNext] at hnext
    split at hnext
    · exact ih (offset + 1) (by omega) (by omega) hnext
    · exact hnext

/-- A pass of `all_queues_empty`, for the exit check or before the wait. -/
theorem Reaches.queues {exiting : Bool} {cursor : Nat} (hsilent : ∀ publisher publisher',
      Step publisher .silent publisher' → step publisher .silent publisher')
    (hempty : ∀ shard, Empty publisher shard) :
    ∀ rest shard, shard + rest = producerShardCount → 0 < rest →
      Reaches step first sends consumes (publisher.setPublishing (.queueWrite exiting cursor shard)) →
      Reaches step first sends consumes (publisher.setPublishing
        (if exiting then .activeSender cursor 0 else .recheckingRunning cursor)) := by
  intro rest
  induction rest with
  | zero => exact fun _ _ hrest => absurd hrest (Nat.lt_irrefl 0)
  | succ rest ih =>
    intro shard hshard _ h
    have hwrite := Reaches.turn
      (a := .queueRead exiting cursor shard (publisher.queue shard).writePosition) hsilent h
      (by simp [publishStep])
    have hnext := Reaches.turn (a := queueNext exiting cursor shard) hsilent hwrite (by
      have hsame : SpscRing.emptyApprox (publisher.queue shard).writePosition
          (publisher.queue shard).readPosition = true := by
        rw [SpscRing.emptyApprox, hempty shard, beq_self_eq_true]
      simp [publishStep, hsame])
    rw [queueNext] at hnext
    split at hnext
    · exact ih (shard + 1) (by omega) (by omega) hnext
    · exact hnext

/-- A pass of `any_active_senders`. -/
theorem Reaches.senders {cursor : Nat} (hsilent : ∀ publisher publisher',
      Step publisher .silent publisher' → step publisher .silent publisher')
    (hdown : ∀ shard, (publisher.shards shard).activeSender = false) :
    ∀ rest shard, shard + rest = producerShardCount → 0 < rest →
      Reaches step first sends consumes (publisher.setPublishing (.activeSender cursor shard)) →
      Reaches step first sends consumes (publisher.setPublishing .exited) := by
  intro rest
  induction rest with
  | zero => exact fun _ _ hrest => absurd hrest (Nat.lt_irrefl 0)
  | succ rest ih =>
    intro shard hshard _ h
    have hnext := Reaches.turn (a := senderNext cursor shard) hsilent h
      (by simp [publishStep, hdown])
    rw [senderNext] at hnext
    split at hnext
    · exact ih (shard + 1) (by omega) (by omega) hnext
    · exact hnext

end Passes

/-! ## A datagram that is lost -/

/-- Thread 0 is past its second look at `running_`, with a datagram for shard 0. -/
def committed : MulticastPublisher :=
  setSending 0 (.loadingWrite 0 [1])
    (setSending 0 (.rechecking 0 [1])
      (setActiveSender 0 true
        (setSending 0 (.activating 0 [1])
          (register 0 0
            { setSending 0 (.registering [1]) (start fun _ _ => []) with nextProducerShard := 1 }))))

/-- The queue of shard 0 with the datagram. -/
def oneQueued : SpscRing Datagram queueCapacityPerProducer :=
  ((committed.queue 0).writeSlot [1]).storeWritePosition

/-- From `loadingWrite`, past the flag going down with the datagram stored. -/
def queued (publisher : MulticastPublisher) : MulticastPublisher :=
  setSending 0 (.testing 0 [1])
    (setActiveSender 0 false
      (setSending 0 (.deactivating 0 (some [1]))
        (setQueue 0 oneQueued
          (setSending 0 (.storing 0 [1])
            (setQueue 0 ((committed.queue 0).writeSlot [1])
              (setSending 0 (.writing 0 [1]) publisher))))))

/-- `stop` has taken `running_` down; the publisher thread is at a given position. -/
def racing (publishing : Publishing) : MulticastPublisher :=
  { committed with running := false, stopping := .signalling, publishing }

theorem committed_queue (shard : Nat) :
    committed.queue shard = SpscRing.reset { slots := fun _ => [] } := by
  simp only [committed, setSending_queue, setActiveSender_queue]
  rfl

theorem queued_activeSender (shard : Nat) (publishing : Publishing) :
    ((queued (racing publishing)).shards shard).activeSender = false := by
  by_cases h : shard = 0
  · subst h
    rfl
  · simp [queued, racing, committed, register, setSending, setActiveSender, setQueue, start, h]

section Lost

variable {step : MulticastPublisher → Event → MulticastPublisher → Prop}

theorem reaches_committed (hsilent : ∀ publisher publisher',
      Step publisher .silent publisher' → step publisher .silent publisher') :
    Reaches step fresh [] [] committed := by
  have hstart : Reaches step fresh [] [] (start fun _ _ => []) := ⟨[], .nil _, rfl, rfl⟩
  have hcall := hstart.silent (hsilent _ _ (.call 0 [1] rfl))
  have hregister := hcall.silent (hsilent _ _ (.send 0 rfl))
  have hactivate := hregister.silent (hsilent _ _ (.send 0 rfl))
  exact hactivate.silent (hsilent _ _ (.send 0 rfl))

theorem reaches_stopped (hsilent : ∀ publisher publisher',
      Step publisher .silent publisher' → step publisher .silent publisher') :
    Reaches step fresh [] [] (racing (.scanning 0 0)) :=
  (reaches_committed hsilent).silent (hsilent _ _ (.stop rfl))

theorem reaches_racing : Reaches Step fresh [] [] (racing (.activeSender 0 0)) := by
  have hscanning := reaches_stopped fun _ _ h => h
  have hqueue : ∀ shard, (racing (.scanning 0 0)).queue shard =
      SpscRing.reset { slots := fun _ => [] } := committed_queue
  have hchecking := Reaches.scan (fun _ _ h => h) (fun shard => by rw [hqueue]; rfl)
    (fun shard => by rw [hqueue]; rfl) producerShardCount 0 rfl (by decide) hscanning
  have hchecked : Reaches Step fresh [] []
      ((racing (.scanning 0 0)).setPublishing (.queueWrite true 0 0)) :=
    hchecking.silent (.publish true rfl)
  exact Reaches.queues (fun _ _ h => h) (fun shard => by rw [Empty, hqueue]; rfl)
    producerShardCount 0 rfl (by decide) hchecked

theorem reaches_lost : ∃ publisher : MulticastPublisher,
    publisher.publishing = .exited ∧ Reaches Step fresh [(0, [1])] [] publisher := by
  have hwriting := reaches_racing.silent (.send 0 rfl)
  have hstoring := hwriting.silent (.send 0 rfl)
  have hstored := hstoring.next (.send 0 rfl)
  have hqueued : Reaches Step fresh [] []
      ((queued (racing (.activeSender 0 0))).setPublishing (.activeSender 0 0)) :=
    hstored.next (.send 0 rfl)
  have hexited := Reaches.senders (fun _ _ h => h)
    (fun shard => queued_activeSender shard _) producerShardCount 0 rfl (by decide) hqueued
  have hsignalling := hexited.silent (.send 0 rfl)
  exact ⟨_, rfl, hsignalling.next (.send 0 rfl)⟩

end Lost

section Drained

variable {publisher : MulticastPublisher} {events : List Event} {slots : Nat → Nat → Datagram}

/-- Shutdown drains what was accepted, in every run in which no flag of a shard that the exit check
found empty goes down over a queue that is not. -/
theorem shutdown_drains (h : Run GuardedStep (start slots) events publisher) :
    Drained events publisher := by
  have hsound := sound_run (run_of_guarded h)
  have hexiting := exiting_run h
  constructor
  · intro hexit
    rw [List.subperm_ext_iff]
    rintro ⟨shard, datagram⟩ -
    rw [← count_onShard, ← count_onShard, hsound.consumed_stored hexiting hexit]
    exact (hsound.accepted_prefix shard).sublist.count_le datagram
  · intro hreturned hidle
    have hexit := exited_of_returned (run_of_guarded h) hreturned
    have hperm : (accepted events).Perm (consumed events) := by
      rw [List.perm_iff_count]
      rintro ⟨shard, datagram⟩
      rw [← count_onShard, ← count_onShard, hsound.consumed_stored hexiting hexit,
        hsound.accepted_stored hidle]
    rw [hsound.counted, hperm.length_eq]

/-- The datagram has been accepted, consumed and sent, and `stop` has been called. -/
def delivered : MulticastPublisher :=
  let accepted := setSending 0 .idle
    { setSending 0 (.signalling 0 [1]) (queued committed) with wakeRequested := true }
  let loaded := (setQueue 0 oneQueued.loadWritePosition
    (accepted.setPublishing (.loadingWrite 0 0))).setPublishing (.consuming 0)
  let consumed := { loaded with sent := 1 }.setPublishing (.storingRead 0)
  let advanced := (setQueue 0 oneQueued.loadWritePosition.storeReadPosition consumed).setPublishing
    (.scanning 1 0)
  { advanced with running := false, stopping := .signalling }

theorem guarded_silent (publisher publisher' : MulticastPublisher)
    (h : Step publisher .silent publisher') : GuardedStep publisher .silent publisher' := by
  refine ⟨h, fun shard hcleared => ?_⟩
  cases hcleared

theorem reaches_delivered :
    Reaches GuardedStep (racing (.scanning 0 0)) [(0, [1])] [(0, [1])] delivered := by
  have hstopped : Reaches GuardedStep (racing (.scanning 0 0)) [] [] (racing (.scanning 0 0)) :=
    ⟨[], .nil _, rfl, rfl⟩
  have hwriting := hstopped.silent (guarded_silent _ _ (.send 0 rfl))
  have hstoring := hwriting.silent (guarded_silent _ _ (.send 0 rfl))
  have hstored := hstoring.next ⟨.send 0 rfl, fun _ h => by cases h⟩
  have hqueued : Reaches GuardedStep (racing (.scanning 0 0)) [] []
      (queued (racing (.scanning 0 0))) :=
    hstored.next ⟨.send 0 rfl, fun _ _ h => h.elim⟩
  have hsignalling := hqueued.silent (guarded_silent _ _ (.send 0 rfl))
  have haccepted := hsignalling.next ⟨.send 0 rfl, fun _ h => by cases h⟩
  have hloading := haccepted.silent (guarded_silent _ _ (.publish true rfl))
  have hconsuming := hloading.silent (guarded_silent _ _ (.publish true rfl))
  have hconsumed := hconsuming.next ⟨.publish true rfl, fun _ h => by cases h⟩
  exact hconsumed.silent (guarded_silent _ _ (.publish true rfl))

theorem delivered_queue {shard : Nat} (h : shard ≠ 0) :
    delivered.queue shard = SpscRing.reset { slots := fun _ => [] } := by
  rw [← committed_queue shard]
  simp [delivered, queued, setPublishing, setQueue, setSending, setActiveSender, queue, h]

theorem delivered_activeSender (shard : Nat) :
    (delivered.shards shard).activeSender = false := by
  by_cases h : shard = 0
  · subst h
    rfl
  · simp [delivered, queued, committed, register, setPublishing, setSending, setActiveSender,
      setQueue, start, h]

theorem reaches_returned : ∃ publisher : MulticastPublisher, publisher.stopping = .returned ∧
    (∀ thread, publisher.sending thread = .idle) ∧
    Reaches GuardedStep (racing (.scanning 0 0)) [(0, [1])] [(0, [1])] publisher := by
  have hempty : ∀ shard, (delivered.queue shard).empty = true ∧
      (delivered.queue shard).loadWritePosition = delivered.queue shard ∧
      Empty delivered shard := by
    intro shard
    by_cases h : shard = 0
    · subst h
      exact ⟨rfl, rfl, rfl⟩
    · rw [Empty, delivered_queue h]
      exact ⟨rfl, rfl, rfl⟩
  have hscanning : Reaches GuardedStep (racing (.scanning 0 0)) [(0, [1])] [(0, [1])]
      (delivered.setPublishing (.scanning 1 0)) := reaches_delivered
  have hchecking := Reaches.scan guarded_silent (fun shard => (hempty shard).1)
    (fun shard => (hempty shard).2.1) producerShardCount 0 rfl (by decide) hscanning
  have hchecked : Reaches GuardedStep (racing (.scanning 0 0)) [(0, [1])] [(0, [1])]
      (delivered.setPublishing (.queueWrite true 1 0)) :=
    hchecking.silent (guarded_silent _ _ (.publish true rfl))
  have hsenders := Reaches.queues guarded_silent (fun shard => (hempty shard).2.2)
    producerShardCount 0 rfl (by decide) hchecked
  have hexited := Reaches.senders guarded_silent delivered_activeSender producerShardCount 0 rfl
    (by decide) hsenders
  have hjoining := hexited.silent (guarded_silent _ _ (.stop rfl))
  have hreturned := hjoining.silent (guarded_silent _ _ (.stop rfl))
  refine ⟨_, rfl, fun thread => ?_, hreturned⟩
  by_cases h : thread = 0
  · subst h
    rfl
  · simp [sending, delivered, queued, committed, register, setPublishing, setSending,
      setActiveSender, setQueue, start, h]

/-- A run in which `stop` comes while a thread is in `send`, past its second look at `running_`: the
datagram is accepted, consumed and counted. -/
theorem shutdown_drains_overlapping : ∃ before after stopped publisher,
    Run GuardedStep (start fun _ _ => []) before stopped ∧ stopped.running = false ∧
      stopped.sending 0 = .loadingWrite 0 [1] ∧ (stopped.shards 0).activeSender = true ∧
      Run GuardedStep stopped after publisher ∧ publisher.stopping = .returned ∧
      accepted (before ++ after) = [(0, [1])] ∧ Drained (before ++ after) publisher ∧
      publisher.sent + publisher.sendErrors = 1 := by
  obtain ⟨before, hbefore, hnone, -⟩ := reaches_stopped guarded_silent
  obtain ⟨publisher, hreturned, hidle, after, hafter, hone, -⟩ := reaches_returned
  have haccepted : accepted (before ++ after) = [(0, [1])] := by
    rw [accepted, List.filterMap_append, ← accepted, ← accepted, hnone, hone, List.nil_append]
  have hdrained := shutdown_drains (hbefore.append hafter)
  have hcounted := hdrained.counted hreturned hidle
  rw [haccepted] at hcounted
  exact ⟨before, after, _, publisher, hbefore, rfl, rfl, rfl, hafter, hreturned, haccepted,
    hdrained, hcounted⟩

/-- A thread that stores behind the exit check's back: its datagram stays in the queue. -/
theorem shutdown_loses : ¬ ∀ slots events publisher,
    Run Step (start slots) events publisher → Drained events publisher := by
  intro h
  obtain ⟨publisher, hexit, events, hrun, haccepted, hconsumed⟩ := reaches_lost
  have hsubperm := (h _ events publisher hrun).consumed hexit
  rw [haccepted, hconsumed] at hsubperm
  have := hsubperm.length_le
  simp at this

end Drained

end MulticastPublisher

end ExchangeLab

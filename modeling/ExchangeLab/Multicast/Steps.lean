import ExchangeLab.Multicast.Queues

/-!
# ExchangeLab.Multicast.Steps

Every step keeps `Sound`: the cases of `send`, of `publisher_loop` and of `stop`.
-/

namespace ExchangeLab

namespace MulticastPublisher

open Transition

variable {events : List Event} {event : Event} {publisher publisher' : MulticastPublisher}
variable {thread shard : Nat}

theorem sound_start (slots : Nat → Nat → Datagram) : Sound [] (start slots) where
  registered := by
    intro thread shard h
    cases h
  distinct := by
    intro thread thread' shard h
    cases h
  fits := fun _ => trivial
  holds := fun _ => SpscRing.holds_reset _
  owned := by
    intro thread shard h
    cases h
  unowned := fun _ _ => ⟨rfl, rfl⟩
  drawn := fun _ => rfl
  takes := by
    intro shard h
    cases h
  counted := rfl

theorem Sound.quiet (h : Sound events publisher) (hquiet : event.Quiet) :
    Sound (events ++ [event]) publisher := by
  obtain ⟨hstored, haccepted, hconsumed⟩ := hquiet
  have hstored' : stored (events ++ [event]) = stored events := by simp [hstored]
  have haccepted' : accepted (events ++ [event]) = accepted events := by simp [haccepted]
  have hconsumed' : consumed (events ++ [event]) = consumed events := by simp [hconsumed]
  exact {
    registered := h.registered
    distinct := h.distinct
    fits := h.fits
    holds := by rw [hstored']; exact h.holds
    owned := by rw [hstored', haccepted']; exact h.owned
    unowned := by rw [hstored', haccepted']; exact h.unowned
    drawn := by rw [hstored', hconsumed']; exact h.drawn
    takes := h.takes
    counted := by rw [hconsumed']; exact h.counted }

theorem within_stored (shard : Nat) (datagram : Datagram) :
    (Event.stored shard datagram).Within shard :=
  ⟨rfl, fun _ hother => ⟨onShard_other (Ne.symm hother) datagram, rfl⟩⟩

theorem within_accepted (shard : Nat) (datagram : Datagram) :
    (Event.accepted shard datagram).Within shard :=
  ⟨rfl, fun _ hother => ⟨rfl, onShard_other (Ne.symm hother) datagram⟩⟩

theorem quiet_silent : Event.silent.Quiet := ⟨rfl, rfl, rfl⟩

theorem quiet_refused : Event.refused.Quiet := ⟨rfl, rfl, rfl⟩

theorem quiet_cleared (shard : Nat) : (Event.cleared shard).Quiet := ⟨rfl, rfl, rfl⟩

/-! ## `send` -/

/-- A thread goes on, having touched nothing. -/
theorem Sound.move (h : Sound events publisher) {sending : Sending}
    (hfits : Fits publisher thread sending)
    (hpending : sending.pending = (publisher.sending thread).pending) :
    Sound events (publisher.setSending thread sending) where
  registered := by
    intro other shard hother
    exact h.registered other shard (by simpa using hother)
  distinct := by
    intro t t' shard ht ht'
    exact h.distinct t t' shard (by simpa using ht) (by simpa using ht')
  fits := by
    intro other
    by_cases hother : other = thread
    · rw [hother, setSending_sending]
      exact hfits.congr (setSending_registration publisher thread sending thread)
        fun _ _ => .of_eq rfl
    · rw [setSending_other publisher thread hother]
      exact (h.fits other).congr (setSending_registration publisher thread sending other)
        fun _ _ => .of_eq rfl
  holds := h.holds
  owned := by
    intro other shard hother
    rw [setSending_registration] at hother
    rw [h.owned other shard hother]
    by_cases hthread : other = thread
    · rw [hthread, setSending_sending, hpending]
    · rw [setSending_other publisher thread hthread]
  unowned := by
    intro shard hnone
    exact h.unowned shard fun other => by simpa using hnone other
  drawn := h.drawn
  takes := h.takes
  counted := h.counted

/-- A registration that fails has moved the counter. -/
theorem Sound.count (h : Sound events publisher) :
    Sound events { publisher with nextProducerShard := publisher.nextProducerShard + 1 } where
  registered := by
    intro other shard hother
    obtain ⟨hlt, hcount⟩ := h.registered other shard hother
    exact ⟨Nat.lt_succ_of_lt hlt, hcount⟩
  distinct := h.distinct
  fits := fun other => (h.fits other).congr rfl fun _ _ => .of_eq rfl
  holds := h.holds
  owned := h.owned
  unowned := h.unowned
  drawn := h.drawn
  takes := h.takes
  counted := h.counted

/-- A new thread takes a shard below the counter that no thread has; nothing was stored there. -/
theorem Sound.register {datagram : Datagram} (h : Sound events publisher)
    (hnone : publisher.registration thread = none)
    (hsending : publisher.sending thread = .registering datagram)
    (hfresh : ∀ other, publisher.registration other ≠ some shard)
    (hnext : shard < publisher.nextProducerShard) (hshard : shard < producerShardCount) :
    Sound events (publisher.register thread shard) where
  registered := by
    intro other shard' hother
    rw [register_registration] at hother
    split at hother
    · cases hother
      exact ⟨hnext, hshard⟩
    · exact h.registered other shard' hother
  distinct := by
    intro t t' shard' ht ht'
    rw [register_registration] at ht ht'
    split at ht <;> split at ht'
    · rename_i hthread hthread'
      rw [hthread, hthread']
    · cases ht
      exact absurd ht' (hfresh t')
    · cases ht'
      exact absurd ht (hfresh t)
    · exact h.distinct t t' shard' ht ht'
  fits := by
    intro other
    rw [register_sending]
    by_cases hother : other = thread
    · rw [hother, hsending]
      trivial
    · refine (h.fits other).congr ?_ fun _ _ => .of_eq rfl
      rw [register_registration, if_neg hother]
  holds := h.holds
  owned := by
    intro other shard' hother
    rw [register_registration] at hother
    rw [register_sending]
    split at hother
    · rename_i hthread
      cases hother
      have hpending : (Sending.registering datagram).pending = [] := rfl
      rw [hthread, hsending, hpending, List.append_nil]
      obtain ⟨hstored, haccepted⟩ := h.unowned shard hfresh
      rw [hstored, haccepted]
    · exact h.owned other shard' hother
  unowned := by
    intro shard' hnone'
    refine h.unowned shard' fun other hother => hnone' other ?_
    rw [register_registration, if_neg, hother]
    rintro rfl
    rw [hnone] at hother
    cases hother
  drawn := h.drawn
  takes := h.takes
  counted := h.counted

theorem Sound.call (h : Sound events publisher) {datagram : Datagram}
    (hcall : sendCall thread datagram publisher = some (event, publisher')) :
    Sound (events ++ [event]) publisher' := by
  rw [sendCall] at hcall
  split at hcall
  · rename_i hidle
    split at hcall
    · cases hcall
      exact h.quiet quiet_refused
    · cases hcall
      refine Sound.quiet (h.move trivial ?_) quiet_silent
      rw [hidle]
      rfl
  · cases hcall

/-- `send` returns true with the datagram it stored. -/
theorem Sound.accept {datagram : Datagram} (h : Sound events publisher)
    (hregistration : publisher.registration thread = some shard)
    (hpending : (publisher.sending thread).pending = [datagram])
    (htouches : Touches publisher publisher' thread shard)
    (hqueue : publisher'.queue shard = publisher.queue shard)
    (hidle : publisher'.sending thread = .idle) :
    Sound (events ++ [.accepted shard datagram]) publisher' := by
  have howned := h.owned thread shard hregistration
  rw [hpending] at howned
  refine h.own hregistration htouches (within_accepted shard datagram) ?_ ?_ ?_
  · rw [hidle]
    trivial
  · rw [hqueue]
    simpa [Event.stored?] using h.holds shard
  · rw [hidle]
    simpa [Event.stored?, Event.accepted?, Sending.pending] using howned

theorem Sound.send (h : Sound events publisher)
    (hsend : sendStep thread publisher = some (event, publisher')) :
    Sound (events ++ [event]) publisher' := by
  have hfits := h.fits thread
  cases hsending : publisher.sending thread with
  | idle => simp [sendStep, hsending] at hsend
  | registering datagram =>
    simp only [sendStep, hsending] at hsend
    split at hsend
    · rename_i shard hregistration
      cases hsend
      refine Sound.quiet (h.move hregistration ?_) quiet_silent
      rw [hsending]
      rfl
    · rename_i hnone
      split at hsend
      · cases hsend
        refine Sound.quiet (h.count.move trivial ?_) quiet_refused
        exact (congrArg Sending.pending hsending).symm
      · rename_i hshard
        cases hsend
        have hfresh : ∀ other, publisher.registration other ≠ some publisher.nextProducerShard := by
          intro other hother
          exact Nat.lt_irrefl _ (h.registered other _ hother).1
        have hregistered := h.count.register hnone hsending hfresh (Nat.lt_succ_self _)
          (Nat.lt_of_not_ge hshard)
        refine Sound.quiet (hregistered.move ?_ ?_) quiet_silent
        · simp [Fits, register_registration]
        · rw [register_sending]
          exact (congrArg Sending.pending hsending).symm
  | activating shard datagram =>
    rw [hsending] at hfits
    simp only [sendStep, hsending] at hsend
    cases hsend
    have htouches := (touches_setActiveSender publisher thread shard true).setSending
      (.rechecking shard datagram)
    refine h.ownQuiet hfits htouches quiet_silent ?_ ?_ ?_
    · simpa [Fits, Raised] using hfits
    · simpa using h.holds shard
    · simp [hsending, Sending.pending]
  | rechecking shard datagram =>
    rw [hsending] at hfits
    simp only [sendStep, hsending] at hsend
    split at hsend
    all_goals
      cases hsend
      refine Sound.quiet (h.move hfits ?_) quiet_silent
      rw [hsending]
      rfl
  | withdrawing shard =>
    rw [hsending] at hfits
    simp only [sendStep, hsending] at hsend
    cases hsend
    have htouches := (touches_setActiveSender publisher thread shard false).setSending
      .idle
    refine h.ownQuiet hfits.1 htouches quiet_refused ?_ ?_ ?_
    · simp [Fits]
    · simpa using h.holds shard
    · simp [hsending, Sending.pending]
  | loadingWrite shard datagram =>
    rw [hsending] at hfits
    simp only [sendStep, hsending] at hsend
    split at hsend
    · cases hsend
      refine Sound.quiet (h.move hfits ?_) quiet_silent
      rw [hsending]
      rfl
    · rename_i hfull
      cases hsend
      refine Sound.quiet (h.move ⟨hfits.1, hfits.2, ?_⟩ ?_) quiet_silent
      · exact (h.holds shard).room (Bool.eq_false_iff.mpr hfull)
      · rw [hsending]
        rfl
  | loadingRead shard datagram =>
    rw [hsending] at hfits
    have hholds := (h.holds shard).loadReadPosition
    simp only [sendStep, hsending] at hsend
    split at hsend
    · cases hsend
      have htouches := (touches_setQueue publisher thread shard (publisher.queue shard).loadReadPosition rfl rfl).setSending
        (.deactivating shard none)
      refine h.ownQuiet hfits.1 htouches quiet_silent ?_ ?_ ?_
      · simpa [Fits, Raised] using hfits
      · simpa using hholds
      · simp [hsending, Sending.pending]
    · rename_i hfull
      cases hsend
      have htouches := (touches_setQueue publisher thread shard (publisher.queue shard).loadReadPosition rfl rfl).setSending
        (.writing shard datagram)
      have hroom := hholds.room (Bool.eq_false_iff.mpr hfull)
      refine h.ownQuiet hfits.1 htouches quiet_silent ?_ ?_ ?_
      · simpa [Fits, Raised, Room] using ⟨hfits.1, hfits.2, hroom⟩
      · simpa using hholds
      · simp [hsending, Sending.pending]
  | writing shard datagram =>
    rw [hsending] at hfits
    obtain ⟨hregistration, hraised, hroom⟩ := hfits
    simp only [sendStep, hsending] at hsend
    cases hsend
    have htouches := (touches_setQueue publisher thread shard ((publisher.queue shard).writeSlot datagram) rfl rfl).setSending
      (.storing shard datagram)
    refine h.ownQuiet hregistration htouches quiet_silent ?_ ?_ ?_
    · have hslot : ((publisher.queue shard).writeSlot datagram).slots
          (((publisher.queue shard).writeSlot datagram).writePosition %
            queueCapacityPerProducer) = datagram := Function.update_self _ _ _
      simpa [Fits, Raised, Room] using ⟨hregistration, hraised, hroom, hslot⟩
    · simpa using (h.holds shard).writeSlot hroom datagram
    · simp [hsending, Sending.pending]
  | storing shard datagram =>
    rw [hsending] at hfits
    obtain ⟨hregistration, hraised, hroom, hslot⟩ := hfits
    have howned := h.owned thread shard hregistration
    simp only [sendStep, hsending] at hsend
    cases hsend
    have htouches := (touches_setQueue publisher thread shard (publisher.queue shard).storeWritePosition rfl rfl).setSending
      (.deactivating shard (some datagram))
    refine h.own hregistration htouches (within_stored shard datagram) ?_ ?_ ?_
    · simpa [Fits, Raised] using ⟨hregistration, hraised⟩
    · simpa [Event.stored?] using (h.holds shard).storeWritePosition hroom hslot
    · rw [hsending] at howned
      simpa [Event.stored?, Event.accepted?, Sending.pending] using howned
  | deactivating shard queued =>
    rw [hsending] at hfits
    simp only [sendStep, hsending] at hsend
    have htouches := touches_setActiveSender publisher thread shard false
    split at hsend
    · cases hsend
      refine h.ownQuiet hfits.1 (htouches.setSending .idle) (quiet_cleared shard) ?_ ?_ ?_
      · simp [Fits]
      · simpa using h.holds shard
      · simp [hsending, Sending.pending]
    · rename_i datagram
      cases hsend
      refine h.ownQuiet hfits.1 (htouches.setSending (.testing shard datagram))
        (quiet_cleared shard) ?_ ?_ ?_
      · simpa [Fits] using hfits.1
      · simpa using h.holds shard
      · simp [hsending, Sending.pending]
  | testing shard datagram =>
    rw [hsending] at hfits
    simp only [sendStep, hsending] at hsend
    split at hsend
    · cases hsend
      exact h.accept hfits (congrArg Sending.pending hsending)
        (touches_setSending publisher thread shard .idle) rfl
        (setSending_sending publisher thread .idle)
    · cases hsend
      refine Sound.quiet (h.move hfits ?_) quiet_silent
      rw [hsending]
      rfl
  | signalling shard datagram =>
    rw [hsending] at hfits
    simp only [sendStep, hsending] at hsend
    cases hsend
    exact h.accept hfits (congrArg Sending.pending hsending)
      ((touches_wake publisher thread shard true).setSending .idle) rfl
      (setSending_sending _ thread .idle)

/-! ## `publisher_loop` -/

section Publish

/-- The publisher thread goes on, having touched nothing. -/
theorem Sound.turn {publishing : Publishing} (h : Sound events publisher)
    (htaken : ∀ shard, (publisher.setPublishing publishing).taken shard = publisher.taken shard)
    (htakes : ∀ shard, publishing.taking? = some shard →
      (publisher.queue shard).readPosition < (publisher.queue shard).cachedWritePosition) :
    Sound events (publisher.setPublishing publishing) where
  registered := h.registered
  distinct := h.distinct
  fits := fun other => (h.fits other).congr rfl fun _ _ => .of_eq rfl
  holds := h.holds
  owned := h.owned
  unowned := h.unowned
  drawn := by
    intro shard
    rw [htaken]
    exact h.drawn shard
  takes := htakes
  counted := h.counted

/-- The publisher thread goes on, having changed what is its own in a shard's queue. -/
theorem Sound.setQueue {queue : SpscRing Datagram queueCapacityPerProducer}
    {publishing : Publishing} (h : Sound events publisher)
    (hslots : queue.slots = (publisher.queue shard).slots)
    (hwrite : queue.writePosition = (publisher.queue shard).writePosition)
    (hcachedRead : queue.cachedReadPosition = (publisher.queue shard).cachedReadPosition)
    (hholds : queue.Holds (onShard shard (stored events)))
    (htaken : ∀ other, ((publisher.setQueue shard queue).setPublishing publishing).taken other =
      publisher.taken other)
    (htakes : ∀ other, publishing.taking? = some other →
      ((publisher.setQueue shard queue).queue other).readPosition <
        ((publisher.setQueue shard queue).queue other).cachedWritePosition) :
    Sound events ((publisher.setQueue shard queue).setPublishing publishing) where
  registered := h.registered
  distinct := h.distinct
  fits := by
    intro thread
    refine (h.fits thread).congr rfl fun other _ => ?_
    by_cases hother : other = shard
    · subst hother
      refine ⟨setQueue_activeSender publisher other queue other, ?_, ?_, ?_⟩
      all_goals simpa [MulticastPublisher.setQueue, setPublishing] using ‹_›
    · exact .of_eq (Function.update_of_ne hother _ _)
  holds := by
    intro other
    by_cases hother : other = shard
    · subst hother
      simpa [setPublishing, MulticastPublisher.queue, MulticastPublisher.setQueue] using hholds
    · simpa [setPublishing, MulticastPublisher.queue, MulticastPublisher.setQueue, hother] using
        h.holds other
  owned := h.owned
  unowned := h.unowned
  drawn := by
    intro other
    rw [htaken]
    exact h.drawn other
  takes := htakes
  counted := h.counted

theorem taken_setPublishing {publishing : Publishing}
    (hstoring : ∀ shard, publisher.publishing = .storingRead shard ↔ publishing = .storingRead shard)
    (shard : Nat) : (publisher.setPublishing publishing).taken shard = publisher.taken shard := by
  simp only [taken, setPublishing, hstoring]
  rfl

theorem taken_setQueue (queue : SpscRing Datagram queueCapacityPerProducer)
    (hread : queue.readPosition = (publisher.queue shard).readPosition) (other : Nat) :
    (publisher.setQueue shard queue).taken other = publisher.taken other := by
  by_cases hother : other = shard
  · subst hother
    rw [taken, taken, setQueue_queue, hread]
    rfl
  · have hqueue : (publisher.setQueue shard queue).queue other = publisher.queue other := by
      simp [MulticastPublisher.queue, MulticastPublisher.setQueue, hother]
    rw [taken, taken, hqueue]
    rfl

theorem Publishing.not_storingRead {publishing : Publishing} (h : publishing.taking? = none)
    (shard : Nat) : publishing ≠ .storingRead shard := by
  rintro rfl
  cases h

/-- The publisher thread turns from and to positions where it has no datagram before it. -/
theorem Sound.turnAway {publishing : Publishing} (h : Sound events publisher)
    (hfrom : publisher.publishing.taking? = none) (hto : publishing.taking? = none) :
    Sound events (publisher.setPublishing publishing) :=
  h.turn (taken_setPublishing fun shard =>
      ⟨fun h => absurd h (Publishing.not_storingRead hfrom shard),
        fun h => absurd h (Publishing.not_storingRead hto shard)⟩)
    fun shard htake => by rw [hto] at htake; cases htake

@[simp] theorem taking_scanNext (cursor offset : Nat) :
    (scanNext cursor offset).taking? = none := by
  rw [scanNext]
  split <;> rfl

@[simp] theorem taking_queueNext (exiting : Bool) (cursor shard : Nat) :
    (queueNext exiting cursor shard).taking? = none := by
  rw [queueNext]
  split
  · rfl
  · split <;> rfl

@[simp] theorem taking_senderNext (cursor shard : Nat) :
    (senderNext cursor shard).taking? = none := by
  rw [senderNext]
  split <;> rfl

theorem Sound.flags (h : Sound events publisher) (running wakeRequested : Bool)
    (stopping : Stopping) :
    Sound events { publisher with running, wakeRequested, stopping } where
  registered := h.registered
  distinct := h.distinct
  fits := fun other => (h.fits other).congr rfl fun _ _ => .of_eq rfl
  holds := h.holds
  owned := h.owned
  unowned := h.unowned
  drawn := h.drawn
  takes := h.takes
  counted := h.counted

/-- `try_consume` looks at the write position. -/
theorem Sound.loadWrite {cursor offset : Nat} (h : Sound events publisher)
    (hat : publisher.publishing = .loadingWrite cursor offset) {success : Bool}
    (hpublish : publishStep success publisher = some (event, publisher')) :
    Sound (events ++ [event]) publisher' := by
  have htaken : ∀ {publishing : Publishing}, (∀ shard, publishing ≠ .storingRead shard) →
      ∀ other, ((publisher.setQueue (scanned cursor offset)
        (publisher.queue (scanned cursor offset)).loadWritePosition).setPublishing
          publishing).taken other = publisher.taken other := by
    intro publishing hstoring other
    rw [taken_setPublishing, taken_setQueue (publisher.queue (scanned cursor offset)).loadWritePosition rfl]
    intro shard
    constructor
    · intro hat'
      rw [MulticastPublisher.setQueue, hat] at hat'
      cases hat'
    · exact fun hat' => absurd hat' (hstoring shard)
  simp only [publishStep, hat] at hpublish
  split at hpublish
  · cases hpublish
    refine Sound.quiet (h.setQueue rfl rfl rfl (h.holds _).loadWritePosition ?_ ?_) quiet_silent
    · exact htaken (Publishing.not_storingRead (taking_scanNext cursor offset))
    · intro other htake
      rw [taking_scanNext] at htake
      cases htake
  · rename_i hempty
    have hholds := (h.holds (scanned cursor offset)).loadWritePosition
    cases hpublish
    refine Sound.quiet (h.setQueue rfl rfl rfl hholds ?_ ?_) quiet_silent
    · exact htaken (by simp)
    · intro other htake
      cases htake
      rw [setQueue_queue]
      exact hholds.unread (Bool.eq_false_iff.mpr hempty)

/-- The slot is handed to the socket, and counted. -/
theorem Sound.consume (h : Sound events publisher) (hat : publisher.publishing = .consuming shard)
    {success : Bool} (hpublish : publishStep success publisher = some (event, publisher')) :
    Sound (events ++ [event]) publisher' := by
  have hunread := h.takes shard (congrArg Publishing.taking? hat)
  have hfront := (h.holds shard).front hunread
  obtain ⟨sent, sendErrors, hcounted, hpublisher⟩ : ∃ sent sendErrors,
      sent + sendErrors = publisher.sent + publisher.sendErrors + 1 ∧
      some (Event.consumed shard (publisher.queue shard).front success,
        { publisher with sent, sendErrors }.setPublishing (.storingRead shard)) =
          some (event, publisher') := by
    rw [← hpublish]
    cases success
    · exact ⟨publisher.sent, publisher.sendErrors + 1, by omega, by simp [publishStep, hat]⟩
    · exact ⟨publisher.sent + 1, publisher.sendErrors, by omega, by simp [publishStep, hat]⟩
  cases hpublisher
  have hstored : stored (events ++ [.consumed shard (publisher.queue shard).front success]) =
      stored events := by
    simp [Event.stored?]
  have haccepted : accepted (events ++ [.consumed shard (publisher.queue shard).front success]) =
      accepted events := by
    simp [Event.accepted?]
  constructor
  case registered => exact h.registered
  case distinct => exact h.distinct
  case fits => exact fun other => (h.fits other).congr rfl fun _ _ => .of_eq rfl
  case holds =>
    rw [hstored]
    exact h.holds
  case owned =>
    rw [hstored, haccepted]
    exact h.owned
  case unowned =>
    rw [hstored, haccepted]
    exact h.unowned
  case takes =>
    intro other htake
    cases htake
    exact hunread
  case counted =>
    have := h.counted
    simp [Event.consumed?, setPublishing, hcounted, this]
  case drawn =>
    intro other
    have hdrawn := h.drawn other
    rw [stored_snoc, consumed_snoc]
    by_cases hother : other = shard
    · subst hother
      have htaken : publisher.taken other = (publisher.queue other).readPosition := by
        simp [taken, hat]
      rw [htaken] at hdrawn
      simpa [Event.consumed?, Event.stored?, hdrawn, taken, setPublishing,
        MulticastPublisher.queue] using hfront
    · simp [Event.consumed?, Event.stored?, onShard_other (Ne.symm hother), hdrawn, taken,
        setPublishing, hat, Ne.symm hother, MulticastPublisher.queue]

theorem Sound.storeRead (h : Sound events publisher)
    (hat : publisher.publishing = .storingRead shard) {success : Bool}
    (hpublish : publishStep success publisher = some (event, publisher')) :
    Sound (events ++ [event]) publisher' := by
  have hunread := h.takes shard (congrArg Publishing.taking? hat)
  simp only [publishStep, hat] at hpublish
  cases hpublish
  refine Sound.quiet (h.setQueue rfl rfl rfl ((h.holds shard).storeReadPosition hunread) ?_ ?_)
    quiet_silent
  · intro other
    by_cases hother : other = shard
    · subst hother
      simp [taken, hat, setPublishing, MulticastPublisher.setQueue, MulticastPublisher.queue,
        SpscRing.storeReadPosition]
    · simp [taken, hat, setPublishing, MulticastPublisher.setQueue, MulticastPublisher.queue, hother,
        Ne.symm hother]
  · intro other htake
    cases htake

theorem Sound.publish {success : Bool} (h : Sound events publisher)
    (hpublish : publishStep success publisher = some (event, publisher')) :
    Sound (events ++ [event]) publisher' := by
  cases hat : publisher.publishing with
  | loadingWrite cursor offset => exact h.loadWrite hat hpublish
  | consuming shard => exact h.consume hat hpublish
  | storingRead shard => exact h.storeRead hat hpublish
  | scanning cursor offset =>
    simp only [publishStep, hat] at hpublish
    split at hpublish
    · cases hpublish
      exact Sound.quiet (h.turnAway (congrArg Publishing.taking? hat) rfl) quiet_silent
    · rename_i hempty
      cases hpublish
      refine Sound.quiet (h.turn (taken_setPublishing ?_) ?_) quiet_silent
      · simp [hat]
      · intro shard htake
        cases htake
        exact (h.holds _).unread (Bool.eq_false_iff.mpr hempty)
  | clearing cursor =>
    simp only [publishStep, hat] at hpublish
    cases hpublish
    have hcleared := h.flags publisher.running false publisher.stopping
    exact Sound.quiet (hcleared.turnAway (congrArg Publishing.taking? hat) rfl) quiet_silent
  | checkingRunning cursor | recheckingRunning cursor =>
    simp only [publishStep, hat] at hpublish
    split at hpublish <;> cases hpublish <;>
      exact Sound.quiet (h.turnAway (congrArg Publishing.taking? hat) rfl) quiet_silent
  | queueWrite exiting cursor shard =>
    simp only [publishStep, hat] at hpublish
    cases hpublish
    exact Sound.quiet (h.turnAway (congrArg Publishing.taking? hat) rfl) quiet_silent
  | queueRead exiting cursor shard write =>
    simp only [publishStep, hat] at hpublish
    split at hpublish <;> cases hpublish
    · exact Sound.quiet (h.turnAway (congrArg Publishing.taking? hat)
        (taking_queueNext exiting cursor shard)) quiet_silent
    · exact Sound.quiet (h.turnAway (congrArg Publishing.taking? hat) rfl) quiet_silent
  | activeSender cursor shard =>
    simp only [publishStep, hat] at hpublish
    split at hpublish <;> cases hpublish
    · exact Sound.quiet (h.turnAway (congrArg Publishing.taking? hat) rfl) quiet_silent
    · exact Sound.quiet (h.turnAway (congrArg Publishing.taking? hat)
        (taking_senderNext cursor shard)) quiet_silent
  | waiting cursor =>
    simp only [publishStep, hat] at hpublish
    split at hpublish <;> cases hpublish
    exact Sound.quiet (h.turnAway (congrArg Publishing.taking? hat) rfl) quiet_silent
  | exited => simp [publishStep, hat] at hpublish

theorem Sound.stop (h : Sound events publisher)
    (hstop : stopStep publisher = some (event, publisher')) :
    Sound (events ++ [event]) publisher' := by
  simp only [stopStep] at hstop
  split at hstop
  · cases hstop
    exact (h.flags false publisher.wakeRequested .signalling).quiet quiet_silent
  · cases hstop
    exact (h.flags publisher.running true .joining).quiet quiet_silent
  · split at hstop
    · cases hstop
      exact (h.flags publisher.running publisher.wakeRequested .returned).quiet quiet_silent
    · cases hstop
  · cases hstop

theorem Sound.step (h : Sound events publisher) (hstep : Step publisher event publisher') :
    Sound (events ++ [event]) publisher' := by
  cases hstep with
  | call thread datagram hcall => exact h.call hcall
  | send thread hsend => exact h.send hsend
  | publish success hpublish => exact h.publish hpublish
  | stop hstop => exact h.stop hstop

theorem sound_run {slots : Nat → Nat → Datagram} (h : Run Step (start slots) events publisher) :
    Sound events publisher :=
  h.history (sound_start slots) fun _ _ _ _ _ hsound hstep => hsound.step hstep

end Publish

end MulticastPublisher

end ExchangeLab

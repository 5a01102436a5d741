import ExchangeLab.Multicast.Calls
import ExchangeLab.Server.Sequence

/-!
# ExchangeLab.Server.Multicast

The server with its multicast publisher. A broadcast gives its frame to `send` of the publisher,
between drawing its number and looking at who is connected; the publisher thread goes on all the
while. Every connection has a thread of its own, and so a shard of its own.

* `sequenced_run`, `published`: a run is one of `Sequenced` and one of the publisher.
* `offered_send`: a thread stores what it calls `send` with in the order of the calls.
* `transmitted_in_order`: what is transmitted from a shard are broadcasts of one thread, with
  increasing sequence numbers.
* `executed_before_added`: two threads, and an order that is executed before it is added.
-/

namespace ExchangeLab

open Wire Protocol Container ExchangeServer Transition

/-- A frame for everybody, with the thread that drew its number. -/
structure Broadcast where
  thread : Nat
  sequenceNumber : UInt64
  emission : Emission

def Broadcast.datagram (broadcast : Broadcast) : Datagram :=
  broadcast.emission.message broadcast.sequenceNumber

structure MulticastServer where
  sequenced : Sequenced
  publisher : MulticastPublisher
  /-- The thread of `handle_client` for each session. -/
  thread : Socket → Nat := fun _ => 0
  nextThread : Nat := 0

namespace MulticastServer

open MulticastPublisher (sendCall sendStep publishStep stopStep onShard stored consumed)

inductive Label where
  | server (label : Sequenced.Label)
  /-- A number is drawn, and `send` called. -/
  | broadcast (frame : Broadcast) (event : MulticastPublisher.Event)
  | multicast (event : MulticastPublisher.Event)

def isBroadcast : Sequenced.Label → Prop
  | .draw _ _ emission => emission.addressee = none
  | _ => False

/-- The thread is back from `send` when it looks at who is connected. -/
def Returned (m : MulticastServer) : Sequenced.Label → Prop
  | .snapshot socket => m.publisher.sending (m.thread socket) = .idle
  | _ => True

/-- A connection gets a new thread. -/
def afterServer (m : MulticastServer) (label : Sequenced.Label) (s : Sequenced) : MulticastServer :=
  match label with
  | .connect socket =>
    { m with
      sequenced := s
      thread := Function.update m.thread socket m.nextThread
      nextThread := m.nextThread + 1 }
  | _ => { m with sequenced := s }

inductive Step : MulticastServer → Label → MulticastServer → Prop
  | server {m : MulticastServer} {label : Sequenced.Label} {s : Sequenced}
      (hstep : Sequenced.Step m.sequenced label s) (hother : ¬isBroadcast label)
      (hreturned : m.Returned label) : Step m (.server label) (m.afterServer label s)
  | broadcast {m : MulticastServer} {socket : Socket} {number : UInt64} {emission : Emission}
      {s : Sequenced} {event : MulticastPublisher.Event} {publisher : MulticastPublisher}
      (hstep : Sequenced.Step m.sequenced (.draw socket number emission) s)
      (hbroadcast : emission.addressee = none)
      (hcall : sendCall (m.thread socket) (emission.message number) m.publisher =
        some (event, publisher)) :
      Step m (.broadcast ⟨m.thread socket, number, emission⟩ event)
        { m with sequenced := s, publisher := publisher }
  | send {m : MulticastServer} {event : MulticastPublisher.Event}
      {publisher : MulticastPublisher} (thread : Nat)
      (hsend : sendStep thread m.publisher = some (event, publisher)) :
      Step m (.multicast event) { m with publisher := publisher }
  | publish {m : MulticastServer} {event : MulticastPublisher.Event}
      {publisher : MulticastPublisher} (success : Bool)
      (hpublish : publishStep success m.publisher = some (event, publisher)) :
      Step m (.multicast event) { m with publisher := publisher }
  | stop {m : MulticastServer} {event : MulticastPublisher.Event} {publisher : MulticastPublisher}
      (hstop : stopStep m.publisher = some (event, publisher)) :
      Step m (.multicast event) { m with publisher := publisher }

def Label.broadcast? : Label → Option Broadcast
  | .broadcast frame _ => some frame
  | _ => none

def Label.event? : Label → Option MulticastPublisher.Event
  | .server _ => none
  | .broadcast _ event | .multicast event => some event

def broadcasts (labels : List Label) : List Broadcast := labels.filterMap Label.broadcast?

def broadcastsOf (thread : Nat) (labels : List Label) : List Broadcast :=
  (broadcasts labels).filter fun broadcast => broadcast.thread = thread

/-- What the publisher has shown. -/
def eventsOf (labels : List Label) : List MulticastPublisher.Event := labels.filterMap Label.event?

/-- The numbers of broadcasts increase until the counter wraps, and what `publisher_loop` has
transmitted from a shard are broadcasts of the one thread that sends on it, in their order: what the
thread broadcasts for a later frame leaves after all that it broadcast before. -/
structure TransmittedInOrder (labels : List Label) (m : MulticastServer) : Prop where
  numbered : m.sequenced.server.nextSequenceNumber ≤ 2 ^ 64 →
    (broadcasts labels).Pairwise fun broadcast later =>
      broadcast.sequenceNumber < later.sequenceNumber
  owned : ∀ entry ∈ consumed (eventsOf labels), ∃ thread,
    m.publisher.registration thread = some entry.1
  transmitted : ∀ thread shard, m.publisher.registration thread = some shard →
    ∃ sent : List Broadcast, sent.Sublist (broadcastsOf thread labels) ∧
      onShard shard (consumed (eventsOf labels)) = sent.map Broadcast.datagram
  laterFrame : ∀ before socket frame emissions after,
    labels = before ++ .server (.handle socket frame emissions) :: after →
    ∀ thread shard, m.publisher.registration thread = some shard →
    ∃ earlier later : List Broadcast, earlier.Sublist (broadcastsOf thread before) ∧
      later.Sublist (broadcastsOf thread after) ∧
      onShard shard (consumed (eventsOf labels)) =
        earlier.map Broadcast.datagram ++ later.map Broadcast.datagram

variable {server₀ : ExchangeServer} {slots : Nat → Nat → Datagram} {labels : List Label}
  {label : Label} {m m' : MulticastServer} {thread shard : Nat}

/-- The server and the publisher as they are started. -/
def starting (server₀ : ExchangeServer) (slots : Nat → Nat → Datagram) : MulticastServer where
  sequenced := { server := server₀ }
  publisher := MulticastPublisher.start slots

@[simp] theorem afterServer_sequenced (label : Sequenced.Label) (s : Sequenced) :
    (m.afterServer label s).sequenced = s := by
  cases label <;> rfl

@[simp] theorem afterServer_publisher (label : Sequenced.Label) (s : Sequenced) :
    (m.afterServer label s).publisher = m.publisher := by
  cases label <;> rfl

theorem broadcasts_snoc (labels : List Label) (label : Label) :
    broadcasts (labels ++ [label]) = broadcasts labels ++ label.broadcast?.toList := by
  rw [broadcasts, List.filterMap_append, broadcasts]
  cases label <;> rfl

theorem eventsOf_snoc (labels : List Label) (label : Label) :
    eventsOf (labels ++ [label]) = eventsOf labels ++ label.event?.toList := by
  rw [eventsOf, List.filterMap_append, eventsOf]
  cases label <;> rfl

/-! ## The numbers -/

theorem counter_mono {s s' : Sequenced} {label : Sequenced.Label} (h : Sequenced.Step s label s') :
    s.server.nextSequenceNumber ≤ s'.server.nextSequenceNumber := by
  cases h with
  | handle order hopen hready hrun => exact (Sequenced.handleMessage_counter hrun).ge
  | draw => exact Nat.le_succ _
  | _ => exact Nat.le_refl _

theorem draw_counter {s s' : Sequenced} {socket : Socket} {number : UInt64} {emission : Emission}
    (h : Sequenced.Step s (.draw socket number emission) s') :
    number = UInt64.ofNat s.server.nextSequenceNumber ∧
      s'.server.nextSequenceNumber = s.server.nextSequenceNumber + 1 := by
  cases h
  exact ⟨rfl, rfl⟩

theorem numbered (h : Run Step (starting server₀ slots) labels m)
    (hcounter : m.sequenced.server.nextSequenceNumber ≤ 2 ^ 64) :
    (broadcasts labels).Pairwise (fun broadcast later =>
      broadcast.sequenceNumber < later.sequenceNumber) ∧
    ∀ broadcast ∈ broadcasts labels,
      broadcast.sequenceNumber.toNat < m.sequenced.server.nextSequenceNumber := by
  induction h with
  | nil => exact ⟨.nil, fun _ hmem => absurd hmem List.not_mem_nil⟩
  | @snoc m m' labels label hrun hstep ih =>
    rw [broadcasts_snoc]
    cases hstep with
    | server hstep hother hreturned =>
      rw [afterServer_sequenced] at hcounter ⊢
      have hmono := counter_mono hstep
      obtain ⟨hpairwise, hbelow⟩ := ih (hmono.trans hcounter)
      simp only [Label.broadcast?, Option.toList_none, List.append_nil]
      exact ⟨hpairwise, fun broadcast hmem => (hbelow broadcast hmem).trans_le hmono⟩
    | send | publish | stop =>
      simp only [Label.broadcast?, Option.toList_none, List.append_nil]
      exact ih hcounter
    | @broadcast socket number emission s event publisher hstep hbroadcast hcall =>
      obtain ⟨hnumber, hnext⟩ := draw_counter hstep
      rw [hnext] at hcounter ⊢
      obtain ⟨hpairwise, hbelow⟩ := ih (Nat.le_of_succ_le hcounter)
      have htoNat : number.toNat = m.sequenced.server.nextSequenceNumber := by
        rw [hnumber]
        exact UInt64.toNat_ofNat_of_lt' hcounter
      simp only [Label.broadcast?, Option.toList_some]
      constructor
      · rw [List.pairwise_append]
        refine ⟨hpairwise, List.pairwise_singleton _ _, fun broadcast hmem last hlast => ?_⟩
        rw [List.mem_singleton.mp hlast, UInt64.lt_iff_toNat_lt, htoNat]
        exact hbelow broadcast hmem
      · intro broadcast hmem
        rcases List.mem_append.mp hmem with hmem | hlast
        · exact Nat.lt_succ_of_lt (hbelow broadcast hmem)
        · rw [List.mem_singleton.mp hlast, htoNat]
          exact Nat.lt_succ_self _

/-! ## The order of a thread -/

theorem broadcastsOf_snoc (thread : Nat) (labels : List Label) (label : Label) :
    broadcastsOf thread (labels ++ [label]) = broadcastsOf thread labels ++
      label.broadcast?.toList.filter fun broadcast => broadcast.thread = thread := by
  rw [broadcastsOf, broadcasts_snoc, List.filter_append, broadcastsOf]

theorem published (h : Run Step (starting server₀ slots) labels m) :
    Run MulticastPublisher.Step (MulticastPublisher.start slots) (eventsOf labels) m.publisher := by
  induction h with
  | nil => exact .nil _
  | snoc hrun hstep ih =>
    rw [eventsOf_snoc]
    cases hstep with
    | server =>
      rw [afterServer_publisher, Label.event?, Option.toList_none, List.append_nil]
      exact ih
    | broadcast hstep hbroadcast hcall => exact ih.snoc (.call _ _ hcall)
    | send thread hsend => exact ih.snoc (.send thread hsend)
    | publish success hpublish => exact ih.snoc (.publish success hpublish)
    | stop hstop => exact ih.snoc (.stop hstop)

/-- What the thread has stored and may still store are broadcasts of its, in their order. -/
def Feeds (labels : List Label) (m : MulticastServer) (thread : Nat) : Prop :=
  ∃ kept : List Broadcast, kept.Sublist (broadcastsOf thread labels) ∧
    m.publisher.offered thread (eventsOf labels) = kept.map Broadcast.datagram

/-- A list that a thread comes to offer less of. -/
theorem kept_of_prefix {kept : List Broadcast} {offered : List Datagram}
    (h : offered <+: kept.map Broadcast.datagram) :
    ∃ rest : List Broadcast, rest.Sublist kept ∧ offered = rest.map Broadcast.datagram := by
  refine ⟨kept.take offered.length, List.take_sublist _ _, ?_⟩
  rw [List.map_take]
  exact List.prefix_iff_eq_take.mp h

theorem feeds_run (h : Run Step (starting server₀ slots) labels m) (thread : Nat) :
    Feeds labels m thread := by
  induction h with
  | nil => exact ⟨[], List.nil_sublist _, rfl⟩
  | @snoc m m' labels label hrun hstep ih =>
    obtain ⟨kept, hkept, hoffered⟩ := ih
    have hsound := MulticastPublisher.sound_run (published hrun)
    rw [Feeds, broadcastsOf_snoc, eventsOf_snoc]
    cases hstep with
    | server =>
      refine ⟨kept, by simpa [Label.broadcast?] using hkept, ?_⟩
      rw [afterServer_publisher, Label.event?, Option.toList_none, List.append_nil]
      exact hoffered
    | @broadcast socket number emission s event publisher hstep hbroadcast hcall =>
      obtain ⟨hown, hother⟩ := MulticastPublisher.offered_call hcall
      by_cases hthread : thread = m.thread socket
      · subst hthread
        let last : Broadcast := ⟨m.thread socket, number, emission⟩
        have hlast : (kept ++ [last]).Sublist (broadcastsOf (m.thread socket) labels ++ [last]) :=
          hkept.append_right _
        have hbegins : publisher.offered (m.thread socket) (eventsOf labels ++ [event]) <+:
            (kept ++ [last]).map Broadcast.datagram := by
          rw [List.map_append, ← hoffered]
          exact hown
        obtain ⟨rest, hrest, heq⟩ := kept_of_prefix hbegins
        exact ⟨rest, by simpa [Label.broadcast?] using hrest.trans hlast, heq⟩
      · refine ⟨kept, hkept.trans (List.sublist_append_left _ _), ?_⟩
        exact (hother thread hthread).trans hoffered
    | @send event publisher sender hsend =>
      obtain ⟨hown, hother⟩ := hsound.offered_send hsend
      by_cases hthread : thread = sender
      · subst hthread
        rw [List.append_nil, hoffered] at hown
        obtain ⟨rest, hrest, heq⟩ := kept_of_prefix hown
        exact ⟨rest, by simpa [Label.broadcast?] using hrest.trans hkept, heq⟩
      · refine ⟨kept, by simpa [Label.broadcast?] using hkept, ?_⟩
        exact (hother thread hthread).trans hoffered
    | publish success hpublish =>
      refine ⟨kept, by simpa [Label.broadcast?] using hkept, ?_⟩
      exact ((MulticastPublisher.publishes_publish hpublish).offered thread).trans hoffered
    | stop hstop =>
      refine ⟨kept, by simpa [Label.broadcast?] using hkept, ?_⟩
      exact (MulticastPublisher.offered_stop hstop thread).trans hoffered

/-- The shard of a thread carries broadcasts of its, in their order. -/
theorem transmitted_sublist (h : Run Step (starting server₀ slots) labels m)
    (hregistration : m.publisher.registration thread = some shard) :
    ∃ sent : List Broadcast, sent.Sublist (broadcastsOf thread labels) ∧
      onShard shard (consumed (eventsOf labels)) = sent.map Broadcast.datagram := by
  have hsound := MulticastPublisher.sound_run (published h)
  obtain ⟨kept, hkept, hoffered⟩ := feeds_run h thread
  rw [MulticastPublisher.offered, MulticastPublisher.storedBy_of_registration hregistration]
    at hoffered
  have hconsumed : onShard shard (consumed (eventsOf labels)) <+: kept.map Broadcast.datagram := by
    rw [hsound.drawn shard, ← hoffered]
    exact (List.take_prefix _ _).trans (List.prefix_append _ _)
  obtain ⟨rest, hrest, heq⟩ := kept_of_prefix hconsumed
  exact ⟨rest, hrest.trans hkept, heq⟩

/-- The frame that is handled is not a broadcast itself. -/
theorem broadcastsOf_handle {before after : List Label} {socket : Socket} {frame : Frame}
    {emissions : List Emission} :
    broadcastsOf thread (before ++ .server (.handle socket frame emissions) :: after) =
      broadcastsOf thread before ++ broadcastsOf thread after := by
  simp only [broadcastsOf, broadcasts, List.filterMap_append, List.filter_append]
  rfl

/-- The datagrams of each client thread leave in the order of their sequence numbers. -/
theorem transmitted_in_order (h : Run Step (starting server₀ slots) labels m) :
    TransmittedInOrder labels m where
  numbered := fun hcounter => (numbered h hcounter).1
  owned := by
    have hsound := MulticastPublisher.sound_run (published h)
    rintro ⟨shard, datagram⟩ hentry
    by_contra hnone
    obtain ⟨hstored, -⟩ :=
      hsound.unowned shard fun thread hthread => hnone ⟨thread, hthread⟩
    have hconsumed := hsound.drawn shard
    rw [hstored, List.take_nil] at hconsumed
    have hmem : datagram ∈ onShard shard (consumed (eventsOf labels)) :=
      List.mem_map.mpr ⟨(shard, datagram), List.mem_filter.mpr ⟨hentry, by simp⟩, rfl⟩
    rw [hconsumed] at hmem
    cases hmem
  transmitted := fun _ _ hregistration => transmitted_sublist h hregistration
  laterFrame := by
    intro before socket frame emissions after hlabels thread shard hregistration
    obtain ⟨sent, hsent, htransmitted⟩ := transmitted_sublist h hregistration
    have hsplit : broadcastsOf thread labels =
        broadcastsOf thread before ++ broadcastsOf thread after := by
      rw [hlabels]
      exact broadcastsOf_handle
    rw [hsplit, List.sublist_append_iff] at hsent
    obtain ⟨earlier, later, rfl, hearlier, hlater⟩ := hsent
    exact ⟨earlier, later, hearlier, hlater, htransmitted.trans List.map_append⟩

/-! ## Runs that are computed -/

inductive Move where
  | connect (socket : Socket)
  | handle (socket : Socket) (frame : Frame)
  /-- The thread of the session takes its next step. -/
  | advance (socket : Socket)
  | publish

/-- A number is drawn; a frame for everybody goes to `send`. -/
def drawNext (socket : Socket) (emission : Emission) (rest : List Emission) (m : MulticastServer) :
    Option (Label × MulticastServer) :=
  let number := UInt64.ofNat m.sequenced.server.nextSequenceNumber
  let s := m.sequenced.drawing socket emission rest
  if emission.addressee.isSome then
    some (.server (.draw socket number emission), { m with sequenced := s })
  else
    (sendCall (m.thread socket) (emission.message number) m.publisher).map fun result =>
      (.broadcast ⟨m.thread socket, number, emission⟩ result.1,
        { m with sequenced := s, publisher := result.2 })

/-- The next step of a thread that is not in `send`. -/
def advanceServer (socket : Socket) (m : MulticastServer) : Option (Label × MulticastServer) :=
  match m.sequenced.held socket with
  | some held =>
    let result := m.sequenced.writeHeld socket held
    some (.server result.1, { m with sequenced := result.2 })
  | none =>
    match m.sequenced.sending socket with
    | [] => none
    | emission :: rest => if emission.unaddressed then none else m.drawNext socket emission rest

def perform (move : Move) (m : MulticastServer) : Option (Label × MulticastServer) :=
  match move with
  | .connect socket =>
    if socket < 0 ∨ socket ∈ m.sequenced.server.clientSockets then none
    else
      some (.server (.connect socket), m.afterServer (.connect socket) { m.sequenced with
        server := registerClient socket m.sequenced.server
        written := Function.update m.sequenced.written socket [] })
  | .handle socket frame =>
    if socket ∉ m.sequenced.server.clientSockets ∨ !m.sequenced.isReady socket then none
    else
      match handleMessage .dedup socket frame m.sequenced.server with
      | .error _ => none
      | .ok (server, emissions) =>
        some (.server (.handle socket frame emissions), { m with sequenced := { m.sequenced with
          server := server
          sending := Function.update m.sequenced.sending socket emissions } })
  | .advance socket =>
    if m.publisher.sending (m.thread socket) = .idle then m.advanceServer socket
    else
      (sendStep (m.thread socket) m.publisher).map fun result =>
        (.multicast result.1, { m with publisher := result.2 })
  | .publish =>
    (publishStep true m.publisher).map fun result =>
      (.multicast result.1, { m with publisher := result.2 })

section Performed

variable {limits : RiskLimits} {file : Option (Option Bytes)}

theorem sequenced_run (h : Run Step (starting server₀ slots) labels m) :
    ∃ labels', Run Sequenced.Step { server := server₀ } labels' m.sequenced := by
  induction h with
  | nil => exact ⟨[], .nil _⟩
  | snoc hrun hstep ih =>
    obtain ⟨labels', hrun'⟩ := ih
    cases hstep with
    | server hstep =>
      rw [afterServer_sequenced]
      exact ⟨_, hrun'.snoc hstep⟩
    | broadcast hstep => exact ⟨_, hrun'.snoc hstep⟩
    | send | publish | stop => exact ⟨_, hrun'⟩

theorem drawNext_step {socket : Socket} {emission : Emission} {rest : List Emission}
    (hnext : m.sequenced.sending socket = emission :: rest)
    (hfree : m.sequenced.held socket = none) (haddressed : emission.unaddressed = false)
    (h : m.drawNext socket emission rest = some (label, m')) : Step m label m' := by
  have hdraw := Sequenced.Step.draw hnext hfree haddressed
  simp only [drawNext] at h
  split at h
  · rename_i hone
    cases h
    refine .server hdraw (fun hnone => ?_) trivial
    rw [show emission.addressee = none from hnone] at hone
    cases hone
  · rename_i heverybody
    obtain ⟨⟨event, publisher⟩, hcall, heq⟩ := Option.map_eq_some_iff.mp h
    cases heq
    exact .broadcast hdraw (Option.not_isSome_iff_eq_none.mp heverybody) hcall

theorem writeHeld_step {socket : Socket} {held : Held}
    (hidle : m.publisher.sending (m.thread socket) = .idle)
    (hheld : m.sequenced.held socket = some held) :
    Step m (.server (m.sequenced.writeHeld socket held).1)
      { m with sequenced := (m.sequenced.writeHeld socket held).2 } := by
  cases hrecipients : held.recipients with
  | none =>
    simp only [Sequenced.writeHeld, hrecipients]
    exact .server (.snapshot hheld hrecipients) not_false hidle
  | some recipients =>
    simp only [Sequenced.writeHeld, hrecipients]
    exact .server (.write hheld hrecipients) not_false trivial

theorem advanceServer_step {socket : Socket}
    (hidle : m.publisher.sending (m.thread socket) = .idle)
    (h : m.advanceServer socket = some (label, m')) : Step m label m' := by
  rw [advanceServer] at h
  split at h
  · rename_i held hheld
    cases h
    exact writeHeld_step hidle hheld
  · rename_i hfree
    split at h
    · cases h
    · rename_i emission rest hnext
      rw [Option.ite_none_left_eq_some] at h
      exact drawNext_step hnext hfree (Bool.eq_false_iff.mpr h.1) h.2

theorem perform_step {move : Move} (hstart : start limits file = some server₀)
    (hrun : Run Step (starting server₀ slots) labels m)
    (h : perform move m = some (label, m')) : Step m label m' := by
  cases move with
  | connect socket =>
    simp only [perform, Option.ite_none_left_eq_some, not_or, Int.not_lt] at h
    obtain ⟨⟨hvalid, hfree⟩, heq⟩ := h
    cases heq
    exact .server (.connect hvalid hfree) not_false trivial
  | handle socket frame =>
    simp only [perform, Option.ite_none_left_eq_some, not_or, not_not, Bool.not_eq_true',
      Bool.not_eq_false] at h
    obtain ⟨⟨hopen, hready⟩, h⟩ := h
    obtain ⟨labels', hrun'⟩ := sequenced_run hrun
    split at h
    · cases h
    · rename_i server emissions hhandled
      cases h
      exact .server (.handle .dedup hopen (Sequenced.isReady_ready (Sequenced.idle_run hstart hrun') hready)
        hhandled)
        not_false trivial
  | advance socket =>
    rw [perform] at h
    split at h
    · rename_i hidle
      exact advanceServer_step hidle h
    · obtain ⟨⟨event, publisher⟩, hsend, heq⟩ := Option.map_eq_some_iff.mp h
      cases heq
      exact .send _ hsend
  | publish =>
    obtain ⟨⟨event, publisher⟩, hpublish, heq⟩ := Option.map_eq_some_iff.mp h
    cases heq
    exact .publish true hpublish

end Performed

/-! ## Number 8 before number 3 -/

/-- Every broadcast has been queued. -/
def NoneDropped (labels : List Label) : Prop :=
  ((broadcasts labels).map Broadcast.datagram).Perm
    ((MulticastPublisher.accepted (eventsOf labels)).map Prod.snd)

instance (labels : List Label) : Decidable (NoneDropped labels) :=
  inferInstanceAs (Decidable (List.Perm _ _))

/-- The sequence numbers of the datagrams, as they are transmitted. -/
def transmittedNumbers (labels : List Label) : List UInt64 :=
  (consumed (eventsOf labels)).filterMap fun entry =>
    (decodeHeader (entry.2.take headerSize)).map MessageHeader.sequenceNumber

/-- The publisher thread is past the first shard when session 4 rests an order, which session 5 then
takes; it starts again after everything is queued. -/
def lateMoves : List Move :=
  [.connect 4, .connect 5, .publish, .publish,
    .handle 4 (newOrderFrame ⟨7, 1, 100, 5, .sell, .limit, .goodTillCancel, defaultSymbol⟩)] ++
  List.replicate 25 (.advance 4) ++
  [.handle 5 (newOrderFrame ⟨8, 2, 100, 5, .buy, .limit, .goodTillCancel, defaultSymbol⟩)] ++
  List.replicate 39 (.advance 5) ++ List.replicate 518 .publish

/-- The order is executed by number 8 and added by number 3, which is still queued. -/
theorem executed_before_added : ∃ server₀ labels m, start {} (some none) = some server₀ ∧
    Run Step (starting server₀ fun _ _ => []) labels m ∧ NoneDropped labels ∧
    ((broadcasts labels).map fun broadcast =>
      (broadcast.sequenceNumber, broadcast.emission.type)) =
      [(2, .bookUpdate), (3, .level3AddOrder), (7, .bookUpdate), (8, .level3OrderExecuted),
        (9, .level3OrderDeleted)] ∧
    transmittedNumbers labels = [7, 2, 8] := by
  have hstart : start {} (some none) = some
    { riskEngine := { limits := {} }, journal := some (ExchangeJournal.openFile [] false) } := rfl
  have hany : (play perform lateMoves (starting
      { riskEngine := { limits := {} }, journal := some (ExchangeJournal.openFile [] false) }
      fun _ _ => [])).any (fun (labels, _) => decide (NoneDropped labels ∧
        ((broadcasts labels).map fun broadcast =>
          (broadcast.sequenceNumber, broadcast.emission.type)) =
          [(2, .bookUpdate), (3, .level3AddOrder), (7, .bookUpdate), (8, .level3OrderExecuted),
            (9, .level3OrderDeleted)] ∧
        transmittedNumbers labels = [7, 2, 8])) = true := by
    decide +kernel
  obtain ⟨⟨labels, m⟩, hperform, hp⟩ := (Option.any_eq_true _ _).mp hany
  exact ⟨_, labels, m, hstart, Run.of_play (perform_step hstart) (.nil _) hperform, of_decide_eq_true hp⟩

theorem transmitted_out_of_order :
    ¬ ∀ (limits : RiskLimits) (file : Option Bytes) (server₀ : ExchangeServer)
      (slots : Nat → Nat → Datagram) (labels : List Label) (m : MulticastServer),
      start limits (some file) = some server₀ → Run Step (starting server₀ slots) labels m →
      NoneDropped labels → (transmittedNumbers labels).Pairwise (· < ·) := by
  intro h
  obtain ⟨server₀, labels, m, hstart, hrun, hqueued, -, hnumbers⟩ := executed_before_added
  have hincreasing := h {} none server₀ _ labels m hstart hrun hqueued
  rw [hnumbers] at hincreasing
  revert hincreasing
  decide

/-- Of either session the numbers increase. -/
theorem transmitted_in_order_late : ∃ server₀ labels m,
    Run Step (starting server₀ fun _ _ => []) labels m ∧
    transmittedNumbers labels = [7, 2, 8] ∧ TransmittedInOrder labels m := by
  obtain ⟨server₀, labels, m, -, hrun, -, -, hnumbers⟩ := executed_before_added
  exact ⟨server₀, labels, m, hrun, hnumbers, transmitted_in_order hrun⟩

end MulticastServer

end ExchangeLab

import ExchangeLab.Server.Concurrent
import ExchangeLab.Server.Responses

/-!
# ExchangeLab.Server.Sequence

The server with the two halves of a send apart: a thread draws the sequence number, and writes the
frame later, under `send_mutex_`. A broadcast looks at who is connected in between.

Numbers are drawn outside the lock, so the thread that draws first need not write first.

* `Sequenced.concurrent`: a run is one of `Concurrent`, where a send is one step.
* `in_sequence`: while no write overtakes a frame with a smaller number that may go to one of the same
  connections, the numbers on every connection increase.
* `journaled_inOrder`: with a journal, no write does.
* `perform`: runs that are computed, move by move.
* `out_of_sequence`: a run without one, in which a connection gets number 3 and then number 2.
-/

namespace ExchangeLab

open Wire Protocol Container ExchangeServer Transition

/-- A frame between drawing its number and writing it. -/
structure Held where
  sequenceNumber : UInt64
  emission : Emission
  /-- For a broadcast, nothing until `client_socket_snapshot`. -/
  recipients : Option (List Socket)

/-- The frame may still be written to the connection. -/
def Held.mayReach (held : Held) (socket : Socket) : Prop :=
  ∀ recipients, held.recipients = some recipients → socket ∈ recipients

/-- Whom a frame goes to, where that does not depend on who is connected. -/
def Emission.addressee : Emission → Option (List Socket)
  | .orderResponse socket .. => some [socket]
  | .tradeExecution socket .. => some [socket]
  | _ => none

structure Sequenced where
  server : ExchangeServer
  /-- What the thread of each session has still to send. -/
  sending : Socket → List Emission := fun _ => []
  /-- The frame the thread of each session is about to write. -/
  held : Socket → Option Held := fun _ => none
  /-- What has been written under each descriptor since it was last connected. -/
  written : Socket → List (UInt64 × Emission) := fun _ => []

namespace Sequenced

def Idle (s : Sequenced) (socket : Socket) : Prop := s.sending socket = [] ∧ s.held socket = none

/-- The thread of a session is free to start on a frame: with a journal, the lock is held until
everything is written. -/
def Ready (s : Sequenced) (socket : Socket) : Prop :=
  s.Idle socket ∧ (s.server.journal.isSome = true → ∀ other, s.Idle other)

inductive Label where
  | connect (socket : Socket)
  | disconnect (socket : Socket)
  | handle (socket : Socket) (frame : Frame) (emissions : List Emission)
  | skip (socket : Socket)
  | draw (socket : Socket) (sequenceNumber : UInt64) (emission : Emission)
  | snapshot (socket : Socket)
  | write (socket : Socket)
  | setGlobalKillSwitch (enabled : Bool)

/-- What is written under a descriptor once the frame has been written to its recipients. -/
def writtenTo (s : Sequenced) (held : Held) (recipients : List Socket) (socket : Socket) :
    List (UInt64 × Emission) :=
  if socket ∈ recipients then s.written socket ++ [(held.sequenceNumber, held.emission)]
  else s.written socket

inductive Step : Sequenced → Label → Sequenced → Prop
  | connect {s : Sequenced} {socket : Socket} (hvalid : 0 ≤ socket)
      (hfree : socket ∉ s.server.clientSockets) :
      Step s (.connect socket) { s with
        server := registerClient socket s.server
        written := Function.update s.written socket [] }
  | disconnect {s : Sequenced} {socket : Socket} (hopen : socket ∈ s.server.clientSockets)
      (hidle : s.Idle socket) :
      Step s (.disconnect socket) { s with server := unregisterClient socket s.server }
  | handle {s : Sequenced} {socket : Socket} {frame : Frame} {server₁ : ExchangeServer}
      {emissions : List Emission} (order : SetOrder) (hopen : socket ∈ s.server.clientSockets)
      (hready : s.Ready socket)
      (hrun : handleMessage order socket frame s.server = .ok (server₁, emissions)) :
      Step s (.handle socket frame emissions) { s with
        server := server₁
        sending := Function.update s.sending socket emissions }
  | skip {s : Sequenced} {socket : Socket} {emission : Emission} {rest : List Emission}
      (hnext : s.sending socket = emission :: rest) (hfree : s.held socket = none)
      (hunaddressed : emission.unaddressed = true) :
      Step s (.skip socket) { s with sending := Function.update s.sending socket rest }
  | draw {s : Sequenced} {socket : Socket} {emission : Emission} {rest : List Emission}
      (hnext : s.sending socket = emission :: rest) (hfree : s.held socket = none)
      (haddressed : emission.unaddressed = false) :
      Step s (.draw socket (UInt64.ofNat s.server.nextSequenceNumber) emission) { s with
        server := { s.server with nextSequenceNumber := s.server.nextSequenceNumber + 1 }
        sending := Function.update s.sending socket rest
        held := Function.update s.held socket
          (some ⟨UInt64.ofNat s.server.nextSequenceNumber, emission, emission.addressee⟩) }
  | snapshot {s : Sequenced} {socket : Socket} {held : Held} (hheld : s.held socket = some held)
      (hnone : held.recipients = none) :
      Step s (.snapshot socket) { s with
        held := Function.update s.held socket
          (some { held with recipients := some s.server.clientSockets }) }
  | write {s : Sequenced} {socket : Socket} {held : Held} {recipients : List Socket}
      (hheld : s.held socket = some held) (hrecipients : held.recipients = some recipients) :
      Step s (.write socket) { s with
        held := Function.update s.held socket none
        written := s.writtenTo held recipients }
  | setGlobalKillSwitch {s : Sequenced} (enabled : Bool) :
      Step s (.setGlobalKillSwitch enabled) { s with
        server := ExchangeServer.setGlobalKillSwitch enabled s.server }

def Label.drawn? : Label → Option (UInt64 × Emission)
  | .draw _ sequenceNumber emission => some (sequenceNumber, emission)
  | _ => none

/-- The numbers drawn, with what they were drawn for. -/
def drawn (labels : List Label) : List (UInt64 × Emission) := labels.filterMap Label.drawn?

/-- Every connection gets its frames in the order of their numbers; every frame has a number of its
own. -/
structure InSequence (labels : List Label) (s : Sequenced) : Prop where
  increasing : ∀ socket, (s.written socket).Pairwise fun frame later => frame.1 < later.1
  distinct : (drawn labels).Pairwise fun frame later => frame.1 ≠ later.1
  written : ∀ socket, ∀ frame ∈ s.written socket, frame ∈ drawn labels

/-- Another thread holds a smaller number for a frame that may go where the thread writes. -/
def Overtakes (s : Sequenced) (socket : Socket) : Prop :=
  ∃ held recipients, s.held socket = some held ∧ held.recipients = some recipients ∧
    ∃ other held', s.held other = some held' ∧ held'.sequenceNumber < held.sequenceNumber ∧
      ∃ reached ∈ recipients, held'.mayReach reached

/-- The step does not let one frame overtake another, and the counter has not wrapped. -/
def InOrder (s : Sequenced) : Label → Prop
  | .draw .. => s.server.nextSequenceNumber < 2 ^ 64
  | .write socket => ¬s.Overtakes socket
  | _ => True

def OrderlyStep (s : Sequenced) (label : Label) (s' : Sequenced) : Prop :=
  Step s label s' ∧ s.InOrder label

variable {limits : RiskLimits} {file : Option (Option Bytes)} {server₀ : ExchangeServer}
  {labels : List Label} {label : Label} {s s' : Sequenced} {socket : Socket}

/-! ## A send in one step -/

theorem Ready.concurrent (h : s.Ready socket) :
    Concurrent.Ready ⟨s.server, s.sending⟩ socket :=
  ⟨h.1.1, fun hjournal other => (h.2 hjournal other).1⟩

/-- Where a number is drawn, `Concurrent` sends; where a frame is written, it stays as it is. -/
theorem concurrent (h : Run Step { server := server₀ } labels s) :
    ∃ labels', Run Concurrent.Step ⟨server₀, fun _ => []⟩ labels' ⟨s.server, s.sending⟩ := by
  refine h.invariant (P := fun s => ∃ labels',
    Run Concurrent.Step ⟨server₀, fun _ => []⟩ labels' ⟨s.server, s.sending⟩) ⟨[], .nil _⟩ ?_
  rintro s label s' ⟨labels', hrun⟩ hstep
  cases hstep with
  | connect hvalid hfree => exact ⟨_, hrun.snoc (.connect hvalid hfree)⟩
  | disconnect hopen hidle => exact ⟨_, hrun.snoc (.disconnect hopen hidle.1)⟩
  | handle order hopen hready hhandled =>
    exact ⟨_, hrun.snoc (.handle order hopen hready.concurrent hhandled)⟩
  | skip hnext hfree hunaddressed =>
    have hsend := hrun.snoc (.send hnext)
    simp only [emit, hunaddressed, if_true] at hsend
    exact ⟨_, hsend⟩
  | draw hnext hfree haddressed =>
    have hsend := hrun.snoc (.send hnext)
    simp only [emit, haddressed, Bool.false_eq_true, if_false] at hsend
    exact ⟨_, hsend⟩
  | snapshot | write => exact ⟨_, hrun⟩
  | setGlobalKillSwitch enabled => exact ⟨_, hrun.snoc (.setGlobalKillSwitch enabled)⟩

theorem handleMessage_counter {order : SetOrder} {frame : Frame} {server server₁ : ExchangeServer}
    {emissions : List Emission} (h : handleMessage order socket frame server = .ok (server₁, emissions)) :
    server₁.nextSequenceNumber = server.nextSequenceNumber := by
  have hsame := @handleMessage_withSequence order socket frame server.nextSequenceNumber server
  rw [h, show server.withSequence server.nextSequenceNumber = server from rfl, h] at hsame
  exact congrArg (fun result => (result.1 : ExchangeServer).nextSequenceNumber)
    (Except.ok.inj hsame)

/-! ## Frames in order -/

theorem drawn_snoc (labels : List Label) (label : Label) :
    drawn (labels ++ [label]) = drawn labels ++ label.drawn?.toList := by
  rw [drawn, List.filterMap_append, drawn]
  cases label <;> rfl

structure Ordered (labels : List Label) (s : Sequenced) : Prop where
  inSequence : InSequence labels s
  counter : s.server.nextSequenceNumber ≤ 2 ^ 64
  below : ∀ frame ∈ drawn labels, frame.1.toNat < s.server.nextSequenceNumber
  holds : ∀ thread held, s.held thread = some held →
    (held.sequenceNumber, held.emission) ∈ drawn labels
  alone : ∀ thread other held held', s.held thread = some held → s.held other = some held' →
    held.sequenceNumber = held'.sequenceNumber → thread = other
  /-- What is still to be written comes after what has been. -/
  later : ∀ socket, ∀ frame ∈ s.written socket, ∀ thread held, s.held thread = some held →
    held.mayReach socket → frame.1 < held.sequenceNumber

/-- A step that draws and writes nothing, and after which the frames held are those before. -/
theorem Ordered.quiet (h : Ordered labels s) (hquiet : label.drawn? = none)
    (hcounter : s'.server.nextSequenceNumber = s.server.nextSequenceNumber)
    (hheld : s'.held = s.held)
    (hwritten : ∀ socket, s'.written socket = s.written socket ∨ s'.written socket = []) :
    Ordered (labels ++ [label]) s' := by
  have hdrawn : drawn (labels ++ [label]) = drawn labels := by
    rw [drawn_snoc, hquiet, Option.toList_none, List.append_nil]
  have hmem : ∀ socket, ∀ frame ∈ s'.written socket, frame ∈ s.written socket := by
    intro socket frame hframe
    rcases hwritten socket with hsame | hnone
    · rwa [hsame] at hframe
    · rw [hnone] at hframe
      exact absurd hframe List.not_mem_nil
  refine ⟨⟨fun socket => ?_, ?_, fun socket frame hframe => ?_⟩, ?_, ?_, ?_, ?_, ?_⟩
  · rcases hwritten socket with hsame | hnone
    · rw [hsame]
      exact h.inSequence.increasing socket
    · rw [hnone]
      exact .nil
  · rw [hdrawn]
    exact h.inSequence.distinct
  · rw [hdrawn]
    exact h.inSequence.written socket frame (hmem socket frame hframe)
  · rw [hcounter]
    exact h.counter
  · rw [hdrawn, hcounter]
    exact h.below
  · rw [hdrawn, hheld]
    exact h.holds
  · rw [hheld]
    exact h.alone
  · rw [hheld]
    exact fun socket frame hframe => h.later socket frame (hmem socket frame hframe)

theorem held_update {held : Socket → Option Held} {new : Option Held} {thread : Socket}
    {found : Held} (h : Function.update held socket new thread = some found) :
    thread = socket ∧ new = some found ∨ thread ≠ socket ∧ held thread = some found := by
  by_cases heq : thread = socket
  · rw [heq, Function.update_self] at h
    exact .inl ⟨heq, h⟩
  · rw [Function.update_of_ne heq] at h
    exact .inr ⟨heq, h⟩

theorem Ordered.draw (h : Ordered labels s) {emission : Emission} {rest : List Emission}
    (hcounter : s.server.nextSequenceNumber < 2 ^ 64) :
    Ordered
      (labels ++ [.draw socket (UInt64.ofNat s.server.nextSequenceNumber) emission])
      { s with
        server := { s.server with nextSequenceNumber := s.server.nextSequenceNumber + 1 }
        sending := Function.update s.sending socket rest
        held := Function.update s.held socket
          (some ⟨UInt64.ofNat s.server.nextSequenceNumber, emission, emission.addressee⟩) } := by
  have hnumber : (UInt64.ofNat s.server.nextSequenceNumber).toNat = s.server.nextSequenceNumber :=
    UInt64.toNat_ofNat_of_lt' hcounter
  have hdrawn := drawn_snoc labels
    (.draw socket (UInt64.ofNat s.server.nextSequenceNumber) emission)
  simp only [Label.drawn?, Option.toList_some] at hdrawn
  generalize UInt64.ofNat s.server.nextSequenceNumber = number at hnumber hdrawn
  have hfresh : ∀ frame ∈ drawn labels, frame.1 < number := by
    intro frame hframe
    rw [UInt64.lt_iff_toNat_lt, hnumber]
    exact h.below frame hframe
  refine ⟨⟨h.inSequence.increasing, ?_, ?_⟩, hcounter, ?_, ?_, ?_, ?_⟩
  · rw [hdrawn, List.pairwise_append]
    refine ⟨h.inSequence.distinct, List.pairwise_singleton _ _, fun frame hframe last hlast => ?_⟩
    rw [List.mem_singleton.mp hlast]
    exact UInt64.ne_of_lt (hfresh frame hframe)
  · intro other frame hframe
    rw [hdrawn]
    exact List.mem_append_left _ (h.inSequence.written other frame hframe)
  · intro frame hframe
    rw [hdrawn] at hframe
    rcases List.mem_append.mp hframe with hframe | hlast
    · exact Nat.lt_succ_of_lt (h.below frame hframe)
    · rw [List.mem_singleton.mp hlast, hnumber]
      exact Nat.lt_succ_self _
  · intro thread held hheld
    rw [hdrawn]
    rcases held_update hheld with ⟨-, hnew⟩ | ⟨-, hold⟩
    · cases hnew
      exact List.mem_append_right _ (List.mem_singleton_self _)
    · exact List.mem_append_left _ (h.holds thread held hold)
  · intro thread other held held' hheld hheld' hsame
    rcases held_update hheld with ⟨rfl, hnew⟩ | ⟨hne, hold⟩ <;>
      rcases held_update hheld' with ⟨rfl, hnew'⟩ | ⟨hne', hold'⟩
    · rfl
    · cases hnew
      exact absurd hsame (UInt64.ne_of_lt (hfresh _ (h.holds other held' hold'))).symm
    · cases hnew'
      exact absurd hsame (UInt64.ne_of_lt (hfresh _ (h.holds thread held hold)))
    · exact h.alone thread other held held' hold hold' hsame
  · intro other frame hframe thread held hheld hreach
    rcases held_update hheld with ⟨-, hnew⟩ | ⟨-, hold⟩
    · cases hnew
      exact hfresh frame (h.inSequence.written other frame hframe)
    · exact h.later other frame hframe thread held hold hreach

theorem Ordered.snapshot (h : Ordered labels s) {held : Held} {recipients : List Socket}
    (hheld : s.held socket = some held) (hnone : held.recipients = none) :
    Ordered (labels ++ [.snapshot socket])
      { s with
        held := Function.update s.held socket
          (some { held with recipients := some recipients }) } := by
  have hdrawn := drawn_snoc labels (.snapshot socket)
  simp only [Label.drawn?, Option.toList_none, List.append_nil] at hdrawn
  refine ⟨⟨h.inSequence.increasing, ?_, ?_⟩, h.counter, ?_, ?_, ?_, ?_⟩
  · rw [hdrawn]
    exact h.inSequence.distinct
  · rw [hdrawn]
    exact h.inSequence.written
  · rw [hdrawn]
    exact h.below
  · intro thread found hfound
    rw [hdrawn]
    rcases held_update hfound with ⟨rfl, hnew⟩ | ⟨-, hold⟩
    · cases hnew
      exact h.holds thread held hheld
    · exact h.holds thread found hold
  · intro thread other found found' hfound hfound' hsame
    rcases held_update hfound with ⟨rfl, hnew⟩ | ⟨-, hold⟩ <;>
      rcases held_update hfound' with ⟨rfl, hnew'⟩ | ⟨-, hold'⟩
    · rfl
    · cases hnew
      exact h.alone thread other held found' hheld hold' hsame
    · cases hnew'
      exact h.alone thread other found held hold hheld hsame
    · exact h.alone thread other found found' hold hold' hsame
  · intro other frame hframe thread found hfound hreach
    rcases held_update hfound with ⟨rfl, hnew⟩ | ⟨-, hold⟩
    · cases hnew
      refine h.later other frame hframe thread held hheld fun recipients hsome => ?_
      rw [hnone] at hsome
      cases hsome
    · exact h.later other frame hframe thread found hold hreach

/-- The frame written comes after what its recipients have, and before what they may still get. -/
theorem Ordered.write (h : Ordered labels s) {held : Held} {recipients : List Socket}
    (hheld : s.held socket = some held) (hrecipients : held.recipients = some recipients)
    (horder : ¬s.Overtakes socket) :
    Ordered (labels ++ [.write socket])
      { s with
        held := Function.update s.held socket none
        written := s.writtenTo held recipients } := by
  have hdrawn := drawn_snoc labels (.write socket)
  simp only [Label.drawn?, Option.toList_none, List.append_nil] at hdrawn
  have hreach : ∀ other ∈ recipients, held.mayReach other := by
    intro other hother reached hreached
    rw [hrecipients] at hreached
    cases hreached
    exact hother
  have hothers : ∀ {thread found}, Function.update s.held socket none thread = some found →
      thread ≠ socket ∧ s.held thread = some found := by
    intro thread found hfound
    rcases held_update hfound with ⟨-, hnew⟩ | hold
    · cases hnew
    · exact hold
  refine ⟨⟨fun other => ?_, ?_, fun other frame hframe => ?_⟩, h.counter, ?_, ?_, ?_, ?_⟩
  · simp only [writtenTo]
    split
    · rename_i hmem
      rw [List.pairwise_append]
      refine ⟨h.inSequence.increasing other, List.pairwise_singleton _ _, ?_⟩
      intro frame hframe last hlast
      rw [List.mem_singleton.mp hlast]
      exact h.later other frame hframe socket held hheld (hreach other hmem)
    · exact h.inSequence.increasing other
  · rw [hdrawn]
    exact h.inSequence.distinct
  · rw [hdrawn]
    simp only [writtenTo] at hframe
    split at hframe
    · rcases List.mem_append.mp hframe with hframe | hlast
      · exact h.inSequence.written other frame hframe
      · rw [List.mem_singleton.mp hlast]
        exact h.holds socket held hheld
    · exact h.inSequence.written other frame hframe
  · rw [hdrawn]
    exact h.below
  · intro thread found hfound
    rw [hdrawn]
    exact h.holds thread found (hothers hfound).2
  · intro thread other found found' hfound hfound'
    exact h.alone thread other found found' (hothers hfound).2 (hothers hfound').2
  · intro other frame hframe thread found hfound hmay
    obtain ⟨hne, hold⟩ := hothers hfound
    simp only [writtenTo] at hframe
    split at hframe
    · rename_i hmem
      rcases List.mem_append.mp hframe with hframe | hlast
      · exact h.later other frame hframe thread found hold hmay
      · rw [List.mem_singleton.mp hlast]
        -- of two numbers held at one time the smaller one is written first
        have hdistinct : held.sequenceNumber ≠ found.sequenceNumber := fun hsame =>
          hne (h.alone thread socket found held hold hheld hsame.symm)
        have hfirst : ¬found.sequenceNumber < held.sequenceNumber := fun hlt =>
          horder ⟨held, recipients, hheld, hrecipients, thread, found, hold, hlt, other, hmem, hmay⟩
        exact UInt64.lt_of_le_of_ne (UInt64.not_lt.mp hfirst) hdistinct
    · exact h.later other frame hframe thread found hold hmay

theorem Ordered.step (h : Ordered labels s) (hstep : OrderlyStep s label s') :
    Ordered (labels ++ [label]) s' := by
  obtain ⟨hstep, horder⟩ := hstep
  cases hstep with
  | @connect socket hvalid hfree =>
    refine h.quiet rfl rfl rfl fun other => ?_
    by_cases heq : other = socket
    · rw [heq]
      exact .inr (Function.update_self ..)
    · exact .inl (Function.update_of_ne heq _ _)
  | handle order hopen hready hhandled =>
    exact h.quiet rfl (handleMessage_counter hhandled) rfl fun _ => .inl rfl
  | disconnect | skip | setGlobalKillSwitch => exact h.quiet rfl rfl rfl fun _ => .inl rfl
  | draw hnext hfree haddressed => exact h.draw horder
  | snapshot hheld hnone => exact h.snapshot hheld hnone
  | write hheld hrecipients => exact h.write hheld hrecipients horder

theorem ordered_start (hstart : start limits file = some server₀) :
    Ordered [] { server := server₀ } := by
  have hnext : server₀.nextSequenceNumber = 1 := by
    unfold start at hstart
    split at hstart
    · cases hstart
      rfl
    · obtain ⟨books, -, heq⟩ := Option.bind_eq_some_iff.mp hstart
      cases heq
      rfl
  refine ⟨⟨fun _ => .nil, .nil, ?_⟩, ?_, ?_, ?_, ?_, ?_⟩
  · exact fun _ _ hframe => absurd hframe List.not_mem_nil
  · simp [hnext]
  · exact fun _ hframe => absurd hframe List.not_mem_nil
  · exact fun _ _ hheld => nomatch hheld
  · exact fun _ _ _ _ hheld => nomatch hheld
  · exact fun _ _ hframe => absurd hframe List.not_mem_nil

theorem in_sequence (hstart : start limits file = some server₀)
    (h : Run OrderlyStep { server := server₀ } labels s) : InSequence labels s := by
  have hordered : Ordered labels s := h.history (ordered_start hstart)
    fun _ _ _ _ _ hordered hstep => hordered.step hstep
  exact hordered.inSequence

/-! ## With a journal -/

theorem journaled {file : Option Bytes} (hstart : start limits (some file) = some server₀)
    (h : Run Step { server := server₀ } labels s) : s.server.journal.isSome = true := by
  obtain ⟨labels', hconcurrent⟩ := concurrent h
  obtain ⟨log, n, hrun⟩ := Concurrent.sequential hconcurrent
  obtain ⟨journal, hjournal⟩ := journaled_run hstart hrun
  rw [withSequence_journal] at hjournal
  exact Option.isSome_iff_exists.mpr ⟨journal, hjournal⟩

/-- At most one thread is between starting on a frame and its last write. -/
theorem journaled_alone {file : Option Bytes} (hstart : start limits (some file) = some server₀)
    (h : Run Step { server := server₀ } labels s) :
    ∀ thread other, ¬s.Idle thread → ¬s.Idle other → thread = other := by
  refine h.history
    (P := fun _ s => ∀ thread other, ¬s.Idle thread → ¬s.Idle other → thread = other) ?_ ?_
  · intro thread _ hbusy
    exact absurd ⟨rfl, rfl⟩ hbusy
  intro labels s label s' hrun halone hstep
  -- a thread that goes on was busy before
  have hgoesOn : ∀ socket, ¬s.Idle socket →
      (∀ thread, thread ≠ socket → ¬s'.Idle thread → ¬s.Idle thread) →
      ∀ thread other, ¬s'.Idle thread → ¬s'.Idle other → thread = other := by
    intro socket hbusy hsame
    have honly : ∀ thread, ¬s'.Idle thread → thread = socket := by
      intro thread hthread
      by_contra hne
      exact hne (halone thread socket (hsame thread hne hthread) hbusy)
    intro thread other hthread hother
    rw [honly thread hthread, honly other hother]
  cases hstep with
  | connect | disconnect | setGlobalKillSwitch => exact halone
  | @handle socket frame server₁ emissions order hopen hready hhandled =>
    have hidle := hready.2 (journaled hstart hrun)
    have honly : ∀ thread, ¬Idle { s with
        server := server₁, sending := Function.update s.sending socket emissions } thread →
        thread = socket := by
      intro thread hbusy
      by_contra hne
      refine hbusy ⟨?_, (hidle thread).2⟩
      exact (Function.update_of_ne hne _ _).trans (hidle thread).1
    intro thread other hthread hother
    rw [honly thread hthread, honly other hother]
  | @skip socket emission rest hnext hfree hunaddressed =>
    refine hgoesOn socket (fun hidle => ?_) fun thread hne hbusy hidle => hbusy ⟨?_, hidle.2⟩
    · rw [hidle.1] at hnext
      cases hnext
    · exact (Function.update_of_ne hne _ _).trans hidle.1
  | @draw socket emission rest hnext hfree haddressed =>
    refine hgoesOn socket (fun hidle => ?_) fun thread hne hbusy hidle => hbusy ⟨?_, ?_⟩
    · rw [hidle.1] at hnext
      cases hnext
    · exact (Function.update_of_ne hne _ _).trans hidle.1
    · exact (Function.update_of_ne hne _ _).trans hidle.2
  | @snapshot socket held hheld hnone =>
    refine hgoesOn socket (fun hidle => ?_) fun thread hne hbusy hidle => hbusy ⟨hidle.1, ?_⟩
    · rw [hidle.2] at hheld
      cases hheld
    · exact (Function.update_of_ne hne _ _).trans hidle.2
  | @write socket held recipients hheld hrecipients =>
    refine hgoesOn socket (fun hidle => ?_) fun thread hne hbusy hidle => hbusy ⟨hidle.1, ?_⟩
    · rw [hidle.2] at hheld
      cases hheld
    · exact (Function.update_of_ne hne _ _).trans hidle.2

theorem journaled_inOrder {file : Option Bytes} (hstart : start limits (some file) = some server₀)
    (h : Run Step { server := server₀ } labels s) : ¬s.Overtakes socket := by
  rintro ⟨held, recipients, hheld, -, other, held', hheld', hlt, -⟩
  have hbusy : ∀ {thread found}, s.held thread = some found → ¬s.Idle thread := by
    intro thread found hfound hidle
    rw [hidle.2] at hfound
    cases hfound
  have hsame := journaled_alone hstart h socket other (hbusy hheld) (hbusy hheld')
  rw [hsame, hheld'] at hheld
  cases hheld
  exact UInt64.lt_irrefl _ hlt

/-! ## Runs that are computed -/

inductive Move where
  | connect (socket : Socket)
  | disconnect (socket : Socket)
  | handle (socket : Socket) (frame : Frame)
  /-- The thread of the session takes its next step. -/
  | advance (socket : Socket)

def isIdle (s : Sequenced) (socket : Socket) : Bool :=
  (s.sending socket).isEmpty && (s.held socket).isNone

/-- Only a connected session has a thread, so these are all there are to look at. -/
def isReady (socket : Socket) (s : Sequenced) : Bool :=
  s.isIdle socket && (s.server.journal.isNone || s.server.clientSockets.all s.isIdle)

def drawing (socket : Socket) (emission : Emission) (rest : List Emission) (s : Sequenced) :
    Sequenced :=
  { s with
    server := { s.server with nextSequenceNumber := s.server.nextSequenceNumber + 1 }
    sending := Function.update s.sending socket rest
    held := Function.update s.held socket
      (some ⟨UInt64.ofNat s.server.nextSequenceNumber, emission, emission.addressee⟩) }

def writeHeld (socket : Socket) (held : Held) (s : Sequenced) : Label × Sequenced :=
  match held.recipients with
  | none =>
    (.snapshot socket, { s with
      held := Function.update s.held socket
        (some { held with recipients := some s.server.clientSockets }) })
  | some recipients =>
    (.write socket, { s with
      held := Function.update s.held socket none
      written := s.writtenTo held recipients })

def advance (socket : Socket) (s : Sequenced) : Option (Label × Sequenced) :=
  match s.held socket with
  | some held => some (s.writeHeld socket held)
  | none =>
    match s.sending socket with
    | [] => none
    | emission :: rest =>
      if emission.unaddressed then
        some (.skip socket, { s with sending := Function.update s.sending socket rest })
      else
        some (.draw socket (UInt64.ofNat s.server.nextSequenceNumber) emission,
          s.drawing socket emission rest)

def perform (move : Move) (s : Sequenced) : Option (Label × Sequenced) :=
  match move with
  | .connect socket =>
    if socket < 0 ∨ socket ∈ s.server.clientSockets then none
    else
      some (.connect socket, { s with
        server := registerClient socket s.server
        written := Function.update s.written socket [] })
  | .disconnect socket =>
    if socket ∉ s.server.clientSockets ∨ !s.isIdle socket then none
    else some (.disconnect socket, { s with server := unregisterClient socket s.server })
  | .handle socket frame =>
    if socket ∉ s.server.clientSockets ∨ !s.isReady socket then none
    else
      match handleMessage .dedup socket frame s.server with
      | .error _ => none
      | .ok (server, emissions) =>
        some (.handle socket frame emissions, { s with
          server := server
          sending := Function.update s.sending socket emissions })
  | .advance socket => s.advance socket

/-- No session holds a smaller number, whatever for. -/
def inOrder (s : Sequenced) : Label → Bool
  | .draw .. => s.server.nextSequenceNumber < 2 ^ 64
  | .write socket => (s.held socket).all fun held => s.server.clientSockets.all fun other =>
      (s.held other).all fun held' => held.sequenceNumber ≤ held'.sequenceNumber
  | _ => true

def performOrderly (move : Move) (s : Sequenced) : Option (Label × Sequenced) :=
  (s.perform move).filter fun next => s.inOrder next.1

theorem isIdle_idle (h : s.isIdle socket = true) : s.Idle socket := by
  rw [isIdle, Bool.and_eq_true, List.isEmpty_iff, Option.isNone_iff_eq_none] at h
  exact h

/-- The thread of a connection has nothing left to do when it is over. -/
theorem idle_run (hstart : start limits file = some server₀)
    (h : Run Step { server := server₀ } labels s) :
    ∀ socket, socket ∉ s.server.clientSockets → s.Idle socket := by
  induction h with
  | nil => exact fun _ _ => ⟨rfl, rfl⟩
  | @snoc s s' labels label hrun hstep ih =>
    obtain ⟨labels', hconcurrent⟩ := concurrent hrun
    obtain ⟨log, hown⟩ := Concurrent.ownership hstart hconcurrent
    -- the session that takes the step is connected
    have hothers : ∀ socket, ¬s.Idle socket → ∀ other, other ∉ s.server.clientSockets →
        other ≠ socket := by
      rintro socket hbusy other hother rfl
      exact hbusy (ih other hother)
    have hsending : ∀ {socket emission rest}, s.sending socket = emission :: rest →
        ¬s.Idle socket := by
      intro socket emission rest hnext hidle
      rw [hidle.1] at hnext
      cases hnext
    have hheld : ∀ {socket held}, s.held socket = some held → ¬s.Idle socket := by
      intro socket held hheld hidle
      rw [hidle.2] at hheld
      cases hheld
    intro other hother
    cases hstep with
    | connect => exact ih other fun hmem => hother (List.mem_append_left _ hmem)
    | @disconnect socket hopen hidle =>
      by_cases heq : other = socket
      · rw [heq]
        exact hidle
      · exact ih other fun hmem => hother ((List.mem_erase_of_ne heq).mpr hmem)
    | @handle socket frame server₁ emissions order hopen hready hhandled =>
      have hsockets := (handleMessage_cases hown.books hhandled).sameSessions.sockets
      have hclosed : other ∉ s.server.clientSockets := hsockets ▸ hother
      have hne : other ≠ socket := fun heq => hclosed (heq ▸ hopen)
      exact ⟨(Function.update_of_ne hne _ _).trans (ih other hclosed).1, (ih other hclosed).2⟩
    | skip hnext =>
      have hne := hothers _ (hsending hnext) other hother
      exact ⟨(Function.update_of_ne hne _ _).trans (ih other hother).1, (ih other hother).2⟩
    | draw hnext =>
      have hne := hothers _ (hsending hnext) other hother
      exact ⟨(Function.update_of_ne hne _ _).trans (ih other hother).1,
        (Function.update_of_ne hne _ _).trans (ih other hother).2⟩
    | snapshot hsome | write hsome =>
      have hne := hothers _ (hheld hsome) other hother
      exact ⟨(ih other hother).1, (Function.update_of_ne hne _ _).trans (ih other hother).2⟩
    | setGlobalKillSwitch => exact ih other hother

theorem isReady_ready (h : ∀ socket, socket ∉ s.server.clientSockets → s.Idle socket)
    (hready : s.isReady socket = true) : s.Ready socket := by
  rw [isReady, Bool.and_eq_true, Bool.or_eq_true, List.all_eq_true] at hready
  refine ⟨isIdle_idle hready.1, fun hjournal other => ?_⟩
  rcases hready.2 with hnone | hall
  · rw [Option.isNone_iff_eq_none.mp hnone] at hjournal
    cases hjournal
  by_cases hmem : other ∈ s.server.clientSockets
  · exact isIdle_idle (hall other hmem)
  · exact h other hmem

theorem writeHeld_step {held : Held} (hheld : s.held socket = some held) :
    Step s (s.writeHeld socket held).1 (s.writeHeld socket held).2 := by
  cases hrecipients : held.recipients with
  | none =>
    simp only [writeHeld, hrecipients]
    exact .snapshot hheld hrecipients
  | some recipients =>
    simp only [writeHeld, hrecipients]
    exact .write hheld hrecipients

theorem advance_step (h : s.advance socket = some (label, s')) : Step s label s' := by
  rw [advance] at h
  split at h
  · rename_i held hheld
    have hstep := writeHeld_step hheld
    rwa [Option.some.inj h] at hstep
  · rename_i hfree
    split at h
    · cases h
    · rename_i emission rest hnext
      split at h
      · rename_i hunaddressed
        cases h
        exact .skip hnext hfree hunaddressed
      · rename_i haddressed
        cases h
        exact .draw hnext hfree (Bool.eq_false_iff.mpr haddressed)

theorem perform_step {move : Move} (hstart : start limits file = some server₀)
    (hrun : Run Step { server := server₀ } labels s) (h : s.perform move = some (label, s')) :
    Step s label s' := by
  cases move with
  | connect socket =>
    simp only [perform, Option.ite_none_left_eq_some, not_or, Int.not_lt] at h
    obtain ⟨⟨hvalid, hfree⟩, heq⟩ := h
    cases heq
    exact .connect hvalid hfree
  | disconnect socket =>
    simp only [perform, Option.ite_none_left_eq_some, not_or, not_not, Bool.not_eq_true',
      Bool.not_eq_false] at h
    obtain ⟨⟨hopen, hidle⟩, heq⟩ := h
    cases heq
    exact .disconnect hopen (isIdle_idle hidle)
  | handle socket frame =>
    simp only [perform, Option.ite_none_left_eq_some, not_or, not_not, Bool.not_eq_true',
      Bool.not_eq_false] at h
    obtain ⟨⟨hopen, hready⟩, h⟩ := h
    split at h
    · cases h
    · rename_i server emissions hhandled
      cases h
      exact .handle .dedup hopen (isReady_ready (idle_run hstart hrun) hready) hhandled
  | advance socket => exact advance_step h

theorem inOrder_inOrder (hidle : ∀ socket, socket ∉ s.server.clientSockets → s.Idle socket)
    (h : s.inOrder label = true) : s.InOrder label := by
  cases label with
  | draw =>
    rw [inOrder, decide_eq_true_eq] at h
    exact h
  | write socket =>
    rintro ⟨held, recipients, hheld, -, other, held', hheld', hlt, -⟩
    have hopen : other ∈ s.server.clientSockets := by
      by_contra hclosed
      rw [(hidle other hclosed).2] at hheld'
      cases hheld'
    rw [inOrder, hheld, Option.all_some, List.all_eq_true] at h
    have hle := h other hopen
    rw [hheld', Option.all_some, decide_eq_true_eq] at hle
    exact UInt64.not_lt.mpr hle hlt
  | _ => trivial

/-! ## Number 2 after number 3 -/

def emptyHeader : MessageHeader := ⟨protocolMagic, protocolVersion, .newOrder, 0, 0⟩

theorem emptyHeader_magic : emptyHeader.magic = protocolMagic := rfl

theorem emptyHeader_version : emptyHeader.version = protocolVersion := rfl

theorem emptyHeader_size : ([] : Bytes).length = emptyHeader.bodySize.toNat := rfl

theorem emptyBody_bounded : ([] : Bytes).length ≤ maximumBodySize := Nat.zero_le _

/-- A new order without its body, which is rejected whatever the state. -/
def emptyFrame : Frame where
  header := emptyHeader
  body := []
  magic := emptyHeader_magic
  version := emptyHeader_version
  size := emptyHeader_size
  bounded := emptyBody_bounded

theorem handle_emptyFrame (socket : Socket) (server : ExchangeServer) :
    handleMessage .dedup socket emptyFrame server =
      .ok (server, [.orderResponse socket 0 false .orderAccepted]) := rfl

/-- Two sessions whose threads take turns, the one with the smaller number writing first. -/
def turnsMoves : List Move :=
  [.connect 4, .connect 5,
    .handle 4 (newOrderFrame ⟨7, 1, 100, 5, .sell, .limit, .goodTillCancel, defaultSymbol⟩),
    .advance 4, .advance 4, .advance 4, .handle 5 emptyFrame, .advance 4, .advance 5, .advance 4,
    .advance 5, .advance 4, .advance 4, .advance 4]

/-- Session 5 draws a number between those of session 4, and holds it while session 4 writes. -/
theorem in_sequence_turns : ∃ labels s,
    Run OrderlyStep { server := { riskEngine := { limits := {} } } } labels s ∧
      (s.written 4).map Prod.fst = [1, 2, 4] ∧ (s.written 5).map Prod.fst = [2, 3, 4] ∧
      InSequence labels s := by
  have hstart : start {} none = some { riskEngine := { limits := {} } } := rfl
  have hturns : (play (fun move s => performOrderly move s) turnsMoves
      { server := { riskEngine := { limits := {} } } }).any (fun result => decide
        ((result.2.written 4).map Prod.fst = [1, 2, 4] ∧
          (result.2.written 5).map Prod.fst = [2, 3, 4])) = true := by
    decide +kernel
  obtain ⟨⟨labels, s⟩, hplay, hwritten⟩ := (Option.any_eq_true _ _).mp hturns
  have hrun : Run OrderlyStep { server := { riskEngine := { limits := {} } } } labels s :=
    Run.of_play_filter perform inOrder (perform_step hstart)
      (fun hrun => inOrder_inOrder (idle_run hstart hrun)) hplay
  obtain ⟨hfour, hfive⟩ := of_decide_eq_true hwritten
  exact ⟨labels, s, hrun, hfour, hfive, in_sequence hstart hrun⟩

/-- The thread of session 4 has drawn number 2 for the book when session 5 is written a rejection with
number 3; the book goes to session 5 afterwards. -/
theorem out_of_sequence :
    ¬ ∀ (limits : RiskLimits) (file : Option (Option Bytes)) (server₀ : ExchangeServer)
      (labels : List Label) (s : Sequenced), start limits file = some server₀ →
      Run Step { server := server₀ } labels s → InSequence labels s := by
  intro h
  have hstart : start {} none = some { riskEngine := { limits := {} } } := rfl
  obtain ⟨server₁, snapshot, event, hplaced, hjournal, hsockets, hcounter⟩ :
      ∃ server₁ snapshot event,
      handleMessage .dedup 4
        (newOrderFrame ⟨7, 1, 100, 5, .sell, .limit, .goodTillCancel, defaultSymbol⟩)
        (registerClient 5 (registerClient 4 { riskEngine := { limits := {} } })) =
          .ok (server₁, [.orderResponse 4 7 true .orderAccepted, .bookUpdate snapshot,
            .level3AddOrder event]) ∧
      server₁.journal = none ∧ server₁.clientSockets = [4, 5] ∧ server₁.nextSequenceNumber = 1 :=
    ⟨_, _, _, by rfl, by rfl, by rfl, by rfl⟩
  have connect₄ : Step { server := { riskEngine := { limits := {} } } } (.connect 4) _ :=
    .connect (by decide) (by decide)
  have hunjournaled : server₁.journal.isSome = true → False := by simp [hjournal]
  let response : Emission := .orderResponse 4 7 true .orderAccepted
  let rejection : Emission := .orderResponse 5 0 false .orderAccepted
  have placed := (((Run.nil _).snoc connect₄).snoc
    (@Step.connect _ 5 (by decide) (by decide))).snoc
    (.handle .dedup (by decide) ⟨⟨rfl, rfl⟩, fun h => nomatch h⟩ hplaced)
  have answered := (placed.snoc (@Step.draw _ 4 response _ rfl rfl rfl)).snoc
    (@Step.write _ 4 ⟨_, response, some [4]⟩ [4] rfl rfl)
  have drawn := answered.snoc (@Step.draw _ 4 (.bookUpdate snapshot) _ rfl rfl rfl)
  have handled := drawn.snoc (.handle .dedup (hsockets ▸ by decide : 5 ∈ server₁.clientSockets)
    ⟨⟨rfl, rfl⟩, fun h => (hunjournaled h).elim⟩ (handle_emptyFrame 5 _))
  have rejected := (handled.snoc (@Step.draw _ 5 rejection [] rfl rfl rfl)).snoc
    (@Step.write _ 5 ⟨_, rejection, some [5]⟩ [5] rfl rfl)
  have addressed := rejected.snoc (@Step.snapshot _ 4 ⟨_, .bookUpdate snapshot, none⟩ rfl rfl)
  obtain ⟨labels, s, hrun, hheld, hwritten⟩ : ∃ labels s,
      Run Step { server := { riskEngine := { limits := {} } } } labels s ∧
      s.held 4 = some ⟨UInt64.ofNat (server₁.nextSequenceNumber + 1), .bookUpdate snapshot,
        some server₁.clientSockets⟩ ∧
      s.written 5 = [(UInt64.ofNat (server₁.nextSequenceNumber + 1 + 1), rejection)] :=
    ⟨_, _, addressed, rfl, rfl⟩
  have hincreasing := (h {} none _ _ _ hstart (hrun.snoc (.write hheld rfl))).increasing 5
  simp only [writtenTo, hwritten, hsockets, hcounter] at hincreasing
  revert hincreasing
  simp

end Sequenced

end ExchangeLab

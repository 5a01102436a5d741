import ExchangeLab.Gateway.Execution
import ExchangeLab.Server.Receive

/-!
# ExchangeLab.Gateway.Wire

The connections between the gateway and the core as the streams of bytes they are. `recv` returns a
piece of what is on the way, of any size; both sides take their messages out of a buffer, and both
empty the buffer at a header they do not like.

* `WireLink`: a session with the bytes on the way and the two buffers.
* `WireLink.Represents`: the bytes are those of the messages of a `Link`.
* `wire_refines`: a run on bytes is a run of the bridge on messages, and no buffer is ever emptied.
-/

namespace ExchangeLab

open Wire Protocol Container ExchangeServer FixGateway Transition

/-! ## The two ends -/

structure WireLink where
  session : SessionContext
  /-- What the gateway has written and the core has not received. -/
  toCore : Bytes := []
  /-- `receive_buffer` of the core's thread. -/
  receiveBuffer : Bytes := []
  toGateway : Bytes := []
  coreReceiveBuffer : Bytes := []
  requests : List Request := []
  received : List Reception := []

namespace WireLink

def forward (effects : Effects) (link : WireLink) : WireLink :=
  { link with
    session := effects.session
    toCore := link.toCore ++ effects.request.toList.flatMap fun request => request.frame.record
    requests := link.requests ++ effects.request.toList }

def process (iteration : SetOrder) (message : CoreMessage) (rest : Bytes) (link : WireLink) :
    WireLink :=
  { link with
    session := (processCoreMessage iteration message link.session).1
    coreReceiveBuffer := rest
    received := link.received ++ [⟨message, (processCoreMessage iteration message link.session).2⟩] }

end WireLink

def writeSent (links : Socket → Option WireLink) (sent : Sent) : Socket → Option WireLink :=
  fun socket => (links socket).map fun link =>
    if socket ∈ sent.recipients then { link with toGateway := link.toGateway ++ sent.message }
    else link

/-- A step of the core, where the handler of a link works on the next frame in the receive buffer. -/
inductive WireFollows (links : Socket → Option WireLink) :
    Concurrent.Label → (Socket → Option WireLink) → Prop
  | connect {socket : Socket}
      (hconnecting : ∀ link, links socket = some link → 0 ≤ link.session.coreSocket) :
      WireFollows links (.connect socket) links
  | disconnect (socket : Socket) :
      WireFollows links (.disconnect socket) (Function.update links socket none)
  | command {socket : Socket} (frame : Frame) (emissions : List Emission)
      (hlink : links socket = none) : WireFollows links (.handle socket frame emissions) links
  | request {socket : Socket} {link : WireLink} {frame : Frame} {rest : Bytes}
      (emissions : List Emission) (hlink : links socket = some link)
      (hnext : nextMessage link.receiveBuffer = .message frame rest) :
      WireFollows links (.handle socket frame emissions)
        (Function.update links socket (some { link with receiveBuffer := rest }))
  | send (socket : Socket) (sent : List Sent) :
      WireFollows links (.send socket sent) (sent.foldl writeSent links)
  | setGlobalKillSwitch (enabled : Bool) : WireFollows links (.setGlobalKillSwitch enabled) links

structure WireBridge where
  core : Concurrent
  links : Socket → Option WireLink := fun _ => none
  nextNumericOrderId : Nat := 2 ^ 62
  executions : List Execution := []

namespace WireBridge

inductive Label where
  | message (label : Bridge.Label)
  | coreReceives (socket : Socket) (chunk : Bytes)
  | coreDiscards (socket : Socket)
  | gatewayReceives (socket : Socket) (chunk : Bytes)
  | gatewayDiscards (socket : Socket)

/-- A step that the bridge has as well. -/
def Label.toBridge : Label → Option Bridge.Label
  | .message label => some label
  | _ => none

/-- A buffer is emptied. -/
def Label.discards : Label → Bool
  | .coreDiscards _ | .gatewayDiscards _ => true
  | _ => false

def setLink (socket : Socket) (link : WireLink) (w : WireBridge) : WireBridge :=
  { w with links := Function.update w.links socket (some link) }

def afterClient (socket : Socket) (link : WireLink) (effects : Effects) (w : WireBridge) :
    WireBridge :=
  { w.setLink socket (link.forward effects) with nextNumericOrderId := effects.nextNumericOrderId }

inductive Step (config : FixGatewayConfig) : WireBridge → Label → WireBridge → Prop
  | core {w : WireBridge} {label : Concurrent.Label} {core' : Concurrent}
      {links' : Socket → Option WireLink} (hstep : Concurrent.Step w.core label core')
      (hlinks : WireFollows w.links label links') :
      Step config w (.message (.core label))
        ⟨core', links', w.nextNumericOrderId, w.executions ++ Bridge.executedBy label⟩
  | accept {w : WireBridge} {socket : Socket} (hfree : socket ∉ w.core.server.clientSockets)
      (hlink : w.links socket = none) :
      Step config w (.message (.accept socket))
        (w.setLink socket
          { session := { heartbeatSeconds := config.defaultHeartbeatSeconds } })
  | client {w : WireBridge} {socket : Socket} {link : WireLink} (surroundings : Surroundings)
      (message : Fix.Message) (hlink : w.links socket = some link)
      (hopen : link.session.closing = false) (hcounter : w.nextNumericOrderId < 2 ^ 64) :
      Step config w (.message (.client socket surroundings message))
        (w.afterClient socket link
          (processFixMessage config surroundings w.nextNumericOrderId message link.session))
  | deliver {w : WireBridge} {socket : Socket} {link : WireLink} {message : CoreMessage}
      {rest : Bytes} (iteration : SetOrder) (hlink : w.links socket = some link)
      (hnext : extractCoreMessage link.coreReceiveBuffer = (some message, rest)) :
      Step config w (.message (.deliver socket message))
        (w.setLink socket (link.process iteration message rest))
  | coreReceives {w : WireBridge} {socket : Socket} {link : WireLink} {chunk rest : Bytes}
      (hlink : w.links socket = some link) (hchunk : link.toCore = chunk ++ rest) :
      Step config w (.coreReceives socket chunk)
        (w.setLink socket
          { link with receiveBuffer := link.receiveBuffer ++ chunk, toCore := rest })
  | coreDiscards {w : WireBridge} {socket : Socket} {link : WireLink}
      (hlink : w.links socket = some link)
      (hdiscarded : nextMessage link.receiveBuffer = .discarded) :
      Step config w (.coreDiscards socket)
        (w.setLink socket { link with receiveBuffer := [] })
  | gatewayReceives {w : WireBridge} {socket : Socket} {link : WireLink} {chunk rest : Bytes}
      (hlink : w.links socket = some link) (hchunk : link.toGateway = chunk ++ rest) :
      Step config w (.gatewayReceives socket chunk)
        (w.setLink socket
          { link with coreReceiveBuffer := link.coreReceiveBuffer ++ chunk, toGateway := rest })
  | gatewayDiscards {w : WireBridge} {socket : Socket} {link : WireLink}
      (hlink : w.links socket = some link) (hlong : headerSize ≤ link.coreReceiveBuffer.length)
      (hnone : extractCoreMessage link.coreReceiveBuffer = (none, [])) :
      Step config w (.gatewayDiscards socket)
        (w.setLink socket { link with coreReceiveBuffer := [] })

/-- The gateway next to a core that has just started. -/
def starting (server : ExchangeServer) : WireBridge := { core := ⟨server, fun _ => []⟩ }

end WireBridge

/-! ## Messages in bytes -/

/-- A message of the core, and its bytes. -/
def coreMessages (messages : List (UInt64 × Emission)) : List CoreMessage :=
  messages.map fun (sequenceNumber, emission) => emission.coreMessage sequenceNumber

def coreBytes (messages : List (UInt64 × Emission)) : Bytes :=
  messages.flatMap fun (sequenceNumber, emission) => emission.message sequenceNumber

theorem extractCoreMessage_append {buffer rest : Bytes} {message : CoreMessage}
    (h : extractCoreMessage buffer = (some message, rest)) (more : Bytes) :
    extractCoreMessage (buffer ++ more) = (some message, rest ++ more) := by
  unfold extractCoreMessage at h
  split at h
  · cases h
  rename_i hlong
  have htake : (buffer ++ more).take headerSize = buffer.take headerSize :=
    List.take_append_of_le_length (by omega)
  split at h
  · cases h
  rename_i header hheader
  dsimp only at h
  split at h
  · cases h
  rename_i hwhole
  cases h
  unfold extractCoreMessage
  rw [if_neg (by rw [List.length_append]; omega), htake, hheader]
  dsimp only
  rw [if_neg (by rw [List.length_append]; omega), List.drop_append_of_le_length (by omega),
    List.drop_append_of_le_length (by omega), List.take_append_of_le_length]
  rw [List.length_drop]
  omega

/-- What is found at the front of the bytes of messages is the first of them. -/
theorem extractCoreMessage_next {buffer more rest : Bytes} {message : CoreMessage}
    {messages : List (UInt64 × Emission)} (hbytes : buffer ++ more = coreBytes messages)
    (h : extractCoreMessage buffer = (some message, rest)) :
    ∃ first others, messages = first :: others ∧ message = first.2.coreMessage first.1 ∧
      rest ++ more = coreBytes others := by
  have hwhole := extractCoreMessage_append h more
  rw [hbytes] at hwhole
  cases messages with
  | nil => cases hwhole
  | cons first others =>
    rw [coreBytes, List.flatMap_cons, extractCoreMessage_message, Prod.mk.injEq,
      Option.some_inj] at hwhole
    exact ⟨first, others, rfl, hwhole.1.symm, hwhole.2.symm⟩

/-- A buffer that begins with a message is not emptied. -/
theorem extractCoreMessage_kept {buffer more : Bytes} {messages : List (UInt64 × Emission)}
    (hbytes : buffer ++ more = coreBytes messages) (hlong : headerSize ≤ buffer.length) :
    extractCoreMessage buffer ≠ (none, []) := by
  intro h
  have hsize : 0 < headerSize := by decide
  cases messages with
  | nil =>
    rw [(List.append_eq_nil_iff.mp hbytes).1, List.length_nil] at hlong
    omega
  | cons first others =>
    have hwhole := extractCoreMessage_message first.1 first.2 (coreBytes others)
    have hfirst : buffer ++ more = first.2.message first.1 ++ coreBytes others := hbytes
    rw [← hfirst] at hwhole
    unfold extractCoreMessage at h hwhole
    rw [if_neg (by omega)] at h
    rw [if_neg (by rw [List.length_append]; omega),
      List.take_append_of_le_length hlong] at hwhole
    cases hheader : decodeHeader (buffer.take headerSize) with
    | none =>
      rw [hheader] at hwhole
      cases hwhole
    | some header =>
      rw [hheader] at h
      dsimp only at h
      split at h
      · rw [(Prod.mk.inj h).2, List.length_nil] at hlong
        omega
      · cases h

/-- What is found at the front of the bytes of frames is the first of them. -/
theorem nextMessage_next {buffer more rest : Bytes} {frame : Frame} {frames : List Frame}
    (hbytes : buffer ++ more = frames.flatMap Frame.record)
    (h : nextMessage buffer = .message frame rest) :
    ∃ others, frames = frame :: others ∧ rest ++ more = others.flatMap Frame.record := by
  rw [nextMessage_eq_message.mp h, List.append_assoc] at hbytes
  have hnext := nextMessage_eq_message.mpr hbytes.symm
  cases frames with
  | nil => cases hnext
  | cons first others =>
    rw [List.flatMap_cons, nextMessage_eq_message.mpr rfl] at hnext
    injection hnext with hframe hrest
    exact ⟨others, by rw [hframe], hrest.symm⟩

/-- A buffer that begins with a frame is not emptied. -/
theorem nextMessage_kept {buffer more : Bytes} {frames : List Frame}
    (hbytes : buffer ++ more = frames.flatMap Frame.record) : nextMessage buffer ≠ .discarded := by
  intro h
  have hmalformed := nextMessage_eq_discarded.mp h
  have hwhole := hmalformed.append more
  rw [hbytes] at hwhole
  cases frames with
  | nil => exact absurd hwhole.1 (by decide)
  | cons first others => exact not_malformed_message hwhole

/-! ## The same link, in bytes and in messages -/

structure WireLink.Represents (wire : WireLink) (link : Link) : Prop where
  session : wire.session = link.session
  requests : wire.requests = link.requests
  received : wire.received = link.received
  toCore : wire.receiveBuffer ++ wire.toCore = link.toCore.flatMap Frame.record
  toGateway : ∃ messages, link.toGateway = coreMessages messages ∧
    wire.coreReceiveBuffer ++ wire.toGateway = coreBytes messages

structure WireBridge.Represents (w : WireBridge) (s : Bridge) : Prop where
  core : w.core = s.core
  nextNumericOrderId : w.nextNumericOrderId = s.nextNumericOrderId
  executions : w.executions = s.executions
  links : ∀ socket, Option.Rel WireLink.Represents (w.links socket) (s.links socket)

/-- Both sides of a relation are updated. -/
theorem rel_update {α β γ : Type} [DecidableEq α] {R : β → γ → Prop} {f : α → Option β}
    {g : α → Option γ} (h : ∀ a, Option.Rel R (f a) (g a)) {b : Option β} {c : Option γ}
    (hbc : Option.Rel R b c) (a a' : α) :
    Option.Rel R (Function.update f a b a') (Function.update g a c a') := by
  simp only [Function.update_apply]
  split
  · exact hbc
  · exact h a'

theorem rel_some {β γ : Type} {R : β → γ → Prop} {b : β} {c : Option γ}
    (h : Option.Rel R (some b) c) : ∃ c', c = some c' ∧ R b c' := by
  cases h with
  | some hbc => exact ⟨_, rfl, hbc⟩

theorem rel_none {β γ : Type} {R : β → γ → Prop} {c : Option γ} (h : Option.Rel R (none : Option β) c) :
    c = none := by
  cases h with
  | none => rfl

/-! ## Steps -/

theorem emit_message (emission : Emission) (server : ExchangeServer) :
    ∀ sent ∈ (emit emission server).2,
      sent.message = sent.emission.message (UInt64.ofNat sent.sequenceNumber) := by
  rw [emit]
  split
  · exact List.forall_mem_nil _
  · exact List.forall_mem_singleton.mpr rfl

section Links

variable {wires wires' : Socket → Option WireLink} {links : Socket → Option Link}

theorem represents_writeSent
    (h : ∀ socket, Option.Rel WireLink.Represents (wires socket) (links socket)) {sent : Sent}
    (hmessage : sent.message = sent.emission.message (UInt64.ofNat sent.sequenceNumber))
    (socket : Socket) :
    Option.Rel WireLink.Represents (writeSent wires sent socket) (deliverSent links sent socket) := by
  have hsocket := h socket
  unfold writeSent deliverSent
  cases hwire : wires socket with
  | none =>
    rw [hwire] at hsocket
    rw [rel_none hsocket]
    exact .none
  | some wire =>
    rw [hwire] at hsocket
    obtain ⟨link, hlink, hrep⟩ := rel_some hsocket
    rw [hlink]
    refine .some ?_
    split
    · obtain ⟨messages, hmessages, hbytes⟩ := hrep.toGateway
      refine ⟨hrep.session, hrep.requests, hrep.received, hrep.toCore,
        messages ++ [(UInt64.ofNat sent.sequenceNumber, sent.emission)], ?_, ?_⟩
      · rw [coreMessages, List.map_append]
        exact congrArg (· ++ [sent.coreMessage]) hmessages
      · rw [coreBytes, List.flatMap_append, List.flatMap_singleton, hmessage, ← List.append_assoc,
          hbytes]
        rfl
    · exact hrep

theorem represents_writeSents (sents : List Sent)
    (h : ∀ socket, Option.Rel WireLink.Represents (wires socket) (links socket))
    (hmessages : ∀ sent ∈ sents,
      sent.message = sent.emission.message (UInt64.ofNat sent.sequenceNumber)) (socket : Socket) :
    Option.Rel WireLink.Represents (sents.foldl writeSent wires socket)
      (sents.foldl deliverSent links socket) := by
  induction sents generalizing wires links with
  | nil => exact h socket
  | cons sent sents ih =>
    rw [List.forall_mem_cons] at hmessages
    exact ih (represents_writeSent h hmessages.1) hmessages.2

/-- What a step of the core does to the bytes, it does to the messages. -/
theorem WireFollows.simulates {c c' : Concurrent} {label : Concurrent.Label}
    (h : ∀ socket, Option.Rel WireLink.Represents (wires socket) (links socket))
    (hstep : Concurrent.Step c label c') (hfollows : WireFollows wires label wires') :
    ∃ links', Follows links label links' ∧
      ∀ socket, Option.Rel WireLink.Represents (wires' socket) (links' socket) := by
  cases hfollows with
  | @connect socket hconnecting =>
    refine ⟨links, .connect fun link hlink => ?_, h⟩
    have hsocket := h socket
    cases hwire : wires socket with
    | none =>
      rw [hwire] at hsocket
      rw [rel_none hsocket] at hlink
      cases hlink
    | some wire =>
      rw [hwire] at hsocket
      obtain ⟨link', hlink', hrep⟩ := rel_some hsocket
      rw [hlink] at hlink'
      cases hlink'
      rw [← hrep.session]
      exact hconnecting wire hwire
  | disconnect socket =>
    exact ⟨_, .disconnect socket, rel_update h .none socket⟩
  | @command socket frame emissions hlink =>
    have hsocket := h socket
    rw [hlink] at hsocket
    exact ⟨links, .command frame emissions (rel_none hsocket), h⟩
  | @request socket wire frame rest emissions hlink hnext =>
    have hsocket := h socket
    rw [hlink] at hsocket
    obtain ⟨link, hlink, hrep⟩ := rel_some hsocket
    obtain ⟨others, hothers, hrest⟩ := nextMessage_next hrep.toCore hnext
    have hrep' : WireLink.Represents { wire with receiveBuffer := rest }
        { link with toCore := others } :=
      ⟨hrep.session, hrep.requests, hrep.received, hrest, hrep.toGateway⟩
    exact ⟨_, .request emissions hlink hothers, rel_update h (.some hrep') socket⟩
  | send socket sent =>
    refine ⟨_, .send socket sent, represents_writeSents sent h ?_⟩
    cases hstep with
    | send hnext => exact emit_message _ _
  | setGlobalKillSwitch enabled => exact ⟨links, .setGlobalKillSwitch enabled, h⟩

end Links

namespace WireBridge

variable {config : FixGatewayConfig} {labels : List Label} {w w' : WireBridge} {s : Bridge}
  {label : Label}

/-- A link is replaced on both sides. -/
theorem Represents.setLink (h : w.Represents s) {wire : WireLink} {link : Link}
    (hrep : wire.Represents link) (socket : Socket) :
    (w.setLink socket wire).Represents (s.setLink socket link) :=
  ⟨h.core, h.nextNumericOrderId, h.executions, rel_update h.links (.some hrep) socket⟩

/-- A link is replaced by one with the same messages. -/
theorem Represents.setWire (h : w.Represents s) {wire : WireLink} {link : Link} {socket : Socket}
    (hrep : wire.Represents link) (hlink : s.links socket = some link) :
    (w.setLink socket wire).Represents s := by
  have hset := h.setLink hrep socket
  rwa [Bridge.setLink, Function.update_eq_self_iff.mpr hlink.symm] at hset

theorem Represents.link (h : w.Represents s) {socket : Socket} {wire : WireLink}
    (hwire : w.links socket = some wire) :
    ∃ link, s.links socket = some link ∧ wire.Represents link := by
  have hsocket := h.links socket
  rw [hwire] at hsocket
  exact rel_some hsocket

/-- A step on bytes is one on messages, or moves bytes only. -/
theorem Step.simulates (hstep : Step config w label w') (h : w.Represents s) :
    label.discards = false ∧
      ∃ s', Run (Bridge.Step config) s label.toBridge.toList s' ∧ w'.Represents s' := by
  have hone : ∀ {l : Bridge.Label} {s' : Bridge}, Bridge.Step config s l s' →
      Run (Bridge.Step config) s [l] s' := fun hstep => (Run.nil s).snoc hstep
  cases hstep with
  | @core label core' links' hstep hfollows =>
    obtain ⟨links, hfollows, hlinks⟩ := hfollows.simulates h.links hstep
    rw [h.core] at hstep
    refine ⟨rfl, _, hone (.core hstep hfollows), rfl, h.nextNumericOrderId, ?_, hlinks⟩
    rw [h.executions]
  | @accept socket hfree hlink =>
    have hsocket := h.links socket
    rw [hlink] at hsocket
    rw [h.core] at hfree
    exact ⟨rfl, _, hone (.accept hfree (rel_none hsocket)),
      h.setLink ⟨rfl, rfl, rfl, rfl, [], rfl, rfl⟩ socket⟩
  | @client socket wire surroundings message hlink hopen hcounter =>
    obtain ⟨link, hlink, hrep⟩ := h.link hlink
    rw [hrep.session] at hopen
    rw [h.nextNumericOrderId] at hcounter
    refine ⟨rfl, _, hone (.client surroundings message hlink hopen hcounter), ?_⟩
    rw [h.nextNumericOrderId, hrep.session]
    have hforward : ∀ effects : Effects, (wire.forward effects).Represents (link.forward effects) := by
      intro effects
      refine ⟨rfl, congrArg (· ++ _) hrep.requests, hrep.received, ?_, hrep.toGateway⟩
      rw [WireLink.forward, Link.forward, List.flatMap_append, List.flatMap_map, ← List.append_assoc,
        hrep.toCore]
    have hset := h.setLink (hforward (processFixMessage config surroundings s.nextNumericOrderId message
      link.session)) socket
    exact ⟨hset.core, rfl, hset.executions, hset.links⟩
  | @deliver socket wire message rest iteration hlink hnext =>
    obtain ⟨link, hlink, hrep⟩ := h.link hlink
    obtain ⟨messages, hmessages, hbytes⟩ := hrep.toGateway
    obtain ⟨first, others, rfl, hmessage, hrest⟩ := extractCoreMessage_next hbytes hnext
    subst hmessage
    refine ⟨rfl, _, hone (.deliver iteration hlink hmessages), h.setLink ?_ socket⟩
    rw [WireLink.process, hrep.session]
    exact ⟨rfl, hrep.requests, congrArg (· ++ _) hrep.received, hrep.toCore, others, rfl, hrest⟩
  | @coreReceives socket wire chunk rest hlink hchunk =>
    obtain ⟨link, hlink, hrep⟩ := h.link hlink
    refine ⟨rfl, s, .nil s, h.setWire ⟨hrep.session, hrep.requests, hrep.received, ?_,
      hrep.toGateway⟩ hlink⟩
    rw [List.append_assoc, ← hchunk]
    exact hrep.toCore
  | @coreDiscards socket wire hlink hdiscarded =>
    obtain ⟨link, -, hrep⟩ := h.link hlink
    exact absurd hdiscarded (nextMessage_kept hrep.toCore)
  | @gatewayReceives socket wire chunk rest hlink hchunk =>
    obtain ⟨link, hlink, hrep⟩ := h.link hlink
    obtain ⟨messages, hmessages, hbytes⟩ := hrep.toGateway
    refine ⟨rfl, s, .nil s, h.setWire ⟨hrep.session, hrep.requests, hrep.received, hrep.toCore,
      messages, hmessages, ?_⟩ hlink⟩
    rw [List.append_assoc, ← hchunk]
    exact hbytes
  | @gatewayDiscards socket wire hlink hlong hnone =>
    obtain ⟨link, -, hrep⟩ := h.link hlink
    obtain ⟨messages, -, hbytes⟩ := hrep.toGateway
    exact absurd hnone (extractCoreMessage_kept hbytes hlong)

end WireBridge

/-- A run on bytes is a run on messages, with the same sessions, and no buffer is emptied in it. -/
theorem wire_refines {config : FixGatewayConfig} {server : ExchangeServer}
    {labels : List WireBridge.Label} {w : WireBridge}
    (hrun : Run (WireBridge.Step config) (WireBridge.starting server) labels w) :
    (∀ label ∈ labels, label.discards = false) ∧
      ∃ s, Run (Bridge.Step config) (Bridge.starting server)
        (labels.filterMap WireBridge.Label.toBridge) s ∧ w.Represents s := by
  induction hrun with
  | nil => exact ⟨List.forall_mem_nil _, _, .nil _, rfl, rfl, rfl, fun _ => .none⟩
  | @snoc w₁ w₂ labels label _ hstep ih =>
    obtain ⟨hdiscards, s₁, hrun₁, hrep₁⟩ := ih
    obtain ⟨hlabel, s₂, hrun₂, hrep₂⟩ := hstep.simulates hrep₁
    refine ⟨List.forall_mem_append.mpr ⟨hdiscards, List.forall_mem_singleton.mpr hlabel⟩, s₂, ?_,
      hrep₂⟩
    rw [List.filterMap_append]
    have hrun := hrun₁.append hrun₂
    cases htoBridge : label.toBridge with
    | none => simpa [htoBridge] using hrun
    | some l => simpa [htoBridge] using hrun

/-- A session logs on and sends an order, which the core receives in two pieces. -/
theorem wire_refines_order : ∃ labels w wire s link,
    Run (WireBridge.Step {}) (WireBridge.starting { riskEngine := { limits := {} } }) labels w ∧
    w.links 4 = some wire ∧ wire.toCore = [] ∧
    Run (Bridge.Step {}) (Bridge.starting { riskEngine := { limits := {} } })
      (labels.filterMap WireBridge.Label.toBridge) s ∧ s.links 4 = some link ∧
    link.requests.length = 1 ∧ wire.receiveBuffer = link.toCore.flatMap Frame.record := by
  have r₁ : Run (WireBridge.Step {}) (.starting { riskEngine := { limits := {} } }) _ _ :=
    (Run.nil _).snoc (l := .message (.accept 4)) (.accept (by decide) rfl)
  have r₂ := r₁.snoc (l := .message (.client 4 .reachable .logon)) (.client _ _ rfl rfl (by decide))
  have r₃ := r₂.snoc
    (@WireBridge.Step.client {} _ 4 _ .reachable (.newOrderSingle "2" "a" "1" "2" "10" "1") rfl
      (by decide +kernel) (by decide +kernel))
  have r₄ := r₃.snoc (@WireBridge.Step.coreReceives {} _ 4 _ _ _ rfl (List.take_append_drop 10 _).symm)
  have r₅ := r₄.snoc (@WireBridge.Step.coreReceives {} _ 4 _ _ [] rfl (List.append_nil _).symm)
  obtain ⟨-, s, hrun, hrep⟩ := wire_refines r₅
  obtain ⟨link, hlink, hwire⟩ := @WireBridge.Represents.link _ _ hrep 4 _ rfl
  refine ⟨_, _, _, s, link, r₅, rfl, rfl, hrun, hlink, ?_, ?_⟩
  · rw [← hwire.requests]
    decide +kernel
  · rw [← hwire.toCore]
    exact (List.append_nil _).symm

end ExchangeLab

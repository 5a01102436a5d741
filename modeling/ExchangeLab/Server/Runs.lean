import ExchangeLab.ExchangeServer
import ExchangeLab.Lib.Transition

/-!
# ExchangeLab.Server.Runs

Runs of the server with one frame handled at a time: sessions connect and disconnect, send frames of
any content, and an administrator moves the kill switch.

A frame comes from a session that is connected, and a new connection has a descriptor that no
connected session has; nothing else is assumed of the order of actions. The label of a step is the
action with the messages it sent.
-/

namespace ExchangeLab

open Protocol Container ExchangeServer Transition

inductive Action where
  | connect (socket : Socket)
  | disconnect (socket : Socket)
  | frame (socket : Socket) (frame : Frame)
  | setGlobalKillSwitch (enabled : Bool)

structure Event where
  action : Action
  sent : List Sent

namespace ExchangeServer

inductive Step : ExchangeServer → Event → ExchangeServer → Prop
  | connect {server : ExchangeServer} {socket : Socket} (hvalid : 0 ≤ socket)
      (hfree : socket ∉ server.clientSockets) :
      Step server ⟨.connect socket, []⟩ (registerClient socket server)
  | disconnect {server : ExchangeServer} {socket : Socket} (hopen : socket ∈ server.clientSockets) :
      Step server ⟨.disconnect socket, []⟩ (unregisterClient socket server)
  | frame {server server₁ : ExchangeServer} {socket : Socket} {frame : Frame}
      {emissions : List Emission} (order : SetOrder) (hopen : socket ∈ server.clientSockets)
      (hrun : handleMessage order socket frame server = .ok (server₁, emissions)) :
      Step server ⟨.frame socket frame, (emitAll emissions server₁).2⟩ (emitAll emissions server₁).1
  | setGlobalKillSwitch {server : ExchangeServer} (enabled : Bool) :
      Step server ⟨.setGlobalKillSwitch enabled, []⟩ (setGlobalKillSwitch enabled server)

/-! ## Sending changes nothing but the counter -/

/-- The state with another sequence number to draw next. -/
def withSequence (n : Nat) (server : ExchangeServer) : ExchangeServer :=
  { server with nextSequenceNumber := n }

section WithSequence

variable (n : Nat) (server : ExchangeServer)

@[simp] theorem withSequence_instruments :
    (server.withSequence n).instruments = server.instruments := rfl
@[simp] theorem withSequence_riskEngine :
    (server.withSequence n).riskEngine = server.riskEngine := rfl
@[simp] theorem withSequence_journal : (server.withSequence n).journal = server.journal := rfl
@[simp] theorem withSequence_clientSockets :
    (server.withSequence n).clientSockets = server.clientSockets := rfl
@[simp] theorem withSequence_clientRiskIds :
    (server.withSequence n).clientRiskIds = server.clientRiskIds := rfl
@[simp] theorem withSequence_nextRiskClientId :
    (server.withSequence n).nextRiskClientId = server.nextRiskClientId := rfl

end WithSequence

theorem emit_state (emission : Emission) (server : ExchangeServer) :
    ∃ n, server.nextSequenceNumber ≤ n ∧ (emit emission server).1 = server.withSequence n := by
  unfold emit
  split
  · exact ⟨_, Nat.le_refl _, rfl⟩
  · exact ⟨_, Nat.le_succ _, rfl⟩

theorem emitAll_cons (emission : Emission) (emissions : List Emission) (server : ExchangeServer) :
    emitAll (emission :: emissions) server =
      ((emitAll emissions (emit emission server).1).1,
        (emit emission server).2 ++ (emitAll emissions (emit emission server).1).2) := rfl

theorem emitAll_state (emissions : List Emission) (server : ExchangeServer) :
    ∃ n, server.nextSequenceNumber ≤ n ∧ (emitAll emissions server).1 = server.withSequence n := by
  induction emissions generalizing server with
  | nil => exact ⟨_, Nat.le_refl _, rfl⟩
  | cons emission emissions ih =>
    obtain ⟨n, hn, heq⟩ := emit_state emission server
    obtain ⟨m, hm, heq'⟩ := ih (server.withSequence n)
    refine ⟨m, Nat.le_trans hn hm, ?_⟩
    rw [emitAll_cons, heq, heq']
    rfl

/-- What is sent is what was to be sent, less the executions without an address. -/
theorem emitAll_emissions (emissions : List Emission) (server : ExchangeServer) :
    (emitAll emissions server).2.map Sent.emission = emissions.filter fun e => !e.unaddressed := by
  induction emissions generalizing server with
  | nil => rfl
  | cons emission emissions ih =>
    rw [emitAll_cons, List.map_append, ih, List.filter_cons]
    unfold emit
    split
    · rename_i h
      simp [h]
    · rename_i h
      simp [h]

/-- Every message goes to the recipients of its emission. -/
theorem emitAll_recipients (emissions : List Emission) (server : ExchangeServer) :
    ∀ sent ∈ (emitAll emissions server).2, sent.recipients = server.recipients sent.emission := by
  induction emissions generalizing server with
  | nil => exact fun sent hsent => absurd hsent List.not_mem_nil
  | cons emission emissions ih =>
    intro sent hsent
    rw [emitAll_cons] at hsent
    rcases List.mem_append.mp hsent with hsent | hsent
    · unfold emit at hsent
      split at hsent
      · cases hsent
      · rw [List.mem_singleton.mp hsent]
    · obtain ⟨n, -, heq⟩ := emit_state emission server
      rw [ih _ sent hsent, heq]
      cases sent.emission <;> rfl

theorem mem_emitAll {emissions : List Emission} {server : ExchangeServer} {sent : Sent}
    (h : sent ∈ (emitAll emissions server).2) :
    sent.emission ∈ emissions ∧ sent.emission.unaddressed = false := by
  have hmem := List.mem_map_of_mem (f := Sent.emission) h
  rw [emitAll_emissions, List.mem_filter] at hmem
  exact ⟨hmem.1, by simpa using hmem.2⟩

/-! ## Sample frames -/

theorem newOrderBody_length (request : NewOrderRequest) : (encodeNewOrder request).length = 43 := by
  simp [encodeNewOrder, writeSymbol, WireInteger.size, request.symbol.size, symbolSize]

theorem newOrderBody_bounded (request : NewOrderRequest) :
    (encodeNewOrder request).length ≤ maximumBodySize := by
  rw [newOrderBody_length]
  decide

theorem newOrderHeader_current :
    (⟨protocolMagic, protocolVersion, .newOrder, 43, 1⟩ : MessageHeader).magic = protocolMagic ∧
      (⟨protocolMagic, protocolVersion, .newOrder, 43, 1⟩ : MessageHeader).version =
        protocolVersion :=
  ⟨rfl, rfl⟩

/-- A new order as a frame. -/
def newOrderFrame (request : NewOrderRequest) : Frame where
  header := ⟨protocolMagic, protocolVersion, .newOrder, 43, 1⟩
  body := encodeNewOrder request
  magic := newOrderHeader_current.1
  version := newOrderHeader_current.2
  size := newOrderBody_length request
  bounded := newOrderBody_bounded request

end ExchangeServer

end ExchangeLab

import ExchangeLab.Server.Ownership

/-!
# ExchangeLab.Server.Concurrent

The server with every send as a step of its own. The thread of a session runs the locked part of a
handler in one step and then sends what is left to send, one message at a time, while the threads of
the other sessions do the same. With a journal, `journal_processing_mutex_` is held over both parts,
so a thread starts on a frame only when no other has anything left to send.

* `Concurrent.Step`: one step of one thread, or of the accepting thread.
* `Concurrent.sequential`: but for the counter of sequence numbers, the state of the server is one
  that handling frames one after the other leads to.
* `Concurrent.ownership`: so what holds of those holds here.
-/

namespace ExchangeLab

open Wire Protocol OrderBook MatchingEngine Container ExchangeServer Transition

structure Concurrent where
  server : ExchangeServer
  /-- What the thread of each session has still to send. -/
  sending : Socket → List Emission := fun _ => []

namespace Concurrent

inductive Label where
  | connect (socket : Socket)
  | disconnect (socket : Socket)
  | handle (socket : Socket) (frame : Frame) (emissions : List Emission)
  | send (socket : Socket) (sent : List Sent)
  | setGlobalKillSwitch (enabled : Bool)

/-- The thread of a session is free to start on a frame. -/
def Ready (c : Concurrent) (socket : Socket) : Prop :=
  c.sending socket = [] ∧ (c.server.journal.isSome = true → ∀ other, c.sending other = [])

inductive Step : Concurrent → Label → Concurrent → Prop
  | connect {c : Concurrent} {socket : Socket} (hvalid : 0 ≤ socket)
      (hfree : socket ∉ c.server.clientSockets) :
      Step c (.connect socket) ⟨registerClient socket c.server, c.sending⟩
  | disconnect {c : Concurrent} {socket : Socket} (hopen : socket ∈ c.server.clientSockets)
      (hidle : c.sending socket = []) :
      Step c (.disconnect socket) ⟨unregisterClient socket c.server, c.sending⟩
  | handle {c : Concurrent} {socket : Socket} {frame : Frame} {server₁ : ExchangeServer}
      {emissions : List Emission} (order : SetOrder) (hopen : socket ∈ c.server.clientSockets)
      (hready : c.Ready socket)
      (hrun : handleMessage order socket frame c.server = .ok (server₁, emissions)) :
      Step c (.handle socket frame emissions)
        ⟨server₁, Function.update c.sending socket emissions⟩
  | send {c : Concurrent} {socket : Socket} {emission : Emission} {rest : List Emission}
      (hnext : c.sending socket = emission :: rest) :
      Step c (.send socket (emit emission c.server).2)
        ⟨(emit emission c.server).1, Function.update c.sending socket rest⟩
  | setGlobalKillSwitch {c : Concurrent} (enabled : Bool) :
      Step c (.setGlobalKillSwitch enabled) ⟨setGlobalKillSwitch enabled c.server, c.sending⟩

/-! ## The handlers do not look at the counter -/

end Concurrent

namespace ExchangeServer

section Counter

variable {order : SetOrder} {socket : Socket} {frame : Frame} (n : Nat)
  (server : ExchangeServer)

theorem bind_map {α β γ : Type} (x : Except Fault α) (f : α → Except Fault β) (g : β → γ) :
    (x >>= f).map g = x >>= fun a => (f a).map g := by
  cases x <;> rfl

theorem ok_bind {α β : Type} (a : α) (f : α → Except Fault β) : (Except.ok a >>= f) = f a := rfl

theorem acceptNewOrder_withSequence (request : NewOrderRequest) :
    acceptNewOrder order socket frame request (server.withSequence n) =
      (acceptNewOrder order socket frame request server).map (Prod.map (withSequence n) id) := by
  simp only [acceptNewOrder, appendJournalRecord_eq, bind_map]
  rfl

theorem handleNewOrder_withSequence :
    handleNewOrder order socket frame (server.withSequence n) =
      (handleNewOrder order socket frame server).map (Prod.map (withSequence n) id) := by
  simp only [handleNewOrder]
  split
  · rfl
  split
  · rfl
  split
  · rfl
  split
  · rfl
  rename_i request _ _ _
  have hinstrument : (server.withSequence n).instrumentFor (symbolToString request.symbol) =
      server.instrumentFor (symbolToString request.symbol) := rfl
  rw [hinstrument]
  split
  · rfl
  rw [bind_map]
  refine bind_congr fun referencePrice => ?_
  rw [apply_ite (Except.map _)]
  exact ite_congr rfl (fun _ => rfl) fun _ => acceptNewOrder_withSequence n (storeInstrument _ _ server) request

theorem handleCancelOrder_withSequence :
    handleCancelOrder socket frame (server.withSequence n) =
      (handleCancelOrder socket frame server).map (Prod.map (withSequence n) id) := by
  simp only [handleCancelOrder]
  split
  · rfl
  split
  · rfl
  rename_i request _
  have hfind : (server.withSequence n).findInstrument (symbolToString request.symbol) =
      server.findInstrument (symbolToString request.symbol) := rfl
  rw [hfind]
  split
  · rfl
  rename_i instrument _
  rw [apply_ite (Except.map _)]
  refine ite_congr rfl (fun _ => rfl) fun _ => ?_
  simp only [appendJournalRecord_eq, ok_bind, bind_map]
  refine bind_congr fun _ => ?_
  rw [apply_ite (Except.map _), bind_map]
  rfl

theorem acceptReplaceOrder_withSequence (request : ReplaceOrderRequest)
    (instrument : InstrumentState) (existing : Order) :
    acceptReplaceOrder order socket frame request instrument existing (server.withSequence n) =
      (acceptReplaceOrder order socket frame request instrument existing server).map
        (Prod.map (withSequence n) id) := by
  simp only [acceptReplaceOrder, appendJournalRecord_eq, ok_bind, bind_map]
  refine bind_congr fun _ => ?_
  rw [apply_ite (Except.map _), bind_map]
  rfl

theorem handleReplaceOrder_withSequence :
    handleReplaceOrder order socket frame (server.withSequence n) =
      (handleReplaceOrder order socket frame server).map (Prod.map (withSequence n) id) := by
  simp only [handleReplaceOrder]
  split
  · rfl
  split
  · rfl
  rename_i request _
  split
  · rfl
  have hfind : (server.withSequence n).findInstrument (symbolToString request.symbol) =
      server.findInstrument (symbolToString request.symbol) := rfl
  rw [hfind]
  split
  · rfl
  rename_i instrument _
  split
  · rfl
  rename_i existing _
  simp only [apply_ite (Except.map _)]
  exact ite_congr rfl (fun _ => rfl) fun _ => ite_congr rfl (fun _ => rfl) fun _ =>
    acceptReplaceOrder_withSequence n _ request instrument existing

theorem handleMessage_withSequence :
    handleMessage order socket frame (server.withSequence n) =
      (handleMessage order socket frame server).map (Prod.map (withSequence n) id) := by
  simp only [handleMessage, apply_ite (Except.map _)]
  exact ite_congr rfl (fun _ => handleNewOrder_withSequence n server) fun _ =>
    ite_congr rfl (fun _ => handleCancelOrder_withSequence n server) fun _ =>
      ite_congr rfl (fun _ => handleReplaceOrder_withSequence n server) fun _ => rfl

end Counter

end ExchangeServer

namespace Concurrent

variable {limits : RiskLimits} {file : Option (Option Bytes)} {server₀ : ExchangeServer}
  {labels : List Label} {c : Concurrent}

/-- But for the counter, the server is in a state of a run that sends everything at once. -/
theorem sequential (h : Run Step ⟨server₀, fun _ => []⟩ labels c) :
    ∃ log n, Run ExchangeServer.Step server₀ log (c.server.withSequence n) := by
  refine h.invariant (P := fun c => ∃ log n, Run ExchangeServer.Step server₀ log (c.server.withSequence n))
    ⟨[], _, .nil _⟩ ?_
  rintro c label c' ⟨log, n, hrun⟩ hstep
  cases hstep with
  | connect hvalid hfree => exact ⟨_, n, hrun.snoc (.connect hvalid hfree)⟩
  | disconnect hopen => exact ⟨_, n, hrun.snoc (.disconnect hopen)⟩
  | setGlobalKillSwitch enabled => exact ⟨_, n, hrun.snoc (.setGlobalKillSwitch enabled)⟩
  | @send socket emission rest hnext =>
    obtain ⟨m, -, heq⟩ := emit_state emission c.server
    exact ⟨log, n, by rw [heq]; exact hrun⟩
  | @handle socket frame server₁ emissions order hopen hready hhandled =>
    have hhandled' : handleMessage order socket frame (c.server.withSequence n) =
        .ok (server₁.withSequence n, emissions) := by
      rw [handleMessage_withSequence, hhandled]
      rfl
    obtain ⟨m, -, heq⟩ := emitAll_state emissions (server₁.withSequence n)
    have hopen' : socket ∈ (c.server.withSequence n).clientSockets := hopen
    have hstep := ExchangeServer.Step.frame order hopen' hhandled'
    rw [heq] at hstep
    exact ⟨_, m, hrun.snoc hstep⟩

/-- The books, the sessions and the owners are those of a server that sends everything at once. -/
theorem ownership (hstart : start limits file = some server₀)
    (h : Run Step ⟨server₀, fun _ => []⟩ labels c) : ∃ log, Ownership log c.server := by
  obtain ⟨log, n, hrun⟩ := sequential h
  have hown := ownership_run hstart hrun
  exact ⟨log, hown.books, ⟨hown.sessions.nodup, hown.sessions.identified, hown.sessions.issued,
    hown.sessions.next⟩, hown.owned⟩

end Concurrent

end ExchangeLab

import ExchangeLab.Server.Ownership
import ExchangeLab.Protocol.Codecs

/-!
# ExchangeLab.Server.Responses

What a session is told about its command, what the journal keeps of it, and what it changes.

* `commandOf`, `recordCommand`: the command of a frame and the command of a journal record.
* `Handled.response`: a handler that returns sends one order response, and either has journaled the
  command or has changed nothing.
* `handleMessage_respondsTo`: the response to a command that decodes names its order.
* `response_journal_state`: the same of every frame in every state of a journaled server.
-/

namespace ExchangeLab

open Wire Protocol OrderBook MatchingEngine Container ExchangeServer Transition

/-! ## Commands -/

inductive Command where
  | newOrder (request : NewOrderRequest)
  | cancelOrder (request : CancelOrderRequest)
  | replaceOrder (request : ReplaceOrderRequest)

/-- The command a message decodes to. -/
def commandOf (type : MessageType) (body : Bytes) : Option Command :=
  if type = .newOrder then (decodeNewOrder body).map .newOrder
  else if type = .cancelOrder then (decodeCancelOrder body).map .cancelOrder
  else if type = .replaceOrder then (decodeReplaceOrder body).map .replaceOrder
  else none

theorem commandOf_newOrder {request : NewOrderRequest} (h : request.Valid) :
    commandOf .newOrder (encodeNewOrder request) = some (.newOrder request) := by
  rw [commandOf, if_pos rfl, newOrder_exact.accepts _ h]
  rfl

/-- The command a journal record decodes to. -/
def recordCommand (record : Bytes) : Option Command := do
  let header ← decodeHeader (record.take headerSize)
  commandOf header.type (record.drop headerSize)

theorem recordCommand_record (frame : Frame) :
    recordCommand frame.record = commandOf frame.header.type frame.body := by
  have hlen : (encodeHeader frame.header).length = headerSize := length_encodeHeader _
  rw [recordCommand, Frame.record, List.take_left' hlen, List.drop_left' hlen,
    decodeHeader_encodeHeader frame.magic frame.version]
  rfl

/-! ## One frame -/

def Emission.isResponse : Emission → Bool
  | .orderResponse .. => true
  | _ => false

namespace ExchangeServer

/-- Two states that differ at most in the sequence number to draw next and in an instrument that
one of them has made without an order in it. -/
structure Unchanged (server server' : ExchangeServer) : Prop where
  riskEngine : server'.riskEngine = server.riskEngine
  journal : server'.journal = server.journal
  clientSockets : server'.clientSockets = server.clientSockets
  clientRiskIds : server'.clientRiskIds = server.clientRiskIds
  instruments : ∀ x, server'.findInstrument x = server.findInstrument x ∨
    server.findInstrument x = none ∧ server'.findInstrument x = some {}

section Response

variable {order : SetOrder} {socket : Socket} {frame : Frame} {server server' : ExchangeServer}
  {emissions : List Emission}

theorem executionDeliveries_isResponse (deliveries : List ExecutionDelivery) :
    (executionDeliveries deliveries).filter Emission.isResponse = [] := by
  rw [List.filter_eq_nil_iff]
  intro e he
  obtain ⟨delivery, -, he⟩ := List.mem_flatMap.mp he
  rcases List.mem_cons.mp he with rfl | he
  · simp [Emission.isResponse]
  · rw [List.mem_singleton.mp he]
    simp [Emission.isResponse]

theorem filter_isResponse_map {α : Type} {f : α → Emission} (hf : ∀ x, (f x).isResponse = false)
    (xs : List α) : (xs.map f).filter Emission.isResponse = [] := by
  rw [List.filter_eq_nil_iff]
  intro e he
  obtain ⟨x, -, rfl⟩ := List.mem_map.mp he
  simp [hf]

/-- The Level-3 events of a settlement hold no response. -/
theorem settled_isResponse (settled : Settled) :
    (settled.executions.map Emission.level3OrderExecuted).filter Emission.isResponse = [] ∧
      (settled.deletions.map Emission.level3OrderDeleted).filter Emission.isResponse = [] ∧
      (settled.added.toList.map Emission.level3AddOrder).filter Emission.isResponse = [] :=
  ⟨filter_isResponse_map (fun _ => rfl) _, filter_isResponse_map (fun _ => rfl) _,
    filter_isResponse_map (fun _ => rfl) _⟩

theorem newOrderEmissions_response (socket : Socket) (orderId : OrderId) (settled : Settled)
    (snapshot : BookSnapshot) :
    (newOrderEmissions socket orderId settled snapshot).filter Emission.isResponse =
      [.orderResponse socket orderId true .orderAccepted] := by
  obtain ⟨hexecutions, hdeletions, hadded⟩ := settled_isResponse settled
  simp only [newOrderEmissions, List.filter_append, executionDeliveries_isResponse, hexecutions,
    hdeletions, hadded]
  rfl

theorem replaceOrderEmissions_response (socket : Socket) (orderId : OrderId) (symbol : Symbol)
    (settled : Settled) (snapshot : BookSnapshot) :
    (replaceOrderEmissions socket orderId symbol settled snapshot).filter Emission.isResponse =
      [.orderResponse socket orderId true .orderReplaced] := by
  obtain ⟨hexecutions, hdeletions, hadded⟩ := settled_isResponse settled
  simp only [replaceOrderEmissions, List.filter_append, executionDeliveries_isResponse, hexecutions,
    hdeletions, hadded]
  rfl

theorem Unchanged.refl (server : ExchangeServer) : Unchanged server server :=
  ⟨rfl, rfl, rfl, rfl, fun _ => .inl rfl⟩

theorem commandOf_ignored {type : MessageType}
    (h : type ≠ .newOrder ∧ type ≠ .cancelOrder ∧ type ≠ .replaceOrder) (body : Bytes) :
    commandOf type body = none := by
  rw [commandOf, if_neg h.1, if_neg h.2.1, if_neg h.2.2]

section Command

variable {book : OrderBook} {snapshot : BookSnapshot} {trades : List Trade}
  {instrument : InstrumentState}

theorem Placed.command {request : NewOrderRequest}
    (h : Placed socket frame server request trades book snapshot) :
    commandOf frame.header.type frame.body = some (.newOrder request) := by
  rw [commandOf, if_pos h.type, h.decoded]
  rfl

theorem Cancelled.command {request : CancelOrderRequest}
    (h : Cancelled socket frame server request instrument book snapshot) :
    commandOf frame.header.type frame.body = some (.cancelOrder request) := by
  have hnew : frame.header.type ≠ .newOrder := by rw [h.type]; decide
  rw [commandOf, if_neg hnew, if_pos h.type, h.decoded]
  rfl

theorem Replaced.command {request : ReplaceOrderRequest}
    (h : Replaced socket frame server request instrument trades book snapshot) :
    commandOf frame.header.type frame.body = some (.replaceOrder request) := by
  have hnew : frame.header.type ≠ .newOrder := by rw [h.type]; decide
  have hcancel : frame.header.type ≠ .cancelOrder := by rw [h.type]; decide
  rw [commandOf, if_neg hnew, if_neg hcancel, if_pos h.type, h.decoded]
  rfl

end Command

/-- The record of an accepted command is that command. -/
theorem journaled_record (h : commandOf frame.header.type frame.body ≠ none) :
    ∃ record command, recordCommand record = some command ∧
      commandOf frame.header.type frame.body = some command ∧
      ∀ journal, journaled frame (some journal) =
        some (journal ++ Wire.frame recordLengthSize record) := by
  obtain ⟨command, hcommand⟩ := Option.ne_none_iff_exists'.mp h
  exact ⟨frame.record, command, (recordCommand_record frame).trans hcommand, hcommand,
    fun _ => rfl⟩

/-- One order response; a success comes with a record of the command, a rejection with nothing. -/
theorem Handled.response (h : Handled order socket frame server server' emissions)
    (htype : frame.header.type = .newOrder ∨ frame.header.type = .cancelOrder ∨
      frame.header.type = .replaceOrder) :
    ∃ orderId success type,
      emissions.filter Emission.isResponse = [.orderResponse socket orderId success type] ∧
      (success = true → server'.journal = journaled frame server.journal ∧
        commandOf frame.header.type frame.body ≠ none) ∧
      (success = false → Unchanged server server') := by
  cases h with
  | ignored hno => exact absurd htype (by simp [hno.1, hno.2.1, hno.2.2])
  | rejected orderId successType =>
    exact ⟨orderId, false, successType, rfl, fun h => absurd h (by decide), fun _ => .refl server⟩
  | @turnedAway orderId symbol =>
    refine ⟨orderId, false, .orderAccepted, rfl, fun h => absurd h (by decide),
      fun _ => ⟨rfl, rfl, rfl, rfl, fun x => ?_⟩⟩
    simp only [findInstrument, storeInstrument, lookup_insert_eq, instrumentFor]
    split
    · rename_i hx
      subst hx
      cases hfound : server.instruments.lookup x with
      | none => exact .inr ⟨rfl, rfl⟩
      | some instrument => exact .inl rfl
    · exact .inl rfl
  | @placed request trades book snapshot h =>
    refine ⟨request.orderId, true, .orderAccepted, newOrderEmissions_response .., fun _ => ⟨rfl, ?_⟩,
      fun h => absurd h (by decide)⟩
    rw [h.command]
    exact Option.some_ne_none _
  | @cancelled request instrument book snapshot h =>
    refine ⟨request.orderId, true, .orderCancelled, rfl, fun _ => ⟨rfl, ?_⟩,
      fun h => absurd h (by decide)⟩
    rw [h.command]
    exact Option.some_ne_none _
  | @replaced request instrument trades book snapshot h =>
    refine ⟨request.orderId, true, .orderReplaced, replaceOrderEmissions_response ..,
      fun _ => ⟨rfl, ?_⟩, fun h => absurd h (by decide)⟩
    rw [h.command]
    exact Option.some_ne_none _

/-- Every response of a handler goes to the session it works for. -/
theorem Handled.addressed (h : Handled order socket frame server server' emissions)
    {emission : Emission} (hmem : emission ∈ emissions) (hresponse : emission.isResponse = true) :
    ∃ id success type, emission = .orderResponse socket id success type := by
  have hfilter : emission ∈ emissions.filter Emission.isResponse :=
    List.mem_filter.mpr ⟨hmem, hresponse⟩
  cases h with
  | ignored => cases hmem
  | rejected | turnedAway => exact ⟨_, _, _, List.mem_singleton.mp hmem⟩
  | placed =>
    rw [newOrderEmissions_response] at hfilter
    exact ⟨_, _, _, List.mem_singleton.mp hfilter⟩
  | cancelled => exact ⟨_, _, _, List.mem_singleton.mp hfilter⟩
  | replaced =>
    rw [replaceOrderEmissions_response] at hfilter
    exact ⟨_, _, _, List.mem_singleton.mp hfilter⟩

end Response

end ExchangeServer

/-! ## The order a response names -/

def Command.orderId : Command → OrderId
  | .newOrder request => request.orderId
  | .cancelOrder request => request.orderId
  | .replaceOrder request => request.orderId

namespace ExchangeServer

section Named

variable {order : SetOrder} {socket : Socket} {frame : Frame} {server server' : ExchangeServer}
  {emissions : List Emission}

/-- One response among the emissions, for the given order. -/
def RespondsTo (socket : Socket) (orderId : OrderId) (emissions : List Emission) : Prop :=
  ∃ success type, emissions.filter Emission.isResponse = [.orderResponse socket orderId success type] ∧
    (type = .orderAccepted ∨ type = .orderCancelled ∨ type = .orderReplaced)

theorem respondsTo_single (orderId : OrderId) (success : Bool) {type : MessageType}
    (htype : type = .orderAccepted ∨ type = .orderCancelled ∨ type = .orderReplaced) :
    RespondsTo socket orderId [.orderResponse socket orderId success type] :=
  ⟨success, type, rfl, htype⟩

theorem handleNewOrder_respondsTo {request : NewOrderRequest}
    (hdecode : decodeNewOrder frame.body = some request)
    (h : handleNewOrder order socket frame server = .ok (server', emissions)) :
    RespondsTo socket request.orderId emissions := by
  have hsize : frame.header.bodySize.toNat = newOrderBodySize := by
    rw [← frame.size, ← newOrder_exact.canonical _ _ hdecode, length_encodeNewOrder]
  simp only [handleNewOrder, hdecode, hsize, ne_eq, not_true, if_false] at h
  split at h
  · cases h
    exact respondsTo_single _ _ (.inl rfl)
  split at h
  · cases h
    exact respondsTo_single _ _ (.inl rfl)
  split at h
  · cases h
    exact respondsTo_single _ _ (.inl rfl)
  obtain ⟨referencePrice, -, h⟩ := bind_eq_ok.mp h
  split at h
  · cases pure_eq_ok.mp h
    exact respondsTo_single _ _ (.inl rfl)
  · obtain ⟨trades, book, snapshot, -, -, -, rfl⟩ := acceptNewOrder_cases h
    exact ⟨true, .orderAccepted, newOrderEmissions_response .., .inl rfl⟩

theorem handleCancelOrder_respondsTo {request : CancelOrderRequest}
    (hdecode : decodeCancelOrder frame.body = some request)
    (h : handleCancelOrder socket frame server = .ok (server', emissions)) :
    RespondsTo socket request.orderId emissions := by
  have hsize : frame.header.bodySize.toNat = cancelOrderBodySize := by
    rw [← frame.size, ← cancelOrder_exact.canonical _ _ hdecode, length_encodeCancelOrder]
  simp only [handleCancelOrder, hdecode, hsize, ne_eq, not_true, if_false] at h
  split at h
  · cases h
    exact respondsTo_single _ _ (.inr (.inl rfl))
  split at h
  · cases h
    exact respondsTo_single _ _ (.inr (.inl rfl))
  simp only [bind_eq_ok] at h
  obtain ⟨server₁, -, result, -, h⟩ := h
  split at h
  · cases h
    exact respondsTo_single _ _ (.inr (.inl rfl))
  · obtain ⟨snapshot, -, h⟩ := bind_eq_ok.mp h
    cases h
    exact ⟨true, .orderCancelled, rfl, .inr (.inl rfl)⟩

theorem handleReplaceOrder_respondsTo {request : ReplaceOrderRequest}
    (hdecode : decodeReplaceOrder frame.body = some request)
    (h : handleReplaceOrder order socket frame server = .ok (server', emissions)) :
    RespondsTo socket request.orderId emissions := by
  have hsize : frame.header.bodySize.toNat = replaceOrderBodySize := by
    rw [← frame.size, ← replaceOrder_exact.canonical _ _ hdecode, length_encodeReplaceOrder]
  simp only [handleReplaceOrder, hdecode, hsize, ne_eq, not_true, if_false] at h
  split at h
  · cases h
    exact respondsTo_single _ _ (.inl rfl)
  split at h
  · cases h
    exact respondsTo_single _ _ (.inr (.inr rfl))
  split at h
  · cases h
    exact respondsTo_single _ _ (.inr (.inr rfl))
  split at h
  · cases h
    exact respondsTo_single _ _ (.inr (.inr rfl))
  split at h
  · cases h
    exact respondsTo_single _ _ (.inr (.inr rfl))
  simp only [acceptReplaceOrder, bind_eq_ok] at h
  obtain ⟨server₁, -, result, -, h⟩ := h
  split at h
  · cases h
    exact respondsTo_single _ _ (.inr (.inr rfl))
  · obtain ⟨snapshot, -, h⟩ := bind_eq_ok.mp h
    cases h
    exact ⟨true, .orderReplaced, replaceOrderEmissions_response .., .inr (.inr rfl)⟩

/-- A command that decodes is answered with its own order id. -/
theorem handleMessage_respondsTo {command : Command}
    (hcommand : commandOf frame.header.type frame.body = some command)
    (h : handleMessage order socket frame server = .ok (server', emissions)) :
    RespondsTo socket command.orderId emissions := by
  unfold commandOf at hcommand
  unfold handleMessage at h
  split at hcommand
  · rename_i htype
    obtain ⟨request, hdecode, rfl⟩ := Option.map_eq_some_iff.mp hcommand
    rw [if_pos htype] at h
    exact handleNewOrder_respondsTo hdecode h
  rename_i hnew
  rw [if_neg hnew] at h
  split at hcommand
  · rename_i htype
    obtain ⟨request, hdecode, rfl⟩ := Option.map_eq_some_iff.mp hcommand
    rw [if_pos htype] at h
    exact handleCancelOrder_respondsTo hdecode h
  rename_i hcancel
  rw [if_neg hcancel] at h
  split at hcommand
  · rename_i htype
    obtain ⟨request, hdecode, rfl⟩ := Option.map_eq_some_iff.mp hcommand
    rw [if_pos htype] at h
    exact handleReplaceOrder_respondsTo hdecode h
  · cases hcommand

end Named

end ExchangeServer

namespace ExchangeServer

/-! ## Every run -/

section Run

variable {limits : RiskLimits} {file : Option Bytes} {server₀ server server' server₁ : ExchangeServer}
  {log : List Event} {order : SetOrder} {socket : Socket} {frame : Frame}
  {emissions : List Emission}

theorem Handled.journal_isSome (h : Handled order socket frame server server' emissions) :
    server'.journal.isSome = server.journal.isSome := by
  cases h with
  | ignored | rejected | turnedAway => rfl
  | placed | cancelled | replaced => exact Option.isSome_map

theorem start_journaled (h : start limits (some file) = some server₀) :
    server₀.journal.isSome = true := by
  obtain ⟨books, -, heq⟩ := Option.bind_eq_some_iff.mp h
  cases heq
  rfl

theorem journaled_run (hstart : start limits (some file) = some server₀)
    (hrun : Run Step server₀ log server) : ∃ journal, server.journal = some journal := by
  refine Option.isSome_iff_exists.mp ?_
  have hinv : server.BooksConsistent ∧ server.journal.isSome = true := by
    refine hrun.invariant (P := fun server => server.BooksConsistent ∧ server.journal.isSome = true)
      ⟨start_booksConsistent hstart, start_journaled hstart⟩ ?_
    rintro server₁ event server₂ ⟨hbooks, hjournal⟩ hstep
    refine ⟨hstep.booksConsistent hbooks, ?_⟩
    cases hstep with
    | connect | disconnect | setGlobalKillSwitch => exact hjournal
    | @frame server₁ _ _ emissions order _ hhandled =>
      obtain ⟨n, -, heq⟩ := emitAll_state emissions server₁
      rw [heq, withSequence_journal, (handleMessage_cases hbooks hhandled).journal_isSome, hjournal]
  exact hinv.2

end Run

end ExchangeServer

/-- In every state of a journaled server, a command whose handler returns is answered with exactly
one order response to its sender: a success, and then one record of that command is behind the
journal, or a rejection, and then nothing has changed. -/
theorem response_journal_state {limits : RiskLimits} {file : Option Bytes}
    {server₀ server server₁ : ExchangeServer} {log : List Event} {order : SetOrder} {socket : Socket}
    {frame : Frame} {emissions : List Emission} (hstart : start limits (some file) = some server₀)
    (hrun : Run Step server₀ log server)
    (htype : frame.header.type = .newOrder ∨ frame.header.type = .cancelOrder ∨
      frame.header.type = .replaceOrder)
    (hhandled : handleMessage order socket frame server = .ok (server₁, emissions)) :
    ∃ response orderId success type journal,
      (emitAll emissions server₁).2.filter (fun sent => sent.emission.isResponse) = [response] ∧
      response.recipients = [socket] ∧
      response.emission = .orderResponse socket orderId success type ∧
      server.journal = some journal ∧
      (success = true → ∃ record command, recordCommand record = some command ∧
        commandOf frame.header.type frame.body = some command ∧
        (emitAll emissions server₁).1.journal =
          some (journal ++ Wire.frame recordLengthSize record)) ∧
      (success = false → Unchanged server (emitAll emissions server₁).1) := by
  have hbooks := booksConsistent_run hstart hrun
  obtain ⟨journal, hjournal⟩ := journaled_run hstart hrun
  obtain ⟨orderId, success, type, hfilter, hsuccess, hrejected⟩ :=
    (handleMessage_cases hbooks hhandled).response htype
  obtain ⟨n, -, hstate⟩ := emitAll_state emissions server₁
  have hsent : ((emitAll emissions server₁).2.filter fun sent => sent.emission.isResponse).map
      Sent.emission = [.orderResponse socket orderId success type] := by
    calc _ = ((emitAll emissions server₁).2.map Sent.emission).filter Emission.isResponse :=
          List.filter_map.symm
      _ = emissions.filter Emission.isResponse := by
          rw [emitAll_emissions, List.filter_filter]
          -- a response always has an address
          refine List.filter_congr fun e _ => ?_
          cases e <;> simp [Emission.isResponse, Emission.unaddressed]
      _ = _ := hfilter
  obtain ⟨response, hresponse, hemission⟩ := List.map_eq_singleton_iff.mp hsent
  have hmem : response ∈ (emitAll emissions server₁).2 := by
    have h : response ∈ (emitAll emissions server₁).2.filter fun sent => sent.emission.isResponse := by
      rw [hresponse]
      exact .head _
    exact (List.mem_filter.mp h).1
  refine ⟨response, orderId, success, type, journal, hresponse, ?_, hemission, hjournal, ?_, ?_⟩
  · rw [emitAll_recipients emissions server₁ response hmem, hemission]
    rfl
  · intro htrue
    obtain ⟨happended, hcommand⟩ := hsuccess htrue
    obtain ⟨record, command, hrecord, hdecoded, hjournaled⟩ := journaled_record hcommand
    refine ⟨record, command, hrecord, hdecoded, ?_⟩
    rw [hstate, withSequence_journal, happended, hjournal, hjournaled]
  · intro hfalse
    obtain ⟨hrisk, hsame, hsockets, hids, hinstruments⟩ := hrejected hfalse
    rw [hstate]
    exact ⟨hrisk, hsame, hsockets, hids, hinstruments⟩

/-- A buy order on a server with an empty journal: one response, and its record in the journal. -/
theorem response_journal_state_order :
    ∃ server log server₁ emissions response orderId success type,
      Run Step { riskEngine := { limits := {} }, journal := some [] } log server ∧
      handleMessage .dedup 4
        (newOrderFrame ⟨7, 1, 100, 5, .buy, .limit, .goodTillCancel, defaultSymbol⟩) server =
          .ok (server₁, emissions) ∧
      (emitAll emissions server₁).2.filter (fun sent => sent.emission.isResponse) = [response] ∧
      response.recipients = [4] ∧ response.emission = .orderResponse 4 orderId success type := by
  obtain ⟨⟨server₁, emissions⟩, hrun⟩ : ∃ result,
      handleMessage .dedup 4
        (newOrderFrame ⟨7, 1, 100, 5, .buy, .limit, .goodTillCancel, defaultSymbol⟩)
        (registerClient 4 { riskEngine := { limits := {} }, journal := some [] }) = .ok result :=
    ⟨_, by rfl⟩
  have run := Run.snoc (.nil { riskEngine := { limits := {} }, journal := some [] })
    (Step.connect (by decide : (0 : Socket) ≤ 4) (by decide))
  have hstart : start {} (some none) =
      some { riskEngine := { limits := {} }, journal := some [] } := by rfl
  obtain ⟨response, orderId, success, type, journal, hresponse, hrecipients, hemission, -⟩ :=
    response_journal_state hstart run (.inl rfl) hrun
  exact ⟨_, _, server₁, emissions, response, orderId, success, type, run, hrun, hresponse,
    hrecipients, hemission⟩

end ExchangeLab

import ExchangeLab.Gateway.Clients
import ExchangeLab.Gateway.Execution
import ExchangeLab.Server.Responses

/-!
# ExchangeLab.Gateway.Pending

The entries that wait for an answer, over every run of the gateway and the core.

A request, the frame it is sent as and the response to that frame pass through queues that keep their
order: the frames on their way to the core, what the core's thread has still to send, and what is on
its way back. So the n-th response a session receives is that to its n-th request.

* `CoreMessage.answer`: what a response tells the gateway.
* `Matched`: the requests of a link against the frames that were handled for it and the responses it
  has received; kept by each kind of step.
* `pending_matched`: a response takes out the entry of the request whose frame it answers, and no
  entry is left when no response is.
-/

namespace ExchangeLab

open Wire Protocol Container ExchangeServer ExchangeLab.Fix FixGateway FixBridge Transition

/-! ## Answers -/

/-- The order that a response is about and whether it is a success, as the gateway reads it. -/
def CoreMessage.answer (message : CoreMessage) : Option (OrderId × Bool) :=
  if isOrderResponse message.header.type then
    (decodeOrderResponse message.body).map fun response =>
      (response.orderId, response.success ≠ 0 ∧ message.header.type ≠ .orderRejected)
  else none

/-- The same in whatever copy. -/
def Emission.answer (emission : Emission) : Option (OrderId × Bool) := (emission.coreMessage 0).answer

theorem orderResponse_answer (sequenceNumber : UInt64) (socket : Socket) (orderId : OrderId)
    (success : Bool) {type : MessageType}
    (htype : type = .orderAccepted ∨ type = .orderCancelled ∨ type = .orderReplaced) :
    ((Emission.orderResponse socket orderId success type).coreMessage sequenceNumber).answer =
      some (orderId, success) := by
  have hdecode := orderResponse_exact.accepts ⟨orderId, sequenceNumber, if success then 1 else 0⟩
    (by cases success <;> simp [OrderResponse.Valid])
  simp only [CoreMessage.answer, Emission.coreMessage, Emission.type, Emission.body, hdecode]
  rcases htype with rfl | rfl | rfl <;> cases success <;> rfl

theorem answer_of_not_response (sequenceNumber : UInt64) {emission : Emission}
    (h : emission.isResponse = false) : (emission.coreMessage sequenceNumber).answer = none := by
  have htype : isOrderResponse emission.type = false := by
    cases emission with
    | orderResponse => cases h
    | tradeExecution | bookUpdate | level3AddOrder | level3OrderExecuted | level3OrderDeleted => rfl
  have hheader : (emission.coreMessage sequenceNumber).header.type = emission.type := rfl
  rw [CoreMessage.answer, hheader, htype]
  rfl

theorem coreMessage_answer (sequenceNumber : UInt64) (emission : Emission) :
    (emission.coreMessage sequenceNumber).answer = emission.answer := by
  cases hresponse : emission.isResponse with
  | false =>
    exact (answer_of_not_response sequenceNumber hresponse).trans
      (answer_of_not_response 0 hresponse).symm
  | true =>
    cases emission with
    | orderResponse socket orderId success type =>
      have hdecode : ∀ n, decodeOrderResponse
          (encodeOrderResponse ⟨orderId, n, if success then 1 else 0⟩) =
            some ⟨orderId, n, if success then 1 else 0⟩ := fun n =>
        orderResponse_exact.accepts _ (by cases success <;> simp [OrderResponse.Valid])
      simp only [Emission.answer, CoreMessage.answer, Emission.coreMessage, Emission.body, hdecode]
      rfl
    | tradeExecution | bookUpdate | level3AddOrder | level3OrderExecuted | level3OrderDeleted =>
      cases hresponse

theorem filterMap_answer (emissions : List Emission) :
    emissions.filterMap Emission.answer =
      (emissions.filter Emission.isResponse).filterMap Emission.answer := by
  induction emissions with
  | nil => rfl
  | cons emission emissions ih =>
    cases h : emission.isResponse with
    | true => rw [List.filter_cons_of_pos h, List.filterMap_cons, List.filterMap_cons, ih]
    | false =>
      have hanswer : emission.answer = none := answer_of_not_response 0 h
      rw [List.filter_cons_of_neg (by rw [h]; exact Bool.false_ne_true),
        List.filterMap_cons_none hanswer, ih]

/-- The one answer of a handler to a command. -/
theorem ExchangeServer.RespondsTo.answer {socket : Socket} {orderId : OrderId} {emissions : List Emission}
    (h : RespondsTo socket orderId emissions) :
    ∃ success, emissions.filterMap Emission.answer = [(orderId, success)] := by
  obtain ⟨success, type, hfilter, htype⟩ := h
  refine ⟨success, ?_⟩
  have hanswer : (Emission.orderResponse socket orderId success type).answer =
      some (orderId, success) := orderResponse_answer 0 socket orderId success htype
  rw [filterMap_answer, hfilter, List.filterMap_cons_some hanswer, List.filterMap_nil]

/-! ## The ledger -/

/-- What fills and book updates do not change of an order. -/
def OrderState.identity (order : OrderState) : Symbol × OrderId × Bytes :=
  (order.symbol, order.numericOrderId, order.currentClOrdId)

/-- No order comes from nothing, and its key and its symbol stay. -/
def KeepsOrders (orders orders' : OrderId → Option OrderState) : Prop :=
  ∀ id order', orders' id = some order' → ∃ order, orders id = some order ∧
    order'.symbol = order.symbol ∧ order'.numericOrderId = order.numericOrderId

namespace KeepsOrders

variable {orders orders' : OrderId → Option OrderState}

theorem refl (orders : OrderId → Option OrderState) : KeepsOrders orders orders :=
  fun _ order h => ⟨order, h, rfl, rfl⟩

theorem erase (orders : OrderId → Option OrderState) (id : OrderId) :
    KeepsOrders orders (Function.update orders id none) := by
  intro i order horder
  rw [Function.update_apply] at horder
  split at horder
  · cases horder
  · exact ⟨order, horder, rfl, rfl⟩

theorem set {id : OrderId} {order order' : OrderState} (horder : orders id = some order)
    (hsymbol : order'.symbol = order.symbol) (hid : order'.numericOrderId = order.numericOrderId) :
    KeepsOrders orders (Function.update orders id (some order')) := by
  intro i other hother
  rw [Function.update_apply] at hother
  split at hother
  · rename_i hi
    cases hother
    exact ⟨order, hi ▸ horder, hsymbol, hid⟩
  · exact ⟨other, hother, rfl, rfl⟩

theorem of_identity
    (h : ∀ id, (orders' id).map OrderState.identity = (orders id).map OrderState.identity) :
    KeepsOrders orders orders' := by
  intro id order' horder'
  have hid := h id
  rw [horder', Option.map_some] at hid
  obtain ⟨order, horder, heq⟩ := Option.map_eq_some_iff.mp hid.symm
  obtain ⟨hsymbol, hkey⟩ := Prod.mk.inj heq
  exact ⟨order, horder, hsymbol.symm, (Prod.mk.inj hkey).1.symm⟩

end KeepsOrders

namespace Ledger

variable (l : Ledger)

theorem answer_keepsOrders {id : OrderId} (pending : PendingRequest) (success : Bool)
    {order : OrderState} (horder : l.orders id = some order) :
    KeepsOrders l.orders (l.answer id pending success order).orders := by
  unfold Ledger.answer
  split
  · exact .set horder rfl rfl
  · exact .erase _ _
  · exact .set horder rfl rfl
  · exact .set horder rfl rfl
  · exact .refl _
  · exact .refl _

theorem answer_pending (id : OrderId) (pending : PendingRequest) (success : Bool)
    (order : OrderState) : (l.answer id pending success order).pending = l.pending := by
  unfold Ledger.answer
  split <;> rfl

theorem respond_keepsOrders (id : OrderId) (success : Bool) :
    KeepsOrders l.orders (l.respond id success).orders := by
  unfold Ledger.respond
  split
  · exact .refl _
  split
  · exact .refl _
  · rename_i pending rest _ _ order horder
    exact answer_keepsOrders (l.setPending id rest) pending success horder

/-- A response takes the first entry of its order out. -/
theorem respond_pending (id : OrderId) (success : Bool) :
    (l.respond id success).pending = Function.update l.pending id (l.pending id).tail := by
  unfold Ledger.respond
  split
  · rename_i hnil
    rw [hnil, List.tail_nil, ← hnil, Function.update_eq_self]
  · rename_i pending rest hpending
    rw [hpending, List.tail_cons]
    split
    · rfl
    · rw [answer_pending]
      rfl

theorem fillAt_identity (id : OrderId) (execution : TradeExecution) (i : OrderId) :
    ((l.fillAt id execution).orders i).map OrderState.identity =
      (l.orders i).map OrderState.identity := by
  simp only [Ledger.fillAt, Function.update_apply]
  split
  · rename_i hi
    rw [hi, Option.map_map]
    rfl
  · rfl

theorem trade_identity (execution : TradeExecution) (i : OrderId) :
    ((l.trade execution).orders i).map OrderState.identity =
      (l.orders i).map OrderState.identity := by
  have hfill : ((l.fill execution).orders i).map OrderState.identity =
      (l.orders i).map OrderState.identity := by
    rw [Ledger.fill, fillAt_identity, fillAt_identity]
  unfold Ledger.trade
  split
  · split
    · rfl
    · exact hfill
  · exact hfill

theorem trade_unfilled (execution : TradeExecution) :
    (l.trade execution).pending = l.pending ∧ (l.trade execution).awaiting = l.awaiting := by
  unfold Ledger.trade
  split
  · split <;> exact ⟨rfl, rfl⟩
  · exact ⟨rfl, rfl⟩

theorem reach_identity (symbol : Symbol) (order : OrderState) :
    (order.reach symbol).identity = order.identity := by
  unfold OrderState.reach
  split <;> rfl

theorem boundary_identity (symbol : Symbol) (i : OrderId) :
    ((l.boundary symbol).orders i).map OrderState.identity =
      (l.orders i).map OrderState.identity := by
  simp only [Ledger.boundary]
  split
  · rw [Option.map_map]
    exact Option.map_congr fun order _ => reach_identity symbol order
  · rfl

variable {l} {message : CoreMessage}

theorem absorb_of_answer {id : OrderId} {success : Bool} (h : message.answer = some (id, success)) :
    l.absorb message = l.respond id success := by
  unfold CoreMessage.answer at h
  split at h
  · rename_i hresponse
    obtain ⟨response, hdecode, heq⟩ := Option.map_eq_some_iff.mp h
    obtain ⟨rfl, rfl⟩ := Prod.mk.inj heq
    rw [Ledger.absorb, if_pos hresponse, hdecode]
  · cases h

/-- A message that is no response leaves the entries and the identities of the orders as they are. -/
theorem absorb_of_no_answer (h : message.answer = none) :
    (l.absorb message).pending = l.pending ∧
      (∀ i, ((l.absorb message).orders i).map OrderState.identity =
        (l.orders i).map OrderState.identity) ∧
      (l.absorb message).awaiting ⊆ l.awaiting := by
  have hsame : l.pending = l.pending ∧ (∀ i, (l.orders i).map OrderState.identity =
      (l.orders i).map OrderState.identity) ∧ l.awaiting ⊆ l.awaiting :=
    ⟨rfl, fun _ => rfl, Set.Subset.refl _⟩
  unfold Ledger.absorb
  split
  · rename_i hresponse
    rw [CoreMessage.answer, if_pos hresponse, Option.map_eq_none_iff] at h
    rw [h]
    exact hsame
  split
  · cases decodeTradeExecution message.body with
    | none => exact hsame
    | some execution =>
      obtain ⟨hpending, hawaiting⟩ := l.trade_unfilled execution
      exact ⟨hpending, l.trade_identity execution, hawaiting.le⟩
  split
  · cases decodeBookUpdate message.body with
    | none => exact hsame
    | some update =>
      exact ⟨rfl, l.boundary_identity update.symbol, fun _ hid => hid.1⟩
  · exact hsame

theorem absorb_keepsOrders (message : CoreMessage) :
    KeepsOrders l.orders (l.absorb message).orders := by
  cases h : message.answer with
  | none => exact .of_identity (absorb_of_no_answer h).2.1
  | some answer =>
    rw [absorb_of_answer h]
    exact l.respond_keepsOrders _ _

end Ledger

/-! ## Requests -/

def CoreRequest.command : CoreRequest → Command
  | .newOrder request => .newOrder request
  | .cancelOrder request => .cancelOrder request
  | .replaceOrder request => .replaceOrder request

theorem CoreRequest.command_orderId (core : CoreRequest) : core.command.orderId = core.orderId := by
  cases core <;> rfl

def CoreRequest.kind : CoreRequest → PendingKind
  | .newOrder _ => .new
  | .cancelOrder _ => .cancel
  | .replaceOrder _ => .replace

/-- The core reads the frame as the request that was meant, and the entry is of its kind. -/
structure Request.Sound (request : Request) : Prop where
  decodes : commandOf request.frame.header.type request.frame.body = some request.core.command
  kind : request.pending.kind = request.core.kind

theorem Request.sound_newOrder {message : Message} {id timestamp : UInt64}
    {translated : NewOrderTranslation} (h : Translates message id timestamp translated)
    (sequenceNumber : UInt64) {pending : PendingRequest} (hkind : pending.kind = .new) :
    (Request.mk (.newOrder translated.request) sequenceNumber pending).Sound := by
  have hvalid : translated.request.Valid :=
    { side := h.side
      orderType := h.orderType.imp And.left And.left
      timeInForce := h.timeInForce
      quantity := h.quantity.1
      symbol := h.symbol }
  exact ⟨commandOf_newOrder hvalid, hkind⟩

theorem Request.sound_cancelOrder {request : CancelOrderRequest}
    (hsymbol : isValidSymbol request.symbol = true) (sequenceNumber : UInt64)
    {pending : PendingRequest} (hkind : pending.kind = .cancel) :
    (Request.mk (.cancelOrder request) sequenceNumber pending).Sound := by
  refine ⟨?_, hkind⟩
  show commandOf .cancelOrder (encodeCancelOrder request) = _
  rw [commandOf, if_neg (by decide), if_pos rfl, cancelOrder_exact.accepts _ hsymbol]
  rfl

theorem Request.sound_replaceOrder {request : ReplaceOrderRequest}
    (hquantity : request.newQuantity ≠ 0) (hsymbol : isValidSymbol request.symbol = true)
    (sequenceNumber : UInt64) {pending : PendingRequest} (hkind : pending.kind = .replace) :
    (Request.mk (.replaceOrder request) sequenceNumber pending).Sound := by
  refine ⟨?_, hkind⟩
  show commandOf .replaceOrder (encodeReplaceOrder request) = _
  rw [commandOf, if_neg (by decide), if_neg (by decide), if_pos rfl,
    replaceOrder_exact.accepts _ ⟨hsymbol, hquantity⟩]
  rfl

/-- The entries of an order among those of some requests. -/
def entriesOf (id : OrderId) (requests : List Request) : List PendingRequest :=
  (requests.filter fun request => request.orderId = id).map Request.pending

theorem entriesOf_append (id : OrderId) (requests requests' : List Request) :
    entriesOf id (requests ++ requests') = entriesOf id requests ++ entriesOf id requests' := by
  rw [entriesOf, List.filter_append, List.map_append, entriesOf, entriesOf]

theorem entriesOf_cons (id : OrderId) (request : Request) (requests : List Request) :
    entriesOf id (request :: requests) =
      if request.orderId = id then request.pending :: entriesOf id requests
      else entriesOf id requests := by
  unfold entriesOf
  by_cases h : request.orderId = id
  · simp [h]
  · simp [h]

/-- Every order of the ledger is in a symbol that the core's messages can carry. -/
def Ledger.ValidSymbols (l : Ledger) : Prop :=
  ∀ id order, l.orders id = some order → isValidSymbol order.symbol = true

theorem Ledger.ValidSymbols.keep {l l' : Ledger} (h : l.ValidSymbols)
    (hkeeps : KeepsOrders l.orders l'.orders) : l'.ValidSymbols := by
  intro id order' horder'
  obtain ⟨order, horder, hsymbol, -⟩ := hkeeps id order' horder'
  rw [hsymbol]
  exact h id order horder

/-- A client's message adds the entry of the request that was sent, if one was, and no other. -/
theorem ClientEffect.forwards {surroundings : Surroundings} {next : Nat} {message : Message}
    {session : SessionContext} {effects : Effects} (hsymbols : session.ledger.ValidSymbols)
    (h : ClientEffect surroundings next message session effects) :
    (∀ id, effects.session.ledger.pending id =
      session.ledger.pending id ++ entriesOf id effects.request.toList) ∧
    effects.session.ledger.ValidSymbols ∧ ∀ request ∈ effects.request, request.Sound := by
  have hnone : ∀ id, session.ledger.pending id =
      session.ledger.pending id ++ entriesOf id (none : Option Request).toList :=
    fun id => (List.append_nil _).symm
  have hpush : ∀ (l : Ledger) (request : Request) id,
      (l.push request.orderId request.pending).pending id =
        l.pending id ++ entriesOf id (some request).toList := by
    intro l request id
    rw [Option.toList_some, entriesOf_cons, Ledger.push, Ledger.setPending]
    simp only [Function.update_apply]
    split
    · rename_i heq
      rw [if_pos heq.symm, heq]
      rfl
    · rename_i hne
      rw [if_neg (Ne.symm hne)]
      exact (List.append_nil _).symm
  cases h with
  | kept hledger =>
    refine ⟨?_, ?_, fun _ hsome => by cases hsome⟩
    · rw [hledger]
      exact hnone
    · rw [hledger]
      exact hsymbols
  | unsent _ hledger =>
    refine ⟨?_, ?_, fun _ hsome => by cases hsome⟩
    · rw [hledger]
      exact hnone
    · rw [hledger]
      exact hsymbols.keep (.erase _ _)
  | @placed session' translated htranslated _ _ hledger =>
    have hspec := translateNewOrderSingle_ok htranslated
    refine ⟨?_, ?_, ?_⟩
    · rw [hledger]
      exact hpush (session.ledger.place _ _)
        ⟨.newOrder translated.request, session.nextCoreSequence, _⟩
    · rw [hledger]
      intro id order horder
      simp only [Ledger.push, Ledger.setPending, Ledger.place, Function.update_apply] at horder
      split at horder
      · cases horder
        cases hold : session.ledger.orders translated.request.orderId with
        | none => exact hspec.symbol
        | some order => exact hsymbols _ order hold
      · exact hsymbols id order horder
    · rintro _ ⟨⟩
      exact Request.sound_newOrder hspec _ rfl
  | @cancelled session' clOrdId origClOrdId id order hfound _ _ _ hledger =>
    refine ⟨?_, ?_, ?_⟩
    · rw [hledger]
      exact hpush session.ledger
        ⟨.cancelOrder ⟨id, surroundings.now, order.symbol⟩, session.nextCoreSequence, _⟩
    · rw [hledger]
      exact hsymbols
    · rintro _ ⟨⟩
      exact Request.sound_cancelOrder (hsymbols id order hfound) _ rfl
  | @replaced session' clOrdId origClOrdId id order total price hfound _ _ htotal hmore _ _ _
      hledger =>
    refine ⟨?_, ?_, ?_⟩
    · rw [hledger]
      exact hpush session.ledger
        ⟨.replaceOrder ⟨order.numericOrderId, surroundings.now, price,
          UInt64.ofNat (total.toNat - order.cumulativeQuantity), order.symbol⟩,
          session.nextCoreSequence, _⟩
    · rw [hledger]
      exact hsymbols
    · rintro _ ⟨⟩
      refine Request.sound_replaceOrder (fun hzero => ?_) (hsymbols id order hfound) _ rfl
      have hnat := congrArg UInt64.toNat hzero
      have hlt : total.toNat < UInt64.size := total.toNat_lt
      rw [UInt64.toNat_ofNat_of_lt' (Nat.lt_of_le_of_lt (Nat.sub_le _ _) hlt)] at hnat
      exact Nat.sub_ne_zero_of_lt hmore hnat

/-! ## One link -/

/-- The answers that a session has been given. -/
def Link.answers (link : Link) : List (OrderId × Bool) :=
  link.received.filterMap fun reception => reception.message.answer

/-- The frame is that of the request, and its handler gave one answer, about the same order. -/
def AnsweredBy (request : Request) (handled : Frame × List Emission) : Prop :=
  handled.1 = request.frame ∧
    ∃ success, handled.2.filterMap Emission.answer = [(request.orderId, success)]

def answersOf (handled : List (Frame × List Emission)) : List (OrderId × Bool) :=
  handled.flatMap fun frame => frame.2.filterMap Emission.answer

/-- A link against the frames that were handled for it and what its thread has still to send. -/
structure Link.Matched (handled : List (Frame × List Emission)) (sending : List Emission)
    (link : Link) : Prop where
  symbols : link.session.ledger.ValidSymbols
  sound : ∀ request ∈ link.requests, request.Sound
  sent : ∃ done waiting, link.requests = done ++ waiting ∧ List.Forall₂ AnsweredBy done handled ∧
    link.toCore = waiting.map Request.frame
  flow : answersOf handled = link.answers ++ link.toGateway.filterMap CoreMessage.answer ++
    sending.filterMap Emission.answer
  pending : ∀ id, link.session.ledger.pending id =
    entriesOf id (link.requests.drop link.answers.length)

/-- Each handled frame accounts for one answer, so the n-th answer is that to the n-th request. -/
theorem answered_at {done : List Request} {handled : List (Frame × List Emission)}
    (h : List.Forall₂ AnsweredBy done handled) {answers rest : List (OrderId × Bool)}
    {answer : OrderId × Bool} (hflow : answersOf handled = answers ++ answer :: rest) :
    ∃ request before after emissions, done = before ++ request :: after ∧
      before.length = answers.length ∧
      handled[answers.length]? = some (request.frame, emissions) ∧
      emissions.filterMap Emission.answer = [answer] ∧ request.orderId = answer.1 := by
  induction h generalizing answers with
  | nil => exact absurd hflow.symm (List.append_ne_nil_of_right_ne_nil _ (List.cons_ne_nil _ _))
  | @cons request frame done handled hframe _ ih =>
    obtain ⟨hsame, success, hone⟩ := hframe
    have hcons : answersOf (frame :: handled) = (request.orderId, success) :: answersOf handled := by
      rw [answersOf, List.flatMap_cons, hone]
      rfl
    rw [hcons] at hflow
    cases answers with
    | nil =>
      obtain ⟨rfl, -⟩ := List.cons.inj hflow
      exact ⟨request, [], done, frame.2, rfl, rfl, by rw [← hsame]; rfl, hone, rfl⟩
    | cons first answers =>
      obtain ⟨-, hflow⟩ := List.cons.inj hflow
      obtain ⟨other, before, after, emissions, rfl, hlength, hhandled, hanswer, hid⟩ := ih hflow
      exact ⟨other, request :: before, after, emissions, rfl, congrArg (· + 1) hlength, hhandled,
        hanswer, hid⟩

theorem length_answersOf {done : List Request} {handled : List (Frame × List Emission)}
    (h : List.Forall₂ AnsweredBy done handled) : (answersOf handled).length = done.length := by
  induction h with
  | nil => rfl
  | @cons request frame done handled hframe _ ih =>
    obtain ⟨-, success, hone⟩ := hframe
    rw [answersOf, List.flatMap_cons, hone, List.length_append, ← answersOf, ih, Nat.add_comm]
    rfl

namespace Link.Matched

variable {handled : List (Frame × List Emission)} {sending : List Emission} {link : Link}

theorem start {session : SessionContext} (h : session.ledger = SessionContext.ledger {}) :
    Link.Matched [] [] { session := session } where
  symbols id order horder := by
    rw [h] at horder
    cases horder
  sound _ hmem := by cases hmem
  sent := ⟨[], [], rfl, .nil, rfl⟩
  flow := rfl
  pending id := by
    rw [h]
    rfl

/-- No more requests are answered than there are. -/
theorem answers_le (h : link.Matched handled sending) : link.answers.length ≤ link.requests.length := by
  obtain ⟨done, waiting, hrequests, hdone, -⟩ := h.sent
  have hlength := length_answersOf hdone
  rw [h.flow, List.length_append, List.length_append] at hlength
  rw [hrequests, List.length_append]
  omega

theorem client (h : link.Matched handled sending) {surroundings : Surroundings} {next : Nat}
    {message : Message} {effects : Effects}
    (heffect : ClientEffect surroundings next message link.session effects) :
    (link.forward effects).Matched handled sending := by
  obtain ⟨hpending, hsymbols, hsound⟩ := heffect.forwards h.symbols
  obtain ⟨done, waiting, hrequests, hdone, hwaiting⟩ := h.sent
  refine ⟨hsymbols, fun request hmem => ?_, ⟨done, waiting ++ effects.request.toList, ?_, hdone, ?_⟩,
    h.flow, fun id => ?_⟩
  · rcases List.mem_append.mp hmem with hmem | hmem
    · exact h.sound request hmem
    · exact hsound request (Option.mem_toList.mp hmem)
  · rw [Link.forward, hrequests, List.append_assoc]
  · rw [Link.forward, hwaiting, List.map_append]
  · have hanswers : (link.forward effects).answers = link.answers := rfl
    show effects.session.ledger.pending id = _
    rw [hpending, h.pending, hanswers, Link.forward, List.drop_append_of_le_length h.answers_le,
      entriesOf_append]

theorem handle (h : link.Matched handled []) {frame : Frame} {rest : List Frame}
    (hnext : link.toCore = frame :: rest) {order : SetOrder} {socket : Socket}
    {server server' : ExchangeServer} {emissions : List Emission}
    (hrun : handleMessage order socket frame server = .ok (server', emissions)) :
    ({ link with toCore := rest } : Link).Matched (handled ++ [(frame, emissions)]) emissions := by
  obtain ⟨done, waiting, hrequests, hdone, hwaiting⟩ := h.sent
  rw [hnext] at hwaiting
  obtain ⟨request, waiting, rfl, rfl, rfl⟩ := List.map_eq_cons_iff.mp hwaiting.symm
  have hmem : request ∈ link.requests := by
    rw [hrequests]
    exact List.mem_append_right _ (.head _)
  obtain ⟨success, hanswer⟩ := (handleMessage_respondsTo (h.sound request hmem).decodes hrun).answer
  rw [request.core.command_orderId] at hanswer
  refine ⟨h.symbols, h.sound, ⟨done ++ [request], waiting, ?_, ?_, rfl⟩, ?_, h.pending⟩
  · rw [hrequests, List.append_assoc]
    rfl
  · exact List.rel_append hdone (.cons ⟨rfl, success, hanswer⟩ .nil)
  · have hflow := h.flow
    rw [answersOf, List.flatMap_append, ← answersOf, hflow, List.flatMap_singleton]
    simp only [List.filterMap_nil, List.append_nil, Link.answers]

/-- Messages that come with the answers that have been sent since. -/
theorem receive (h : link.Matched handled sending) {messages : List CoreMessage}
    {sending' : List Emission}
    (hflow : sending.filterMap Emission.answer =
      messages.filterMap CoreMessage.answer ++ sending'.filterMap Emission.answer) :
    ({ link with toGateway := link.toGateway ++ messages } : Link).Matched handled sending' := by
  refine ⟨h.symbols, h.sound, h.sent, ?_, h.pending⟩
  have hold := h.flow
  rw [hflow] at hold
  rw [hold, List.filterMap_append]
  simp only [List.append_assoc, Link.answers]

/-- The entry that an answer takes out, and the request it belongs to. -/
theorem answered (h : link.Matched handled sending) {message : CoreMessage} {rest : List CoreMessage}
    (hnext : link.toGateway = message :: rest) {id : OrderId} {success : Bool}
    (hanswer : message.answer = some (id, success)) :
    ∃ request emissions, link.requests[link.answers.length]? = some request ∧
      handled[link.answers.length]? = some (request.frame, emissions) ∧
      emissions.filterMap Emission.answer = [(id, success)] ∧ request.orderId = id ∧
      link.requests.drop link.answers.length =
        request :: link.requests.drop (link.answers.length + 1) ∧
      link.session.ledger.pending id =
        request.pending :: entriesOf id (link.requests.drop (link.answers.length + 1)) := by
  obtain ⟨done, waiting, hrequests, hdone, -⟩ := h.sent
  have hflow := h.flow
  rw [hnext, List.filterMap_cons_some hanswer, List.append_assoc, List.cons_append] at hflow
  obtain ⟨request, before, after, emissions, rfl, hlength, hhandled, hemissions, hid⟩ :=
    answered_at hdone hflow
  have hsplit : link.requests = before ++ request :: (after ++ waiting) := by
    rw [hrequests, List.append_assoc, List.cons_append]
  have hat : link.requests[link.answers.length]? = some request := by
    rw [hsplit, ← hlength, List.getElem?_append_right (Nat.le_refl _), Nat.sub_self]
    rfl
  have hdrop := List.drop_eq_getElem_cons (List.getElem?_eq_some_iff.mp hat).1
  rw [(List.getElem?_eq_some_iff.mp hat).2] at hdrop
  refine ⟨request, emissions, hat, hhandled, hemissions, hid, hdrop, ?_⟩
  rw [h.pending, hdrop, entriesOf_cons, if_pos hid]

theorem deliver (h : link.Matched handled sending) {message : CoreMessage} {rest : List CoreMessage}
    (hnext : link.toGateway = message :: rest) (iteration : SetOrder) :
    (link.process iteration message rest).Matched handled sending := by
  have hledger : (link.process iteration message rest).session.ledger =
      link.session.ledger.absorb message := ledger_processCoreMessage link.session iteration message
  have hsymbols : (link.process iteration message rest).session.ledger.ValidSymbols := by
    rw [hledger]
    exact h.symbols.keep (Ledger.absorb_keepsOrders message)
  have hflow := h.flow
  rw [hnext] at hflow
  cases hanswer : message.answer with
  | none =>
    have hanswers : (link.process iteration message rest).answers = link.answers := by
      simp [Link.answers, Link.process, hanswer]
    refine ⟨hsymbols, h.sound, h.sent, ?_, fun id => ?_⟩
    · rw [hflow, hanswers, List.filterMap_cons_none hanswer]
      rfl
    · rw [hledger, (Ledger.absorb_of_no_answer hanswer).1, h.pending, hanswers]
      rfl
  | some answer =>
    obtain ⟨id, success⟩ := answer
    have hanswers : (link.process iteration message rest).answers =
        link.answers ++ [(id, success)] := by
      simp [Link.answers, Link.process, hanswer]
    obtain ⟨request, emissions, -, -, -, hid, hdrop, hpending⟩ := h.answered hnext hanswer
    refine ⟨hsymbols, h.sound, h.sent, ?_, fun i => ?_⟩
    · rw [hflow, hanswers, List.filterMap_cons_some hanswer]
      simp only [Link.process, List.append_assoc, List.cons_append, List.nil_append]
    · rw [hledger, Ledger.absorb_of_answer hanswer, Ledger.respond_pending, hanswers,
        List.length_append, List.length_singleton, Function.update_apply]
      split
      · rename_i hi
        rw [hpending, List.tail_cons, hi]
        rfl
      · rename_i hi
        rw [h.pending, hdrop, entriesOf_cons, if_neg (fun heq => hi (heq.symm.trans hid))]
        rfl

end Link.Matched

/-! ## Every run -/

namespace Bridge

variable {config : FixGatewayConfig} {limits : RiskLimits} {file : Option (Option Bytes)}
  {server₀ : ExchangeServer} {labels : List Label} {label : Label} {s s' : Bridge}

def handledStep (socket : Socket) (handled : List (Frame × List Emission)) :
    Label → List (Frame × List Emission)
  | .core (.handle other frame emissions) =>
    if other = socket then handled ++ [(frame, emissions)] else handled
  | .accept other => if other = socket then [] else handled
  | _ => handled

/-- The frames that were handled for a connection since it was accepted, in order, and what the
handler of each had to send. -/
def handledBy (socket : Socket) (labels : List Label) : List (Frame × List Emission) :=
  labels.foldl (handledStep socket) []

theorem handledBy_snoc (socket : Socket) (labels : List Label) (label : Label) :
    handledBy socket (labels ++ [label]) = handledStep socket (handledBy socket labels) label :=
  List.foldl_concat ..

/-- A thread answers its own session only. -/
def Addressed (s : Bridge) : Prop :=
  ∀ socket, ∀ emission ∈ s.core.sending socket, emission.isResponse = true →
    ∃ id success type, emission = .orderResponse socket id success type

structure Matched (labels : List Label) (s : Bridge) : Prop where
  silent : s.Silent
  addressed : s.Addressed
  links : ∀ socket link, s.links socket = some link →
    link.Matched (handledBy socket labels) (s.core.sending socket)

theorem handledBy_of_core {socket : Socket} {label : Concurrent.Label}
    (h : ∀ frame emissions, label ≠ .handle socket frame emissions) :
    handledBy socket (labels ++ [.core label]) = handledBy socket labels := by
  rw [handledBy_snoc]
  cases label with
  | handle other frame emissions =>
    refine if_neg fun heq => h frame emissions ?_
    rw [heq]
  | connect | disconnect | send | setGlobalKillSwitch => rfl

/-- What a link gets of an emission: an answer only from its own thread. -/
theorem deliverSent_link {links : Socket → Option Link} {emission : Emission}
    {server : ExchangeServer} {sender socket : Socket} {link' : Link}
    (haddressed : emission.isResponse = true →
      ∃ id success type, emission = .orderResponse sender id success type)
    (h : (emit emission server).2.foldl deliverSent links socket = some link') :
    ∃ link messages, links socket = some link ∧
      link' = { link with toGateway := link.toGateway ++ messages } ∧
      messages.filterMap CoreMessage.answer =
        if socket = sender then [emission].filterMap Emission.answer else [] := by
  unfold emit at h
  split at h
  · rename_i hunaddressed
    have hnone : emission.answer = none := by
      refine answer_of_not_response 0 ?_
      cases emission <;> first | rfl | cases hunaddressed
    refine ⟨link', [], h, by simp, ?_⟩
    rw [List.filterMap_cons_none hnone]
    exact (ite_self _).symm
  · obtain ⟨link, hlink, rfl⟩ := Option.map_eq_some_iff.mp h
    refine ⟨link, if socket ∈ server.recipients emission then
      [emission.coreMessage (UInt64.ofNat server.nextSequenceNumber)] else [], hlink, ?_, ?_⟩
    · split
      · rfl
      · simp
    · cases hresponse : emission.isResponse with
      | true =>
        obtain ⟨id, success, type, rfl⟩ := haddressed hresponse
        have hiff : socket ∈ server.recipients (.orderResponse sender id success type) ↔
            socket = sender := List.mem_singleton
        simp only [hiff]
        split
        · simp only [List.filterMap_cons, List.filterMap_nil, coreMessage_answer]
        · rfl
      | false =>
        have hnone := fun n => answer_of_not_response n hresponse
        have hemission : emission.answer = none := hnone 0
        rw [List.filterMap_cons_none hemission, List.filterMap_nil, ite_self]
        split
        · exact List.filterMap_cons_none (hnone _)
        · rfl

theorem Matched.core {label : Concurrent.Label} {core' : Concurrent}
    {links' : Socket → Option Link} (h : s.Matched labels)
    (hstep : Concurrent.Step s.core label core') (hlinks : Follows s.links label links')
    {socket : Socket} {link' : Link} (hlink' : links' socket = some link') :
    link'.Matched (handledBy socket (labels ++ [.core label])) (core'.sending socket) := by
  cases hlinks with
  | connect =>
    cases hstep
    rw [handledBy_of_core (fun _ _ h => by cases h)]
    exact h.links socket link' hlink'
  | disconnect other =>
    cases hstep
    rw [handledBy_of_core (fun _ _ h => by cases h)]
    rw [Function.update_apply] at hlink'
    split at hlink'
    · cases hlink'
    · exact h.links socket link' hlink'
  | setGlobalKillSwitch =>
    cases hstep
    rw [handledBy_of_core (fun _ _ h => by cases h)]
    exact h.links socket link' hlink'
  | @command other frame emissions hother =>
    cases hstep
    have hne : socket ≠ other := by
      rintro rfl
      rw [hlink'] at hother
      cases hother
    rw [handledBy_of_core (fun _ _ h => by cases h; exact hne rfl)]
    simp only [Function.update_of_ne hne]
    exact h.links socket link' hlink'
  | @request other link frame rest emissions hother hnext =>
    cases hstep with
    | handle order hopen hready hrun =>
      by_cases hsame : socket = other
      · subst hsame
        rw [Function.update_self] at hlink'
        cases hlink'
        have hlink := h.links socket link hother
        rw [hready.1] at hlink
        rw [handledBy_snoc, handledStep, if_pos rfl]
        simp only [Function.update_self]
        exact hlink.handle hnext hrun
      · rw [Function.update_of_ne hsame] at hlink'
        rw [handledBy_of_core (fun _ _ h => by cases h; exact hsame rfl)]
        simp only [Function.update_of_ne hsame]
        exact h.links socket link' hlink'
  | @send other sent =>
    cases hstep with
    | @send _ emission rest hnext =>
      have haddressed : emission.isResponse = true →
          ∃ id success type, emission = .orderResponse other id success type :=
        h.addressed other emission (by rw [hnext]; exact .head _)
      obtain ⟨link, messages, hlink, rfl, hanswers⟩ := deliverSent_link haddressed hlink'
      rw [handledBy_of_core (fun _ _ h => by cases h)]
      refine (h.links socket link hlink).receive ?_
      rw [hanswers]
      by_cases hsame : socket = other
      · subst hsame
        simp only [if_pos, Function.update_self, hnext]
        rw [← List.filterMap_append]
        rfl
      · simp only [if_neg hsame, Function.update_of_ne hsame, List.nil_append]

theorem Addressed.core {label : Concurrent.Label} {core' : Concurrent} (h : s.Addressed)
    (hbooks : s.core.server.BooksConsistent) (hstep : Concurrent.Step s.core label core') :
    ∀ socket, ∀ emission ∈ core'.sending socket, emission.isResponse = true →
      ∃ id success type, emission = .orderResponse socket id success type := by
  intro socket emission hmem hresponse
  cases hstep with
  | connect | disconnect | setGlobalKillSwitch => exact h socket emission hmem hresponse
  | @handle other frame server₁ emissions order hopen hready hrun =>
    simp only [Function.update_apply] at hmem
    split at hmem
    · rename_i hsame
      subst hsame
      exact (handleMessage_cases hbooks hrun).addressed hmem hresponse
    · exact h socket emission hmem hresponse
  | @send other first rest hnext =>
    simp only [Function.update_apply] at hmem
    split at hmem
    · rename_i hsame
      subst hsame
      exact h socket emission (by rw [hnext]; exact .tail _ hmem) hresponse
    · exact h socket emission hmem hresponse

theorem Step.matched (h : s.Matched labels) (hbooks : s.core.server.BooksConsistent)
    (hstep : Step config s label s') : s'.Matched (labels ++ [label]) := by
  refine ⟨h.silent.step hbooks hstep, ?_, fun socket link' hlink' => ?_⟩
  · cases hstep with
    | core hcore _ => exact h.addressed.core hbooks hcore
    | accept | client | deliver => exact h.addressed
  cases hstep with
  | core hcore hlinks => exact h.core hcore hlinks hlink'
  | @accept other hfree hlink =>
    simp only [setLink, Function.update_apply] at hlink'
    rw [handledBy_snoc, handledStep]
    split at hlink'
    · rename_i hsame
      subst hsame
      cases hlink'
      rw [if_pos rfl, show (s.setLink socket _).core.sending socket = [] from h.silent socket hfree]
      exact .start rfl
    · rename_i hne
      rw [if_neg (Ne.symm hne)]
      exact h.links socket link' hlink'
  | @client other link surroundings message hother hopen hcounter =>
    rw [handledBy_snoc]
    by_cases hsame : socket = other
    · subst hsame
      have hself : some (link.forward _) = some link' :=
        (Function.update_self socket _ s.links).symm.trans hlink'
      cases hself
      exact (h.links socket link hother).client processFixMessage_effect
    · have hold : s.links socket = some link' :=
        (Function.update_of_ne hsame _ s.links).symm.trans hlink'
      exact h.links socket link' hold
  | @deliver other link message rest iteration hother hnext =>
    rw [handledBy_snoc]
    by_cases hsame : socket = other
    · subst hsame
      have hself : some (link.process iteration message rest) = some link' :=
        (Function.update_self socket _ s.links).symm.trans hlink'
      cases hself
      exact (h.links socket link hother).deliver hnext iteration
    · have hold : s.links socket = some link' :=
        (Function.update_of_ne hsame _ s.links).symm.trans hlink'
      exact h.links socket link' hold

theorem matched_run (hstart : start limits file = some server₀)
    (hrun : Run (Step config) (starting server₀) labels s) : s.Matched labels := by
  induction hrun with
  | nil =>
    exact ⟨fun _ _ => rfl, fun _ _ hmem => (by cases hmem), fun _ _ hlink => (by cases hlink)⟩
  | snoc hrun hstep ih =>
    obtain ⟨log, hown⟩ := ownership hstart hrun
    exact hstep.matched ih hown.books

end Bridge

/-- In every run, for each session: a response it processes takes out, as the first of its order, the
entry that was pushed for the request whose frame the response answers, and no entry is left when
nothing of the session is on its way. -/
theorem pending_matched {config : FixGatewayConfig} {limits : RiskLimits}
    {file : Option (Option Bytes)} {server₀ : ExchangeServer} {labels : List Bridge.Label}
    {s : Bridge} (hstart : start limits file = some server₀)
    (hrun : Run (Bridge.Step config) (.starting server₀) labels s) {socket : Socket} {link : Link}
    (hlink : s.links socket = some link) :
    (∀ message id success s', message.answer = some (id, success) →
      Bridge.Step config s (.deliver socket message) s' →
      ∃ request emissions rest link', link.requests[link.answers.length]? = some request ∧
        (Bridge.handledBy socket labels)[link.answers.length]? = some (request.frame, emissions) ∧
        emissions.filterMap Emission.answer = [(id, success)] ∧
        request.orderId = id ∧ request.pending.kind = request.core.kind ∧
        link.session.pendingFor id = request.pending :: rest ∧ s'.links socket = some link' ∧
        link'.session.pendingFor = Function.update link.session.pendingFor id rest) ∧
    (link.toCore = [] → (s.core.sending socket).filterMap Emission.answer = [] →
      link.toGateway.filterMap CoreMessage.answer = [] → ∀ id, link.session.pendingFor id = []) := by
  have hmatched := (Bridge.matched_run hstart hrun).links socket link hlink
  refine ⟨fun message id success s' hanswer hstep => ?_, fun htoCore hsending htoGateway id => ?_⟩
  · cases hstep with
    | @deliver _ other _ rest iteration hother hnext =>
      rw [hlink] at hother
      cases hother
      obtain ⟨request, emissions, hat, hhandled, hemissions, hid, -, hpending⟩ :=
        hmatched.answered hnext hanswer
      have hmem : request ∈ link.requests := List.mem_of_getElem? hat
      refine ⟨request, emissions, _, _, hat, hhandled, hemissions, hid, (hmatched.sound _ hmem).kind,
        hpending, Function.update_self _ _ _, ?_⟩
      have hledger := ledger_processCoreMessage link.session iteration message
      rw [Ledger.absorb_of_answer hanswer] at hledger
      have hleft := congrArg Ledger.pending hledger
      rw [Ledger.respond_pending, hpending, List.tail_cons] at hleft
      exact hleft
  · obtain ⟨done, waiting, hrequests, hdone, hwaiting⟩ := hmatched.sent
    rw [htoCore] at hwaiting
    have hnone : waiting = [] := List.map_eq_nil_iff.mp hwaiting.symm
    have hlength := length_answersOf hdone
    rw [hmatched.flow, hsending, htoGateway, List.append_nil, List.append_nil] at hlength
    have hpending := hmatched.pending id
    rw [hrequests, hnone, List.append_nil, hlength, List.drop_length] at hpending
    exact hpending

/-- An order and a cancel behind it: the response to the order finds the entries of both. -/
def Bridge.pipelinedMoves : List Bridge.Move :=
  [.accept 4, .client 4 .reachable .logon, .connect 4,
    .client 4 .reachable (.newOrderSingle "2" "a" "1" "5" "10" "1"),
    .client 4 .reachable (.orderCancelRequest "3" "b" "a"), .request 4, .send 4]

theorem pending_matched_pipelined :
    ∃ labels s link message s' request rest,
      Run (Bridge.Step {}) (.starting { riskEngine := { limits := {} } }) labels s ∧
      s.links 4 = some link ∧ message.answer = some (2 ^ 62, true) ∧
      Bridge.Step {} s (.deliver 4 message) s' ∧ link.requests[0]? = some request ∧
      link.session.pendingFor (2 ^ 62) = request.pending :: rest ∧ rest.length = 1 := by
  have hpipelined : ((Bridge.performAll {} Bridge.pipelinedMoves
      (.starting { riskEngine := { limits := {} } })).any fun s => (s.links 4).any fun link =>
        link.toGateway.head?.any (fun message => message.answer = some (2 ^ 62, true)) &&
        link.answers.length = 0 && (link.session.pendingFor (2 ^ 62)).length = 2) = true := by
    decide +kernel
  have hstart : start {} none = some { riskEngine := { limits := {} } } := rfl
  obtain ⟨labels, s, hrun, hfinal⟩ := Bridge.performAll_any hstart hpipelined
  obtain ⟨link, hlink, hfinal⟩ := (Option.any_eq_true _ _).mp hfinal
  simp only [Bool.and_eq_true, decide_eq_true_eq] at hfinal
  obtain ⟨⟨hhead, hfirst⟩, hlength⟩ := hfinal
  obtain ⟨message, hmessage, hanswer⟩ := (Option.any_eq_true _ _).mp hhead
  rw [decide_eq_true_eq] at hanswer
  obtain ⟨messages, hnext⟩ := List.head?_eq_some_iff.mp hmessage
  have hstep := @Bridge.Step.deliver {} _ _ _ _ _ .dedup hlink hnext
  obtain ⟨request, emissions, rest, link', hat, -, -, -, -, hpending, -⟩ :=
    (pending_matched hstart hrun hlink).1 message _ _ _ hanswer hstep
  rw [hfirst] at hat
  rw [hpending, List.length_cons] at hlength
  exact ⟨labels, s, link, message, _, request, rest, hrun, hlink, hanswer, hstep, hat, hpending,
    Nat.succ.inj hlength⟩

end ExchangeLab

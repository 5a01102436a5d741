import ExchangeLab.Gateway.Reports

/-!
# ExchangeLab.Gateway.Drained

The ledger that a session will have once all that is on the way to it has arrived.

* `coming`, `Ledger.absorbAll`: the messages that a thread has still to send to a session, and what
  some messages of the core make of a ledger.
* `absorb_coreMessage`: the sequence number of a message makes no difference to that.
* `absorbAll_push`, `absorbAll_setOrder`, `absorbAll_place`: what a message of the client does to a
  ledger, it does as well after them.
* `Link.Drains`: what the core has handled is then answered.
-/

namespace ExchangeLab

open Wire Protocol OrderBook MatchingEngine Container ExchangeServer ExchangeLab.Fix FixGateway
  FixBridge Duplicates

/-! ## The messages on the way -/

/-- The session gets a copy while its connection is there. -/
def Emission.reaches (socket : Socket) : Emission → Bool
  | .orderResponse address .. => address = socket
  | .tradeExecution address .. => 0 ≤ address && address = socket
  | _ => true

def coming (socket : Socket) (emissions : List Emission) : List CoreMessage :=
  (emissions.filter (Emission.reaches socket)).map (Emission.coreMessage 0)

theorem coming_append (socket : Socket) (emissions emissions' : List Emission) :
    coming socket (emissions ++ emissions') = coming socket emissions ++ coming socket emissions' := by
  rw [coming, List.filter_append, List.map_append, coming, coming]

namespace Ledger

noncomputable def absorbAll (messages : List CoreMessage) (l : Ledger) : Ledger :=
  messages.foldl (fun l message => l.absorb message) l

/-- Every response finds an entry. -/
def Answers : List CoreMessage → Ledger → Prop
  | [], _ => True
  | message :: messages, l =>
    (∀ id success, message.answer = some (id, success) → l.pending id ≠ []) ∧
      Answers messages (l.absorb message)

variable {l : Ledger}

theorem absorbAll_append (messages messages' : List CoreMessage) (l : Ledger) :
    l.absorbAll (messages ++ messages') = (l.absorbAll messages).absorbAll messages' :=
  List.foldl_append

theorem absorb_of_trade {message : CoreMessage} (h : message.header.type = .tradeExecution) :
    l.absorb message = (decodeTradeExecution message.body).elim l fun execution =>
      l.trade execution := by
  have hresponse : ¬isOrderResponse message.header.type = true := by
    rw [h]
    decide
  rw [absorb, if_neg hresponse, if_pos h]
  cases decodeTradeExecution message.body <;> rfl

theorem absorb_of_bookUpdate {message : CoreMessage} (h : message.header.type = .bookUpdate) :
    l.absorb message = (decodeBookUpdate message.body).elim l fun update =>
      l.boundary update.symbol := by
  have hresponse : ¬isOrderResponse message.header.type = true := by
    rw [h]
    decide
  have htrade : message.header.type ≠ .tradeExecution := by
    rw [h]
    decide
  rw [absorb, if_neg hresponse, if_neg htrade, if_pos h]
  cases decodeBookUpdate message.body <;> rfl

/-- Responses, whatever number they were sent under. -/
theorem absorb_orderResponse (sequenceNumber : UInt64) (socket : Socket) (orderId : OrderId)
    (success : Bool) (type : MessageType) (l : Ledger) :
    l.absorb ((Emission.orderResponse socket orderId success type).coreMessage sequenceNumber) =
      l.absorb ((Emission.orderResponse socket orderId success type).coreMessage 0) := by
  have hbody : ∀ n, ((Emission.orderResponse socket orderId success type).coreMessage n).body =
      encodeOrderResponse ⟨orderId, n, if success then 1 else 0⟩ := fun _ => rfl
  have htype : ∀ n, ((Emission.orderResponse socket orderId success type).coreMessage
      n).header.type = (Emission.orderResponse socket orderId success type).type := fun _ => rfl
  have hresponse : ∀ n, decodeOrderResponse
      (encodeOrderResponse ⟨orderId, n, if success then 1 else 0⟩) =
        some ⟨orderId, n, if success then 1 else 0⟩ := fun _ =>
    orderResponse_exact.accepts _ (by cases success <;> simp [OrderResponse.Valid])
  have htrade : ∀ n, decodeTradeExecution
      (encodeOrderResponse ⟨orderId, n, if success then 1 else 0⟩) = none := fun n => by
    rw [decodeTradeExecution, length_encodeOrderResponse]
    rfl
  have hupdate : ∀ n, decodeBookUpdate
      (encodeOrderResponse ⟨orderId, n, if success then 1 else 0⟩) = none := fun n => by
    rw [decodeBookUpdate, length_encodeOrderResponse]
    rfl
  rw [absorb, absorb, hbody, hbody, htype, htype, hresponse, hresponse, htrade, htrade, hupdate,
    hupdate]

/-- A copy tells the session of the trade. -/
theorem absorb_copy (sequenceNumber : UInt64) (address : Socket) {symbol : Symbol} {trade : Trade}
    (hsymbol : isValidSymbol symbol = true) (hquantity : 0 < trade.quantity) (l : Ledger) :
    l.absorb ((Emission.tradeExecution address symbol trade).coreMessage sequenceNumber) =
      l.trade ⟨trade.buyOrderId, trade.sellOrderId, trade.price, trade.quantity.toUInt64,
        sequenceNumber, symbol⟩ := by
  rw [absorb_of_trade rfl, tradeExecution_decoded sequenceNumber address hsymbol hquantity]
  rfl

theorem absorb_snapshot (sequenceNumber : UInt64) {snapshot : BookSnapshot}
    (hsymbol : isValidSymbol snapshot.symbol = true) (l : Ledger) :
    l.absorb ((Emission.bookUpdate snapshot).coreMessage sequenceNumber) =
      l.boundary snapshot.symbol := by
  let update : BookUpdate :=
    { hasBid := if snapshot.hasBid then 1 else 0
      bestBid := if snapshot.hasBid then snapshot.bestBid else 0
      bidQuantity := if snapshot.hasBid then snapshot.bidQuantity.toUInt64 else 0
      hasAsk := if snapshot.hasAsk then 1 else 0
      bestAsk := if snapshot.hasAsk then snapshot.bestAsk else 0
      askQuantity := if snapshot.hasAsk then snapshot.askQuantity.toUInt64 else 0
      sequenceNumber := sequenceNumber
      symbol := snapshot.symbol }
  have hvalid : update.Valid := by
    refine ⟨?_, ?_, ?_, ?_, hsymbol⟩
    all_goals simp only [update]
    · cases snapshot.hasBid <;> simp
    · cases snapshot.hasAsk <;> simp
    · cases snapshot.hasBid <;> simp
    · cases snapshot.hasAsk <;> simp
  have hbody : ((Emission.bookUpdate snapshot).coreMessage sequenceNumber).body =
      encodeBookUpdate update := rfl
  rw [absorb_of_bookUpdate rfl, hbody, bookUpdate_exact.accepts _ hvalid]
  rfl

theorem absorb_level3 (sequenceNumber : UInt64) {emission : Emission}
    (h : emission.type = .level3AddOrder ∨ emission.type = .level3OrderExecuted ∨
      emission.type = .level3OrderDeleted) (l : Ledger) :
    l.absorb (emission.coreMessage sequenceNumber) = l := by
  have htype : (emission.coreMessage sequenceNumber).header.type = emission.type := rfl
  rw [absorb, htype]
  rcases h with h | h | h <;> rw [h] <;> rfl

/-- The number that a message is sent under makes no difference. -/
theorem absorb_coreMessage (sequenceNumber : UInt64) (emission : Emission) (l : Ledger) :
    l.absorb (emission.coreMessage sequenceNumber) = l.absorb (emission.coreMessage 0) := by
  cases emission with
  | orderResponse socket orderId success type => exact absorb_orderResponse ..
  | tradeExecution address symbol trade =>
    by_cases hvalid : isValidSymbol symbol = true ∧ 0 < trade.quantity
    · rw [absorb_copy _ _ hvalid.1 hvalid.2, absorb_copy _ _ hvalid.1 hvalid.2]
      rfl
    · have hrejected : ∀ n, decodeTradeExecution
          ((Emission.tradeExecution address symbol trade).coreMessage n).body = none := fun n => by
        refine tradeExecution_exact.rejects _ fun h => hvalid ⟨h.1, ?_⟩
        exact UInt32.pos_iff_ne_zero.mpr fun hzero => h.2 (by rw [hzero]; rfl)
      rw [absorb_of_trade rfl, absorb_of_trade rfl, hrejected, hrejected]
  | bookUpdate snapshot =>
    by_cases hvalid : isValidSymbol snapshot.symbol = true
    · rw [absorb_snapshot _ hvalid, absorb_snapshot _ hvalid]
    · have hrejected : ∀ n, decodeBookUpdate
          ((Emission.bookUpdate snapshot).coreMessage n).body = none := fun n =>
        bookUpdate_exact.rejects _ fun h => hvalid h.symbol
      rw [absorb_of_bookUpdate rfl, absorb_of_bookUpdate rfl, hrejected, hrejected]
  | level3AddOrder =>
    rw [absorb_level3 _ (.inl rfl), absorb_level3 _ (.inl rfl)]
  | level3OrderExecuted =>
    rw [absorb_level3 _ (.inr (.inl rfl)), absorb_level3 _ (.inr (.inl rfl))]
  | level3OrderDeleted =>
    rw [absorb_level3 _ (.inr (.inr rfl)), absorb_level3 _ (.inr (.inr rfl))]

/-! ## Messages of the client -/

theorem answer_setPending (id i : OrderId) (entries : List PendingRequest) (pending : PendingRequest)
    (success : Bool) (order : OrderState) (l : Ledger) :
    (l.setPending id entries).answer i pending success order =
      (l.answer i pending success order).setPending id entries := by
  unfold answer
  split <;> rfl

theorem respond_push {id i : OrderId} (pending : PendingRequest) (success : Bool)
    (h : l.pending i ≠ []) :
    (l.push id pending).respond i success = (l.respond i success).push id pending := by
  obtain ⟨first, rest, hfront⟩ := List.exists_cons_of_ne_nil h
  have hfront' : (l.push id pending).pending i =
      first :: if i = id then rest ++ [pending] else rest := by
    rw [push, setPending]
    simp only [Function.update_apply]
    split
    · rename_i heq
      rw [← heq, hfront, List.cons_append]
    · exact hfront
  have hpush : (l.push id pending).setPending i (if i = id then rest ++ [pending] else rest) =
      (l.setPending i rest).push id pending := by
    refine Ledger.ext rfl (funext fun j => ?_) rfl rfl rfl
    simp only [push, setPending, Function.update_apply]
    by_cases hi : i = id
    · subst hi
      by_cases hj : j = i <;> simp [hj]
    · by_cases hj : j = i
      · subst hj
        simp [hi]
      · simp [hj, Ne.symm hi]
  have horders : (l.push id pending).orders i = l.orders i := rfl
  rw [respond, hfront', respond, hfront]
  simp only [horders]
  cases l.orders i with
  | none => exact hpush
  | some order =>
    dsimp only
    rw [hpush, push, answer_setPending, push, answer_pending]

/-- A message that is no response looks at no entry. -/
theorem absorb_setPending {message : CoreMessage} (h : message.answer = none) (id : OrderId)
    (entries : List PendingRequest) :
    (l.setPending id entries).absorb message = (l.absorb message).setPending id entries := by
  unfold absorb
  split
  · rename_i hresponse
    rw [CoreMessage.answer, if_pos hresponse, Option.map_eq_none_iff] at h
    rw [h]
  split
  · cases decodeTradeExecution message.body with
    | none => rfl
    | some execution =>
      show (l.setPending id entries).trade execution = (l.trade execution).setPending id entries
      have hboth : (l.setPending id entries).OwnsBoth execution ↔ l.OwnsBoth execution := Iff.rfl
      have hsecond : ((l.setPending id entries).duplicatesToIgnore > 0 ∧
          (l.setPending id entries).lastSelfTradeKey = some (selfTradeKey execution)) ↔
            l.duplicatesToIgnore > 0 ∧ l.lastSelfTradeKey = some (selfTradeKey execution) := Iff.rfl
      simp only [trade, hboth, hsecond]
      split
      · split <;> rfl
      · rfl
  split
  · cases decodeBookUpdate message.body <;> rfl
  · rfl

theorem absorb_push {message : CoreMessage} (id : OrderId) (pending : PendingRequest)
    (h : ∀ i success, message.answer = some (i, success) → l.pending i ≠ []) :
    (l.push id pending).absorb message = (l.absorb message).push id pending := by
  cases hanswer : message.answer with
  | none =>
    rw [push, absorb_setPending hanswer, push, (absorb_of_no_answer hanswer).1]
  | some answer =>
    obtain ⟨i, success⟩ := answer
    rw [absorb_of_answer hanswer, absorb_of_answer hanswer, respond_push _ _ (h i success hanswer)]

theorem absorbAll_push {messages : List CoreMessage} (id : OrderId) (pending : PendingRequest)
    (h : Answers messages l) :
    (l.push id pending).absorbAll messages = (l.absorbAll messages).push id pending ∧
      Answers messages (l.push id pending) := by
  induction messages generalizing l with
  | nil => exact ⟨rfl, trivial⟩
  | cons message messages ih =>
    obtain ⟨hfirst, hrest⟩ := h
    have hcommutes := absorb_push id pending hfirst
    obtain ⟨hall, hanswers⟩ := ih hrest
    rw [← hcommutes] at hall hanswers
    refine ⟨hall, fun i success hanswer => ?_, hanswers⟩
    have hsome := hfirst i success hanswer
    simp only [push, setPending, Function.update_apply]
    split
    · exact List.append_ne_nil_of_right_ne_nil _ (List.cons_ne_nil _ _)
    · exact hsome

end Ledger

/-- The message is about the order. -/
def CoreMessage.Names (id : OrderId) (message : CoreMessage) : Prop :=
  (∃ success, message.answer = some (id, success)) ∨
    ∃ execution, message.execution = some execution ∧
      (id = execution.buyOrderId ∨ id = execution.sellOrderId)

namespace Ledger

variable {l : Ledger} {id : OrderId}

def Keyed (l : Ledger) : Prop := ∀ id order, l.orders id = some order → order.numericOrderId = id

theorem Keyed.absorb (h : l.Keyed) (message : CoreMessage) : (l.absorb message).Keyed := by
  intro id order' horder'
  obtain ⟨order, horder, -, hkey⟩ := absorb_keepsOrders message id order' horder'
  exact hkey.trans (h id order horder)

/-- Only orders that are there begin to wait for a book update. -/
theorem absorb_awaiting (hkeyed : l.Keyed) {message : CoreMessage}
    (h : id ∈ (l.absorb message).awaiting) : id ∈ l.awaiting ∨ l.orders id ≠ none := by
  cases hanswer : message.answer with
  | none => exact .inl ((absorb_of_no_answer hanswer).2.2 h)
  | some answer =>
    obtain ⟨i, success⟩ := answer
    rw [absorb_of_answer hanswer, respond] at h
    split at h
    · exact .inl h
    split at h
    · exact .inl h
    · rename_i pending rest _ _ order horder
      rcases (answer_effect (l := l.setPending i rest) pending success horder
        (hkeyed i order horder)).2.2 id h with h | ⟨rfl, -⟩
      · exact .inl h
      · exact .inr (by rw [horder]; exact Option.some_ne_none _)

/-- The order is not there, and nothing waits for it. -/
def Lacks (id : OrderId) (l : Ledger) : Prop := l.orders id = none ∧ id ∉ l.awaiting

theorem respond_setOrder {i : OrderId} (order : OrderState) (success : Bool) (hne : i ≠ id)
    (hkeyed : l.Keyed) (hlacks : l.Lacks id) :
    (l.setOrder id order).respond i success = (l.respond i success).setOrder id order ∧
      (l.respond i success).Lacks id := by
  have horders : (l.setOrder id order).orders i = l.orders i := Function.update_of_ne hne _ _
  have hpending : (l.setOrder id order).pending i = l.pending i := rfl
  unfold respond
  rw [hpending]
  split
  · exact ⟨rfl, hlacks⟩
  rw [horders]
  split
  · exact ⟨rfl, hlacks⟩
  rename_i pending rest _ _ other hother
  have hkey := hkeyed i other hother
  have hupdate : ∀ o : Option OrderState, Function.update (Function.update l.orders id (some order)) i o =
      Function.update (Function.update l.orders i o) id (some order) := fun o =>
    Function.update_comm hne.symm (some order) o l.orders
  have habsent : ∀ o : Option OrderState, Function.update l.orders i o id = none := fun o => by
    rw [Function.update_of_ne hne.symm]
    exact hlacks.1
  unfold answer
  split
  · refine ⟨Ledger.ext (hupdate _) rfl rfl rfl rfl, habsent _, ?_⟩
    rintro (hmem | ⟨-, hid⟩)
    · exact hlacks.2 hmem
    · exact hne (hkey.symm.trans hid.symm)
  · exact ⟨Ledger.ext (hupdate _) rfl rfl rfl rfl, habsent _, hlacks.2⟩
  · exact ⟨Ledger.ext (hupdate _) rfl rfl rfl rfl, habsent _, hlacks.2⟩
  · exact ⟨Ledger.ext (hupdate _) rfl rfl rfl rfl, habsent _, hlacks.2⟩
  · exact ⟨rfl, hlacks⟩
  · exact ⟨rfl, hlacks⟩

theorem fillAt_setOrder {i : OrderId} (order : OrderState) (execution : TradeExecution) (hne : i ≠ id) :
    (l.setOrder id order).fillAt i execution = (l.fillAt i execution).setOrder id order := by
  have horders : (l.setOrder id order).orders i = l.orders i := Function.update_of_ne hne _ _
  rw [fillAt, horders]
  exact Ledger.ext (Function.update_comm hne.symm _ _ l.orders) rfl rfl rfl rfl

theorem trade_setOrder {execution : TradeExecution} (order : OrderState)
    (hbuy : execution.buyOrderId ≠ id) (hsell : execution.sellOrderId ≠ id) (hlacks : l.Lacks id) :
    (l.setOrder id order).trade execution = (l.trade execution).setOrder id order ∧
      (l.trade execution).Lacks id := by
  have hfill : (l.setOrder id order).fill execution = (l.fill execution).setOrder id order := by
    rw [fill, fillAt_setOrder order execution hbuy, fillAt_setOrder order execution hsell, fill]
  have habsent : (l.fill execution).orders id = none := by
    rw [← Option.not_isSome_iff_eq_none, fill, isSome_fillAt, isSome_fillAt, hlacks.1]
    exact Bool.false_ne_true
  have hboth : (l.setOrder id order).OwnsBoth execution ↔ l.OwnsBoth execution := by
    simp only [OwnsBoth, setOrder, Function.update_of_ne hbuy, Function.update_of_ne hsell]
  have hsecond : ((l.setOrder id order).duplicatesToIgnore > 0 ∧
      (l.setOrder id order).lastSelfTradeKey = some (selfTradeKey execution)) ↔
        l.duplicatesToIgnore > 0 ∧ l.lastSelfTradeKey = some (selfTradeKey execution) := Iff.rfl
  simp only [trade, hboth, hsecond, hfill]
  split
  · split
    · exact ⟨rfl, hlacks⟩
    · exact ⟨rfl, habsent, hlacks.2⟩
  · exact ⟨rfl, habsent, hlacks.2⟩

theorem boundary_awaited {i : OrderId} (symbol : Symbol) (h : i ∈ l.awaiting) :
    (l.boundary symbol).orders i = (l.orders i).map (OrderState.reach symbol) := if_pos h

theorem boundary_unawaited {i : OrderId} (symbol : Symbol) (h : i ∉ l.awaiting) :
    (l.boundary symbol).orders i = l.orders i := if_neg h

theorem boundary_setOrder (symbol : Symbol) (order : OrderState) (hlacks : l.Lacks id) :
    (l.setOrder id order).boundary symbol = (l.boundary symbol).setOrder id order ∧
      (l.boundary symbol).Lacks id := by
  refine ⟨Ledger.ext (funext fun i => ?_) rfl (Set.ext fun i => and_congr_right fun hi => ?_) rfl rfl,
    ?_, fun hmem => hlacks.2 hmem.1⟩
  · have hkept : ((l.boundary symbol).setOrder id order).orders i =
        if i = id then some order else (l.boundary symbol).orders i := Function.update_apply ..
    have hset : (l.setOrder id order).orders i = if i = id then some order else l.orders i :=
      Function.update_apply ..
    rw [hkept]
    by_cases hi : i ∈ l.awaiting
    · have hne : i ≠ id := fun heq => hlacks.2 (heq ▸ hi)
      rw [boundary_awaited (l := l.setOrder id order) symbol hi, hset, if_neg hne, if_neg hne,
        boundary_awaited symbol hi]
    · rw [boundary_unawaited (l := l.setOrder id order) symbol hi, hset, boundary_unawaited symbol hi]
  · have hne : i ≠ id := fun heq => hlacks.2 (heq ▸ hi)
    simp only [setOrder, Function.update_of_ne hne]
  · exact (if_neg hlacks.2).trans hlacks.1

theorem absorb_setOrder {message : CoreMessage} (order : OrderState) (hnames : ¬message.Names id)
    (hkeyed : l.Keyed) (hlacks : l.Lacks id) :
    (l.setOrder id order).absorb message = (l.absorb message).setOrder id order ∧
      (l.absorb message).Lacks id := by
  obtain ⟨hanswer, hexecution⟩ := not_or.mp hnames
  cases hresponse : message.answer with
  | some answer =>
    obtain ⟨i, success⟩ := answer
    rw [absorb_of_answer hresponse, absorb_of_answer hresponse]
    exact respond_setOrder order success (fun heq => hanswer ⟨success, heq ▸ hresponse⟩) hkeyed hlacks
  | none =>
    have hsame : l.setOrder id order = l.setOrder id order ∧ l.Lacks id := ⟨rfl, hlacks⟩
    unfold absorb
    split
    · rename_i htype
      rw [CoreMessage.answer, if_pos htype, Option.map_eq_none_iff] at hresponse
      rw [hresponse]
      exact hsame
    split
    · rename_i htype
      rw [CoreMessage.execution, if_pos htype] at hexecution
      cases hdecode : decodeTradeExecution message.body with
      | none => exact hsame
      | some execution =>
        exact trade_setOrder order
          (fun heq => hexecution ⟨execution, hdecode, .inl heq.symm⟩)
          (fun heq => hexecution ⟨execution, hdecode, .inr heq.symm⟩) hlacks
    split
    · cases decodeBookUpdate message.body with
      | none => exact hsame
      | some update => exact boundary_setOrder update.symbol order hlacks
    · exact hsame

theorem absorbAll_setOrder {messages : List CoreMessage} (order : OrderState)
    (hnames : ∀ message ∈ messages, ¬message.Names id) (hkeyed : l.Keyed) (hlacks : l.Lacks id) :
    (l.setOrder id order).absorbAll messages = (l.absorbAll messages).setOrder id order := by
  induction messages generalizing l with
  | nil => rfl
  | cons message messages ih =>
    obtain ⟨hcommutes, hlacks'⟩ := absorb_setOrder order (hnames message (.head _)) hkeyed hlacks
    have hrest := ih (fun other hother => hnames other (.tail _ hother)) (hkeyed.absorb message) hlacks'
    rw [← hcommutes] at hrest
    exact hrest

/-- A new order comes to a session. -/
theorem absorbAll_place {messages : List CoreMessage} (order : OrderState) (pending : PendingRequest)
    (hanswers : Answers messages l) (hnames : ∀ message ∈ messages, ¬message.Names id)
    (hkeyed : l.Keyed) (hlacks : l.Lacks id) :
    ((l.place id order).push id pending).absorbAll messages =
      ((l.absorbAll messages).push id pending).setOrder id order := by
  have hkeyed' : (l.push id pending).Keyed := hkeyed
  have hlacks' : (l.push id pending).Lacks id := hlacks
  rw [place_absent _ hlacks.1, ← (absorbAll_push id pending hanswers).1]
  exact absorbAll_setOrder order hnames hkeyed' hlacks'

end Ledger

/-! ## Sessions -/

/-- The requests that the core has not handled yet. -/
def Link.unhandled (link : Link) : List Request :=
  link.requests.drop (link.requests.length - link.toCore.length)

theorem Link.unhandled_forward {link : Link} (hlength : link.toCore.length ≤ link.requests.length)
    (effects : Effects) :
    (link.forward effects).unhandled = link.unhandled ++ effects.request.toList := by
  have hdrop : (link.requests ++ effects.request.toList).length -
      (link.toCore ++ effects.request.toList.map Request.frame).length =
        link.requests.length - link.toCore.length := by
    rw [List.length_append, List.length_append, List.length_map]
    omega
  rw [Link.unhandled, Link.forward, hdrop, List.drop_append_of_le_length (Nat.sub_le _ _),
    Link.unhandled]

theorem ClientEffect.awaiting {surroundings : Surroundings} {next : Nat} {message : Message}
    {session : SessionContext} {effects : Effects}
    (h : ClientEffect surroundings next message session effects) :
    effects.session.ledger.awaiting = session.ledger.awaiting := by
  cases h with
  | kept hledger | unsent _ hledger | placed _ _ _ hledger | cancelled _ _ _ _ hledger
  | replaced _ _ _ _ _ _ _ _ hledger =>
    have hawaiting := congrArg Ledger.awaiting hledger
    exact hawaiting

/-- What is known of the ledger that a session will have. -/
structure Link.Drains (handled : List (Frame × List Emission)) (link : Link) (l : Ledger) : Prop where
  pending : ∀ id, l.pending id = entriesOf id link.unhandled
  orders : ∀ id order, l.orders id = some order → id ∈ link.placed ∧ order.numericOrderId = id
  keeps : KeepsOrders link.session.ledger.orders l.orders
  present : ∀ id, link.Accepted handled id → l.orders id ≠ none

theorem Ledger.absorbAll_keepsOrders (messages : List CoreMessage) (l : Ledger) :
    KeepsOrders l.orders (l.absorbAll messages).orders := by
  induction messages generalizing l with
  | nil => exact .refl _
  | cons message messages ih =>
    intro id order'' horder''
    obtain ⟨order', horder', hsymbol', hid'⟩ := ih (l.absorb message) id order'' horder''
    obtain ⟨order, horder, hsymbol, hid⟩ := absorb_keepsOrders message id order' horder'
    exact ⟨order, horder, hsymbol'.trans hsymbol, hid'.trans hid⟩

theorem mem_answersOf {done : List Request} {handled : List (Frame × List Emission)}
    (h : List.Forall₂ AnsweredBy done handled) {answer : OrderId × Bool}
    (hmem : answer ∈ answersOf handled) : ∃ request ∈ done, request.orderId = answer.1 := by
  induction h with
  | nil => cases hmem
  | @cons request frame done handled hframe _ ih =>
    obtain ⟨-, success, hone⟩ := hframe
    have hcons : answersOf (frame :: handled) = (request.orderId, success) :: answersOf handled := by
      rw [answersOf, List.flatMap_cons, hone]
      rfl
    rw [hcons] at hmem
    rcases List.mem_cons.mp hmem with rfl | hmem
    · exact ⟨request, .head _, rfl⟩
    · obtain ⟨other, hother, hid⟩ := ih hmem
      exact ⟨other, .tail _ hother, hid⟩

namespace Link.Matched

variable {handled : List (Frame × List Emission)} {sending : List Emission} {link : Link} {next : Nat}

theorem unhandled_eq {done waiting : List Request} (hrequests : link.requests = done ++ waiting)
    (hwaiting : link.toCore = waiting.map Request.frame) : link.unhandled = waiting := by
  have hlength : link.requests.length - link.toCore.length = done.length := by
    rw [hrequests, hwaiting, List.length_append, List.length_map, Nat.add_sub_cancel]
  rw [Link.unhandled, hlength, hrequests, List.drop_left]

/-- A session that has processed all that is on the way. -/
theorem processed (h : link.Matched handled sending) (hplacing : link.Placing next) :
    Ledger.Answers link.toGateway link.session.ledger ∧
    ∃ link' : Link, link'.Matched handled sending ∧ link'.Placing next ∧ link'.toGateway = [] ∧
      link'.requests = link.requests ∧
      link'.session.ledger = link.session.ledger.absorbAll link.toGateway := by
  generalize hmessages : link.toGateway = messages
  induction messages generalizing link with
  | nil => exact ⟨trivial, link, h, hplacing, hmessages, rfl, rfl⟩
  | cons message messages ih =>
    have hledger : (link.process .dedup message messages).session.ledger =
        link.session.ledger.absorb message := ledger_processCoreMessage link.session .dedup message
    obtain ⟨hanswers, link', hmatched', hplacing', hempty, hrequests, hdrained⟩ :=
      ih (h.deliver hmessages .dedup) (hplacing.deliver h hmessages .dedup) rfl
    rw [hledger] at hanswers hdrained
    refine ⟨⟨fun id success hanswer => ?_, hanswers⟩, link', hmatched', hplacing', hempty, hrequests,
      hdrained⟩
    obtain ⟨_, _, _, _, _, _, _, hpending⟩ := h.answered hmessages hanswer
    rw [hpending]
    exact List.cons_ne_nil _ _

/-- Messages that come with the answers that are still to send. -/
theorem drains (h : link.Matched handled sending) (hplacing : link.Placing next)
    {messages : List CoreMessage}
    (hflow : sending.filterMap Emission.answer = messages.filterMap CoreMessage.answer) :
    Ledger.Answers (link.toGateway ++ messages) link.session.ledger ∧
      link.Drains handled (link.session.ledger.absorbAll (link.toGateway ++ messages)) := by
  have hreceived := @receive _ _ _ h messages [] (hflow.trans (List.append_nil _).symm)
  have hsame : Link.SameSession { link with toGateway := link.toGateway ++ messages } link :=
    ⟨rfl, rfl, rfl⟩
  obtain ⟨hanswers, link', hmatched', hplacing', hempty, hrequests, hledger⟩ :=
    hreceived.processed (hplacing.congr hsame)
  refine ⟨hanswers, fun id => ?_, fun id order horder => ?_, ?_, fun id haccepted => ?_⟩
  · obtain ⟨done, waiting, hsplit, hdone, hwaiting⟩ := h.sent
    have hlength := length_answersOf hdone
    rw [hmatched'.flow, hempty, List.filterMap_nil, List.filterMap_nil, List.append_nil,
      List.append_nil] at hlength
    rw [unhandled_eq hsplit hwaiting, ← hledger, hmatched'.pending, hrequests]
    exact congrArg (entriesOf id) (by rw [hlength, hsplit, List.drop_left])
  · have hplaced := hplacing'.orders id order (by rw [hledger]; exact horder)
    rwa [Link.placed, hrequests] at hplaced
  · exact Ledger.absorbAll_keepsOrders _ _
  · have haccepted' : link'.Accepted (handled ++ []) id := haccepted.mono (by
      rw [hrequests, List.append_nil]) []
    rw [List.append_nil] at haccepted'
    have hpresent := haccepted'.present hplacing' hmatched'
    rwa [hledger] at hpresent

end Link.Matched

end ExchangeLab

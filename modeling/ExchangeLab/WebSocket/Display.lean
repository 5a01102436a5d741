import ExchangeLab.Server.Level3
import ExchangeLab.Server.Feed
import ExchangeLab.Server.Serial
import ExchangeLab.WebSocket.Broadcast

/-!
# ExchangeLab.WebSocket.Display

From the core to the dashboard, byte by byte: datagrams, JSON texts, WebSocket frames and back.

* `Emission.Encodable`: what the handlers broadcast is accepted by the decoders.
* `dashboard_displays`: a dashboard that was there from the start shows the books of the core once
  the gateway has passed on all the datagrams.
-/

namespace ExchangeLab

open Wire Protocol OrderBook MatchingEngine Container ExchangeServer Transition

/-! ## What the handlers broadcast -/

/-- The decoders accept the body. -/
def Emission.Encodable : Emission → Prop
  | .bookUpdate snapshot => isValidSymbol snapshot.symbol = true
  | .level3AddOrder event => event.Valid
  | .level3OrderExecuted event => event.Valid
  | .level3OrderDeleted event => event.Valid
  | _ => True

theorem Trading.quantity_ne {s : Side} {o o' : Order} {R R' : Resting} {ts : List Trade}
    (h : Trading s o R ts o' R') : ∀ trade ∈ ts, trade.quantity ≠ 0 := by
  induction h with
  | stop => exact fun trade hmem => by cases hmem
  | @step o o' r R R' q ts hr hside hpos hin hres rest ih =>
    intro trade hmem
    rcases List.mem_cons.mp hmem with rfl | hmem
    · rw [show (tradeWith s o r.id r.price q).quantity = q by cases s <;> rfl]
      exact UInt32.pos_iff_ne_zero.mp hpos
    · exact ih trade hmem

namespace ExchangeServer

/-- The Level-3 events of a settled command. -/
def Settled.level3 (settled : Settled) : List Emission :=
  settled.executions.map .level3OrderExecuted ++ settled.deletions.map .level3OrderDeleted ++
    settled.added.toList.map .level3AddOrder

theorem newOrderEmissions_eq (socket : Socket) (orderId : OrderId) (settled : Settled)
    (snapshot : BookSnapshot) : newOrderEmissions socket orderId settled snapshot =
      ([.orderResponse socket orderId true .orderAccepted] ++ executionDeliveries settled.deliveries) ++
        .bookUpdate snapshot :: settled.level3 := by
  simp only [newOrderEmissions, Settled.level3, List.append_assoc, List.cons_append, List.nil_append]

theorem replaceOrderEmissions_eq (socket : Socket) (orderId : OrderId) (symbol : Symbol)
    (settled : Settled) (snapshot : BookSnapshot) :
    replaceOrderEmissions socket orderId symbol settled snapshot =
      ([.orderResponse socket orderId true .orderReplaced] ++ executionDeliveries settled.deliveries) ++
        .bookUpdate snapshot :: .level3OrderDeleted ⟨orderId, 0, symbol⟩ :: settled.level3 := by
  simp only [replaceOrderEmissions, Settled.level3, List.append_assoc, List.cons_append,
    List.nil_append]

/-- Every message is the frame of its emission. -/
theorem emitAll_message (emissions : List Emission) (server : ExchangeServer) :
    ∀ sent ∈ (emitAll emissions server).2,
      sent.message = sent.emission.message (UInt64.ofNat sent.sequenceNumber) := by
  induction emissions generalizing server with
  | nil => exact fun sent hsent => absurd hsent List.not_mem_nil
  | cons emission emissions ih =>
    intro sent hsent
    rw [emitAll_cons] at hsent
    rcases List.mem_append.mp hsent with hsent | hsent
    · unfold emit at hsent
      split at hsent
      · cases hsent
      · rw [List.mem_singleton.mp hsent]
    · exact ih _ sent hsent

section Frame

variable {order : SetOrder} {socket : Socket} {frame : Frame} {server server' : ExchangeServer}
  {emissions : List Emission} {accepted : Bytes → OrderId → Prop}

/-- The Level-3 events of a settled order. -/
theorem Settling.encodable {incoming : Incoming} {o o' : Order} {b b' : OrderBook} {ts : List Trade}
    {orderOwners : Finmap fun _ : OrderId => OrderOwner}
    (h : Settling incoming o b ts o' b' orderOwners) (order : SetOrder) (risk : RiskEngine)
    (hsymbol : isValidSymbol incoming.symbol = true) :
    ∀ emission ∈ (settle order incoming ts ⟨b', orderOwners⟩ risk).level3, emission.Encodable := by
  intro emission hmem
  simp only [Settled.level3, settle_executions, settle_deletions, settle_added, List.mem_append,
    List.mem_map, Option.mem_toList, Option.map_eq_some_iff] at hmem
  rcases hmem with (⟨_, ⟨trade, htrade, rfl⟩, rfl⟩ | ⟨_, ⟨id, -, rfl⟩, rfl⟩) | ⟨_, ⟨o, ho, rfl⟩, rfl⟩
  · exact ⟨hsymbol, toUInt64_ne_zero (h.trading.quantity_ne trade htrade)⟩
  · exact hsymbol
  · have hfind := h.processed.findOrder_incoming h.absent h.consistent
    rw [h.id_eq, show b'.findOrder incoming.orderId = some o from ho] at hfind
    split at hfind
    · rename_i hrests
      cases hfind
      refine ⟨hsymbol, toUInt64_ne_zero (UInt32.pos_iff_ne_zero.mp hrests.1), ?_⟩
      show (if o'.side = .buy then Protocol.Side.buy else Protocol.Side.sell) = .buy ∨
        (if o'.side = .buy then Protocol.Side.buy else Protocol.Side.sell) = .sell
      split
      · exact .inl rfl
      · exact .inr rfl
    · cases hfind

theorem encodable_private {orderId : OrderId} {type : MessageType}
    {deliveries : List ExecutionDelivery} :
    ∀ emission ∈ [Emission.orderResponse socket orderId true type] ++ executionDeliveries deliveries,
      emission.Encodable := by
  intro emission hmem
  rcases List.mem_append.mp hmem with hmem | hmem
  · rw [List.mem_singleton.mp hmem]
    trivial
  · obtain ⟨delivery, -, hmem⟩ := List.mem_flatMap.mp hmem
    rcases List.mem_pair.mp hmem with rfl | rfl <;> trivial

theorem encodable_update {symbol : Symbol} {book : OrderBook} {snapshot : BookSnapshot}
    (h : captureBookSnapshot symbol book = .ok snapshot) (hsymbol : isValidSymbol symbol = true) :
    (Emission.bookUpdate snapshot).Encodable := by
  rw [Emission.Encodable, snapshot_symbol h]
  exact hsymbol

theorem Handled.encodable (h : Handled order socket frame server server' emissions)
    (hs : Sessions server) (hopen : socket ∈ server.clientSockets) (hbooks : server.BooksConsistent)
    (howned : ∀ x, Owned (accepted x) server.riskEngine x (server.instrumentFor x)) :
    ∀ emission ∈ emissions, emission.Encodable := by
  cases h with
  | ignored => exact fun emission hmem => by cases hmem
  | rejected | turnedAway =>
    intro emission hmem
    rw [List.mem_singleton.mp hmem]
    trivial
  | @placed request trades book snapshot h =>
    obtain ⟨o', hsettling⟩ := h.settling hs hopen hbooks (howned _)
    have hsymbol := (decodeNewOrder_valid h.decoded).symbol
    intro emission hmem
    rw [newOrderEmissions_eq, List.mem_append, List.mem_cons] at hmem
    rcases hmem with hmem | rfl | hmem
    · exact encodable_private emission hmem
    · exact encodable_update h.captured hsymbol
    · exact hsettling.encodable order server.riskEngine hsymbol emission hmem
  | @cancelled request instrument book snapshot h =>
    have hsymbol := decodeCancelOrder_valid h.decoded
    intro emission hmem
    simp only [List.mem_cons, List.not_mem_nil, or_false] at hmem
    rcases hmem with rfl | rfl | rfl
    · trivial
    · exact encodable_update h.captured hsymbol
    · exact hsymbol
  | @replaced request instrument trades book snapshot h =>
    have hox := howned (symbolToString request.symbol)
    rw [instrumentFor_of_found h.found] at hox
    obtain ⟨_, _, _, _, _, _, _, _, _, _, hsettling⟩ := h.settling hs hopen hbooks hox
    have hsymbol := (decodeReplaceOrder_valid h.decoded).2
    intro emission hmem
    rw [replaceOrderEmissions_eq, List.mem_append, List.mem_cons, List.mem_cons] at hmem
    rcases hmem with hmem | rfl | rfl | hmem
    · exact encodable_private emission hmem
    · exact encodable_update h.captured hsymbol
    · exact hsymbol
    · exact hsettling.encodable order _ hsymbol emission hmem

end Frame

/-- What a run has sent are the frames of bodies that the decoders accept. -/
theorem sent_encodable {limits : RiskLimits} {file : Option (Option Bytes)} {log : List Event}
    {server₀ server : ExchangeServer} (hstart : start limits file = some server₀)
    (hrun : Run Step server₀ log server) :
    ∀ sent ∈ log.flatMap Event.sent, sent.emission.Encodable ∧
      sent.message = sent.emission.message (UInt64.ofNat sent.sequenceNumber) := by
  refine (hrun.history (P := fun log server => Ownership log server ∧
    ∀ sent ∈ log.flatMap Event.sent, sent.emission.Encodable ∧
      sent.message = sent.emission.message (UInt64.ofNat sent.sequenceNumber))
    ⟨start_ownership hstart, fun sent hsent => by cases hsent⟩ ?_).2
  intro log server event server' _ ⟨hown, hbefore⟩ hstep
  refine ⟨hstep.ownership hown, ?_⟩
  rw [List.flatMap_append, List.flatMap_singleton]
  intro sent hmem
  rcases List.mem_append.mp hmem with hmem | hmem
  · exact hbefore sent hmem
  · cases hstep with
    | connect | disconnect | setGlobalKillSwitch => cases hmem
    | @frame server₁ socket frame emissions order hopen hhandle =>
      have hhandled := handleMessage_cases hown.books hhandle
      exact ⟨hhandled.encodable hown.sessions hopen hown.books hown.owned _ (mem_emitAll hmem).1,
        emitAll_message emissions server₁ sent hmem⟩

end ExchangeServer

/-! ## What a datagram says -/

namespace Dashboard

theorem broadcastIn_frame {type : MessageType} {body : Bytes} {sequence : UInt64}
    (h : body.length < UInt32.size) :
    broadcastIn (encodeHeader ⟨protocolMagic, protocolVersion, type, UInt32.ofNat body.length,
      sequence⟩ ++ body) = messageOfBody type body := by
  have hsize := length_encodeHeader
    ⟨protocolMagic, protocolVersion, type, UInt32.ofNat body.length, sequence⟩
  rw [broadcastIn, ← hsize, List.take_left, List.drop_left, decodeHeader_encodeHeader rfl rfl]
  exact if_pos (by rw [List.length_append, UInt32.toNat_ofNat_of_lt' h])

/-- The dashboard's message of a broadcast is in its datagram, with the low 64 bits of the sequence
number. -/
theorem broadcastIn_message {emission : Emission} (hbroadcast : emission.addressee = none)
    (h : emission.Encodable) (sequence : UInt64) :
    broadcastIn (emission.message sequence) = marketData ⟨sequence.toNat, emission, [], []⟩ := by
  have hframe := fun hlength => @broadcastIn_frame emission.type (emission.body sequence) sequence
    hlength
  rw [Emission.message]
  cases emission with
  | orderResponse | tradeExecution => cases hbroadcast
  | bookUpdate snapshot =>
    rw [hframe (by rw [Emission.body, length_encodeBookUpdate]; decide)]
    obtain ⟨symbol, hasBid, bestBid, bidQuantity, hasAsk, bestAsk, askQuantity⟩ := snapshot
    change (decodeBookUpdate (Emission.body sequence _)).map bookMessage = _
    rw [Emission.body, bookUpdate_exact.accepts]
    · cases hasBid <;> cases hasAsk <;> simp [bookMessage, marketData]
    · have hone : (1 : UInt8) ≠ 0 := by decide
      refine ⟨?_, ?_, ?_, ?_, h⟩
      · cases hasBid
        · exact .inl rfl
        · exact .inr rfl
      · cases hasAsk
        · exact .inl rfl
        · exact .inr rfl
      · cases hasBid
        · exact fun _ => ⟨rfl, rfl⟩
        · exact fun hzero => absurd hzero hone
      · cases hasAsk
        · exact fun _ => ⟨rfl, rfl⟩
        · exact fun hzero => absurd hzero hone
  | level3AddOrder event =>
    rw [hframe (by rw [Emission.body, length_encodeLevel3AddOrder]; decide)]
    change (decodeLevel3AddOrder (Emission.body sequence _)).map addMessage = _
    rw [Emission.body, level3AddOrder_exact.accepts]
    · rfl
    · exact h
  | level3OrderExecuted event =>
    rw [hframe (by rw [Emission.body, length_encodeLevel3OrderExecuted]; decide)]
    change (decodeLevel3OrderExecuted (Emission.body sequence _)).map executeMessage = _
    rw [Emission.body, level3OrderExecuted_exact.accepts]
    · rfl
    · exact h
  | level3OrderDeleted event =>
    rw [hframe (by rw [Emission.body, length_encodeLevel3OrderDeleted]; decide)]
    change (decodeLevel3OrderDeleted (Emission.body sequence _)).map deleteMessage = _
    rw [Emission.body, level3OrderDeleted_exact.accepts]
    · rfl
    · exact h

end Dashboard

/-! ## The top of the book -/

/-- The best price of a side and the quantity there, as the dashboard keeps them. -/
def OrderBook.shownTop (book : OrderBook) (s : Side) : Option Dashboard.TopOfBook :=
  (book.levels s).first?.map fun (price, level) => ⟨price, level.totalQuantity.toNat⟩

def OrderBook.shownTops (book : OrderBook) : Option Dashboard.TopOfBook × Option Dashboard.TopOfBook :=
  (book.shownTop .buy, book.shownTop .sell)

def Dashboard.InstrumentView.tops (view : Dashboard.InstrumentView) :
    Option Dashboard.TopOfBook × Option Dashboard.TopOfBook := (view.bestBid, view.bestAsk)

namespace ExchangeServer

theorem topOfBook_shown {book : OrderBook} {s : Side} {has : Bool} {price : Price}
    {quantity : Quantity} (h : topOfBook book s = .ok (has, price, quantity)) :
    book.shownTop s = if has then some ⟨price, quantity.toNat⟩ else none := by
  rw [topOfBook, hasLevels, OrderedMap.isEmpty] at h
  rw [OrderBook.shownTop, OrderedMap.first?]
  rw [OrderBook.bestPrice, OrderBook.bestLevel, OrderedMap.first?] at h
  cases hentries : (book.levels s).entries with
  | nil =>
    rw [hentries] at h
    cases h
    rfl
  | cons entry entries =>
    rw [hentries] at h
    cases h
    rfl

/-- The tops in a snapshot. -/
def tops (snapshot : BookSnapshot) : Option Dashboard.TopOfBook × Option Dashboard.TopOfBook :=
  (if snapshot.hasBid then some ⟨snapshot.bestBid, snapshot.bidQuantity.toNat⟩ else none,
    if snapshot.hasAsk then some ⟨snapshot.bestAsk, snapshot.askQuantity.toNat⟩ else none)

theorem tops_captured {symbol : Symbol} {book : OrderBook} {snapshot : BookSnapshot}
    (h : captureBookSnapshot symbol book = .ok snapshot) : tops snapshot = book.shownTops := by
  simp only [captureBookSnapshot, bind_eq_ok, pure_eq_ok] at h
  obtain ⟨⟨hasBid, bestBid, bidQuantity⟩, hbid, ⟨hasAsk, bestAsk, askQuantity⟩, hask, rfl⟩ := h
  rw [OrderBook.shownTops, topOfBook_shown hbid, topOfBook_shown hask]
  rfl

/-- What an emission does to the tops shown of symbol `x`. -/
def showTops (x : Bytes) (shown : Option Dashboard.TopOfBook × Option Dashboard.TopOfBook) :
    Emission → Option Dashboard.TopOfBook × Option Dashboard.TopOfBook
  | .bookUpdate snapshot => if symbolToString snapshot.symbol = x then tops snapshot else shown
  | _ => shown

section Tops

variable {x : Bytes} {shown : Option Dashboard.TopOfBook × Option Dashboard.TopOfBook}

theorem instrument_onMessage (instruments : Dashboard.Instruments) (message : Dashboard.MarketMessage)
    (x : Bytes) : Dashboard.instrument (Dashboard.onMessage instruments message) x =
      if message.symbol = x then (Dashboard.instrument instruments x).onMessage message
      else Dashboard.instrument instruments x := by
  rw [Dashboard.instrument, Dashboard.onMessage, lookup_insert_eq]
  by_cases hx : x = message.symbol
  · rw [if_pos hx, if_pos hx.symm, hx, Option.getD_some]
  · rw [if_neg hx, if_neg (Ne.symm hx)]
    rfl

theorem tops_sent (instruments : Dashboard.Instruments) (sent : Sent) (x : Bytes) :
    (Dashboard.instrument ((Dashboard.marketData sent).toList.foldl Dashboard.onMessage instruments)
      x).tops = showTops x (Dashboard.instrument instruments x).tops sent.emission := by
  unfold Dashboard.marketData
  cases sent.emission with
  | orderResponse | tradeExecution => rfl
  | bookUpdate snapshot =>
    simp only [Option.toList_some, List.foldl_cons, List.foldl_nil, showTops]
    rw [instrument_onMessage, Dashboard.MarketMessage.symbol]
    split
    · obtain ⟨symbol, hasBid, bestBid, bidQuantity, hasAsk, bestAsk, askQuantity⟩ := snapshot
      cases hasBid <;> cases hasAsk <;> rfl
    · rfl
  | level3AddOrder | level3OrderExecuted | level3OrderDeleted =>
    simp only [Option.toList_some, List.foldl_cons, List.foldl_nil]
    rw [instrument_onMessage, apply_ite Dashboard.InstrumentView.tops]
    exact ite_self _

theorem tops_feed (feed : List Sent) (instruments : Dashboard.Instruments) (x : Bytes) :
    (Dashboard.instrument ((feed.filterMap Dashboard.marketData).foldl Dashboard.onMessage
      instruments) x).tops =
      (feed.map Sent.emission).foldl (showTops x) (Dashboard.instrument instruments x).tops := by
  induction feed generalizing instruments with
  | nil => rfl
  | cons sent feed ih =>
    have hcons : (sent :: feed).filterMap Dashboard.marketData =
        (Dashboard.marketData sent).toList ++ feed.filterMap Dashboard.marketData := by
      rw [List.filterMap_cons]
      cases Dashboard.marketData sent <;> rfl
    rw [hcons, List.foldl_append, ih, tops_sent, List.map_cons, List.foldl_cons]

/-- Only book updates change the tops. -/
theorem tops_quiet {emissions : List Emission}
    (h : ∀ emission ∈ emissions, ∀ snapshot, emission ≠ .bookUpdate snapshot) :
    emissions.foldl (showTops x) shown = shown := by
  induction emissions with
  | nil => rfl
  | cons emission emissions ih =>
    have hsame : showTops x shown emission = shown := by
      cases emission with
      | bookUpdate snapshot => exact absurd rfl (h _ List.mem_cons_self snapshot)
      | _ => rfl
    rw [List.foldl_cons, hsame]
    exact ih fun later hlater => h later (List.mem_cons_of_mem _ hlater)

/-- Executions without an address are no book updates. -/
theorem tops_addressed (emissions : List Emission) :
    (emissions.filter fun e => !e.unaddressed).foldl (showTops x) shown =
      emissions.foldl (showTops x) shown := by
  induction emissions generalizing shown with
  | nil => rfl
  | cons emission emissions ih =>
    rw [List.filter_cons]
    split
    · rw [List.foldl_cons, List.foldl_cons, ih]
    · rename_i hunaddressed
      have hsame : showTops x shown emission = shown := by
        cases emission <;> first | rfl | simp [Emission.unaddressed] at hunaddressed
      rw [List.foldl_cons, ih, hsame]

/-- The one book update among what a command sends. -/
theorem tops_update {before after : List Emission} {snapshot : BookSnapshot}
    (hbefore : ∀ emission ∈ before, ∀ snapshot, emission ≠ .bookUpdate snapshot)
    (hafter : ∀ emission ∈ after, ∀ snapshot, emission ≠ .bookUpdate snapshot) :
    (before ++ .bookUpdate snapshot :: after).foldl (showTops x) shown =
      if symbolToString snapshot.symbol = x then tops snapshot else shown := by
  rw [List.foldl_append, List.foldl_cons, tops_quiet hbefore, tops_quiet hafter]
  rfl

theorem not_update_private {socket : Socket} {orderId : OrderId} {type : MessageType}
    {deliveries : List ExecutionDelivery} :
    ∀ emission ∈ [Emission.orderResponse socket orderId true type] ++ executionDeliveries deliveries,
      ∀ snapshot, emission ≠ .bookUpdate snapshot := by
  intro emission hmem snapshot
  rcases List.mem_append.mp hmem with hmem | hmem
  · rw [List.mem_singleton.mp hmem]
    exact nofun
  · obtain ⟨delivery, -, hmem⟩ := List.mem_flatMap.mp hmem
    rcases List.mem_pair.mp hmem with rfl | rfl <;> exact nofun

theorem not_update_settled (settled : Settled) :
    ∀ emission ∈ settled.level3, ∀ snapshot, emission ≠ .bookUpdate snapshot := by
  intro emission hmem snapshot
  simp only [Settled.level3, List.mem_append, List.mem_map] at hmem
  rcases hmem with (⟨_, -, rfl⟩ | ⟨_, -, rfl⟩) | ⟨_, -, rfl⟩ <;> exact nofun

variable {order : SetOrder} {socket : Socket} {frame : Frame} {server server' : ExchangeServer}
  {emissions : List Emission}

/-- A command that changes a book publishes its top. -/
theorem Handled.tops (h : Handled order socket frame server server' emissions)
    (hshown : shown = (server.instrumentFor x).book.shownTops) :
    emissions.foldl (showTops x) shown = (server'.instrumentFor x).book.shownTops := by
  cases h with
  | ignored => exact hshown
  | rejected => exact hshown
  | @turnedAway _ symbol =>
    rw [instrumentFor_made]
    exact hshown
  | @placed request trades book snapshot h =>
    rw [instrumentFor_insert rfl, newOrderEmissions_eq,
      tops_update not_update_private (not_update_settled _), snapshot_symbol h.captured,
      tops_captured h.captured]
    by_cases hx : x = symbolToString request.symbol
    · rw [if_pos hx.symm, if_pos hx, placedSettled, settle_book]
    · rw [if_neg (Ne.symm hx), if_neg hx]
      exact hshown
  | @cancelled request instrument book snapshot h =>
    have hother : ∀ emission ∈ [Emission.orderResponse socket request.orderId true .orderCancelled] ++
        [.level3OrderDeleted ⟨request.orderId, 0, request.symbol⟩],
        ∀ snapshot, emission ≠ .bookUpdate snapshot := by simp
    have hupdate := @tops_update x shown [.orderResponse socket request.orderId true .orderCancelled]
      [.level3OrderDeleted ⟨request.orderId, 0, request.symbol⟩] snapshot
      (fun emission hmem => hother emission (List.mem_append_left _ hmem))
      (fun emission hmem => hother emission (List.mem_append_right _ hmem))
    rw [List.singleton_append] at hupdate
    rw [instrumentFor_insert rfl, hupdate, snapshot_symbol h.captured, tops_captured h.captured]
    by_cases hx : x = symbolToString request.symbol
    · rw [if_pos hx.symm, if_pos hx]
    · rw [if_neg (Ne.symm hx), if_neg hx]
      exact hshown
  | @replaced request instrument trades book snapshot h =>
    rw [instrumentFor_insert rfl, replaceOrderEmissions_eq, tops_update not_update_private,
      snapshot_symbol h.captured, tops_captured h.captured]
    · by_cases hx : x = symbolToString request.symbol
      · rw [if_pos hx.symm, if_pos hx, dropUnrested_book, replacedSettled, settle_book]
      · rw [if_neg (Ne.symm hx), if_neg hx]
        exact hshown
    · intro emission hmem
      rcases List.mem_cons.mp hmem with rfl | hmem
      · simp
      · exact not_update_settled _ emission hmem

end Tops

theorem Step.tops {log : List Event} {event : Event} {server server' : ExchangeServer}
    (hown : Ownership log server) (hstep : Step server event server') {feed : List Sent} {x : Bytes}
    (h : (Dashboard.instrument (Dashboard.subscribe feed) x).tops =
      (server.instrumentFor x).book.shownTops) :
    (Dashboard.instrument (Dashboard.subscribe (feed ++ event.sent)) x).tops =
      (server'.instrumentFor x).book.shownTops := by
  rw [subscribe_append, tops_feed]
  cases hstep with
  | connect | disconnect | setGlobalKillSwitch => exact h
  | @frame server₁ socket frame emissions order hopen hhandle =>
    obtain ⟨n, -, hstate⟩ := emitAll_state emissions server₁
    rw [emitAll_emissions, tops_addressed, hstate]
    exact (handleMessage_cases hown.books hhandle).tops h

theorem tops_run {limits : RiskLimits} {file : Option (Option Bytes)} {log : List Event}
    {server₀ server : ExchangeServer} {x : Bytes} (hstart : start limits file = some server₀)
    (hempty : (server₀.instrumentFor x).book.shownTops = (none, none))
    (hrun : Run Step server₀ log server) :
    (Dashboard.instrument (Dashboard.subscribe (log.flatMap Event.sent)) x).tops =
      (server.instrumentFor x).book.shownTops := by
  refine (hrun.history (P := fun log server => Ownership log server ∧
    (Dashboard.instrument (Dashboard.subscribe (log.flatMap Event.sent)) x).tops =
      (server.instrumentFor x).book.shownTops) ⟨start_ownership hstart, hempty.symm⟩ ?_).2
  intro log server event server' _ ⟨hown, hshown⟩ hstep
  refine ⟨hstep.ownership hown, ?_⟩
  rw [List.flatMap_append, List.flatMap_singleton]
  exact hstep.tops hown hshown

end ExchangeServer

/-! ## Through the gateway -/

namespace WebSocketGateway

/-- What `multicast_loop` has received. -/
def Label.datagram? : Label → Option Bytes
  | .receive .multicast datagram => some datagram
  | _ => none

def datagrams (labels : List Label) : List Bytes := labels.filterMap Label.datagram?

/-- The text that a loop has still to send. -/
def Broadcasting.waiting? : Broadcasting → Option Text
  | .waiting text => some text
  | _ => none

def messageOfText (text : Text) : Option Dashboard.MarketMessage := Dashboard.messageOf text.bytes

/-- No telemetry is market data. -/
def TelemetryApart (labels : List Label) : Prop :=
  ∀ datagram, .receive .performance datagram ∈ labels → Dashboard.messageOf datagram = none

/-- The texts say what the datagrams say, in their order. -/
structure Relayed (labels : List Label) (gateway : WebSocketGateway) : Prop where
  multicast : (texts labels).filterMap messageOfText ++
      (gateway.broadcasting .multicast).waiting?.toList.filterMap messageOfText =
    (datagrams labels).filterMap Dashboard.broadcastIn
  performance : ∀ text, (gateway.broadcasting .performance).waiting? = some text →
    messageOfText text = none

section Relay

variable {labels : List Label} {label : Label} {gateway gateway' : WebSocketGateway}

theorem texts_snoc (labels : List Label) (label : Label) :
    texts (labels ++ [label]) = texts labels ++ label.broadcast?.toList := by
  rw [texts, List.filterMap_append, List.filterMap_cons]
  cases label.broadcast? <;> rfl

theorem datagrams_snoc (labels : List Label) (label : Label) :
    datagrams (labels ++ [label]) = datagrams labels ++ label.datagram?.toList := by
  rw [datagrams, List.filterMap_append, List.filterMap_cons]
  cases label.datagram? <;> rfl

/-- A step with which no loop comes to the lock or gets it. -/
theorem Relayed.quiet (h : Relayed labels gateway) (hlabel : label.broadcast? = none)
    (hdatagram : label.datagram? = none)
    (hwaiting : ∀ broadcaster, (gateway'.broadcasting broadcaster).waiting? =
      (gateway.broadcasting broadcaster).waiting?) : Relayed (labels ++ [label]) gateway' := by
  refine ⟨?_, fun text htext => h.performance text ((hwaiting _).symm.trans htext)⟩
  simp only [texts_snoc, datagrams_snoc, hlabel, hdatagram, hwaiting, Option.toList_none,
    List.append_nil]
  exact h.multicast

/-- A loop that sends does not wait. -/
theorem waiting_setBroadcasting {broadcaster : Broadcaster} {state : Broadcasting}
    (hbefore : (gateway.broadcasting broadcaster).waiting? = none) (hafter : state.waiting? = none)
    (other : Broadcaster) : ((setBroadcasting broadcaster state gateway).broadcasting other).waiting? =
      (gateway.broadcasting other).waiting? := by
  by_cases hother : other = broadcaster
  · rw [hother, setBroadcasting_self, hbefore, hafter]
  · rw [setBroadcasting_other hother]

theorem Relayed.receive (h : Relayed labels gateway) {broadcaster : Broadcaster} {datagram : Bytes}
    {text : Text} (hapart : TelemetryApart (labels ++ [.receive broadcaster datagram]))
    (hreceiving : gateway.broadcasting broadcaster = .receiving)
    (htext : text.bytes = broadcaster.textOf datagram) :
    Relayed (labels ++ [.receive broadcaster datagram])
      (if text.bytes = [] then gateway else setBroadcasting broadcaster (.waiting text) gateway) := by
  have hnone : (gateway.broadcasting broadcaster).waiting? = none := by rw [hreceiving]; rfl
  cases broadcaster with
  | multicast =>
    have hmessage : messageOfText text = Dashboard.broadcastIn datagram := by
      rw [messageOfText, htext]
      exact Dashboard.messageOf_marketDataToJson datagram
    have hsame := h.multicast
    rw [hnone, Option.toList_none, List.filterMap_nil, List.append_nil] at hsame
    split
    · rename_i hnil
      have hquiet : Dashboard.broadcastIn datagram = none := by
        rw [← hmessage, messageOfText, hnil]
        rfl
      refine ⟨?_, h.performance⟩
      rw [texts_snoc, datagrams_snoc, hnone]
      simp [Label.broadcast?, Label.datagram?, hsame, hquiet]
    · refine ⟨?_, h.performance⟩
      rw [texts_snoc, datagrams_snoc, setBroadcasting_self]
      simp [Label.broadcast?, Label.datagram?, hsame, Broadcasting.waiting?, List.filterMap_cons,
        hmessage]
  | performance =>
    split
    · exact h.quiet rfl rfl fun _ => rfl
    · rename_i hne
      refine ⟨?_, fun other hother => ?_⟩
      · rw [texts_snoc, datagrams_snoc, setBroadcasting_other (by decide)]
        simpa [Label.broadcast?, Label.datagram?] using h.multicast
      · rw [setBroadcasting_self] at hother
        cases hother
        have hbytes : text.bytes = datagram := by
          rw [Broadcaster.textOf] at htext
          split at htext
          · exact htext
          · exact absurd htext hne
        rw [messageOfText, hbytes]
        exact hapart datagram (List.mem_append_right _ (List.mem_singleton_self _))

theorem Relayed.lock (h : Relayed labels gateway) {broadcaster : Broadcaster} {text : Text}
    {state : Broadcasting} (hwaiting : gateway.broadcasting broadcaster = .waiting text)
    (hstate : state.waiting? = none) :
    Relayed (labels ++ [.lock broadcaster text])
      (setBroadcasting broadcaster state { gateway with holder := some broadcaster }) := by
  cases broadcaster with
  | multicast =>
    have hsame := h.multicast
    rw [hwaiting] at hsame
    refine ⟨?_, h.performance⟩
    rw [texts_snoc, datagrams_snoc, setBroadcasting_self, hstate]
    simpa [Label.broadcast?, Label.datagram?, Broadcasting.waiting?] using hsame
  | performance =>
    have htext : messageOfText text = none := h.performance text (by rw [hwaiting]; rfl)
    refine ⟨?_, fun other hother => ?_⟩
    · rw [texts_snoc, datagrams_snoc, setBroadcasting_other (by decide)]
      simpa [Label.broadcast?, Label.datagram?, htext] using h.multicast
    · rw [setBroadcasting_self, hstate] at hother
      cases hother

theorem Relayed.step (h : Relayed labels gateway) (hapart : TelemetryApart (labels ++ [label]))
    (hstep : Step gateway label gateway') : Relayed (labels ++ [label]) gateway' := by
  cases hstep with
  | answer | sendAnswer | dropAnswer | join => exact h.quiet rfl rfl fun _ => rfl
  | receive hreceiving hdatagram hsize htext => exact h.receive hapart hreceiving htext
  | lock hwaiting hunlocked => exact h.lock hwaiting rfl
  | send hsending | next hsending | drop hsending | unlock hsending =>
    refine h.quiet rfl rfl (waiting_setBroadcasting ?_ rfl)
    exact congrArg Broadcasting.waiting? hsending

theorem relayed_run (hrun : Run Step {} labels gateway) (hapart : TelemetryApart labels) :
    Relayed labels gateway := by
  refine hrun.history (P := fun labels gateway => TelemetryApart labels → Relayed labels gateway)
    (fun _ => ⟨rfl, fun _ htext => by cases htext⟩) ?_ hapart
  intro labels gateway label gateway' _ h hstep hapart
  exact (h fun datagram hmem => hapart datagram (List.mem_append_left _ hmem)).step hapart hstep

end Relay

end WebSocketGateway

open WebSocketGateway

/-- What a dashboard shows that has read these bytes behind the answer to its handshake. -/
def Dashboard.displayed (stream : Bytes) : Dashboard.Instruments :=
  ((receiveFrames stream).1.filterMap fun frame => Dashboard.messageOf frame.payload).foldl
    Dashboard.onMessage ∅

/-- The broadcasts among what a server has sent. -/
def broadcastsOf (feed : List Sent) : List Sent :=
  feed.filter fun sent => sent.emission.addressee.isNone

/-- A message with the sequence number that its frame has room for. -/
def Sent.numbered (sent : Sent) : Sent :=
  ⟨(UInt64.ofNat sent.sequenceNumber).toNat, sent.emission, [], []⟩

theorem marketData_broadcasts {feed : List Sent}
    (h : ∀ sent ∈ feed, sent.emission.Encodable ∧
      sent.message = sent.emission.message (UInt64.ofNat sent.sequenceNumber)) :
    ((broadcastsOf feed).map Sent.message).filterMap Dashboard.broadcastIn =
      (feed.map Sent.numbered).filterMap Dashboard.marketData := by
  induction feed with
  | nil => rfl
  | cons sent feed ih =>
    obtain ⟨hencodable, hmessage⟩ := h sent List.mem_cons_self
    have ih := ih fun later hlater => h later (List.mem_cons_of_mem _ hlater)
    rw [List.map_cons, List.filterMap_cons, broadcastsOf, List.filter_cons, ← broadcastsOf]
    split
    · rename_i hbroadcast
      have hsaid := Dashboard.broadcastIn_message (Option.isNone_iff_eq_none.mp hbroadcast) hencodable
        (UInt64.ofNat sent.sequenceNumber)
      rw [List.map_cons, List.filterMap_cons, hmessage, hsaid, ih]
      rfl
    · rename_i hprivate
      have hnone : Dashboard.marketData sent.numbered = none := by
        rw [Dashboard.marketData, Sent.numbered]
        cases hemission : sent.emission with
        | orderResponse | tradeExecution => rfl
        | _ => exact absurd (by rw [hemission]; rfl) hprivate
      rw [hnone]
      exact ih

theorem emission_numbered (feed : List Sent) :
    (feed.map Sent.numbered).map Sent.emission = feed.map Sent.emission := by
  rw [List.map_map]
  rfl

theorem shownTops_empty {book : OrderBook} (hc : Consistent book)
    (hempty : ∀ id, book.findOrder id = none) : book.shownTops = (none, none) := by
  have htop : ∀ s, book.shownTop s = none := by
    intro s
    have hnone : book.nodes s = [] := by
      rw [List.eq_nil_iff_forall_not_mem]
      intro n hn
      have hfound := hc.findOrder_node (mem_allNodes_of hn)
      rw [hempty] at hfound
      cases hfound
    have hentries := (queued_eq_nil (hc.levelsOk s)).mp hnone
    rw [OrderBook.shownTop, OrderedMap.first?, hentries]
    rfl
  rw [OrderBook.shownTops, htop, htop]

/-- At each side and price of each symbol a dashboard shows the queue of the book, and the best bid
and ask of it. -/
def Dashboard.Shows (instruments : Dashboard.Instruments) (server : ExchangeServer) : Prop :=
  ∀ x, let view := Dashboard.instrument instruments x
    let book := (server.instrumentFor x).book
    (∀ s p, view.orders.filter (fun e => e.side = s ∧ e.price = p) =
      (book.queueAt s p).map Order.shown) ∧
    view.bestBid = book.shownTop .buy ∧ view.bestAsk = book.shownTop .sell

/-- With frames handled in one step. -/
theorem displays_sent {limits : RiskLimits} {file : Option (Option Bytes)} {log : List Event}
    {server₀ server : ExchangeServer} {labels : List Label} {gateway : WebSocketGateway}
    {socket : Socket} (hstart : start limits file = some server₀)
    (hempty : ∀ x id, (server₀.instrumentFor x).book.findOrder id = none)
    (hrun : Run ExchangeServer.Step server₀ log server)
    (hgateway : Run WebSocketGateway.Step {} labels gateway)
    (harrived : datagrams labels = (broadcastsOf (log.flatMap Event.sent)).map Sent.message)
    (htelemetry : TelemetryApart labels) (hclient : socket ∈ gateway.clients)
    (hheard : heard socket labels = texts labels)
    (hpassed : gateway.broadcasting .multicast = .receiving) (hfree : gateway.holder = none) :
    ∃ received, gateway.streams socket = some (answered socket labels ++ received) ∧
      Dashboard.Shows (Dashboard.displayed received) server := by
  obtain ⟨received, hstream, hwhole⟩ := (delivering_run hgateway).hears socket hclient
  refine ⟨received, hstream, fun x => ?_⟩
  rw [pending_free hfree, List.append_nil, hheard] at hwhole
  have hrelayed := (relayed_run hgateway htelemetry).multicast
  rw [hpassed, harrived, marketData_broadcasts (sent_encodable hstart hrun)] at hrelayed
  have hdisplayed : Dashboard.displayed received = (((log.flatMap Event.sent).map
      Sent.numbered).filterMap Dashboard.marketData).foldl Dashboard.onMessage ∅ := by
    rw [Dashboard.displayed, hwhole, websocket_texts_decodable, List.filterMap_map, ← hrelayed]
    exact congrArg (List.foldl _ _) (List.append_nil _).symm
  have hc := (booksConsistent_run hstart hrun).instrumentFor x
  intro view book
  have horders : view.orders =
      (Dashboard.instrument (Dashboard.subscribe (log.flatMap Event.sent)) x).orders := by
    simp only [view]
    rw [hdisplayed, orders_feed, emission_numbered, Dashboard.subscribe, orders_feed]
  have htops : view.tops = book.shownTops := by
    rw [← tops_run hstart (shownTops_empty
      ((booksConsistent_run hstart (.nil _)).instrumentFor x) (hempty x)) hrun]
    simp only [view]
    rw [hdisplayed, tops_feed, emission_numbered, Dashboard.subscribe, tops_feed]
  refine ⟨fun s p => ?_, congrArg Prod.fst htops, congrArg Prod.snd htops⟩
  rw [horders]
  exact (shows_run hstart (hempty x) hrun).queueAt hc s p

/-- Messages that differ in whom they went to only. -/
theorem broadcasts_frames {feed feed' : List Sent} (h : feed.map Sent.frame = feed'.map Sent.frame) :
    (broadcastsOf feed).map Sent.message = (broadcastsOf feed').map Sent.message := by
  have hsame : ∀ feed : List Sent, (broadcastsOf feed).map Sent.message =
      ((feed.map Sent.frame).filter fun frame => frame.2.1.addressee.isNone).map fun frame =>
        frame.2.2 := by
    intro feed
    rw [List.filter_map, List.map_map]
    rfl
  rw [hsame, hsame, h]

/-- A dashboard that has been there from the start shows the books of the core, once all that the
core has broadcast has arrived at the gateway and is passed on. -/
theorem dashboard_displays {limits : RiskLimits} {file : Option (Option Bytes)}
    {commands : List Concurrent.Label} {server₀ : ExchangeServer} {core : Concurrent}
    {labels : List Label} {gateway : WebSocketGateway} {socket : Socket}
    (hstart : start limits file = some server₀)
    (hempty : ∀ x id, (server₀.instrumentFor x).book.findOrder id = none)
    (hrun : Run Concurrent.SerialStep ⟨server₀, fun _ => []⟩ commands core)
    (hfinished : ∀ session, core.sending session = [])
    (hgateway : Run WebSocketGateway.Step {} labels gateway)
    (harrived : datagrams labels =
      (broadcastsOf (Concurrent.feed commands)).map Sent.message)
    (htelemetry : TelemetryApart labels) (hclient : socket ∈ gateway.clients)
    (hheard : heard socket labels = texts labels)
    (hpassed : gateway.broadcasting .multicast = .receiving) (hfree : gateway.holder = none) :
    ∃ received, gateway.streams socket = some (answered socket labels ++ received) ∧
      Dashboard.Shows (Dashboard.displayed received) core.server := by
  obtain ⟨log, hsequential, hframes⟩ := Concurrent.serial_feed hrun hfinished
  exact displays_sent hstart hempty hsequential hgateway
    (harrived.trans (broadcasts_frames hframes)) htelemetry hclient hheard hpassed hfree

/-- The steps with which a datagram gets to the only client. -/
def relaying (socket : Socket) (datagram : Bytes) (text : Text) : List WebSocketGateway.Label :=
  [.receive .multicast datagram, .lock .multicast text, .send .multicast socket (websocketTextFrame text),
    .next .multicast socket, .unlock .multicast]

theorem relaying_run {labels : List Label} {gateway : WebSocketGateway} {socket : Socket}
    {datagram stream : Bytes} {text : Text} (hrun : Run WebSocketGateway.Step {} labels gateway)
    (hclients : gateway.clients = [socket]) (hreceiving : gateway.broadcasting .multicast = .receiving)
    (hfree : gateway.holder = none) (hstream : gateway.streams socket = some stream)
    (hdatagram : datagram ≠ []) (hsize : datagram.length ≤ 2048)
    (htext : text.bytes = marketDataToJson datagram) (hne : text.bytes ≠ []) :
    ∃ gateway', Run WebSocketGateway.Step {} (labels ++ relaying socket datagram text) gateway' ∧
      gateway'.clients = [socket] ∧ gateway'.broadcasting .multicast = .receiving ∧
      gateway'.holder = none ∧ gateway'.streams socket = some (stream ++ websocketTextFrame text) := by
  have hreceive := @Step.receive gateway .multicast datagram text hreceiving hdatagram hsize htext
  rw [if_neg hne] at hreceive
  have hlock := @Step.lock (setBroadcasting .multicast (.waiting text) gateway) .multicast text
    setBroadcasting_self hfree
  have hwhole : Broadcasting.sending text [] (websocketTextFrame text) gateway.clients =
      .sending text [] (websocketTextFrame text ++ []) [socket] := by
    rw [hclients, List.append_nil]
  have run := ((hrun.snoc hreceive).snoc hlock).snoc (@Step.send _ .multicast text socket [] [] stream
    (websocketTextFrame text) [] (setBroadcasting_self.trans hwhole)
    (List.ne_nil_of_length_pos (websocketTextFrame_pos text)) hstream)
  have run := (run.snoc (@Step.next _ .multicast text socket [] [] rfl)).snoc
    (@Step.unlock _ .multicast text [socket] (websocketTextFrame text) rfl)
  simp only [List.append_assoc, List.singleton_append] at run
  exact ⟨_, run, hclients, setBroadcasting_self, rfl, Function.update_self _ _ _⟩

/-- Order 7 rests at 100, a session connects before that is sent, and a dashboard gets to know it. -/
theorem dashboard_displays_order :
    ∃ commands core labels gateway received,
      Run Concurrent.SerialStep ⟨{ riskEngine := { limits := {} } }, fun _ => []⟩ commands core ∧
      core.server.clientSockets = [4, 5] ∧
      Run WebSocketGateway.Step {} labels gateway ∧
      gateway.streams 4 = some (answered 4 labels ++ received) ∧
      let view := Dashboard.instrument (Dashboard.displayed received) [84, 69, 83, 84]
      view.orders.filter (fun e => e.side = .buy ∧ e.price = 100) = [⟨7, 100, 5, .buy⟩] ∧
        view.bestBid = some ⟨100, 5⟩ ∧ view.bestAsk = none := by
  let update := (Emission.bookUpdate ⟨defaultSymbol, true, 100, 5, false, 0, 0⟩).message 2
  let added := (Emission.level3AddOrder ⟨7, 1, 100, 5, .buy, 0, defaultSymbol⟩).message 3
  obtain ⟨⟨server₁, emissions₁⟩, hrun₁, hsockets, hboth, hsent, hqueue, hbid, hask⟩ : ∃ r₁,
      handleMessage .dedup 4
        (newOrderFrame ⟨7, 1, 100, 5, .buy, .limit, .goodTillCancel, defaultSymbol⟩)
        (registerClient 4 { riskEngine := { limits := {} } }) = .ok r₁ ∧
      r₁.1.clientSockets = [4] ∧
      (emitAll r₁.2 (registerClient 5 r₁.1)).1.clientSockets = [4, 5] ∧
      (broadcastsOf (emitAll r₁.2 (registerClient 5 r₁.1)).2).map Sent.message = [update, added] ∧
      (((emitAll r₁.2 (registerClient 5 r₁.1)).1.instrumentFor [84, 69, 83, 84]).book.queueAt
        .buy 100).map Order.shown = [⟨7, 100, 5, .buy⟩] ∧
      ((emitAll r₁.2 (registerClient 5 r₁.1)).1.instrumentFor [84, 69, 83, 84]).book.shownTop .buy =
        some ⟨100, 5⟩ ∧
      ((emitAll r₁.2 (registerClient 5 r₁.1)).1.instrumentFor [84, 69, 83, 84]).book.shownTop .sell =
        none :=
    ⟨_, by rfl, by decide +kernel, by decide +kernel, by decide +kernel, by decide +kernel,
      by decide +kernel, by decide +kernel⟩
  have core : Run Concurrent.SerialStep ⟨{ riskEngine := { limits := {} } }, fun _ => []⟩ _ _ :=
    (Run.snoc (.nil _) ⟨.connect (by decide) (by decide), trivial⟩).snoc
      ⟨.handle .dedup (by decide) ⟨rfl, fun _ _ => rfl⟩ hrun₁, fun _ => rfl⟩
  have core := core.snoc ⟨@Concurrent.Step.connect _ 5 (by decide) (by rw [hsockets]; decide), trivial⟩
  obtain ⟨sends, hsends, hfeed⟩ := Concurrent.flush
    (c := ⟨registerClient 5 server₁, Function.update (fun _ => []) 4 emissions₁⟩)
    (Function.update_self 4 emissions₁ fun _ => [])
  have core := core.append hsends
  have hfinished : ∀ session, Function.update (Function.update (fun _ : Socket => ([] : List Emission))
      4 emissions₁) 4 [] session = [] := by
    intro session
    rw [Function.update_idem, Function.update_eq_self 4 fun _ : Socket => ([] : List Emission)]
  have hstart : start {} none = some { riskEngine := { limits := {} } } := rfl
  have hempty : ∀ x id, ((ExchangeServer.mk { limits := {} } ∅ [] ∅ none 1 1).instrumentFor
      x).book.findOrder id = none := fun x id => rfl
  have hanswer : performHandshake [exampleRequest] = some (handshakeResponse exampleKey) := by
    rfl
  have hne : handshakeResponse exampleKey ≠ [] :=
    fun h => absurd (List.append_eq_nil_iff.mp h).1 (by decide)
  generalize handshakeResponse exampleKey = answer at hanswer hne
  have run := Run.snoc (.nil _) (@WebSocketGateway.Step.answer {} 4 _ answer rfl rfl hanswer)
  have hanswering := congrArg (Accepting.answering 4) (List.append_nil answer).symm
  have run := (run.snoc (@WebSocketGateway.Step.sendAnswer _ 4 [] answer [] hanswering hne rfl)).snoc
    (@WebSocketGateway.Step.join _ 4 rfl rfl)
  let updateText : Text := ⟨marketDataToJson update, by decide +kernel⟩
  let addedText : Text := ⟨marketDataToJson added, by decide +kernel⟩
  obtain ⟨gateway₁, run₁, hclients₁, hreceiving₁, hfree₁, hstream₁⟩ := @relaying_run _ _ 4 update _
    updateText run rfl rfl rfl rfl (by decide) (by decide) rfl (by decide +kernel)
  obtain ⟨gateway₂, run₂, hclients₂, hreceiving₂, hfree₂, -⟩ := @relaying_run _ _ 4 added _ addedText
    run₁ hclients₁ hreceiving₁ hfree₁ hstream₁ (by decide) (by decide) rfl (by decide +kernel)
  have hbroadcast := (congrArg (fun feed => (broadcastsOf feed).map Sent.message) hfeed).trans hsent
  have htelemetry : TelemetryApart ([.answer 4 [exampleRequest] answer, .sendAnswer 4 answer, .join 4] ++
      relaying 4 update updateText ++ relaying 4 added addedText) := by
    intro datagram hmem
    simp [relaying] at hmem
  obtain ⟨received, hstream, hview⟩ := dashboard_displays hstart hempty core hfinished run₂
    hbroadcast.symm htelemetry (by rw [hclients₂]; exact List.mem_singleton_self 4) rfl hreceiving₂
    hfree₂
  obtain ⟨horders, htop, htop'⟩ := hview [84, 69, 83, 84]
  exact ⟨_, _, _, _, received, core, hboth, run₂, hstream, (horders .buy 100).trans hqueue,
    htop.trans hbid, htop'.trans hask⟩

end ExchangeLab

import ExchangeLab.Server.Runs
import ExchangeLab.Matching.Invariants

/-!
# ExchangeLab.Server.Handling

What a handler that returns has done, case by case.

* `Handled`: a frame is ignored, rejected, or it is an accepted new order, cancel or replacement;
  each with the state and the emissions it leaves.
* `handleMessage_cases`: on consistent books every handler that returns is one of them.
-/

namespace ExchangeLab

open Wire Protocol OrderBook MatchingEngine Container

/-! ## Calls that may fail -/

theorem bind_eq_ok {α β : Type} {x : Except Fault α} {f : α → Except Fault β} {b : β} :
    (x >>= f) = .ok b ↔ ∃ a, x = .ok a ∧ f a = .ok b := by
  cases x with
  | error fault => simp [bind, Except.bind]
  | ok a => simp [bind, Except.bind]

theorem pure_eq_ok {α : Type} {a b : α} : (pure a : Except Fault α) = .ok b ↔ a = b := by
  simp [pure, Except.pure]

theorem toExcept_eq_ok {S α : Type} {out : Outcome S α} {a : α} {s : S} :
    out.toExcept = .ok (a, s) ↔ out = .returned a s := by
  cases out <;> simp [Outcome.toExcept]

/-! ## Quantities -/

theorem toUInt32_toNat_of_le {q : UInt64} (h : q ≤ maximumQuantity) :
    q.toUInt32.toNat = q.toNat := by
  have hle := UInt64.le_iff_toNat_le.mp h
  have hmax : maximumQuantity.toNat = 2 ^ 32 - 1 := rfl
  rw [UInt64.toNat_toUInt32]
  omega

/-! ## The journal -/

/-- The record of a frame: its header, encoded again, and its body. -/
def Frame.record (frame : Frame) : Bytes := encodeHeader frame.header ++ frame.body

theorem Frame.record_length (frame : Frame) :
    frame.record.length = headerSize + frame.body.length := by
  rw [record, List.length_append, length_encodeHeader]

namespace ExchangeServer

/-- The journal with the record of a frame behind it. -/
def journaled (frame : Frame) (journal : Option Bytes) : Option Bytes :=
  journal.map fun file => file ++ Wire.frame recordLengthSize frame.record

/-- A frame is never too large for the length prefix. -/
theorem appendJournalRecord_eq (frame : Frame) (server : ExchangeServer) :
    server.appendJournalRecord frame =
      .ok { server with journal := journaled frame server.journal } := by
  have hsize : frame.record.length < UInt32.size := by
    have := frame.bounded
    rw [frame.record_length]
    exact Nat.lt_of_le_of_lt (Nat.add_le_add_left this _) (by decide)
  obtain ⟨_, _, _, _, journal, _, _⟩ := server
  cases journal with
  | none => rfl
  | some file =>
    show (ExchangeJournal.append frame.record file >>= _) = _
    rw [ExchangeJournal.append_ok hsize]
    rfl

/-! ## What handlers leave -/

/-- The order a command of a session brings in. -/
def incomingFrom (server : ExchangeServer) (socket : Socket) (orderId : OrderId) (symbol : Symbol) :
    Incoming :=
  ⟨orderId, socket, server.riskClientIdForSocket socket, symbol⟩

/-- The state after a command that was journaled and changed one instrument. -/
def committed (frame : Frame) (symbol : Symbol) (instrument : InstrumentState) (risk : RiskEngine)
    (server : ExchangeServer) : ExchangeServer :=
  { server with
    riskEngine := risk
    instruments := server.instruments.insert (symbolToString symbol) instrument
    journal := journaled frame server.journal }

/-- A new order that the checks let pass and the engine returned `trades` and `book` for. -/
structure Placed (socket : Socket) (frame : Frame) (server : ExchangeServer)
    (request : NewOrderRequest) (trades : List Trade) (book : OrderBook) (snapshot : BookSnapshot) :
    Prop where
  type : frame.header.type = .newOrder
  decoded : decodeNewOrder frame.body = some request
  quantity : request.quantity ≤ maximumQuantity
  symbol : symbolToString request.symbol ≠ []
  absent : (server.instrumentFor (symbolToString request.symbol)).book.findOrder request.orderId = none
  unowned :
    (server.instrumentFor (symbolToString request.symbol)).orderOwners.lookup request.orderId = none
  approved : ∃ referencePrice,
    referencePriceFor (orderOf request)
      (server.instrumentFor (symbolToString request.symbol)).book = .ok referencePrice ∧
    (server.riskEngine.checkNewOrder (riskRequestOf (orderOf request) (symbolToString request.symbol)
      (server.riskClientIdForSocket socket) referencePrice)).accepted = true
  engine : processOrderInto (orderOf request)
    (server.instrumentFor (symbolToString request.symbol)).book = .returned trades book
  captured : captureBookSnapshot request.symbol book = .ok snapshot

/-- The instrument and the risk engine after settling the trades of a new order. -/
def placedSettled (order : SetOrder) (socket : Socket) (server : ExchangeServer)
    (request : NewOrderRequest) (trades : List Trade) (book : OrderBook) : Settled :=
  settle order (server.incomingFrom socket request.orderId request.symbol) trades
    { server.instrumentFor (symbolToString request.symbol) with book := book } server.riskEngine

/-- A cancel of an order that its sender owns. -/
structure Cancelled (socket : Socket) (frame : Frame) (server : ExchangeServer)
    (request : CancelOrderRequest) (instrument : InstrumentState) (book : OrderBook)
    (snapshot : BookSnapshot) : Prop where
  type : frame.header.type = .cancelOrder
  decoded : decodeCancelOrder frame.body = some request
  found : server.findInstrument (symbolToString request.symbol) = some instrument
  owned : server.ownsResting socket instrument request.orderId = true
  engine : MatchingEngine.cancelOrder request.orderId instrument.book = .returned true book
  captured : captureBookSnapshot request.symbol book = .ok snapshot

/-- A replacement that the checks let pass and the engine returned `trades` and `book` for. -/
structure Replaced (socket : Socket) (frame : Frame) (server : ExchangeServer)
    (request : ReplaceOrderRequest) (instrument : InstrumentState) (trades : List Trade)
    (book : OrderBook) (snapshot : BookSnapshot) : Prop where
  type : frame.header.type = .replaceOrder
  decoded : decodeReplaceOrder frame.body = some request
  quantity : request.newQuantity ≤ maximumQuantity
  found : server.findInstrument (symbolToString request.symbol) = some instrument
  owned : server.ownsResting socket instrument request.orderId = true
  approved : (server.riskEngine.checkReplace (server.riskClientIdForSocket socket)
    (symbolToString request.symbol) request.orderId request.newPrice
    request.newQuantity.toUInt32).accepted = true
  engine : replaceOrderInto request.orderId request.newPrice request.newQuantity.toUInt32
    request.timestamp instrument.book = .returned ⟨true, trades⟩ book
  captured : captureBookSnapshot request.symbol book = .ok snapshot

def replacedSettled (order : SetOrder) (socket : Socket) (server : ExchangeServer)
    (request : ReplaceOrderRequest) (instrument : InstrumentState) (trades : List Trade)
    (book : OrderBook) : Settled :=
  settle order (server.incomingFrom socket request.orderId request.symbol) trades
    { instrument with book := book }
    (server.riskEngine.onOrderCancelled (server.riskClientIdForSocket socket)
      (symbolToString request.symbol) request.orderId)

inductive Handled (order : SetOrder) (socket : Socket) (frame : Frame) (server : ExchangeServer) :
    ExchangeServer → List Emission → Prop
  | ignored (htype : frame.header.type ≠ .newOrder ∧ frame.header.type ≠ .cancelOrder ∧
        frame.header.type ≠ .replaceOrder) :
      Handled order socket frame server server []
  | rejected (orderId : UInt64) (successType : MessageType) :
      Handled order socket frame server server [.orderResponse socket orderId false successType]
  | turnedAway (orderId : UInt64) {symbol : Bytes} (hsymbol : symbol ≠ []) :
      -- a new order rejected after `instrument_for` has made its instrument
      Handled order socket frame server
        (server.storeInstrument symbol (server.instrumentFor symbol))
        [.orderResponse socket orderId false .orderAccepted]
  | placed {request : NewOrderRequest} {trades : List Trade} {book : OrderBook}
      {snapshot : BookSnapshot} (h : Placed socket frame server request trades book snapshot) :
      Handled order socket frame server
        (server.committed frame request.symbol
          (server.placedSettled order socket request trades book).instrument
          (server.placedSettled order socket request trades book).riskEngine)
        (newOrderEmissions socket request.orderId
          (server.placedSettled order socket request trades book) snapshot)
  | cancelled {request : CancelOrderRequest} {instrument : InstrumentState} {book : OrderBook}
      {snapshot : BookSnapshot} (h : Cancelled socket frame server request instrument book snapshot) :
      Handled order socket frame server
        (server.committed frame request.symbol ⟨book, instrument.orderOwners.erase request.orderId⟩
          (server.riskEngine.onOrderCancelled (server.riskClientIdForSocket socket)
            (symbolToString request.symbol) request.orderId))
        [.orderResponse socket request.orderId true .orderCancelled, .bookUpdate snapshot,
          .level3OrderDeleted ⟨request.orderId, 0, request.symbol⟩]
  | replaced {request : ReplaceOrderRequest} {instrument : InstrumentState} {trades : List Trade}
      {book : OrderBook} {snapshot : BookSnapshot}
      (h : Replaced socket frame server request instrument trades book snapshot) :
      Handled order socket frame server
        (server.committed frame request.symbol
          (dropUnrested request.orderId
            (server.replacedSettled order socket request instrument trades book))
          (server.replacedSettled order socket request instrument trades book).riskEngine)
        (replaceOrderEmissions socket request.orderId request.symbol
          (server.replacedSettled order socket request instrument trades book) snapshot)

/-- Every book of the server is consistent. -/
def BooksConsistent (server : ExchangeServer) : Prop :=
  ∀ symbol instrument, server.instruments.lookup symbol = some instrument →
    Consistent instrument.book

@[simp] theorem settle_book (order : SetOrder) (incoming : Incoming) (trades : List Trade)
    (instrument : InstrumentState) (risk : RiskEngine) :
    (settle order incoming trades instrument risk).instrument.book = instrument.book := by
  simp only [settle]
  split <;> rfl

@[simp] theorem dropUnrested_book (orderId : OrderId) (settled : Settled) :
    (dropUnrested orderId settled).book = settled.instrument.book := by
  unfold dropUnrested
  split <;> rfl

section Cases

variable {order : SetOrder} {socket : Socket} {frame : Frame} {server server' : ExchangeServer}
  {emissions : List Emission}

theorem acceptNewOrder_cases {request : NewOrderRequest}
    (h : acceptNewOrder order socket frame request
      (server.storeInstrument (symbolToString request.symbol)
        (server.instrumentFor (symbolToString request.symbol))) = .ok (server', emissions)) :
    ∃ trades book snapshot,
      processOrderInto (orderOf request) (server.instrumentFor (symbolToString request.symbol)).book =
        .returned trades book ∧
      captureBookSnapshot request.symbol book = .ok snapshot ∧
      server' = server.committed frame request.symbol
        (server.placedSettled order socket request trades book).instrument
        (server.placedSettled order socket request trades book).riskEngine ∧
      emissions = newOrderEmissions socket request.orderId
        (server.placedSettled order socket request trades book) snapshot := by
  have hsame : (server.storeInstrument (symbolToString request.symbol)
      (server.instrumentFor (symbolToString request.symbol))).instrumentFor
        (symbolToString request.symbol) = server.instrumentFor (symbolToString request.symbol) := by
    simp [storeInstrument, instrumentFor, findInstrument]
  simp only [acceptNewOrder, bind_eq_ok, pure_eq_ok, appendJournalRecord_eq, hsame] at h
  obtain ⟨_, ⟨⟩, ⟨trades, book⟩, hengine, snapshot, hsnap, heq⟩ := h
  rw [settle_book] at hsnap
  obtain ⟨rfl, rfl⟩ := Prod.mk.inj heq
  refine ⟨trades, book, snapshot, toExcept_eq_ok.mp hengine, hsnap, ?_, rfl⟩
  simp [committed, storeInstrument, placedSettled, incomingFrom, riskClientIdForSocket]

theorem handleNewOrder_cases (htype : frame.header.type = .newOrder)
    (h : handleNewOrder order socket frame server = .ok (server', emissions)) :
    Handled order socket frame server server' emissions := by
  unfold handleNewOrder at h
  simp only at h
  split at h
  · cases h
    exact .rejected 0 .orderAccepted
  split at h
  · cases h
    exact .rejected 0 .orderAccepted
  rename_i request hdecode
  split at h
  · cases h
    exact .rejected request.orderId .orderAccepted
  rename_i hquantity
  split at h
  · cases h
    exact .rejected request.orderId .orderAccepted
  rename_i hsymbol
  split at h
  · cases h
    exact .turnedAway request.orderId hsymbol
  rename_i hfresh
  obtain ⟨habsent, hunowned⟩ := not_or.mp hfresh
  obtain ⟨referencePrice, hreference, h⟩ := bind_eq_ok.mp h
  split at h
  · cases pure_eq_ok.mp h
    exact .turnedAway request.orderId hsymbol
  rename_i hrisk
  simp only [Bool.not_eq_true', Bool.not_eq_false] at hrisk
  obtain ⟨trades, book, snapshot, hengine, hsnap, rfl, rfl⟩ := acceptNewOrder_cases h
  exact .placed
    { type := htype
      decoded := hdecode
      quantity := UInt64.not_lt.mp hquantity
      symbol := hsymbol
      absent := by simpa using habsent
      unowned := Finmap.lookup_eq_none.mpr hunowned
      approved := ⟨referencePrice, hreference, hrisk⟩
      engine := hengine
      captured := hsnap }

/-- The book of an instrument whose order its owner names. -/
theorem exists_node_of_owned {instrument : InstrumentState} {orderId : OrderId}
    (hc : Consistent instrument.book)
    (h : server.ownsResting socket instrument orderId = true) :
    ∃ s, ∃ n ∈ instrument.book.nodes s, n.order.id = orderId := by
  rw [ownsResting, Bool.and_eq_true, Option.isSome_iff_exists] at h
  obtain ⟨-, o, ho⟩ := h
  obtain ⟨n, hn, hid, -⟩ := hc.findOrder_eq_some.mp ho
  obtain ⟨s, hs⟩ := mem_allNodes.mp hn
  exact ⟨s, n, hs, hid⟩

theorem handleCancelOrder_cases (hbooks : server.BooksConsistent)
    (htype : frame.header.type = .cancelOrder)
    (h : handleCancelOrder socket frame server = .ok (server', emissions)) :
    Handled order socket frame server server' emissions := by
  simp only [handleCancelOrder] at h
  split at h
  · cases h
    exact .rejected 0 .orderAccepted
  split at h
  · cases h
    exact .rejected 0 .orderAccepted
  rename_i request hdecode
  split at h
  · cases h
    exact .rejected request.orderId .orderCancelled
  rename_i instrument hfound
  split at h
  · cases h
    exact .rejected request.orderId .orderCancelled
  rename_i howned
  simp only [Bool.not_eq_true', Bool.not_eq_false] at howned
  simp only [bind_eq_ok, appendJournalRecord_eq] at h
  obtain ⟨_, ⟨⟩, ⟨cancelled, book⟩, hengine, h⟩ := h
  rw [toExcept_eq_ok] at hengine
  obtain ⟨s, n, hn, hid⟩ := exists_node_of_owned (hbooks _ _ hfound) howned
  have hcancel : cancelled = true := by
    rw [MatchingEngine.cancelOrder, OrderBook.cancelOrder, ← hid] at hengine
    rcases extractOrder_some (hbooks _ _ hfound) hn with ⟨-, hthrow⟩ | ⟨-, _, hret, -⟩
    · rw [hthrow] at hengine
      cases hengine
    · rw [hret] at hengine
      cases hengine
      rfl
  subst hcancel
  rw [if_neg (by simp), bind_eq_ok] at h
  obtain ⟨snapshot, hsnap, h⟩ := h
  obtain ⟨rfl, rfl⟩ := Prod.mk.inj (pure_eq_ok.mp h)
  exact .cancelled
    { type := htype
      decoded := hdecode
      found := hfound
      owned := howned
      engine := hengine
      captured := hsnap }

theorem handleReplaceOrder_cases (hbooks : server.BooksConsistent)
    (htype : frame.header.type = .replaceOrder)
    (h : handleReplaceOrder order socket frame server = .ok (server', emissions)) :
    Handled order socket frame server server' emissions := by
  simp only [handleReplaceOrder] at h
  split at h
  · cases h
    exact .rejected 0 .orderAccepted
  split at h
  · cases h
    exact .rejected 0 .orderAccepted
  rename_i request hdecode
  split at h
  · cases h
    exact .rejected request.orderId .orderAccepted
  rename_i hquantity
  split at h
  · cases h
    exact .rejected request.orderId .orderReplaced
  rename_i instrument hfound
  split at h
  · cases h
    exact .rejected request.orderId .orderReplaced
  rename_i existing hexisting
  split at h
  · cases h
    exact .rejected request.orderId .orderReplaced
  rename_i howned
  split at h
  · cases h
    exact .rejected request.orderId .orderReplaced
  rename_i hrisk
  simp only [Bool.not_eq_true', Bool.not_eq_false] at howned hrisk
  simp only [acceptReplaceOrder, bind_eq_ok, appendJournalRecord_eq] at h
  obtain ⟨_, ⟨⟩, ⟨result, book⟩, hengine, h⟩ := h
  rw [toExcept_eq_ok] at hengine
  obtain ⟨replaced, trades⟩ := result
  obtain ⟨s, n, hn, hid⟩ := exists_node_of_owned (hbooks _ _ hfound) howned
  have hreplaced : replaced = true := by
    rw [← hid] at hengine
    exact (replaceOrderInto_returned (hbooks _ _ hfound) hn hengine).1
  subst hreplaced
  simp only [Bool.not_true, Bool.false_eq_true, if_false, bind_eq_ok, dropUnrested_book,
    settle_book] at h
  obtain ⟨snapshot, hsnap, h⟩ := h
  obtain ⟨rfl, rfl⟩ := Prod.mk.inj (pure_eq_ok.mp h)
  exact .replaced
    { type := htype
      decoded := hdecode
      quantity := UInt64.not_lt.mp hquantity
      found := hfound
      owned := howned
      approved := hrisk
      engine := hengine
      captured := hsnap }

theorem handleMessage_cases (hbooks : server.BooksConsistent)
    (h : handleMessage order socket frame server = .ok (server', emissions)) :
    Handled order socket frame server server' emissions := by
  unfold handleMessage at h
  split at h
  · rename_i htype
    exact handleNewOrder_cases htype h
  rename_i hnew
  split at h
  · rename_i htype
    exact handleCancelOrder_cases hbooks htype h
  rename_i hcancel
  split at h
  · rename_i htype
    exact handleReplaceOrder_cases hbooks htype h
  · rename_i hreplace
    cases h
    exact .ignored ⟨hnew, hcancel, hreplace⟩

end Cases

end ExchangeServer

end ExchangeLab

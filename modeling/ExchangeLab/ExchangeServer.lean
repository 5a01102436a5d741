import ExchangeLab.Replay
import ExchangeLab.RiskEngine
import ExchangeLab.Lib.FiniteMap

/-!
# ExchangeLab.ExchangeServer

The exchange server: its sessions, its instruments with the owners of their orders, the three
command handlers, and the messages they send.

A handler has two parts. The part under `engine_mutex_` changes the state; it is the function
`handleMessage`, which returns what is still to be sent as a list of `Emission`s, in the order of the
calls of the source. Sending one of them is `emit`: it draws the next sequence number and addresses
the message. A handler that throws ends the process, so its result is an `Except`.

Sequence numbers and risk client ids come from 64-bit counters that are never used up; the counters
are natural numbers here. Console output and performance metrics are left out.
-/

namespace ExchangeLab

open Wire Protocol OrderBook MatchingEngine Container

def maximumBodySize : Nat := 1024 * 1024

abbrev Socket := Int

structure OrderOwner where
  socket : Socket := -1
  riskClientId : RiskClientId := invalidRiskClientId
  deriving DecidableEq, Repr

structure InstrumentState where
  book : OrderBook := .new
  orderOwners : Finmap fun _ : OrderId => OrderOwner := ∅

structure ExecutionDelivery where
  trade : Trade
  symbol : Symbol
  buyerSocket : Socket := -1
  sellerSocket : Socket := -1
  buyerRiskClientId : RiskClientId := invalidRiskClientId
  sellerRiskClientId : RiskClientId := invalidRiskClientId

structure BookSnapshot where
  symbol : Symbol
  hasBid : Bool := false
  bestBid : Price := 0
  bidQuantity : Quantity := 0
  hasAsk : Bool := false
  bestAsk : Price := 0
  askQuantity : Quantity := 0
  deriving DecidableEq

structure ExchangeServer where
  riskEngine : RiskEngine
  instruments : Finmap fun _ : Bytes => InstrumentState := ∅
  clientSockets : List Socket := []
  clientRiskIds : Finmap fun _ : Socket => RiskClientId := ∅
  journal : Option Bytes := none
  nextSequenceNumber : Nat := 1
  nextRiskClientId : RiskClientId := 1

/-- A message of the input that passed the checks of `process_receive_buffer`. -/
structure Frame where
  header : MessageHeader
  body : Bytes
  magic : header.magic = protocolMagic
  version : header.version = protocolVersion
  size : body.length = header.bodySize.toNat
  bounded : body.length ≤ maximumBodySize

/-- The iteration of an `unordered_set` of ids: each id once, in an order the library chooses. -/
structure SetOrder where
  enumerate : List OrderId → List OrderId
  perm : ∀ ids, (enumerate ids).Perm ids.dedup

/-- Each id where it was inserted last, an order that a library may choose. -/
def SetOrder.dedup : SetOrder := ⟨List.dedup, fun _ => .refl _⟩

/-- What a call has left when it returns; a throw is not caught. -/
def Outcome.toExcept {S α : Type} : Outcome S α → Except Fault (α × S)
  | .returned a s => .ok (a, s)
  | .thrown fault _ => .error fault

/-! ## Messages -/

/-- A call of one of the functions that send. Level-3 events carry sequence number 0 until then. -/
inductive Emission where
  | orderResponse (socket : Socket) (orderId : UInt64) (success : Bool) (successType : MessageType)
  | tradeExecution (socket : Socket) (symbol : Symbol) (trade : Trade)
  | bookUpdate (snapshot : BookSnapshot)
  | level3AddOrder (event : Level3AddOrder)
  | level3OrderExecuted (event : Level3OrderExecuted)
  | level3OrderDeleted (event : Level3OrderDeleted)

namespace Emission

def type : Emission → MessageType
  | .orderResponse _ _ success successType => if success then successType else .orderRejected
  | .tradeExecution .. => .tradeExecution
  | .bookUpdate _ => .bookUpdate
  | .level3AddOrder _ => .level3AddOrder
  | .level3OrderExecuted _ => .level3OrderExecuted
  | .level3OrderDeleted _ => .level3OrderDeleted

def body (sequenceNumber : UInt64) : Emission → Bytes
  | .orderResponse _ orderId success _ =>
    encodeOrderResponse ⟨orderId, sequenceNumber, if success then 1 else 0⟩
  | .tradeExecution _ symbol trade =>
    encodeTradeExecution
      ⟨trade.buyOrderId, trade.sellOrderId, trade.price, trade.quantity.toUInt64, sequenceNumber, symbol⟩
  | .bookUpdate snapshot =>
    encodeBookUpdate
      { hasBid := if snapshot.hasBid then 1 else 0
        bestBid := if snapshot.hasBid then snapshot.bestBid else 0
        bidQuantity := if snapshot.hasBid then snapshot.bidQuantity.toUInt64 else 0
        hasAsk := if snapshot.hasAsk then 1 else 0
        bestAsk := if snapshot.hasAsk then snapshot.bestAsk else 0
        askQuantity := if snapshot.hasAsk then snapshot.askQuantity.toUInt64 else 0
        sequenceNumber := sequenceNumber
        symbol := snapshot.symbol }
  | .level3AddOrder event => encodeLevel3AddOrder { event with sequenceNumber := sequenceNumber }
  | .level3OrderExecuted event =>
    encodeLevel3OrderExecuted { event with sequenceNumber := sequenceNumber }
  | .level3OrderDeleted event =>
    encodeLevel3OrderDeleted { event with sequenceNumber := sequenceNumber }

/-- The frame on the wire. -/
def message (sequenceNumber : UInt64) (emission : Emission) : Bytes :=
  let body := emission.body sequenceNumber
  encodeHeader
    ⟨protocolMagic, protocolVersion, emission.type, UInt32.ofNat body.length, sequenceNumber⟩ ++ body

/-- An execution for an order without an owner is not sent and draws no sequence number. -/
def unaddressed : Emission → Bool
  | .tradeExecution socket _ _ => socket < 0
  | _ => false

end Emission

/-- A message that was sent: to one session, or to every session there was. -/
structure Sent where
  sequenceNumber : Nat
  emission : Emission
  recipients : List Socket
  message : Bytes

namespace ExchangeServer

def convertSide (side : Protocol.Side) : Side :=
  if side = .buy then .buy else if side = .sell then .sell else .buy

def convertOrderType (orderType : Protocol.OrderType) : OrderType :=
  if orderType = .limit then .limit else if orderType = .market then .market else .limit

def convertTimeInForce (timeInForce : Protocol.TimeInForce) : TimeInForce :=
  if timeInForce = .goodTillCancel then .goodTillCancel
  else if timeInForce = .immediateOrCancel then .immediateOrCancel
  else if timeInForce = .fillOrKill then .fillOrKill
  else .goodTillCancel

/-! ## Sending -/

def recipients (server : ExchangeServer) : Emission → List Socket
  | .orderResponse socket .. => [socket]
  | .tradeExecution socket .. => [socket]
  | _ => server.clientSockets

def emit (emission : Emission) (server : ExchangeServer) : ExchangeServer × List Sent :=
  if emission.unaddressed then (server, [])
  else
    ({ server with nextSequenceNumber := server.nextSequenceNumber + 1 },
      [{ sequenceNumber := server.nextSequenceNumber
         emission := emission
         recipients := server.recipients emission
         message := emission.message (UInt64.ofNat server.nextSequenceNumber) }])

def emitAll : List Emission → ExchangeServer → ExchangeServer × List Sent
  | [], server => (server, [])
  | emission :: emissions, server =>
    let (server, sent) := emit emission server
    let (server, rest) := emitAll emissions server
    (server, sent ++ rest)

/-! ## Sessions and instruments -/

def registerClient (socket : Socket) (server : ExchangeServer) : ExchangeServer :=
  { server with
    nextRiskClientId := server.nextRiskClientId + 1
    clientSockets := server.clientSockets ++ [socket]
    clientRiskIds := server.clientRiskIds.insert socket server.nextRiskClientId }

def unregisterClient (socket : Socket) (server : ExchangeServer) : ExchangeServer :=
  { server with
    clientSockets := server.clientSockets.erase socket
    clientRiskIds := server.clientRiskIds.erase socket }

def riskClientIdForSocket (server : ExchangeServer) (socket : Socket) : RiskClientId :=
  (server.clientRiskIds.lookup socket).getD invalidRiskClientId

def setGlobalKillSwitch (enabled : Bool) (server : ExchangeServer) : ExchangeServer :=
  { server with riskEngine := server.riskEngine.setGlobalKillSwitch enabled }

def findInstrument (server : ExchangeServer) (symbol : Bytes) : Option InstrumentState :=
  server.instruments.lookup symbol

/-- `instrument_for`: the instrument of a symbol, new if absent. -/
def instrumentFor (server : ExchangeServer) (symbol : Bytes) : InstrumentState :=
  (server.findInstrument symbol).getD {}

def storeInstrument (symbol : Bytes) (instrument : InstrumentState) (server : ExchangeServer) :
    ExchangeServer :=
  { server with instruments := server.instruments.insert symbol instrument }

def appendJournalRecord (frame : Frame) (server : ExchangeServer) : Except Fault ExchangeServer :=
  match server.journal with
  | none => .ok server
  | some file => do
    let file ← ExchangeJournal.append (encodeHeader frame.header ++ frame.body) file
    return { server with journal := some file }

/-- One side of `capture_book_snapshot`: whether it has orders, its best price and the quantity
there. -/
def topOfBook (book : OrderBook) (s : Side) : Except Fault (Bool × Price × Quantity) :=
  if !book.hasLevels s then .ok (false, 0, 0)
  else do
    let price ← book.bestPrice s
    let level ← book.bestLevel s
    return (true, price, level.totalQuantity)

def captureBookSnapshot (symbol : Symbol) (book : OrderBook) : Except Fault BookSnapshot := do
  let (hasBid, bestBid, bidQuantity) ← topOfBook book .buy
  let (hasAsk, bestAsk, askQuantity) ← topOfBook book .sell
  return ⟨symbol, hasBid, bestBid, bidQuantity, hasAsk, bestAsk, askQuantity⟩

def marketReferencePrice (side : Side) (book : OrderBook) : Except Fault (Option Price) :=
  if !book.hasLevels side.opposite then .ok none else (book.bestPrice side.opposite).map some

/-- The reference price of the risk check of a new order: only a market order needs one. -/
def referencePriceFor (incoming : Order) (book : OrderBook) : Except Fault (Option Price) :=
  if incoming.type = .market then marketReferencePrice incoming.side book else .ok none

/-! ## After the engine: settling the trades -/

/-- The order a command brings in, and the session it came from. -/
structure Incoming where
  orderId : OrderId
  socket : Socket
  riskClientId : RiskClientId
  symbol : Symbol

def findOrderOwner (instrument : InstrumentState) (orderId : OrderId) (incoming : Incoming) :
    OrderOwner :=
  if orderId = incoming.orderId then ⟨incoming.socket, incoming.riskClientId⟩
  else (instrument.orderOwners.lookup orderId).getD {}

/-- An order of a trade, other than the incoming one, that the trade has used up. -/
def isFilledResting (instrument : InstrumentState) (incomingOrderId orderId : OrderId) : Bool :=
  orderId ≠ incomingOrderId && (instrument.book.findOrder orderId).isNone

/-- What the loop over the trades has gathered. -/
structure Settlement where
  riskEngine : RiskEngine
  deliveries : List ExecutionDelivery := []
  executions : List Level3OrderExecuted := []
  deletedOrderIds : List OrderId := []

def settleTrade (incoming : Incoming) (instrument : InstrumentState) (done : Settlement)
    (trade : Trade) : Settlement :=
  let buyer := findOrderOwner instrument trade.buyOrderId incoming
  let seller := findOrderOwner instrument trade.sellOrderId incoming
  { riskEngine := done.riskEngine.onTrade (symbolToString incoming.symbol) buyer.riskClientId
      seller.riskClientId trade.buyOrderId trade.sellOrderId trade.quantity
    deliveries := done.deliveries ++
      [⟨trade, incoming.symbol, buyer.socket, seller.socket, buyer.riskClientId, seller.riskClientId⟩]
    executions := done.executions ++
      [⟨trade.buyOrderId, trade.sellOrderId, trade.price, trade.quantity.toUInt64, 0, incoming.symbol⟩]
    deletedOrderIds := done.deletedOrderIds ++
      [trade.buyOrderId, trade.sellOrderId].filter (isFilledResting instrument incoming.orderId) }

def settleTrades (incoming : Incoming) (instrument : InstrumentState) (trades : List Trade)
    (risk : RiskEngine) : Settlement :=
  trades.foldl (settleTrade incoming instrument) { riskEngine := risk }

def removeFilledOrderOwners (instrument : InstrumentState) (trades : List Trade)
    (incomingOrderId : OrderId) : InstrumentState :=
  { instrument with
    orderOwners := (trades.flatMap fun trade => [trade.buyOrderId, trade.sellOrderId]).foldl
      (fun owners orderId =>
        if isFilledResting instrument incomingOrderId orderId then owners.erase orderId else owners)
      instrument.orderOwners }

structure Settled where
  instrument : InstrumentState
  riskEngine : RiskEngine
  deliveries : List ExecutionDelivery
  executions : List Level3OrderExecuted
  deletions : List Level3OrderDeleted
  added : Option Level3AddOrder

/-- Everything between the call of the engine and the snapshot: the loop over the trades, the owners
of filled orders, and the residual if it rests. -/
def settle (order : SetOrder) (incoming : Incoming) (trades : List Trade)
    (instrument : InstrumentState) (risk : RiskEngine) : Settled :=
  let done := settleTrades incoming instrument trades risk
  let deletions := (order.enumerate done.deletedOrderIds).map fun orderId =>
    (⟨orderId, 0, incoming.symbol⟩ : Level3OrderDeleted)
  let instrument := removeFilledOrderOwners instrument trades incoming.orderId
  match instrument.book.findOrder incoming.orderId with
  | none => ⟨instrument, done.riskEngine, done.deliveries, done.executions, deletions, none⟩
  | some resting =>
    { instrument := { instrument with
        orderOwners := instrument.orderOwners.insert incoming.orderId
          ⟨incoming.socket, incoming.riskClientId⟩ }
      riskEngine := done.riskEngine.onOrderResting incoming.riskClientId
        (symbolToString incoming.symbol) resting.id resting.side resting.price
        resting.remainingQuantity
      deliveries := done.deliveries
      executions := done.executions
      deletions := deletions
      added := some
        { orderId := resting.id
          timestamp := resting.timestamp
          price := resting.price
          quantity := resting.remainingQuantity.toUInt64
          side := if resting.side = .buy then .buy else .sell
          sequenceNumber := 0
          symbol := incoming.symbol } }

/-- `send_execution_deliveries`: the buyer's and the seller's copy of each trade. -/
def executionDeliveries (deliveries : List ExecutionDelivery) : List Emission :=
  deliveries.flatMap fun delivery =>
    [.tradeExecution delivery.buyerSocket delivery.symbol delivery.trade,
      .tradeExecution delivery.sellerSocket delivery.symbol delivery.trade]

/-! ## Handlers -/

def orderOf (request : NewOrderRequest) : Order where
  id := request.orderId
  side := convertSide request.side
  type := convertOrderType request.orderType
  timeInForce := convertTimeInForce request.timeInForce
  price := request.price
  initialQuantity := request.quantity.toUInt32
  remainingQuantity := request.quantity.toUInt32
  timestamp := request.timestamp

def riskRequestOf (order : Order) (symbol : Bytes) (riskClientId : RiskClientId)
    (referencePrice : Option Price) : RiskOrderRequest where
  clientId := riskClientId
  symbol := symbol
  orderId := order.id
  side := order.side
  orderType := order.type
  timeInForce := order.timeInForce
  price := order.price
  quantity := order.remainingQuantity
  referencePrice := referencePrice

/-- What an accepted new order sends. -/
def newOrderEmissions (socket : Socket) (orderId : OrderId) (settled : Settled)
    (snapshot : BookSnapshot) : List Emission :=
  [.orderResponse socket orderId true .orderAccepted] ++
    executionDeliveries settled.deliveries ++ [.bookUpdate snapshot] ++
    settled.executions.map .level3OrderExecuted ++ settled.deletions.map .level3OrderDeleted ++
    settled.added.toList.map .level3AddOrder

/-- A new order that passed the risk checks. -/
def acceptNewOrder (order : SetOrder) (socket : Socket) (frame : Frame) (request : NewOrderRequest)
    (server : ExchangeServer) : Except Fault (ExchangeServer × List Emission) := do
  let symbol := symbolToString request.symbol
  let riskClientId := server.riskClientIdForSocket socket
  let instrument := server.instrumentFor symbol
  let server ← server.appendJournalRecord frame
  let (trades, book) ← (processOrderInto (orderOf request) instrument.book).toExcept
  let settled := settle order ⟨request.orderId, socket, riskClientId, request.symbol⟩ trades
    { instrument with book := book } server.riskEngine
  let snapshot ← captureBookSnapshot request.symbol settled.instrument.book
  return (storeInstrument symbol settled.instrument { server with riskEngine := settled.riskEngine },
    newOrderEmissions socket request.orderId settled snapshot)

def handleNewOrder (order : SetOrder) (socket : Socket) (frame : Frame) (server : ExchangeServer) :
    Except Fault (ExchangeServer × List Emission) :=
  let reject (orderId : UInt64) : Emission := .orderResponse socket orderId false .orderAccepted
  if frame.header.bodySize.toNat ≠ newOrderBodySize then .ok (server, [reject 0])
  else
    match decodeNewOrder frame.body with
    | none => .ok (server, [reject 0])
    | some request =>
      if request.quantity > maximumQuantity then .ok (server, [reject request.orderId])
      else
        let symbol := symbolToString request.symbol
        if symbol = [] then .ok (server, [reject request.orderId])
        else
          let riskClientId := server.riskClientIdForSocket socket
          let instrument := server.instrumentFor symbol
          -- the instrument exists from here on, also when the order is rejected
          let server := server.storeInstrument symbol instrument
          if (instrument.book.findOrder request.orderId).isSome ∨
              request.orderId ∈ instrument.orderOwners then
            .ok (server, [reject request.orderId])
          else do
            let incoming := orderOf request
            let referencePrice ← referencePriceFor incoming instrument.book
            let decision := server.riskEngine.checkNewOrder
              (riskRequestOf incoming symbol riskClientId referencePrice)
            if !decision.accepted then return (server, [reject request.orderId])
            else acceptNewOrder order socket frame request server

/-- The session that sent the command owns the order, and the order rests. -/
def ownsResting (server : ExchangeServer) (socket : Socket) (instrument : InstrumentState)
    (orderId : OrderId) : Bool :=
  instrument.orderOwners.lookup orderId = some ⟨socket, server.riskClientIdForSocket socket⟩ &&
    (instrument.book.findOrder orderId).isSome

def handleCancelOrder (socket : Socket) (frame : Frame) (server : ExchangeServer) :
    Except Fault (ExchangeServer × List Emission) :=
  let respond (orderId : UInt64) (success : Bool) : Emission :=
    .orderResponse socket orderId success .orderCancelled
  let reject (orderId : UInt64) : Emission := .orderResponse socket orderId false .orderAccepted
  if frame.header.bodySize.toNat ≠ cancelOrderBodySize then .ok (server, [reject 0])
  else
    match decodeCancelOrder frame.body with
    | none => .ok (server, [reject 0])
    | some request =>
      let symbol := symbolToString request.symbol
      let riskClientId := server.riskClientIdForSocket socket
      match server.findInstrument symbol with
      | none => .ok (server, [respond request.orderId false])
      | some instrument =>
        if !server.ownsResting socket instrument request.orderId then
          .ok (server, [respond request.orderId false])
        else do
          let server ← server.appendJournalRecord frame
          let (cancelled, book) ←
            (MatchingEngine.cancelOrder request.orderId instrument.book).toExcept
          if !cancelled then
            return (storeInstrument symbol { instrument with book := book } server,
              [respond request.orderId false])
          else
            let risk := server.riskEngine.onOrderCancelled riskClientId symbol request.orderId
            let snapshot ← captureBookSnapshot request.symbol book
            return (storeInstrument symbol ⟨book, instrument.orderOwners.erase request.orderId⟩
                { server with riskEngine := risk },
              [respond request.orderId true, .bookUpdate snapshot,
                .level3OrderDeleted ⟨request.orderId, 0, request.symbol⟩])

/-- What a replacement sends; the resting representation it replaces goes first. -/
def replaceOrderEmissions (socket : Socket) (orderId : OrderId) (symbol : Symbol) (settled : Settled)
    (snapshot : BookSnapshot) : List Emission :=
  [.orderResponse socket orderId true .orderReplaced] ++
    executionDeliveries settled.deliveries ++ [.bookUpdate snapshot] ++
    [.level3OrderDeleted ⟨orderId, 0, symbol⟩] ++
    settled.executions.map .level3OrderExecuted ++ settled.deletions.map .level3OrderDeleted ++
    settled.added.toList.map .level3AddOrder

/-- The owner of a replaced order that does not rest any more is forgotten. -/
def dropUnrested (orderId : OrderId) (settled : Settled) : InstrumentState :=
  if settled.added.isSome then settled.instrument
  else { settled.instrument with orderOwners := settled.instrument.orderOwners.erase orderId }

/-- A replacement that passed the risk checks. -/
def acceptReplaceOrder (order : SetOrder) (socket : Socket) (frame : Frame)
    (request : ReplaceOrderRequest) (instrument : InstrumentState) (originalOrder : Order)
    (server : ExchangeServer) : Except Fault (ExchangeServer × List Emission) := do
  let symbol := symbolToString request.symbol
  let riskClientId := server.riskClientIdForSocket socket
  let server ← server.appendJournalRecord frame
  -- the exposure of the original leaves before the engine runs and comes back with the residual
  let risk := server.riskEngine.onOrderCancelled riskClientId symbol request.orderId
  let (result, book) ← (replaceOrderInto request.orderId request.newPrice
    request.newQuantity.toUInt32 request.timestamp instrument.book).toExcept
  if !result.replaced then
    let risk := risk.onOrderResting riskClientId symbol originalOrder.id originalOrder.side
      originalOrder.price originalOrder.remainingQuantity
    return (storeInstrument symbol { instrument with book := book } { server with riskEngine := risk },
      [.orderResponse socket request.orderId false .orderReplaced])
  else
    let settled := settle order ⟨request.orderId, socket, riskClientId, request.symbol⟩ result.trades
      { instrument with book := book } risk
    let instrument := dropUnrested request.orderId settled
    let snapshot ← captureBookSnapshot request.symbol instrument.book
    return (storeInstrument symbol instrument { server with riskEngine := settled.riskEngine },
      replaceOrderEmissions socket request.orderId request.symbol settled snapshot)

def handleReplaceOrder (order : SetOrder) (socket : Socket) (frame : Frame)
    (server : ExchangeServer) : Except Fault (ExchangeServer × List Emission) :=
  let respond (orderId : UInt64) (success : Bool) : Emission :=
    .orderResponse socket orderId success .orderReplaced
  let reject (orderId : UInt64) : Emission := .orderResponse socket orderId false .orderAccepted
  if frame.header.bodySize.toNat ≠ replaceOrderBodySize then .ok (server, [reject 0])
  else
    match decodeReplaceOrder frame.body with
    | none => .ok (server, [reject 0])
    | some request =>
      if request.newQuantity > maximumQuantity then .ok (server, [reject request.orderId])
      else
        let symbol := symbolToString request.symbol
        let riskClientId := server.riskClientIdForSocket socket
        match server.findInstrument symbol with
        | none => .ok (server, [respond request.orderId false])
        | some instrument =>
          match instrument.book.findOrder request.orderId with
          | none => .ok (server, [respond request.orderId false])
          | some existingOrder =>
            if !server.ownsResting socket instrument request.orderId then
              .ok (server, [respond request.orderId false])
            else
              let decision := server.riskEngine.checkReplace riskClientId symbol request.orderId
                request.newPrice request.newQuantity.toUInt32
              if !decision.accepted then .ok (server, [respond request.orderId false])
              else acceptReplaceOrder order socket frame request instrument existingOrder server

def handleMessage (order : SetOrder) (socket : Socket) (frame : Frame) (server : ExchangeServer) :
    Except Fault (ExchangeServer × List Emission) :=
  if frame.header.type = .newOrder then handleNewOrder order socket frame server
  else if frame.header.type = .cancelOrder then handleCancelOrder socket frame server
  else if frame.header.type = .replaceOrder then handleReplaceOrder order socket frame server
  else .ok (server, [])

/-! ## Starting -/

/-- `recover_from_journal`: the books of the journal, or a failure. An absent file is empty. -/
def recoverFromJournal (file : Option Bytes) : Option Books :=
  match file with
  | none => some ∅
  | some [] => some ∅
  | some file =>
    match ExchangeReplayer.replay (some file) with
    | (false, _) => none
    | (true, replayer) => some replayer.releaseOrderBooks

/-- The server as `start` leaves it: without a journal, or recovered from the file it then appends
to. -/
def start (limits : RiskLimits) : Option (Option Bytes) → Option ExchangeServer
  | none => some { riskEngine := { limits := limits } }
  | some file => do
    let books ← recoverFromJournal file
    some
      { riskEngine := { limits := limits }
        instruments := mapValues (fun book => { book := book }) books
        journal := some (ExchangeJournal.openFile (file.getD []) false) }

end ExchangeServer

end ExchangeLab

import ExchangeLab.ExchangeServer
import ExchangeLab.Protocol.Codecs
import ExchangeLab.Fix

/-!
# ExchangeLab.FixGateway

The FIX gateway: one session's orders, requests and identifiers, the handlers of the client's
messages, and the handlers of what the core sends.

A handler returns the session it leaves, the request it sent to the core, and its replies to the
client in order. The client's socket takes every reply; when it does not, the session ends there.
`Surroundings` is what a handler asks of the world: the clock, and whether the core can be reached.

Numeric order ids come from a 64-bit counter that is never used up, a natural number here, and so
are the quantities of an order, which are sums of 32-bit ones. A reply on the wire is in
`Gateway.Messages`, the timers and the clients' sockets are in `Gateway.Threads`; the average price
is left out.
-/

namespace ExchangeLab

open Wire Protocol Container ExchangeLab.Fix

structure FixGatewayConfig where
  senderCompId : Bytes := text "EXCHANGELAB"
  defaultHeartbeatSeconds : UInt32 := 30

def requiredField (tag : Int32) (message : Message) : Except String Bytes :=
  match message.get tag with
  | none => .error ("required FIX tag " ++ toString tag ++ " is missing")
  | some value =>
    if value = [] then .error ("required FIX tag " ++ toString tag ++ " is missing") else .ok value

def orError {α : Type} (error : String) : Option α → Except String α
  | none => .error error
  | some a => .ok a

/-! ## Translation -/

namespace FixBridge

structure NewOrderTranslation where
  request : NewOrderRequest
  clOrdId : Bytes

def translateSide (fixValue : Bytes) : Option Protocol.Side :=
  if fixValue = text "1" then some .buy else if fixValue = text "2" then some .sell else none

def translateOrderType (fixValue : Bytes) : Option Protocol.OrderType :=
  if fixValue = text "1" then some .market else if fixValue = text "2" then some .limit else none

def translateTimeInForce (fixValue : Bytes) : Option Protocol.TimeInForce :=
  if fixValue = text "1" then some .goodTillCancel
  else if fixValue = text "3" then some .immediateOrCancel
  else if fixValue = text "4" then some .fillOrKill
  else none

/-- A quantity that is positive and fits 32 bits. -/
def parseQuantity (value : Bytes) : Option UInt64 :=
  (parseU64 value).filter fun quantity => quantity ≠ 0 ∧ quantity ≤ 4294967295

def parsePrice (value : Bytes) : Option Price :=
  (parseI64 value).filter fun price => 0 < price

/-- The price of a limit order; a market order has none. -/
def translatePrice (orderType : Protocol.OrderType) (message : Message) : Except String Price :=
  if orderType = .limit then do
    let priceText ← requiredField 44 message
    orError "Price must be a positive integer tick value" (parsePrice priceText)
  else .ok 0

/-- Tag 59 or the default; a market order is never good till cancelled. -/
def chooseTimeInForce (orderType : Protocol.OrderType) (message : Message) :
    Except String Protocol.TimeInForce := do
  let timeInForce ← (message.get 59).elim
    (.ok (if orderType = .market then .immediateOrCancel else .goodTillCancel))
    fun timeInForceText => orError "unsupported TimeInForce; use 59=1 (GTC), 3 (IOC), or 4 (FOK)"
      (translateTimeInForce timeInForceText)
  return if orderType = .market ∧ timeInForce = .goodTillCancel then .immediateOrCancel
    else timeInForce

def translateNewOrderSingle (message : Message) (numericOrderId timestamp : UInt64) :
    Except String NewOrderTranslation := do
  -- all five are looked up first, and the error is that of the last one missing
  let orderTypeText ← requiredField 40 message
  let quantityText ← requiredField 38 message
  let sideText ← requiredField 54 message
  let symbolText ← requiredField 55 message
  let clOrdId ← requiredField 11 message
  let symbol ← orError "invalid Symbol; use 1-8 uppercase A-Z/0-9/./- characters"
    (if isValidSymbol (makeSymbol symbolText) then some (makeSymbol symbolText) else none)
  let side ← orError "unsupported Side; use 54=1 (Buy) or 54=2 (Sell)" (translateSide sideText)
  let orderType ← orError "unsupported OrdType; use 40=1 (Market) or 40=2 (Limit)"
    (translateOrderType orderTypeText)
  let quantity ← orError "invalid OrderQty" (parseQuantity quantityText)
  let price ← translatePrice orderType message
  let timeInForce ← chooseTimeInForce orderType message
  return ⟨⟨numericOrderId, timestamp, price, quantity, side, orderType, timeInForce, symbol⟩, clOrdId⟩

end FixBridge

/-! ## Sessions -/

inductive PendingKind where
  | new
  | cancel
  | replace
  deriving DecidableEq

structure PendingRequest where
  kind : PendingKind := .new
  clOrdId : Bytes
  origClOrdId : Bytes := []
  replacementTotalQuantity : Nat := 0
  replacementWorkingQuantity : Nat := 0
  replacementPrice : Price := 0
  deriving DecidableEq

/-- `'0'`, `'1'`, `'2'`, `'4'` and `'8'`. -/
inductive OrdStatus where
  | new
  | partiallyFilled
  | filled
  | canceled
  | rejected
  deriving DecidableEq

/-- `"0"`, `"4"`, `"5"`, `"8"` and `"F"`. -/
inductive ExecType where
  | new
  | canceled
  | replaced
  | rejected
  | trade
  deriving DecidableEq

structure OrderState where
  numericOrderId : OrderId
  symbol : Symbol
  side : Protocol.Side
  orderType : Protocol.OrderType
  timeInForce : Protocol.TimeInForce
  currentClOrdId : Bytes
  orderQuantity : Nat
  cumulativeQuantity : Nat := 0
  leavesQuantity : Nat
  price : Price
  ordStatus : OrdStatus := .new
  deriving DecidableEq

/-- The four numbers `self_trade_key` writes down. -/
structure SelfTradeKey where
  buyOrderId : OrderId
  sellOrderId : OrderId
  price : Price
  quantity : UInt64
  deriving DecidableEq

structure SessionContext where
  coreSocket : Int := -1
  loggedOn : Bool := false
  closing : Bool := false
  clientCompId : Bytes := []
  heartbeatSeconds : UInt32 := 30
  expectedInboundSequence : UInt64 := 1
  nextCoreSequence : UInt64 := 1
  orders : Finmap fun _ : OrderId => OrderState := ∅
  clOrdToOrder : Finmap fun _ : Bytes => OrderId := ∅
  usedClOrdIds : List Bytes := []
  pending : Finmap fun _ : OrderId => List PendingRequest := ∅
  nonRestingAwaitingBoundary : List OrderId := []
  lastSelfTradeKey : Option SelfTradeKey := none
  selfTradeDuplicateMessagesToIgnore : Nat := 0

/-! ## Replies -/

/-- The body of an `8` message about an order the gateway knows. -/
structure ExecutionReport where
  orderId : OrderId
  clOrdId : Bytes
  origClOrdId : Option Bytes
  execType : ExecType
  ordStatus : OrdStatus
  symbol : Bytes
  side : Protocol.Side
  orderQty : Nat
  ordType : Protocol.OrderType
  price : Option Price
  timeInForce : Protocol.TimeInForce
  cumQty : Nat
  leavesQty : Nat
  lastQty : Option Nat
  lastPx : Option Price
  reason : Option String
  deriving DecidableEq

inductive Reply where
  | executionReport (report : ExecutionReport)
  | newReject (clOrdId symbol side quantity : Bytes) (reason : String)
  | cancelReject (order : Option (OrderId × OrdStatus)) (clOrdId origClOrdId : Bytes)
      (kind : PendingKind) (reason : String)
  | sessionReject (referenceSequence : UInt64) (reason : String)
      (referenceMessageType : Option Bytes)
  | logon (heartbeatSeconds : UInt32)
  | heartbeat (testRequestId : Bytes)
  | logout (reason : Option String)
  deriving DecidableEq

/-- `send_execution_report`; the arguments with a default are the optional ones of the source. -/
def executionReport (order : OrderState) (clOrdId : Bytes) (execType : ExecType)
    (ordStatus : OrdStatus) (origClOrdId : Option Bytes := none) (lastQuantity : Option Nat := none)
    (lastPrice : Option Price := none) (reason : Option String := none) : Reply :=
  .executionReport
    { orderId := order.numericOrderId
      clOrdId := clOrdId
      origClOrdId := origClOrdId
      execType := execType
      ordStatus := ordStatus
      symbol := symbolToString order.symbol
      side := order.side
      orderQty := order.orderQuantity
      ordType := order.orderType
      price := if order.orderType = .limit then some order.price else none
      timeInForce := order.timeInForce
      cumQty := order.cumulativeQuantity
      leavesQty := order.leavesQuantity
      lastQty := lastQuantity
      lastPx := lastPrice
      reason := reason }

/-- `send_cancel_reject`, with the id and the status of the order if there is one. -/
def cancelReject (order : Option OrderState) (clOrdId origClOrdId : Bytes) (kind : PendingKind)
    (reason : String) : Reply :=
  .cancelReject (order.map fun order => (order.numericOrderId, order.ordStatus)) clOrdId origClOrdId
    kind reason

/-! ## Requests to the core -/

inductive CoreRequest where
  | newOrder (request : NewOrderRequest)
  | cancelOrder (request : CancelOrderRequest)
  | replaceOrder (request : ReplaceOrderRequest)

namespace CoreRequest

def orderId : CoreRequest → OrderId
  | .newOrder request => request.orderId
  | .cancelOrder request => request.orderId
  | .replaceOrder request => request.orderId

def type : CoreRequest → MessageType
  | .newOrder _ => .newOrder
  | .cancelOrder _ => .cancelOrder
  | .replaceOrder _ => .replaceOrder

def body : CoreRequest → Bytes
  | .newOrder request => encodeNewOrder request
  | .cancelOrder request => encodeCancelOrder request
  | .replaceOrder request => encodeReplaceOrder request

def header (sequenceNumber : UInt64) (request : CoreRequest) : MessageHeader :=
  ⟨protocolMagic, protocolVersion, request.type, UInt32.ofNat request.body.length, sequenceNumber⟩

theorem header_magic (sequenceNumber : UInt64) (request : CoreRequest) :
    (request.header sequenceNumber).magic = protocolMagic := rfl

theorem header_version (sequenceNumber : UInt64) (request : CoreRequest) :
    (request.header sequenceNumber).version = protocolVersion := rfl

theorem body_small (request : CoreRequest) : request.body.length ≤ 43 := by
  cases request with
  | newOrder request => exact Nat.le_of_eq (length_encodeNewOrder request)
  | cancelOrder request =>
    rw [body, length_encodeCancelOrder]
    decide
  | replaceOrder request =>
    rw [body, length_encodeReplaceOrder]
    decide

theorem body_size (sequenceNumber : UInt64) (request : CoreRequest) :
    request.body.length = (request.header sequenceNumber).bodySize.toNat := by
  have := request.body_small
  rw [header, UInt32.toNat_ofNat_of_lt']
  exact Nat.lt_of_le_of_lt this (by decide)

theorem body_bounded (request : CoreRequest) : request.body.length ≤ maximumBodySize :=
  Nat.le_trans request.body_small (by decide)

/-- What `send_core_request` puts on the wire. -/
def frame (sequenceNumber : UInt64) (request : CoreRequest) : Frame where
  header := request.header sequenceNumber
  body := request.body
  magic := request.header_magic sequenceNumber
  version := request.header_version sequenceNumber
  size := request.body_size sequenceNumber
  bounded := request.body_bounded

end CoreRequest

/-- A request that was sent, with the entry that waits for its answer. -/
structure Request where
  core : CoreRequest
  sequenceNumber : UInt64
  pending : PendingRequest

def Request.orderId (request : Request) : OrderId := request.core.orderId

def Request.frame (request : Request) : Frame := request.core.frame request.sequenceNumber

structure Surroundings where
  now : Timestamp
  /-- What `connect_to_exchange` returns. -/
  coreSocket : Int
  /-- Whether a send to the core succeeds. -/
  coreSends : Bool

structure Effects where
  session : SessionContext
  nextNumericOrderId : Nat
  request : Option Request := none
  replies : List Reply := []

namespace SessionContext

def pendingFor (session : SessionContext) (orderId : OrderId) : List PendingRequest :=
  (session.pending.lookup orderId).getD []

def pushPending (orderId : OrderId) (pending : PendingRequest) (session : SessionContext) :
    SessionContext :=
  { session with pending := session.pending.insert orderId (session.pendingFor orderId ++ [pending]) }

def popBackPending (orderId : OrderId) (session : SessionContext) : SessionContext :=
  { session with pending := session.pending.insert orderId (session.pendingFor orderId).dropLast }

def useClOrdId (clOrdId : Bytes) (session : SessionContext) : SessionContext :=
  { session with usedClOrdIds := clOrdId :: session.usedClOrdIds }

def addOrder (order : OrderState) (session : SessionContext) : SessionContext :=
  { session with
    orders := emplace order.numericOrderId order session.orders
    clOrdToOrder := emplace order.currentClOrdId order.numericOrderId session.clOrdToOrder }

def eraseOrder (orderId : OrderId) (clOrdId : Bytes) (session : SessionContext) : SessionContext :=
  { session with
    orders := session.orders.erase orderId
    clOrdToOrder := session.clOrdToOrder.erase clOrdId }

def setOrder (orderId : OrderId) (order : OrderState) (session : SessionContext) : SessionContext :=
  { session with orders := session.orders.insert orderId order }

end SessionContext

namespace FixGateway

open FixBridge

/-- The entry is pushed before the send, which uses up a core sequence number even if it fails. -/
def sendCoreRequest (core : CoreRequest) (pending : PendingRequest) (session : SessionContext) :
    SessionContext × Request :=
  ({ session.pushPending core.orderId pending with
      nextCoreSequence := session.nextCoreSequence + 1 },
    ⟨core, session.nextCoreSequence, pending⟩)

/-! ## The client's messages -/

def sideText (side : Protocol.Side) : Bytes := if side = .buy then text "1" else text "2"

def handleNewOrder (surroundings : Surroundings) (nextNumericOrderId : Nat) (message : Message)
    (session : SessionContext) : Effects :=
  let reject (reason : String) : Reply :=
    .newReject ((message.get 11).getD (text "MISSING")) ((message.get 55).getD (text "UNKNOWN"))
      ((message.get 54).getD (text "?")) ((message.get 38).getD (text "0")) reason
  if (message.get 11).any (· ∈ session.usedClOrdIds) then
    ⟨session, nextNumericOrderId, none, [reject "duplicate ClOrdID"]⟩
  else
    let session := (message.get 11).elim session fun clOrdId => session.useClOrdId clOrdId
    let numericOrderId := UInt64.ofNat nextNumericOrderId
    match translateNewOrderSingle message numericOrderId surroundings.now with
    | .error error => ⟨session, nextNumericOrderId + 1, none, [reject error]⟩
    | .ok translated =>
      let order : OrderState :=
        { numericOrderId := numericOrderId
          symbol := translated.request.symbol
          side := translated.request.side
          orderType := translated.request.orderType
          timeInForce := translated.request.timeInForce
          currentClOrdId := translated.clOrdId
          orderQuantity := translated.request.quantity.toNat
          leavesQuantity := translated.request.quantity.toNat
          price := translated.request.price }
      let (session, request) := sendCoreRequest (.newOrder translated.request)
        { clOrdId := translated.clOrdId } (session.addOrder order)
      if surroundings.coreSends then ⟨session, nextNumericOrderId + 1, some request, []⟩
      else
        ⟨(session.popBackPending numericOrderId).eraseOrder numericOrderId translated.clOrdId,
          nextNumericOrderId + 1, none,
          [.newReject translated.clOrdId (symbolToString translated.request.symbol)
            (sideText translated.request.side) (text (toString translated.request.quantity.toNat))
            "core exchange connection failed"]⟩

/-- The common start of a cancel and a replace: the two ClOrdIDs, the id of the order and the order,
if it is working. -/
def findWorkingOrder (kind : PendingKind) (message : Message) (session : SessionContext) :
    SessionContext × Except Reply (Bytes × Bytes × OrderId × OrderState) :=
  let clOrdIds : Except String (Bytes × Bytes) := do
    let origClOrdId ← requiredField 41 message
    let clOrdId ← requiredField 11 message
    return (clOrdId, origClOrdId)
  match clOrdIds with
  | .error error =>
    (session, .error (cancelReject none ((requiredField 11 message).toOption.getD (text "MISSING"))
      ((requiredField 41 message).toOption.getD (text "MISSING")) kind error))
  | .ok (clOrdId, origClOrdId) =>
    let reject (order : Option OrderState) (reason : String) : Reply :=
      cancelReject order clOrdId origClOrdId kind reason
    if clOrdId ∈ session.usedClOrdIds then (session, .error (reject none "duplicate ClOrdID"))
    else
      let session := session.useClOrdId clOrdId
      match session.clOrdToOrder.lookup origClOrdId with
      | none => (session, .error (reject none "unknown OrigClOrdID"))
      | some numericOrderId =>
        match session.orders.lookup numericOrderId with
        | none => (session, .error (reject none "order is no longer working"))
        | some order =>
          if order.leavesQuantity = 0 then
            (session, .error (reject (some order) "order is no longer working"))
          else (session, .ok (clOrdId, origClOrdId, numericOrderId, order))

/-- The common end of a cancel and a replace. -/
def forward (surroundings : Surroundings) (nextNumericOrderId : Nat) (core : CoreRequest)
    (pending : PendingRequest) (order : OrderState) (session : SessionContext) : Effects :=
  let (session, request) := sendCoreRequest core pending session
  if surroundings.coreSends then ⟨session, nextNumericOrderId, some request, []⟩
  else
    ⟨session.popBackPending core.orderId, nextNumericOrderId, none,
      [cancelReject (some order) pending.clOrdId pending.origClOrdId pending.kind
        "core exchange connection failed"]⟩

def handleCancel (surroundings : Surroundings) (nextNumericOrderId : Nat) (message : Message)
    (session : SessionContext) : Effects :=
  match findWorkingOrder .cancel message session with
  | (session, .error reply) => ⟨session, nextNumericOrderId, none, [reply]⟩
  | (session, .ok (clOrdId, origClOrdId, numericOrderId, order)) =>
    forward surroundings nextNumericOrderId
      (.cancelOrder ⟨numericOrderId, surroundings.now, order.symbol⟩)
      { kind := .cancel, clOrdId := clOrdId, origClOrdId := origClOrdId } order session

/-- What a replace asks for: the new total quantity and the new price. -/
def replacementOf (message : Message) (order : OrderState) : Except String (UInt64 × Price) := do
  -- all three are looked up first, and the error is that of the last one missing
  let priceText ← requiredField 44 message
  let quantityText ← requiredField 38 message
  let symbol ← requiredField 55 message
  if symbol ≠ symbolToString order.symbol then .error "Symbol cannot change on replace"
  else if order.orderType ≠ .limit then .error "only working limit orders can be replaced"
  else
    let totalQuantity ← orError "invalid OrderQty" (parseQuantity quantityText)
    let newPrice ← orError "invalid Price" (parsePrice priceText)
    if totalQuantity.toNat ≤ order.cumulativeQuantity then
      .error "replacement OrderQty must exceed CumQty"
    else if (message.get 54).any fun side => translateSide side ≠ some order.side then
      .error "Side cannot change on replace"
    else .ok (totalQuantity, newPrice)

def handleReplace (surroundings : Surroundings) (nextNumericOrderId : Nat) (message : Message)
    (session : SessionContext) : Effects :=
  match findWorkingOrder .replace message session with
  | (session, .error reply) => ⟨session, nextNumericOrderId, none, [reply]⟩
  | (session, .ok (clOrdId, origClOrdId, _, order)) =>
    match replacementOf message order with
    | .error reason =>
      ⟨session, nextNumericOrderId, none,
        [cancelReject (some order) clOrdId origClOrdId .replace reason]⟩
    | .ok (totalQuantity, newPrice) =>
      let workingQuantity := totalQuantity.toNat - order.cumulativeQuantity
      forward surroundings nextNumericOrderId
        (.replaceOrder ⟨order.numericOrderId, surroundings.now, newPrice,
          UInt64.ofNat workingQuantity, order.symbol⟩)
        { kind := .replace
          clOrdId := clOrdId
          origClOrdId := origClOrdId
          replacementTotalQuantity := totalQuantity.toNat
          replacementWorkingQuantity := workingQuantity
          replacementPrice := newPrice } order session

def validateCompIds (config : FixGatewayConfig) (message : Message) (session : SessionContext) :
    Option String :=
  match message.get 49, message.get 56 with
  | some sender, some target =>
    if target ≠ config.senderCompId then some "TargetCompID does not match gateway"
    else if session.loggedOn ∧ sender ≠ session.clientCompId then
      some "SenderCompID changed during session"
    else none
  | _, _ => some "SenderCompID (49) and TargetCompID (56) are required"

def handleLogon (surroundings : Surroundings) (nextNumericOrderId : Nat) (reject : String → Reply)
    (message : Message) (session : SessionContext) : Effects :=
  if session.loggedOn then ⟨session, nextNumericOrderId, none, [reject "duplicate Logon"]⟩
  else
    match message.get 49, message.get 98, message.get 108 with
    | some sender, some encryptMethod, some heartbeat =>
      if encryptMethod ≠ text "0" then
        ⟨session, nextNumericOrderId, none, [reject "Logon requires 98=0 and HeartBtInt (108)"]⟩
      else
        match (parseU64 heartbeat).filter fun seconds => seconds ≠ 0 ∧ seconds ≤ 3600 with
        | none => ⟨session, nextNumericOrderId, none, [reject "invalid HeartBtInt"]⟩
        | some heartbeatSeconds =>
          let session := { session with
            clientCompId := sender
            heartbeatSeconds := heartbeatSeconds.toUInt32
            coreSocket := surroundings.coreSocket }
          if surroundings.coreSocket < 0 then
            ⟨{ session with closing := true }, nextNumericOrderId, none,
              [.logout (some "ExchangeLab core is unavailable")]⟩
          else
            ⟨{ session with loggedOn := true }, nextNumericOrderId, none,
              [.logon heartbeatSeconds.toUInt32]⟩
    | _, _, _ =>
      ⟨session, nextNumericOrderId, none, [reject "Logon requires 98=0 and HeartBtInt (108)"]⟩

def processFixMessage (config : FixGatewayConfig) (surroundings : Surroundings)
    (nextNumericOrderId : Nat) (message : Message) (session : SessionContext) : Effects :=
  match message.get 35, (message.get 34).bind parseU64 with
  | some msgType, some seqNum =>
    let reject (reason : String) : Reply := .sessionReject seqNum reason (some msgType)
    if seqNum ≠ session.expectedInboundSequence then
      ⟨session, nextNumericOrderId, none,
        [reject ("unexpected MsgSeqNum; expected " ++ toString session.expectedInboundSequence)]⟩
    else
      let session :=
        { session with expectedInboundSequence := session.expectedInboundSequence + 1 }
      match validateCompIds config message session with
      | some error => ⟨session, nextNumericOrderId, none, [reject error]⟩
      | none =>
        if msgType = text "A" then
          handleLogon surroundings nextNumericOrderId reject message session
        else if !session.loggedOn then
          ⟨session, nextNumericOrderId, none,
            [reject "Logon is required before application messages"]⟩
        else if msgType = text "0" then ⟨session, nextNumericOrderId, none, []⟩
        else if msgType = text "1" then
          ⟨session, nextNumericOrderId, none,
            [(message.get 112).elim (reject "TestRequest requires tag 112") .heartbeat]⟩
        else if msgType = text "5" then
          ⟨{ session with closing := true }, nextNumericOrderId, none, [.logout none]⟩
        else if msgType = text "D" then
          handleNewOrder surroundings nextNumericOrderId message session
        else if msgType = text "F" then
          handleCancel surroundings nextNumericOrderId message session
        else if msgType = text "G" then
          handleReplace surroundings nextNumericOrderId message session
        else ⟨session, nextNumericOrderId, none, [reject "unsupported MsgType"]⟩
  | _, _ =>
    ⟨session, nextNumericOrderId, none,
      [.sessionReject session.expectedInboundSequence
        "MsgType (35) and MsgSeqNum (34) are required" none]⟩

/-! ## The core's messages -/

end FixGateway

structure CoreMessage where
  header : MessageHeader
  body : Bytes

namespace FixGateway

/-- `extract_core_message`: a complete message and what is behind it. A header that is not one
empties the buffer. -/
def extractCoreMessage (buffer : Bytes) : Option CoreMessage × Bytes :=
  if buffer.length < headerSize then (none, buffer)
  else
    match decodeHeader (buffer.take headerSize) with
    | none => (none, [])
    | some header =>
      let totalSize := headerSize + header.bodySize.toNat
      if buffer.length < totalSize then (none, buffer)
      else
        (some ⟨header, (buffer.drop headerSize).take header.bodySize.toNat⟩, buffer.drop totalSize)

/-- The front entry of an order's requests is taken out; an empty queue goes with it. -/
def popFrontPending (orderId : OrderId) (rest : List PendingRequest) (session : SessionContext) :
    SessionContext :=
  { session with
    pending := if rest = [] then session.pending.erase orderId
      else session.pending.insert orderId rest }

def rejectionText : String := "rejected by ExchangeLab core or risk engine"

/-- What a response does to the order of the entry it has taken out. -/
def answerPending (orderId : OrderId) (pending : PendingRequest) (success : Bool)
    (order : OrderState) (session : SessionContext) : SessionContext × List Reply :=
  match pending.kind, success with
  | .new, true =>
    let order := { order with ordStatus := .new }
    let session := session.setOrder orderId order
    (if order.orderType = .market ∨ order.timeInForce ≠ .goodTillCancel then
        { session with nonRestingAwaitingBoundary :=
            session.nonRestingAwaitingBoundary.insert order.numericOrderId }
      else session,
      [executionReport order pending.clOrdId .new order.ordStatus])
  | .new, false =>
    let order := { order with leavesQuantity := 0, ordStatus := .rejected }
    (session.eraseOrder orderId order.currentClOrdId,
      [executionReport order pending.clOrdId .rejected .rejected none none none
        (some rejectionText)])
  | .cancel, true =>
    let order := { order with leavesQuantity := 0, ordStatus := .canceled }
    (session.setOrder orderId order,
      [executionReport order pending.clOrdId .canceled .canceled (some pending.origClOrdId)])
  | .cancel, false =>
    (session, [cancelReject (some order) pending.clOrdId pending.origClOrdId .cancel
      "cancel rejected by ExchangeLab core"])
  | .replace, true =>
    let order := { order with
      currentClOrdId := pending.clOrdId
      orderQuantity := pending.replacementTotalQuantity
      leavesQuantity := pending.replacementWorkingQuantity
      price := pending.replacementPrice
      ordStatus := if order.cumulativeQuantity = 0 then .new else .partiallyFilled }
    ({ session.setOrder orderId order with
        clOrdToOrder := emplace pending.clOrdId order.numericOrderId session.clOrdToOrder },
      [executionReport order pending.clOrdId .replaced order.ordStatus (some pending.origClOrdId)])
  | .replace, false =>
    (session, [cancelReject (some order) pending.clOrdId pending.origClOrdId .replace
      "replace rejected by ExchangeLab core or risk engine"])

def handleCoreOrderResponse (message : CoreMessage) (session : SessionContext) :
    SessionContext × List Reply :=
  match decodeOrderResponse message.body with
  | none => (session, [])
  | some response =>
    match session.pendingFor response.orderId with
    | [] => (session, [])
    | pending :: rest =>
      let session := popFrontPending response.orderId rest session
      match session.orders.lookup response.orderId with
      | none => (session, [])
      | some order =>
        let success := response.success ≠ 0 ∧ message.header.type ≠ .orderRejected
        answerPending response.orderId pending success order session

def selfTradeKey (execution : TradeExecution) : SelfTradeKey :=
  ⟨execution.buyOrderId, execution.sellOrderId, execution.price, execution.quantity⟩

def fillOrder (execution : TradeExecution) (order : OrderState) : OrderState :=
  let quantity := min order.leavesQuantity execution.quantity.toNat
  { order with
    cumulativeQuantity := order.cumulativeQuantity + quantity
    leavesQuantity := order.leavesQuantity - quantity
    ordStatus := if order.leavesQuantity - quantity = 0 then .filled else .partiallyFilled }

def applyTradeToOrder (orderId : OrderId) (execution : TradeExecution) (order : OrderState)
    (session : SessionContext) : SessionContext × Reply :=
  let filled := fillOrder execution order
  (session.setOrder orderId filled,
    executionReport filled filled.currentClOrdId .trade filled.ordStatus none
      (some (min order.leavesQuantity execution.quantity.toNat)) (some execution.price))

/-- Both orders of an execution are the session's: the first copy of it fills them, and the second,
which has the same key, is ignored. -/
def handleSelfTrade (execution : TradeExecution) (session : SessionContext) :
    SessionContext × List Reply :=
  if session.selfTradeDuplicateMessagesToIgnore > 0 ∧
      session.lastSelfTradeKey = some (selfTradeKey execution) then
    ({ session with selfTradeDuplicateMessagesToIgnore :=
        session.selfTradeDuplicateMessagesToIgnore - 1 }, [])
  else
    match session.orders.lookup execution.buyOrderId with
    | none => (session, [])
    | some buyOrder =>
      let (session, bought) := applyTradeToOrder execution.buyOrderId execution buyOrder session
      -- an order that trades with itself is filled twice
      match session.orders.lookup execution.sellOrderId with
      | none => (session, [bought])
      | some sellOrder =>
        let (session, sold) :=
          applyTradeToOrder execution.sellOrderId execution sellOrder session
        ({ session with
            lastSelfTradeKey := some (selfTradeKey execution)
            selfTradeDuplicateMessagesToIgnore := 1 }, [bought, sold])

def handleCoreTrade (message : CoreMessage) (session : SessionContext) :
    SessionContext × List Reply :=
  match decodeTradeExecution message.body with
  | none => (session, [])
  | some execution =>
    match session.orders.lookup execution.buyOrderId,
        session.orders.lookup execution.sellOrderId with
    | none, none => (session, [])
    | some _, some _ => handleSelfTrade execution session
    | some order, none =>
      let (session, reply) := applyTradeToOrder execution.buyOrderId execution order session
      (session, [reply])
    | none, some order =>
      let (session, reply) := applyTradeToOrder execution.sellOrderId execution order session
      (session, [reply])

/-- What the loop over the orders that wait for a book update has gathered. -/
structure Boundaries where
  orders : Finmap fun _ : OrderId => OrderState
  replies : List Reply := []
  completed : List OrderId := []

def finalizeOrder (symbol : Symbol) (done : Boundaries) (orderId : OrderId) : Boundaries :=
  match done.orders.lookup orderId with
  | none => { done with completed := done.completed ++ [orderId] }
  | some order =>
    if order.symbol ≠ symbol then done
    else if order.leavesQuantity > 0 then
      let order := { order with leavesQuantity := 0, ordStatus := .canceled }
      { orders := done.orders.insert orderId order
        replies := done.replies ++
          [executionReport order order.currentClOrdId .canceled .canceled none none none
            (some "non-resting remainder canceled")]
        completed := done.completed ++ [orderId] }
    else { done with completed := done.completed ++ [orderId] }

/-- `iteration` is the order in which the library walks the set. -/
def finalizeNonRestingOrders (iteration : SetOrder) (message : CoreMessage)
    (session : SessionContext) : SessionContext × List Reply :=
  match decodeBookUpdate message.body with
  | none => (session, [])
  | some update =>
    let done := (iteration.enumerate session.nonRestingAwaitingBoundary).foldl
      (finalizeOrder update.symbol) { orders := session.orders }
    ({ session with
        orders := done.orders
        nonRestingAwaitingBoundary :=
          session.nonRestingAwaitingBoundary.filter (· ∉ done.completed) }, done.replies)

/-- The message types that `handle_core_order_response` is called for. -/
def isOrderResponse (type : MessageType) : Bool :=
  type = .orderAccepted || type = .orderRejected || type = .orderCancelled || type = .orderReplaced

def processCoreMessage (iteration : SetOrder) (message : CoreMessage) (session : SessionContext) :
    SessionContext × List Reply :=
  if isOrderResponse message.header.type then handleCoreOrderResponse message session
  else if message.header.type = .tradeExecution then handleCoreTrade message session
  else if message.header.type = .bookUpdate then
    finalizeNonRestingOrders iteration message session
  else (session, [])

end FixGateway

end ExchangeLab

import ExchangeLab.Types
import Mathlib.Data.Finmap

/-!
# ExchangeLab.RiskEngine

The pre-trade risk engine: limits, per-client and per-symbol aggregates, the working orders they are
the totals of, the two checks and the three callbacks.

Aggregates are 64-bit and saturate; subtractions stop at zero. A client id comes from a counter that
starts at 1 and is never used up, so it is a natural number here.
-/

namespace ExchangeLab

abbrev RiskClientId := Nat

def invalidRiskClientId : RiskClientId := 0

inductive RiskRejectReason where
  | none
  | globalKillSwitch
  | clientKillSwitch
  | maxOrderQuantity
  | maxOrderNotional
  | maxOpenOrders
  | maxOpenQuantity
  | maxPosition
  | unknownWorkingOrder
  deriving DecidableEq, Repr

structure RiskLimits where
  maxOrderQuantity : Quantity := 100000
  maxOrderNotional : UInt64 := 10000000000
  maxOpenOrders : UInt64 := 10000
  maxOpenQuantity : UInt64 := 1000000
  maxPositionPerSymbol : UInt64 := 1000000
  deriving DecidableEq, Repr

structure RiskOrderRequest where
  clientId : RiskClientId := invalidRiskClientId
  symbol : List UInt8
  orderId : OrderId
  side : Side := .buy
  orderType : OrderType := .limit
  timeInForce : TimeInForce := .goodTillCancel
  price : Price
  quantity : Quantity
  referencePrice : Option Price := none

structure RiskDecision where
  accepted : Bool := true
  reason : RiskRejectReason := .none
  deriving DecidableEq, Repr

structure ClientRiskSnapshot where
  globalKillSwitch : Bool := false
  clientKillSwitch : Bool := false
  position : Int64 := 0
  openBuyQuantity : UInt64 := 0
  openSellQuantity : UInt64 := 0
  openOrders : UInt64 := 0
  grossOpenQuantity : UInt64 := 0
  deriving DecidableEq, Repr

structure SymbolState where
  position : Int64 := 0
  openBuyQuantity : UInt64 := 0
  openSellQuantity : UInt64 := 0
  deriving DecidableEq, Repr

structure ClientState where
  killSwitch : Bool := false
  openOrders : UInt64 := 0
  grossOpenQuantity : UInt64 := 0
  symbols : Finmap fun _ : List UInt8 => SymbolState := ∅

structure WorkingOrderKey where
  clientId : RiskClientId
  symbol : List UInt8
  orderId : OrderId
  deriving DecidableEq, Repr

structure WorkingOrder where
  side : Side
  price : Price
  remainingQuantity : Quantity
  deriving DecidableEq, Repr

structure RiskEngine where
  limits : RiskLimits
  globalKillSwitch : Bool := false
  clients : Finmap fun _ : RiskClientId => ClientState := ∅
  workingOrders : Finmap fun _ : WorkingOrderKey => WorkingOrder := ∅

def RiskDecision.accept : RiskDecision := ⟨true, .none⟩
def RiskDecision.reject (reason : RiskRejectReason) : RiskDecision := ⟨false, reason⟩

/-! ## Arithmetic -/

def saturatingAdd (left right : UInt64) : UInt64 :=
  if right > 0xFFFFFFFFFFFFFFFF - left then 0xFFFFFFFFFFFFFFFF else left + right

/-- `left >= right ? left - right : 0`. -/
def floorSub (left right : UInt64) : UInt64 := if left ≥ right then left - right else 0

/-- `absolute_position` and `absolute_price`. -/
def absoluteValue (value : Int64) : UInt64 :=
  if value ≥ 0 then value.toUInt64
  else if value = Int64.minValue then 0x8000000000000000
  else (-value).toUInt64

def absolutePosition (value : Int64) : UInt64 := absoluteValue value
def absolutePrice (value : Price) : UInt64 := absoluteValue value

namespace SymbolState

def openQuantity (state : SymbolState) : Side → UInt64
  | .buy => state.openBuyQuantity
  | .sell => state.openSellQuantity

def setOpenQuantity (state : SymbolState) (quantity : UInt64) : Side → SymbolState
  | .buy => { state with openBuyQuantity := quantity }
  | .sell => { state with openSellQuantity := quantity }

def applyPositionDelta (state : SymbolState) (side : Side) (quantity : Quantity) : SymbolState :=
  let quantity64 : Int64 := quantity.toUInt64.toInt64
  match side with
  | .buy =>
    if state.position > Int64.maxValue - quantity64 then { state with position := Int64.maxValue }
    else { state with position := state.position + quantity64 }
  | .sell =>
    if state.position < Int64.minValue + quantity64 then { state with position := Int64.minValue }
    else { state with position := state.position - quantity64 }

end SymbolState

namespace ClientState

def updateSymbol (client : ClientState) (symbol : List UInt8) (f : SymbolState → SymbolState) :
    ClientState :=
  { client with
    symbols := client.symbols.insert symbol (f ((client.symbols.lookup symbol).getD {})) }

/-- The part of an erased or reduced order leaves the aggregates of its client. -/
def release (client : ClientState) (quantity : Quantity) : ClientState :=
  { client with grossOpenQuantity := floorSub client.grossOpenQuantity quantity.toUInt64 }

def dropOpenOrder (client : ClientState) : ClientState :=
  if client.openOrders > 0 then { client with openOrders := client.openOrders - 1 } else client

end ClientState

namespace RiskEngine

def mayRest (orderType : OrderType) (timeInForce : TimeInForce) : Bool :=
  orderType = .limit && timeInForce = .goodTillCancel

def findClient (risk : RiskEngine) (clientId : RiskClientId) : Option ClientState :=
  risk.clients.lookup clientId

def findSymbolState (client : ClientState) (symbol : List UInt8) : Option SymbolState :=
  client.symbols.lookup symbol

/-- `client_for`: change the state of a client, new if absent. -/
def updateClient (risk : RiskEngine) (clientId : RiskClientId) (f : ClientState → ClientState) :
    RiskEngine :=
  { risk with
    clients := risk.clients.insert clientId (f ((risk.clients.lookup clientId).getD {})) }

/-! ### Checks -/

def checkCommonOrderLimits (risk : RiskEngine) (price : Price) (quantity : Quantity)
    (referencePrice : Option Price) : RiskDecision :=
  if quantity > risk.limits.maxOrderQuantity then .reject .maxOrderQuantity
  else
    let notionalPrice := referencePrice.getD price
    let priceMagnitude := absolutePrice notionalPrice
    if priceMagnitude ≠ 0 ∧
        quantity.toUInt64 > risk.limits.maxOrderNotional / priceMagnitude then
      .reject .maxOrderNotional
    else .accept

def positionLimitExceeded (risk : RiskEngine) (symbolState : Option SymbolState) (side : Side)
    (additionalQuantity : Quantity) (openBuyQuantity openSellQuantity : UInt64) : Bool :=
  let position : Int64 := match symbolState with
    | none => 0
    | some state => state.position
  match side with
  | .buy =>
    let buyExposure := saturatingAdd openBuyQuantity additionalQuantity.toUInt64
    let projectedLong :=
      if position ≥ 0 then saturatingAdd position.toUInt64 buyExposure
      else
        let shortPosition := absolutePosition position
        if buyExposure > shortPosition then buyExposure - shortPosition else 0
    projectedLong > risk.limits.maxPositionPerSymbol
  | .sell =>
    let sellExposure := saturatingAdd openSellQuantity additionalQuantity.toUInt64
    let projectedShort :=
      if position ≤ 0 then saturatingAdd (absolutePosition position) sellExposure
      else
        let longPosition := position.toUInt64
        if sellExposure > longPosition then sellExposure - longPosition else 0
    projectedShort > risk.limits.maxPositionPerSymbol

def checkNewOrder (risk : RiskEngine) (request : RiskOrderRequest) : RiskDecision :=
  if risk.globalKillSwitch then .reject .globalKillSwitch
  else
    let client := risk.findClient request.clientId
    if (client.map ClientState.killSwitch).getD false then .reject .clientKillSwitch
    else
      let common := risk.checkCommonOrderLimits request.price request.quantity request.referencePrice
      if !common.accepted then common
      else
        let symbolState := client.bind fun client => findSymbolState client request.symbol
        let currentOpenBuy := (symbolState.map SymbolState.openBuyQuantity).getD 0
        let currentOpenSell := (symbolState.map SymbolState.openSellQuantity).getD 0
        if risk.positionLimitExceeded symbolState request.side request.quantity currentOpenBuy
            currentOpenSell then .reject .maxPosition
        else if mayRest request.orderType request.timeInForce then
          let openOrders := (client.map ClientState.openOrders).getD 0
          if openOrders ≥ risk.limits.maxOpenOrders then .reject .maxOpenOrders
          else
            let grossOpenQuantity := (client.map ClientState.grossOpenQuantity).getD 0
            if saturatingAdd grossOpenQuantity request.quantity.toUInt64 >
                risk.limits.maxOpenQuantity then .reject .maxOpenQuantity
            else .accept
        else .accept

def checkReplace (risk : RiskEngine) (clientId : RiskClientId) (symbol : List UInt8)
    (orderId : OrderId) (newPrice : Price) (newQuantity : Quantity) : RiskDecision :=
  if risk.globalKillSwitch then .reject .globalKillSwitch
  else
    let client := risk.findClient clientId
    if (client.map ClientState.killSwitch).getD false then .reject .clientKillSwitch
    else
      match risk.workingOrders.lookup ⟨clientId, symbol, orderId⟩ with
      | none => .reject .unknownWorkingOrder
      | some existing =>
        let common := risk.checkCommonOrderLimits newPrice newQuantity none
        if !common.accepted then common
        else
          match client with
          | none => .reject .unknownWorkingOrder
          | some client =>
            if client.openOrders > risk.limits.maxOpenOrders then .reject .maxOpenOrders
            else
              let projectedGross := saturatingAdd
                (floorSub client.grossOpenQuantity existing.remainingQuantity.toUInt64)
                newQuantity.toUInt64
              if projectedGross > risk.limits.maxOpenQuantity then .reject .maxOpenQuantity
              else
                match findSymbolState client symbol with
                | none => .reject .unknownWorkingOrder
                | some symbolState =>
                  let remaining := existing.remainingQuantity.toUInt64
                  let adjusted := symbolState.setOpenQuantity
                    (floorSub (symbolState.openQuantity existing.side) remaining) existing.side
                  if risk.positionLimitExceeded (some symbolState) existing.side newQuantity
                      adjusted.openBuyQuantity adjusted.openSellQuantity then .reject .maxPosition
                  else .accept

/-! ### Callbacks -/

def eraseWorkingOrder (risk : RiskEngine) (key : WorkingOrderKey) : RiskEngine :=
  match risk.workingOrders.lookup key with
  | none => risk
  | some order =>
    let clients := match risk.clients.lookup key.clientId with
      | none => risk.clients
      | some client =>
        let client := client.dropOpenOrder.release order.remainingQuantity
        let client := match client.symbols.lookup key.symbol with
          | none => client
          | some _ => client.updateSymbol key.symbol fun state =>
            state.setOpenQuantity
              (floorSub (state.openQuantity order.side) order.remainingQuantity.toUInt64) order.side
        risk.clients.insert key.clientId client
    { risk with clients := clients, workingOrders := risk.workingOrders.erase key }

def onOrderResting (risk : RiskEngine) (clientId : RiskClientId) (symbol : List UInt8)
    (orderId : OrderId) (side : Side) (price : Price) (remainingQuantity : Quantity) : RiskEngine :=
  if clientId = invalidRiskClientId ∨ remainingQuantity = 0 then risk
  else
    let key : WorkingOrderKey := ⟨clientId, symbol, orderId⟩
    let risk := risk.eraseWorkingOrder key
    let risk := risk.updateClient clientId fun client =>
      { client.updateSymbol symbol fun state =>
          state.setOpenQuantity
            (saturatingAdd (state.openQuantity side) remainingQuantity.toUInt64) side with
        openOrders := client.openOrders + 1
        grossOpenQuantity := saturatingAdd client.grossOpenQuantity remainingQuantity.toUInt64 }
    { risk with
      workingOrders := risk.workingOrders.insert key ⟨side, price, remainingQuantity⟩ }

def onOrderCancelled (risk : RiskEngine) (clientId : RiskClientId) (symbol : List UInt8)
    (orderId : OrderId) : RiskEngine :=
  if clientId = invalidRiskClientId then risk
  else risk.eraseWorkingOrder ⟨clientId, symbol, orderId⟩

def reduceWorkingOrder (risk : RiskEngine) (clientId : RiskClientId) (symbol : List UInt8)
    (orderId : OrderId) (executedQuantity : Quantity) : RiskEngine :=
  let key : WorkingOrderKey := ⟨clientId, symbol, orderId⟩
  match risk.workingOrders.lookup key with
  | none => risk
  | some order =>
    let reduction := min order.remainingQuantity executedQuantity
    let risk := risk.updateClient clientId fun client =>
      (client.release reduction).updateSymbol symbol fun state =>
        state.setOpenQuantity
          (floorSub (state.openQuantity order.side) reduction.toUInt64) order.side
    let order := { order with remainingQuantity := order.remainingQuantity - reduction }
    if order.remainingQuantity = 0 then
      let risk := risk.updateClient clientId ClientState.dropOpenOrder
      { risk with workingOrders := risk.workingOrders.erase key }
    else { risk with workingOrders := risk.workingOrders.insert key order }

/-- The buyer's or the seller's half of `on_trade`. -/
def onTradeSide (risk : RiskEngine) (side : Side) (symbol : List UInt8) (clientId : RiskClientId)
    (orderId : OrderId) (quantity : Quantity) : RiskEngine :=
  if clientId = invalidRiskClientId then risk
  else
    let risk := risk.updateClient clientId fun client =>
      client.updateSymbol symbol fun state => state.applyPositionDelta side quantity
    risk.reduceWorkingOrder clientId symbol orderId quantity

def onTrade (risk : RiskEngine) (symbol : List UInt8) (buyerClientId sellerClientId : RiskClientId)
    (buyOrderId sellOrderId : OrderId) (quantity : Quantity) : RiskEngine :=
  if quantity = 0 then risk
  else
    let risk := risk.onTradeSide .buy symbol buyerClientId buyOrderId quantity
    risk.onTradeSide .sell symbol sellerClientId sellOrderId quantity

def setGlobalKillSwitch (risk : RiskEngine) (enabled : Bool) : RiskEngine :=
  { risk with globalKillSwitch := enabled }

def setClientKillSwitch (risk : RiskEngine) (clientId : RiskClientId) (enabled : Bool) :
    RiskEngine :=
  if clientId = invalidRiskClientId then risk
  else risk.updateClient clientId fun client => { client with killSwitch := enabled }

def snapshot (risk : RiskEngine) (clientId : RiskClientId) (symbol : List UInt8) :
    ClientRiskSnapshot :=
  match risk.findClient clientId with
  | none => { globalKillSwitch := risk.globalKillSwitch }
  | some client =>
    let snapshot : ClientRiskSnapshot :=
      { globalKillSwitch := risk.globalKillSwitch
        clientKillSwitch := client.killSwitch
        openOrders := client.openOrders
        grossOpenQuantity := client.grossOpenQuantity }
    match findSymbolState client symbol with
    | none => snapshot
    | some symbolState =>
      { snapshot with
        position := symbolState.position
        openBuyQuantity := symbolState.openBuyQuantity
        openSellQuantity := symbolState.openSellQuantity }

end RiskEngine

end ExchangeLab

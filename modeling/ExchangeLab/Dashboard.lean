import ExchangeLab.ExchangeServer

/-!
# ExchangeLab.Dashboard

The market data subscriber: the message that the WebSocket gateway makes of a broadcast
(`market_data_to_json`), and the reducer of the dashboard that keeps the instruments by symbol.

The orders of an instrument are a JavaScript `Map` keyed by order id, which keeps the order in which
its keys were first set: setting a key that is there changes its value in place, a new key goes last.
Numbers are exact integers. The tape, the telemetry and the rendering are left out.
-/

namespace ExchangeLab

open Wire Protocol Container

namespace Dashboard

structure Order where
  orderId : OrderId
  price : Price
  quantity : Int
  side : Side
  deriving DecidableEq, Repr

structure TopOfBook where
  price : Price
  quantity : Int
  deriving DecidableEq, Repr

inductive MarketMessage where
  | book (symbol : Bytes) (sequence : Nat) (hasBid : Bool) (bestBid : Price) (bidQuantity : Int)
      (hasAsk : Bool) (bestAsk : Price) (askQuantity : Int)
  | add (symbol : Bytes) (sequence : Nat) (orderId : OrderId) (timestamp : Timestamp) (price : Price)
      (quantity : Int) (side : Side)
  | execute (symbol : Bytes) (sequence : Nat) (buyOrderId sellOrderId : OrderId) (price : Price)
      (quantity : Int)
  | delete (symbol : Bytes) (sequence : Nat) (orderId : OrderId)

def MarketMessage.symbol : MarketMessage → Bytes
  | .book symbol .. => symbol
  | .add symbol .. => symbol
  | .execute symbol .. => symbol
  | .delete symbol .. => symbol

structure InstrumentView where
  bestBid : Option TopOfBook := none
  bestAsk : Option TopOfBook := none
  orders : List Order := []

/-! ## The map of orders -/

def get (orders : List Order) (orderId : OrderId) : Option Order :=
  orders.find? fun order => order.orderId = orderId

def set (orders : List Order) (order : Order) : List Order :=
  if orders.any fun other => other.orderId = order.orderId then
    orders.map fun other => if other.orderId = order.orderId then order else other
  else orders ++ [order]

def delete (orders : List Order) (orderId : OrderId) : List Order :=
  orders.filter fun order => order.orderId ≠ orderId

/-! ## Messages -/

/-- What an execution does to one of its two orders, if the map holds it. -/
def executeOrder (quantity : Int) (orders : List Order) (orderId : OrderId) : List Order :=
  match get orders orderId with
  | none => orders
  | some order =>
    let remaining := order.quantity - quantity
    if remaining > 0 then set orders { order with quantity := remaining } else orders

def InstrumentView.onMessage (instrument : InstrumentView) : MarketMessage → InstrumentView
  | .book _ _ hasBid bestBid bidQuantity hasAsk bestAsk askQuantity =>
    { instrument with
      bestBid := if hasBid then some ⟨bestBid, bidQuantity⟩ else none
      bestAsk := if hasAsk then some ⟨bestAsk, askQuantity⟩ else none }
  | .add _ _ orderId _ price quantity side =>
    { instrument with orders := set instrument.orders ⟨orderId, price, quantity, side⟩ }
  | .execute _ _ buyOrderId sellOrderId _ quantity =>
    { instrument with
      orders := [buyOrderId, sellOrderId].foldl (executeOrder quantity) instrument.orders }
  | .delete _ _ orderId => { instrument with orders := delete instrument.orders orderId }

abbrev Instruments := Finmap fun _ : Bytes => InstrumentView

def instrument (instruments : Instruments) (symbol : Bytes) : InstrumentView :=
  (instruments.lookup symbol).getD {}

def onMessage (previous : Instruments) (message : MarketMessage) : Instruments :=
  previous.insert message.symbol ((instrument previous message.symbol).onMessage message)

/-- `market_data_to_json`: only broadcasts have one. -/
def marketData (sent : Sent) : Option MarketMessage :=
  match sent.emission with
  | .bookUpdate snapshot =>
    some (.book (symbolToString snapshot.symbol) sent.sequenceNumber snapshot.hasBid
      (if snapshot.hasBid then snapshot.bestBid else 0)
      (if snapshot.hasBid then snapshot.bidQuantity.toNat else 0) snapshot.hasAsk
      (if snapshot.hasAsk then snapshot.bestAsk else 0)
      (if snapshot.hasAsk then snapshot.askQuantity.toNat else 0))
  | .level3AddOrder event =>
    some (.add (symbolToString event.symbol) sent.sequenceNumber event.orderId event.timestamp
      event.price event.quantity.toNat (if event.side = .buy then .buy else .sell))
  | .level3OrderExecuted event =>
    some (.execute (symbolToString event.symbol) sent.sequenceNumber event.buyOrderId
      event.sellOrderId event.price event.quantity.toNat)
  | .level3OrderDeleted event =>
    some (.delete (symbolToString event.symbol) sent.sequenceNumber event.orderId)
  | _ => none

/-- The instruments of a subscriber that starts empty. -/
def subscribe (feed : List Sent) : Instruments := (feed.filterMap marketData).foldl onMessage ∅

end Dashboard

end ExchangeLab

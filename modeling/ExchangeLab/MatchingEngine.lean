import ExchangeLab.OrderBook

/-!
# ExchangeLab.MatchingEngine

The matching engine: the loop that trades an incoming order against the best opposite level, the
rule for resting the remainder, and the three commands `processOrder`, `cancelOrder` and
`replaceOrder`.

`matchBuy` and `matchSell` mirror each other; both are `matchSide`. The `while` loop runs on fuel
equal to the incoming quantity. Every turn that does not throw trades at least one unit, so at fuel
`0` the loop condition is false already and the fuel is never what ends the loop.

The trade buffer is a list: what a call appended to it is the value the call returns.
-/

namespace ExchangeLab

open OrderBook

structure ReplaceResult where
  replaced : Bool
  trades : List Trade
  deriving DecidableEq, Repr

namespace MatchingEngine

/-- A price a limit order on side `s` may trade at. -/
def withinLimit : Side → Order → Price → Prop
  | .buy, incoming, best => incoming.price ≥ best
  | .sell, incoming, best => incoming.price ≤ best

instance (s : Side) (incoming : Order) (best : Price) : Decidable (withinLimit s incoming best) := by
  cases s <;> (unfold withinLimit; infer_instance)

/-- `buy_can_match` and `sell_can_match`. -/
def canMatch (s : Side) (incoming : Order) (book : OrderBook) : Bool :=
  if !book.hasLevels s.opposite then false
  else if incoming.type = .market then true
  else
    match book.bestPrice s.opposite with
    | .error _ => false
    | .ok best => withinLimit s incoming best

def buyCanMatch (incoming : Order) (book : OrderBook) : Bool := canMatch .buy incoming book
def sellCanMatch (incoming : Order) (book : OrderBook) : Bool := canMatch .sell incoming book

def mayRest (incoming : Order) : Bool :=
  incoming.type = .limit && incoming.timeInForce = .goodTillCancel

def validateIncoming (incoming : Order) : Except Fault Unit :=
  if incoming.remainingQuantity = 0 then
    .error (.invalidArgument "Incoming order quantity must be positive")
  else .ok ()

/-- The trade of an order incoming on side `s` with a resting order. -/
def tradeWith (s : Side) (incoming : Order) (restingOrderId : OrderId) (price : Price)
    (quantity : Quantity) : Trade where
  buyOrderId := match s with
    | .buy => incoming.id
    | .sell => restingOrderId
  sellOrderId := match s with
    | .buy => restingOrderId
    | .sell => incoming.id
  price := price
  quantity := quantity
  timestamp := incoming.timestamp

/-- One turn of the matching loop: trade with the order at the front of the best level, which is
updated in place. -/
def matchStep (s : Side) (incoming : Order) (trades : List Trade) (book : OrderBook) :
    Outcome OrderBook (Order × List Trade) :=
  match (book.levels s.opposite).first? with
  | none => .thrown (noLevels s.opposite) book
  | some (key, level) =>
    match level.front with
    | .error fault => .thrown fault book
    | .ok resting =>
      let tradeQuantity := min incoming.remainingQuantity resting.remainingQuantity
      let trades := trades ++ [tradeWith s incoming resting.id level.price tradeQuantity]
      let incoming :=
        { incoming with remainingQuantity := incoming.remainingQuantity - tradeQuantity }
      match level.fillFront tradeQuantity with
      | .error fault => .thrown fault book
      | .ok filled =>
        let book := book.setLevels s.opposite ((book.levels s.opposite).insert key filled)
        let book :=
          if tradeQuantity = resting.remainingQuantity then book.removeFromIndex resting.id
          else book
        .returned (incoming, trades) (book.removeBestIfEmpty s.opposite)

def matchLoop (s : Side) :
    Nat → Order → List Trade → OrderBook → Outcome OrderBook (Order × List Trade)
  | 0, incoming, trades, book => .returned (incoming, trades) book
  | fuel + 1, incoming, trades, book =>
    if incoming.remainingQuantity > 0 ∧ canMatch s incoming book then
      match matchStep s incoming trades book with
      | .thrown fault book => .thrown fault book
      | .returned (incoming, trades) book => matchLoop s fuel incoming trades book
    else .returned (incoming, trades) book

/-- `match_buy` and `match_sell`: the loop, then the remainder rests if it may. -/
def matchSide (s : Side) (incoming : Order) (book : OrderBook) : Outcome OrderBook (List Trade) :=
  match matchLoop s incoming.remainingQuantity.toNat incoming [] book with
  | .thrown fault book => .thrown fault book
  | .returned (incoming, trades) book =>
    if incoming.remainingQuantity > 0 ∧ mayRest incoming then
      match addOrder incoming book with
      | .thrown fault book => .thrown fault book
      | .returned _ book => .returned trades book
    else .returned trades book

def matchBuy (incoming : Order) (book : OrderBook) : Outcome OrderBook (List Trade) :=
  matchSide .buy incoming book

def matchSell (incoming : Order) (book : OrderBook) : Outcome OrderBook (List Trade) :=
  matchSide .sell incoming book

/-- A market order with the default time in force is treated as immediate-or-cancel. -/
def normalizeIncoming (incoming : Order) : Order :=
  if incoming.type = .market ∧ incoming.timeInForce = .goodTillCancel then
    { incoming with timeInForce := .immediateOrCancel }
  else incoming

def processOrderInto (incoming : Order) (book : OrderBook) : Outcome OrderBook (List Trade) :=
  let incoming := normalizeIncoming incoming
  match validateIncoming incoming with
  | .error fault => .thrown fault book
  | .ok () =>
    if incoming.timeInForce = .fillOrKill ∧
        book.executableQuantity incoming < incoming.remainingQuantity.toUInt64 then
      .returned [] book
    else
      if incoming.side = .buy then matchBuy incoming book else matchSell incoming book

def processOrder (incoming : Order) (book : OrderBook) : Outcome OrderBook (List Trade) :=
  processOrderInto incoming book

def cancelOrder (id : OrderId) (book : OrderBook) : Outcome OrderBook Bool :=
  book.cancelOrder id

def replaceOrderInto (id : OrderId) (newPrice : Price) (newQuantity : Quantity)
    (newTimestamp : Timestamp) (book : OrderBook) : Outcome OrderBook ReplaceResult :=
  if newQuantity = 0 then
    .thrown (.invalidArgument "Replacement quantity must be positive") book
  else
    match book.extractOrder id with
    | .thrown fault book => .thrown fault book
    | .returned none book => .returned ⟨false, []⟩ book
    | .returned (some existing) book =>
      let replacement :=
        { existing with
          price := newPrice
          initialQuantity := newQuantity
          remainingQuantity := newQuantity
          timestamp := newTimestamp }
      match processOrderInto replacement book with
      | .thrown fault book => .thrown fault book
      | .returned trades book => .returned ⟨true, trades⟩ book

def replaceOrder (id : OrderId) (newPrice : Price) (newQuantity : Quantity)
    (newTimestamp : Timestamp) (book : OrderBook) : Outcome OrderBook ReplaceResult :=
  replaceOrderInto id newPrice newQuantity newTimestamp book

end MatchingEngine

end ExchangeLab

import ExchangeLab.PriceLevel
import ExchangeLab.Lib.OrderedMap
import Mathlib.Data.Finmap

/-!
# ExchangeLab.OrderBook

The order book: two ordered maps of price levels, the index from order ids to list nodes, and the
node allocator. Nothing here assumes that the four agree; the calls update them one at a time, as
the source does, and `Book.Invariant` proves that they stay in step.

The buy and sell branches of the source are mirror images. They are one definition over the side;
`bestBid`, `bestAsk` and the like are that definition at one side.
-/

namespace ExchangeLab

open Container

/-- `BidLevels` and `AskLevels`: the level map of a side, best price first. -/
abbrev Levels (s : Side) := OrderedMap Price PriceLevel (better s)

structure OrderLocation where
  side : Side
  price : Price
  orderIterator : Nat
  deriving DecidableEq, Repr

structure OrderBook where
  bids : Levels .buy
  asks : Levels .sell
  orderLocations : Finmap fun _ : OrderId => OrderLocation
  nextNode : Nat

namespace OrderBook

def new : OrderBook := ⟨.empty, .empty, ∅, 0⟩

def levels (book : OrderBook) : (s : Side) → Levels s
  | .buy => book.bids
  | .sell => book.asks

def setLevels (book : OrderBook) : (s : Side) → Levels s → OrderBook
  | .buy, levels => { book with bids := levels }
  | .sell, levels => { book with asks := levels }

@[simp] theorem setLevels_levels_self (book : OrderBook) (s : Side) (l : Levels s) :
    (book.setLevels s l).levels s = l := by cases s <;> rfl
@[simp] theorem setLevels_levels_opposite (book : OrderBook) (s : Side) (l : Levels s) :
    (book.setLevels s l).levels s.opposite = book.levels s.opposite := by cases s <;> rfl
@[simp] theorem setLevels_levels_of_opposite (book : OrderBook) (s : Side) (l : Levels s.opposite) :
    (book.setLevels s.opposite l).levels s = book.levels s := by cases s <;> rfl
@[simp] theorem setLevels_orderLocations (book : OrderBook) (s : Side) (l : Levels s) :
    (book.setLevels s l).orderLocations = book.orderLocations := by cases s <;> rfl
@[simp] theorem setLevels_nextNode (book : OrderBook) (s : Side) (l : Levels s) :
    (book.setLevels s l).nextNode = book.nextNode := by cases s <;> rfl
@[simp] theorem setLevels_setLevels (book : OrderBook) (s : Side) (l l' : Levels s) :
    (book.setLevels s l).setLevels s l' = book.setLevels s l' := by cases s <;> rfl

/-- The nodes queued in a level map, best level first and each level front to back. -/
def queued {s : Side} (levels : Levels s) : List Node :=
  levels.entries.flatMap fun e => e.2.orders

def nodes (book : OrderBook) (s : Side) : List Node := queued (book.levels s)

def allNodes (book : OrderBook) : List Node := book.nodes .buy ++ book.nodes .sell

/-- Reading through an iterator: the node it points at is in one of the queues, or it dangles. -/
def deref (book : OrderBook) (orderIterator : Nat) : Option Order :=
  (book.allNodes.find? fun node => node.handle = orderIterator).map Node.order

def contains (book : OrderBook) (id : OrderId) : Bool := id ∈ book.orderLocations

def findOrder (book : OrderBook) (id : OrderId) : Option Order :=
  (book.orderLocations.lookup id).bind fun location => book.deref location.orderIterator

def orderCount (book : OrderBook) : Nat := book.orderLocations.keys.card

def empty (book : OrderBook) : Bool := book.bids.isEmpty && book.asks.isEmpty

def hasLevels (book : OrderBook) (s : Side) : Bool := !(book.levels s).isEmpty

def hasBids (book : OrderBook) : Bool := book.hasLevels .buy
def hasAsks (book : OrderBook) : Bool := book.hasLevels .sell

def noLevels : Side → Fault
  | .buy => .outOfRange "Order book has no bids"
  | .sell => .outOfRange "Order book has no asks"

def bestPrice (book : OrderBook) (s : Side) : Except Fault Price :=
  match (book.levels s).first? with
  | none => .error (noLevels s)
  | some (price, _) => .ok price

def bestBid (book : OrderBook) : Except Fault Price := book.bestPrice .buy
def bestAsk (book : OrderBook) : Except Fault Price := book.bestPrice .sell

def bestLevel (book : OrderBook) (s : Side) : Except Fault PriceLevel :=
  match (book.levels s).first? with
  | none => .error (noLevels s)
  | some (_, level) => .ok level

def bestBidLevel (book : OrderBook) : Except Fault PriceLevel := book.bestLevel .buy
def bestAskLevel (book : OrderBook) : Except Fault PriceLevel := book.bestLevel .sell

/-- `level_result = levels.try_emplace(price, price)`: the level at `price`, new if absent. -/
def levelAt (book : OrderBook) (s : Side) (price : Price) : PriceLevel :=
  ((book.levels s).find? price).getD (.new price)

def addOrder (order : Order) (book : OrderBook) : Outcome OrderBook Unit :=
  if book.contains order.id then
    .thrown (.invalidArgument "Duplicate order ID") book
  else if order.type ≠ .limit then
    .thrown (.invalidArgument "Only limit orders may rest on the order book") book
  else if order.remainingQuantity = 0 then
    .thrown (.invalidArgument "Order quantity must be positive") book
  else
    let level := book.levelAt order.side order.price
    let book :=
      book.setLevels order.side ((book.levels order.side).insert order.price level)
    match level.addOrder book.nextNode order with
    | .error fault => .thrown fault book
    | .ok level =>
      let location : OrderLocation := ⟨order.side, order.price, book.nextNode⟩
      .returned ()
        { book.setLevels order.side ((book.levels order.side).insert order.price level) with
          orderLocations := book.orderLocations.insert order.id location
          nextNode := book.nextNode + 1 }

def indexInconsistent : Side → Fault
  | .buy => .logicError "Bid order index is inconsistent"
  | .sell => .logicError "Ask order index is inconsistent"

/-- Write a level back, or drop it from its map when its queue has become empty. -/
def storeLevel {s : Side} (levels : Levels s) (price : Price) (level : PriceLevel) : Levels s :=
  if level.empty then levels.erase price else levels.insert price level

def extractOrder (id : OrderId) (book : OrderBook) : Outcome OrderBook (Option Order) :=
  match book.orderLocations.lookup id with
  | none => .returned none book
  | some location =>
    match book.deref location.orderIterator with
    | none => .thrown .danglingIterator book
    | some extractedOrder =>
      match (book.levels location.side).find? location.price with
      | none => .thrown (indexInconsistent location.side) book
      | some level =>
        match level.erase location.orderIterator with
        | .error fault => .thrown fault book
        | .ok level =>
          .returned (some extractedOrder)
            { book.setLevels location.side
                (storeLevel (book.levels location.side) location.price level) with
              orderLocations := book.orderLocations.erase id }

def cancelOrder (id : OrderId) (book : OrderBook) : Outcome OrderBook Bool :=
  match book.extractOrder id with
  | .returned extracted book => .returned extracted.isSome book
  | .thrown fault book => .thrown fault book

/-- A price a limit order on side `s` may not trade at. -/
def beyondLimit : Side → Order → Price → Prop
  | .buy, incoming, price => price > incoming.price
  | .sell, incoming, price => price < incoming.price

instance (s : Side) (incoming : Order) (price : Price) : Decidable (beyondLimit s incoming price) := by
  cases s <;> (unfold beyondLimit; infer_instance)

/-- The scan over the opposite levels; it stops at the limit price or once enough is found. -/
def executableQuantityLoop (incoming : Order) (available : UInt64) :
    List (Price × PriceLevel) → UInt64
  | [] => available
  | (price, level) :: rest =>
    if incoming.type = .limit ∧ beyondLimit incoming.side incoming price then available
    else
      let available := available + level.totalQuantity.toUInt64
      if available ≥ incoming.remainingQuantity.toUInt64 then available
      else executableQuantityLoop incoming available rest

def executableQuantity (book : OrderBook) (incoming : Order) : UInt64 :=
  executableQuantityLoop incoming 0 (book.levels incoming.side.opposite).entries

/-- `remove_best_bid_if_empty` and `remove_best_ask_if_empty`. -/
def removeBestIfEmpty (book : OrderBook) (s : Side) : OrderBook :=
  match (book.levels s).first? with
  | none => book
  | some (price, level) =>
    if level.empty then book.setLevels s ((book.levels s).erase price) else book

def removeBestBidIfEmpty (book : OrderBook) : OrderBook := book.removeBestIfEmpty .buy
def removeBestAskIfEmpty (book : OrderBook) : OrderBook := book.removeBestIfEmpty .sell

def removeFromIndex (book : OrderBook) (id : OrderId) : OrderBook :=
  { book with orderLocations := book.orderLocations.erase id }

end OrderBook

end ExchangeLab

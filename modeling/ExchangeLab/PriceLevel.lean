import ExchangeLab.Types

/-!
# ExchangeLab.PriceLevel

One price level: a FIFO queue of orders and the running total of their remaining quantities.

The queue is a linked list and the order index keeps iterators into it, so a queued order is a
`Node`: the order with the identity of its list node. Erasing other nodes leaves an iterator valid,
and erasing the node itself makes it dangle, exactly as for `std::list`.
-/

namespace ExchangeLab

/-- A list node: its identity (what an iterator holds) and the order stored in it. -/
structure Node where
  handle : Nat
  order : Order
  deriving DecidableEq, Repr

structure PriceLevel where
  price : Price
  totalQuantity : Quantity
  orders : List Node
  deriving DecidableEq, Repr

namespace PriceLevel

def new (price : Price) : PriceLevel := ⟨price, 0, []⟩

def empty (level : PriceLevel) : Bool := level.orders.isEmpty

def front (level : PriceLevel) : Except Fault Order :=
  match level.orders with
  | [] => .error (.outOfRange "Price level is empty")
  | node :: _ => .ok node.order

/-- `handle` is the node the list allocates for the order. -/
def addOrder (level : PriceLevel) (handle : Nat) (order : Order) : Except Fault PriceLevel :=
  if order.remainingQuantity = 0 then
    .error (.invalidArgument "Order quantity must be positive")
  else if order.price ≠ level.price then
    .error (.invalidArgument "Order price does not match price level")
  else
    .ok { level with
      totalQuantity := level.totalQuantity + order.remainingQuantity
      orders := level.orders ++ [⟨handle, order⟩] }

/-- The total is checked before it is reduced: it is a 32-bit counter and may have wrapped. -/
def erase (level : PriceLevel) (orderIterator : Nat) : Except Fault PriceLevel :=
  match level.orders.find? fun node => node.handle = orderIterator with
  | none => .error .danglingIterator
  | some node =>
    if node.order.remainingQuantity > level.totalQuantity then
      .error (.logicError "Price level quantity is inconsistent")
    else
      .ok { level with
        totalQuantity := level.totalQuantity - node.order.remainingQuantity
        orders := level.orders.filter fun node => node.handle ≠ orderIterator }

def fillFront (level : PriceLevel) (quantity : Quantity) : Except Fault PriceLevel :=
  match level.orders with
  | [] => .error (.outOfRange "Cannot fill an empty price level")
  | node :: rest =>
    if quantity = 0 then
      .error (.invalidArgument "Fill quantity must be positive")
    else if quantity > node.order.remainingQuantity then
      .error (.invalidArgument "Fill quantity exceeds remaining order quantity")
    else
      let order :=
        { node.order with remainingQuantity := node.order.remainingQuantity - quantity }
      .ok { level with
        totalQuantity := level.totalQuantity - quantity
        orders := if order.isFilled then rest else { node with order := order } :: rest }

end PriceLevel

end ExchangeLab

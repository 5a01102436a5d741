import ExchangeLab.Journal
import ExchangeLab.MatchingEngine

/-!
# ExchangeLab.Replay

The journal reader: it reads length-prefixed records to the end of the file and applies each command
to the book of its symbol. A record it cannot use is counted and skipped; a length it cannot use, or
a record cut short, ends the replay with a failure.

The loop runs on fuel above the length of the file. Every turn that goes on consumes a record of at
least `headerSize` bytes, so the fuel is never what ends it.
-/

namespace ExchangeLab

open Wire Protocol OrderBook MatchingEngine

def maximumRecordSize : Nat := 1024 * 1024

def decodeRecordLength (bytes : Bytes) : UInt32 := UInt32.ofNat (decode bytes)

/-- The largest `Quantity`, as the 64-bit quantity of a request. -/
def maximumQuantity : UInt64 := 0xFFFFFFFF

structure ReplaySummary where
  journalRecords : UInt64 := 0
  newOrders : UInt64 := 0
  trades : UInt64 := 0
  rejectedMessages : UInt64 := 0
  unsupportedMessages : UInt64 := 0
  symbols : UInt64 := 0
  deriving DecidableEq, Repr

/-- The books of a set of symbols; a `std::unordered_map` from their texts. -/
abbrev Books := Finmap fun _ : Bytes => OrderBook

structure ExchangeReplayer where
  books : Books
  summary : ReplaySummary

namespace ExchangeReplayer

def new : ExchangeReplayer := ⟨∅, {}⟩

def convertSide (side : Protocol.Side) : Side := if side = .buy then .buy else .sell

def convertOrderType (type : Protocol.OrderType) : OrderType :=
  if type = .limit then .limit else .market

def convertTimeInForce (timeInForce : Protocol.TimeInForce) : TimeInForce :=
  if timeInForce = .goodTillCancel then .goodTillCancel
  else if timeInForce = .immediateOrCancel then .immediateOrCancel
  else if timeInForce = .fillOrKill then .fillOrKill
  else .goodTillCancel

/-- `book_for`: the book of a symbol, new if absent. -/
def bookFor (replayer : ExchangeReplayer) (symbol : Bytes) : OrderBook :=
  (replayer.books.lookup symbol).getD .new

def store (replayer : ExchangeReplayer) (symbol : Bytes) (book : OrderBook) : ExchangeReplayer :=
  { replayer with books := replayer.books.insert symbol book }

def countRecord (replayer : ExchangeReplayer) : ExchangeReplayer :=
  { replayer with
    summary := { replayer.summary with journalRecords := replayer.summary.journalRecords + 1 } }

def countRejected (replayer : ExchangeReplayer) : ExchangeReplayer :=
  { replayer with
    summary := { replayer.summary with rejectedMessages := replayer.summary.rejectedMessages + 1 } }

def countUnsupported (replayer : ExchangeReplayer) : ExchangeReplayer :=
  { replayer with summary :=
      { replayer.summary with unsupportedMessages := replayer.summary.unsupportedMessages + 1 } }

def countNewOrder (replayer : ExchangeReplayer) : ExchangeReplayer :=
  { replayer with
    summary := { replayer.summary with newOrders := replayer.summary.newOrders + 1 } }

def countTrades (replayer : ExchangeReplayer) (trades : List Trade) : ExchangeReplayer :=
  { replayer with summary :=
      { replayer.summary with trades := replayer.summary.trades + UInt64.ofNat trades.length } }

/-- `summary_.symbols = books_.size()`, set when the replay has reached the end of the file. -/
def finish (replayer : ExchangeReplayer) : ExchangeReplayer :=
  { replayer with
    summary := { replayer.summary with symbols := UInt64.ofNat replayer.books.keys.card } }

def orderOf (request : NewOrderRequest) : Order where
  id := request.orderId
  side := convertSide request.side
  type := convertOrderType request.orderType
  timeInForce := convertTimeInForce request.timeInForce
  price := request.price
  initialQuantity := request.quantity.toUInt32
  remainingQuantity := request.quantity.toUInt32
  timestamp := request.timestamp

def applyNewOrder (body : Bytes) (replayer : ExchangeReplayer) : ExchangeReplayer :=
  match decodeNewOrder body with
  | none => replayer.countRejected
  | some request =>
    if request.quantity > maximumQuantity then replayer.countRejected
    else
      let symbol := symbolToString request.symbol
      if symbol = [] then replayer.countRejected
      else
        match processOrderInto (orderOf request) (replayer.bookFor symbol) with
        | .thrown _ book => (replayer.store symbol book).countRejected
        | .returned trades book => ((replayer.store symbol book).countNewOrder).countTrades trades

def applyCancelOrder (body : Bytes) (replayer : ExchangeReplayer) : ExchangeReplayer :=
  match decodeCancelOrder body with
  | none => replayer.countRejected
  | some request =>
    let symbol := symbolToString request.symbol
    if symbol = [] then replayer.countRejected
    else
      match replayer.books.lookup symbol with
      | none => replayer.countRejected
      | some book =>
        match MatchingEngine.cancelOrder request.orderId book with
        | .thrown _ book => (replayer.store symbol book).countRejected
        | .returned cancelled book =>
          if !cancelled then (replayer.store symbol book).countRejected
          else replayer.store symbol book

def applyReplaceOrder (body : Bytes) (replayer : ExchangeReplayer) : ExchangeReplayer :=
  match decodeReplaceOrder body with
  | none => replayer.countRejected
  | some request =>
    if request.newQuantity > maximumQuantity then replayer.countRejected
    else
      let symbol := symbolToString request.symbol
      if symbol = [] then replayer.countRejected
      else
        match replayer.books.lookup symbol with
        | none => replayer.countRejected
        | some book =>
          match replaceOrder request.orderId request.newPrice request.newQuantity.toUInt32
              request.timestamp book with
          | .thrown _ book => (replayer.store symbol book).countRejected
          | .returned result book =>
            if !result.replaced then (replayer.store symbol book).countRejected
            else (replayer.store symbol book).countTrades result.trades

/-- The body of the record loop. The `catch` of the source is the `thrown` branch of each command. -/
def applyRecord (record : Bytes) (replayer : ExchangeReplayer) : ExchangeReplayer :=
  let replayer := replayer.countRecord
  match decodeHeader (record.take headerSize) with
  | none => replayer.countRejected
  | some header =>
    if record.length ≠ headerSize + header.bodySize.toNat then replayer.countRejected
    else
      let body := record.drop headerSize
      if header.type = .newOrder then applyNewOrder body replayer
      else if header.type = .cancelOrder then applyCancelOrder body replayer
      else if header.type = .replaceOrder then applyReplaceOrder body replayer
      else replayer.countUnsupported

def replayLoop : Nat → Bytes → ExchangeReplayer → Bool × ExchangeReplayer
  | 0, _, replayer => (false, replayer)
  | fuel + 1, input, replayer =>
    match takeExactly recordLengthSize input with
    | none => (true, replayer.finish)
    | some (lengthBytes, input) =>
      let recordSize := (decodeRecordLength lengthBytes).toNat
      if recordSize < headerSize ∨ recordSize > maximumRecordSize then
        (false, replayer.countRejected)
      else
        match takeExactly recordSize input with
        | none => (false, replayer.countRejected)
        | some (record, input) => replayLoop fuel input (applyRecord record replayer)

/-- Replay of a file, or of a path that does not open. -/
def replay : Option Bytes → Bool × ExchangeReplayer
  | none => (false, new)
  | some file => replayLoop (file.length + 1) file new

/-- `release_order_books`: what a start of the server takes over. -/
def releaseOrderBooks (replayer : ExchangeReplayer) : Books := replayer.books

end ExchangeReplayer

end ExchangeLab

import ExchangeLab.Lib.Framing

/-!
# ExchangeLab.Protocol

The binary protocol: message types, the records of each body, and their encoders and decoders.

The cursor `offset` of the source is the part of the input that is left to read. An enumeration of
the wire is a code of its width: the decoders, and nothing else, check that it is a known one.

`WireInteger` carries the two laws of an integer type on the wire, and `readInteger_writeInteger`
and `readInteger_exact` pass them on to every field of every format.
-/

namespace ExchangeLab

namespace Protocol

open Wire

def protocolMagic : UInt32 := 0x45584C42
def protocolVersion : UInt16 := 3

structure MessageType where
  code : UInt16
  deriving DecidableEq, Repr

namespace MessageType
def newOrder : MessageType := ⟨1⟩
def cancelOrder : MessageType := ⟨2⟩
def replaceOrder : MessageType := ⟨3⟩
def orderAccepted : MessageType := ⟨100⟩
def orderRejected : MessageType := ⟨101⟩
def orderCancelled : MessageType := ⟨102⟩
def orderReplaced : MessageType := ⟨103⟩
def tradeExecution : MessageType := ⟨104⟩
def bookUpdate : MessageType := ⟨105⟩
def level3AddOrder : MessageType := ⟨200⟩
def level3OrderExecuted : MessageType := ⟨201⟩
def level3OrderDeleted : MessageType := ⟨202⟩
end MessageType

structure Side where
  code : UInt8
  deriving DecidableEq, Repr

def Side.buy : Side := ⟨1⟩
def Side.sell : Side := ⟨2⟩

structure OrderType where
  code : UInt8
  deriving DecidableEq, Repr

def OrderType.limit : OrderType := ⟨1⟩
def OrderType.market : OrderType := ⟨2⟩

structure TimeInForce where
  code : UInt8
  deriving DecidableEq, Repr

def TimeInForce.goodTillCancel : TimeInForce := ⟨0⟩
def TimeInForce.immediateOrCancel : TimeInForce := ⟨1⟩
def TimeInForce.fillOrKill : TimeInForce := ⟨2⟩

/-! ## Symbols -/

def symbolSize : Nat := 8

structure Symbol where
  chars : Bytes
  size : chars.length = symbolSize
  deriving DecidableEq

/-- `"TEST"`, padded with terminators. -/
def defaultSymbol : Symbol := ⟨[84, 69, 83, 84, 0, 0, 0, 0], rfl⟩

/-- `'A'..'Z'`, `'0'..'9'`, `'.'` and `'-'`. -/
def isValidSymbolCharacter (character : UInt8) : Bool :=
  (character ≥ 65 && character ≤ 90) || (character ≥ 48 && character ≤ 57) ||
    character = 46 || character = 45

def isValidSymbolLoop (sawCharacter sawTerminator : Bool) : Bytes → Bool
  | [] => sawCharacter
  | character :: rest =>
    if character = 0 then isValidSymbolLoop sawCharacter true rest
    else if sawTerminator then false
    else if !isValidSymbolCharacter character then false
    else isValidSymbolLoop true sawTerminator rest

def isValidSymbol (symbol : Symbol) : Bool := isValidSymbolLoop false false symbol.chars

theorem size_replicate : (List.replicate symbolSize (0 : UInt8)).length = symbolSize := rfl

theorem size_padded {text : Bytes} (h : ¬(text = [] ∨ text.length > symbolSize)) :
    (text ++ List.replicate (symbolSize - text.length) 0).length = symbolSize := by
  rw [List.length_append, List.length_replicate]
  omega

/-- The symbol with a given text; a text that is not one makes the empty symbol. -/
def makeSymbol (text : Bytes) : Symbol :=
  if h : text = [] ∨ text.length > symbolSize then ⟨List.replicate symbolSize 0, size_replicate⟩
  else if !text.all isValidSymbolCharacter then ⟨List.replicate symbolSize 0, size_replicate⟩
  else ⟨text ++ List.replicate (symbolSize - text.length) 0, size_padded h⟩

/-- The text of a symbol, as the bytes of a `std::string`. -/
def symbolToString (symbol : Symbol) : Bytes :=
  if !isValidSymbol symbol then [] else symbol.chars.takeWhile (· ≠ 0)

theorem symbolToString_ne_nil {symbol : Symbol} (h : isValidSymbol symbol = true) :
    symbolToString symbol ≠ [] := by
  rw [symbolToString, h]
  intro hnil
  have hsize := symbol.size
  cases hc : symbol.chars with
  | nil => simp [hc, symbolSize] at hsize
  | cons c cs =>
    simp only [hc, Bool.not_true, Bool.false_eq_true, if_false, List.takeWhile_cons] at hnil
    split at hnil
    · cases hnil
    · -- a leading terminator leaves no character to come
      rename_i h0
      have hfalse : ∀ rest, isValidSymbolLoop false true rest = false := by
        intro rest
        induction rest with
        | nil => rfl
        | cons d ds ih => simp [isValidSymbolLoop, ih]
      simp only [ne_eq, decide_not, Bool.not_eq_true', decide_eq_false_iff_not, not_not] at h0
      simp [isValidSymbol, hc, isValidSymbolLoop, h0, hfalse] at h

/-! ## Integers on the wire -/

class WireInteger (α : Type) where
  size : Nat
  toUnsigned : α → Nat
  ofUnsigned : Nat → α
  toUnsigned_lt : ∀ x, toUnsigned x < 256 ^ size
  ofUnsigned_toUnsigned : ∀ x, ofUnsigned (toUnsigned x) = x
  toUnsigned_ofUnsigned : ∀ n, n < 256 ^ size → toUnsigned (ofUnsigned n) = n

instance : WireInteger UInt8 where
  size := 1
  toUnsigned := UInt8.toNat
  ofUnsigned := UInt8.ofNat
  toUnsigned_lt x := x.toNat_lt
  ofUnsigned_toUnsigned _ := UInt8.ofNat_toNat
  toUnsigned_ofUnsigned _ h := UInt8.toNat_ofNat_of_lt' h

instance : WireInteger UInt16 where
  size := 2
  toUnsigned := UInt16.toNat
  ofUnsigned := UInt16.ofNat
  toUnsigned_lt x := x.toNat_lt
  ofUnsigned_toUnsigned _ := UInt16.ofNat_toNat
  toUnsigned_ofUnsigned _ h := UInt16.toNat_ofNat_of_lt' h

instance : WireInteger UInt32 where
  size := 4
  toUnsigned := UInt32.toNat
  ofUnsigned := UInt32.ofNat
  toUnsigned_lt x := x.toNat_lt
  ofUnsigned_toUnsigned _ := UInt32.ofNat_toNat
  toUnsigned_ofUnsigned _ h := UInt32.toNat_ofNat_of_lt' h

instance : WireInteger UInt64 where
  size := 8
  toUnsigned := UInt64.toNat
  ofUnsigned := UInt64.ofNat
  toUnsigned_lt x := x.toNat_lt
  ofUnsigned_toUnsigned _ := UInt64.ofNat_toNat
  toUnsigned_ofUnsigned _ h := UInt64.toNat_ofNat_of_lt' h

/-- A signed integer travels as the unsigned one with its bits. -/
instance : WireInteger Int64 where
  size := 8
  toUnsigned x := x.toUInt64.toNat
  ofUnsigned n := (UInt64.ofNat n).toInt64
  toUnsigned_lt x := x.toUInt64.toNat_lt
  ofUnsigned_toUnsigned x := by rw [UInt64.ofNat_toNat]; rfl
  toUnsigned_ofUnsigned _ h := UInt64.toNat_ofNat_of_lt' h

section Integer

variable {α : Type} [WireInteger α]

def writeInteger (value : α) : Bytes :=
  encode (WireInteger.size α) (WireInteger.toUnsigned value)

def readInteger (α : Type) [WireInteger α] (input : Bytes) : Option (α × Bytes) :=
  (read (WireInteger.size α) input).map fun (n, rest) => (WireInteger.ofUnsigned n, rest)

@[simp] theorem length_writeInteger (value : α) :
    (writeInteger value).length = WireInteger.size α := length_encode _ _

@[simp] theorem readInteger_writeInteger (value : α) (rest : Bytes) :
    readInteger α (writeInteger value ++ rest) = some (value, rest) := by
  rw [readInteger, writeInteger, read_encode rest (WireInteger.toUnsigned_lt value)]
  simp [WireInteger.ofUnsigned_toUnsigned]

@[simp] theorem readInteger_writeInteger_end (value : α) :
    readInteger α (writeInteger value) = some (value, []) := by
  simpa using readInteger_writeInteger value []

theorem readInteger_exact {value : α} {input rest : Bytes}
    (h : readInteger α input = some (value, rest)) : input = writeInteger value ++ rest := by
  obtain ⟨⟨n, rest'⟩, hread, heq⟩ := Option.map_eq_some_iff.mp h
  obtain ⟨rfl, hlt⟩ := read_exact hread
  cases heq
  rw [writeInteger, WireInteger.toUnsigned_ofUnsigned n hlt]

end Integer

def writeSymbol (symbol : Symbol) : Bytes := symbol.chars

def readSymbol (input : Bytes) : Option (Symbol × Bytes) :=
  if h : input.length < symbolSize then none
  else
    let symbol : Symbol := ⟨input.take symbolSize, by rw [List.length_take]; omega⟩
    if !isValidSymbol symbol then none else some (symbol, input.drop symbolSize)

/-! ## Messages -/

structure MessageHeader where
  magic : UInt32
  version : UInt16
  type : MessageType
  bodySize : UInt32
  sequenceNumber : UInt64
  deriving DecidableEq, Repr

structure NewOrderRequest where
  orderId : UInt64
  timestamp : UInt64
  price : Int64
  quantity : UInt64
  side : Side
  orderType : OrderType
  timeInForce : TimeInForce
  symbol : Symbol := defaultSymbol
  deriving DecidableEq

structure CancelOrderRequest where
  orderId : UInt64
  timestamp : UInt64
  symbol : Symbol := defaultSymbol
  deriving DecidableEq

structure ReplaceOrderRequest where
  orderId : UInt64
  timestamp : UInt64
  newPrice : Int64
  newQuantity : UInt64
  symbol : Symbol := defaultSymbol
  deriving DecidableEq

structure OrderResponse where
  orderId : UInt64
  sequenceNumber : UInt64
  success : UInt8
  deriving DecidableEq, Repr

structure TradeExecution where
  buyOrderId : UInt64
  sellOrderId : UInt64
  price : Int64
  quantity : UInt64
  sequenceNumber : UInt64
  symbol : Symbol := defaultSymbol
  deriving DecidableEq

structure BookUpdate where
  hasBid : UInt8
  bestBid : Int64
  bidQuantity : UInt64
  hasAsk : UInt8
  bestAsk : Int64
  askQuantity : UInt64
  sequenceNumber : UInt64
  symbol : Symbol := defaultSymbol
  deriving DecidableEq

structure Level3AddOrder where
  orderId : UInt64
  timestamp : UInt64
  price : Int64
  quantity : UInt64
  side : Side
  sequenceNumber : UInt64
  symbol : Symbol := defaultSymbol
  deriving DecidableEq

structure Level3OrderExecuted where
  buyOrderId : UInt64
  sellOrderId : UInt64
  price : Int64
  quantity : UInt64
  sequenceNumber : UInt64
  symbol : Symbol := defaultSymbol
  deriving DecidableEq

structure Level3OrderDeleted where
  orderId : UInt64
  sequenceNumber : UInt64
  symbol : Symbol := defaultSymbol
  deriving DecidableEq

def headerSize : Nat := 20
def newOrderBodySize : Nat := 43
def cancelOrderBodySize : Nat := 24
def replaceOrderBodySize : Nat := 40
def orderResponseBodySize : Nat := 17
def tradeExecutionBodySize : Nat := 48
def bookUpdateBodySize : Nat := 50
def level3AddOrderBodySize : Nat := 49
def level3OrderExecutedBodySize : Nat := 48
def level3OrderDeletedBodySize : Nat := 24

/-! ## Encoders and decoders -/

def encodeHeader (header : MessageHeader) : Bytes :=
  writeInteger header.magic ++ (writeInteger header.version ++
    (writeInteger header.type.code ++ (writeInteger header.bodySize ++
      writeInteger header.sequenceNumber)))

def decodeHeader (input : Bytes) : Option MessageHeader :=
  if input.length ≠ headerSize then none
  else do
    let (magic, input) ← readInteger UInt32 input
    let (version, input) ← readInteger UInt16 input
    let (type, input) ← readInteger UInt16 input
    let (bodySize, input) ← readInteger UInt32 input
    let (sequenceNumber, _) ← readInteger UInt64 input
    if magic ≠ protocolMagic ∨ version ≠ protocolVersion then none
    else some ⟨magic, version, ⟨type⟩, bodySize, sequenceNumber⟩

def encodeNewOrder (request : NewOrderRequest) : Bytes :=
  writeInteger request.orderId ++ (writeInteger request.timestamp ++
    (writeInteger request.price ++ (writeInteger request.quantity ++
      (writeInteger request.side.code ++ (writeInteger request.orderType.code ++
        (writeInteger request.timeInForce.code ++ writeSymbol request.symbol))))))

def decodeNewOrder (input : Bytes) : Option NewOrderRequest :=
  if input.length ≠ newOrderBodySize then none
  else do
    let (orderId, input) ← readInteger UInt64 input
    let (timestamp, input) ← readInteger UInt64 input
    let (price, input) ← readInteger Int64 input
    let (quantity, input) ← readInteger UInt64 input
    let (side, input) ← readInteger UInt8 input
    let (orderType, input) ← readInteger UInt8 input
    let (timeInForce, input) ← readInteger UInt8 input
    let (symbol, _) ← readSymbol input
    if side ≠ Side.buy.code ∧ side ≠ Side.sell.code then none
    else if orderType ≠ OrderType.limit.code ∧ orderType ≠ OrderType.market.code then none
    else if timeInForce ≠ TimeInForce.goodTillCancel.code ∧
        timeInForce ≠ TimeInForce.immediateOrCancel.code ∧
        timeInForce ≠ TimeInForce.fillOrKill.code then none
    else if quantity = 0 then none
    else some ⟨orderId, timestamp, price, quantity, ⟨side⟩, ⟨orderType⟩, ⟨timeInForce⟩, symbol⟩

def encodeCancelOrder (request : CancelOrderRequest) : Bytes :=
  writeInteger request.orderId ++ (writeInteger request.timestamp ++ writeSymbol request.symbol)

def decodeCancelOrder (input : Bytes) : Option CancelOrderRequest :=
  if input.length ≠ cancelOrderBodySize then none
  else do
    let (orderId, input) ← readInteger UInt64 input
    let (timestamp, input) ← readInteger UInt64 input
    let (symbol, _) ← readSymbol input
    some ⟨orderId, timestamp, symbol⟩

def encodeReplaceOrder (request : ReplaceOrderRequest) : Bytes :=
  writeInteger request.orderId ++ (writeInteger request.timestamp ++
    (writeInteger request.newPrice ++ (writeInteger request.newQuantity ++
      writeSymbol request.symbol)))

def decodeReplaceOrder (input : Bytes) : Option ReplaceOrderRequest :=
  if input.length ≠ replaceOrderBodySize then none
  else do
    let (orderId, input) ← readInteger UInt64 input
    let (timestamp, input) ← readInteger UInt64 input
    let (newPrice, input) ← readInteger Int64 input
    let (newQuantity, input) ← readInteger UInt64 input
    let (symbol, _) ← readSymbol input
    if newQuantity = 0 then none
    else some ⟨orderId, timestamp, newPrice, newQuantity, symbol⟩

def encodeOrderResponse (response : OrderResponse) : Bytes :=
  writeInteger response.orderId ++ (writeInteger response.sequenceNumber ++
    writeInteger response.success)

def decodeOrderResponse (input : Bytes) : Option OrderResponse :=
  if input.length ≠ orderResponseBodySize then none
  else do
    let (orderId, input) ← readInteger UInt64 input
    let (sequenceNumber, input) ← readInteger UInt64 input
    let (success, _) ← readInteger UInt8 input
    if success ≠ 0 ∧ success ≠ 1 then none
    else some ⟨orderId, sequenceNumber, success⟩

def encodeTradeExecution (execution : TradeExecution) : Bytes :=
  writeInteger execution.buyOrderId ++ (writeInteger execution.sellOrderId ++
    (writeInteger execution.price ++ (writeInteger execution.quantity ++
      (writeInteger execution.sequenceNumber ++ writeSymbol execution.symbol))))

def decodeTradeExecution (input : Bytes) : Option TradeExecution :=
  if input.length ≠ tradeExecutionBodySize then none
  else do
    let (buyOrderId, input) ← readInteger UInt64 input
    let (sellOrderId, input) ← readInteger UInt64 input
    let (price, input) ← readInteger Int64 input
    let (quantity, input) ← readInteger UInt64 input
    let (sequenceNumber, input) ← readInteger UInt64 input
    let (symbol, _) ← readSymbol input
    if quantity = 0 then none
    else some ⟨buyOrderId, sellOrderId, price, quantity, sequenceNumber, symbol⟩

def encodeBookUpdate (update : BookUpdate) : Bytes :=
  writeInteger update.hasBid ++ (writeInteger update.bestBid ++
    (writeInteger update.bidQuantity ++ (writeInteger update.hasAsk ++
      (writeInteger update.bestAsk ++ (writeInteger update.askQuantity ++
        (writeInteger update.sequenceNumber ++ writeSymbol update.symbol))))))

def decodeBookUpdate (input : Bytes) : Option BookUpdate :=
  if input.length ≠ bookUpdateBodySize then none
  else do
    let (hasBid, input) ← readInteger UInt8 input
    let (bestBid, input) ← readInteger Int64 input
    let (bidQuantity, input) ← readInteger UInt64 input
    let (hasAsk, input) ← readInteger UInt8 input
    let (bestAsk, input) ← readInteger Int64 input
    let (askQuantity, input) ← readInteger UInt64 input
    let (sequenceNumber, input) ← readInteger UInt64 input
    let (symbol, _) ← readSymbol input
    if (hasBid ≠ 0 ∧ hasBid ≠ 1) ∨ (hasAsk ≠ 0 ∧ hasAsk ≠ 1) then none
    else if hasBid = 0 ∧ (bestBid ≠ 0 ∨ bidQuantity ≠ 0) then none
    else if hasAsk = 0 ∧ (bestAsk ≠ 0 ∨ askQuantity ≠ 0) then none
    else some ⟨hasBid, bestBid, bidQuantity, hasAsk, bestAsk, askQuantity, sequenceNumber, symbol⟩

def encodeLevel3AddOrder (event : Level3AddOrder) : Bytes :=
  writeInteger event.orderId ++ (writeInteger event.timestamp ++ (writeInteger event.price ++
    (writeInteger event.quantity ++ (writeInteger event.side.code ++
      (writeInteger event.sequenceNumber ++ writeSymbol event.symbol)))))

def decodeLevel3AddOrder (input : Bytes) : Option Level3AddOrder :=
  if input.length ≠ level3AddOrderBodySize then none
  else do
    let (orderId, input) ← readInteger UInt64 input
    let (timestamp, input) ← readInteger UInt64 input
    let (price, input) ← readInteger Int64 input
    let (quantity, input) ← readInteger UInt64 input
    let (side, input) ← readInteger UInt8 input
    let (sequenceNumber, input) ← readInteger UInt64 input
    let (symbol, _) ← readSymbol input
    if quantity = 0 then none
    else if side ≠ Side.buy.code ∧ side ≠ Side.sell.code then none
    else some ⟨orderId, timestamp, price, quantity, ⟨side⟩, sequenceNumber, symbol⟩

def encodeLevel3OrderExecuted (event : Level3OrderExecuted) : Bytes :=
  writeInteger event.buyOrderId ++ (writeInteger event.sellOrderId ++
    (writeInteger event.price ++ (writeInteger event.quantity ++
      (writeInteger event.sequenceNumber ++ writeSymbol event.symbol))))

def decodeLevel3OrderExecuted (input : Bytes) : Option Level3OrderExecuted :=
  if input.length ≠ level3OrderExecutedBodySize then none
  else do
    let (buyOrderId, input) ← readInteger UInt64 input
    let (sellOrderId, input) ← readInteger UInt64 input
    let (price, input) ← readInteger Int64 input
    let (quantity, input) ← readInteger UInt64 input
    let (sequenceNumber, input) ← readInteger UInt64 input
    let (symbol, _) ← readSymbol input
    if quantity = 0 then none
    else some ⟨buyOrderId, sellOrderId, price, quantity, sequenceNumber, symbol⟩

def encodeLevel3OrderDeleted (event : Level3OrderDeleted) : Bytes :=
  writeInteger event.orderId ++ (writeInteger event.sequenceNumber ++ writeSymbol event.symbol)

def decodeLevel3OrderDeleted (input : Bytes) : Option Level3OrderDeleted :=
  if input.length ≠ level3OrderDeletedBodySize then none
  else do
    let (orderId, input) ← readInteger UInt64 input
    let (sequenceNumber, input) ← readInteger UInt64 input
    let (symbol, _) ← readSymbol input
    some ⟨orderId, sequenceNumber, symbol⟩

/-! ## The header -/

@[simp] theorem length_encodeHeader (header : MessageHeader) :
    (encodeHeader header).length = headerSize := by
  simp [encodeHeader, headerSize, WireInteger.size]

theorem decodeHeader_encodeHeader {header : MessageHeader} (hmagic : header.magic = protocolMagic)
    (hversion : header.version = protocolVersion) :
    decodeHeader (encodeHeader header) = some header := by
  rw [decodeHeader, if_neg (by simp)]
  obtain ⟨magic, version, type, bodySize, sequenceNumber⟩ := header
  simp only at hmagic hversion
  simp [encodeHeader, hmagic, hversion]

/-! ## What decoders accept -/

/-- What `decodeNewOrder` has checked. -/
structure NewOrderRequest.Valid (request : NewOrderRequest) : Prop where
  side : request.side = .buy ∨ request.side = .sell
  orderType : request.orderType = .limit ∨ request.orderType = .market
  timeInForce : request.timeInForce = .goodTillCancel ∨ request.timeInForce = .immediateOrCancel ∨
    request.timeInForce = .fillOrKill
  quantity : request.quantity ≠ 0
  symbol : isValidSymbol request.symbol = true

theorem readSymbol_valid {input rest : Bytes} {symbol : Symbol}
    (h : readSymbol input = some (symbol, rest)) : isValidSymbol symbol = true := by
  unfold readSymbol at h
  split at h
  · cases h
  simp only at h
  split at h
  · cases h
  · rename_i hvalid
    cases h
    simpa using hvalid

theorem decodeNewOrder_valid {input : Bytes} {request : NewOrderRequest}
    (h : decodeNewOrder input = some request) : request.Valid := by
  unfold decodeNewOrder at h
  split at h
  · cases h
  simp only [Option.bind_eq_bind, Option.bind_eq_some_iff, Prod.exists] at h
  obtain ⟨_, _, -, _, _, -, _, _, -, _, _, -, side, _, -, type, _, -, tif, _, -, symbol, _, hsymbol, h⟩ := h
  split at h
  · cases h
  split at h
  · cases h
  split at h
  · cases h
  split at h
  · cases h
  rename_i hside htype htif hquantity
  cases h
  exact
    { side := by simpa [Side.buy, Side.sell, or_iff_not_imp_left] using hside
      orderType := by simpa [OrderType.limit, OrderType.market, or_iff_not_imp_left] using htype
      timeInForce := by
        simpa [TimeInForce.goodTillCancel, TimeInForce.immediateOrCancel, TimeInForce.fillOrKill,
          or_iff_not_imp_left] using htif
      quantity := hquantity
      symbol := readSymbol_valid hsymbol }

theorem decodeReplaceOrder_valid {input : Bytes} {request : ReplaceOrderRequest}
    (h : decodeReplaceOrder input = some request) :
    request.newQuantity ≠ 0 ∧ isValidSymbol request.symbol = true := by
  unfold decodeReplaceOrder at h
  split at h
  · cases h
  simp only [Option.bind_eq_bind, Option.bind_eq_some_iff, Prod.exists] at h
  obtain ⟨_, _, -, _, _, -, _, _, -, _, _, -, symbol, _, hsymbol, h⟩ := h
  split at h
  · cases h
  rename_i hquantity
  cases h
  exact ⟨hquantity, readSymbol_valid hsymbol⟩

theorem decodeCancelOrder_valid {input : Bytes} {request : CancelOrderRequest}
    (h : decodeCancelOrder input = some request) : isValidSymbol request.symbol = true := by
  unfold decodeCancelOrder at h
  split at h
  · cases h
  simp only [Option.bind_eq_bind, Option.bind_eq_some_iff, Prod.exists] at h
  obtain ⟨_, _, -, _, _, -, symbol, _, hsymbol, h⟩ := h
  cases h
  exact readSymbol_valid hsymbol

end Protocol

end ExchangeLab

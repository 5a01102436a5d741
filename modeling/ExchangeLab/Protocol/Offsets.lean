import ExchangeLab.Protocol

/-!
# ExchangeLab.Protocol.Offsets

The decoders once more, with the `offset` of the source into the whole input. A read of a byte is an
access to the input that may fall outside of it, and then the outcome is `none`; a decoder that
rejects its input returns `some none`.

* `loadBytes_run`, `readIntegerAt_run`, `readSymbolAt_run`: a read behind its bounds check.
* `decodeHeaderAt_eq` and its nine siblings: no decoder reads outside of its input, and each decodes
  what the decoder on the rest of the input does.
-/

namespace ExchangeLab

namespace Protocol

open Wire

/-- A computation with the cursor `offset`; `none` when it read outside of its input. -/
abbrev Reading := StateT Nat Option

/-- `input[offset++]`. -/
def loadByte (input : Bytes) : Reading UInt8 := fun offset =>
  input[offset]?.map fun byte => (byte, offset + 1)

def loadBytes (input : Bytes) : (size : Nat) → Reading { bytes : Bytes // bytes.length = size }
  | 0 => pure ⟨[], rfl⟩
  | size + 1 => do
    let byte ← loadByte input
    let bytes ← loadBytes input size
    return ⟨byte :: bytes.1, congrArg Nat.succ bytes.2⟩

def readIntegerAt (α : Type) [WireInteger α] (input : Bytes) : Reading (Option α) := do
  if (← get) + WireInteger.size α > input.length then return none
  let bytes ← loadBytes input (WireInteger.size α)
  return some (WireInteger.ofUnsigned (decode bytes.1))

def readSymbolAt (input : Bytes) : Reading (Option Symbol) := do
  if (← get) + symbolSize > input.length then return none
  let bytes ← loadBytes input symbolSize
  let symbol : Symbol := ⟨bytes.1, bytes.2⟩
  if !isValidSymbol symbol then return none else return some symbol

def decodeHeaderAt (input : Bytes) : Reading (Option MessageHeader) := do
  if input.length ≠ headerSize then return none
  let magic ← readIntegerAt UInt32 input
  let version ← readIntegerAt UInt16 input
  let type ← readIntegerAt UInt16 input
  let bodySize ← readIntegerAt UInt32 input
  let sequenceNumber ← readIntegerAt UInt64 input
  return do
    let magic ← magic
    let version ← version
    let type ← type
    let bodySize ← bodySize
    let sequenceNumber ← sequenceNumber
    if magic ≠ protocolMagic ∨ version ≠ protocolVersion then none
    else some ⟨magic, version, ⟨type⟩, bodySize, sequenceNumber⟩

def decodeNewOrderAt (input : Bytes) : Reading (Option NewOrderRequest) := do
  if input.length ≠ newOrderBodySize then return none
  let orderId ← readIntegerAt UInt64 input
  let timestamp ← readIntegerAt UInt64 input
  let price ← readIntegerAt Int64 input
  let quantity ← readIntegerAt UInt64 input
  let side ← readIntegerAt UInt8 input
  let orderType ← readIntegerAt UInt8 input
  let timeInForce ← readIntegerAt UInt8 input
  let symbol ← readSymbolAt input
  return do
    let orderId ← orderId
    let timestamp ← timestamp
    let price ← price
    let quantity ← quantity
    let side ← side
    let orderType ← orderType
    let timeInForce ← timeInForce
    let symbol ← symbol
    if side ≠ Side.buy.code ∧ side ≠ Side.sell.code then none
    else if orderType ≠ OrderType.limit.code ∧ orderType ≠ OrderType.market.code then none
    else if timeInForce ≠ TimeInForce.goodTillCancel.code ∧
        timeInForce ≠ TimeInForce.immediateOrCancel.code ∧
        timeInForce ≠ TimeInForce.fillOrKill.code then none
    else if quantity = 0 then none
    else some ⟨orderId, timestamp, price, quantity, ⟨side⟩, ⟨orderType⟩, ⟨timeInForce⟩, symbol⟩

def decodeCancelOrderAt (input : Bytes) : Reading (Option CancelOrderRequest) := do
  if input.length ≠ cancelOrderBodySize then return none
  let orderId ← readIntegerAt UInt64 input
  let timestamp ← readIntegerAt UInt64 input
  let symbol ← readSymbolAt input
  return do
    let orderId ← orderId
    let timestamp ← timestamp
    let symbol ← symbol
    some ⟨orderId, timestamp, symbol⟩

def decodeReplaceOrderAt (input : Bytes) : Reading (Option ReplaceOrderRequest) := do
  if input.length ≠ replaceOrderBodySize then return none
  let orderId ← readIntegerAt UInt64 input
  let timestamp ← readIntegerAt UInt64 input
  let newPrice ← readIntegerAt Int64 input
  let newQuantity ← readIntegerAt UInt64 input
  let symbol ← readSymbolAt input
  return do
    let orderId ← orderId
    let timestamp ← timestamp
    let newPrice ← newPrice
    let newQuantity ← newQuantity
    let symbol ← symbol
    if newQuantity = 0 then none
    else some ⟨orderId, timestamp, newPrice, newQuantity, symbol⟩

def decodeOrderResponseAt (input : Bytes) : Reading (Option OrderResponse) := do
  if input.length ≠ orderResponseBodySize then return none
  let orderId ← readIntegerAt UInt64 input
  let sequenceNumber ← readIntegerAt UInt64 input
  let success ← readIntegerAt UInt8 input
  return do
    let orderId ← orderId
    let sequenceNumber ← sequenceNumber
    let success ← success
    if success ≠ 0 ∧ success ≠ 1 then none
    else some ⟨orderId, sequenceNumber, success⟩

def decodeTradeExecutionAt (input : Bytes) : Reading (Option TradeExecution) := do
  if input.length ≠ tradeExecutionBodySize then return none
  let buyOrderId ← readIntegerAt UInt64 input
  let sellOrderId ← readIntegerAt UInt64 input
  let price ← readIntegerAt Int64 input
  let quantity ← readIntegerAt UInt64 input
  let sequenceNumber ← readIntegerAt UInt64 input
  let symbol ← readSymbolAt input
  return do
    let buyOrderId ← buyOrderId
    let sellOrderId ← sellOrderId
    let price ← price
    let quantity ← quantity
    let sequenceNumber ← sequenceNumber
    let symbol ← symbol
    if quantity = 0 then none
    else some ⟨buyOrderId, sellOrderId, price, quantity, sequenceNumber, symbol⟩

def decodeBookUpdateAt (input : Bytes) : Reading (Option BookUpdate) := do
  if input.length ≠ bookUpdateBodySize then return none
  let hasBid ← readIntegerAt UInt8 input
  let bestBid ← readIntegerAt Int64 input
  let bidQuantity ← readIntegerAt UInt64 input
  let hasAsk ← readIntegerAt UInt8 input
  let bestAsk ← readIntegerAt Int64 input
  let askQuantity ← readIntegerAt UInt64 input
  let sequenceNumber ← readIntegerAt UInt64 input
  let symbol ← readSymbolAt input
  return do
    let hasBid ← hasBid
    let bestBid ← bestBid
    let bidQuantity ← bidQuantity
    let hasAsk ← hasAsk
    let bestAsk ← bestAsk
    let askQuantity ← askQuantity
    let sequenceNumber ← sequenceNumber
    let symbol ← symbol
    if (hasBid ≠ 0 ∧ hasBid ≠ 1) ∨ (hasAsk ≠ 0 ∧ hasAsk ≠ 1) then none
    else if hasBid = 0 ∧ (bestBid ≠ 0 ∨ bidQuantity ≠ 0) then none
    else if hasAsk = 0 ∧ (bestAsk ≠ 0 ∨ askQuantity ≠ 0) then none
    else some ⟨hasBid, bestBid, bidQuantity, hasAsk, bestAsk, askQuantity, sequenceNumber, symbol⟩

def decodeLevel3AddOrderAt (input : Bytes) : Reading (Option Level3AddOrder) := do
  if input.length ≠ level3AddOrderBodySize then return none
  let orderId ← readIntegerAt UInt64 input
  let timestamp ← readIntegerAt UInt64 input
  let price ← readIntegerAt Int64 input
  let quantity ← readIntegerAt UInt64 input
  let side ← readIntegerAt UInt8 input
  let sequenceNumber ← readIntegerAt UInt64 input
  let symbol ← readSymbolAt input
  return do
    let orderId ← orderId
    let timestamp ← timestamp
    let price ← price
    let quantity ← quantity
    let side ← side
    let sequenceNumber ← sequenceNumber
    let symbol ← symbol
    if quantity = 0 then none
    else if side ≠ Side.buy.code ∧ side ≠ Side.sell.code then none
    else some ⟨orderId, timestamp, price, quantity, ⟨side⟩, sequenceNumber, symbol⟩

def decodeLevel3OrderExecutedAt (input : Bytes) : Reading (Option Level3OrderExecuted) := do
  if input.length ≠ level3OrderExecutedBodySize then return none
  let buyOrderId ← readIntegerAt UInt64 input
  let sellOrderId ← readIntegerAt UInt64 input
  let price ← readIntegerAt Int64 input
  let quantity ← readIntegerAt UInt64 input
  let sequenceNumber ← readIntegerAt UInt64 input
  let symbol ← readSymbolAt input
  return do
    let buyOrderId ← buyOrderId
    let sellOrderId ← sellOrderId
    let price ← price
    let quantity ← quantity
    let sequenceNumber ← sequenceNumber
    let symbol ← symbol
    if quantity = 0 then none
    else some ⟨buyOrderId, sellOrderId, price, quantity, sequenceNumber, symbol⟩

def decodeLevel3OrderDeletedAt (input : Bytes) : Reading (Option Level3OrderDeleted) := do
  if input.length ≠ level3OrderDeletedBodySize then return none
  let orderId ← readIntegerAt UInt64 input
  let sequenceNumber ← readIntegerAt UInt64 input
  let symbol ← readSymbolAt input
  return do
    let orderId ← orderId
    let sequenceNumber ← sequenceNumber
    let symbol ← symbol
    some ⟨orderId, sequenceNumber, symbol⟩

/-! ## Reads stay inside -/

section Reads

variable {input : Bytes} {offset : Nat}

theorem length_take_drop {size : Nat} (h : offset + size ≤ input.length) :
    ((input.drop offset).take size).length = size := by
  rw [List.length_take, List.length_drop]
  omega

theorem loadBytes_run {size : Nat} (h : offset + size ≤ input.length) :
    (loadBytes input size).run offset =
      some (⟨(input.drop offset).take size, length_take_drop h⟩, offset + size) := by
  induction size generalizing offset with
  | zero => simp [loadBytes]
  | succ size ih =>
    have hlt : offset < input.length := by omega
    have hnext : offset + 1 + size ≤ input.length := by omega
    have hbyte : (loadByte input).run offset = some (input[offset], offset + 1) := by
      simp [loadByte, StateT.run, hlt]
    simp only [loadBytes, StateT.run_bind, hbyte, ih hnext, StateT.run_pure, Option.bind_eq_bind,
      Option.bind_some, Option.pure_def, Option.some.injEq, Prod.mk.injEq, Subtype.mk.injEq]
    refine ⟨?_, by omega⟩
    rw [List.drop_eq_getElem_cons hlt, List.take_succ_cons]

/-- An integer that is there is read by both decoders, which then go on behind it. -/
theorem readsInteger {α β : Type} [WireInteger α] {k : Option α → Reading (Option β)}
    {k' : α × Bytes → Option β} {offset' : Nat}
    (h : offset + WireInteger.size α ≤ input.length)
    (next : ∀ value, (k (some value)).run (offset + WireInteger.size α) =
      some (k' (value, input.drop (offset + WireInteger.size α)), offset')) :
    (readIntegerAt α input >>= k).run offset =
      some (readInteger α (input.drop offset) >>= k', offset') := by
  have hno : ¬ offset + WireInteger.size α > input.length := by omega
  have hno' : ¬ (input.drop offset).length < WireInteger.size α := by rw [List.length_drop]; omega
  have hat : (readIntegerAt α input).run offset =
      some (some (WireInteger.ofUnsigned (decode ((input.drop offset).take (WireInteger.size α)))),
        offset + WireInteger.size α) := by
    simp [readIntegerAt, hno, loadBytes_run h]
  have hcursor : readInteger α (input.drop offset) =
      some (WireInteger.ofUnsigned (decode ((input.drop offset).take (WireInteger.size α))),
        input.drop (offset + WireInteger.size α)) := by
    simp only [readInteger, Wire.read, takeExactly, hno', if_false, Option.map_some, List.drop_drop]
  rw [StateT.run_bind, hat, hcursor]
  exact next _

/-- A symbol is read by both decoders, or rejected by both. -/
theorem readsSymbol {β : Type} {k : Option Symbol → Reading (Option β)}
    {k' : Symbol × Bytes → Option β} {offset' : Nat} (h : offset + symbolSize ≤ input.length)
    (rejected : (k none).run (offset + symbolSize) = some (none, offset'))
    (next : ∀ symbol, (k (some symbol)).run (offset + symbolSize) =
      some (k' (symbol, input.drop (offset + symbolSize)), offset')) :
    (readSymbolAt input >>= k).run offset =
      some (readSymbol (input.drop offset) >>= k', offset') := by
  have hno : ¬ offset + symbolSize > input.length := by omega
  have hno' : ¬ (input.drop offset).length < symbolSize := by rw [List.length_drop]; omega
  have hat : (readSymbolAt input).run offset =
      some ((readSymbol (input.drop offset)).map Prod.fst, offset + symbolSize) := by
    simp only [readSymbolAt, StateT.run_bind, StateT.run_get, Option.pure_def, Option.bind_eq_bind,
      Option.bind_some, hno, if_false, loadBytes_run h, readSymbol, hno', dif_neg,
      not_false_eq_true]
    split <;> rfl
  have hrest : ∀ symbol rest, readSymbol (input.drop offset) = some (symbol, rest) →
      rest = input.drop (offset + symbolSize) := by
    intro symbol rest hread
    simp only [readSymbol, hno', dif_neg, not_false_eq_true] at hread
    split at hread
    · cases hread
    · cases hread
      rw [List.drop_drop]
  rw [StateT.run_bind, hat]
  cases hread : readSymbol (input.drop offset) with
  | none => exact rejected
  | some read =>
    obtain ⟨symbol, rest⟩ := read
    rw [hrest symbol rest hread]
    exact next symbol

end Reads

/-! ## Decoders stay inside -/

/-- The decoder never reads outside of its input, and decodes what `decode` does. -/
def StaysInside {α : Type} (decodeAt : Bytes → Reading (Option α)) (decode : Bytes → Option α) :
    Prop :=
  ∀ input, ∃ offset, (decodeAt input).run 0 = some (decode input, offset)

/-- A decoder checks the size first. -/
theorem staysInside_of_size {α : Type} (size : Nat) {decodeAt : Bytes → Reading (Option α)}
    {decode : Bytes → Option α}
    (hsized : ∀ input, input.length = size →
      ∃ offset, (decodeAt input).run 0 = some (decode (input.drop 0), offset))
    (hrejected : ∀ input, input.length ≠ size →
      (decodeAt input).run 0 = some (none, 0) ∧ decode input = none) :
    StaysInside decodeAt decode := by
  intro input
  by_cases hsize : input.length = size
  · exact hsized input hsize
  · obtain ⟨hat, hdecode⟩ := hrejected input hsize
    exact ⟨0, by rw [hat, hdecode]⟩

theorem decodeHeaderAt_staysInside : StaysInside decodeHeaderAt decodeHeader := by
  refine staysInside_of_size headerSize (fun input hsize => ⟨headerSize, ?_⟩) fun input hsize =>
    ⟨by rw [decodeHeaderAt, if_pos hsize]; rfl, if_pos hsize⟩
  rw [decodeHeaderAt, decodeHeader, if_neg (not_not.mpr hsize), if_neg (not_not.mpr (by simpa using hsize))]
  iterate 5 refine readsInteger (by rw [hsize]; decide) fun _ => ?_
  rfl

theorem decodeNewOrderAt_staysInside : StaysInside decodeNewOrderAt decodeNewOrder := by
  refine staysInside_of_size newOrderBodySize (fun input hsize => ⟨newOrderBodySize, ?_⟩) fun input hsize =>
    ⟨by rw [decodeNewOrderAt, if_pos hsize]; rfl, if_pos hsize⟩
  rw [decodeNewOrderAt, decodeNewOrder, if_neg (not_not.mpr hsize), if_neg (not_not.mpr (by simpa using hsize))]
  iterate 7 refine readsInteger (by rw [hsize]; decide) fun _ => ?_
  exact readsSymbol (by rw [hsize]; decide) rfl fun _ => rfl

theorem decodeCancelOrderAt_staysInside : StaysInside decodeCancelOrderAt decodeCancelOrder := by
  refine staysInside_of_size cancelOrderBodySize (fun input hsize => ⟨cancelOrderBodySize, ?_⟩) fun input hsize =>
    ⟨by rw [decodeCancelOrderAt, if_pos hsize]; rfl, if_pos hsize⟩
  rw [decodeCancelOrderAt, decodeCancelOrder, if_neg (not_not.mpr hsize), if_neg (not_not.mpr (by simpa using hsize))]
  iterate 2 refine readsInteger (by rw [hsize]; decide) fun _ => ?_
  exact readsSymbol (by rw [hsize]; decide) rfl fun _ => rfl

theorem decodeReplaceOrderAt_staysInside : StaysInside decodeReplaceOrderAt decodeReplaceOrder := by
  refine staysInside_of_size replaceOrderBodySize (fun input hsize => ⟨replaceOrderBodySize, ?_⟩) fun input hsize =>
    ⟨by rw [decodeReplaceOrderAt, if_pos hsize]; rfl, if_pos hsize⟩
  rw [decodeReplaceOrderAt, decodeReplaceOrder, if_neg (not_not.mpr hsize), if_neg (not_not.mpr (by simpa using hsize))]
  iterate 4 refine readsInteger (by rw [hsize]; decide) fun _ => ?_
  exact readsSymbol (by rw [hsize]; decide) rfl fun _ => rfl

theorem decodeOrderResponseAt_staysInside : StaysInside decodeOrderResponseAt decodeOrderResponse := by
  refine staysInside_of_size orderResponseBodySize (fun input hsize => ⟨orderResponseBodySize, ?_⟩) fun input hsize =>
    ⟨by rw [decodeOrderResponseAt, if_pos hsize]; rfl, if_pos hsize⟩
  rw [decodeOrderResponseAt, decodeOrderResponse, if_neg (not_not.mpr hsize), if_neg (not_not.mpr (by simpa using hsize))]
  iterate 3 refine readsInteger (by rw [hsize]; decide) fun _ => ?_
  rfl

theorem decodeTradeExecutionAt_staysInside : StaysInside decodeTradeExecutionAt decodeTradeExecution := by
  refine staysInside_of_size tradeExecutionBodySize (fun input hsize => ⟨tradeExecutionBodySize, ?_⟩) fun input hsize =>
    ⟨by rw [decodeTradeExecutionAt, if_pos hsize]; rfl, if_pos hsize⟩
  rw [decodeTradeExecutionAt, decodeTradeExecution, if_neg (not_not.mpr hsize), if_neg (not_not.mpr (by simpa using hsize))]
  iterate 5 refine readsInteger (by rw [hsize]; decide) fun _ => ?_
  exact readsSymbol (by rw [hsize]; decide) rfl fun _ => rfl

theorem decodeBookUpdateAt_staysInside : StaysInside decodeBookUpdateAt decodeBookUpdate := by
  refine staysInside_of_size bookUpdateBodySize (fun input hsize => ⟨bookUpdateBodySize, ?_⟩) fun input hsize =>
    ⟨by rw [decodeBookUpdateAt, if_pos hsize]; rfl, if_pos hsize⟩
  rw [decodeBookUpdateAt, decodeBookUpdate, if_neg (not_not.mpr hsize), if_neg (not_not.mpr (by simpa using hsize))]
  iterate 7 refine readsInteger (by rw [hsize]; decide) fun _ => ?_
  exact readsSymbol (by rw [hsize]; decide) rfl fun _ => rfl

theorem decodeLevel3AddOrderAt_staysInside : StaysInside decodeLevel3AddOrderAt decodeLevel3AddOrder := by
  refine staysInside_of_size level3AddOrderBodySize (fun input hsize => ⟨level3AddOrderBodySize, ?_⟩) fun input hsize =>
    ⟨by rw [decodeLevel3AddOrderAt, if_pos hsize]; rfl, if_pos hsize⟩
  rw [decodeLevel3AddOrderAt, decodeLevel3AddOrder, if_neg (not_not.mpr hsize), if_neg (not_not.mpr (by simpa using hsize))]
  iterate 6 refine readsInteger (by rw [hsize]; decide) fun _ => ?_
  exact readsSymbol (by rw [hsize]; decide) rfl fun _ => rfl

theorem decodeLevel3OrderExecutedAt_staysInside : StaysInside decodeLevel3OrderExecutedAt decodeLevel3OrderExecuted := by
  refine staysInside_of_size level3OrderExecutedBodySize (fun input hsize => ⟨level3OrderExecutedBodySize, ?_⟩) fun input hsize =>
    ⟨by rw [decodeLevel3OrderExecutedAt, if_pos hsize]; rfl, if_pos hsize⟩
  rw [decodeLevel3OrderExecutedAt, decodeLevel3OrderExecuted, if_neg (not_not.mpr hsize), if_neg (not_not.mpr (by simpa using hsize))]
  iterate 5 refine readsInteger (by rw [hsize]; decide) fun _ => ?_
  exact readsSymbol (by rw [hsize]; decide) rfl fun _ => rfl

theorem decodeLevel3OrderDeletedAt_staysInside : StaysInside decodeLevel3OrderDeletedAt decodeLevel3OrderDeleted := by
  refine staysInside_of_size level3OrderDeletedBodySize (fun input hsize => ⟨level3OrderDeletedBodySize, ?_⟩) fun input hsize =>
    ⟨by rw [decodeLevel3OrderDeletedAt, if_pos hsize]; rfl, if_pos hsize⟩
  rw [decodeLevel3OrderDeletedAt, decodeLevel3OrderDeleted, if_neg (not_not.mpr hsize), if_neg (not_not.mpr (by simpa using hsize))]
  iterate 2 refine readsInteger (by rw [hsize]; decide) fun _ => ?_
  exact readsSymbol (by rw [hsize]; decide) rfl fun _ => rfl

end Protocol

end ExchangeLab

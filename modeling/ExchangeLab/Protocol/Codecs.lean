import ExchangeLab.Protocol.Offsets

/-!
# ExchangeLab.Protocol.Codecs

The header and the nine body formats are exact inverses.

* `ExactCodec`: a value is decoded from its encoding exactly when it is valid, what is accepted is
  an encoding, and the decoder stays inside of its input.
* `codecs_exact`: all ten formats.
-/

namespace ExchangeLab

namespace Protocol

open Wire

/-! ## Symbols and lengths -/

theorem readSymbol_writeSymbol (symbol : Symbol) (rest : Bytes) :
    readSymbol (writeSymbol symbol ++ rest) =
      if isValidSymbol symbol = true then some (symbol, rest) else none := by
  have hsize : symbol.chars.length = symbolSize := symbol.size
  have hno : ¬ (writeSymbol symbol ++ rest).length < symbolSize := by
    rw [writeSymbol, List.length_append]
    omega
  have htake : (writeSymbol symbol ++ rest).take symbolSize = symbol.chars := by
    rw [writeSymbol, List.take_append_of_le_length (by omega), List.take_of_length_le (by omega)]
  have hdrop : (writeSymbol symbol ++ rest).drop symbolSize = rest := by
    rw [writeSymbol, ← hsize, List.drop_left]
  simp only [readSymbol, hno, dif_neg, not_false_eq_true, htake, hdrop]
  cases isValidSymbol symbol <;> rfl

theorem readSymbol_writeSymbol_end (symbol : Symbol) :
    readSymbol (writeSymbol symbol) =
      if isValidSymbol symbol = true then some (symbol, []) else none := by
  simpa using readSymbol_writeSymbol symbol []

theorem readSymbol_exact {symbol : Symbol} {input rest : Bytes}
    (h : readSymbol input = some (symbol, rest)) : input = writeSymbol symbol ++ rest := by
  unfold readSymbol at h
  split at h
  · cases h
  simp only at h
  split at h
  · cases h
  · cases h
    exact (List.take_append_drop symbolSize input).symm

@[simp] theorem length_writeSymbol (symbol : Symbol) : (writeSymbol symbol).length = symbolSize :=
  symbol.size

/-! ## Validity -/

def MessageHeader.Valid (header : MessageHeader) : Prop :=
  header.magic = protocolMagic ∧ header.version = protocolVersion

def CancelOrderRequest.Valid (request : CancelOrderRequest) : Prop :=
  isValidSymbol request.symbol = true

def ReplaceOrderRequest.Valid (request : ReplaceOrderRequest) : Prop :=
  isValidSymbol request.symbol = true ∧ request.newQuantity ≠ 0

def OrderResponse.Valid (response : OrderResponse) : Prop :=
  response.success = 0 ∨ response.success = 1

def TradeExecution.Valid (execution : TradeExecution) : Prop :=
  isValidSymbol execution.symbol = true ∧ execution.quantity ≠ 0

/-- Both flags are flags, and an absent side has no price and no quantity. -/
structure BookUpdate.Valid (update : BookUpdate) : Prop where
  hasBid : update.hasBid = 0 ∨ update.hasBid = 1
  hasAsk : update.hasAsk = 0 ∨ update.hasAsk = 1
  noBid : update.hasBid = 0 → update.bestBid = 0 ∧ update.bidQuantity = 0
  noAsk : update.hasAsk = 0 → update.bestAsk = 0 ∧ update.askQuantity = 0
  symbol : isValidSymbol update.symbol = true

def Level3AddOrder.Valid (event : Level3AddOrder) : Prop :=
  isValidSymbol event.symbol = true ∧ event.quantity ≠ 0 ∧ (event.side = .buy ∨ event.side = .sell)

def Level3OrderExecuted.Valid (event : Level3OrderExecuted) : Prop :=
  isValidSymbol event.symbol = true ∧ event.quantity ≠ 0

def Level3OrderDeleted.Valid (event : Level3OrderDeleted) : Prop :=
  isValidSymbol event.symbol = true

/-! ## The ten formats -/

/-- A value is decoded from its encoding if it is valid and rejected if not, what is accepted is an
encoding, and no byte outside of the input is read. -/
structure ExactCodec {α : Type} (valid : α → Prop) (encode : α → Bytes) (decode : Bytes → Option α)
    (decodeAt : Bytes → Reading (Option α)) : Prop where
  accepts : ∀ x, valid x → decode (encode x) = some x
  rejects : ∀ x, ¬ valid x → decode (encode x) = none
  canonical : ∀ b x, decode b = some x → encode x = b
  inside : StaysInside decodeAt decode

/-- Only valid values come out of a decoder. -/
theorem ExactCodec.valid {α : Type} {valid : α → Prop} {encode : α → Bytes}
    {decode : Bytes → Option α} {decodeAt : Bytes → Reading (Option α)}
    (h : ExactCodec valid encode decode decodeAt) {input : Bytes} {x : α}
    (hdecode : decode input = some x) : valid x := by
  by_contra hinvalid
  have hrejects := h.rejects x hinvalid
  rw [h.canonical input x hdecode, hdecode] at hrejects
  cases hrejects

theorem Side.code_inj {a b : Side} : a.code = b.code ↔ a = b := by cases a; cases b; simp
theorem OrderType.code_inj {a b : OrderType} : a.code = b.code ↔ a = b := by cases a; cases b; simp
theorem TimeInForce.code_inj {a b : TimeInForce} : a.code = b.code ↔ a = b := by
  cases a; cases b; simp

/-- An input that begins with an encoding and is as long is that encoding. -/
theorem encoding_of_prefix {input encoding : Bytes} (rest : Bytes) (h : input = encoding ++ rest)
    (hsize : input.length = encoding.length) : encoding = input := by
  have hrest : rest.length = 0 := by rw [h, List.length_append] at hsize; omega
  rw [h, List.eq_nil_of_length_eq_zero hrest, List.append_nil]

theorem length_encodeNewOrder (x : NewOrderRequest) : (encodeNewOrder x).length = newOrderBodySize := by
  simp [encodeNewOrder]
  rfl

theorem length_encodeCancelOrder (x : CancelOrderRequest) : (encodeCancelOrder x).length = cancelOrderBodySize := by
  simp [encodeCancelOrder]
  rfl

theorem length_encodeReplaceOrder (x : ReplaceOrderRequest) : (encodeReplaceOrder x).length = replaceOrderBodySize := by
  simp [encodeReplaceOrder]
  rfl

theorem length_encodeOrderResponse (x : OrderResponse) : (encodeOrderResponse x).length = orderResponseBodySize := by
  simp [encodeOrderResponse]
  rfl

theorem length_encodeTradeExecution (x : TradeExecution) : (encodeTradeExecution x).length = tradeExecutionBodySize := by
  simp [encodeTradeExecution]
  rfl

theorem length_encodeBookUpdate (x : BookUpdate) : (encodeBookUpdate x).length = bookUpdateBodySize := by
  simp [encodeBookUpdate]
  rfl

theorem length_encodeLevel3AddOrder (x : Level3AddOrder) : (encodeLevel3AddOrder x).length = level3AddOrderBodySize := by
  simp [encodeLevel3AddOrder]
  rfl

theorem length_encodeLevel3OrderExecuted (x : Level3OrderExecuted) : (encodeLevel3OrderExecuted x).length = level3OrderExecutedBodySize := by
  simp [encodeLevel3OrderExecuted]
  rfl

theorem length_encodeLevel3OrderDeleted (x : Level3OrderDeleted) : (encodeLevel3OrderDeleted x).length = level3OrderDeletedBodySize := by
  simp [encodeLevel3OrderDeleted]
  rfl

theorem header_exact :
    ExactCodec MessageHeader.Valid encodeHeader decodeHeader decodeHeaderAt where
  accepts x hx := by
    rw [decodeHeader, if_neg (not_not.mpr (length_encodeHeader x)), encodeHeader]
    simpa [MessageHeader.Valid] using hx
  rejects x hx := by
    rw [decodeHeader, if_neg (not_not.mpr (length_encodeHeader x)), encodeHeader]
    simpa [MessageHeader.Valid] using hx
  canonical b x h := by
    unfold decodeHeader at h
    split at h
    · cases h
    rename_i hsize
    simp only [Option.bind_eq_bind, Option.bind_eq_some_iff, Prod.exists] at h
    obtain ⟨_, _, h0, _, _, h1, _, _, h2, _, _, h3, _, rest, h4, h⟩ := h
    split at h
    · cases h
    cases h
    refine encoding_of_prefix rest ?_ ((not_not.mp hsize).trans (length_encodeHeader _).symm)
    rw [readInteger_exact h0, readInteger_exact h1, readInteger_exact h2, readInteger_exact h3, readInteger_exact h4, encodeHeader]
    simp only [List.append_assoc]
  inside := decodeHeaderAt_staysInside

theorem newOrder_exact :
    ExactCodec NewOrderRequest.Valid encodeNewOrder decodeNewOrder decodeNewOrderAt where
  accepts x hx := by
    rw [decodeNewOrder, if_neg (not_not.mpr (length_encodeNewOrder x)), encodeNewOrder]
    simpa [readSymbol_writeSymbol_end, hx.symbol, hx.quantity, ← or_iff_not_imp_left, Side.code_inj,
      OrderType.code_inj, TimeInForce.code_inj] using ⟨hx.side, hx.orderType, hx.timeInForce⟩
  rejects x hx := by
    rw [decodeNewOrder, if_neg (not_not.mpr (length_encodeNewOrder x)), encodeNewOrder]
    suffices isValidSymbol x.symbol = true → (x.side = .buy ∨ x.side = .sell) →
        (x.orderType = .limit ∨ x.orderType = .market) →
        (x.timeInForce = .goodTillCancel ∨ x.timeInForce = .immediateOrCancel ∨
          x.timeInForce = .fillOrKill) → x.quantity = 0 by
      simpa [readSymbol_writeSymbol_end, Side.code_inj, OrderType.code_inj, TimeInForce.code_inj,
        or_iff_not_imp_left] using this
    intro hsymbol hside htype htif
    by_contra hq
    exact hx ⟨hside, htype, htif, hq, hsymbol⟩
  canonical b x h := by
    unfold decodeNewOrder at h
    split at h
    · cases h
    rename_i hsize
    simp only [Option.bind_eq_bind, Option.bind_eq_some_iff, Prod.exists] at h
    obtain ⟨_, _, h0, _, _, h1, _, _, h2, _, _, h3, _, _, h4, _, _, h5, _, _, h6, _, rest, hsymbol, h⟩ := h
    split at h
    · cases h
    split at h
    · cases h
    split at h
    · cases h
    split at h
    · cases h
    cases h
    refine encoding_of_prefix rest ?_ ((not_not.mp hsize).trans (length_encodeNewOrder _).symm)
    rw [readInteger_exact h0, readInteger_exact h1, readInteger_exact h2, readInteger_exact h3, readInteger_exact h4, readInteger_exact h5, readInteger_exact h6, readSymbol_exact hsymbol, encodeNewOrder]
    simp only [List.append_assoc]
  inside := decodeNewOrderAt_staysInside

theorem cancelOrder_exact :
    ExactCodec CancelOrderRequest.Valid encodeCancelOrder decodeCancelOrder decodeCancelOrderAt where
  accepts x hx := by
    rw [decodeCancelOrder, if_neg (not_not.mpr (length_encodeCancelOrder x)), encodeCancelOrder]
    simp [readSymbol_writeSymbol_end, show isValidSymbol x.symbol = true from hx]
  rejects x hx := by
    rw [decodeCancelOrder, if_neg (not_not.mpr (length_encodeCancelOrder x)), encodeCancelOrder]
    simpa [readSymbol_writeSymbol_end, CancelOrderRequest.Valid] using hx
  canonical b x h := by
    unfold decodeCancelOrder at h
    split at h
    · cases h
    rename_i hsize
    simp only [Option.bind_eq_bind, Option.bind_eq_some_iff, Prod.exists] at h
    obtain ⟨_, _, h0, _, _, h1, _, rest, hsymbol, h⟩ := h
    cases h
    refine encoding_of_prefix rest ?_ ((not_not.mp hsize).trans (length_encodeCancelOrder _).symm)
    rw [readInteger_exact h0, readInteger_exact h1, readSymbol_exact hsymbol, encodeCancelOrder]
    simp only [List.append_assoc]
  inside := decodeCancelOrderAt_staysInside

theorem replaceOrder_exact :
    ExactCodec ReplaceOrderRequest.Valid encodeReplaceOrder decodeReplaceOrder decodeReplaceOrderAt where
  accepts x hx := by
    rw [decodeReplaceOrder, if_neg (not_not.mpr (length_encodeReplaceOrder x)), encodeReplaceOrder]
    simp [readSymbol_writeSymbol_end, hx.1, hx.2]
  rejects x hx := by
    rw [decodeReplaceOrder, if_neg (not_not.mpr (length_encodeReplaceOrder x)), encodeReplaceOrder]
    simpa [readSymbol_writeSymbol_end, ReplaceOrderRequest.Valid] using hx
  canonical b x h := by
    unfold decodeReplaceOrder at h
    split at h
    · cases h
    rename_i hsize
    simp only [Option.bind_eq_bind, Option.bind_eq_some_iff, Prod.exists] at h
    obtain ⟨_, _, h0, _, _, h1, _, _, h2, _, _, h3, _, rest, hsymbol, h⟩ := h
    split at h
    · cases h
    cases h
    refine encoding_of_prefix rest ?_ ((not_not.mp hsize).trans (length_encodeReplaceOrder _).symm)
    rw [readInteger_exact h0, readInteger_exact h1, readInteger_exact h2, readInteger_exact h3, readSymbol_exact hsymbol, encodeReplaceOrder]
    simp only [List.append_assoc]
  inside := decodeReplaceOrderAt_staysInside

theorem orderResponse_exact :
    ExactCodec OrderResponse.Valid encodeOrderResponse decodeOrderResponse decodeOrderResponseAt where
  accepts x hx := by
    rw [decodeOrderResponse, if_neg (not_not.mpr (length_encodeOrderResponse x)), encodeOrderResponse]
    simpa [OrderResponse.Valid, or_iff_not_imp_left] using hx
  rejects x hx := by
    rw [decodeOrderResponse, if_neg (not_not.mpr (length_encodeOrderResponse x)), encodeOrderResponse]
    simpa [OrderResponse.Valid] using hx
  canonical b x h := by
    unfold decodeOrderResponse at h
    split at h
    · cases h
    rename_i hsize
    simp only [Option.bind_eq_bind, Option.bind_eq_some_iff, Prod.exists] at h
    obtain ⟨_, _, h0, _, _, h1, _, rest, h2, h⟩ := h
    split at h
    · cases h
    cases h
    refine encoding_of_prefix rest ?_ ((not_not.mp hsize).trans (length_encodeOrderResponse _).symm)
    rw [readInteger_exact h0, readInteger_exact h1, readInteger_exact h2, encodeOrderResponse]
    simp only [List.append_assoc]
  inside := decodeOrderResponseAt_staysInside

theorem tradeExecution_exact :
    ExactCodec TradeExecution.Valid encodeTradeExecution decodeTradeExecution decodeTradeExecutionAt where
  accepts x hx := by
    rw [decodeTradeExecution, if_neg (not_not.mpr (length_encodeTradeExecution x)), encodeTradeExecution]
    simp [readSymbol_writeSymbol_end, hx.1, hx.2]
  rejects x hx := by
    rw [decodeTradeExecution, if_neg (not_not.mpr (length_encodeTradeExecution x)), encodeTradeExecution]
    simpa [readSymbol_writeSymbol_end, TradeExecution.Valid] using hx
  canonical b x h := by
    unfold decodeTradeExecution at h
    split at h
    · cases h
    rename_i hsize
    simp only [Option.bind_eq_bind, Option.bind_eq_some_iff, Prod.exists] at h
    obtain ⟨_, _, h0, _, _, h1, _, _, h2, _, _, h3, _, _, h4, _, rest, hsymbol, h⟩ := h
    split at h
    · cases h
    cases h
    refine encoding_of_prefix rest ?_ ((not_not.mp hsize).trans (length_encodeTradeExecution _).symm)
    rw [readInteger_exact h0, readInteger_exact h1, readInteger_exact h2, readInteger_exact h3, readInteger_exact h4, readSymbol_exact hsymbol, encodeTradeExecution]
    simp only [List.append_assoc]
  inside := decodeTradeExecutionAt_staysInside

theorem bookUpdate_exact :
    ExactCodec BookUpdate.Valid encodeBookUpdate decodeBookUpdate decodeBookUpdateAt where
  accepts x hx := by
    rw [decodeBookUpdate, if_neg (not_not.mpr (length_encodeBookUpdate x)), encodeBookUpdate]
    simpa [readSymbol_writeSymbol_end, hx.symbol, ← or_iff_not_imp_left] using
      ⟨⟨hx.hasBid, hx.hasAsk⟩, hx.noBid, hx.noAsk⟩
  rejects x hx := by
    rw [decodeBookUpdate, if_neg (not_not.mpr (length_encodeBookUpdate x)), encodeBookUpdate]
    suffices isValidSymbol x.symbol = true → (x.hasBid = 0 ∨ x.hasBid = 1) →
        (x.hasAsk = 0 ∨ x.hasAsk = 1) → (x.hasBid = 0 → x.bestBid = 0 ∧ x.bidQuantity = 0) →
        ¬ (x.hasAsk = 0 → x.bestAsk = 0 ∧ x.askQuantity = 0) by
      simpa [readSymbol_writeSymbol_end, or_iff_not_imp_left] using this
    intro hsymbol hbid hask hnoBid hnoAsk
    exact hx ⟨hbid, hask, hnoBid, hnoAsk, hsymbol⟩
  canonical b x h := by
    unfold decodeBookUpdate at h
    split at h
    · cases h
    rename_i hsize
    simp only [Option.bind_eq_bind, Option.bind_eq_some_iff, Prod.exists] at h
    obtain ⟨_, _, h0, _, _, h1, _, _, h2, _, _, h3, _, _, h4, _, _, h5, _, _, h6, _, rest, hsymbol, h⟩ := h
    split at h
    · cases h
    split at h
    · cases h
    split at h
    · cases h
    cases h
    refine encoding_of_prefix rest ?_ ((not_not.mp hsize).trans (length_encodeBookUpdate _).symm)
    rw [readInteger_exact h0, readInteger_exact h1, readInteger_exact h2, readInteger_exact h3, readInteger_exact h4, readInteger_exact h5, readInteger_exact h6, readSymbol_exact hsymbol, encodeBookUpdate]
    simp only [List.append_assoc]
  inside := decodeBookUpdateAt_staysInside

theorem level3AddOrder_exact :
    ExactCodec Level3AddOrder.Valid encodeLevel3AddOrder decodeLevel3AddOrder decodeLevel3AddOrderAt where
  accepts x hx := by
    rw [decodeLevel3AddOrder, if_neg (not_not.mpr (length_encodeLevel3AddOrder x)), encodeLevel3AddOrder]
    simpa [readSymbol_writeSymbol_end, hx.1, hx.2.1, ← or_iff_not_imp_left, Side.code_inj] using hx.2.2
  rejects x hx := by
    rw [decodeLevel3AddOrder, if_neg (not_not.mpr (length_encodeLevel3AddOrder x)), encodeLevel3AddOrder]
    suffices isValidSymbol x.symbol = true → x.quantity ≠ 0 →
        ¬ (x.side = .buy ∨ x.side = .sell) by
      simpa [readSymbol_writeSymbol_end, Side.code_inj] using this
    intro hsymbol hq hside
    exact hx ⟨hsymbol, hq, hside⟩
  canonical b x h := by
    unfold decodeLevel3AddOrder at h
    split at h
    · cases h
    rename_i hsize
    simp only [Option.bind_eq_bind, Option.bind_eq_some_iff, Prod.exists] at h
    obtain ⟨_, _, h0, _, _, h1, _, _, h2, _, _, h3, _, _, h4, _, _, h5, _, rest, hsymbol, h⟩ := h
    split at h
    · cases h
    split at h
    · cases h
    cases h
    refine encoding_of_prefix rest ?_ ((not_not.mp hsize).trans (length_encodeLevel3AddOrder _).symm)
    rw [readInteger_exact h0, readInteger_exact h1, readInteger_exact h2, readInteger_exact h3, readInteger_exact h4, readInteger_exact h5, readSymbol_exact hsymbol, encodeLevel3AddOrder]
    simp only [List.append_assoc]
  inside := decodeLevel3AddOrderAt_staysInside

theorem level3OrderExecuted_exact :
    ExactCodec Level3OrderExecuted.Valid encodeLevel3OrderExecuted decodeLevel3OrderExecuted decodeLevel3OrderExecutedAt where
  accepts x hx := by
    rw [decodeLevel3OrderExecuted, if_neg (not_not.mpr (length_encodeLevel3OrderExecuted x)), encodeLevel3OrderExecuted]
    simp [readSymbol_writeSymbol_end, hx.1, hx.2]
  rejects x hx := by
    rw [decodeLevel3OrderExecuted, if_neg (not_not.mpr (length_encodeLevel3OrderExecuted x)), encodeLevel3OrderExecuted]
    simpa [readSymbol_writeSymbol_end, Level3OrderExecuted.Valid] using hx
  canonical b x h := by
    unfold decodeLevel3OrderExecuted at h
    split at h
    · cases h
    rename_i hsize
    simp only [Option.bind_eq_bind, Option.bind_eq_some_iff, Prod.exists] at h
    obtain ⟨_, _, h0, _, _, h1, _, _, h2, _, _, h3, _, _, h4, _, rest, hsymbol, h⟩ := h
    split at h
    · cases h
    cases h
    refine encoding_of_prefix rest ?_ ((not_not.mp hsize).trans (length_encodeLevel3OrderExecuted _).symm)
    rw [readInteger_exact h0, readInteger_exact h1, readInteger_exact h2, readInteger_exact h3, readInteger_exact h4, readSymbol_exact hsymbol, encodeLevel3OrderExecuted]
    simp only [List.append_assoc]
  inside := decodeLevel3OrderExecutedAt_staysInside

theorem level3OrderDeleted_exact :
    ExactCodec Level3OrderDeleted.Valid encodeLevel3OrderDeleted decodeLevel3OrderDeleted decodeLevel3OrderDeletedAt where
  accepts x hx := by
    rw [decodeLevel3OrderDeleted, if_neg (not_not.mpr (length_encodeLevel3OrderDeleted x)), encodeLevel3OrderDeleted]
    simp [readSymbol_writeSymbol_end, show isValidSymbol x.symbol = true from hx]
  rejects x hx := by
    rw [decodeLevel3OrderDeleted, if_neg (not_not.mpr (length_encodeLevel3OrderDeleted x)), encodeLevel3OrderDeleted]
    simpa [readSymbol_writeSymbol_end, Level3OrderDeleted.Valid] using hx
  canonical b x h := by
    unfold decodeLevel3OrderDeleted at h
    split at h
    · cases h
    rename_i hsize
    simp only [Option.bind_eq_bind, Option.bind_eq_some_iff, Prod.exists] at h
    obtain ⟨_, _, h0, _, _, h1, _, rest, hsymbol, h⟩ := h
    cases h
    refine encoding_of_prefix rest ?_ ((not_not.mp hsize).trans (length_encodeLevel3OrderDeleted _).symm)
    rw [readInteger_exact h0, readInteger_exact h1, readSymbol_exact hsymbol, encodeLevel3OrderDeleted]
    simp only [List.append_assoc]
  inside := decodeLevel3OrderDeletedAt_staysInside

theorem decodeHeader_valid {input : Bytes} {header : MessageHeader}
    (h : decodeHeader input = some header) : header.Valid := by
  by_contra hvalid
  have hrejects := header_exact.rejects header hvalid
  rw [header_exact.canonical input header h, h] at hrejects
  cases hrejects

/-- The header and all nine bodies. -/
theorem codecs_exact :
    ExactCodec MessageHeader.Valid encodeHeader decodeHeader decodeHeaderAt ∧
    ExactCodec NewOrderRequest.Valid encodeNewOrder decodeNewOrder decodeNewOrderAt ∧
    ExactCodec CancelOrderRequest.Valid encodeCancelOrder decodeCancelOrder decodeCancelOrderAt ∧
    ExactCodec ReplaceOrderRequest.Valid encodeReplaceOrder decodeReplaceOrder
      decodeReplaceOrderAt ∧
    ExactCodec OrderResponse.Valid encodeOrderResponse decodeOrderResponse decodeOrderResponseAt ∧
    ExactCodec TradeExecution.Valid encodeTradeExecution decodeTradeExecution
      decodeTradeExecutionAt ∧
    ExactCodec BookUpdate.Valid encodeBookUpdate decodeBookUpdate decodeBookUpdateAt ∧
    ExactCodec Level3AddOrder.Valid encodeLevel3AddOrder decodeLevel3AddOrder
      decodeLevel3AddOrderAt ∧
    ExactCodec Level3OrderExecuted.Valid encodeLevel3OrderExecuted decodeLevel3OrderExecuted
      decodeLevel3OrderExecutedAt ∧
    ExactCodec Level3OrderDeleted.Valid encodeLevel3OrderDeleted decodeLevel3OrderDeleted
      decodeLevel3OrderDeletedAt :=
  ⟨header_exact, newOrder_exact, cancelOrder_exact, replaceOrder_exact, orderResponse_exact,
    tradeExecution_exact, bookUpdate_exact, level3AddOrder_exact, level3OrderExecuted_exact,
    level3OrderDeleted_exact⟩

end Protocol

end ExchangeLab

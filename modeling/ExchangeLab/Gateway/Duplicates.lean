import ExchangeLab.Lib.Duplicates
import ExchangeLab.Gateway.Copies
import ExchangeLab.Gateway.Placing

/-!
# ExchangeLab.Gateway.Duplicates

How a session tells the second copy of a trade between two of its orders: by the key of the first.

* `Ledger.absorb_memory`: what the session remembers is the memory of a filter against duplicates.
* `processCoreMessage_traded`: a copy that is not ignored is applied to both orders, once each.
* `Link.Filters`: over a session, that is what the filter makes of the copies of its self-trades;
  kept by each message.
-/

namespace ExchangeLab

open Wire Protocol OrderBook MatchingEngine ExchangeServer ExchangeLab.Fix FixGateway FixBridge
  Duplicates

/-! ## Keys -/

def keyOf (trade : Trade) : SelfTradeKey :=
  ⟨trade.buyOrderId, trade.sellOrderId, trade.price, trade.quantity.toUInt64⟩

def Emission.key (emission : Emission) : Option SelfTradeKey := emission.trade.map keyOf

def Execution.key (execution : Execution) : SelfTradeKey := keyOf execution.trade

theorem CopiesOf.keys {emissions : List Emission} {executions : List Execution}
    (h : CopiesOf emissions executions) :
    emissions.filterMap Emission.key = twice (executions.map Execution.key) := by
  have hkey : ∀ emission : Emission, emission.trade = none → emission.key = none := by
    intro emission htrade
    rw [Emission.key, htrade]
    rfl
  rw [h.filterMap hkey, twice, List.flatMap_map]
  rfl

namespace CoreMessage

def execution (message : CoreMessage) : Option TradeExecution :=
  if message.header.type = .tradeExecution then decodeTradeExecution message.body else none

def key (message : CoreMessage) : Option SelfTradeKey := message.execution.map selfTradeKey

end CoreMessage

/-- The gateway reads the trade of a copy. -/
theorem tradeExecution_decoded (sequenceNumber : UInt64) (address : Socket) {symbol : Symbol}
    {trade : Trade} (hsymbol : isValidSymbol symbol = true) (hquantity : 0 < trade.quantity) :
    decodeTradeExecution ((Emission.tradeExecution address symbol trade).coreMessage
      sequenceNumber).body = some ⟨trade.buyOrderId, trade.sellOrderId, trade.price,
        trade.quantity.toUInt64, sequenceNumber, symbol⟩ :=
  tradeExecution_exact.accepts _ ⟨hsymbol, toUInt64_ne_zero (UInt32.pos_iff_ne_zero.mp hquantity)⟩

theorem tradeExecution_key (sequenceNumber : UInt64) (address : Socket) {symbol : Symbol}
    {trade : Trade} (hsymbol : isValidSymbol symbol = true) (hquantity : 0 < trade.quantity) :
    ((Emission.tradeExecution address symbol trade).coreMessage sequenceNumber).key =
      some (keyOf trade) := by
  have hexecution : ((Emission.tradeExecution address symbol trade).coreMessage
      sequenceNumber).execution = some ⟨trade.buyOrderId, trade.sellOrderId, trade.price,
        trade.quantity.toUInt64, sequenceNumber, symbol⟩ :=
    (if_pos rfl).trans (tradeExecution_decoded sequenceNumber address hsymbol hquantity)
  rw [CoreMessage.key, hexecution]
  rfl

theorem key_of_no_trade (sequenceNumber : UInt64) {emission : Emission} (h : emission.trade = none) :
    (emission.coreMessage sequenceNumber).key = none := by
  have hnone : (emission.coreMessage sequenceNumber).execution = none := by
    rw [CoreMessage.execution]
    split
    · rename_i htype
      cases emission with
      | tradeExecution => cases h
      | orderResponse socket orderId success type =>
        -- whatever its type, its body has the length of a response
        show decodeTradeExecution (encodeOrderResponse _) = none
        rw [decodeTradeExecution, length_encodeOrderResponse]
        rfl
      | bookUpdate => exact absurd (show MessageType.bookUpdate = .tradeExecution from htype) (by decide)
      | level3AddOrder =>
        exact absurd (show MessageType.level3AddOrder = .tradeExecution from htype) (by decide)
      | level3OrderExecuted =>
        exact absurd (show MessageType.level3OrderExecuted = .tradeExecution from htype) (by decide)
      | level3OrderDeleted =>
        exact absurd (show MessageType.level3OrderDeleted = .tradeExecution from htype) (by decide)
    · rfl
  rw [CoreMessage.key, hnone]
  rfl

/-! ## The ledger -/

namespace Ledger

/-- What the gateway remembers of its last self-trade. -/
def memory (l : Ledger) : Memory SelfTradeKey := ⟨l.lastSelfTradeKey, l.duplicatesToIgnore⟩

theorem respond_memory (l : Ledger) (id : OrderId) (success : Bool) :
    (l.respond id success).memory = l.memory := by
  unfold Ledger.respond
  split
  · rfl
  · split
    · rfl
    · unfold Ledger.answer
      split <;> rfl

theorem trade_memory (l : Ledger) (execution : TradeExecution) :
    (l.trade execution).memory =
      if l.OwnsBoth execution then l.memory.after (selfTradeKey execution) else l.memory := by
  unfold Ledger.trade
  by_cases hboth : l.OwnsBoth execution
  · rw [if_pos hboth, if_pos hboth, Memory.after]
    by_cases hignored : l.memory.Ignores (selfTradeKey execution)
    · rw [if_pos hignored]
      exact congrArg memory (if_pos hignored)
    · rw [if_neg hignored]
      exact congrArg memory (if_neg hignored)
  · rw [if_neg hboth, if_neg hboth]
    rfl

/-- Only a trade of two orders of the session changes what is remembered. -/
theorem absorb_memory (l : Ledger) (message : CoreMessage) :
    (l.absorb message).memory =
      match message.execution with
      | none => l.memory
      | some execution =>
        if l.OwnsBoth execution then l.memory.after (selfTradeKey execution) else l.memory := by
  unfold Ledger.absorb CoreMessage.execution
  by_cases hresponse : isOrderResponse message.header.type = true
  · have htype : message.header.type ≠ .tradeExecution := by
      intro heq
      rw [heq] at hresponse
      exact absurd hresponse (by decide)
    rw [if_pos hresponse, if_neg htype]
    cases decodeOrderResponse message.body with
    | none => rfl
    | some response => exact l.respond_memory _ _
  rw [if_neg hresponse]
  by_cases htype : message.header.type = .tradeExecution
  · rw [if_pos htype, if_pos htype]
    cases decodeTradeExecution message.body with
    | none => rfl
    | some execution => exact l.trade_memory execution
  · rw [if_neg htype, if_neg htype]
    split
    · cases decodeBookUpdate message.body <;> rfl
    · rfl

end Ledger

/-! ## What a copy is applied to -/

/-- The order that a reply reports a trade of. -/
def Reply.traded : Reply → Option OrderId
  | .executionReport report => if report.execType = .trade then some report.orderId else none
  | _ => none

theorem fillReply_traded (execution : TradeExecution) (order : OrderState) :
    (fillReply execution order).traded = some order.numericOrderId := rfl

/-- A copy of a self-trade is applied to both orders, unless it is ignored. -/
theorem processCoreMessage_traded {iteration : SetOrder} {message : CoreMessage}
    {session : SessionContext} {execution : TradeExecution}
    (hexecution : message.execution = some execution) (hboth : session.ledger.OwnsBoth execution)
    (hkeyed : ∀ id order, session.ledger.orders id = some order → order.numericOrderId = id) :
    (processCoreMessage iteration message session).2.filterMap Reply.traded =
      if session.ledger.memory.Ignores (selfTradeKey execution) then []
      else [execution.buyOrderId, execution.sellOrderId] := by
  have htype : message.header.type = .tradeExecution := by
    by_contra hother
    rw [CoreMessage.execution, if_neg hother] at hexecution
    cases hexecution
  rw [CoreMessage.execution, if_pos htype] at hexecution
  have hresponse : ¬isOrderResponse message.header.type = true := by
    rw [htype]
    decide
  rw [processCoreMessage, if_neg hresponse, if_pos htype, handleCoreTrade_replies, hexecution]
  simp only [Ledger.tradeReplies]
  by_cases hignored : session.ledger.memory.Ignores (selfTradeKey execution)
  · rw [if_pos hignored, if_pos ⟨hboth, hignored⟩]
    rfl
  · rw [if_neg hignored, if_neg fun hduplicate => hignored hduplicate.2]
    obtain ⟨hbuy, hsell⟩ := hboth
    obtain ⟨bought, hbuy⟩ := Option.isSome_iff_exists.mp hbuy
    have hfilled := isSome_fillAt execution.buyOrderId execution.sellOrderId execution session.ledger
    rw [hsell] at hfilled
    obtain ⟨sold, hsold⟩ := Option.isSome_iff_exists.mp hfilled
    have hsoldKey : sold.numericOrderId = execution.sellOrderId := by
      have hidentity := session.ledger.fillAt_identity execution.buyOrderId execution
        execution.sellOrderId
      rw [hsold, Option.map_some] at hidentity
      obtain ⟨order, horder, heq⟩ := Option.map_eq_some_iff.mp hidentity.symm
      exact (Prod.mk.inj (Prod.mk.inj heq).2).1.symm.trans (hkeyed _ _ horder)
    rw [hbuy, hsold]
    simp only [Option.toList_some, List.map_cons, List.map_nil, List.cons_append, List.nil_append,
      List.filterMap_cons, List.filterMap_nil, fillReply_traded, hkeyed _ _ hbuy, hsoldKey]

/-! ## One link -/

namespace Link

/-- Both orders of the trade are the session's. -/
def owns (link : Link) (key : SelfTradeKey) : Bool :=
  decide (key.buyOrderId ∈ link.placed ∧ key.sellOrderId ∈ link.placed)

/-- The trades of the copies that the session has processed. -/
def processed (link : Link) : List SelfTradeKey :=
  link.received.filterMap fun reception => reception.message.key

/-- And of those that it has still to process. -/
def arrived (link : Link) : List SelfTradeKey :=
  link.processed ++ link.toGateway.filterMap CoreMessage.key

/-- The trades between two orders of the session. -/
def selfTrades (executions : List Execution) (link : Link) : List SelfTradeKey :=
  (executions.map Execution.key).filter link.owns

/-- The copies of self-trades that the session has processed, each with the orders that it was
applied to. -/
def applied (link : Link) : List (SelfTradeKey × List OrderId) :=
  link.received.filterMap fun reception => (reception.message.key.filter link.owns).map fun key =>
    (key, reception.replies.filterMap Reply.traded)

theorem owns_iff {link : Link} {key : SelfTradeKey} :
    link.owns key = true ↔ key.buyOrderId ∈ link.placed ∧ key.sellOrderId ∈ link.placed :=
  decide_eq_true_iff

theorem processed_process (link : Link) (iteration : SetOrder) (message : CoreMessage)
    (rest : List CoreMessage) :
    (link.process iteration message rest).processed = link.processed ++ message.key.toList := by
  rw [Link.processed, Link.process, List.filterMap_append]
  cases hkey : message.key <;> simp [Link.processed, hkey]

theorem owns_congr {link link' : Link} (h : link'.placed = link.placed) : link'.owns = link.owns := by
  funext key
  rw [owns, owns, h]

end Link

/-- A copy is applied to both orders if it is taken, and to none if it is ignored. -/
def SelfTradeKey.application (mark : SelfTradeKey × Bool) : SelfTradeKey × List OrderId :=
  (mark.1, if mark.2 then [mark.1.buyOrderId, mark.1.sellOrderId] else [])

/-- What a session remembers, and what it has applied copies to, is what the filter makes of the
copies of its self-trades. -/
structure Link.Filters (link : Link) : Prop where
  memory : link.session.ledger.memory = (link.processed.filter link.owns).foldl Memory.after {}
  applied : link.applied =
    (marks {} (link.processed.filter link.owns)).map SelfTradeKey.application

theorem ClientEffect.memory {surroundings : Surroundings} {next : Nat} {message : Message}
    {session : SessionContext} {effects : Effects}
    (h : ClientEffect surroundings next message session effects) :
    effects.session.ledger.memory = session.ledger.memory := by
  cases h with
  | kept hledger | unsent _ hledger | placed _ _ _ hledger | cancelled _ _ _ _ hledger
  | replaced _ _ _ _ _ _ _ _ hledger =>
    have hmemory := congrArg Ledger.memory hledger
    exact hmemory

namespace Link.Filters

variable {link link' : Link}

theorem start (session : SessionContext) (h : session.ledger.memory = {}) :
    Link.Filters { session := session } :=
  ⟨h, rfl⟩

/-- Only the session, what it has processed and whose trades those are matter. -/
theorem congr (h : link.Filters) (hmemory : link'.session.ledger.memory = link.session.ledger.memory)
    (hreceived : link'.received = link.received)
    (howns : ∀ key ∈ link.processed, link'.owns key = link.owns key) : link'.Filters := by
  have hprocessed : link'.processed = link.processed := by
    rw [Link.processed, hreceived, Link.processed]
  have hfilter : link'.processed.filter link'.owns = link.processed.filter link.owns := by
    rw [hprocessed]
    exact List.filter_congr howns
  have happlied : link'.applied = link.applied := by
    rw [Link.applied, hreceived, Link.applied]
    refine List.filterMap_congr fun reception hmem => ?_
    cases hkey : reception.message.key with
    | none => rfl
    | some key =>
      have hsame := howns key (List.mem_filterMap.mpr ⟨reception, hmem, hkey⟩)
      simp only [Option.filter_some, hsame]
  refine ⟨?_, ?_⟩
  · rw [hmemory, hfilter]
    exact h.memory
  · rw [happlied, hfilter]
    exact h.applied

/-- A message of the core. The session takes a trade for its own if it is. -/
theorem deliver (h : link.Filters) {next : Nat} (hplacing : link.Placing next)
    {iteration : SetOrder} {message : CoreMessage} {rest : List CoreMessage}
    (hboth : ∀ execution, message.execution = some execution →
      (link.session.ledger.OwnsBoth execution ↔ link.owns (selfTradeKey execution) = true)) :
    (link.process iteration message rest).Filters := by
  have hledger : (link.process iteration message rest).session.ledger =
      link.session.ledger.absorb message := ledger_processCoreMessage link.session iteration message
  have howns : (link.process iteration message rest).owns = link.owns := rfl
  have hprocessed := link.processed_process iteration message rest
  have happlied : (link.process iteration message rest).applied = link.applied ++
      ((message.key.filter link.owns).map fun key =>
        (key, (processCoreMessage iteration message link.session).2.filterMap Reply.traded)).toList := by
    rw [Link.applied, howns, Link.process, List.filterMap_append]
    rfl
  refine ⟨?_, ?_⟩
  · rw [hledger, Ledger.absorb_memory, howns, hprocessed, List.filter_append, List.foldl_append,
      ← h.memory, CoreMessage.key]
    cases hexecution : message.execution with
    | none => rfl
    | some execution =>
      simp only [hboth execution hexecution, Option.map_some, Option.toList_some]
      by_cases hown : link.owns (selfTradeKey execution) = true
      · rw [if_pos hown, List.filter_cons_of_pos hown]
        rfl
      · rw [if_neg hown, List.filter_cons_of_neg hown]
        rfl
  · rw [happlied, howns, hprocessed, List.filter_append, marks_append, ← h.memory, List.map_append,
      ← h.applied, CoreMessage.key]
    congr 1
    cases hexecution : message.execution with
    | none => rfl
    | some execution =>
      simp only [Option.map_some, Option.toList_some]
      by_cases hown : link.owns (selfTradeKey execution) = true
      · have hreplies := @processCoreMessage_traded iteration _ _ _ hexecution
          ((hboth execution hexecution).mpr hown) fun id order horder =>
            (hplacing.orders id order horder).2
        rw [List.filter_cons_of_pos hown, Option.filter_some_pos hown, Option.map_some,
          Option.toList_some, hreplies]
        by_cases hignored : link.session.ledger.memory.Ignores (selfTradeKey execution)
        · simp [marks, SelfTradeKey.application, hignored]
        · have hids : (selfTradeKey execution).buyOrderId = execution.buyOrderId ∧
              (selfTradeKey execution).sellOrderId = execution.sellOrderId := ⟨rfl, rfl⟩
          simp [marks, SelfTradeKey.application, hignored, hids]
      · rw [List.filter_cons_of_neg hown, Option.filter_some_neg (eq_false_of_ne_true hown)]
        rfl

end Link.Filters

end ExchangeLab

import ExchangeLab.Server.Books
import ExchangeLab.Risk.WorkingOrders

/-!
# ExchangeLab.Server.Settlement

What settling the trades of a command does to the owners of an instrument and to the risk engine.

* `settleTrades_eq`: the loop over the trades, field by field.
* `settle_added`, `settle_lookup`, `settle_riskEngine`: the three results of `settle`.
* `Settling`: a command the engine has matched, with the owners as they were before.
* `Settling.lookup`, `Settling.mirrors`: its settlement drops the owners of filled orders, adds the
  residual, and keeps the working orders in step with the book.
-/

namespace ExchangeLab

open Wire Protocol OrderBook MatchingEngine Container ExchangeServer

/-- The risk clients of the owners of an instrument. -/
def InstrumentState.owner (instrument : InstrumentState) : OrderId → Option RiskClientId :=
  fun id => (instrument.orderOwners.lookup id).map OrderOwner.riskClientId

namespace ExchangeServer

/-! ## The loop over the trades -/

/-- The Level-3 event of a trade. -/
def executionOf (symbol : Symbol) (trade : Trade) : Level3OrderExecuted :=
  ⟨trade.buyOrderId, trade.sellOrderId, trade.price, trade.quantity.toUInt64, 0, symbol⟩

def deliveryOf (incoming : Incoming) (instrument : InstrumentState) (trade : Trade) :
    ExecutionDelivery :=
  let buyer := findOrderOwner instrument trade.buyOrderId incoming
  let seller := findOrderOwner instrument trade.sellOrderId incoming
  ⟨trade, incoming.symbol, buyer.socket, seller.socket, buyer.riskClientId, seller.riskClientId⟩

/-- The two orders of a trade. -/
def Trade.orderIds (trade : Trade) : List OrderId := [trade.buyOrderId, trade.sellOrderId]

section Loop

variable (incoming : Incoming) (instrument : InstrumentState) (trades : List Trade)
  (risk : RiskEngine)

theorem findOrderOwner_riskClientId (id : OrderId) :
    (findOrderOwner instrument id incoming).riskClientId =
      bookedFor incoming.orderId incoming.riskClientId instrument.owner id := by
  unfold findOrderOwner bookedFor InstrumentState.owner
  split
  · rfl
  · cases instrument.orderOwners.lookup id <;> rfl

theorem settleTrades_eq : settleTrades incoming instrument trades risk =
    { riskEngine := trades.foldl (reportTrade (symbolToString incoming.symbol)
        (bookedFor incoming.orderId incoming.riskClientId instrument.owner)) risk
      deliveries := trades.map (deliveryOf incoming instrument)
      executions := trades.map (executionOf incoming.symbol)
      deletedOrderIds := trades.flatMap fun trade =>
        (Trade.orderIds trade).filter (isFilledResting instrument incoming.orderId) } := by
  have hloop : ∀ done : Settlement, trades.foldl (settleTrade incoming instrument) done =
      { riskEngine := trades.foldl (reportTrade (symbolToString incoming.symbol)
          (bookedFor incoming.orderId incoming.riskClientId instrument.owner)) done.riskEngine
        deliveries := done.deliveries ++ trades.map (deliveryOf incoming instrument)
        executions := done.executions ++ trades.map (executionOf incoming.symbol)
        deletedOrderIds := done.deletedOrderIds ++ trades.flatMap fun trade =>
          (Trade.orderIds trade).filter (isFilledResting instrument incoming.orderId) } := by
    induction trades with
    | nil => intro done; simp
    | cons trade trades ih =>
      intro done
      rw [List.foldl_cons, ih]
      simp only [settleTrade, findOrderOwner_riskClientId, List.foldl_cons, List.map_cons,
        List.flatMap_cons, List.append_assoc, List.singleton_append, deliveryOf, reportTrade,
        executionOf, Trade.orderIds]
  rw [settleTrades, hloop]
  rfl

end Loop

/-! ## Settling -/

/-- The Level-3 event of an order that starts to rest. -/
def addOf (symbol : Symbol) (resting : Order) : Level3AddOrder where
  orderId := resting.id
  timestamp := resting.timestamp
  price := resting.price
  quantity := resting.remainingQuantity.toUInt64
  side := if resting.side = .buy then .buy else .sell
  sequenceNumber := 0
  symbol := symbol

section Settle

variable (order : SetOrder) (incoming : Incoming) (trades : List Trade)
  (instrument : InstrumentState) (risk : RiskEngine)

theorem settle_added : (settle order incoming trades instrument risk).added =
    (instrument.book.findOrder incoming.orderId).map (addOf incoming.symbol) := by
  simp only [settle]
  have hbook : (removeFilledOrderOwners instrument trades incoming.orderId).book =
      instrument.book := rfl
  rw [hbook]
  cases instrument.book.findOrder incoming.orderId <;> rfl

theorem settle_deliveries : (settle order incoming trades instrument risk).deliveries =
    trades.map (deliveryOf incoming instrument) := by
  simp only [settle, settleTrades_eq]
  split <;> rfl

theorem settle_executions : (settle order incoming trades instrument risk).executions =
    trades.map (executionOf incoming.symbol) := by
  simp only [settle, settleTrades_eq]
  split <;> rfl

theorem settle_deletions : (settle order incoming trades instrument risk).deletions =
    (order.enumerate (trades.flatMap fun trade =>
      (Trade.orderIds trade).filter (isFilledResting instrument incoming.orderId))).map
        fun orderId => ⟨orderId, 0, incoming.symbol⟩ := by
  simp only [settle, settleTrades_eq]
  split <;> rfl

theorem settle_riskEngine : (settle order incoming trades instrument risk).riskEngine =
    let traded := trades.foldl (reportTrade (symbolToString incoming.symbol)
      (bookedFor incoming.orderId incoming.riskClientId instrument.owner)) risk
    match instrument.book.findOrder incoming.orderId with
    | none => traded
    | some resting => traded.onOrderResting incoming.riskClientId (symbolToString incoming.symbol)
        resting.id resting.side resting.price resting.remainingQuantity := by
  simp only [settle, settleTrades_eq]
  have hbook : (removeFilledOrderOwners instrument trades incoming.orderId).book =
      instrument.book := rfl
  rw [hbook]
  cases instrument.book.findOrder incoming.orderId <;> rfl

theorem settle_lookup (id : OrderId) :
    (settle order incoming trades instrument risk).instrument.orderOwners.lookup id =
      if id = incoming.orderId ∧ (instrument.book.findOrder id).isSome = true then
        some ⟨incoming.socket, incoming.riskClientId⟩
      else if id ∈ trades.flatMap Trade.orderIds ∧
          isFilledResting instrument incoming.orderId id = true then none
      else instrument.orderOwners.lookup id := by
  have hremoved : (removeFilledOrderOwners instrument trades incoming.orderId).orderOwners.lookup id =
      if id ∈ trades.flatMap Trade.orderIds ∧
          isFilledResting instrument incoming.orderId id = true then none
      else instrument.orderOwners.lookup id :=
    lookup_foldl_erase _ _ _ _
  rw [← hremoved]
  simp only [settle]
  have hbook : (removeFilledOrderOwners instrument trades incoming.orderId).book =
      instrument.book := rfl
  rw [hbook]
  by_cases hid : id = incoming.orderId
  · subst hid
    cases instrument.book.findOrder incoming.orderId <;> simp
  · simp only [hid, false_and, if_false]
    split
    · rfl
    · exact Finmap.lookup_insert_of_ne _ hid

end Settle

/-! ## A matched command -/

/-- The engine has matched `o` on the book `b` of an instrument with the owners `orderOwners`. -/
structure Settling (incoming : Incoming) (o : Order) (b : OrderBook) (ts : List Trade) (o' : Order)
    (b' : OrderBook) (orderOwners : Finmap fun _ : OrderId => OrderOwner) : Prop where
  processed : Processed o b ts o' b'
  consistent : Consistent b
  id_eq : o.id = incoming.orderId
  absent : b.findOrder o.id = none
  client : incoming.riskClientId ≠ invalidRiskClientId
  owned : ∀ id owner, orderOwners.lookup id = some owner →
    owner.riskClientId ≠ invalidRiskClientId ∧ (id ≠ o.id → b.findOrder id ≠ none)

namespace Settling

variable {incoming : Incoming} {o o' : Order} {b b' : OrderBook} {ts : List Trade}
  {orderOwners : Finmap fun _ : OrderId => OrderOwner}

theorem trading (h : Settling incoming o b ts o' b' orderOwners) :
    Trading o.side o b.findOrder ts o' (Function.update b'.findOrder o.id none) :=
  h.processed.trading h.absent h.consistent

/-- Owners of other orders stay exactly while their order rests. -/
theorem lookup (h : Settling incoming o b ts o' b' orderOwners) (order : SetOrder)
    (risk : RiskEngine) (id : OrderId) :
    (settle order incoming ts ⟨b', orderOwners⟩ risk).instrument.orderOwners.lookup id =
      if id = incoming.orderId then
        if (b'.findOrder id).isSome = true then some ⟨incoming.socket, incoming.riskClientId⟩
        else orderOwners.lookup id
      else if (b'.findOrder id).isSome = true then orderOwners.lookup id else none := by
  rw [settle_lookup]
  by_cases hid : id = incoming.orderId
  · subst hid
    simp [isFilledResting]
  have hfilled : isFilledResting ⟨b', orderOwners⟩ incoming.orderId id =
      (b'.findOrder id).isNone := by simp [isFilledResting, hid]
  simp only [hid, false_and, if_false, hfilled]
  by_cases hrest : (b'.findOrder id).isSome = true
  · rw [if_neg (fun hand => by simp [Option.isSome_iff_ne_none.mp hrest] at hand), if_pos hrest]
  have hnone : b'.findOrder id = none := by simpa using hrest
  rw [if_neg hrest]
  cases howner : orderOwners.lookup id with
  | none => simp
  | some owner =>
    -- an owned order that does not rest any more was filled by one of the trades
    have hne : id ≠ o.id := fun he => hid (he.trans h.id_eq)
    have hgone : Function.update b'.findOrder o.id none id = none := by
      rw [Function.update_of_ne hne, hnone]
    obtain ⟨t, ht, hor⟩ := h.trading.traded ((h.owned id owner howner).2 hne) hgone
    have hmem : id ∈ ts.flatMap Trade.orderIds :=
      List.mem_flatMap.mpr ⟨t, ht, by rcases hor with rfl | rfl <;> simp [Trade.orderIds]⟩
    rw [if_pos ⟨hmem, by rw [hnone]; rfl⟩]

/-- The working orders follow the book through the trades and the residual. -/
theorem mirrors (h : Settling incoming o b ts o' b' orderOwners) (order : SetOrder)
    {risk : RiskEngine}
    (hm : Mirrors risk (symbolToString incoming.symbol) (InstrumentState.mk b orderOwners).owner
      b.findOrder) :
    let settled := settle order incoming ts ⟨b', orderOwners⟩ risk
    Mirrors settled.riskEngine (symbolToString incoming.symbol) settled.instrument.owner
        b'.findOrder ∧
      SameElsewhere (symbolToString incoming.symbol) risk settled.riskEngine := by
  intro settled
  let x := symbolToString incoming.symbol
  let owner := (InstrumentState.mk b orderOwners).owner
  have howner : ∀ id c, owner id = some c → c ≠ invalidRiskClientId := by
    intro id c hc
    obtain ⟨ow, how, rfl⟩ := Option.map_eq_some_iff.mp hc
    exact (h.owned id ow how).1
  obtain ⟨hm', hsame⟩ := h.trading.mirrors h.absent hm howner (c := incoming.riskClientId)
  rw [h.id_eq] at hm' hsame
  have hincoming := h.processed.findOrder_incoming h.absent h.consistent
  have hsettled : ∀ id, id ≠ incoming.orderId → settled.instrument.owner id =
      if (b'.findOrder id).isSome = true then owner id else none := by
    intro id hid
    rw [InstrumentState.owner, h.lookup order risk id, if_neg hid]
    split <;> rfl
  have hother : ∀ c id, id ≠ incoming.orderId →
      (ts.foldl (reportTrade x (bookedFor incoming.orderId incoming.riskClientId owner))
        risk).workingOrders.lookup ⟨c, x, id⟩ =
        (settled.instrument.owner id).bind fun c' =>
          if c' = c then (b'.findOrder id).map Order.working else none := by
    intro c id hid
    rw [hm' c id, Function.update_of_ne hid, hsettled id hid]
    cases b'.findOrder id with
    | none => cases owner id <;> simp
    | some r => rfl
  have hrisk : settled.riskEngine =
      match b'.findOrder incoming.orderId with
      | none => ts.foldl (reportTrade x (bookedFor incoming.orderId incoming.riskClientId owner)) risk
      | some resting =>
        (ts.foldl (reportTrade x (bookedFor incoming.orderId incoming.riskClientId owner))
          risk).onOrderResting incoming.riskClientId x resting.id resting.side resting.price
            resting.remainingQuantity :=
    settle_riskEngine order incoming ts ⟨b', orderOwners⟩ risk
  have hown : settled.instrument.owner incoming.orderId =
      if (b'.findOrder incoming.orderId).isSome = true then some incoming.riskClientId
      else owner incoming.orderId := by
    rw [InstrumentState.owner, h.lookup order risk incoming.orderId, if_pos rfl]
    split <;> rfl
  rw [h.id_eq] at hincoming
  by_cases hrests : 0 < o'.remainingQuantity ∧ mayRest o' = true
  · rw [if_pos hrests] at hincoming
    rw [hincoming] at hrisk hown
    have hid' : o'.id = incoming.orderId := h.processed.sweeps.id_eq.trans h.id_eq
    have hlookup := onOrderResting_lookup
      (ts.foldl (reportTrade x (bookedFor incoming.orderId incoming.riskClientId owner)) risk)
      h.client x o'.id o'.side o'.price hrests.1
    simp only at hrisk
    refine ⟨fun c id => ?_, fun k hk => ?_⟩
    · rw [hrisk, hlookup]
      by_cases hid : id = incoming.orderId
      · subst hid
        rw [hid', hown, hincoming, hm' c, Function.update_self]
        by_cases hc : c = incoming.riskClientId
        · simp [hc, Order.working, x]
        · simp [Ne.symm hc, hc]
      · rw [if_neg (by simp [hid', hid]), hother c id hid]
    · rw [hrisk, hlookup, if_neg (fun he => hk (by rw [he])), hsame k hk]
  · rw [if_neg hrests] at hincoming
    rw [hincoming] at hrisk hown
    simp only at hrisk
    refine ⟨fun c id => ?_, fun k hk => by rw [hrisk, hsame k hk]⟩
    rw [hrisk]
    by_cases hid : id = incoming.orderId
    · subst hid
      rw [hm' c, Function.update_self, hincoming]
      cases (InstrumentState.mk b orderOwners).owner incoming.orderId <;>
        cases settled.instrument.owner incoming.orderId <;> simp
    · exact hother c id hid

end Settling

end ExchangeServer

end ExchangeLab

import ExchangeLab.Server.Exposure
import ExchangeLab.Matching.Atomicity

/-!
# ExchangeLab.Server.Notional

The order-notional limit against what an accepted order trades and leaves resting.

The check multiplies the quantity by one price: the limit price, or for a market order the best price
of the other side. The trades are made at the prices of the resting orders.

* `checkCommonOrderLimits_accepted`: what the check compares.
* `Processed.executed_le`: what an order comes to, against its quantity at one price.
* `order_notional_bounded`: the limit bounds an order up to the `excess` of its trades over the price
  that was checked.
* `order_notional_exceeded`: a sale at a better price than its limit comes to more.
-/

namespace ExchangeLab

open Wire Protocol Container OrderBook MatchingEngine ExchangeServer Transition

/-- Over the integers. -/
def notional (price : Price) (quantity : Quantity) : Nat := price.toInt.natAbs * quantity.toNat

/-- What the trades of an order come to, and what is left of it in the book at its limit price. -/
def executedNotional (id : OrderId) (trades : List Trade) (book : OrderBook) : Nat :=
  (trades.map fun t => notional t.price t.quantity).sum +
    ((book.findOrder id).map fun resting => notional resting.price resting.remainingQuantity).getD 0

/-- By how much the trades come to more than their quantities at the given price. -/
def excess (price : Price) (trades : List Trade) : Nat :=
  (trades.map fun t => (t.price.toInt.natAbs - price.toInt.natAbs) * t.quantity.toNat).sum

/-- The price that the check of a new order multiplies with. -/
def checkedPrice (incoming : Order) (book : OrderBook) : Price :=
  match referencePriceFor incoming book with
  | .ok (some best) => best
  | _ => incoming.price

/-- What the limit says of an order that it let pass: `trades` are its trades and `book` is what they
leave. -/
structure NotionalBounded (limits : RiskLimits) (incoming : Order) (price : Price)
    (trades : List Trade) (book : OrderBook) : Prop where
  checked : notional price incoming.remainingQuantity ≤ limits.maxOrderNotional.toNat
  executed : executedNotional incoming.id trades book ≤
    limits.maxOrderNotional.toNat + excess price trades
  /-- A limit order that buys at prices that are not negative comes to no more than the limit. -/
  bought : incoming.side = .buy → incoming.type = .limit → (∀ t ∈ trades, 0 ≤ t.price.toInt) →
    executedNotional incoming.id trades book ≤ limits.maxOrderNotional.toNat
  /-- Nor does one that sells at prices that are not positive. -/
  sold : incoming.side = .sell → incoming.type = .limit → (∀ t ∈ trades, t.price.toInt ≤ 0) →
    executedNotional incoming.id trades book ≤ limits.maxOrderNotional.toNat

/-! ## The check -/

section Check

variable {risk : RiskEngine} {price : Price} {quantity : Quantity} {reference : Option Price}

theorem checkCommonOrderLimits_accepted
    (h : (risk.checkCommonOrderLimits price quantity reference).accepted = true) :
    notional (reference.getD price) quantity ≤ risk.limits.maxOrderNotional.toNat := by
  rw [RiskEngine.checkCommonOrderLimits] at h
  split at h
  · cases h
  simp only at h
  split at h
  · cases h
  rename_i hpassed
  have hmagnitude := absoluteValue_toNat (reference.getD price)
  rw [absolutePrice] at hpassed
  rw [notional, ← hmagnitude]
  by_cases hzero : (absoluteValue (reference.getD price)).toNat = 0
  · rw [hzero, Nat.zero_mul]
    exact Nat.zero_le _
  · have hne : absoluteValue (reference.getD price) ≠ 0 := by
      intro heq
      rw [heq] at hzero
      exact hzero rfl
    have hle := UInt64.not_lt.mp fun hgt => hpassed ⟨hne, hgt⟩
    rw [UInt64.le_iff_toNat_le, UInt64.toNat_div, UInt32.toNat_toUInt64,
      Nat.le_div_iff_mul_le (Nat.pos_of_ne_zero hzero), Nat.mul_comm] at hle
    exact hle

theorem checkNewOrder_notional {request : RiskOrderRequest}
    (h : (risk.checkNewOrder request).accepted = true) :
    notional (request.referencePrice.getD request.price) request.quantity ≤
      risk.limits.maxOrderNotional.toNat := by
  refine checkCommonOrderLimits_accepted ?_
  by_contra hrefused
  rw [Bool.not_eq_true] at hrefused
  rw [RiskEngine.checkNewOrder] at h
  split at h
  · cases h
  simp only at h
  split at h
  · cases h
  · rw [hrefused] at h
    simp only [Bool.not_false, if_true] at h
    rw [hrefused] at h
    cases h

theorem checkReplace_notional {client : RiskClientId} {symbol : List UInt8} {id : OrderId}
    (h : (risk.checkReplace client symbol id price quantity).accepted = true) :
    notional price quantity ≤ risk.limits.maxOrderNotional.toNat := by
  refine @checkCommonOrderLimits_accepted risk price quantity none ?_
  by_contra hrefused
  rw [Bool.not_eq_true] at hrefused
  rw [RiskEngine.checkReplace] at h
  split at h
  · cases h
  simp only at h
  split at h
  · cases h
  split at h
  · cases h
  · rw [hrefused] at h
    simp only [Bool.not_false, if_true] at h
    rw [hrefused] at h
    cases h

end Check

/-! ## The trades -/

section Executed

variable {b b' : OrderBook} {o o' : Order} {ts : List Trade} {price : Price}

theorem sum_notional_le (price : Price) (ts : List Trade) :
    (ts.map fun t => notional t.price t.quantity).sum ≤
      price.toInt.natAbs * (ts.map fun t => t.quantity.toNat).sum + excess price ts := by
  induction ts with
  | nil => exact Nat.zero_le _
  | cons t ts ih =>
    have hone : t.price.toInt.natAbs * t.quantity.toNat ≤ price.toInt.natAbs * t.quantity.toNat +
        (t.price.toInt.natAbs - price.toInt.natAbs) * t.quantity.toNat := by
      rw [← Nat.add_mul]
      exact Nat.mul_le_mul_right _ (by omega)
    simp only [excess, notional, List.map_cons, List.sum_cons, Nat.mul_add] at ih ⊢
    omega

/-- The quantity of an order is what it has traded and what is left of it. -/
theorem Processed.executed_le (h : Processed o b ts o' b') (hid : b.findOrder o.id = none)
    (hc : Consistent b) (hprice : mayRest o = true → o.price = price) :
    executedNotional o.id ts b' ≤ notional price o.remainingQuantity + excess price ts := by
  have htraded := sum_notional_le price ts
  have hconserves := h.sweeps.conserves
  have hleft : ((b'.findOrder o.id).map fun resting =>
      notional resting.price resting.remainingQuantity).getD 0 ≤
        price.toInt.natAbs * o'.remainingQuantity.toNat := by
    rw [h.findOrder_incoming hid hc]
    split
    · rename_i hrests
      rw [h.sweeps.mayRest_eq] at hrests
      rw [Option.map_some, Option.getD_some, notional, h.sweeps.price_eq, hprice hrests.2]
    · exact Nat.zero_le _
  have hquantity : price.toInt.natAbs * o.remainingQuantity.toNat =
      price.toInt.natAbs * (ts.map fun t => t.quantity.toNat).sum +
        price.toInt.natAbs * o'.remainingQuantity.toNat := by
    rw [← Nat.mul_add]
    congr 1
    omega
  rw [executedNotional, notional, hquantity]
  omega

theorem excess_eq_zero (h : ∀ t ∈ ts, t.price.toInt.natAbs ≤ price.toInt.natAbs) :
    excess price ts = 0 := by
  rw [excess, List.sum_eq_zero]
  intro q hq
  obtain ⟨t, ht, rfl⟩ := List.mem_map.mp hq
  rw [Nat.sub_eq_zero_of_le (h t ht), Nat.zero_mul]

/-- A limit order trades at its limit or better. -/
theorem Processed.noWorse_price (h : Processed o b ts o' b') (hc : Consistent b)
    (htype : o.type = .limit) {t : Trade} (ht : t ∈ ts) :
    Reference.noWorse o.side o.price t.price := by
  obtain ⟨n, hn, heq, -, -, hcross⟩ :=
    h.sweeps.trade_mem (fun n hn => (hc.nodes_rests hn).positive) t ht
  have hsame : t.price = n.order.price := by rw [heq, tradeWith_price]
  rw [hsame]
  exact noWorse_of_crosses hcross htype

/-- What the check of the price says of an order that the engine then processed. -/
theorem notionalBounded {limits : RiskLimits} (hc : Consistent b) (hid : b.findOrder o.id = none)
    (hengine : processOrderInto o b = .returned ts b')
    (hchecked : notional price o.remainingQuantity ≤ limits.maxOrderNotional.toNat)
    (hprice : o.type = .limit → o.price = price) : NotionalBounded limits o price ts b' := by
  obtain ⟨o', hprocessed⟩ := processed_of_returned hc hid hengine
  have hlimit : mayRest (normalizeIncoming o) = true → (normalizeIncoming o).price = price := by
    intro hrests
    rw [mayRest_normalize] at hrests
    rw [normalize_price]
    exact hprice (mayRest_iff.mp hrests).1
  have hexecuted := hprocessed.executed_le (by rwa [normalize_id]) hc hlimit
  rw [normalize_id, normalize_remainingQuantity] at hexecuted
  have hnoWorse : o.type = .limit → ∀ t ∈ ts, Reference.noWorse o.side price t.price := by
    intro htype t ht
    have h := hprocessed.noWorse_price hc (by rwa [normalize_type]) ht
    rwa [normalize_side, normalize_price, hprice htype] at h
  refine ⟨hchecked, by omega, fun hside htype hprices => ?_, fun hside htype hprices => ?_⟩
  · have hzero : excess price ts = 0 := excess_eq_zero fun t ht => by
      have hle := hnoWorse htype t ht
      rw [hside, Reference.noWorse, Int64.le_iff_toInt_le] at hle
      have hpositive := hprices t ht
      omega
    omega
  · have hzero : excess price ts = 0 := excess_eq_zero fun t ht => by
      have hle := hnoWorse htype t ht
      rw [hside, Reference.noWorse, Int64.le_iff_toInt_le] at hle
      have hnegative := hprices t ht
      omega
    omega

end Executed

namespace ExchangeServer

section Run

variable {limits : RiskLimits} {file : Option (Option Bytes)} {log : List Event}
  {server₀ server : ExchangeServer} {socket : Socket} {frame : Frame} {trades : List Trade}
  {book : OrderBook} {snapshot : BookSnapshot}

theorem limits_run (hstart : start limits file = some server₀) (hrun : Run Step server₀ log server) :
    server.riskEngine.limits = limits := by
  have hinv : server.BooksConsistent ∧ server.riskEngine.limits = limits := by
    refine hrun.invariant
      (P := fun server => server.BooksConsistent ∧ server.riskEngine.limits = limits)
      ⟨start_booksConsistent hstart, by rw [start_riskEngine hstart]⟩
      fun _ _ _ h hstep => ⟨hstep.booksConsistent h.1, ?_⟩
    obtain ⟨hbooks, hlimits⟩ := h
    cases hstep with
    | connect | disconnect | setGlobalKillSwitch => exact hlimits
    | @frame server₁ _ _ emissions order hopen hrun =>
      obtain ⟨n, -, heq⟩ := emitAll_state emissions server₁
      rw [heq]
      exact (handleMessage_cases hbooks hrun).limits.trans hlimits
  exact hinv.2

theorem Placed.notionalBounded {request : NewOrderRequest}
    (h : Placed socket frame server request trades book snapshot) (hbooks : server.BooksConsistent) :
    NotionalBounded server.riskEngine.limits (orderOf request)
      (checkedPrice (orderOf request)
        (server.instrumentFor (symbolToString request.symbol)).book) trades book := by
  obtain ⟨referencePrice, hreference, happroved⟩ := h.approved
  have hprice : checkedPrice (orderOf request)
      (server.instrumentFor (symbolToString request.symbol)).book =
        referencePrice.getD (orderOf request).price := by
    rw [checkedPrice, hreference]
    cases referencePrice <;> rfl
  have hchecked := checkNewOrder_notional happroved
  rw [hprice]
  refine ExchangeLab.notionalBounded (hbooks.instrumentFor _) h.absent h.engine hchecked
    fun htype => ?_
  -- only a market order has a reference price
  rw [referencePriceFor, htype, if_neg (by decide)] at hreference
  cases hreference
  rfl

theorem Replaced.notionalBounded {request : ReplaceOrderRequest} {instrument : InstrumentState}
    (h : Replaced socket frame server request instrument trades book snapshot)
    (hbooks : server.BooksConsistent) :
    ∃ existing, instrument.book.findOrder request.orderId = some existing ∧
      NotionalBounded server.riskEngine.limits
        (replacement existing request.newPrice request.newQuantity.toUInt32 request.timestamp)
        request.newPrice trades book := by
  have hc := hbooks _ _ h.found
  obtain ⟨s, n, hn, hid⟩ := exists_node_of_owned hc h.owned
  have hengine := h.engine
  rw [← hid] at hengine
  obtain ⟨-, -, b₁, hc₁, hself, hother, -, hproc⟩ := replaceOrderInto_returned hc hn hengine
  have habsent : b₁.findOrder n.order.id = none := by
    rw [hc.findOrder_extracted hc₁ hn hself hother, Function.update_self]
  exact ⟨n.order, hc.findOrder_eq_some.mpr ⟨n, mem_allNodes_of hn, hid, rfl⟩,
    ExchangeLab.notionalBounded hc₁ habsent hproc (checkReplace_notional h.approved) fun _ => rfl⟩

end Run

end ExchangeServer

/-- In every run, what an accepted order or replacement comes to stays within the limit up to the
excess of its trades over the price that was checked. -/
theorem order_notional_bounded {limits : RiskLimits} {file : Option (Option Bytes)}
    {log : List Event} {server₀ server : ExchangeServer} (hstart : start limits file = some server₀)
    (hrun : Run Step server₀ log server) :
    (∀ socket frame request trades book snapshot,
      Placed socket frame server request trades book snapshot →
      NotionalBounded limits (orderOf request)
        (checkedPrice (orderOf request)
          (server.instrumentFor (symbolToString request.symbol)).book) trades book) ∧
    (∀ socket frame request instrument trades book snapshot,
      Replaced socket frame server request instrument trades book snapshot →
      ∃ existing, instrument.book.findOrder request.orderId = some existing ∧
        NotionalBounded limits
          (replacement existing request.newPrice request.newQuantity.toUInt32 request.timestamp)
          request.newPrice trades book) := by
  have hbooks := booksConsistent_run hstart hrun
  have hlimits := limits_run hstart hrun
  rw [← hlimits]
  exact ⟨fun socket frame request trades book snapshot h => h.notionalBounded hbooks,
    fun socket frame request instrument trades book snapshot h => h.notionalBounded hbooks⟩

/-- A bid for three at 300 rests; an order to sell eight at 100 is checked at 100. -/
theorem sell_above_limit :
    ∃ server log request trades book snapshot,
      Run Step { riskEngine := { limits := { maxOrderNotional := 1000 } } } log server ∧
      Placed 4 (newOrderFrame request) server request trades book snapshot ∧
      executedNotional (orderOf request).id trades book = 1400 := by
  obtain ⟨⟨server₁, emissions₁⟩, hrun₁, request, -, server, hserver, trades, book, snapshot, hplaced,
      hexecuted⟩ : ∃ r₁,
      handleMessage .dedup 4
        (newOrderFrame ⟨7, 1, 300, 3, .buy, .limit, .goodTillCancel, defaultSymbol⟩)
        (registerClient 4 { riskEngine := { limits := { maxOrderNotional := 1000 } } }) = .ok r₁ ∧
      ∃ request, request = ⟨8, 2, 100, 8, .sell, .limit, .goodTillCancel, defaultSymbol⟩ ∧
      ∃ server, server = (emitAll r₁.2 r₁.1).1 ∧ ∃ trades book snapshot,
      Placed 4 (newOrderFrame request) server request trades book snapshot ∧
      executedNotional (orderOf request).id trades book = 1400 :=
    ⟨_, by rfl, _, rfl, _, rfl, _, _, _,
      ⟨by rfl, by rfl, by decide, by decide, by rfl, by rfl, ⟨_, by rfl, by decide⟩, by rfl, by rfl⟩,
      by decide⟩
  have connected := Run.snoc (.nil _) (@Step.connect
    { riskEngine := { limits := { maxOrderNotional := 1000 } } } 4 (by decide) (by decide))
  have run := connected.snoc (.frame .dedup (by decide) hrun₁)
  exact ⟨server, _, request, trades, book, snapshot, hserver ▸ run, hplaced, hexecuted⟩

theorem order_notional_bounded_sell :
    ∃ server log request trades book snapshot,
      Run Step { riskEngine := { limits := { maxOrderNotional := 1000 } } } log server ∧
      Placed 4 (newOrderFrame request) server request trades book snapshot ∧
      executedNotional (orderOf request).id trades book = 1400 ∧
      NotionalBounded { maxOrderNotional := 1000 } (orderOf request)
        (checkedPrice (orderOf request)
          (server.instrumentFor (symbolToString request.symbol)).book) trades book := by
  obtain ⟨server, log, request, trades, book, snapshot, hrun, hplaced, hexecuted⟩ := sell_above_limit
  have hstart : start { maxOrderNotional := 1000 } none =
      some { riskEngine := { limits := { maxOrderNotional := 1000 } } } := rfl
  exact ⟨server, log, request, trades, book, snapshot, hrun, hplaced, hexecuted,
    (order_notional_bounded hstart hrun).1 _ _ _ _ _ _ hplaced⟩

/-- A sale is checked at its limit; made at a better price it comes to more. -/
theorem order_notional_exceeded :
    ¬ ∀ (limits : RiskLimits) (file : Option (Option Bytes)) (log : List Event)
        (server₀ server : ExchangeServer) (socket : Socket) (frame : Frame) (request : NewOrderRequest)
        (trades : List Trade) (book : OrderBook) (snapshot : BookSnapshot),
        start limits file = some server₀ → Run Step server₀ log server →
        Placed socket frame server request trades book snapshot →
        executedNotional (orderOf request).id trades book ≤ limits.maxOrderNotional.toNat := by
  intro h
  obtain ⟨server, log, request, trades, book, snapshot, hrun, hplaced, hexecuted⟩ := sell_above_limit
  have hle := h { maxOrderNotional := 1000 } none log _ server 4 _ request trades book snapshot rfl
    hrun hplaced
  rw [hexecuted] at hle
  exact absurd hle (by decide)

end ExchangeLab

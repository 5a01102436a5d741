import ExchangeLab.Server.Ownership
import ExchangeLab.Risk.Limits

/-!
# ExchangeLab.Server.Exposure

The pre-trade limits over every run of the server.

* `Settling.limited`: settling a matched order leaves nothing pending.
* `Handled.limited`: a frame keeps the limits of every client.
* `limited_run`: so does every run; `exposure_within_limits` spells it out for the snapshot.
-/

namespace ExchangeLab

open Wire Protocol OrderBook MatchingEngine Container ExchangeServer Transition

/-! ## The limits are never changed -/

section Limits

variable (risk : RiskEngine) (c : RiskClientId) (x : List UInt8) (id : OrderId) (s : Side)
  (price : Price) (q : Quantity)

@[simp] theorem eraseWorkingOrder_limits (k : WorkingOrderKey) :
    (risk.eraseWorkingOrder k).limits = risk.limits := by
  unfold RiskEngine.eraseWorkingOrder
  split <;> rfl

@[simp] theorem onOrderCancelled_limits :
    (risk.onOrderCancelled c x id).limits = risk.limits := by
  unfold RiskEngine.onOrderCancelled
  split
  · rfl
  · exact eraseWorkingOrder_limits risk _

@[simp] theorem onOrderResting_limits :
    (risk.onOrderResting c x id s price q).limits = risk.limits := by
  unfold RiskEngine.onOrderResting
  split
  · rfl
  · exact eraseWorkingOrder_limits risk _

theorem reduceWorkingOrder_limits : (risk.reduceWorkingOrder c x id q).limits = risk.limits := by
  simp only [RiskEngine.reduceWorkingOrder]
  split
  · rfl
  · split <;> rfl

@[simp] theorem onTradeSide_limits : (risk.onTradeSide s x c id q).limits = risk.limits := by
  unfold RiskEngine.onTradeSide
  split
  · rfl
  · exact reduceWorkingOrder_limits ..

theorem reportTrade_limits (client : OrderId → RiskClientId) (t : Trade) :
    (reportTrade x client risk t).limits = risk.limits := by
  unfold reportTrade RiskEngine.onTrade
  split
  · rfl
  · simp only [onTradeSide_limits]

theorem reportTrades_limits (client : OrderId → RiskClientId) (ts : List Trade) :
    (ts.foldl (reportTrade x client) risk).limits = risk.limits := by
  induction ts generalizing risk with
  | nil => rfl
  | cons t ts ih => rw [List.foldl_cons, ih, reportTrade_limits]

end Limits

namespace ExchangeServer

theorem settle_limits (order : SetOrder) (incoming : Incoming) (trades : List Trade)
    (instrument : InstrumentState) (risk : RiskEngine) :
    (settle order incoming trades instrument risk).riskEngine.limits = risk.limits := by
  rw [settle_riskEngine]
  cases instrument.book.findOrder incoming.orderId with
  | none => exact reportTrades_limits ..
  | some resting => simp only [onOrderResting_limits, reportTrades_limits]

/-! ## One frame -/

section Frame

variable {order : SetOrder} {socket : Socket} {frame : Frame} {server server' : ExchangeServer}
  {emissions : List Emission} {accepted : Bytes → OrderId → Prop}

theorem Handled.limits (h : Handled order socket frame server server' emissions) :
    server'.riskEngine.limits = server.riskEngine.limits := by
  cases h with
  | ignored | rejected | turnedAway => rfl
  | placed => exact settle_limits ..
  | cancelled => exact onOrderCancelled_limits ..
  | replaced =>
    refine (settle_limits ..).trans ?_
    exact onOrderCancelled_limits ..

/-- An order that passed the checks may be pending in full. -/
theorem Placed.pending {request : NewOrderRequest} {trades : List Trade} {book : OrderBook}
    {snapshot : BookSnapshot} (h : Placed socket frame server request trades book snapshot)
    (hlimited : Limited server.riskEngine .idle) :
    Limited server.riskEngine ⟨server.riskClientIdForSocket socket, symbolToString request.symbol,
      (normalizeIncoming (orderOf request)).side,
      (normalizeIncoming (orderOf request)).remainingQuantity.toNat,
      MatchingEngine.mayRest (orderOf request)⟩ := by
  obtain ⟨referencePrice, -, happroved⟩ := h.approved
  rw [normalize_side, normalize_remainingQuantity]
  exact hlimited.newOrder happroved

/-- And so may a replacement, once the order that it replaces has left. -/
theorem Replaced.pending {request : ReplaceOrderRequest} {instrument : InstrumentState}
    {trades : List Trade} {book : OrderBook} {snapshot : BookSnapshot} {accepted : OrderId → Prop}
    (h : Replaced socket frame server request instrument trades book snapshot)
    (hclient : server.riskClientIdForSocket socket ≠ invalidRiskClientId)
    (hbooks : server.BooksConsistent)
    (hx : Owned accepted server.riskEngine (symbolToString request.symbol) instrument)
    {s : Side} {n : Node} (hn : n ∈ instrument.book.nodes s) (hid : n.order.id = request.orderId)
    (hlimited : Limited server.riskEngine .idle) :
    let replaced := replacement n.order request.newPrice request.newQuantity.toUInt32
      request.timestamp
    Limited (server.riskEngine.onOrderCancelled (server.riskClientIdForSocket socket)
        (symbolToString request.symbol) request.orderId)
      ⟨server.riskClientIdForSocket socket, symbolToString request.symbol,
        (normalizeIncoming replaced).side, (normalizeIncoming replaced).remainingQuantity.toNat,
        true⟩ := by
  have howner := owner_of_ownsResting h.owned
  have hrests : instrument.book.findOrder n.order.id = some n.order :=
    (hbooks _ _ h.found).findOrder_eq_some.mpr ⟨n, mem_allNodes_of hn, rfl, rfl⟩
  have hworking : server.riskEngine.workingOrders.lookup
      ⟨server.riskClientIdForSocket socket, symbolToString request.symbol, request.orderId⟩ =
        some n.order.working := by
    rw [← hid] at howner ⊢
    exact hx.mirrors.working (by rw [InstrumentState.owner, howner]; rfl) hrests
  intro replaced
  rw [normalize_side, normalize_remainingQuantity]
  exact hlimited.replace hclient hworking h.approved

/-- After its trades an order is pending no more: what is left of it rests or is discarded. -/
theorem Settling.limited {incoming : Incoming} {o o' : Order} {b b' : OrderBook} {ts : List Trade}
    {orderOwners : Finmap fun _ : OrderId => OrderOwner} {risk : RiskEngine} {rests : Bool}
    (h : Settling incoming o b ts o' b' orderOwners) (order : SetOrder)
    (hm : Mirrors risk (symbolToString incoming.symbol) (InstrumentState.mk b orderOwners).owner
      b.findOrder)
    (hrests : MatchingEngine.mayRest o = true → rests = true)
    (hlimited : Limited risk ⟨incoming.riskClientId, symbolToString incoming.symbol, o.side,
      o.remainingQuantity.toNat, rests⟩) :
    Limited (settle order incoming ts ⟨b', orderOwners⟩ risk).riskEngine .idle := by
  have howner : ∀ id c, (InstrumentState.mk b orderOwners).owner id = some c →
      c ≠ invalidRiskClientId := by
    intro id c hc
    obtain ⟨owner, ho, rfl⟩ := Option.map_eq_some_iff.mp hc
    exact (h.owned id owner ho).1
  have htraded := h.trading.limited h.absent hm howner h.client hlimited
  have hmirrors := (h.trading.mirrors h.absent hm howner (c := incoming.riskClientId)).1
  have hincoming := h.processed.findOrder_incoming h.absent h.consistent
  rw [h.id_eq] at htraded hmirrors hincoming
  rw [settle_riskEngine]
  split at hincoming
  · rename_i hrest
    rw [hincoming]
    have hid : o'.id = incoming.orderId := h.processed.sweeps.id_eq.trans h.id_eq
    have hside : o'.side = o.side := by rw [h.processed.sweeps.residual_eq]
    have hmay : rests = true := hrests (h.processed.sweeps.mayRest_eq ▸ hrest.2)
    simp only
    rw [hid, hside]
    exact htraded.rest hmay h.client
      (hmirrors.absent (by rw [Function.update_self]) incoming.riskClientId) _ hrest.1 rfl
  · rw [hincoming]
    exact htraded.idle

theorem Handled.limited (h : Handled order socket frame server server' emissions)
    (hs : Sessions server) (hopen : socket ∈ server.clientSockets) (hbooks : server.BooksConsistent)
    (howned : ∀ x, Owned (accepted x) server.riskEngine x (server.instrumentFor x))
    (hlimited : Limited server.riskEngine .idle) : Limited server'.riskEngine .idle := by
  have hclient := hs.riskClient_ne hopen
  cases h with
  | ignored | rejected | turnedAway => exact hlimited
  | @placed request trades book snapshot h =>
    obtain ⟨o', hsettling⟩ := h.settling hs hopen hbooks (howned _)
    refine hsettling.limited order (howned (symbolToString request.symbol)).mirrors
      (fun hmay => ?_) (h.pending hlimited)
    rwa [mayRest_normalize] at hmay
  | @cancelled request instrument book snapshot h =>
    show Limited (server.riskEngine.onOrderCancelled _ _ _) .idle
    rw [RiskEngine.onOrderCancelled, if_neg hclient]
    exact hlimited.cancel _
  | @replaced request instrument trades book snapshot h =>
    have hx := howned (symbolToString request.symbol)
    rw [instrumentFor_of_found h.found] at hx
    have howner := owner_of_ownsResting h.owned
    obtain ⟨hm, -⟩ := hx.cancel howner
    obtain ⟨s, n, hn, hid, b₁, o', -, -, -, hfind, hsettling⟩ := h.settling hs hopen hbooks hx
    rw [← hfind] at hm
    exact hsettling.limited order hm (fun _ => rfl)
      (h.pending hclient hbooks hx hn hid hlimited)

end Frame

/-! ## Every run -/

section Run

variable {limits : RiskLimits} {file : Option (Option Bytes)} {log : List Event}
  {server₀ server server' : ExchangeServer} {event : Event}

/-- The limits are those of the start, and they hold. -/
structure WithinLimits (limits : RiskLimits) (server : ExchangeServer) : Prop where
  unchanged : server.riskEngine.limits = limits
  limited : Limited server.riskEngine .idle

theorem limited_start (hbounded : limits.maxPositionPerSymbol.toNat < 2 ^ 63) :
    Limited { limits := limits } .idle where
  accounted := .empty rfl rfl
  bounded := hbounded
  exposed c x s := by
    rw [Pending.on_idle]
    have hzero : (0 : Int64).toInt = 0 := by decide
    cases s <;> simp [RiskEngine.position, RiskEngine.state, RiskEngine.client, ClientState.symbol,
      SymbolState.openQuantity, exposure, hzero]
  orders c := by
    rw [Pending.resting_idle]
    simp [RiskEngine.client]
  gross c := by
    rw [Pending.resting_idle]
    simp [RiskEngine.client]

theorem start_riskEngine (h : start limits file = some server) :
    server.riskEngine = { limits := limits } := by
  unfold start at h
  split at h
  · cases h
    rfl
  · obtain ⟨books, -, heq⟩ := Option.bind_eq_some_iff.mp h
    cases heq
    rfl

theorem start_withinLimits (h : start limits file = some server)
    (hbounded : limits.maxPositionPerSymbol.toNat < 2 ^ 63) : WithinLimits limits server := by
  have hrisk := start_riskEngine h
  exact ⟨by rw [hrisk], hrisk ▸ limited_start hbounded⟩

theorem Step.withinLimits (h : WithinLimits limits server) (hown : Ownership log server)
    (hstep : Step server event server') : WithinLimits limits server' := by
  cases hstep with
  | connect | disconnect => exact ⟨h.unchanged, h.limited⟩
  | setGlobalKillSwitch enabled =>
    obtain ⟨hunchanged, hlimited⟩ := h
    exact ⟨hunchanged, ⟨⟨hlimited.accounted.orders, hlimited.accounted.quantities,
      hlimited.accounted.positive⟩, hlimited.bounded, hlimited.exposed, hlimited.orders,
      hlimited.gross⟩⟩
  | @frame server₁ socket frame emissions order hopen hrun =>
    have hhandled := handleMessage_cases hown.books hrun
    obtain ⟨n, -, heq⟩ := emitAll_state emissions server₁
    rw [heq]
    exact ⟨hhandled.limits.trans h.unchanged,
      hhandled.limited hown.sessions hopen hown.books hown.owned h.limited⟩

theorem limited_run (hstart : start limits file = some server₀)
    (hbounded : limits.maxPositionPerSymbol.toNat < 2 ^ 63) (hrun : Run Step server₀ log server) :
    WithinLimits limits server := by
  have hinv : Ownership log server ∧ WithinLimits limits server :=
    hrun.history (P := fun log server => Ownership log server ∧ WithinLimits limits server)
      ⟨start_ownership hstart, start_withinLimits hstart hbounded⟩
      fun _ _ _ _ _ h hstep => ⟨hstep.ownership h.1, hstep.withinLimits h.2 h.1⟩
  exact hinv.2

end Run

end ExchangeServer

theorem snapshot_eq (risk : RiskEngine) (c : RiskClientId) (x : List UInt8) :
    (risk.snapshot c x).position = (risk.state c x).position ∧
      (risk.snapshot c x).openBuyQuantity = (risk.state c x).openQuantity .buy ∧
      (risk.snapshot c x).openSellQuantity = (risk.state c x).openQuantity .sell ∧
      (risk.snapshot c x).openOrders = (risk.client c).openOrders ∧
      (risk.snapshot c x).grossOpenQuantity = (risk.client c).grossOpenQuantity := by
  simp only [RiskEngine.snapshot, RiskEngine.findClient, RiskEngine.findSymbolState,
    RiskEngine.state, RiskEngine.client, ClientState.symbol]
  cases risk.clients.lookup c with
  | none => exact ⟨rfl, rfl, rfl, rfl, rfl⟩
  | some client =>
    simp only [Option.getD_some]
    cases client.symbols.lookup x <;> exact ⟨rfl, rfl, rfl, rfl, rfl⟩

/-- In every state of a run, for every risk client and symbol: the position stays within the limit
however the working orders are filled, and so do the open orders and the open quantity. -/
theorem exposure_within_limits {limits : RiskLimits} {file : Option (Option Bytes)}
    {log : List Event} {server₀ server : ExchangeServer}
    (hbounded : limits.maxPositionPerSymbol.toNat < 2 ^ 63)
    (hstart : start limits file = some server₀) (hrun : Run Step server₀ log server)
    (c : RiskClientId) (x : List UInt8) :
    let snapshot := server.riskEngine.snapshot c x
    snapshot.position.toInt + snapshot.openBuyQuantity.toNat ≤ limits.maxPositionPerSymbol.toNat ∧
      snapshot.openSellQuantity.toNat - snapshot.position.toInt ≤
        limits.maxPositionPerSymbol.toNat ∧
      snapshot.position.toInt.natAbs ≤ limits.maxPositionPerSymbol.toNat ∧
      snapshot.openOrders ≤ limits.maxOpenOrders ∧
      snapshot.grossOpenQuantity ≤ limits.maxOpenQuantity := by
  intro snapshot
  obtain ⟨rfl, h⟩ := limited_run hstart hbounded hrun
  obtain ⟨hposition, hbuy, hsell, horders, hgross⟩ := snapshot_eq server.riskEngine c x
  have hlong := h.exposed c x .buy
  have hshort := h.exposed c x .sell
  have hopen := h.orders c
  have hquantity := h.gross c
  have hlt := (server.riskEngine.client c).grossOpenQuantity.toNat_lt
  simp only [Pending.on_idle, Pending.resting_idle, exposure, RiskEngine.position,
    RiskLimits.position, ← hposition, ← hbuy, ← hsell, ← horders, ← hgross] at hlong hshort hopen hquantity hlt
  simp only [snapshot, UInt64.le_iff_toNat_le]
  refine ⟨?_, ?_, ?_, ?_, ?_⟩ <;> omega

/-- A session with a working order to buy 5, which counts against its limit of 5. -/
theorem exposure_within_limits_order :
    ∃ server log, Run Step { riskEngine := { limits := { maxPositionPerSymbol := 5 } } } log server ∧
      (server.riskEngine.snapshot 1 [84, 69, 83, 84]).openBuyQuantity = 5 ∧
      (server.riskEngine.snapshot 1 [84, 69, 83, 84]).position.toInt +
        (server.riskEngine.snapshot 1 [84, 69, 83, 84]).openBuyQuantity.toNat ≤ 5 := by
  obtain ⟨⟨server, emissions⟩, hrun, hopen⟩ : ∃ result,
      handleMessage .dedup 4
        (newOrderFrame ⟨7, 1, 100, 5, .buy, .limit, .goodTillCancel, defaultSymbol⟩)
        (registerClient 4 { riskEngine := { limits := { maxPositionPerSymbol := 5 } } }) = .ok result ∧
      ((emitAll result.2 result.1).1.riskEngine.snapshot 1 [84, 69, 83, 84]).openBuyQuantity = 5 :=
    ⟨_, by rfl, by decide⟩
  have run := Run.snoc (.snoc (.nil _) (Step.connect (by decide) (by decide)))
    (Step.frame .dedup (by decide) hrun)
  have hstart : start { maxPositionPerSymbol := 5 } none =
      some { riskEngine := { limits := { maxPositionPerSymbol := 5 } } } := rfl
  exact ⟨_, _, run, hopen, (exposure_within_limits (by decide) hstart run 1 [84, 69, 83, 84]).1⟩

end ExchangeLab

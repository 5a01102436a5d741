import ExchangeLab.Gateway.Reports
import ExchangeLab.Server.Tracking

/-!
# ExchangeLab.Gateway.Depletion

What a handled frame leaves of the orders that rest, in quantities.

* `Depletes`: on one book, every order but the one that the command names loses what the trades name
  it for; the other books stay.
* `Handled.depletes`: every handled frame has one; `Placed.depletes` and `Replaced.depletes` add what
  becomes of the named order.
-/

namespace ExchangeLab

open Wire Protocol OrderBook MatchingEngine Container ExchangeServer

/-! ## Trades -/

theorem shares_trades {ts : List Trade} (h : ∀ t ∈ ts, t.buyOrderId ≠ t.sellOrderId) (id : OrderId) :
    shares id (ts.map keyOf) = tradedWith id ts := by
  induction ts with
  | nil => rfl
  | cons t ts ih =>
    have hcons : shares id ((t :: ts).map keyOf) = (keyOf t).share id + shares id (ts.map keyOf) := rfl
    have hshare : (keyOf t).share id = if t.names id then t.quantity.toNat else 0 := by
      have hne := h t (.head _)
      have hquantity : (keyOf t).quantity.toNat = t.quantity.toNat := UInt32.toNat_toUInt64 _
      rw [SelfTradeKey.share, hquantity, Trade.names, keyOf]
      by_cases hbuy : t.buyOrderId = id
      · have hsell : t.sellOrderId ≠ id := fun hsell => hne (hbuy.trans hsell.symm)
        simp [hbuy, hsell]
      · simp [hbuy]
    rw [hcons, tradedWith_cons, hshare, ih fun other hother => h other (.tail _ hother)]

/-- No more is traded of a resting order than is left of it. -/
theorem Trading.tradedWith_le {s : Side} {o o' : Order} {R R' : Resting} {ts : List Trade}
    (h : Trading s o R ts o' R') {id : OrderId} (hid : id ≠ o.id) :
    tradedWith id ts ≤ (R id).elim 0 fun r => r.remainingQuantity.toNat := by
  induction h with
  | stop => exact Nat.zero_le _
  | @step o o' r R R' q ts hr hside hpos hin hres rest ih =>
    have hlater := ih hid
    rw [tradedWith_cons, tradeWith_names]
    by_cases he : id = r.id
    · subst he
      have hq := UInt32.le_iff_toNat_le.mp hres
      have hquantity : (tradeWith s o r.id r.price q).quantity = q := rfl
      rw [Function.update_self, Order.reduced] at hlater
      rw [if_pos (by simp), hr, Option.elim_some, hquantity]
      split at hlater
      · rename_i heq
        rw [Option.elim_none] at hlater
        omega
      · rw [Option.elim_some] at hlater
        have hfill : (r.fill q).remainingQuantity.toNat = r.remainingQuantity.toNat - q.toNat :=
          UInt32.toNat_sub_of_le _ _ hres
        omega
    · rw [Function.update_of_ne he] at hlater
      rw [if_neg (by simp [Ne.symm hid, Ne.symm he]), Nat.zero_add]
      exact hlater

/-! ## What is left -/

/-- What is left of an order, if it rests. -/
def left (order : Option Order) : Nat := order.elim 0 fun o => o.remainingQuantity.toNat

theorem left_afterTrades (o : Order) {q : Nat} (h : q ≤ o.remainingQuantity.toNat) :
    left (o.afterTrades q) + q = o.remainingQuantity.toNat := by
  rw [Order.afterTrades]
  split
  · rename_i hlt
    have hsub := toNat_sub_ofNat hlt
    show (o.remainingQuantity - UInt32.ofNat q).toNat + q = _
    omega
  · show 0 + q = _
    omega

namespace ExchangeServer

/-- The quantity of an order that rests. -/
def remaining (server : ExchangeServer) (x : Bytes) (id : OrderId) : Nat :=
  left ((server.instrumentFor x).book.findOrder id)

/-- On the book of `x`, every order but the one that the command names has lost what the trades name
it for. -/
structure Depletes (x : Bytes) (named : Option OrderId) (server server' : ExchangeServer)
    (executions : List Execution) : Prop where
  elsewhere : ∀ y, y ≠ x → ∀ id, (server'.instrumentFor y).book.findOrder id =
    (server.instrumentFor y).book.findOrder id
  others : ∀ id, named ≠ some id →
    server'.remaining x id + shares id (executions.map Execution.key) = server.remaining x id
  rests : ∀ id, named ≠ some id → server'.Rests x id → server.Rests x id

section Depletes

variable {order : SetOrder} {socket : Socket} {frame : Frame} {server server' : ExchangeServer}
  {emissions : List Emission} {x : Bytes}

theorem depletes_of_same (hsame : ∀ x, server'.instrumentFor x = server.instrumentFor x) (x : Bytes) :
    Depletes x none server server' [] where
  elsewhere y _ id := by rw [hsame]
  others id _ := by
    rw [remaining, hsame]
    rfl
  rests id _ h := by rwa [Rests, hsame] at h

/-- A matched command. The order that it names has traded no more than it brought in, and what is
left of that rests if it may. -/
theorem Settling.depletes {incoming : Incoming} {o o' : Order} {b b' : OrderBook} {ts : List Trade}
    {orderOwners : Finmap fun _ : OrderId => OrderOwner} {instrument instrument' : InstrumentState}
    (h : Settling incoming o b ts o' b' orderOwners)
    (hothers : ∀ id, id ≠ incoming.orderId →
      b.findOrder id = (server.instrumentFor (symbolToString incoming.symbol)).book.findOrder id)
    (hinsert : server'.instruments =
      server.instruments.insert (symbolToString incoming.symbol) instrument')
    (hbook : instrument'.book = b')
    (hcopies : CopiesOf emissions ((ts.map (deliveryOf incoming instrument)).map
      ExecutionDelivery.execution)) :
    Depletes (symbolToString incoming.symbol) (some incoming.orderId) server server'
        (executionsOf emissions) ∧
      shares incoming.orderId ((executionsOf emissions).map Execution.key) ≤
        o.remainingQuantity.toNat ∧
      server'.remaining (symbolToString incoming.symbol) incoming.orderId =
        if mayRest o = true then o.remainingQuantity.toNat -
          shares incoming.orderId ((executionsOf emissions).map Execution.key) else 0 := by
  have hkeys : (executionsOf emissions).map Execution.key = ts.map keyOf := by
    rw [hcopies.1, List.map_map, List.map_map]
    rfl
  have hdistinct : ∀ t ∈ ts, t.buyOrderId ≠ t.sellOrderId := by
    intro t ht
    obtain ⟨resting, hne, -, hids⟩ := h.trading.orderIds h.absent ht
    rcases hids with hids | hids
    · obtain ⟨hbuy, hsell⟩ := List.cons.inj hids
      rw [hbuy, (List.cons.inj hsell).1]
      exact hne.symm
    · obtain ⟨hbuy, hsell⟩ := List.cons.inj hids
      rw [hbuy, (List.cons.inj hsell).1]
      exact hne
  have hat := instrumentFor_insert hinsert
  have hfound : ∀ id, (server'.instrumentFor (symbolToString incoming.symbol)).book.findOrder id =
      b'.findOrder id := fun id => by rw [hat, if_pos rfl, hbook]
  have hshares : ∀ id, shares id ((executionsOf emissions).map Execution.key) = tradedWith id ts :=
    fun id => by rw [hkeys, shares_trades hdistinct]
  have hbrought := h.trading.conserves
  rw [h.id_eq] at hbrought
  refine ⟨⟨fun y hy id => by rw [hat, if_neg hy], fun id hid => ?_, fun id hid hrests => ?_⟩, ?_, ?_⟩
  · have hne : id ≠ incoming.orderId := fun heq => hid (congrArg some heq.symm)
    have hle : tradedWith id ts ≤ _ := h.trading.tradedWith_le fun heq => hne (heq.trans h.id_eq)
    rw [remaining, hfound, h.findOrder_eq, if_neg hne, hshares, remaining, ← hothers id hne]
    cases hb : b.findOrder id with
    | none =>
      rw [hb, Option.elim_none] at hle
      rw [Nat.le_zero.mp hle]
      rfl
    | some r =>
      rw [hb, Option.elim_some] at hle
      exact left_afterTrades r hle
  · have hne : id ≠ incoming.orderId := fun heq => hid (congrArg some heq.symm)
    intro hnone
    rw [Rests, hfound, h.findOrder_eq, if_neg hne, hothers id hne, hnone] at hrests
    exact hrests rfl
  · rw [hshares]
    omega
  · rw [remaining, hfound, h.findOrder_eq, if_pos rfl, hshares, Order.arrived]
    split
    · have hleft := left_afterTrades o (q := tradedWith incoming.orderId ts) (by omega)
      omega
    · rfl

theorem Placed.depletes (order : SetOrder) {request : NewOrderRequest} {trades : List Trade}
    {book : OrderBook} {snapshot : BookSnapshot}
    (h : Placed socket frame server request trades book snapshot)
    {log : List Event} (hown : Ownership log server) (hopen : socket ∈ server.clientSockets)
    (hinsert : server'.instruments = server.instruments.insert (symbolToString request.symbol)
      (server.placedSettled order socket request trades book).instrument)
    (hemissions : emissions = newOrderEmissions socket request.orderId
      (server.placedSettled order socket request trades book) snapshot) :
    Depletes (symbolToString request.symbol) (some request.orderId) server server'
        (executionsOf emissions) ∧
      shares request.orderId ((executionsOf emissions).map Execution.key) ≤ request.quantity.toNat ∧
      server'.remaining (symbolToString request.symbol) request.orderId =
        if mayRest (orderOf request) = true then request.quantity.toNat -
          shares request.orderId ((executionsOf emissions).map Execution.key) else 0 := by
  obtain ⟨o', hsettling⟩ := h.settling hown.sessions hopen hown.books (hown.owned _)
  have hcopies := newOrderEmissions_copies socket request.orderId
    (server.placedSettled order socket request trades book) snapshot
  rw [placedSettled, settle_deliveries, ← placedSettled, ← hemissions] at hcopies
  have hdepletes := hsettling.depletes (fun _ _ => rfl) hinsert (settle_book ..) hcopies
  have hquantity : (normalizeIncoming (orderOf request)).remainingQuantity.toNat =
      request.quantity.toNat := by
    rw [normalize_remainingQuantity]
    exact toUInt32_toNat_of_le h.quantity
  rw [hquantity, mayRest_normalize] at hdepletes
  exact hdepletes

theorem Cancelled.depletes {request : CancelOrderRequest} {instrument : InstrumentState}
    {book : OrderBook} {snapshot : BookSnapshot}
    (h : Cancelled socket frame server request instrument book snapshot)
    (hbooks : server.BooksConsistent) {instrument' : InstrumentState}
    (hinsert : server'.instruments =
      server.instruments.insert (symbolToString request.symbol) instrument')
    (hbook : instrument'.book = book) :
    Depletes (symbolToString request.symbol) (some request.orderId) server server' [] ∧
      server'.remaining (symbolToString request.symbol) request.orderId = 0 := by
  have hat := instrumentFor_insert hinsert
  have hfound : ∀ id, (server'.instrumentFor (symbolToString request.symbol)).book.findOrder id =
      Function.update (server.instrumentFor (symbolToString request.symbol)).book.findOrder
        request.orderId none id := fun id => by
    rw [hat, if_pos rfl, hbook, h.findOrder hbooks, instrumentFor_of_found h.found]
  have hkept : ∀ id, (some request.orderId : Option OrderId) ≠ some id →
      (server'.instrumentFor (symbolToString request.symbol)).book.findOrder id =
        (server.instrumentFor (symbolToString request.symbol)).book.findOrder id := fun id hid => by
    rw [hfound, Function.update_of_ne fun heq => hid (congrArg some heq.symm)]
  refine ⟨⟨fun y hy id => by rw [hat, if_neg hy], fun id hid => ?_, fun id hid hrests => ?_⟩, ?_⟩
  · rw [remaining, hkept id hid]
    rfl
  · rwa [Rests, hkept id hid] at hrests
  · rw [remaining, hfound, Function.update_self]
    rfl

theorem Replaced.depletes (order : SetOrder) {request : ReplaceOrderRequest}
    {instrument : InstrumentState} {trades : List Trade} {book : OrderBook} {snapshot : BookSnapshot}
    (h : Replaced socket frame server request instrument trades book snapshot) {log : List Event}
    (hown : Ownership log server) (hopen : socket ∈ server.clientSockets)
    (hinsert : server'.instruments = server.instruments.insert (symbolToString request.symbol)
      (dropUnrested request.orderId
        (server.replacedSettled order socket request instrument trades book)))
    (hemissions : emissions = replaceOrderEmissions socket request.orderId request.symbol
      (server.replacedSettled order socket request instrument trades book) snapshot) :
    Depletes (symbolToString request.symbol) (some request.orderId) server server'
        (executionsOf emissions) ∧
      ((∀ r, (server.instrumentFor (symbolToString request.symbol)).book.findOrder request.orderId =
          some r → mayRest r = true) →
        shares request.orderId ((executionsOf emissions).map Execution.key) ≤
          request.newQuantity.toNat ∧
        server'.remaining (symbolToString request.symbol) request.orderId =
          request.newQuantity.toNat -
            shares request.orderId ((executionsOf emissions).map Execution.key)) := by
  have hfound := instrumentFor_of_found h.found
  have hx := hown.owned (symbolToString request.symbol)
  rw [hfound] at hx
  obtain ⟨s, n, hn, hid, b₁, o', -, -, -, hfind, hsettling⟩ :=
    h.settling hown.sessions hopen hown.books hx
  have hexisting : instrument.book.findOrder request.orderId = some n.order :=
    (hown.books _ _ h.found).findOrder_eq_some.mpr ⟨n, mem_allNodes_of hn, hid, rfl⟩
  have hcopies := replaceOrderEmissions_copies socket request.orderId request.symbol
    (server.replacedSettled order socket request instrument trades book) snapshot
  rw [replacedSettled, settle_deliveries, ← replacedSettled, ← hemissions] at hcopies
  obtain ⟨hdepletes, hle, hleft⟩ := hsettling.depletes (fun id hne => by
      have hne : id ≠ request.orderId := hne
      rw [hfind, Function.update_of_ne hne]
      exact (congrArg (fun i => i.book.findOrder id) hfound).symm)
    hinsert (by rw [dropUnrested_book, replacedSettled, settle_book]) hcopies
  refine ⟨hdepletes, fun hrests => ?_⟩
  have hmay := hrests n.order (by rw [hfound, hexisting])
  have hquantity : (normalizeIncoming (replacement n.order request.newPrice
      request.newQuantity.toUInt32 request.timestamp)).remainingQuantity.toNat =
        request.newQuantity.toNat := by
    rw [normalize_remainingQuantity]
    exact toUInt32_toNat_of_le h.quantity
  have hkept : mayRest (normalizeIncoming (replacement n.order request.newPrice
      request.newQuantity.toUInt32 request.timestamp)) = true := by
    rw [mayRest_normalize]
    exact hmay
  rw [hquantity] at hle hleft
  rw [if_pos hkept] at hleft
  exact ⟨hle, hleft⟩

/-- Every handled frame works on one book, and lets the order that it names trade. -/
theorem Handled.depletes (h : Handled order socket frame server server' emissions)
    {log : List Event} (hown : Ownership log server) (hopen : socket ∈ server.clientSockets) :
    ∃ x named, Depletes x named server server' (executionsOf emissions) ∧
      ∀ id, named = some id → server.WorksFor socket frame emissions id := by
  have hnone : ∀ id, (none : Option OrderId) = some id → server.WorksFor socket frame emissions id :=
    fun id heq => by cases heq
  cases h with
  | ignored => exact ⟨[], none, depletes_of_same (fun _ => rfl) [], hnone⟩
  | rejected => exact ⟨[], none, depletes_of_same (fun _ => rfl) [], hnone⟩
  | @turnedAway _ symbol =>
    exact ⟨[], none, depletes_of_same (instrumentFor_made server symbol) [], hnone⟩
  | @placed request trades book snapshot h =>
    refine ⟨_, _, (h.depletes order hown hopen rfl rfl).1, ?_⟩
    rintro id ⟨⟩
    exact .inl ⟨by simp [newOrderEmissions], request, h.command, rfl⟩
  | @cancelled request instrument book snapshot h =>
    refine ⟨_, _, (h.depletes hown.books rfl rfl).1, ?_⟩
    rintro id ⟨⟩
    refine .inr ⟨symbolToString request.symbol,
      ⟨socket, server.riskClientIdForSocket socket⟩, ?_, rfl⟩
    rw [recordedOwner, instrumentFor_of_found h.found]
    exact owner_of_ownsResting h.owned
  | @replaced request instrument trades book snapshot h =>
    refine ⟨_, _, (h.depletes order hown hopen rfl rfl).1, ?_⟩
    rintro id ⟨⟩
    refine .inr ⟨symbolToString request.symbol,
      ⟨socket, server.riskClientIdForSocket socket⟩, ?_, rfl⟩
    rw [recordedOwner, instrumentFor_of_found h.found]
    exact owner_of_ownsResting h.owned

/-- What rests of an order may rest. -/
def Restable (server : ExchangeServer) (x : Bytes) (id : OrderId) : Prop :=
  ∀ r, (server.instrumentFor x).book.findOrder id = some r → mayRest r = true

theorem mayRest_afterTrades {o r : Order} {q : Nat} (h : o.afterTrades q = some r) :
    mayRest r = mayRest o := by
  rw [Order.afterTrades] at h
  split at h
  · cases h
    rfl
  · cases h

theorem mayRest_arrived {o r : Order} {q : Nat} (h : o.arrived q = some r) : mayRest r = true := by
  rw [Order.arrived] at h
  split at h
  · rename_i hmay
    rw [mayRest_afterTrades h, hmay]
  · cases h

theorem Handled.restable (h : Handled order socket frame server server' emissions)
    {log : List Event} (hown : Ownership log server) (hopen : socket ∈ server.clientSockets)
    {id : OrderId} (hrests : server.Restable x id) : server'.Restable x id := by
  intro r hr
  rw [h.tracked hown hopen, trackFrame] at hr
  split at hr
  · rename_i command _
    cases command with
    | newOrder => exact mayRest_arrived hr
    | cancelOrder => cases hr
    | replaceOrder =>
      obtain ⟨o, -, hr⟩ := Option.bind_eq_some_iff.mp hr
      exact mayRest_arrived hr
  · obtain ⟨o, ho, hr⟩ := Option.bind_eq_some_iff.mp hr
    rw [mayRest_afterTrades hr]
    exact hrests o ho

end Depletes

end ExchangeServer

end ExchangeLab

import ExchangeLab.Gateway.Bridge
import ExchangeLab.Matching.Conservation
import ExchangeLab.Server.Executions
import ExchangeLab.Server.Responses

/-!
# ExchangeLab.Gateway.Copies

The trades a handler sends, two copies of each, and the orders they name.

* `copies_of_deliveries`: the copies are those of the executions, in pairs.
* `Crossing`: an execution between the order that came in and one that rested, with its addresses.
* `Turnover`, `Handled.turnover`: what a handler does to the orders that rest and to the records of
  their owners, and what its copies are.
-/

namespace ExchangeLab

open Wire Protocol OrderBook MatchingEngine Container ExchangeServer

/-! ## Copies -/

def Emission.trade : Emission → Option Trade
  | .tradeExecution _ _ trade => some trade
  | _ => none

def NoTrades (emissions : List Emission) : Prop := ∀ emission ∈ emissions, emission.trade = none

theorem executionsOf_cons {emission : Emission} (h : emission.trade = none)
    (emissions : List Emission) : executionsOf (emission :: emissions) = executionsOf emissions := by
  cases emission with
  | tradeExecution => cases h
  | orderResponse | bookUpdate | level3AddOrder | level3OrderExecuted | level3OrderDeleted =>
    simp [executionsOf]

theorem executionsOf_append {emissions : List Emission} (h : NoTrades emissions)
    (rest : List Emission) : executionsOf (emissions ++ rest) = executionsOf rest := by
  induction emissions with
  | nil => rfl
  | cons emission emissions ih =>
    rw [List.cons_append, executionsOf_cons (h emission (.head _)),
      ih fun other hother => h other (.tail _ hother)]

theorem NoTrades.executionsOf {emissions : List Emission} (h : NoTrades emissions) :
    ExchangeLab.executionsOf emissions = [] := by
  have happend := executionsOf_append h []
  rwa [List.append_nil] at happend

/-- The two copies that are sent of an execution. -/
def Execution.copies (execution : Execution) : List Emission :=
  [.tradeExecution execution.buyerSocket execution.symbol execution.trade,
    .tradeExecution execution.sellerSocket execution.symbol execution.trade]

def ExecutionDelivery.execution (delivery : ExecutionDelivery) : Execution :=
  ⟨delivery.trade, delivery.symbol, delivery.buyerSocket, delivery.sellerSocket⟩

/-- What a handler sends are the copies of its executions, among messages that tell of no trade. -/
def CopiesOf (emissions : List Emission) (executions : List Execution) : Prop :=
  executionsOf emissions = executions ∧
    emissions.filter (fun emission => emission.trade.isSome) = executions.flatMap Execution.copies

theorem NoTrades.copiesOf {emissions : List Emission} (h : NoTrades emissions) :
    CopiesOf emissions [] := by
  refine ⟨h.executionsOf, List.filter_eq_nil_iff.mpr fun emission hmem hsome => ?_⟩
  rw [h emission hmem] at hsome
  cases hsome

/-- What is read off trades only can be read off the copies. -/
theorem CopiesOf.filterMap {emissions : List Emission} {executions : List Execution}
    (h : CopiesOf emissions executions) {β : Type} {f : Emission → Option β}
    (hf : ∀ emission, emission.trade = none → f emission = none) :
    emissions.filterMap f = executions.flatMap fun execution => execution.copies.filterMap f := by
  have htrades : emissions.filterMap f =
      (emissions.filter fun emission => emission.trade.isSome).filterMap f := by
    rw [List.filterMap_filter]
    refine List.filterMap_congr fun emission _ => ?_
    cases htrade : emission.trade with
    | none => rw [hf emission htrade]; rfl
    | some => rfl
  rw [htrades, h.2, List.filterMap_flatMap]

/-- Wherever the deliveries stand among the emissions. -/
theorem copies_of_deliveries {before after : List Emission} (hbefore : NoTrades before)
    (hafter : NoTrades after) (deliveries : List ExecutionDelivery) :
    CopiesOf (before ++ (executionDeliveries deliveries ++ after))
      (deliveries.map ExecutionDelivery.execution) := by
  rw [CopiesOf, executionsOf_append hbefore, List.filter_append, hbefore.copiesOf.2,
    List.flatMap_nil, List.nil_append]
  induction deliveries with
  | nil => exact hafter.copiesOf
  | cons delivery deliveries ih =>
    have hcons : executionDeliveries (delivery :: deliveries) ++ after =
        .tradeExecution delivery.buyerSocket delivery.symbol delivery.trade ::
          .tradeExecution delivery.sellerSocket delivery.symbol delivery.trade ::
            (executionDeliveries deliveries ++ after) := rfl
    refine ⟨?_, ?_⟩
    · rw [hcons, executionsOf, ih.1]
      rfl
    · rw [hcons, List.filter_cons_of_pos rfl, List.filter_cons_of_pos rfl, ih.2]
      rfl

theorem noTrades_map {α : Type} {f : α → Emission} (h : ∀ x, (f x).trade = none) (xs : List α) :
    NoTrades (xs.map f) := by
  intro emission hmem
  obtain ⟨x, -, rfl⟩ := List.mem_map.mp hmem
  exact h x

theorem NoTrades.append {emissions emissions' : List Emission} (h : NoTrades emissions)
    (h' : NoTrades emissions') : NoTrades (emissions ++ emissions') := by
  intro emission hmem
  rcases List.mem_append.mp hmem with hmem | hmem
  · exact h emission hmem
  · exact h' emission hmem

theorem NoTrades.cons {emission : Emission} {emissions : List Emission} (h : emission.trade = none)
    (h' : NoTrades emissions) : NoTrades (emission :: emissions) := by
  intro other hmem
  rcases List.mem_cons.mp hmem with rfl | hmem
  · exact h
  · exact h' other hmem

theorem noTrades_nil : NoTrades [] := fun _ hmem => by cases hmem

/-- What a settlement publishes behind the executions. -/
theorem noTrades_settled (settled : Settled) :
    NoTrades (settled.executions.map .level3OrderExecuted ++
      (settled.deletions.map .level3OrderDeleted ++ settled.added.toList.map .level3AddOrder)) :=
  (noTrades_map (fun _ => rfl) _).append
    ((noTrades_map (fun _ => rfl) _).append (noTrades_map (fun _ => rfl) _))

theorem newOrderEmissions_copies (socket : Socket) (orderId : OrderId) (settled : Settled)
    (snapshot : BookSnapshot) :
    CopiesOf (newOrderEmissions socket orderId settled snapshot)
      (settled.deliveries.map ExecutionDelivery.execution) := by
  simp only [newOrderEmissions, List.append_assoc]
  exact copies_of_deliveries (.cons rfl noTrades_nil) (.cons rfl (noTrades_settled settled)) _

theorem replaceOrderEmissions_copies (socket : Socket) (orderId : OrderId) (symbol : Symbol)
    (settled : Settled) (snapshot : BookSnapshot) :
    CopiesOf (replaceOrderEmissions socket orderId symbol settled snapshot)
      (settled.deliveries.map ExecutionDelivery.execution) := by
  simp only [replaceOrderEmissions, List.append_assoc]
  exact copies_of_deliveries (.cons rfl noTrades_nil)
    (.cons rfl (.cons rfl (noTrades_settled settled))) _

/-! ## Orders -/

/-- An execution of the incoming order is with one that rested. -/
theorem Trading.orderIds {s : Side} {o o' : Order} {R R' : Resting} {ts : List Trade}
    (h : Trading s o R ts o' R') (habsent : R o.id = none) {t : Trade} (ht : t ∈ ts) :
    ∃ id, id ≠ o.id ∧ R id ≠ none ∧
      (Trade.orderIds t = [o.id, id] ∨ Trade.orderIds t = [id, o.id]) := by
  induction h with
  | stop => cases ht
  | @step o o' r R R' q ts hr hside hpos hin hres rest ih =>
    have hne : r.id ≠ o.id := fun heq => by rw [← heq, hr] at habsent; cases habsent
    rcases List.mem_cons.mp ht with rfl | ht
    · refine ⟨r.id, hne, by rw [hr]; exact Option.some_ne_none _, ?_⟩
      cases s
      · exact .inl rfl
      · exact .inr rfl
    · have habsent' : Function.update R r.id (r.reduced q) o.id = none := by
        rwa [Function.update_of_ne hne.symm]
      obtain ⟨id, hid, hrests, hids⟩ := ih habsent' ht
      refine ⟨id, hid, fun hnone => hrests ?_, hids⟩
      rwa [Function.update_of_ne fun heq => by rw [heq, hr] at hnone; cases hnone]

namespace ExchangeServer

def Rests (server : ExchangeServer) (x : Bytes) (id : OrderId) : Prop :=
  (server.instrumentFor x).book.findOrder id ≠ none

def recordedOwner (server : ExchangeServer) (x : Bytes) (id : OrderId) : Option OrderOwner :=
  (server.instrumentFor x).orderOwners.lookup id

/-- A handler lets an order trade: a new one that it accepts, or one that is its session's. -/
def WorksFor (server : ExchangeServer) (socket : Socket) (frame : Frame) (emissions : List Emission)
    (id : OrderId) : Prop :=
  (.orderResponse socket id true .orderAccepted ∈ emissions ∧ ∃ request,
      commandOf frame.header.type frame.body = some (.newOrder request) ∧ request.orderId = id) ∨
    ∃ x owner, server.recordedOwner x id = some owner ∧ owner.socket = socket

/-- An execution of the order `id`, which a session brought in, with one that rested: a copy goes to
the session and one to the owner of that order. -/
structure Crossing (server : ExchangeServer) (socket : Socket) (id : OrderId)
    (execution : Execution) : Prop where
  symbol : isValidSymbol execution.symbol = true
  quantity : 0 < execution.trade.quantity
  orders : ∃ x resting, resting ≠ id ∧ server.Rests x resting ∧
    (Trade.orderIds execution.trade = [id, resting] ∧ execution.buyerSocket = socket ∧
        execution.sellerSocket = ((server.recordedOwner x resting).getD {}).socket ∨
      Trade.orderIds execution.trade = [resting, id] ∧
        execution.buyerSocket = ((server.recordedOwner x resting).getD {}).socket ∧
        execution.sellerSocket = socket)

/-- What a handler does to the orders that rest and to the records of their owners, and the copies
of trades that it sends. -/
structure Turnover (socket : Socket) (frame : Frame) (server server' : ExchangeServer)
    (emissions : List Emission) : Prop where
  rests : ∀ x id, server'.Rests x id →
    server.Rests x id ∨ server.WorksFor socket frame emissions id
  recorded : ∀ x id owner, server'.recordedOwner x id = some owner →
    server.recordedOwner x id = some owner ∨
      owner.socket = socket ∧ server.WorksFor socket frame emissions id
  unrecorded : ∀ x id, server'.Rests x id → server'.recordedOwner x id = none →
    server.Rests x id ∧ server.recordedOwner x id = none
  copies : CopiesOf emissions (executionsOf emissions)
  crossings : ∀ execution ∈ executionsOf emissions,
    ∃ id, server.WorksFor socket frame emissions id ∧ server.Crossing socket id execution

/-- Every copy is of an execution. -/
theorem Turnover.execution {socket : Socket} {frame : Frame} {server server' : ExchangeServer}
    {emissions : List Emission} (h : Turnover socket frame server server' emissions)
    {address : Socket} {symbol : Symbol} {trade : Trade}
    (hmem : .tradeExecution address symbol trade ∈ emissions) :
    ∃ execution ∈ executionsOf emissions,
      .tradeExecution address symbol trade ∈ execution.copies := by
  have hcopy : .tradeExecution address symbol trade ∈
      emissions.filter fun emission => emission.trade.isSome := List.mem_filter.mpr ⟨hmem, rfl⟩
  rw [h.copies.2] at hcopy
  exact List.mem_flatMap.mp hcopy

section Turnover

variable {order : SetOrder} {socket : Socket} {frame : Frame} {server server' : ExchangeServer}
  {emissions : List Emission}

/-- A handler that leaves the instruments as they were, as one finds them. -/
theorem turnover_of_same (hsame : ∀ x, server'.instrumentFor x = server.instrumentFor x)
    (hquiet : NoTrades emissions) : Turnover socket frame server server' emissions where
  rests x id hrests := .inl (by rwa [Rests, hsame] at hrests)
  recorded x id owner howner := .inl (by rwa [recordedOwner, hsame] at howner)
  unrecorded x id hrests hnone := by
    rw [Rests, hsame] at hrests
    rw [recordedOwner, hsame] at hnone
    exact ⟨hrests, hnone⟩
  copies := by rw [hquiet.executionsOf]; exact hquiet.copiesOf
  crossings execution hmem := by rw [hquiet.executionsOf] at hmem; cases hmem

/-- Where the copies of a settlement go. -/
theorem Settling.crossing {incoming : Incoming} {o o' : Order} {b b' : OrderBook} {ts : List Trade}
    {orderOwners : Finmap fun _ : OrderId => OrderOwner}
    (h : Settling incoming o b ts o' b' orderOwners)
    (hvalid : isValidSymbol incoming.symbol = true) {x : Bytes}
    (howners : (server.instrumentFor x).orderOwners = orderOwners)
    (hbook : ∀ id, id ≠ incoming.orderId → b.findOrder id ≠ none → server.Rests x id)
    {t : Trade} (ht : t ∈ ts) :
    server.Crossing incoming.socket incoming.orderId
      (deliveryOf incoming ⟨b', orderOwners⟩ t).execution := by
  obtain ⟨resting, hne, hrests, hids⟩ := h.trading.orderIds h.absent ht
  rw [h.id_eq] at hne hids
  have hself : (findOrderOwner ⟨b', orderOwners⟩ incoming.orderId incoming).socket =
      incoming.socket := by rw [findOrderOwner, if_pos rfl]
  have hother : (findOrderOwner ⟨b', orderOwners⟩ resting incoming).socket =
      ((server.recordedOwner x resting).getD {}).socket := by
    rw [findOrderOwner, if_neg hne, recordedOwner, howners]
  refine ⟨hvalid, h.trading.positive t ht, x, resting, hne, hbook resting hne hrests, ?_⟩
  rcases hids with hids | hids
  · obtain ⟨hbuy, hsell⟩ := List.cons.inj hids
    obtain ⟨hsell, -⟩ := List.cons.inj hsell
    refine .inl ⟨hids, ?_, ?_⟩
    · rw [← hself, ← hbuy]
      rfl
    · rw [← hother, ← hsell]
      rfl
  · obtain ⟨hbuy, hsell⟩ := List.cons.inj hids
    obtain ⟨hsell, -⟩ := List.cons.inj hsell
    refine .inr ⟨hids, ?_, ?_⟩
    · rw [← hother, ← hbuy]
      rfl
    · rw [← hself, ← hsell]
      rfl

/-- A command that settled trades on the instrument of one symbol. -/
theorem Settling.turnover {incoming : Incoming} {o o' : Order} {b b' : OrderBook} {ts : List Trade}
    {orderOwners : Finmap fun _ : OrderId => OrderOwner}
    (h : Settling incoming o b ts o' b' orderOwners)
    (hvalid : isValidSymbol incoming.symbol = true) {x : Bytes} {instrument : InstrumentState}
    (howners : (server.instrumentFor x).orderOwners = orderOwners)
    (hbook : ∀ id, id ≠ incoming.orderId → b.findOrder id ≠ none → server.Rests x id)
    (hinsert : server'.instruments = server.instruments.insert x instrument)
    (hbook' : instrument.book = b')
    (howners' : ∀ id, instrument.orderOwners.lookup id = ownersAfter incoming b' orderOwners id)
    (hworks : server.WorksFor incoming.socket frame emissions incoming.orderId)
    (hcopies : CopiesOf emissions
      ((ts.map (deliveryOf incoming ⟨b', orderOwners⟩)).map ExecutionDelivery.execution)) :
    Turnover incoming.socket frame server server' emissions := by
  have hrests : ∀ id, id ≠ incoming.orderId → b'.findOrder id ≠ none → server.Rests x id := by
    intro id hne hsome
    refine hbook id hne fun hnone => hsome ?_
    have hgone := h.trading.none_of_none hnone
    rwa [Function.update_of_ne fun heq => hne (heq.trans h.id_eq)] at hgone
  have hat : ∀ y, server'.instrumentFor y = if y = x then instrument else server.instrumentFor y :=
    instrumentFor_insert hinsert
  refine ⟨fun y id hsome => ?_, fun y id owner howner => ?_, fun y id hsome hnone => ?_,
    by rw [hcopies.1]; exact hcopies, fun execution hmem => ?_⟩
  · rw [Rests, hat] at hsome
    split at hsome
    · rename_i hy
      rw [hbook'] at hsome
      by_cases hid : id = incoming.orderId
      · exact .inr (hid ▸ hworks)
      · exact .inl (hy ▸ hrests id hid hsome)
    · exact .inl hsome
  · rw [recordedOwner, hat] at howner
    split at howner
    · rename_i hy
      rw [howners', ownersAfter] at howner
      split at howner
      · split at howner
        · rename_i hid
          cases howner
          exact .inr ⟨rfl, hid ▸ hworks⟩
        · exact .inl (by rw [hy, recordedOwner, howners]; exact howner)
      · cases howner
    · exact .inl howner
  · rw [Rests, hat] at hsome
    rw [recordedOwner, hat] at hnone
    split at hsome
    · rename_i hy
      rw [if_pos hy, howners', ownersAfter, ← hbook',
        if_pos (Option.isSome_iff_ne_none.mpr hsome)] at hnone
      split at hnone
      · cases hnone
      · rename_i hid
        rw [hbook'] at hsome
        exact ⟨hy ▸ hrests id hid hsome, by rw [hy, recordedOwner, howners]; exact hnone⟩
    · rename_i hy
      rw [if_neg hy] at hnone
      exact ⟨hsome, hnone⟩
  · rw [hcopies.1] at hmem
    obtain ⟨delivery, hdelivery, rfl⟩ := List.mem_map.mp hmem
    obtain ⟨t, ht, rfl⟩ := List.mem_map.mp hdelivery
    exact ⟨incoming.orderId, hworks, h.crossing hvalid howners hbook ht⟩

theorem Handled.turnover (h : Handled order socket frame server server' emissions)
    {log : List Event} (hown : Ownership log server) (hopen : socket ∈ server.clientSockets) :
    Turnover socket frame server server' emissions := by
  cases h with
  | ignored => exact turnover_of_same (fun _ => rfl) noTrades_nil
  | rejected => exact turnover_of_same (fun _ => rfl) (.cons rfl noTrades_nil)
  | @turnedAway _ symbol =>
    exact turnover_of_same (instrumentFor_made server symbol) (.cons rfl noTrades_nil)
  | @placed request trades book snapshot h =>
    obtain ⟨o', hsettling⟩ := h.settling hown.sessions hopen hown.books (hown.owned _)
    refine hsettling.turnover (decodeNewOrder_valid h.decoded).symbol rfl
      (fun id _ hsome => hsome) rfl (settle_book ..)
      (hsettling.ownersAfter_new h.unowned order server.riskEngine) ?_ ?_
    · refine .inl ⟨?_, request, h.command, rfl⟩
      simp [newOrderEmissions, incomingFrom]
    · have hcopies := newOrderEmissions_copies socket request.orderId
        (server.placedSettled order socket request trades book) snapshot
      rwa [placedSettled, settle_deliveries] at hcopies
  | @cancelled request instrument book snapshot h =>
    have hat := @instrumentFor_insert server (server.committed frame request.symbol
      ⟨book, instrument.orderOwners.erase request.orderId⟩
      (server.riskEngine.onOrderCancelled (server.riskClientIdForSocket socket)
        (symbolToString request.symbol) request.orderId)) _ _ rfl
    have hfind := h.findOrder hown.books
    have hfound := instrumentFor_of_found h.found
    have hquiet : NoTrades [.orderResponse socket request.orderId true .orderCancelled,
        .bookUpdate snapshot, .level3OrderDeleted ⟨request.orderId, 0, request.symbol⟩] :=
      .cons rfl (.cons rfl (.cons rfl noTrades_nil))
    refine ⟨fun y id hsome => ?_, fun y id owner howner => ?_, fun y id hsome hnone => ?_,
      by rw [hquiet.executionsOf]; exact hquiet.copiesOf,
      fun _ hmem => by rw [hquiet.executionsOf] at hmem; cases hmem⟩
    · rw [Rests, hat] at hsome
      split at hsome
      · rename_i hy
        simp only [hfind, Function.update_apply] at hsome
        split at hsome
        · exact absurd rfl hsome
        · exact .inl (by rw [Rests, hy, hfound]; exact hsome)
      · exact .inl hsome
    · rw [recordedOwner, hat] at howner
      split at howner
      · rename_i hy
        rw [lookup_erase_eq] at howner
        split at howner
        · cases howner
        · exact .inl (by rw [recordedOwner, hy, hfound]; exact howner)
      · exact .inl howner
    · rw [Rests, hat] at hsome
      rw [recordedOwner, hat] at hnone
      split at hsome
      · rename_i hy
        simp only [hfind, Function.update_apply] at hsome
        split at hsome
        · exact absurd rfl hsome
        · rename_i hid
          rw [if_pos hy, lookup_erase_eq, if_neg hid] at hnone
          exact ⟨by rw [Rests, hy, hfound]; exact hsome,
            by rw [recordedOwner, hy, hfound]; exact hnone⟩
      · rename_i hy
        rw [if_neg hy] at hnone
        exact ⟨hsome, hnone⟩
  | @replaced request instrument trades book snapshot h =>
    have hfound := instrumentFor_of_found h.found
    have hx := hown.owned (symbolToString request.symbol)
    rw [hfound] at hx
    obtain ⟨s, n, hn, hid, b₁, o', -, -, -, hfind, hsettling⟩ :=
      h.settling hown.sessions hopen hown.books hx
    have howner := owner_of_ownsResting h.owned
    refine hsettling.turnover (decodeReplaceOrder_valid h.decoded).2
      (by rw [hfound]) (fun id hne hsome => ?_) rfl ?_
      (hsettling.ownersAfter_replaced order _) ?_ ?_
    · have hne : id ≠ request.orderId := hne
      rw [hfind, Function.update_of_ne hne] at hsome
      rw [Rests, hfound]
      exact hsome
    · rw [dropUnrested_book, replacedSettled, settle_book]
    · refine .inr ⟨symbolToString request.symbol,
        ⟨socket, server.riskClientIdForSocket socket⟩, ?_, rfl⟩
      rw [recordedOwner, hfound]
      exact howner
    · have hcopies := replaceOrderEmissions_copies socket request.orderId request.symbol
        (server.replacedSettled order socket request instrument trades book) snapshot
      rwa [replacedSettled, settle_deliveries] at hcopies

end Turnover

end ExchangeServer

end ExchangeLab

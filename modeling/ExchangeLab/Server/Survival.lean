import ExchangeLab.Matching.Aggregates
import ExchangeLab.Server.Clearing
import ExchangeLab.Server.Executions
import Mathlib.Algebra.BigOperators.Ring.Finset
import Mathlib.Algebra.Order.BigOperators.Group.Finset
import Mathlib.Order.Interval.Finset.Nat

/-!
# ExchangeLab.Server.Survival

No frame makes the server throw while the position limits of all sessions together fit the 32-bit
total of a price level. An exception in the thread of a session ends the process, and the one call
that may throw is the erasure of an order from a level whose total has wrapped.

* `trueQuantity_le`: the quantity that rests on a side is in the open quantities of the sessions.
* `Cleared.openQuantity_le`: these come to no more than the limit of each session, since what some
  are long the others are short.
* `handleMessage_ok`: on books with exact totals every handler returns.
* `frames_handled`: so every frame of every session is handled, in every state that is reached.
-/

namespace ExchangeLab

open Wire Protocol OrderBook MatchingEngine Container ExchangeServer Transition

/-! ## What rests is open -/

section Open

variable {risk : RiskEngine} {x : List UInt8} {owner : OrderId → Option RiskClientId}
  {b : OrderBook} {s : Side}

/-- What an order counts for in what all clients have open. -/
def openOn (x : List UInt8) (s : Side) (k : WorkingOrderKey) (w : WorkingOrder) : Nat :=
  if k.symbol = x ∧ w.side = s then w.remainingQuantity.toNat else 0

theorem openOn_eq_sum (h : Accounted risk) :
    tally risk.workingOrders (openOn x s) =
      risk.clients.keys.sum fun c => ((risk.state c x).openQuantity s).toNat := by
  have hknown : ∀ k w, risk.workingOrders.lookup k = some w → k.clientId ∈ risk.clients.keys := by
    intro k w hk
    obtain ⟨⟨client, hclient⟩, -⟩ := h.entries hk
    rw [Finmap.mem_keys, ← Finmap.lookup_isSome, hclient]
    rfl
  rw [tally_parts hknown]
  refine Finset.sum_congr rfl fun c _ => ?_
  rw [h.quantities]
  congr 1
  funext k w
  simp only [openOn, openFor, ← ite_and]

/-- The orders of a side are working orders of their owners. -/
theorem trueQuantity_le (hm : Mirrors risk x owner b.findOrder) (hc : Consistent b)
    (hall : AllOwned owner b.findOrder) :
    trueQuantity (b.nodes s) ≤ tally risk.workingOrders (openOn x s) := by
  let key : Node → WorkingOrderKey := fun n =>
    ⟨(owner n.order.id).getD invalidRiskClientId, x, n.order.id⟩
  have hrests : ∀ n ∈ b.nodes s, b.findOrder n.order.id = some n.order := fun n hn =>
    hc.findOrder_eq_some.mpr ⟨n, mem_allNodes_of hn, rfl, rfl⟩
  have hworking : ∀ n ∈ b.nodes s, risk.workingOrders.lookup (key n) = some n.order.working := by
    intro n hn
    obtain ⟨c, howner⟩ := Option.ne_none_iff_exists'.mp
      (hall n.order.id (by rw [hrests n hn]; exact Option.some_ne_none _))
    have hclient : (owner n.order.id).getD invalidRiskClientId = c := by rw [howner]; rfl
    show risk.workingOrders.lookup
      ⟨(owner n.order.id).getD invalidRiskClientId, x, n.order.id⟩ = some n.order.working
    rw [hclient]
    exact hm.working howner (hrests n hn)
  have hnodup : ((b.nodes s).map key).Nodup := by
    have hsublist : (b.nodes s).Sublist b.allNodes := by
      cases s
      · exact List.sublist_append_left _ _
      · exact List.sublist_append_right _ _
    have hids := hc.ids_nodup.sublist (hsublist.map fun n => n.order.id)
    exact List.Nodup.of_map WorkingOrderKey.orderId (by rwa [List.map_map])
  have hsum := sum_le_tally (f := openOn x s) hnodup hworking
  refine le_trans (le_of_eq ?_) hsum
  rw [trueQuantity]
  refine congrArg List.sum (List.map_congr_left fun n hn => ?_)
  rw [openOn, if_pos ⟨rfl, hc.side_of_mem hn⟩]
  rfl

end Open

/-! ## What is open is limited -/

section Limit

variable {limits : RiskLimits} {risk : RiskEngine}

theorem openQuantity_sum_le (h : Limited risk .idle) {x : List UInt8} (hflat : risk.net x = 0)
    (s : Side) : (risk.clients.keys.sum fun c => ((risk.state c x).openQuantity s).toNat) ≤
      risk.clients.keys.card * risk.limits.maxPositionPerSymbol.toNat := by
  have hexposed : ∀ c, exposure s (risk.position c x) ((risk.state c x).openQuantity s).toNat ≤
      risk.limits.maxPositionPerSymbol.toNat := by
    intro c
    have hlimit := h.exposed c x s
    rw [Pending.on_idle] at hlimit
    exact hlimit
  have hsum := Finset.sum_le_card_nsmul risk.clients.keys _ _ fun c _ => hexposed c
  rw [nsmul_eq_mul] at hsum
  rw [RiskEngine.net] at hflat
  -- what the sessions are long and short of cancels
  have hopen : (risk.clients.keys.sum fun c =>
      exposure s (risk.position c x) ((risk.state c x).openQuantity s).toNat) =
        risk.clients.keys.sum fun c => (((risk.state c x).openQuantity s).toNat : Int) := by
    cases s <;> simp only [exposure, Finset.sum_add_distrib, Finset.sum_sub_distrib, hflat] <;> simp
  rw [hopen] at hsum
  rw [← Nat.cast_sum] at hsum
  exact_mod_cast hsum

end Limit

/-! ## Handlers that return -/

theorem toUInt32_pos {q : UInt64} (hpos : q ≠ 0) (hle : q ≤ maximumQuantity) : 0 < q.toUInt32 := by
  have hne : q.toNat ≠ 0 := fun h => hpos (UInt64.toNat_inj.mp h)
  rw [UInt32.lt_iff_toNat_lt, toUInt32_toNat_of_le hle, UInt32.toNat_zero]
  exact Nat.pos_of_ne_zero hne

/-- Quantities that are small on each side are small on each level. -/
theorem bounded_of_nodes {b : OrderBook} (h : ∀ s, trueQuantity (b.nodes s) < 2 ^ 32) : Bounded b := by
  intro s e he
  obtain ⟨before, behind, hentries⟩ := List.append_of_mem he
  have hside := h s
  rw [nodes, queued, hentries, List.flatMap_append, List.flatMap_cons, trueQuantity_append,
    trueQuantity_append] at hside
  omega

namespace ExchangeServer

theorem bestPrice_returns {book : OrderBook} {s : Side} (h : book.hasLevels s = true) :
    ∃ price, book.bestPrice s = .ok price := by
  rw [hasLevels, OrderedMap.isEmpty] at h
  rw [OrderBook.bestPrice, OrderedMap.first?]
  cases hentries : (book.levels s).entries with
  | nil =>
    rw [hentries] at h
    cases h
  | cons entry entries => exact ⟨_, rfl⟩

theorem topOfBook_returns (book : OrderBook) (s : Side) : ∃ top, topOfBook book s = .ok top := by
  rw [topOfBook, hasLevels, OrderedMap.isEmpty, OrderBook.bestPrice, OrderBook.bestLevel,
    OrderedMap.first?]
  cases (book.levels s).entries with
  | nil => exact ⟨_, rfl⟩
  | cons entry entries => exact ⟨_, rfl⟩

theorem captureBookSnapshot_returns (symbol : Symbol) (book : OrderBook) :
    ∃ snapshot, captureBookSnapshot symbol book = .ok snapshot := by
  obtain ⟨bid, hbid⟩ := topOfBook_returns book .buy
  obtain ⟨ask, hask⟩ := topOfBook_returns book .sell
  rw [captureBookSnapshot, hbid, hask]
  exact ⟨_, rfl⟩

theorem referencePriceFor_returns (incoming : Order) (book : OrderBook) :
    ∃ price, referencePriceFor incoming book = .ok price := by
  rw [referencePriceFor, marketReferencePrice]
  split
  · split
    · exact ⟨_, rfl⟩
    · rename_i hlevels
      obtain ⟨price, hprice⟩ := @bestPrice_returns book incoming.side.opposite (by simpa using hlevels)
      rw [hprice]
      exact ⟨_, rfl⟩
  · exact ⟨_, rfl⟩

section Handlers

variable {order : SetOrder} {socket : Socket} {frame : Frame} {server : ExchangeServer}

theorem acceptNewOrder_returns {request : NewOrderRequest} (hvalid : request.Valid)
    (hquantity : request.quantity ≤ maximumQuantity)
    (hc : Consistent (server.instrumentFor (symbolToString request.symbol)).book)
    (habsent : (server.instrumentFor (symbolToString request.symbol)).book.contains request.orderId =
      false) : ∃ result, acceptNewOrder order socket frame request server = .ok result := by
  obtain ⟨trades, o', book, hprocess, -⟩ := processOrderInto_ok (o := orderOf request) hc habsent
    (toUInt32_pos hvalid.quantity hquantity)
  obtain ⟨snapshot, hsnapshot⟩ := captureBookSnapshot_returns request.symbol book
  simp only [acceptNewOrder, appendJournalRecord_eq, ok_bind, hprocess, Outcome.toExcept, settle_book,
    hsnapshot]
  exact ⟨_, rfl⟩

theorem handleNewOrder_returns (hbooks : server.BooksConsistent) :
    ∃ result, handleNewOrder order socket frame server = .ok result := by
  simp only [handleNewOrder]
  split
  · exact ⟨_, rfl⟩
  split
  · exact ⟨_, rfl⟩
  rename_i request hdecode
  split
  · exact ⟨_, rfl⟩
  rename_i hquantity
  split
  · exact ⟨_, rfl⟩
  split
  · exact ⟨_, rfl⟩
  rename_i hfresh
  obtain ⟨price, hprice⟩ := referencePriceFor_returns (orderOf request)
    (server.instrumentFor (symbolToString request.symbol)).book
  rw [hprice, ok_bind]
  split
  · exact ⟨_, rfl⟩
  have hsame : (server.storeInstrument (symbolToString request.symbol)
      (server.instrumentFor (symbolToString request.symbol))).instrumentFor
        (symbolToString request.symbol) = server.instrumentFor (symbolToString request.symbol) := by
    simp [storeInstrument, instrumentFor, findInstrument]
  have hc := hbooks.instrumentFor (symbolToString request.symbol)
  refine acceptNewOrder_returns (decodeNewOrder_valid hdecode) (UInt64.not_lt.mp hquantity) ?_ ?_
  · rw [hsame]
    exact hc
  · rw [hsame, hc.contains_eq_false, ← hc.findOrder_eq_none]
    simpa using (not_or.mp hfresh).1

theorem handleCancelOrder_returns (hbooks : server.BooksConsistent)
    (hbounded : ∀ x, Bounded (server.instrumentFor x).book) :
    ∃ result, handleCancelOrder socket frame server = .ok result := by
  simp only [handleCancelOrder]
  split
  · exact ⟨_, rfl⟩
  split
  · exact ⟨_, rfl⟩
  rename_i request hdecode
  split
  · exact ⟨_, rfl⟩
  rename_i instrument hfound
  split
  · exact ⟨_, rfl⟩
  rename_i howned
  simp only [Bool.not_eq_true', Bool.not_eq_false] at howned
  obtain ⟨s, n, hn, hid⟩ := exists_node_of_owned (hbooks _ _ hfound) howned
  have hbook := hbounded (symbolToString request.symbol)
  rw [instrumentFor_of_found hfound] at hbook
  obtain ⟨book, hcancel⟩ := (hbook.aggregatesExact (hbooks _ _ hfound)).cancels n (mem_allNodes_of hn)
  rw [hid] at hcancel
  obtain ⟨snapshot, hsnapshot⟩ := captureBookSnapshot_returns request.symbol book
  simp only [appendJournalRecord_eq, ok_bind, hcancel, Outcome.toExcept, Bool.not_true,
    Bool.false_eq_true, if_false, hsnapshot]
  exact ⟨_, rfl⟩

theorem handleReplaceOrder_returns (hbooks : server.BooksConsistent)
    (hbounded : ∀ x, Bounded (server.instrumentFor x).book) :
    ∃ result, handleReplaceOrder order socket frame server = .ok result := by
  simp only [handleReplaceOrder]
  split
  · exact ⟨_, rfl⟩
  split
  · exact ⟨_, rfl⟩
  rename_i request hdecode
  split
  · exact ⟨_, rfl⟩
  rename_i hquantity
  split
  · exact ⟨_, rfl⟩
  rename_i instrument hfound
  split
  · exact ⟨_, rfl⟩
  split
  · exact ⟨_, rfl⟩
  rename_i howned
  split
  · exact ⟨_, rfl⟩
  simp only [Bool.not_eq_true', Bool.not_eq_false] at howned
  obtain ⟨s, n, hn, hid⟩ := exists_node_of_owned (hbooks _ _ hfound) howned
  have hbook := hbounded (symbolToString request.symbol)
  rw [instrumentFor_of_found hfound] at hbook
  obtain ⟨result, book, hreplace⟩ := (hbook.aggregatesExact (hbooks _ _ hfound)).replaces n
    (mem_allNodes_of hn) request.newPrice request.newQuantity.toUInt32 request.timestamp
    (toUInt32_pos (decodeReplaceOrder_valid hdecode).1 (UInt64.not_lt.mp hquantity))
  rw [hid, MatchingEngine.replaceOrder] at hreplace
  obtain ⟨snapshot, hsnapshot⟩ := captureBookSnapshot_returns request.symbol book
  simp only [acceptReplaceOrder, appendJournalRecord_eq, ok_bind, hreplace, Outcome.toExcept,
    dropUnrested_book, settle_book, hsnapshot]
  split <;> exact ⟨_, rfl⟩

theorem handleMessage_returns (order : SetOrder) (socket : Socket) (frame : Frame)
    (hbooks : server.BooksConsistent) (hbounded : ∀ x, Bounded (server.instrumentFor x).book) :
    ∃ result, handleMessage order socket frame server = .ok result := by
  rw [handleMessage]
  split
  · exact handleNewOrder_returns hbooks
  split
  · exact handleCancelOrder_returns hbooks hbounded
  split
  · exact handleReplaceOrder_returns hbooks hbounded
  · exact ⟨_, rfl⟩

end Handlers

end ExchangeServer

/-! ## How many clients the risk engine knows -/

/-- Every client with an entry has the property. -/
def KnownClients (P : RiskClientId → Prop) (risk : RiskEngine) : Prop := ∀ c ∈ risk.clients, P c

section Known

variable {P : RiskClientId → Prop} {risk : RiskEngine} {c : RiskClientId} {x : List UInt8}
  {id : OrderId}

/-- The entry of one client is new or changed. -/
theorem KnownClients.insert {risk' : RiskEngine} (h : KnownClients P risk) (hc : P c)
    (heq : ∃ client, risk'.clients = risk.clients.insert c client) : KnownClients P risk' := by
  obtain ⟨client, heq⟩ := heq
  intro c' hmem
  rw [heq] at hmem
  rcases Finmap.mem_insert.mp hmem with rfl | hmem
  · exact hc
  · exact h c' hmem

theorem KnownClients.erase (h : KnownClients P risk) (k : WorkingOrderKey) :
    KnownClients P (risk.eraseWorkingOrder k) := by
  rw [RiskEngine.eraseWorkingOrder]
  split
  · exact h
  · intro c' hmem
    dsimp only at hmem
    split at hmem
    · exact h c' hmem
    · rename_i client hclient
      rcases Finmap.mem_insert.mp hmem with rfl | hmem
      · exact h _ (Finmap.mem_of_lookup_eq_some hclient)
      · exact h c' hmem

theorem KnownClients.cancelled (h : KnownClients P risk) :
    KnownClients P (risk.onOrderCancelled c x id) := by
  rw [RiskEngine.onOrderCancelled]
  split
  · exact h
  · exact h.erase _

theorem KnownClients.resting (h : KnownClients P risk) (hc : P c) {s : Side} {price : Price}
    {q : Quantity} : KnownClients P (risk.onOrderResting c x id s price q) := by
  rw [RiskEngine.onOrderResting]
  split
  · exact h
  · exact (h.erase ⟨c, x, id⟩).insert hc ⟨_, rfl⟩

theorem KnownClients.reduced (h : KnownClients P risk) (hc : P c) {q : Quantity} :
    KnownClients P (risk.reduceWorkingOrder c x id q) := by
  simp only [RiskEngine.reduceWorkingOrder]
  split
  · exact h
  · split
    · exact h.insert hc ⟨_, Finmap.insert_insert _⟩
    · exact h.insert hc ⟨_, rfl⟩

theorem KnownClients.traded (h : KnownClients P risk) (hc : c ≠ invalidRiskClientId → P c) {s : Side}
    {q : Quantity} : KnownClients P (risk.onTradeSide s x c id q) := by
  rw [RiskEngine.onTradeSide]
  split
  · exact h
  · rename_i hvalid
    exact (h.insert (hc hvalid) ⟨_, rfl⟩).reduced (hc hvalid)

theorem KnownClients.reported (h : KnownClients P risk) {client : OrderId → RiskClientId}
    (hclient : ∀ id, client id ≠ invalidRiskClientId → P (client id)) (trades : List Trade) :
    KnownClients P (trades.foldl (reportTrade x client) risk) := by
  induction trades generalizing risk with
  | nil => exact h
  | cons trade trades ih =>
    refine ih ?_
    rw [reportTrade, RiskEngine.onTrade]
    split
    · exact h
    · exact (h.traded (hclient _)).traded (hclient _)

end Known

namespace ExchangeServer

/-- The risk clients that sessions have had so far. -/
def Issued (server : ExchangeServer) (c : RiskClientId) : Prop :=
  c ≠ invalidRiskClientId ∧ c < server.nextRiskClientId

/-- Owners and known clients are those of sessions. -/
structure ClientsIssued (server : ExchangeServer) : Prop where
  known : KnownClients server.Issued server.riskEngine
  owners : ∀ x id owner, (server.instrumentFor x).orderOwners.lookup id = some owner →
    server.Issued owner.riskClientId

section Frame

variable {order : SetOrder} {socket : Socket} {frame : Frame} {server server' : ExchangeServer}
  {emissions : List Emission}

theorem settle_known {incoming : Incoming} {instrument : InstrumentState} {trades : List Trade}
    {risk : RiskEngine} {P : RiskClientId → Prop} (h : KnownClients P risk)
    (hc : P incoming.riskClientId)
    (howners : ∀ id owner, instrument.orderOwners.lookup id = some owner → P owner.riskClientId) :
    KnownClients P (settle order incoming trades instrument risk).riskEngine := by
  have hclient : ∀ id, bookedFor incoming.orderId incoming.riskClientId instrument.owner id ≠
      invalidRiskClientId →
      P (bookedFor incoming.orderId incoming.riskClientId instrument.owner id) := by
    intro id hvalid
    rw [bookedFor, InstrumentState.owner] at hvalid ⊢
    split
    · exact hc
    · rename_i hne
      rw [if_neg hne] at hvalid
      cases howner : instrument.orderOwners.lookup id with
      | none =>
        rw [howner] at hvalid
        exact absurd rfl hvalid
      | some owner => exact howners id owner howner
  rw [settle_riskEngine]
  cases instrument.book.findOrder incoming.orderId with
  | none => exact h.reported hclient trades
  | some resting => exact (h.reported hclient trades).resting hc

theorem Handled.clientsIssued (h : Handled order socket frame server server' emissions)
    (hs : Sessions server) (hopen : socket ∈ server.clientSockets) (hissued : server.ClientsIssued) :
    server'.ClientsIssued := by
  have hclient : server.Issued (server.riskClientIdForSocket socket) := by
    obtain ⟨c, hc⟩ := Finmap.mem_iff.mp ((hs.identified socket).mp hopen)
    rw [riskClientIdForSocket, hc]
    exact hs.issued socket c hc
  have hnext : server'.Issued = server.Issued := by
    funext c
    rw [Issued, Issued, h.sameSessions.next]
  refine ⟨?_, fun x id owner howner => ?_⟩
  · rw [hnext]
    cases h with
    | ignored | rejected | turnedAway => exact hissued.known
    | placed => exact settle_known hissued.known hclient (hissued.owners _)
    | cancelled => exact hissued.known.cancelled
    | @replaced request instrument trades book snapshot h =>
      refine settle_known hissued.known.cancelled hclient fun id owner howner => ?_
      exact hissued.owners (symbolToString request.symbol) id owner
        (by rwa [instrumentFor_of_found h.found])
  · rw [hnext]
    rcases h.owner howner with howner | rfl
    · exact hissued.owners x id owner howner
    · exact hclient

end Frame

/-- No more clients than sessions. -/
theorem ClientsIssued.card_le {server : ExchangeServer} (h : server.ClientsIssued) :
    server.riskEngine.clients.keys.card ≤ server.nextRiskClientId - 1 := by
  have hsubset : server.riskEngine.clients.keys ⊆ Finset.Ico 1 server.nextRiskClientId := by
    intro c hmem
    obtain ⟨hvalid, hlt⟩ := h.known c (Finmap.mem_keys.mp hmem)
    exact Finset.mem_Ico.mpr ⟨Nat.one_le_iff_ne_zero.mpr hvalid, hlt⟩
  exact (Finset.card_le_card hsubset).trans (Nat.card_Ico _ _).le

end ExchangeServer

/-! ## Every run -/

namespace Concurrent

variable {limits : RiskLimits} {file : Option (Option Bytes)} {server₀ : ExchangeServer}
  {labels : List Label} {label : Label} {c c' : Concurrent} {log : List Event}

def Label.isConnect : Label → Bool
  | .connect _ => true
  | _ => false

/-- How many sessions there have been. -/
def connections (labels : List Label) : Nat := labels.countP Label.isConnect

theorem connections_snoc (labels : List Label) (label : Label) :
    connections (labels ++ [label]) = connections labels + if label.isConnect then 1 else 0 := by
  rw [connections, List.countP_append, List.countP_singleton]
  rfl

theorem Step.clientsIssued (h : c.server.ClientsIssued) (hown : Ownership log c.server)
    (hstep : Step c label c') : c'.server.ClientsIssued ∧
      c'.server.nextRiskClientId = c.server.nextRiskClientId + if label.isConnect then 1 else 0 := by
  cases hstep with
  | @connect socket hvalid hfree =>
    have hlater : ∀ client, c.server.Issued client →
        (registerClient socket c.server).Issued client := fun client hclient =>
      ⟨hclient.1, Nat.lt_succ_of_lt hclient.2⟩
    exact ⟨⟨fun client hmem => hlater client (h.known client hmem),
      fun x id owner howner => hlater _ (h.owners x id owner howner)⟩, rfl⟩
  | disconnect | setGlobalKillSwitch => exact ⟨⟨h.known, h.owners⟩, rfl⟩
  | @send socket emission rest hnext =>
    obtain ⟨n, -, heq⟩ := emit_state emission c.server
    show (emit emission c.server).1.ClientsIssued ∧ _
    rw [heq]
    exact ⟨⟨h.known, h.owners⟩, rfl⟩
  | handle order hopen _ hrun =>
    have hhandled := handleMessage_cases hown.books hrun
    exact ⟨hhandled.clientsIssued hown.sessions hopen h, hhandled.sameSessions.next⟩

theorem clientsIssued_run (hstart : start limits file = some server₀)
    (hrun : Run Step ⟨server₀, fun _ => []⟩ labels c) :
    c.server.ClientsIssued ∧ c.server.nextRiskClientId = connections labels + 1 := by
  refine hrun.history (P := fun labels c => c.server.ClientsIssued ∧
    c.server.nextRiskClientId = connections labels + 1) ⟨⟨?_, ?_⟩, (start_sessions hstart).2.2⟩
    fun labels c label c' hrun h hstep => ?_
  · obtain ⟨log, hown⟩ := ownership hstart hrun
    obtain ⟨hissued, hnext⟩ := hstep.clientsIssued h.1 hown
    refine ⟨hissued, ?_⟩
    rw [hnext, h.2, connections_snoc]
    omega
  · rw [KnownClients, start_riskEngine hstart]
    exact fun client hmem => absurd hmem Finmap.notMem_empty
  · intro x id owner howner
    obtain ⟨-, event, hmem, -⟩ :=
      (((start_ownership hstart).owned x).owners id).mp (by rw [howner]; rfl)
    cases hmem

/-- No side of a book holds more than the limits of all sessions together. -/
theorem trueQuantity_run (hstart : start limits file = some server₀)
    (hbounded : limits.maxPositionPerSymbol.toNat < 2 ^ 63) (hempty : ∀ x id, ¬server₀.Rests x id)
    (hrun : Run Step ⟨server₀, fun _ => []⟩ labels c) (x : Bytes) (s : Side) :
    trueQuantity ((c.server.instrumentFor x).book.nodes s) ≤
      connections labels * limits.maxPositionPerSymbol.toNat := by
  obtain ⟨log, hown⟩ := ownership hstart hrun
  have hwithin := withinLimits hstart hbounded hrun
  have hcleared := cleared_run hstart hbounded hempty hrun
  obtain ⟨hissued, hnext⟩ := clientsIssued_run hstart hrun
  have hknown := hissued.card_le
  rw [hnext, Nat.add_sub_cancel] at hknown
  calc trueQuantity ((c.server.instrumentFor x).book.nodes s)
      ≤ tally c.server.riskEngine.workingOrders (openOn x s) :=
        trueQuantity_le (hown.owned x).mirrors (hown.books.instrumentFor x)
          (hcleared.recorded.allOwned x)
    _ = c.server.riskEngine.clients.keys.sum fun client =>
          ((c.server.riskEngine.state client x).openQuantity s).toNat :=
        openOn_eq_sum hwithin.limited.accounted
    _ ≤ c.server.riskEngine.clients.keys.card *
          c.server.riskEngine.limits.maxPositionPerSymbol.toNat :=
        openQuantity_sum_le hwithin.limited (hcleared.flat x) s
    _ ≤ connections labels * limits.maxPositionPerSymbol.toNat := by
        rw [hwithin.unchanged]
        exact Nat.mul_le_mul_right _ hknown

end Concurrent

/-- In every state of every run from empty books, with the sends of every handler as steps of their
own: while the position limit times the number of sessions there have been fits 32 bits, the totals
of all levels are exact, and whatever frame a session sends, its handler returns. -/
theorem frames_handled {limits : RiskLimits} {file : Option (Option Bytes)}
    {server₀ : ExchangeServer} {labels : List Concurrent.Label} {c : Concurrent}
    (hbounded : limits.maxPositionPerSymbol.toNat < 2 ^ 63)
    (hstart : start limits file = some server₀) (hempty : ∀ x id, ¬server₀.Rests x id)
    (hrun : Run Concurrent.Step ⟨server₀, fun _ => []⟩ labels c)
    (hfits : Concurrent.connections labels * limits.maxPositionPerSymbol.toNat < 2 ^ 32) :
    (∀ x, AggregatesExact (c.server.instrumentFor x).book) ∧
      ∀ order socket frame, ∃ server emissions,
        handleMessage order socket frame c.server = .ok (server, emissions) := by
  obtain ⟨log, hown⟩ := Concurrent.ownership hstart hrun
  have hbooks : ∀ x, Bounded (c.server.instrumentFor x).book := fun x =>
    bounded_of_nodes fun s =>
      (Concurrent.trueQuantity_run hstart hbounded hempty hrun x s).trans_lt hfits
  refine ⟨fun x => (hbooks x).aggregatesExact (hown.books.instrumentFor x),
    fun order socket frame => ?_⟩
  obtain ⟨⟨server, emissions⟩, hreturns⟩ := handleMessage_returns order socket frame hown.books hbooks
  exact ⟨server, emissions, hreturns⟩

/-- A cancellation as a frame. -/
def cancelOrderFrame (request : CancelOrderRequest) : Frame where
  header := ⟨protocolMagic, protocolVersion, .cancelOrder, 24, 2⟩
  body := encodeCancelOrder request
  magic := rfl
  version := rfl
  size := length_encodeCancelOrder request
  bounded := by
    rw [length_encodeCancelOrder]
    decide

/-- Order 7 of 5 rests, and its cancellation is handled. -/
theorem frames_handled_cancel :
    ∃ labels c, Run Concurrent.Step ⟨{ riskEngine := { limits := {} } }, fun _ => []⟩ labels c ∧
      (c.server.instrumentFor [84, 69, 83, 84]).book.contains 7 = true ∧
      AggregatesExact (c.server.instrumentFor [84, 69, 83, 84]).book ∧
      ∃ server emissions, handleMessage .dedup 4 (cancelOrderFrame ⟨7, 2, defaultSymbol⟩) c.server =
        .ok (server, emissions) := by
  obtain ⟨⟨server₁, emissions₁⟩, hrun₁, hrests⟩ : ∃ r₁,
      handleMessage .dedup 4
        (newOrderFrame ⟨7, 1, 100, 5, .buy, .limit, .goodTillCancel, defaultSymbol⟩)
        (registerClient 4 { riskEngine := { limits := {} } }) = .ok r₁ ∧
      (r₁.1.instrumentFor [84, 69, 83, 84]).book.contains 7 = true :=
    ⟨_, by rfl, by decide⟩
  have connect : Concurrent.Step ⟨{ riskEngine := { limits := {} } }, fun _ => []⟩ (.connect 4) _ :=
    .connect (by decide) (by decide)
  have bid : Concurrent.Step ⟨registerClient 4 { riskEngine := { limits := {} } }, fun _ => []⟩
      (.handle 4 _ emissions₁) _ := .handle .dedup (by decide) ⟨rfl, fun _ _ => rfl⟩ hrun₁
  have run := ((Run.nil _).snoc connect).snoc bid
  have hstart : start {} none = some { riskEngine := { limits := {} } } := rfl
  have hempty : ∀ x id, ¬ExchangeServer.Rests { riskEngine := { limits := {} } } x id :=
    fun _ _ hrests => hrests rfl
  have hfits : 1 * 1000000 < 2 ^ 32 := by decide
  obtain ⟨hexact, hreturns⟩ := frames_handled (by decide) hstart hempty run hfits
  exact ⟨_, _, run, hrests, hexact _, hreturns .dedup 4 _⟩

end ExchangeLab

import ExchangeLab.Gateway.Copies
import ExchangeLab.Risk.Callbacks
import ExchangeLab.Server.Concurrent
import ExchangeLab.Server.Exposure
import Mathlib.Algebra.BigOperators.Group.Finset.Piecewise

/-!
# ExchangeLab.Server.Clearing

What the positions of all sessions come to.

* `RiskEngine.net`: the sum of the positions in a symbol, over the clients that the risk engine knows.
* `Trading.net`: reporting the trades of a match leaves it as it was, since each trade moves a buyer
  up and a seller down.
* `positions_cancel`: over every run that starts with empty books it is zero.
-/

namespace ExchangeLab

open Wire Protocol OrderBook MatchingEngine Container ExchangeServer Transition

/-! ## The sum of the positions -/

def RiskEngine.net (risk : RiskEngine) (x : List UInt8) : Int :=
  risk.clients.keys.sum fun c => risk.position c x

section Net

variable {risk risk' : RiskEngine} {c : RiskClientId} {x y : List UInt8} {s : Side} {q : Quantity}

theorem position_of_unknown (h : c ∉ risk.clients.keys) : risk.position c x = 0 := by
  have hnone : risk.clients.lookup c = none := by
    rwa [Finmap.lookup_eq_none, ← Finmap.mem_keys]
  rw [RiskEngine.position, RiskEngine.state, RiskEngine.client, hnone]
  rfl

/-- Clients that the engine does not know yet may be counted. -/
theorem net_eq_sum {clients : Finset RiskClientId} (h : risk.clients.keys ⊆ clients) :
    risk.net x = clients.sum fun c => risk.position c x :=
  Finset.sum_subset h fun _ _ hunknown => position_of_unknown hunknown

/-- One position moves. -/
theorem net_moved {delta : Int}
    (h : ∀ c', risk'.position c' x = risk.position c' x + if c' = c then delta else 0) :
    risk'.net x = risk.net x + delta := by
  let clients : Finset RiskClientId := risk.clients.keys ∪ (risk'.clients.keys ∪ {c})
  have hc : c ∈ clients :=
    Finset.mem_union_right _ (Finset.mem_union_right _ (Finset.mem_singleton_self c))
  have hbefore : risk.net x = clients.sum fun c => risk.position c x :=
    net_eq_sum Finset.subset_union_left
  have hafter : risk'.net x = clients.sum fun c => risk'.position c x :=
    net_eq_sum (Finset.subset_union_left.trans Finset.subset_union_right)
  rw [hbefore, hafter]
  simp only [h, Finset.sum_add_distrib, Finset.sum_ite_eq', hc, if_true]

theorem net_same (h : ∀ c', risk'.position c' x = risk.position c' x) : risk'.net x = risk.net x := by
  have hmoved : risk'.net x = risk.net x + 0 :=
    net_moved (c := invalidRiskClientId) fun c' => by rw [h, ite_self, Int.add_zero]
  exact hmoved.trans (Int.add_zero _)

theorem position_updateClient {f : ClientState → ClientState}
    (h : ((f (risk.client c)).symbol x).position = (risk.state c x).position) (c' : RiskClientId) :
    (risk.updateClient c f).position c' x = risk.position c' x := by
  rw [RiskEngine.position, RiskEngine.state, client_updateClient]
  split
  · rename_i heq
    rw [h, heq]
    rfl
  · rfl

theorem reduceWorkingOrder_position (risk : RiskEngine) (c : RiskClientId) (x : List UInt8)
    (id : OrderId) (q : Quantity) (c' : RiskClientId) (y : List UInt8) :
    (risk.reduceWorkingOrder c x id q).position c' y = risk.position c' y := by
  cases hk : risk.workingOrders.lookup ⟨c, x, id⟩ with
  | none => rw [reduceWorkingOrder_none hk]
  | some w =>
    have hshrunk : (risk.updateClient c fun client =>
        client.shrink x w.side (min w.remainingQuantity q)).position c' y = risk.position c' y :=
      position_updateClient (shrink_position _ _ _ _ _) c'
    simp only [RiskEngine.reduceWorkingOrder, hk]
    split
    · refine (position_updateClient ?_ c').trans hshrunk
      rw [dropOpenOrder_symbol]
      rfl
    · exact hshrunk

/-- The half of a trade that belongs to a client. -/
theorem onTradeSide_net (hc : c ≠ invalidRiskClientId) (id : OrderId)
    (hrange : -2 ^ 63 ≤ risk.position c x + signed s q.toNat ∧
      risk.position c x + signed s q.toNat < 2 ^ 63) (y : List UInt8) :
    (risk.onTradeSide s x c id q).net y = risk.net y + if y = x then signed s q.toNat else 0 := by
  refine net_moved (c := c) fun c' => ?_
  rw [onTradeSide_eq risk s x c q hc, reduceWorkingOrder_position, move_position hrange.1 hrange.2]
  by_cases hy : y = x
  · simp only [hy, and_true, if_true]
  · simp only [hy, and_false, if_false, ite_self]

end Net

/-! ## A match -/

/-- Every order of `R` has an owner. -/
def AllOwned (owner : OrderId → Option RiskClientId) (R : Resting) : Prop :=
  ∀ id, R id ≠ none → owner id ≠ none

theorem Limited.mirrored_net {risk : RiskEngine} {p : Pending} {x : List UInt8}
    {owner : OrderId → Option RiskClientId} {R : Resting} {q : Quantity} {r : Order} {s : Side}
    (h : Limited risk p) (hm : Mirrors risk x owner R) (hall : AllOwned owner R)
    (howner : ∀ c, owner r.id = some c → c ≠ invalidRiskClientId)
    (hr : R r.id = some r) (hside : r.side = s) (hle : q ≤ r.remainingQuantity) (y : List UInt8) :
    (risk.onTradeSide s x ((owner r.id).getD invalidRiskClientId) r.id q).net y =
      risk.net y + if y = x then signed s q.toNat else 0 := by
  obtain ⟨c, hc⟩ := Option.ne_none_iff_exists'.mp (hall r.id (by rw [hr]; exact Option.some_ne_none r))
  have hworking := hm.working hc hr
  have hopen : r.remainingQuantity.toNat ≤ ((risk.state c x).openQuantity s).toNat :=
    hside ▸ h.accounted.amount_le (k := ⟨c, x, r.id⟩) hworking
  have hleNat := UInt32.le_iff_toNat_le.mp hle
  rw [hc, Option.getD_some]
  exact onTradeSide_net (howner c hc) r.id (h.fill_range (by omega)) y

theorem Trading.net {s : Side} {o o' : Order} {R R' : Resting} {ts : List Trade} {risk : RiskEngine}
    {x : List UInt8} {owner : OrderId → Option RiskClientId} {c : RiskClientId} {rests : Bool}
    (h : Trading s o R ts o' R') (hid : R o.id = none) (hm : Mirrors risk x owner R)
    (howner : ∀ id c, owner id = some c → c ≠ invalidRiskClientId) (hc : c ≠ invalidRiskClientId)
    (hall : AllOwned owner R) (hlimited : Limited risk ⟨c, x, s, o.remainingQuantity.toNat, rests⟩)
    (y : List UInt8) :
    (ts.foldl (reportTrade x (bookedFor o.id c owner)) risk).net y = risk.net y := by
  induction h generalizing risk with
  | stop => rfl
  | @step o o' r R R' q ts hr hside hpos hin hres rest ih =>
    have hne : r.id ≠ o.id := fun he => by rw [← he, hr] at hid; cases hid
    have hid' : Function.update R r.id (r.reduced q) o.id = none := by
      rwa [Function.update_of_ne (Ne.symm hne)]
    have hall' : AllOwned owner (Function.update R r.id (r.reduced q)) := by
      intro id hsome
      by_cases heq : id = r.id
      · exact hall id (by rw [heq, hr]; exact Option.some_ne_none r)
      · rw [Function.update_of_ne heq] at hsome
        exact hall id hsome
    have hinNat := UInt32.le_iff_toNat_le.mp hin
    have hstep : Trading s o R [tradeWith s o r.id r.price q] (o.fill q) _ :=
      .step hr hside hpos hin hres .stop
    have hafter := hstep.limited hid hm howner hc hlimited
    have hrange : ∀ {risk : RiskEngine}, Limited risk ⟨c, x, s, o.remainingQuantity.toNat, rests⟩ →
        -2 ^ 63 ≤ risk.position c x + signed s q.toNat ∧
          risk.position c x + signed s q.toNat < 2 ^ 63 := by
      intro risk hlimited
      refine hlimited.fill_range ?_
      have hself : (Pending.mk c x s o.remainingQuantity.toNat rests).on c x s =
          o.remainingQuantity.toNat := if_pos ⟨rfl, rfl, rfl⟩
      rw [hself]
      omega
    rw [List.foldl_cons]
    refine (ih hid' (hm.trade hid (howner r.id) hr hpos hres c).1 hall' hafter).trans ?_
    cases s with
    | buy =>
      have hfilled := hlimited.incoming hc (hm.absent hid c) hinNat
      have hbought := onTradeSide_net hc o.id (hrange hlimited) y
      have hsold : ((risk.onTradeSide .buy x c o.id q).onTradeSide .sell x
          ((owner r.id).getD invalidRiskClientId) r.id q).net y = _ :=
        hfilled.mirrored_net (hm.incoming .buy c hid).1 hall (howner r.id) hr hside hres y
      rw [reportTrade_buy hpos hne, hsold, hbought]
      split <;> simp [signed, Side.opposite]
    | sell =>
      have hfilled := hlimited.mirrored hm hr hside hres
      have hbought := hlimited.mirrored_net hm hall (howner r.id) hr hside hres y
      have hsold := onTradeSide_net hc o.id (hrange hfilled) y
      rw [reportTrade_sell hpos hne]
      refine (hsold.trans (congrArg (· + _) hbought)).trans ?_
      split <;> simp [signed, Side.opposite]

/-! ## The other callbacks -/

section Callbacks

variable (risk : RiskEngine) (c : RiskClientId) (x y : List UInt8) (id : OrderId)

theorem eraseWorkingOrder_net (h : Accounted risk) (k : WorkingOrderKey) :
    (risk.eraseWorkingOrder k).net y = risk.net y :=
  net_same fun c' => (eraseWorkingOrder_ok h k).1.position c' y

theorem onOrderCancelled_net (h : Accounted risk) :
    (risk.onOrderCancelled c x id).net y = risk.net y := by
  rw [RiskEngine.onOrderCancelled]
  split
  · rfl
  · exact eraseWorkingOrder_net risk y h _

theorem join_position (client : ClientState) (side : Side) (q : Quantity) :
    ((client.join x side q).symbol y).position = (client.symbol y).position := by
  rw [join_symbol]
  split
  · rename_i hy
    rw [position_setOpenQuantity, hy]
  · rfl

theorem onOrderResting_net (h : Accounted risk) (side : Side) (price : Price) (q : Quantity) :
    (risk.onOrderResting c x id side price q).net y = risk.net y := by
  rcases Exact.onOrderResting_erase c x id side price q with hsame | ⟨hc, hq, heq⟩
  · rw [hsame]
  have hnone : (risk.eraseWorkingOrder ⟨c, x, id⟩).workingOrders.lookup ⟨c, x, id⟩ = none := by
    rw [eraseWorkingOrder_lookup, if_pos rfl]
  have herased := eraseWorkingOrder_net risk y h ⟨c, x, id⟩
  rw [heq, onOrderResting_eq hnone hc hq]
  generalize risk.eraseWorkingOrder ⟨c, x, id⟩ = before at herased ⊢
  have hjoined : (before.updateClient c fun client => client.join x side q).net y = before.net y :=
    net_same (position_updateClient (join_position x y (before.client c) side q))
  exact hjoined.trans herased

end Callbacks

namespace ExchangeServer

/-! ## One frame -/

/-- Every order that rests has a recorded owner. -/
def AllRecorded (server : ExchangeServer) : Prop :=
  ∀ x id, server.Rests x id → server.recordedOwner x id ≠ none

theorem AllRecorded.allOwned {server : ExchangeServer} (h : server.AllRecorded) (x : Bytes) :
    AllOwned (server.instrumentFor x).owner (server.instrumentFor x).book.findOrder := by
  intro id hrests hnone
  refine h x id hrests ?_
  rwa [InstrumentState.owner, Option.map_eq_none_iff] at hnone

section Frame

variable {order : SetOrder} {socket : Socket} {frame : Frame} {server server' : ExchangeServer}
  {emissions : List Emission} {accepted : Bytes → OrderId → Prop}

theorem Settling.net {incoming : Incoming} {o o' : Order} {b b' : OrderBook} {ts : List Trade}
    {orderOwners : Finmap fun _ : OrderId => OrderOwner} {risk : RiskEngine} {rests : Bool}
    (h : Settling incoming o b ts o' b' orderOwners) (order : SetOrder)
    (hm : Mirrors risk (symbolToString incoming.symbol) (InstrumentState.mk b orderOwners).owner
      b.findOrder)
    (hall : AllOwned (InstrumentState.mk b orderOwners).owner b.findOrder)
    (hlimited : Limited risk ⟨incoming.riskClientId, symbolToString incoming.symbol, o.side,
      o.remainingQuantity.toNat, rests⟩) (y : List UInt8) :
    (settle order incoming ts ⟨b', orderOwners⟩ risk).riskEngine.net y = risk.net y := by
  have howner : ∀ id c, (InstrumentState.mk b orderOwners).owner id = some c →
      c ≠ invalidRiskClientId := by
    intro id c hc
    obtain ⟨owner, ho, rfl⟩ := Option.map_eq_some_iff.mp hc
    exact (h.owned id owner ho).1
  have htraded := h.trading.limited h.absent hm howner h.client hlimited
  have hnet := h.trading.net h.absent hm howner h.client hall hlimited y
  rw [h.id_eq] at htraded hnet
  rw [settle_riskEngine]
  refine Eq.trans ?_ hnet
  cases b'.findOrder incoming.orderId with
  | none => rfl
  | some resting => exact onOrderResting_net _ _ _ _ _ htraded.accounted _ _ _

theorem Handled.net (h : Handled order socket frame server server' emissions)
    (hs : Sessions server) (hopen : socket ∈ server.clientSockets) (hbooks : server.BooksConsistent)
    (howned : ∀ x, Owned (accepted x) server.riskEngine x (server.instrumentFor x))
    (hall : server.AllRecorded) (hlimited : Limited server.riskEngine .idle) (y : List UInt8) :
    server'.riskEngine.net y = server.riskEngine.net y := by
  have hclient := hs.riskClient_ne hopen
  cases h with
  | ignored | rejected | turnedAway => rfl
  | @placed request trades book snapshot h =>
    obtain ⟨o', hsettling⟩ := h.settling hs hopen hbooks (howned _)
    exact hsettling.net order (howned (symbolToString request.symbol)).mirrors
      (hall.allOwned (symbolToString request.symbol)) (h.pending hlimited) y
  | cancelled => exact onOrderCancelled_net _ _ _ _ _ hlimited.accounted
  | @replaced request instrument trades book snapshot h =>
    have hx := howned (symbolToString request.symbol)
    have hattended := hall.allOwned (symbolToString request.symbol)
    rw [instrumentFor_of_found h.found] at hx hattended
    obtain ⟨hm, -⟩ := hx.cancel (owner_of_ownsResting h.owned)
    obtain ⟨s, n, hn, hid, b₁, o', -, -, -, hfind, hsettling⟩ := h.settling hs hopen hbooks hx
    rw [← hfind] at hm
    have hattended₁ : AllOwned instrument.owner b₁.findOrder := by
      intro id hsome
      rw [hfind, Function.update_apply] at hsome
      split at hsome
      · exact absurd rfl hsome
      · exact hattended id hsome
    refine (hsettling.net order hm hattended₁
      (h.pending hclient hbooks hx hn hid hlimited) y).trans ?_
    exact onOrderCancelled_net _ _ _ _ _ hlimited.accounted

end Frame

end ExchangeServer

/-! ## Every run -/

namespace Concurrent

variable {limits : RiskLimits} {file : Option (Option Bytes)} {server₀ : ExchangeServer}
  {labels : List Label} {label : Label} {c c' : Concurrent} {log : List Event}

theorem withinLimits (hstart : start limits file = some server₀)
    (hbounded : limits.maxPositionPerSymbol.toNat < 2 ^ 63)
    (hrun : Run Step ⟨server₀, fun _ => []⟩ labels c) : WithinLimits limits c.server := by
  obtain ⟨log, n, hsequential⟩ := sequential hrun
  obtain ⟨hunchanged, hlimited⟩ := limited_run hstart hbounded hsequential
  exact ⟨hunchanged, hlimited⟩

theorem Step.allRecorded (h : c.server.AllRecorded) (hown : Ownership log c.server)
    (hstep : Step c label c') : c'.server.AllRecorded := by
  cases hstep with
  | connect | disconnect | setGlobalKillSwitch => exact h
  | @send socket emission rest hnext =>
    obtain ⟨n, -, heq⟩ := emit_state emission c.server
    show (emit emission c.server).1.AllRecorded
    rw [heq]
    exact h
  | handle order hopen _ hrun =>
    intro x id hrests hnone
    have hturnover := (handleMessage_cases hown.books hrun).turnover hown hopen
    obtain ⟨hrests, hnone⟩ := hturnover.unrecorded x id hrests hnone
    exact h x id hrests hnone

theorem Step.net (hall : c.server.AllRecorded) (hown : Ownership log c.server)
    (hlimited : Limited c.server.riskEngine .idle) (hstep : Step c label c') (x : List UInt8) :
    c'.server.riskEngine.net x = c.server.riskEngine.net x := by
  cases hstep with
  | connect | disconnect | setGlobalKillSwitch => rfl
  | @send socket emission rest hnext =>
    obtain ⟨n, -, heq⟩ := emit_state emission c.server
    show (emit emission c.server).1.riskEngine.net x = _
    rw [heq]
    rfl
  | handle order hopen _ hrun =>
    exact (handleMessage_cases hown.books hrun).net hown.sessions hopen hown.books hown.owned hall
      hlimited x

/-- The positions of a server whose orders are all its sessions'. -/
structure Cleared (c : Concurrent) : Prop where
  recorded : c.server.AllRecorded
  flat : ∀ x, c.server.riskEngine.net x = 0

theorem cleared_run (hstart : start limits file = some server₀)
    (hbounded : limits.maxPositionPerSymbol.toNat < 2 ^ 63)
    (hempty : ∀ x id, ¬server₀.Rests x id)
    (hrun : Run Step ⟨server₀, fun _ => []⟩ labels c) : c.Cleared := by
  refine hrun.history (P := fun _ c => c.Cleared) ?_ fun labels c label c' hrun h hstep => ?_
  · refine ⟨fun x id hrests => absurd hrests (hempty x id), fun x => ?_⟩
    rw [start_riskEngine hstart]
    rfl
  · obtain ⟨log, hown⟩ := ownership hstart hrun
    have hlimited := (withinLimits hstart hbounded hrun).limited
    exact ⟨hstep.allRecorded h.recorded hown,
      fun x => (hstep.net h.recorded hown hlimited x).trans (h.flat x)⟩

end Concurrent

/-- In every run that starts with empty books, with the sends of every handler as steps of their own:
what some sessions are long of a symbol, the others are short. -/
theorem positions_cancel {limits : RiskLimits} {file : Option (Option Bytes)}
    {server₀ : ExchangeServer} {labels : List Concurrent.Label} {c : Concurrent}
    (hbounded : limits.maxPositionPerSymbol.toNat < 2 ^ 63)
    (hstart : start limits file = some server₀) (hempty : ∀ x id, ¬server₀.Rests x id)
    (hrun : Run Concurrent.Step ⟨server₀, fun _ => []⟩ labels c) (x : List UInt8) :
    (c.server.riskEngine.clients.keys.sum fun client =>
      (c.server.riskEngine.snapshot client x).position.toInt) = 0 := by
  have hflat := (Concurrent.cleared_run hstart hbounded hempty hrun).flat x
  have hposition : ∀ client, (c.server.riskEngine.snapshot client x).position.toInt =
      c.server.riskEngine.position client x := fun client => by
    rw [(snapshot_eq c.server.riskEngine client x).1]
    rfl
  simp only [hposition]
  exact hflat

/-- Another session sells a session the 5 that it bids for. -/
theorem positions_cancel_trade :
    ∃ labels c, Run Concurrent.Step ⟨{ riskEngine := { limits := {} } }, fun _ => []⟩ labels c ∧
      (c.server.riskEngine.snapshot 1 [84, 69, 83, 84]).position.toInt = 5 ∧
      (c.server.riskEngine.clients.keys.sum fun client =>
        (c.server.riskEngine.snapshot client [84, 69, 83, 84]).position.toInt) = 0 := by
  obtain ⟨⟨server₁, emissions₁⟩, hrun₁, hopen, hjournal, ⟨server₂, emissions₂⟩, hrun₂, hbought⟩ :
      ∃ r₁, handleMessage .dedup 4
        (newOrderFrame ⟨7, 1, 100, 5, .buy, .limit, .goodTillCancel, defaultSymbol⟩)
        (registerClient 5 (registerClient 4 { riskEngine := { limits := {} } })) = .ok r₁ ∧
      5 ∈ r₁.1.clientSockets ∧ r₁.1.journal.isSome = false ∧ ∃ r₂,
      handleMessage .dedup 5
        (newOrderFrame ⟨8, 2, 100, 5, .sell, .limit, .goodTillCancel, defaultSymbol⟩) r₁.1 = .ok r₂ ∧
      (r₂.1.riskEngine.snapshot 1 [84, 69, 83, 84]).position.toInt = 5 :=
    ⟨_, by rfl, by decide, rfl, _, by rfl, by decide⟩
  have connect₄ : Concurrent.Step ⟨{ riskEngine := { limits := {} } }, fun _ => []⟩ (.connect 4) _ :=
    .connect (by decide) (by decide)
  have connect₅ : Concurrent.Step ⟨registerClient 4 { riskEngine := { limits := {} } }, fun _ => []⟩
      (.connect 5) _ := .connect (by decide) (by decide)
  have bid : Concurrent.Step
      ⟨registerClient 5 (registerClient 4 { riskEngine := { limits := {} } }), fun _ => []⟩
      (.handle 4 _ emissions₁) _ := .handle .dedup (by decide) ⟨rfl, fun _ _ => rfl⟩ hrun₁
  have hready : Concurrent.Ready ⟨server₁, Function.update (fun _ => []) 4 emissions₁⟩ 5 := by
    refine ⟨rfl, fun h => ?_⟩
    rw [hjournal] at h
    cases h
  have sold := Concurrent.Step.handle .dedup hopen hready hrun₂
  have run := ((((Run.nil _).snoc connect₄).snoc connect₅).snoc bid).snoc sold
  have hstart : start {} none = some { riskEngine := { limits := {} } } := rfl
  have hempty : ∀ x id, ¬ExchangeServer.Rests { riskEngine := { limits := {} } } x id :=
    fun _ _ hrests => hrests rfl
  exact ⟨_, _, run, hbought, positions_cancel (by decide) hstart hempty run [84, 69, 83, 84]⟩

end ExchangeLab

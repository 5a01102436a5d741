import ExchangeLab.Risk.Limits

/-!
# ExchangeLab.Risk.Callbacks

The aggregates of the risk engine after any sequence of callbacks.

* `Exact`: every aggregate is the sum over the working orders, and every position is what was bought
  less what was sold.
* `Exact.rested`, `Exact.cancelled`, `Exact.filled`: what each callback, or half of it, keeps.
* `aggregates_are_sums`: over any sequence whose sums fit their words.
-/

namespace ExchangeLab

open Container Transition

/-- What an order counts for in the gross open quantity of client `c`. -/
def quantityOf (c : RiskClientId) (k : WorkingOrderKey) (w : WorkingOrder) : Nat :=
  if k.clientId = c then w.remainingQuantity.toNat else 0

/-! ## Callbacks -/

/-- One side of a trade. -/
structure Fill where
  side : Side
  clientId : RiskClientId
  symbol : List UInt8
  quantity : Quantity

inductive RiskCallback where
  | onOrderResting (clientId : RiskClientId) (symbol : List UInt8) (orderId : OrderId) (side : Side)
      (price : Price) (remainingQuantity : Quantity)
  | onOrderCancelled (clientId : RiskClientId) (symbol : List UInt8) (orderId : OrderId)
  | onTrade (symbol : List UInt8) (buyerClientId sellerClientId : RiskClientId)
      (buyOrderId sellOrderId : OrderId) (quantity : Quantity)

namespace RiskCallback

def apply (risk : RiskEngine) : RiskCallback → RiskEngine
  | onOrderResting clientId symbol orderId side price remainingQuantity =>
    risk.onOrderResting clientId symbol orderId side price remainingQuantity
  | onOrderCancelled clientId symbol orderId => risk.onOrderCancelled clientId symbol orderId
  | onTrade symbol buyerClientId sellerClientId buyOrderId sellOrderId quantity =>
    risk.onTrade symbol buyerClientId sellerClientId buyOrderId sellOrderId quantity

/-- The buyer's side of a trade is booked before the seller's. -/
def fills : RiskCallback → List Fill
  | onTrade symbol buyerClientId sellerClientId _ _ quantity =>
    [⟨.buy, buyerClientId, symbol, quantity⟩, ⟨.sell, sellerClientId, symbol, quantity⟩]
  | onOrderResting .. => []
  | onOrderCancelled .. => []

end RiskCallback

def Fill.delta (c : RiskClientId) (x : List UInt8) (fill : Fill) : Int :=
  if fill.clientId = c ∧ fill.symbol = x then signed fill.side fill.quantity.toNat else 0

/-- What client `c` has bought of `x` less what it has sold. -/
def netBought (c : RiskClientId) (x : List UInt8) (fills : List Fill) : Int :=
  (fills.map (Fill.delta c x)).sum

theorem netBought_snoc (c : RiskClientId) (x : List UInt8) (fills : List Fill) (fill : Fill) :
    netBought c x (fills ++ [fill]) = netBought c x fills + fill.delta c x := by
  simp [netBought]

/-! ## What the callbacks keep -/

structure Exact (risk : RiskEngine) (fills : List Fill) : Prop where
  accounted : Accounted risk
  gross : ∀ c, (risk.client c).grossOpenQuantity.toNat = tally risk.workingOrders (quantityOf c)
  position : ∀ c x, c ≠ invalidRiskClientId → risk.position c x = netBought c x fills

/-- The sums of the remaining quantities fit 64 bits. -/
def TotalsFit (risk : RiskEngine) : Prop :=
  ∀ c, tally risk.workingOrders (quantityOf c) < 2 ^ 64

namespace Exact

variable {risk : RiskEngine} {fills : List Fill} {k : WorkingOrderKey}

theorem gross_adjusted {risk' : RiskEngine} {new : Option WorkingOrder} (h : Exact risk fills)
    (hadjusted : Adjusted risk risk' k new)
    (hgross : (risk'.client k.clientId).grossOpenQuantity.toNat +
        share (quantityOf k.clientId k) (risk.workingOrders.lookup k) =
      (risk.client k.clientId).grossOpenQuantity.toNat + share (quantityOf k.clientId k) new) :
    Exact risk' fills where
  accounted := hadjusted.accounted
  gross c := by
    have hchanged := tally_changed (f := quantityOf c) hadjusted.lookup
    have hbefore := h.gross c
    by_cases hc : c = k.clientId
    · subst hc
      simp only [share] at hgross
      omega
    · have hshare : ∀ w : Option WorkingOrder, (w.map (quantityOf c k)).getD 0 = 0 := by
        intro w
        cases w <;> simp [quantityOf, Ne.symm hc]
      simp only [hshare] at hchanged
      rw [hadjusted.gross c hc]
      omega
  position c x hc := by rw [hadjusted.position, h.position c x hc]

theorem openOrders_le (h : Exact risk fills) (c : RiskClientId) :
    (risk.client c).openOrders.toNat ≤ tally risk.workingOrders (quantityOf c) := by
  rw [h.accounted.orders]
  refine tally_le fun k w hk => ?_
  have hpos := UInt32.lt_iff_toNat_lt.mp (h.accounted.positive k w hk)
  rw [UInt32.toNat_zero] at hpos
  simp only [heldBy, quantityOf]
  split
  · exact hpos
  · exact Nat.le_refl 0

theorem openQuantity_le (h : Exact risk fills) (c : RiskClientId) (x : List UInt8) (s : Side) :
    ((risk.state c x).openQuantity s).toNat ≤ tally risk.workingOrders (quantityOf c) := by
  rw [h.accounted.quantities]
  refine tally_le fun k w hk => ?_
  simp only [openFor, quantityOf]
  split
  · rename_i hand
    rw [if_pos hand.1]
  · exact Nat.zero_le _

theorem held_le (h : Exact risk fills) (k : WorkingOrderKey) :
    (heldAt risk k).toNat ≤ (risk.client k.clientId).grossOpenQuantity.toNat := by
  rw [h.gross, heldAt]
  cases hk : risk.workingOrders.lookup k with
  | none => exact Nat.zero_le _
  | some w =>
    have hle := le_tally (f := quantityOf k.clientId) hk
    simpa [quantityOf] using hle

theorem share_held (risk : RiskEngine) (k : WorkingOrderKey) :
    share (quantityOf k.clientId k) (risk.workingOrders.lookup k) = (heldAt risk k).toNat := by
  rw [heldAt]
  cases risk.workingOrders.lookup k <;> simp [share, quantityOf]

theorem erased (h : Exact risk fills) (k : WorkingOrderKey) :
    Exact (risk.eraseWorkingOrder k) fills := by
  obtain ⟨hadjusted, hgross⟩ := eraseWorkingOrder_ok h.accounted k
  refine h.gross_adjusted hadjusted ?_
  have hle := h.held_le k
  rw [hgross, floorSub_toNat, share_held, UInt32.toNat_toUInt64]
  simp only [share, Option.map_none, Option.getD_none]
  omega

theorem cancelled (h : Exact risk fills) (c : RiskClientId) (x : List UInt8) (id : OrderId) :
    Exact (risk.onOrderCancelled c x id) fills := by
  unfold RiskEngine.onOrderCancelled
  split
  · exact h
  · exact h.erased _

/-- An order that is known already is taken out first. -/
theorem onOrderResting_erase (c : RiskClientId) (x : List UInt8) (id : OrderId) (side : Side)
    (price : Price) (q : Quantity) :
    risk.onOrderResting c x id side price q = risk ∨
      c ≠ invalidRiskClientId ∧ 0 < q ∧ risk.onOrderResting c x id side price q =
        (risk.eraseWorkingOrder ⟨c, x, id⟩).onOrderResting c x id side price q := by
  by_cases hno : c = invalidRiskClientId ∨ q = 0
  · exact .inl (by rw [RiskEngine.onOrderResting, if_pos hno])
  · refine .inr ⟨fun hc => hno (.inl hc), UInt32.pos_iff_ne_zero.mpr fun hq => hno (.inr hq), ?_⟩
    have hnone : (risk.eraseWorkingOrder ⟨c, x, id⟩).workingOrders.lookup ⟨c, x, id⟩ = none := by
      rw [eraseWorkingOrder_lookup, if_pos rfl]
    rw [RiskEngine.onOrderResting, RiskEngine.onOrderResting, if_neg hno, if_neg hno]
    simp only [eraseWorkingOrder_none hnone]

theorem rested (h : Exact risk fills) {c : RiskClientId} {x : List UInt8} {id : OrderId}
    {side : Side} {price : Price} {q : Quantity}
    (hfits : TotalsFit (risk.onOrderResting c x id side price q)) :
    Exact (risk.onOrderResting c x id side price q) fills := by
  rcases onOrderResting_erase c x id side price q with hsame | ⟨hc, hq, heq⟩
  · rw [hsame]
    exact h
  rw [heq] at hfits ⊢
  have herased := h.erased ⟨c, x, id⟩
  have hnone : (risk.eraseWorkingOrder ⟨c, x, id⟩).workingOrders.lookup ⟨c, x, id⟩ = none := by
    rw [eraseWorkingOrder_lookup, if_pos rfl]
  generalize risk.eraseWorkingOrder ⟨c, x, id⟩ = before at hfits herased hnone ⊢
  -- what the new order adds still fits
  have hsum := tally_changed (f := quantityOf c) (m := before.workingOrders) (k := ⟨c, x, id⟩)
    (onOrderResting_lookup before hc x id side price hq)
  have hadded : (((some ⟨side, price, q⟩ : Option WorkingOrder).map
      (quantityOf c ⟨c, x, id⟩)).getD 0) = q.toNat := by simp [quantityOf]
  rw [hnone, hadded, Option.map_none, Option.getD_none] at hsum
  have hroom := hfits c
  have hqpos := UInt32.lt_iff_toNat_lt.mp hq
  rw [UInt32.toNat_zero] at hqpos
  have horders := herased.openOrders_le c
  have hopen := herased.openQuantity_le c x side
  have hbefore := herased.gross c
  obtain ⟨hadjusted, hgross⟩ := @onOrderResting_ok before c x id side price q herased.accounted
    hnone hc hq (by omega) (by omega)
  refine herased.gross_adjusted hadjusted ?_
  simp only [share]
  rw [hgross, hnone, hadded, saturatingAdd_toNat, UInt32.toNat_toUInt64, Option.map_none,
    Option.getD_none, Nat.min_eq_left (by omega), Nat.add_zero]

/-- A fill reduces the working order by no more than it has. -/
theorem reduceWorkingOrder_min {c : RiskClientId} {x : List UInt8} {id : OrderId}
    {w : WorkingOrder} (hk : risk.workingOrders.lookup ⟨c, x, id⟩ = some w) (q : Quantity) :
    risk.reduceWorkingOrder c x id q =
      risk.reduceWorkingOrder c x id (min w.remainingQuantity q) := by
  have hmin : min w.remainingQuantity (min w.remainingQuantity q) = min w.remainingQuantity q := by
    rcases quantity_min w.remainingQuantity q with ⟨hle, hmin⟩ | ⟨hlt, hmin⟩
    · rw [hmin]
      exact if_pos (UInt32.le_refl _)
    · rw [hmin, hmin]
  simp only [RiskEngine.reduceWorkingOrder, hk, hmin]

theorem reduced (h : Exact risk fills) (c : RiskClientId) (x : List UInt8) (id : OrderId)
    (q : Quantity) : Exact (risk.reduceWorkingOrder c x id q) fills := by
  cases hk : risk.workingOrders.lookup ⟨c, x, id⟩ with
  | none =>
    rw [reduceWorkingOrder_none hk]
    exact h
  | some w =>
    rw [reduceWorkingOrder_min hk]
    have hle : min w.remainingQuantity q ≤ w.remainingQuantity := by
      rcases quantity_min w.remainingQuantity q with ⟨hle, hmin⟩ | ⟨hlt, hmin⟩
      · rw [hmin]
        exact UInt32.le_refl _
      · rw [hmin]
        exact UInt32.le_of_lt hlt
    generalize min w.remainingQuantity q = reduction at hle ⊢
    obtain ⟨hadjusted, hgross⟩ := reduceWorkingOrder_ok h.accounted hk hle
    refine h.gross_adjusted hadjusted ?_
    have hheld := h.held_le ⟨c, x, id⟩
    have hleNat := UInt32.le_iff_toNat_le.mp hle
    have hrest : (w.remainingQuantity - reduction).toNat =
        w.remainingQuantity.toNat - reduction.toNat := UInt32.toNat_sub_of_le _ _ hle
    have hshare : share (quantityOf c ⟨c, x, id⟩) (w.reduced reduction) + reduction.toNat =
        w.remainingQuantity.toNat := by
      unfold WorkingOrder.reduced
      split
      · rename_i hall
        simp [share, hall]
      · simp only [share, quantityOf, Option.map_some, Option.getD_some, if_true]
        omega
    rw [hgross, share_held, floorSub_toNat, UInt32.toNat_toUInt64]
    simp only [heldAt, hk, Option.map_some, Option.getD_some] at hheld ⊢
    omega

/-- A position moves with one side of a trade. -/
theorem moved (h : Exact risk fills) (s : Side) (x : List UInt8) {c : RiskClientId}
    (hc : c ≠ invalidRiskClientId) (q : Quantity)
    (hrange : -2 ^ 63 ≤ netBought c x (fills ++ [⟨s, c, x, q⟩]) ∧
      netBought c x (fills ++ [⟨s, c, x, q⟩]) < 2 ^ 63) :
    Exact (risk.move s x c q) (fills ++ [⟨s, c, x, q⟩]) where
  accounted := h.accounted.move
  gross c' := by rw [move_grossOpenQuantity]; exact h.gross c'
  position c' y hc' := by
    have hself : netBought c x (fills ++ [⟨s, c, x, q⟩]) =
        risk.position c x + signed s q.toNat := by
      rw [netBought_snoc, h.position c x hc]
      simp [Fill.delta]
    rw [hself] at hrange
    rw [move_position hrange.1 hrange.2, netBought_snoc, h.position c' y hc']
    simp [Fill.delta, eq_comm]

theorem filled (h : Exact risk fills) (s : Side) (x : List UInt8) (c : RiskClientId) (id : OrderId)
    (q : Quantity)
    (hrange : c ≠ invalidRiskClientId → -2 ^ 63 ≤ netBought c x (fills ++ [⟨s, c, x, q⟩]) ∧
      netBought c x (fills ++ [⟨s, c, x, q⟩]) < 2 ^ 63) :
    Exact (risk.onTradeSide s x c id q) (fills ++ [⟨s, c, x, q⟩]) := by
  by_cases hc : c = invalidRiskClientId
  · subst hc
    rw [RiskEngine.onTradeSide, if_pos rfl]
    refine ⟨h.accounted, h.gross, fun c' y hc' => ?_⟩
    rw [netBought_snoc, h.position c' y hc', Fill.delta, if_neg fun h => hc' h.1.symm, Int.add_zero]
  · rw [onTradeSide_eq risk s x c q hc]
    exact (h.moved s x hc q (hrange hc)).reduced c x id q

/-- A trade of nothing is not booked. -/
theorem idle (h : Exact risk fills) {new : List Fill} (hnew : ∀ fill ∈ new, fill.quantity = 0) :
    Exact risk (fills ++ new) := by
  refine ⟨h.accounted, h.gross, fun c x hc => ?_⟩
  have hzero : ∀ d ∈ new.map (Fill.delta c x), d = 0 := by
    intro d hd
    obtain ⟨fill, hfill, rfl⟩ := List.mem_map.mp hd
    rw [Fill.delta, hnew fill hfill]
    cases fill.side <;> simp [signed]
  rw [h.position c x hc, netBought, netBought, List.map_append, List.sum_append,
    List.sum_eq_zero hzero, Int.add_zero]

end Exact

/-! ## Any sequence -/

/-- What was bought less what was sold fits 64 bits after every side of a trade. -/
def PositionsFit (fills : List Fill) : Prop :=
  ∀ c x, c ≠ invalidRiskClientId → ∀ before, before <+: fills →
    -2 ^ 63 ≤ netBought c x before ∧ netBought c x before < 2 ^ 63

theorem Exact.callback {risk : RiskEngine} {fills : List Fill} (h : Exact risk fills)
    (call : RiskCallback) (htotals : TotalsFit (call.apply risk))
    (hpositions : PositionsFit (fills ++ call.fills)) :
    Exact (call.apply risk) (fills ++ call.fills) := by
  cases call with
  | onOrderResting c x id side price q =>
    rw [RiskCallback.fills, List.append_nil]
    exact h.rested htotals
  | onOrderCancelled c x id =>
    rw [RiskCallback.fills, List.append_nil]
    exact h.cancelled c x id
  | onTrade x buyer seller buyId sellId q =>
    by_cases hq : q = 0
    · rw [RiskCallback.apply, RiskEngine.onTrade, if_pos hq]
      refine h.idle fun fill hfill => ?_
      simp only [RiskCallback.fills, List.mem_cons, List.not_mem_nil, or_false] at hfill
      rcases hfill with rfl | rfl <;> exact hq
    · rw [RiskCallback.apply, RiskEngine.onTrade, if_neg hq]
      have hsplit : fills ++ (RiskCallback.onTrade x buyer seller buyId sellId q).fills =
          (fills ++ [⟨.buy, buyer, x, q⟩]) ++ [⟨.sell, seller, x, q⟩] := by simp [RiskCallback.fills]
      rw [hsplit] at hpositions ⊢
      have hbought := h.filled .buy x buyer buyId q fun hc =>
        hpositions buyer x hc _ (List.prefix_append _ _)
      exact hbought.filled .sell x seller sellId q fun hc =>
        hpositions seller x hc _ (List.prefix_refl _)

theorem exact_run {limits : RiskLimits} {calls : List RiskCallback}
    (htotals : ∀ before, before <+: calls →
      TotalsFit (before.foldl RiskCallback.apply { limits := limits }))
    (hpositions : PositionsFit (calls.flatMap RiskCallback.fills)) :
    Exact (calls.foldl RiskCallback.apply { limits := limits })
      (calls.flatMap RiskCallback.fills) := by
  induction calls using List.reverseRecOn with
  | nil =>
    have hempty : Accounted ({ limits := limits } : RiskEngine) := .empty rfl rfl
    exact ⟨hempty, fun c => rfl, fun c x _ => rfl⟩
  | append_singleton calls call ih =>
    rw [List.flatMap_append, List.flatMap_singleton] at hpositions ⊢
    rw [List.foldl_append]
    have hbefore := ih (fun before h => htotals before (h.trans (List.prefix_append _ _)))
      fun c x hc before h => hpositions c x hc before (h.trans (List.prefix_append _ _))
    refine hbefore.callback call ?_ hpositions
    have hafter := htotals _ (List.prefix_refl _)
    rwa [List.foldl_append] at hafter

section Snapshot

variable (risk : RiskEngine) (c : RiskClientId) (x : List UInt8)

theorem snapshot_openOrders : (risk.snapshot c x).openOrders = (risk.client c).openOrders := by
  unfold RiskEngine.snapshot RiskEngine.findClient RiskEngine.client
  cases risk.clients.lookup c with
  | none => rfl
  | some client =>
    dsimp only [Option.getD_some]
    cases RiskEngine.findSymbolState client x <;> rfl

theorem snapshot_grossOpenQuantity :
    (risk.snapshot c x).grossOpenQuantity = (risk.client c).grossOpenQuantity := by
  unfold RiskEngine.snapshot RiskEngine.findClient RiskEngine.client
  cases risk.clients.lookup c with
  | none => rfl
  | some client =>
    dsimp only [Option.getD_some]
    cases RiskEngine.findSymbolState client x <;> rfl

theorem snapshot_state :
    (risk.snapshot c x).position = (risk.state c x).position ∧
      (risk.snapshot c x).openBuyQuantity = (risk.state c x).openBuyQuantity ∧
      (risk.snapshot c x).openSellQuantity = (risk.state c x).openSellQuantity := by
  unfold RiskEngine.snapshot RiskEngine.state RiskEngine.findClient RiskEngine.client
    ClientState.symbol RiskEngine.findSymbolState
  cases risk.clients.lookup c with
  | none => exact ⟨rfl, rfl, rfl⟩
  | some client =>
    dsimp only [Option.getD_some]
    cases client.symbols.lookup x <;> exact ⟨rfl, rfl, rfl⟩

end Snapshot

/-- After any callbacks whose sums fit their words, the aggregates of the engine are the sums over
its working orders, and its positions are what was bought less what was sold. -/
theorem aggregates_are_sums (limits : RiskLimits) (calls : List RiskCallback)
    (htotals : ∀ before, before <+: calls →
      TotalsFit (before.foldl RiskCallback.apply { limits := limits }))
    (hpositions : PositionsFit (calls.flatMap RiskCallback.fills)) :
    let risk := calls.foldl RiskCallback.apply { limits := limits }
    (∀ c x, (risk.snapshot c x).openOrders.toNat = tally risk.workingOrders (heldBy c) ∧
      (risk.snapshot c x).grossOpenQuantity.toNat = tally risk.workingOrders (quantityOf c) ∧
      (risk.snapshot c x).openBuyQuantity.toNat = tally risk.workingOrders (openFor c x .buy) ∧
      (risk.snapshot c x).openSellQuantity.toNat = tally risk.workingOrders (openFor c x .sell) ∧
      (c ≠ invalidRiskClientId → (risk.snapshot c x).position.toInt =
        netBought c x (calls.flatMap RiskCallback.fills))) ∧
      ∀ k w, risk.workingOrders.lookup k = some w → 0 < w.remainingQuantity := by
  intro risk
  have hexact := exact_run htotals hpositions
  refine ⟨fun c x => ?_, hexact.accounted.positive⟩
  obtain ⟨hposition, hbuy, hsell⟩ := snapshot_state risk c x
  rw [snapshot_openOrders, snapshot_grossOpenQuantity, hposition, hbuy, hsell]
  exact ⟨hexact.accounted.orders c, hexact.gross c, hexact.accounted.quantities c x .buy,
    hexact.accounted.quantities c x .sell, hexact.position c x⟩

theorem TotalsFit.of_total {risk : RiskEngine}
    (h : tally risk.workingOrders (fun _ w => w.remainingQuantity.toNat) < 2 ^ 64) :
    TotalsFit risk := by
  intro c
  refine Nat.lt_of_le_of_lt (tally_le fun k w _ => ?_) h
  rw [quantityOf]
  split
  · exact Nat.le_refl _
  · exact Nat.zero_le _

theorem PositionsFit.of_quantities {fills : List Fill}
    (h : (fills.map fun fill => fill.quantity.toNat).sum < 2 ^ 63) : PositionsFit fills := by
  intro c x _ before hfirst
  have hbound : ∀ fills : List Fill,
      (netBought c x fills).natAbs ≤ (fills.map fun fill => fill.quantity.toNat).sum := by
    intro fills
    induction fills with
    | nil => exact Nat.le_refl 0
    | cons fill fills ih =>
      have hdelta : (fill.delta c x).natAbs ≤ fill.quantity.toNat := by
        rw [Fill.delta]
        split
        · cases fill.side <;> simp [signed]
        · exact Nat.zero_le _
      rw [netBought, List.map_cons, List.sum_cons, List.map_cons, List.sum_cons]
      exact (Int.natAbs_add_le _ _).trans (Nat.add_le_add hdelta ih)
  have hle : (before.map fun fill => fill.quantity.toNat).sum ≤
      (fills.map fun fill => fill.quantity.toNat).sum :=
    (hfirst.sublist.map _).sum_le_sum fun _ _ => Nat.zero_le _
  have := hbound before
  omega

/-- Client 1 rests a buy of 5, client 2 a sell of 8; client 1 takes 3 of that with order 8, and its
order 7 is cancelled. -/
def tradedCalls : List RiskCallback :=
  [.onOrderResting 1 [88] 7 .buy 10 5, .onOrderResting 2 [88] 9 .sell 12 8,
    .onTrade [88] 1 2 8 9 3, .onOrderCancelled 1 [88] 7]

theorem aggregates_are_sums_traded :
    let risk := tradedCalls.foldl RiskCallback.apply { limits := {} }
    (risk.snapshot 1 [88]).openOrders.toNat = 0 ∧ (risk.snapshot 1 [88]).position.toInt = 3 ∧
      (risk.snapshot 2 [88]).openOrders.toNat = 1 ∧
      (risk.snapshot 2 [88]).grossOpenQuantity.toNat = 5 ∧
      (risk.snapshot 2 [88]).openSellQuantity.toNat = 5 ∧
      (risk.snapshot 2 [88]).position.toInt = -3 ∧
      ∀ k w, risk.workingOrders.lookup k = some w → 0 < w.remainingQuantity := by
  intro risk
  have htotals : ∀ before ∈ tradedCalls.inits, tally (before.foldl RiskCallback.apply
      { limits := {} }).workingOrders (fun _ w => w.remainingQuantity.toNat) < 2 ^ 64 := by
    decide +kernel
  obtain ⟨hsums, hpositive⟩ := aggregates_are_sums {} tradedCalls
    (fun before h => .of_total (htotals before ((List.mem_inits _ _).mpr h)))
    (.of_quantities (by decide))
  obtain ⟨horders₁, -, -, -, hposition₁⟩ := hsums 1 [88]
  obtain ⟨horders₂, hgross₂, -, hsell₂, hposition₂⟩ := hsums 2 [88]
  exact ⟨horders₁.trans (by decide +kernel), (hposition₁ (by decide)).trans (by decide),
    horders₂.trans (by decide +kernel), hgross₂.trans (by decide +kernel),
    hsell₂.trans (by decide +kernel), (hposition₂ (by decide)).trans (by decide), hpositive⟩

end ExchangeLab

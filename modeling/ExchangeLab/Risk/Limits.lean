import ExchangeLab.Risk.WorkingOrders

/-!
# ExchangeLab.Risk.Limits

The pre-trade limits as an invariant of the risk engine. The checks run before an order is matched,
the positions move while it is: in between the engine answers for an order that it knows nothing of.

* `Limited risk p`: the limits hold, and they would still hold if the pending order `p` rested or was
  filled, in part or in full.
* `Adjusted.limited`: a change of one working order, as a change of the open quantity of its side.
* `Limited.incoming`, `Limited.resting`: the two halves of a trade keep it.
* `Limited.cancel`, `Limited.rest`: so do the callbacks for an order that leaves or starts to rest.
* `Limited.newOrder`, `Limited.replace`: what the two checks establish.
* `Trading.limited`: a match keeps the limits, whoever owns the resting orders.
-/

namespace ExchangeLab

open Container OrderBook MatchingEngine

/-- An order that has passed the check, as far as it is not filled; `rests` if it may rest. -/
structure Pending where
  clientId : RiskClientId
  symbol : List UInt8
  side : Side
  quantity : Nat
  rests : Bool

/-- What is pending on a side. -/
def Pending.on (p : Pending) (c : RiskClientId) (x : List UInt8) (s : Side) : Nat :=
  if c = p.clientId ∧ x = p.symbol ∧ s = p.side then p.quantity else 0

/-- What is pending of an order that may rest. -/
def Pending.resting (p : Pending) (c : RiskClientId) (n : Nat) : Nat :=
  if p.rests = true ∧ c = p.clientId then n else 0

/-- Nothing is pending. -/
def Pending.idle : Pending := ⟨invalidRiskClientId, [], .buy, 0, false⟩

theorem Pending.on_idle (c : RiskClientId) (x : List UInt8) (s : Side) : Pending.idle.on c x s = 0 :=
  ite_self 0

theorem Pending.resting_idle (c : RiskClientId) (n : Nat) : Pending.idle.resting c n = 0 :=
  if_neg fun h => Bool.false_ne_true h.1

structure Limited (risk : RiskEngine) (p : Pending) : Prop where
  accounted : Accounted risk
  bounded : risk.limits.position < 2 ^ 63
  exposed : ∀ c x s, exposure s (risk.position c x)
    (((risk.state c x).openQuantity s).toNat + p.on c x s) ≤ risk.limits.position
  orders : ∀ c,
    (risk.client c).openOrders.toNat + p.resting c 1 ≤ risk.limits.maxOpenOrders.toNat
  gross : ∀ c, min ((risk.client c).grossOpenQuantity.toNat + p.resting c p.quantity) (2 ^ 64 - 1) ≤
    risk.limits.maxOpenQuantity.toNat

/-! ## One working order changes -/

namespace Adjusted

variable {risk risk' : RiskEngine} {k : WorkingOrderKey} {new : Option WorkingOrder}

theorem orders (h : Adjusted risk risk' k new) (ha : Accounted risk) (c : RiskClientId) :
    (risk'.client c).openOrders.toNat + share (heldBy c k) (risk.workingOrders.lookup k) =
      (risk.client c).openOrders.toNat + share (heldBy c k) new := by
  rw [h.accounted.orders, ha.orders]
  exact tally_changed h.lookup

theorem quantities (h : Adjusted risk risk' k new) (ha : Accounted risk) (c : RiskClientId)
    (x : List UInt8) (s : Side) :
    ((risk'.state c x).openQuantity s).toNat + share (openFor c x s k) (risk.workingOrders.lookup k) =
      ((risk.state c x).openQuantity s).toNat + share (openFor c x s k) new := by
  rw [h.accounted.quantities, ha.quantities]
  exact tally_changed h.lookup

end Adjusted

theorem exposure_mono {s : Side} {position : Int} {n m : Nat} (h : n ≤ m) :
    exposure s position n ≤ exposure s position m := by
  cases s <;> simp only [exposure] <;> omega

namespace Limited

variable {risk risk' : RiskEngine} {p p' : Pending} {c : RiskClientId} {x : List UInt8} {s : Side}

theorem position_le (h : Limited risk p) (c : RiskClientId) (x : List UInt8) :
    -(risk.limits.position : Int) ≤ risk.position c x ∧
      risk.position c x ≤ risk.limits.position := by
  have hbuy := h.exposed c x .buy
  have hsell := h.exposed c x .sell
  simp only [exposure] at hbuy hsell
  omega

theorem open_lt (h : Limited risk p) (c : RiskClientId) (x : List UInt8) (s : Side) :
    ((risk.state c x).openQuantity s).toNat + p.on c x s < 2 ^ 64 := by
  have hs := h.exposed c x s
  have hposition := h.position_le c x
  have hbounded := h.bounded
  cases s <;> simp only [exposure] at hs <;> omega

/-- Nothing that the limits bound has grown. -/
theorem of_le (h : Limited risk p) (ha : Accounted risk') (hlimits : risk'.limits = risk.limits)
    (hexposed : ∀ c x s, exposure s (risk'.position c x)
        (((risk'.state c x).openQuantity s).toNat + p'.on c x s) ≤
      exposure s (risk.position c x) (((risk.state c x).openQuantity s).toNat + p.on c x s))
    (horders : ∀ c, (risk'.client c).openOrders.toNat + p'.resting c 1 ≤
      (risk.client c).openOrders.toNat + p.resting c 1)
    (hgross : ∀ c, (risk'.client c).grossOpenQuantity.toNat + p'.resting c p'.quantity ≤
      (risk.client c).grossOpenQuantity.toNat + p.resting c p.quantity) : Limited risk' p' where
  accounted := ha
  bounded := hlimits ▸ h.bounded
  exposed c x s := hlimits ▸ (hexposed c x s).trans (h.exposed c x s)
  orders c := hlimits ▸ (horders c).trans (h.orders c)
  gross c := hlimits ▸ (min_le_min_right _ (hgross c)).trans (h.gross c)

end Limited

/-! ## The position moves -/

/-- The part of `on_trade` that moves the position of one client. -/
def RiskEngine.move (risk : RiskEngine) (s : Side) (x : List UInt8) (c : RiskClientId)
    (q : Quantity) : RiskEngine :=
  risk.updateClient c fun client =>
    client.updateSymbol x fun state => state.applyPositionDelta s q

section Move

variable (risk : RiskEngine) (s : Side) (x : List UInt8) (c : RiskClientId) (q : Quantity)

theorem onTradeSide_eq (hc : c ≠ invalidRiskClientId) (id : OrderId) :
    risk.onTradeSide s x c id q = (risk.move s x c q).reduceWorkingOrder c x id q := by
  rw [RiskEngine.onTradeSide, if_neg hc]
  rfl

theorem move_client (c' : RiskClientId) :
    (risk.move s x c q).client c' =
      if c' = c then (risk.client c).updateSymbol x fun state => state.applyPositionDelta s q
      else risk.client c' := client_updateClient ..

theorem move_openOrders (c' : RiskClientId) :
    ((risk.move s x c q).client c').openOrders = (risk.client c').openOrders := by
  rw [move_client]
  split
  · rename_i h
    rw [h, updateSymbol_openOrders]
  · rfl

theorem move_grossOpenQuantity (c' : RiskClientId) :
    ((risk.move s x c q).client c').grossOpenQuantity = (risk.client c').grossOpenQuantity := by
  rw [move_client]
  split
  · rename_i h
    rw [h, updateSymbol_grossOpenQuantity]
  · rfl

theorem move_state (c' : RiskClientId) (y : List UInt8) :
    (risk.move s x c q).state c' y =
      if c' = c ∧ y = x then (risk.state c x).applyPositionDelta s q else risk.state c' y := by
  rw [RiskEngine.state, move_client]
  by_cases hc : c' = c
  · subst hc
    rw [if_pos rfl, symbol_updateSymbol]
    simp only [true_and]
    rfl
  · simp only [hc, if_false, false_and]
    rfl

theorem move_openQuantity (c' : RiskClientId) (y : List UInt8) (t : Side) :
    ((risk.move s x c q).state c' y).openQuantity t = (risk.state c' y).openQuantity t := by
  rw [move_state]
  split
  · rename_i h
    rw [openQuantity_applyPositionDelta, h.1, h.2]
  · rfl

variable {risk s x c q}

theorem move_position (hlow : -2 ^ 63 ≤ risk.position c x + signed s q.toNat)
    (hhigh : risk.position c x + signed s q.toNat < 2 ^ 63) (c' : RiskClientId) (y : List UInt8) :
    (risk.move s x c q).position c' y =
      risk.position c' y + if c' = c ∧ y = x then signed s q.toNat else 0 := by
  rw [RiskEngine.position, move_state]
  split
  · rename_i h
    rw [applyPositionDelta_toInt hlow hhigh, h.1, h.2]
    rfl
  · rw [Int.add_zero]
    rfl

theorem Accounted.move (ha : Accounted risk) : Accounted (risk.move s x c q) where
  orders c' := by rw [move_openOrders]; exact ha.orders c'
  quantities c' y t := by rw [move_openQuantity]; exact ha.quantities c' y t
  positive := ha.positive

end Move

/-- A fill moves the position by what leaves the open quantity; the other side only gains room. -/
theorem exposure_fill {s t : Side} {position : Int} {n m q : Nat} (hself : t = s → m + q = n)
    (hother : t ≠ s → m = n) : exposure t (position + signed s q) m ≤ exposure t position n := by
  cases s <;> cases t <;> simp at hself hother <;> simp only [exposure, signed] <;> omega

/-- A fill takes from the share of an order what it fills. -/
theorem share_reduced {k : WorkingOrderKey} {w : WorkingOrder} {q : Quantity}
    (hle : q ≤ w.remainingQuantity) {c : RiskClientId} {x : List UInt8} {s : Side} :
    share (openFor c x s k) (w.reduced q) +
        (if c = k.clientId ∧ x = k.symbol ∧ s = w.side then q.toNat else 0) =
      share (openFor c x s k) (some w) := by
  have hrest : (w.remainingQuantity - q).toNat = w.remainingQuantity.toNat - q.toNat :=
    UInt32.toNat_sub_of_le _ _ hle
  have hleNat := UInt32.le_iff_toNat_le.mp hle
  by_cases hk : k.clientId = c ∧ k.symbol = x ∧ w.side = s
  · obtain ⟨rfl, rfl, rfl⟩ := hk
    unfold WorkingOrder.reduced
    split
    · rename_i hq
      simp [share, openFor, hq]
    · simp [share, openFor, hrest]
      omega
  · have hk' : ¬ (c = k.clientId ∧ x = k.symbol ∧ s = w.side) := fun h =>
      hk ⟨h.1.symm, h.2.1.symm, h.2.2.symm⟩
    unfold WorkingOrder.reduced
    rw [if_neg hk']
    split <;> simp [share, openFor, hk]

theorem share_reduced_le (c : RiskClientId) (k : WorkingOrderKey) (w : WorkingOrder) (q : Quantity) :
    share (heldBy c k) (w.reduced q) ≤ share (heldBy c k) (some w) := by
  unfold WorkingOrder.reduced
  split <;> simp [share, heldBy]

namespace Limited

variable {risk risk' : RiskEngine} {p : Pending} {c : RiskClientId} {x : List UInt8} {s : Side}
  {id : OrderId} {q : Quantity}

/-- A fill that some open or pending quantity covers keeps the position in range. -/
theorem fill_range (h : Limited risk p)
    (hq : q.toNat ≤ ((risk.state c x).openQuantity s).toNat + p.on c x s) :
    -2 ^ 63 ≤ risk.position c x + signed s q.toNat ∧
      risk.position c x + signed s q.toNat < 2 ^ 63 := by
  have hs := h.exposed c x s
  have hposition := h.position_le c x
  have hbounded := h.bounded
  cases s <;> simp only [exposure, signed] at hs ⊢ <;> omega

/-- The half of a trade that belongs to the pending order. -/
theorem incoming (h : Limited risk p) (hc : p.clientId ≠ invalidRiskClientId)
    (hnone : risk.workingOrders.lookup ⟨p.clientId, p.symbol, id⟩ = none)
    (hq : q.toNat ≤ p.quantity) :
    Limited (risk.onTradeSide p.side p.symbol p.clientId id q)
      { p with quantity := p.quantity - q.toNat } := by
  rw [onTradeSide_eq risk _ _ _ _ hc, reduceWorkingOrder_none (by exact hnone)]
  have hself : p.on p.clientId p.symbol p.side = p.quantity := if_pos ⟨rfl, rfl, rfl⟩
  obtain ⟨hlow, hhigh⟩ := h.fill_range (c := p.clientId) (x := p.symbol) (s := p.side) (q := q)
    (by rw [hself]; omega)
  refine h.of_le h.accounted.move rfl (fun c x s => ?_) (fun c => ?_) fun c => ?_
  · rw [move_position hlow hhigh, move_openQuantity]
    by_cases hx : c = p.clientId ∧ x = p.symbol
    · rw [if_pos hx, hx.1, hx.2]
      refine exposure_fill (fun hs => ?_) fun hs => ?_
      · subst hs
        simp only [Pending.on, and_self, if_true]
        omega
      · simp [Pending.on, hs]
    · rw [if_neg hx, Int.add_zero]
      refine exposure_mono ?_
      simp only [Pending.on]
      split <;> omega
  · rw [move_openOrders]
    exact Nat.le_refl _
  · rw [move_grossOpenQuantity]
    simp only [Pending.resting]
    split <;> omega

/-- The half of a trade that belongs to a resting order; one without an owner moves nothing. -/
theorem resting (h : Limited risk p)
    (hk : c ≠ invalidRiskClientId → ∃ w, risk.workingOrders.lookup ⟨c, x, id⟩ = some w ∧
      w.side = s ∧ q ≤ w.remainingQuantity) : Limited (risk.onTradeSide s x c id q) p := by
  by_cases hc : c = invalidRiskClientId
  · rw [RiskEngine.onTradeSide, if_pos hc]
    exact h
  obtain ⟨w, hw, rfl, hle⟩ := hk hc
  have hleNat := UInt32.le_iff_toNat_le.mp hle
  have hopen : w.remainingQuantity.toNat ≤ ((risk.state c x).openQuantity w.side).toNat :=
    h.accounted.amount_le (k := ⟨c, x, id⟩) hw
  obtain ⟨hlow, hhigh⟩ := h.fill_range (c := c) (x := x) (s := w.side) (q := q) (by omega)
  rw [onTradeSide_eq risk _ _ _ _ hc]
  have hmoved : Accounted (risk.move w.side x c q) := h.accounted.move
  have hlookup : (risk.move w.side x c q).workingOrders.lookup ⟨c, x, id⟩ = some w := hw
  obtain ⟨hadjusted, hgross⟩ := reduceWorkingOrder_ok hmoved hlookup hle
  refine h.of_le hadjusted.accounted hadjusted.limits (fun c' y t => ?_) (fun c' => ?_)
    fun c' => ?_
  · have hquantities := hadjusted.quantities hmoved c' y t
    rw [hlookup, move_openQuantity, ← share_reduced hle] at hquantities
    rw [hadjusted.position, move_position hlow hhigh]
    by_cases hx : c' = c ∧ y = x
    · rw [if_pos hx, hx.1, hx.2]
      rw [hx.1, hx.2] at hquantities
      refine exposure_fill (fun ht => ?_) fun ht => ?_
      · simp only [ht, and_self, if_true] at hquantities ⊢
        omega
      · simp only [ht, and_false, if_false] at hquantities
        omega
    · rw [if_neg hx, Int.add_zero]
      refine exposure_mono ?_
      omega
  · have horders := hadjusted.orders hmoved c'
    rw [hlookup, move_openOrders] at horders
    have := share_reduced_le c' ⟨c, x, id⟩ w q
    omega
  · by_cases hc' : c' = c
    · subst hc'
      rw [hgross, move_grossOpenQuantity, floorSub_toNat]
      omega
    · rw [hadjusted.gross c' hc', move_grossOpenQuantity]

/-- An order that leaves makes room. -/
theorem cancel (h : Limited risk p) (k : WorkingOrderKey) :
    Limited (risk.eraseWorkingOrder k) p := by
  obtain ⟨hadjusted, hgross⟩ := eraseWorkingOrder_ok h.accounted k
  refine h.of_le hadjusted.accounted hadjusted.limits (fun c x s => ?_) (fun c => ?_) fun c => ?_
  · have hquantities := hadjusted.quantities h.accounted c x s
    rw [hadjusted.position]
    refine exposure_mono ?_
    simp only [share, Option.map_none, Option.getD_none] at hquantities
    omega
  · have horders := hadjusted.orders h.accounted c
    simp only [share, Option.map_none, Option.getD_none] at horders
    omega
  · by_cases hc : c = k.clientId
    · subst hc
      rw [hgross, floorSub_toNat]
      omega
    · rw [hadjusted.gross c hc]

/-- What is pending of an order starts to rest. -/
theorem rest (h : Limited risk p) (hrests : p.rests = true) (hc : p.clientId ≠ invalidRiskClientId)
    (hk : risk.workingOrders.lookup ⟨p.clientId, p.symbol, id⟩ = none) (price : Price)
    (hpos : 0 < q) (hq : q.toNat = p.quantity) :
    Limited (risk.onOrderResting p.clientId p.symbol id p.side price q) .idle := by
  have hself : p.on p.clientId p.symbol p.side = q.toNat := by
    rw [hq]
    exact if_pos ⟨rfl, rfl, rfl⟩
  have hone : p.resting p.clientId 1 = 1 := if_pos ⟨hrests, rfl⟩
  have hroom := h.orders p.clientId
  have hlt := risk.limits.maxOpenOrders.toNat_lt
  have hopen := h.open_lt p.clientId p.symbol p.side
  obtain ⟨hadjusted, hgross⟩ : Adjusted risk
        (risk.onOrderResting p.clientId p.symbol id p.side price q) ⟨p.clientId, p.symbol, id⟩
        (some ⟨p.side, price, q⟩) ∧ _ :=
    onOrderResting_ok h.accounted hk hc hpos (by omega) (by rw [← hself]; exact hopen)
  refine ⟨hadjusted.accounted, hadjusted.limits ▸ h.bounded, fun c x s => ?_, fun c => ?_,
    fun c => ?_⟩
  · have hquantities := hadjusted.quantities h.accounted c x s
    have hshare : share (openFor c x s ⟨p.clientId, p.symbol, id⟩) (some ⟨p.side, price, q⟩) =
        p.on c x s := by
      simp only [share, openFor, Option.map_some, Option.getD_some, Pending.on, hq,
        eq_comm (a := c), eq_comm (a := x), eq_comm (a := s)]
    rw [hk, hshare] at hquantities
    simp only [share, Option.map_none, Option.getD_none, Nat.add_zero] at hquantities
    rw [hadjusted.position, hadjusted.limits, hquantities, Pending.on_idle]
    exact h.exposed c x s
  · have horders := hadjusted.orders h.accounted c
    have hshare : share (heldBy c ⟨p.clientId, p.symbol, id⟩) (some ⟨p.side, price, q⟩) =
        p.resting c 1 := by
      simp only [share, heldBy, Option.map_some, Option.getD_some, Pending.resting, hrests, true_and,
        eq_comm (a := c)]
    rw [hk, hshare] at horders
    simp only [share, Option.map_none, Option.getD_none, Nat.add_zero] at horders
    rw [hadjusted.limits, horders, Pending.resting_idle]
    exact h.orders c
  · have hbound := h.gross c
    rw [hadjusted.limits, Pending.resting_idle, Nat.add_zero]
    by_cases hc' : c = p.clientId
    · subst hc'
      have hresting : p.resting p.clientId p.quantity = q.toNat := by
        rw [hq]
        exact if_pos ⟨hrests, rfl⟩
      rw [hgross, saturatingAdd_toNat, UInt32.toNat_toUInt64]
      omega
    · rw [hadjusted.gross c hc']
      have hresting : p.resting c p.quantity = 0 := if_neg fun h => hc' h.2
      omega

/-- An order that is not pending any more. -/
theorem idle (h : Limited risk p) : Limited risk .idle := by
  refine h.of_le h.accounted rfl (fun c x s => exposure_mono ?_) (fun c => ?_) fun c => ?_
  · rw [Pending.on_idle]
    omega
  · rw [Pending.resting_idle]
    omega
  · rw [Pending.resting_idle]
    omega

end Limited

/-! ## The checks -/

section Checks

variable {risk : RiskEngine} {request : RiskOrderRequest} {c : RiskClientId} {x : List UInt8}

/-- The views of the checks, which find no state for a client that is new. -/
theorem symbolState_getD (risk : RiskEngine) (c : RiskClientId) (x : List UInt8) :
    ((risk.findClient c).bind fun client => RiskEngine.findSymbolState client x).getD {} =
      risk.state c x := by
  unfold RiskEngine.findClient RiskEngine.state RiskEngine.client
  cases risk.clients.lookup c <;> rfl

theorem openBuy_getD (risk : RiskEngine) (c : RiskClientId) (x : List UInt8) :
    (((risk.findClient c).bind fun client => RiskEngine.findSymbolState client x).map
      SymbolState.openBuyQuantity).getD 0 = (risk.state c x).openQuantity .buy := by
  rw [← symbolState_getD]
  cases (risk.findClient c).bind fun client => RiskEngine.findSymbolState client x <;> rfl

theorem openSell_getD (risk : RiskEngine) (c : RiskClientId) (x : List UInt8) :
    (((risk.findClient c).bind fun client => RiskEngine.findSymbolState client x).map
      SymbolState.openSellQuantity).getD 0 = (risk.state c x).openQuantity .sell := by
  rw [← symbolState_getD]
  cases (risk.findClient c).bind fun client => RiskEngine.findSymbolState client x <;> rfl

theorem openOrders_getD (risk : RiskEngine) (c : RiskClientId) :
    ((risk.findClient c).map ClientState.openOrders).getD 0 = (risk.client c).openOrders := by
  unfold RiskEngine.findClient RiskEngine.client
  cases risk.clients.lookup c <;> rfl

theorem grossOpenQuantity_getD (risk : RiskEngine) (c : RiskClientId) :
    ((risk.findClient c).map ClientState.grossOpenQuantity).getD 0 =
      (risk.client c).grossOpenQuantity := by
  unfold RiskEngine.findClient RiskEngine.client
  cases risk.clients.lookup c <;> rfl

/-- An accepted quantity fits beside what is there. -/
theorem saturated_le_of_not_gt {a b m : UInt64} (h : ¬ saturatingAdd a b > m) :
    min (a.toNat + b.toNat) (2 ^ 64 - 1) ≤ m.toNat := by
  rw [gt_iff_lt, UInt64.lt_iff_toNat_lt, saturatingAdd_toNat] at h
  omega

theorem Limited.newOrder (h : Limited risk .idle) (hcheck : (risk.checkNewOrder request).accepted = true) :
    Limited risk ⟨request.clientId, request.symbol, request.side, request.quantity.toNat,
      RiskEngine.mayRest request.orderType request.timeInForce⟩ := by
  simp only [RiskEngine.checkNewOrder, openBuy_getD, openSell_getD, openOrders_getD,
    grossOpenQuantity_getD] at hcheck
  split at hcheck
  · cases hcheck
  split at hcheck
  · cases hcheck
  split at hcheck
  · rename_i hcommon
    rw [hcheck] at hcommon
    cases hcommon
  split at hcheck
  · cases hcheck
  rename_i hposition
  obtain ⟨hlow, hhigh⟩ := h.position_le request.clientId request.symbol
  have hexposed := positionLimitExceeded_eq_false h.bounded (by rw [symbolState_getD]; exact hlow)
    (by rw [symbolState_getD]; exact hhigh) (Bool.eq_false_iff.mpr hposition)
  rw [symbolState_getD] at hexposed
  have hexposed : ∀ c x s, exposure s (risk.position c x) (((risk.state c x).openQuantity s).toNat +
      Pending.on ⟨request.clientId, request.symbol, request.side, request.quantity.toNat,
        RiskEngine.mayRest request.orderType request.timeInForce⟩ c x s) ≤ risk.limits.position := by
    intro c x s
    rw [Pending.on]
    split
    · rename_i hself
      obtain ⟨rfl, rfl, rfl⟩ := hself
      cases hside : request.side <;> rw [hside] at hexposed <;> exact hexposed
    · have := h.exposed c x s
      rwa [Pending.on_idle] at this
  split at hcheck
  · rename_i hrests
    split at hcheck
    · cases hcheck
    rename_i horders
    split at hcheck
    · cases hcheck
    rename_i hgross
    refine ⟨h.accounted, h.bounded, hexposed, fun c => ?_, fun c => ?_⟩
    · have hidle := h.orders c
      rw [Pending.resting_idle] at hidle
      rw [ge_iff_le, UInt64.not_le, UInt64.lt_iff_toNat_lt] at horders
      simp only [Pending.resting]
      split
      · rename_i hself
        rw [hself.2]
        omega
      · exact hidle
    · have hidle := h.gross c
      rw [Pending.resting_idle] at hidle
      have hfits := saturated_le_of_not_gt hgross
      rw [UInt32.toNat_toUInt64] at hfits
      simp only [Pending.resting]
      split
      · rename_i hself
        rw [hself.2]
        exact hfits
      · exact hidle
  · rename_i hrests
    have hnone : ∀ c n, Pending.resting ⟨request.clientId, request.symbol, request.side,
        request.quantity.toNat, RiskEngine.mayRest request.orderType request.timeInForce⟩ c n = 0 :=
      fun c n => if_neg fun h => hrests h.1
    refine ⟨h.accounted, h.bounded, hexposed, fun c => ?_, fun c => ?_⟩
    · rw [hnone, ← Pending.resting_idle c 1]
      exact h.orders c
    · rw [hnone, ← Pending.resting_idle c 0]
      exact h.gross c

/-- The check of a replacement counts the order it replaces out, as the callback then does. -/
theorem Limited.replace (h : Limited risk .idle) (hc : c ≠ invalidRiskClientId) {id : OrderId}
    {w : WorkingOrder} (hw : risk.workingOrders.lookup ⟨c, x, id⟩ = some w) {price : Price}
    {q : Quantity} (hcheck : (risk.checkReplace c x id price q).accepted = true) :
    Limited (risk.onOrderCancelled c x id) ⟨c, x, w.side, q.toNat, true⟩ := by
  rw [RiskEngine.onOrderCancelled, if_neg hc]
  simp only [RiskEngine.checkReplace, hw] at hcheck
  split at hcheck
  · cases hcheck
  split at hcheck
  · cases hcheck
  split at hcheck
  · rename_i hcommon
    rw [hcheck] at hcommon
    cases hcommon
  split at hcheck
  · cases hcheck
  rename_i client hclient
  have hview : risk.client c = client := by
    rw [RiskEngine.findClient] at hclient
    rw [RiskEngine.client, hclient, Option.getD_some]
  split at hcheck
  · cases hcheck
  rename_i horders
  split at hcheck
  · cases hcheck
  rename_i hgross
  split at hcheck
  · cases hcheck
  rename_i state hstate
  split at hcheck
  · cases hcheck
  rename_i hposition
  have hsymbol : risk.state c x = state := by
    rw [RiskEngine.findSymbolState] at hstate
    rw [RiskEngine.state, hview, ClientState.symbol, hstate, Option.getD_some]
  obtain ⟨hlow, hhigh⟩ := h.position_le c x
  rw [RiskEngine.position, hsymbol] at hlow hhigh
  have hfree : exposure w.side (risk.position c x) (((risk.state c x).openQuantity w.side).toNat -
      w.remainingQuantity.toNat + q.toNat) ≤ risk.limits.position := by
    have hpassed := positionLimitExceeded_eq_false h.bounded (by exact hlow) (by exact hhigh)
      (Bool.eq_false_iff.mpr hposition)
    rw [RiskEngine.position, hsymbol, ← UInt32.toNat_toUInt64 w.remainingQuantity, ← floorSub_toNat]
    cases hside : w.side <;> rw [hside] at hpassed <;> exact hpassed
  obtain ⟨hadjusted, hreleased⟩ := eraseWorkingOrder_ok h.accounted ⟨c, x, id⟩
  refine ⟨hadjusted.accounted, hadjusted.limits ▸ h.bounded, fun c' y s => ?_, fun c' => ?_,
    fun c' => ?_⟩
  · have hquantities := hadjusted.quantities h.accounted c' y s
    rw [hw] at hquantities
    simp only [share, openFor, Option.map_some, Option.getD_some, Option.map_none, Option.getD_none,
      Nat.add_zero] at hquantities
    rw [hadjusted.position, hadjusted.limits, Pending.on]
    split
    · rename_i hself
      obtain ⟨rfl, rfl, rfl⟩ := hself
      refine le_trans (exposure_mono ?_) hfree
      simp only [and_self, if_true] at hquantities ⊢
      omega
    · have hidle := h.exposed c' y s
      rw [Pending.on_idle] at hidle
      refine le_trans (exposure_mono ?_) hidle
      omega
  · have hquantities := hadjusted.orders h.accounted c'
    have hidle := h.orders c'
    rw [hw] at hquantities
    simp only [share, heldBy, Option.map_some, Option.getD_some, Option.map_none, Option.getD_none,
      Nat.add_zero] at hquantities
    rw [hadjusted.limits, Pending.resting]
    split
    · rename_i hself
      rw [if_pos hself.2.symm] at hquantities
      omega
    · omega
  · have hidle := h.gross c'
    rw [Pending.resting_idle] at hidle
    have hfits := saturated_le_of_not_gt hgross
    rw [← hview, UInt32.toNat_toUInt64] at hfits
    have hheld : heldAt risk ⟨c, x, id⟩ = w.remainingQuantity := by
      rw [heldAt, hw, Option.map_some, Option.getD_some]
    rw [hadjusted.limits, Pending.resting]
    split
    · rename_i hself
      obtain ⟨-, rfl⟩ := hself
      rw [hreleased, hheld]
      exact hfits
    · rename_i hother
      rw [hadjusted.gross c' fun he => hother ⟨rfl, he⟩]
      exact hidle

end Checks

/-! ## A match -/

/-- Half of a trade with a resting order of the mirror. -/
theorem Limited.mirrored {risk : RiskEngine} {p : Pending} {x : List UInt8}
    {owner : OrderId → Option RiskClientId} {R : Resting} {q : Quantity} {r : Order} {s : Side}
    (h : Limited risk p) (hm : Mirrors risk x owner R) (hr : R r.id = some r) (hside : r.side = s)
    (hle : q ≤ r.remainingQuantity) :
    Limited (risk.onTradeSide s x ((owner r.id).getD invalidRiskClientId) r.id q) p := by
  refine h.resting fun hne => ?_
  cases ho : owner r.id with
  | none =>
    rw [ho] at hne
    exact absurd rfl hne
  | some c => exact ⟨r.working, hm.working ho hr, hside, hle⟩

/-- The incoming order trades what is pending of it, with whoever owns the resting orders. -/
theorem Trading.limited {s : Side} {o o' : Order} {R R' : Resting} {ts : List Trade}
    {risk : RiskEngine} {x : List UInt8} {owner : OrderId → Option RiskClientId} {c : RiskClientId}
    {rests : Bool} (h : Trading s o R ts o' R') (hid : R o.id = none) (hm : Mirrors risk x owner R)
    (howner : ∀ id c, owner id = some c → c ≠ invalidRiskClientId) (hc : c ≠ invalidRiskClientId)
    (hlimited : Limited risk ⟨c, x, s, o.remainingQuantity.toNat, rests⟩) :
    Limited (ts.foldl (reportTrade x (bookedFor o.id c owner)) risk)
      ⟨c, x, s, o'.remainingQuantity.toNat, rests⟩ := by
  induction h generalizing risk with
  | stop => exact hlimited
  | @step o o' r R R' q ts hr hside hpos hin hres rest ih =>
    have hne : r.id ≠ o.id := fun he => by rw [← he, hr] at hid; cases hid
    have hid' : Function.update R r.id (r.reduced q) o.id = none := by
      rwa [Function.update_of_ne (Ne.symm hne)]
    have hleft : (o.fill q).remainingQuantity.toNat = o.remainingQuantity.toNat - q.toNat :=
      UInt32.toNat_sub_of_le _ _ hin
    have hinNat := UInt32.le_iff_toNat_le.mp hin
    rw [List.foldl_cons]
    refine ih hid' (hm.trade hid (howner r.id) hr hpos hres c).1 ?_
    rw [hleft]
    cases s with
    | buy =>
      rw [reportTrade_buy hpos hne]
      have hfilled := hlimited.incoming hc (hm.absent hid c) hinNat
      exact hfilled.mirrored (hm.incoming .buy c hid).1 hr hside hres
    | sell =>
      rw [reportTrade_sell hpos hne]
      have hfilled := hlimited.mirrored hm hr hside hres
      exact hfilled.incoming hc
        ((hm.resting .buy (howner r.id) hr hres).1.absent hid' c) hinNat

end ExchangeLab

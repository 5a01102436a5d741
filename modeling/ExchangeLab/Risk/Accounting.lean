import ExchangeLab.Risk.Arithmetic
import ExchangeLab.Lib.Tally

/-!
# ExchangeLab.Risk.Accounting

The aggregates of the risk engine are the totals of its working orders.

* `Accounted`: the open-order count of every client and the open quantity of every client, symbol and
  side are tallies of the working orders.
* `Accounted.change`: one working order changes and its client's aggregates with it. Erasing,
  reducing and adding an order are instances.
* `eraseWorkingOrder_ok`, `reduceWorkingOrder_ok`, `onOrderResting_ok`: what each of them does.
-/

namespace ExchangeLab

open Container

/-! ## Views of the state -/

/-- The state of a client; one that has no entry yet has the initial state. -/
def RiskEngine.client (risk : RiskEngine) (c : RiskClientId) : ClientState :=
  (risk.clients.lookup c).getD {}

def ClientState.symbol (client : ClientState) (symbol : List UInt8) : SymbolState :=
  (client.symbols.lookup symbol).getD {}

def RiskEngine.state (risk : RiskEngine) (c : RiskClientId) (symbol : List UInt8) : SymbolState :=
  (risk.client c).symbol symbol

def RiskEngine.position (risk : RiskEngine) (c : RiskClientId) (symbol : List UInt8) : Int :=
  (risk.state c symbol).position.toInt

section Views

variable {risk : RiskEngine} {client : ClientState} {state : SymbolState}

theorem client_updateClient (risk : RiskEngine) (c c' : RiskClientId)
    (f : ClientState → ClientState) :
    (risk.updateClient c f).client c' = if c' = c then f (risk.client c) else risk.client c' := by
  rw [RiskEngine.client, RiskEngine.updateClient, lookup_insert_eq]
  split <;> rfl

theorem symbol_updateSymbol (client : ClientState) (x y : List UInt8)
    (f : SymbolState → SymbolState) :
    (client.updateSymbol x f).symbol y = if y = x then f (client.symbol x) else client.symbol y := by
  rw [ClientState.symbol, ClientState.updateSymbol, lookup_insert_eq]
  split <;> rfl

@[simp] theorem client_withWorkingOrders (m : Finmap fun _ : WorkingOrderKey => WorkingOrder)
    (c : RiskClientId) : ({ risk with workingOrders := m } : RiskEngine).client c = risk.client c :=
  rfl
@[simp] theorem updateClient_workingOrders (c : RiskClientId) (f : ClientState → ClientState) :
    (risk.updateClient c f).workingOrders = risk.workingOrders := rfl
@[simp] theorem updateClient_limits (c : RiskClientId) (f : ClientState → ClientState) :
    (risk.updateClient c f).limits = risk.limits := rfl

@[simp] theorem openQuantity_setOpenQuantity (q : UInt64) (s t : Side) :
    (state.setOpenQuantity q s).openQuantity t = if t = s then q else state.openQuantity t := by
  cases s <;> cases t <;> rfl
@[simp] theorem position_setOpenQuantity (q : UInt64) (s : Side) :
    (state.setOpenQuantity q s).position = state.position := by cases s <;> rfl
@[simp] theorem openQuantity_applyPositionDelta (s t : Side) (q : Quantity) :
    (state.applyPositionDelta s q).openQuantity t = state.openQuantity t := by
  cases s <;> cases t <;> simp only [SymbolState.applyPositionDelta] <;> split <;> rfl

@[simp] theorem release_symbol (q : Quantity) (x : List UInt8) :
    (client.release q).symbol x = client.symbol x := rfl
@[simp] theorem release_openOrders (q : Quantity) :
    (client.release q).openOrders = client.openOrders := rfl
@[simp] theorem updateSymbol_openOrders (x : List UInt8) (f : SymbolState → SymbolState) :
    (client.updateSymbol x f).openOrders = client.openOrders := rfl
@[simp] theorem updateSymbol_grossOpenQuantity (x : List UInt8) (f : SymbolState → SymbolState) :
    (client.updateSymbol x f).grossOpenQuantity = client.grossOpenQuantity := rfl
@[simp] theorem dropOpenOrder_symbol (x : List UInt8) :
    client.dropOpenOrder.symbol x = client.symbol x := by
  unfold ClientState.dropOpenOrder
  split <;> rfl
@[simp] theorem dropOpenOrder_grossOpenQuantity :
    client.dropOpenOrder.grossOpenQuantity = client.grossOpenQuantity := by
  unfold ClientState.dropOpenOrder
  split <;> rfl
theorem dropOpenOrder_openOrders :
    client.dropOpenOrder.openOrders.toNat = client.openOrders.toNat - 1 := by
  unfold ClientState.dropOpenOrder
  split
  · rename_i h
    have := UInt64.lt_iff_toNat_lt.mp h
    rw [UInt64.toNat_zero] at this
    exact UInt64.toNat_sub_of_le _ _ (UInt64.le_iff_toNat_le.mpr (Nat.succ_le_of_lt this))
  · rename_i h
    have : ¬ _ := fun h' => h (UInt64.lt_iff_toNat_lt.mpr h')
    rw [UInt64.toNat_zero] at this
    omega

end Views

/-! ## Aggregates are tallies -/

/-- What an order counts for in the open orders of client `c`. -/
def heldBy (c : RiskClientId) (k : WorkingOrderKey) (_ : WorkingOrder) : Nat :=
  if k.clientId = c then 1 else 0

/-- What an order counts for in the open quantity of client `c`, symbol `x` and side `s`. -/
def openFor (c : RiskClientId) (x : List UInt8) (s : Side) (k : WorkingOrderKey) (w : WorkingOrder) :
    Nat :=
  if k.clientId = c ∧ k.symbol = x ∧ w.side = s then w.remainingQuantity.toNat else 0

structure Accounted (risk : RiskEngine) : Prop where
  orders : ∀ c, (risk.client c).openOrders.toNat = tally risk.workingOrders (heldBy c)
  quantities : ∀ c x s,
    ((risk.state c x).openQuantity s).toNat = tally risk.workingOrders (openFor c x s)
  positive : ∀ k w, risk.workingOrders.lookup k = some w → 0 < w.remainingQuantity

/-- What an order, or its absence, adds to a total. -/
def share (g : WorkingOrder → Nat) (w : Option WorkingOrder) : Nat := (w.map g).getD 0

/-- The quantity an order has on a side. -/
def amount (s : Side) (w : WorkingOrder) : Nat := if w.side = s then w.remainingQuantity.toNat else 0

namespace Accounted

variable {risk : RiskEngine} {k : WorkingOrderKey} {w : WorkingOrder}

theorem empty {risk : RiskEngine} (hc : risk.clients = ∅) (hw : risk.workingOrders = ∅) :
    Accounted risk where
  orders c := by rw [hw]; simp [RiskEngine.client, hc]
  quantities c x s := by
    rw [hw]
    cases s <;> simp [RiskEngine.state, RiskEngine.client, ClientState.symbol, hc,
      SymbolState.openQuantity]
  positive k w h := by simp [hw] at h

/-- One working order changes, from `old` to `new`, and its client's aggregates with it. -/
theorem change (ha : Accounted risk) (f : ClientState → ClientState)
    (m : Finmap fun _ : WorkingOrderKey => WorkingOrder) (old new : Option WorkingOrder)
    (htally : ∀ g, tally m g + share (g k) old = tally risk.workingOrders g + share (g k) new)
    (hpos : ∀ k w, m.lookup k = some w → 0 < w.remainingQuantity)
    (horders : (f (risk.client k.clientId)).openOrders.toNat + share (fun _ => 1) old =
      (risk.client k.clientId).openOrders.toNat + share (fun _ => 1) new)
    (hself : ∀ s, (((f (risk.client k.clientId)).symbol k.symbol).openQuantity s).toNat +
      share (amount s) old =
        ((risk.state k.clientId k.symbol).openQuantity s).toNat + share (amount s) new)
    (hother : ∀ x s, x ≠ k.symbol → ((f (risk.client k.clientId)).symbol x).openQuantity s =
      (risk.state k.clientId x).openQuantity s) :
    Accounted { risk.updateClient k.clientId f with workingOrders := m } where
  orders c := by
    have ht := htally (heldBy c)
    have := ha.orders c
    show ((risk.updateClient k.clientId f).client c).openOrders.toNat = tally m (heldBy c)
    rw [client_updateClient]
    split
    · rename_i hc
      subst hc
      have hshare : ∀ w, share (heldBy k.clientId k) w = share (fun _ => 1) w := by
        intro w
        cases w <;> simp [share, heldBy]
      simp only [hshare] at ht
      omega
    · rename_i hc
      have hshare : ∀ w, share (heldBy c k) w = 0 := by
        intro w
        cases w <;> simp [share, heldBy, Ne.symm hc]
      simp only [hshare] at ht
      omega
  quantities c x s := by
    have ht := htally (openFor c x s)
    have hq := ha.quantities c x s
    show ((((risk.updateClient k.clientId f).client c).symbol x).openQuantity s).toNat =
      tally m (openFor c x s)
    rw [client_updateClient]
    by_cases hc : c = k.clientId
    · subst hc
      rw [if_pos rfl]
      by_cases hx : x = k.symbol
      · subst hx
        have hshare : ∀ w, share (openFor k.clientId k.symbol s k) w = share (amount s) w := by
          intro w
          cases w <;> simp [share, openFor, amount]
        simp only [hshare] at ht
        have := hself s
        omega
      · have hshare : ∀ w, share (openFor k.clientId x s k) w = 0 := by
          intro w
          cases w <;> simp [share, openFor, Ne.symm hx]
        simp only [hshare] at ht
        rw [hother x s hx]
        omega
    · have hshare : ∀ w, share (openFor c x s k) w = 0 := by
        intro w
        cases w <;> simp [share, openFor, Ne.symm hc]
      simp only [hshare] at ht
      rw [if_neg hc]
      simp only [RiskEngine.state] at hq
      omega
  positive := hpos

/-- A client that holds a working order has an entry, and so does its symbol. -/
theorem entries (ha : Accounted risk) (hk : risk.workingOrders.lookup k = some w) :
    (∃ client, risk.clients.lookup k.clientId = some client) ∧
      ∃ state, (risk.client k.clientId).symbols.lookup k.symbol = some state := by
  have hw := UInt32.lt_iff_toNat_lt.mp (ha.positive k w hk)
  rw [UInt32.toNat_zero] at hw
  constructor
  · cases h : risk.clients.lookup k.clientId with
    | some client => exact ⟨client, rfl⟩
    | none =>
      have hle := le_tally (f := heldBy k.clientId) hk
      rw [← ha.orders] at hle
      simp [heldBy, RiskEngine.client, h] at hle
  · cases h : (risk.client k.clientId).symbols.lookup k.symbol with
    | some state => exact ⟨state, rfl⟩
    | none =>
      have hle := le_tally (f := openFor k.clientId k.symbol w.side) hk
      rw [← ha.quantities] at hle
      cases hs : w.side <;>
        simp [openFor, RiskEngine.state, ClientState.symbol, h, hs, SymbolState.openQuantity] at hle <;>
        omega

/-- The open quantity of a side covers each of its orders. -/
theorem amount_le (ha : Accounted risk) (hk : risk.workingOrders.lookup k = some w) :
    w.remainingQuantity.toNat ≤
      ((risk.state k.clientId k.symbol).openQuantity w.side).toNat := by
  have hle := le_tally (f := openFor k.clientId k.symbol w.side) hk
  rw [← ha.quantities] at hle
  simpa [openFor] using hle

theorem one_le (ha : Accounted risk) (hk : risk.workingOrders.lookup k = some w) :
    1 ≤ (risk.client k.clientId).openOrders.toNat := by
  have hle := le_tally (f := heldBy k.clientId) hk
  rw [← ha.orders] at hle
  simpa [heldBy] using hle

end Accounted

/-! ## The changes of a working order -/

/-- The working order at `k` has become `w`, or is gone; beside the aggregates of its client nothing
else is different. -/
structure Adjusted (risk risk' : RiskEngine) (k : WorkingOrderKey) (w : Option WorkingOrder) :
    Prop where
  accounted : Accounted risk'
  lookup : ∀ k', risk'.workingOrders.lookup k' = if k' = k then w else risk.workingOrders.lookup k'
  position : ∀ c x, risk'.position c x = risk.position c x
  gross : ∀ c, c ≠ k.clientId →
    (risk'.client c).grossOpenQuantity = (risk.client c).grossOpenQuantity
  limits : risk'.limits = risk.limits

section Operations

variable {risk : RiskEngine} {k : WorkingOrderKey} {w : WorkingOrder}

/-- A change of the aggregates of one client that keeps its positions. -/
theorem Adjusted.of_update {f : ClientState → ClientState}
    {m : Finmap fun _ : WorkingOrderKey => WorkingOrder} {new : Option WorkingOrder}
    (ha : Accounted { risk.updateClient k.clientId f with workingOrders := m })
    (hlookup : ∀ k', m.lookup k' = if k' = k then new else risk.workingOrders.lookup k')
    (hposition : ∀ x, ((f (risk.client k.clientId)).symbol x).position =
      (risk.state k.clientId x).position) :
    Adjusted risk { risk.updateClient k.clientId f with workingOrders := m } k new where
  accounted := ha
  lookup := hlookup
  position c x := by
    show (((risk.updateClient k.clientId f).client c).symbol x).position.toInt = _
    rw [client_updateClient]
    split
    · rename_i hc
      rw [hposition, hc]
      rfl
    · rfl
  gross c hc := by
    show ((risk.updateClient k.clientId f).client c).grossOpenQuantity = _
    rw [client_updateClient, if_neg hc]
  limits := rfl

/-- The client of a working order that shrinks by `q`, or goes with its last `q`. -/
def ClientState.shrink (client : ClientState) (x : List UInt8) (s : Side) (q : Quantity) :
    ClientState :=
  (client.release q).updateSymbol x fun state =>
    state.setOpenQuantity (floorSub (state.openQuantity s) q.toUInt64) s

section Shrink

variable (client : ClientState) (x y : List UInt8) (s t : Side) (q : Quantity)

@[simp] theorem shrink_openOrders : (client.shrink x s q).openOrders = client.openOrders := rfl
@[simp] theorem shrink_grossOpenQuantity :
    (client.shrink x s q).grossOpenQuantity = floorSub client.grossOpenQuantity q.toUInt64 := rfl

theorem shrink_openQuantity :
    (((client.shrink x s q).symbol y).openQuantity t).toNat =
      ((client.symbol y).openQuantity t).toNat - if y = x ∧ t = s then q.toNat else 0 := by
  rw [ClientState.shrink, symbol_updateSymbol]
  by_cases hy : y = x
  · subst hy
    by_cases ht : t = s
    · subst ht
      simp [floorSub_toNat]
    · simp [ht]
  · simp [hy]

theorem shrink_position : ((client.shrink x s q).symbol y).position = (client.symbol y).position := by
  rw [ClientState.shrink, symbol_updateSymbol]
  split
  · rename_i hy
    simp [hy]
  · rfl

theorem shrink_symbol (hy : y ≠ x) : (client.shrink x s q).symbol y = client.symbol y := by
  rw [ClientState.shrink, symbol_updateSymbol, if_neg hy, release_symbol]

theorem dropOpenOrder_shrink :
    (client.shrink x s q).dropOpenOrder = client.dropOpenOrder.shrink x s q := by
  unfold ClientState.dropOpenOrder
  rw [shrink_openOrders]
  split <;> rfl

end Shrink

theorem updateClient_updateClient (risk : RiskEngine) (c : RiskClientId)
    (f g : ClientState → ClientState) :
    (risk.updateClient c f).updateClient c g = risk.updateClient c fun client => g (f client) := by
  simp only [RiskEngine.updateClient, Finmap.lookup_insert, Option.getD_some, Finmap.insert_insert]

theorem eraseWorkingOrder_none (hk : risk.workingOrders.lookup k = none) :
    risk.eraseWorkingOrder k = risk := by
  rw [RiskEngine.eraseWorkingOrder, hk]

theorem eraseWorkingOrder_eq (ha : Accounted risk) (hk : risk.workingOrders.lookup k = some w) :
    risk.eraseWorkingOrder k =
      { risk.updateClient k.clientId (fun client =>
          client.dropOpenOrder.shrink k.symbol w.side w.remainingQuantity) with
        workingOrders := risk.workingOrders.erase k } := by
  obtain ⟨⟨client, hclient⟩, state, hstate⟩ := ha.entries hk
  have hview : risk.client k.clientId = client := by simp [RiskEngine.client, hclient]
  have hdrop : (client.dropOpenOrder.release w.remainingQuantity).symbols = client.symbols := by
    unfold ClientState.dropOpenOrder
    split <;> rfl
  rw [hview] at hstate
  simp only [RiskEngine.eraseWorkingOrder, hk, hclient, hdrop, hstate, RiskEngine.updateClient,
    Option.getD_some]
  rfl

/-- The aggregates follow a working order that goes. -/
theorem eraseWorkingOrder_some (ha : Accounted risk) (hk : risk.workingOrders.lookup k = some w) :
    Adjusted risk (risk.eraseWorkingOrder k) k none := by
  rw [eraseWorkingOrder_eq ha hk]
  have hamount := ha.amount_le hk
  have hone := ha.one_le hk
  refine .of_update ?_ (lookup_erase_eq _ k) fun x => ?_
  · refine ha.change _ _ (some w) none (fun g => ?_) (fun k' w' h => ?_) ?_ (fun s => ?_)
      fun x s hx => ?_
    · rw [tally_erase hk]
      simp only [share, Option.map_some, Option.getD_some, Option.map_none, Option.getD_none]
      omega
    · rw [lookup_erase_eq] at h
      split at h
      · cases h
      · exact ha.positive k' w' h
    · simp only [shrink_openOrders, dropOpenOrder_openOrders, share, Option.map_some,
        Option.getD_some, Option.map_none, Option.getD_none]
      omega
    · rw [shrink_openQuantity, dropOpenOrder_symbol]
      by_cases hs : s = w.side
      · subst hs
        simp only [RiskEngine.state, true_and, share, amount, Option.map_some, Option.getD_some,
          Option.map_none, Option.getD_none, if_true] at *
        omega
      · simp [share, amount, hs, Ne.symm hs, RiskEngine.state]
    · rw [shrink_symbol _ _ _ _ _ hx, dropOpenOrder_symbol]
      rfl
  · rw [shrink_position, dropOpenOrder_symbol]
    rfl

/-- The quantity a client is charged for at `k`. -/
def heldAt (risk : RiskEngine) (k : WorkingOrderKey) : Quantity :=
  ((risk.workingOrders.lookup k).map WorkingOrder.remainingQuantity).getD 0

theorem eraseWorkingOrder_ok (ha : Accounted risk) (k : WorkingOrderKey) :
    Adjusted risk (risk.eraseWorkingOrder k) k none ∧
      ((risk.eraseWorkingOrder k).client k.clientId).grossOpenQuantity =
        floorSub (risk.client k.clientId).grossOpenQuantity (heldAt risk k).toUInt64 := by
  cases hk : risk.workingOrders.lookup k with
  | none =>
    rw [eraseWorkingOrder_none hk]
    refine ⟨⟨ha, fun k' => ?_, fun _ _ => rfl, fun _ _ => rfl, rfl⟩, ?_⟩
    · split
      · rename_i h
        rw [h, hk]
      · rfl
    · have : floorSub (risk.client k.clientId).grossOpenQuantity 0 =
          (risk.client k.clientId).grossOpenQuantity := by
        apply UInt64.toNat_inj.mp
        rw [floorSub_toNat, UInt64.toNat_zero, Nat.sub_zero]
      rw [heldAt, hk]
      exact this.symm
  | some w =>
    refine ⟨eraseWorkingOrder_some ha hk, ?_⟩
    rw [eraseWorkingOrder_eq ha hk, client_withWorkingOrders, client_updateClient, if_pos rfl]
    simp [heldAt, hk]

/-- What is left of a working order after a fill. -/
def WorkingOrder.reduced (w : WorkingOrder) (q : Quantity) : Option WorkingOrder :=
  if q = w.remainingQuantity then none
  else some { w with remainingQuantity := w.remainingQuantity - q }

theorem reduceWorkingOrder_none {c : RiskClientId} {x : List UInt8} {id : OrderId}
    (hk : risk.workingOrders.lookup ⟨c, x, id⟩ = none) (q : Quantity) :
    risk.reduceWorkingOrder c x id q = risk := by
  simp only [RiskEngine.reduceWorkingOrder, hk]

theorem reduceWorkingOrder_eq {c : RiskClientId} {x : List UInt8} {id : OrderId} {q : Quantity}
    (hk : risk.workingOrders.lookup ⟨c, x, id⟩ = some w) (hle : q ≤ w.remainingQuantity) :
    risk.reduceWorkingOrder c x id q =
      if q = w.remainingQuantity then
        { risk.updateClient c (fun client => client.dropOpenOrder.shrink x w.side q) with
          workingOrders := risk.workingOrders.erase ⟨c, x, id⟩ }
      else
        { risk.updateClient c (fun client => client.shrink x w.side q) with
          workingOrders := risk.workingOrders.insert ⟨c, x, id⟩
            { w with remainingQuantity := w.remainingQuantity - q } } := by
  have hmin : min w.remainingQuantity q = q := by
    show (if w.remainingQuantity ≤ q then w.remainingQuantity else q) = q
    split
    · rename_i h
      exact UInt32.le_antisymm h hle
    · rfl
  have hzero : w.remainingQuantity - q = 0 ↔ q = w.remainingQuantity := by
    rw [← UInt32.toNat_inj, ← UInt32.toNat_inj, UInt32.toNat_sub_of_le _ _ hle, UInt32.toNat_zero]
    have := UInt32.le_iff_toNat_le.mp hle
    omega
  simp only [RiskEngine.reduceWorkingOrder, hk, hmin, hzero, updateClient_updateClient,
    ← dropOpenOrder_shrink]
  rfl

theorem reduceWorkingOrder_ok {c : RiskClientId} {x : List UInt8} {id : OrderId} {q : Quantity}
    (ha : Accounted risk) (hk : risk.workingOrders.lookup ⟨c, x, id⟩ = some w)
    (hle : q ≤ w.remainingQuantity) :
    Adjusted risk (risk.reduceWorkingOrder c x id q) ⟨c, x, id⟩ (w.reduced q) ∧
      ((risk.reduceWorkingOrder c x id q).client c).grossOpenQuantity =
        floorSub (risk.client c).grossOpenQuantity q.toUInt64 := by
  have hamount := ha.amount_le hk
  have hleNat := UInt32.le_iff_toNat_le.mp hle
  rw [reduceWorkingOrder_eq hk hle, WorkingOrder.reduced]
  split
  · -- the fill that completes an order is an erasure
    rename_i hq
    subst hq
    have herase := eraseWorkingOrder_some ha hk
    rw [eraseWorkingOrder_eq ha hk] at herase
    refine ⟨herase, ?_⟩
    rw [client_withWorkingOrders, client_updateClient, if_pos rfl]
    simp
  · rename_i hq
    have hrest : (w.remainingQuantity - q).toNat = w.remainingQuantity.toNat - q.toNat :=
      UInt32.toNat_sub_of_le _ _ hle
    have hne : w.remainingQuantity.toNat ≠ q.toNat := fun h => hq (UInt32.toNat_inj.mp h.symm)
    refine ⟨.of_update (k := ⟨c, x, id⟩) ?_ (fun k' => lookup_insert_eq _ _ k' _) fun y => ?_, ?_⟩
    · refine ha.change (k := ⟨c, x, id⟩) _ _ (some w)
        (some { w with remainingQuantity := w.remainingQuantity - q }) (fun g => tally_update hk)
        (fun k' w' h => ?_) rfl (fun s => ?_) fun y s hy => ?_
      · rw [lookup_insert_eq] at h
        split at h
        · cases h
          apply UInt32.lt_iff_toNat_lt.mpr
          rw [hrest, UInt32.toNat_zero]
          omega
        · exact ha.positive k' w' h
      · rw [shrink_openQuantity]
        by_cases hs : s = w.side
        · subst hs
          simp only [RiskEngine.state, true_and, share, amount, Option.map_some, Option.getD_some,
            if_true] at *
          omega
        · simp [share, amount, hs, Ne.symm hs, RiskEngine.state]
      · rw [shrink_symbol _ _ _ _ _ hy]
        rfl
    · rw [shrink_position]
      rfl
    · rw [client_withWorkingOrders, client_updateClient, if_pos rfl]
      simp

/-- The client of an order that starts to rest. -/
def ClientState.join (client : ClientState) (x : List UInt8) (s : Side) (q : Quantity) :
    ClientState :=
  { client.updateSymbol x fun state =>
      state.setOpenQuantity (saturatingAdd (state.openQuantity s) q.toUInt64) s with
    openOrders := client.openOrders + 1
    grossOpenQuantity := saturatingAdd client.grossOpenQuantity q.toUInt64 }

section Join

variable (client : ClientState) (x y : List UInt8) (s t : Side) (q : Quantity)

@[simp] theorem join_openOrders : (client.join x s q).openOrders = client.openOrders + 1 := rfl
@[simp] theorem join_grossOpenQuantity : (client.join x s q).grossOpenQuantity =
    saturatingAdd client.grossOpenQuantity q.toUInt64 := rfl

theorem join_symbol :
    (client.join x s q).symbol y =
      if y = x then (client.symbol x).setOpenQuantity
        (saturatingAdd ((client.symbol x).openQuantity s) q.toUInt64) s
      else client.symbol y :=
  symbol_updateSymbol client x y fun state =>
    state.setOpenQuantity (saturatingAdd (state.openQuantity s) q.toUInt64) s

end Join

theorem onOrderResting_eq {c : RiskClientId} {x : List UInt8} {id : OrderId} {side : Side}
    {price : Price} {q : Quantity} (hk : risk.workingOrders.lookup ⟨c, x, id⟩ = none)
    (hc : c ≠ invalidRiskClientId) (hq : 0 < q) :
    risk.onOrderResting c x id side price q =
      { risk.updateClient c (fun client => client.join x side q) with
        workingOrders := risk.workingOrders.insert ⟨c, x, id⟩ ⟨side, price, q⟩ } := by
  have hq0 : q ≠ 0 := fun h => by simp [h] at hq
  have hno : ¬ (c = invalidRiskClientId ∨ q = 0) := fun h => h.elim hc hq0
  rw [RiskEngine.onOrderResting, if_neg hno]
  simp only [eraseWorkingOrder_none hk]
  rfl

/-- An order that starts to rest joins the aggregates, which have room for it. -/
theorem onOrderResting_ok {c : RiskClientId} {x : List UInt8} {id : OrderId} {side : Side}
    {price : Price} {q : Quantity} (ha : Accounted risk)
    (hk : risk.workingOrders.lookup ⟨c, x, id⟩ = none) (hc : c ≠ invalidRiskClientId) (hq : 0 < q)
    (horders : (risk.client c).openOrders.toNat + 1 < 2 ^ 64)
    (hopen : ((risk.state c x).openQuantity side).toNat + q.toNat < 2 ^ 64) :
    Adjusted risk (risk.onOrderResting c x id side price q) ⟨c, x, id⟩ (some ⟨side, price, q⟩) ∧
      ((risk.onOrderResting c x id side price q).client c).grossOpenQuantity =
        saturatingAdd (risk.client c).grossOpenQuantity q.toUInt64 := by
  rw [onOrderResting_eq hk hc hq]
  refine ⟨.of_update (k := ⟨c, x, id⟩) ?_ (fun k' => lookup_insert_eq _ _ k' _) fun y => ?_, ?_⟩
  · refine ha.change (k := ⟨c, x, id⟩) _ _ none (some ⟨side, price, q⟩) (fun g => ?_)
      (fun k' w' h => ?_) ?_ (fun s => ?_) fun y s hy => ?_
    · rw [tally_insert hk]
      simp only [share, Option.map_some, Option.getD_some, Option.map_none, Option.getD_none]
      omega
    · rw [lookup_insert_eq] at h
      split at h
      · cases h
        exact hq
      · exact ha.positive k' w' h
    · rw [join_openOrders, UInt64.toNat_add, UInt64.toNat_one, Nat.mod_eq_of_lt horders]
      simp only [share, Option.map_some, Option.getD_some, Option.map_none, Option.getD_none]
    · rw [join_symbol, if_pos rfl, openQuantity_setOpenQuantity]
      split
      · rename_i hs
        subst hs
        rw [saturatingAdd_toNat, UInt32.toNat_toUInt64, Nat.min_eq_left]
        · simp [share, amount, RiskEngine.state]
        · exact Nat.le_sub_one_of_lt hopen
      · rename_i hs
        simp [share, amount, Ne.symm hs, RiskEngine.state]
    · rw [join_symbol, if_neg hy]
      rfl
  · rw [join_symbol]
    split
    · rename_i hy
      rw [position_setOpenQuantity, hy]
      rfl
    · rfl
  · rw [client_withWorkingOrders, client_updateClient, if_pos rfl, join_grossOpenQuantity]

end Operations

end ExchangeLab

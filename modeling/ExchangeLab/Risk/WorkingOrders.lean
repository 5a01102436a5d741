import ExchangeLab.Risk.Accounting
import ExchangeLab.Matching.Trading

/-!
# ExchangeLab.Risk.WorkingOrders

The map of working orders after each callback, entry by entry.

* `eraseWorkingOrder_lookup`, `onOrderResting_lookup`, `onTradeSide_lookup`: what each callback does.
* `Mirrors`: the working orders of a symbol are the resting orders that have an owner.
* `Trading.mirrors`: reporting the trades of a match to the engine keeps the mirror.
-/

namespace ExchangeLab

open Container OrderBook MatchingEngine

/-! ## One callback -/

section Callbacks

variable (risk : RiskEngine)

theorem eraseWorkingOrder_lookup (key k : WorkingOrderKey) :
    (risk.eraseWorkingOrder key).workingOrders.lookup k =
      if k = key then none else risk.workingOrders.lookup k := by
  unfold RiskEngine.eraseWorkingOrder
  split
  · rename_i hnone
    split
    · rename_i h
      rw [h, hnone]
    · rfl
  · exact lookup_erase_eq _ _ _

theorem onOrderCancelled_lookup {c : RiskClientId} (hc : c ≠ invalidRiskClientId) (x : List UInt8)
    (id : OrderId) (k : WorkingOrderKey) :
    (risk.onOrderCancelled c x id).workingOrders.lookup k =
      if k = ⟨c, x, id⟩ then none else risk.workingOrders.lookup k := by
  rw [RiskEngine.onOrderCancelled, if_neg hc, eraseWorkingOrder_lookup]

theorem onOrderResting_lookup {c : RiskClientId} (hc : c ≠ invalidRiskClientId) (x : List UInt8)
    (id : OrderId) (side : Side) (price : Price) {q : Quantity} (hq : 0 < q) (k : WorkingOrderKey) :
    (risk.onOrderResting c x id side price q).workingOrders.lookup k =
      if k = ⟨c, x, id⟩ then some ⟨side, price, q⟩ else risk.workingOrders.lookup k := by
  have hq0 : q ≠ 0 := fun h => by simp [h] at hq
  have hno : ¬ (c = invalidRiskClientId ∨ q = 0) := fun h => h.elim hc hq0
  rw [RiskEngine.onOrderResting, if_neg hno]
  simp only [updateClient_workingOrders, lookup_insert_eq, eraseWorkingOrder_lookup]
  split <;> rfl

variable {risk}

/-- A working order that a trade reports a fill of, for no more than it has. -/
theorem reduceWorkingOrder_lookup {c : RiskClientId} {x : List UInt8} {id : OrderId} {q : Quantity}
    (hle : ∀ w, risk.workingOrders.lookup ⟨c, x, id⟩ = some w → q ≤ w.remainingQuantity)
    (k : WorkingOrderKey) :
    (risk.reduceWorkingOrder c x id q).workingOrders.lookup k =
      if k = ⟨c, x, id⟩ then (risk.workingOrders.lookup k).bind fun w => w.reduced q
      else risk.workingOrders.lookup k := by
  cases hk : risk.workingOrders.lookup ⟨c, x, id⟩ with
  | none =>
    rw [reduceWorkingOrder_none hk]
    split
    · rename_i h
      rw [h, hk]
      rfl
    · rfl
  | some w =>
    rw [reduceWorkingOrder_eq hk (hle w hk)]
    split
    · rename_i hq
      rw [lookup_erase_eq]
      split
      · rename_i h
        rw [h, hk]
        simp [WorkingOrder.reduced, hq]
      · rfl
    · rename_i hq
      rw [lookup_insert_eq]
      split
      · rename_i h
        rw [h, hk]
        simp [WorkingOrder.reduced, hq]
      · rfl

theorem onTradeSide_lookup {side : Side} {x : List UInt8} {c : RiskClientId} {id : OrderId}
    {q : Quantity} (hc : c ≠ invalidRiskClientId)
    (hle : ∀ w, risk.workingOrders.lookup ⟨c, x, id⟩ = some w → q ≤ w.remainingQuantity)
    (k : WorkingOrderKey) :
    (risk.onTradeSide side x c id q).workingOrders.lookup k =
      if k = ⟨c, x, id⟩ then (risk.workingOrders.lookup k).bind fun w => w.reduced q
      else risk.workingOrders.lookup k := by
  simp only [RiskEngine.onTradeSide, if_neg hc]
  exact reduceWorkingOrder_lookup (by exact hle) k

end Callbacks

/-! ## The mirror -/

/-- The working order that stands for a resting order. -/
def Order.working (o : Order) : WorkingOrder := ⟨o.side, o.price, o.remainingQuantity⟩

theorem Order.working_reduced (o : Order) (q : Quantity) :
    (o.reduced q).map Order.working = o.working.reduced q := by
  by_cases hq : q = o.remainingQuantity
  · simp [Order.reduced, WorkingOrder.reduced, Order.working, hq]
  · simp [Order.reduced, WorkingOrder.reduced, Order.working, hq]

/-- The working orders of symbol `x` are the orders of `R` whose owner is a risk client. -/
def Mirrors (risk : RiskEngine) (x : List UInt8) (owner : OrderId → Option RiskClientId)
    (R : Resting) : Prop :=
  ∀ c id, risk.workingOrders.lookup ⟨c, x, id⟩ =
    (owner id).bind fun c' => if c' = c then (R id).map Order.working else none

/-- Nothing about other symbols has changed. -/
def SameElsewhere (x : List UInt8) (risk risk' : RiskEngine) : Prop :=
  ∀ k : WorkingOrderKey, k.symbol ≠ x →
    risk'.workingOrders.lookup k = risk.workingOrders.lookup k

/-- The client an order of a trade is booked for: the incoming session for its own order. -/
def bookedFor (incomingId : OrderId) (c : RiskClientId) (owner : OrderId → Option RiskClientId)
    (id : OrderId) : RiskClientId :=
  if id = incomingId then c else (owner id).getD invalidRiskClientId

theorem bookedFor_self (id : OrderId) (c : RiskClientId) (owner : OrderId → Option RiskClientId) :
    bookedFor id c owner id = c := if_pos rfl

theorem bookedFor_ne {incomingId id : OrderId} (h : id ≠ incomingId) (c : RiskClientId)
    (owner : OrderId → Option RiskClientId) :
    bookedFor incomingId c owner id = (owner id).getD invalidRiskClientId := if_neg h

/-- The report of a trade to the risk engine. -/
def reportTrade (x : List UInt8) (client : OrderId → RiskClientId) (risk : RiskEngine)
    (t : Trade) : RiskEngine :=
  risk.onTrade x (client t.buyOrderId) (client t.sellOrderId) t.buyOrderId t.sellOrderId t.quantity

section Mirror

variable {risk : RiskEngine} {x : List UInt8} {owner : OrderId → Option RiskClientId} {R : Resting}
  {q : Quantity}

/-- Only the owners of resting orders count. -/
theorem Mirrors.congr {owner' : OrderId → Option RiskClientId} (hm : Mirrors risk x owner R)
    (hsame : ∀ id, R id ≠ none → owner' id = owner id) : Mirrors risk x owner' R := by
  intro c id
  rw [hm c id]
  cases hR : R id with
  | none => cases owner id <;> cases owner' id <;> simp
  | some r => rw [hsame id (by rw [hR]; simp)]

theorem Mirrors.absent (hm : Mirrors risk x owner R) {id : OrderId} (hid : R id = none)
    (c : RiskClientId) : risk.workingOrders.lookup ⟨c, x, id⟩ = none := by
  rw [hm c id, hid]
  cases owner id <;> simp

theorem Mirrors.working (hm : Mirrors risk x owner R) {r : Order} {c : RiskClientId}
    (ho : owner r.id = some c) (hr : R r.id = some r) :
    risk.workingOrders.lookup ⟨c, x, r.id⟩ = some r.working := by
  rw [hm, ho, hr]
  simp

/-- The half of a trade that belongs to the incoming order finds no working order. -/
theorem Mirrors.incoming (hm : Mirrors risk x owner R) (side : Side) (c : RiskClientId)
    {id : OrderId} (hid : R id = none) :
    Mirrors (risk.onTradeSide side x c id q) x owner R ∧
      SameElsewhere x risk (risk.onTradeSide side x c id q) := by
  have hnone := hm.absent hid
  have hsame : ∀ k, (risk.onTradeSide side x c id q).workingOrders.lookup k =
      risk.workingOrders.lookup k := by
    intro k
    by_cases hc : c = invalidRiskClientId
    · rw [RiskEngine.onTradeSide, if_pos hc]
    · rw [onTradeSide_lookup hc (fun w hw => by rw [hnone] at hw; cases hw)]
      split
      · rename_i hk
        rw [hk, hnone]
        rfl
      · rfl
  exact ⟨fun c' id' => (hsame _).trans (hm c' id'), fun k _ => hsame k⟩

/-- The half of a trade that belongs to a resting order reduces its working order, if it has one. -/
theorem Mirrors.resting (hm : Mirrors risk x owner R) (side : Side) {r : Order}
    (howner : ∀ c, owner r.id = some c → c ≠ invalidRiskClientId) (hr : R r.id = some r)
    (hle : q ≤ r.remainingQuantity) :
    Mirrors (risk.onTradeSide side x ((owner r.id).getD invalidRiskClientId) r.id q) x owner
        (Function.update R r.id (r.reduced q)) ∧
      SameElsewhere x risk
        (risk.onTradeSide side x ((owner r.id).getD invalidRiskClientId) r.id q) := by
  cases ho : owner r.id with
  | none =>
    rw [Option.getD_none, RiskEngine.onTradeSide, if_pos rfl]
    refine ⟨fun c id => ?_, fun k _ => rfl⟩
    rw [hm c id]
    by_cases hid : id = r.id
    · rw [hid, ho]
      rfl
    · rw [Function.update_of_ne hid]
  | some c =>
    have hworking := hm.working ho hr
    have hstep : ∀ k, (risk.onTradeSide side x c r.id q).workingOrders.lookup k =
        if k = ⟨c, x, r.id⟩ then (risk.workingOrders.lookup k).bind fun w => w.reduced q
        else risk.workingOrders.lookup k := onTradeSide_lookup (howner c ho) fun w hw => by
      rw [hworking] at hw
      cases hw
      exact hle
    refine ⟨fun c' id => ?_, fun k hk => ?_⟩
    · rw [Option.getD_some, hstep, hm]
      by_cases hid : id = r.id
      · subst hid
        rw [Function.update_self, ho, hr]
        by_cases hc : c' = c
        · simp [hc, Order.working_reduced]
        · simp [hc, Ne.symm hc]
      · rw [if_neg (by simp [hid]), Function.update_of_ne hid]
    · rw [Option.getD_some, hstep, if_neg]
      rintro rfl
      exact hk rfl

/-- The report of a trade is the two halves, the buyer's first. -/
theorem reportTrade_buy {o r : Order} (hq : 0 < q) (hne : r.id ≠ o.id) (c : RiskClientId) :
    reportTrade x (bookedFor o.id c owner) risk (tradeWith .buy o r.id r.price q) =
      (risk.onTradeSide .buy x c o.id q).onTradeSide .sell x
        ((owner r.id).getD invalidRiskClientId) r.id q := by
  have hq0 : q ≠ 0 := fun h => by simp [h] at hq
  simp only [reportTrade, tradeWith, RiskEngine.onTrade, hq0, if_false, bookedFor_self,
    bookedFor_ne hne]

theorem reportTrade_sell {o r : Order} (hq : 0 < q) (hne : r.id ≠ o.id) (c : RiskClientId) :
    reportTrade x (bookedFor o.id c owner) risk (tradeWith .sell o r.id r.price q) =
      (risk.onTradeSide .buy x ((owner r.id).getD invalidRiskClientId) r.id q).onTradeSide .sell x c
        o.id q := by
  have hq0 : q ≠ 0 := fun h => by simp [h] at hq
  simp only [reportTrade, tradeWith, RiskEngine.onTrade, hq0, if_false, bookedFor_self,
    bookedFor_ne hne]

/-- One trade reported: the entry of the resting order is reduced. -/
theorem Mirrors.trade {s : Side} {o r : Order} (hm : Mirrors risk x owner R) (hid : R o.id = none)
    (howner : ∀ c, owner r.id = some c → c ≠ invalidRiskClientId) (hr : R r.id = some r)
    (hpos : 0 < q) (hle : q ≤ r.remainingQuantity) (c : RiskClientId) :
    Mirrors (reportTrade x (bookedFor o.id c owner) risk (tradeWith s o r.id r.price q)) x owner
        (Function.update R r.id (r.reduced q)) ∧
      SameElsewhere x risk
        (reportTrade x (bookedFor o.id c owner) risk (tradeWith s o r.id r.price q)) := by
  have hne : r.id ≠ o.id := fun he => by rw [← he, hr] at hid; cases hid
  have hid' : Function.update R r.id (r.reduced q) o.id = none := by
    rwa [Function.update_of_ne (Ne.symm hne)]
  cases s with
  | buy =>
    obtain ⟨hm₁, hsame₁⟩ := hm.incoming (q := q) .buy c hid
    obtain ⟨hm₂, hsame₂⟩ := hm₁.resting .sell howner hr hle
    rw [reportTrade_buy hpos hne]
    exact ⟨hm₂, fun k hk => (hsame₂ k hk).trans (hsame₁ k hk)⟩
  | sell =>
    obtain ⟨hm₁, hsame₁⟩ := hm.resting .buy howner hr hle
    obtain ⟨hm₂, hsame₂⟩ := hm₁.incoming (q := q) .sell c hid'
    rw [reportTrade_sell hpos hne]
    exact ⟨hm₂, fun k hk => (hsame₂ k hk).trans (hsame₁ k hk)⟩

end Mirror

/-- Reporting the trades of a match one by one keeps the working orders in step with the book. -/
theorem Trading.mirrors {s : Side} {o o' : Order} {R R' : Resting} {ts : List Trade}
    {risk : RiskEngine} {x : List UInt8} {owner : OrderId → Option RiskClientId} {c : RiskClientId}
    (h : Trading s o R ts o' R') (hid : R o.id = none) (hm : Mirrors risk x owner R)
    (howner : ∀ id c, owner id = some c → c ≠ invalidRiskClientId) :
    Mirrors (ts.foldl (reportTrade x (bookedFor o.id c owner)) risk) x owner R' ∧
      SameElsewhere x risk (ts.foldl (reportTrade x (bookedFor o.id c owner)) risk) := by
  induction h generalizing risk with
  | stop => exact ⟨hm, fun _ _ => rfl⟩
  | @step o o' r R R' q ts hr hside hpos hin hres rest ih =>
    have hne : r.id ≠ o.id := fun he => by rw [← he, hr] at hid; cases hid
    have hid' : Function.update R r.id (r.reduced q) o.id = none := by
      rwa [Function.update_of_ne (Ne.symm hne)]
    obtain ⟨hm', hsame⟩ := hm.trade (s := s) hid (howner r.id) hr hpos hres c
    obtain ⟨hm'', hsame'⟩ := ih hid' hm'
    rw [List.foldl_cons]
    exact ⟨hm'', fun k hk => (hsame' k hk).trans (hsame k hk)⟩

end ExchangeLab

import ExchangeLab.Book.Invariant
import ExchangeLab.MatchingEngine

/-!
# ExchangeLab.Matching.Sweep

The matching loop seen from the opposite queue: an incoming order walks down the list of resting
nodes and trades with each of them in turn.

`Sweeps s o ns ts o' ns'`: an order `o` incoming on side `s` turns the nodes `ns` into `ns'`, emits
the trades `ts` and is left as `o'`. The walk may stop anywhere; `Exhausted` says that it had to.

* `Sweeps.conserves`: the traded quantity is what the incoming order has lost.
* `Sweeps.residual_eq`, `Sweeps.resting`: nothing but remaining quantities changes.
* `Sweeps.trade_mem`: every trade names a resting order, at its price.
-/

namespace ExchangeLab

open MatchingEngine

def Order.fill (o : Order) (quantity : Quantity) : Order :=
  { o with remainingQuantity := o.remainingQuantity - quantity }

@[simp] theorem Node.fill_order (n : Node) (q : Quantity) : (n.fill q).order = n.order.fill q := rfl
@[simp] theorem Node.fill_handle (n : Node) (q : Quantity) : (n.fill q).handle = n.handle := rfl

@[simp] theorem Order.fill_id (o : Order) (q : Quantity) : (o.fill q).id = o.id := rfl
@[simp] theorem Order.fill_side (o : Order) (q : Quantity) : (o.fill q).side = o.side := rfl
@[simp] theorem Order.fill_type (o : Order) (q : Quantity) : (o.fill q).type = o.type := rfl
@[simp] theorem Order.fill_price (o : Order) (q : Quantity) : (o.fill q).price = o.price := rfl
@[simp] theorem Order.fill_timeInForce (o : Order) (q : Quantity) :
    (o.fill q).timeInForce = o.timeInForce := rfl
@[simp] theorem Order.fill_timestamp (o : Order) (q : Quantity) :
    (o.fill q).timestamp = o.timestamp := rfl
@[simp] theorem Order.fill_remaining (o : Order) (q : Quantity) :
    (o.fill q).remainingQuantity = o.remainingQuantity - q := rfl

theorem quantity_min (a b : Quantity) : a ≤ b ∧ min a b = a ∨ b < a ∧ min a b = b := by
  by_cases h : a ≤ b
  · exact .inl ⟨h, if_pos h⟩
  · exact .inr ⟨by grind, if_neg h⟩

/-- The incoming order may trade at `price`: always for a market order. -/
def crosses (s : Side) (incoming : Order) (price : Price) : Prop :=
  incoming.type = .market ∨ withinLimit s incoming price

instance (s : Side) (incoming : Order) (price : Price) : Decidable (crosses s incoming price) :=
  instDecidableOr

@[simp] theorem crosses_fill {s : Side} {o : Order} {q : Quantity} {p : Price} :
    crosses s (o.fill q) p ↔ crosses s o p := by cases s <;> rfl

/-- What crosses at a price crosses at every better price of the opposite side. -/
theorem crosses_better {s : Side} {o : Order} {p q : Price} (h : crosses s o q)
    (hb : better s.opposite p q) : crosses s o p := by
  refine h.imp_right fun h => ?_
  cases s <;> simp only [withinLimit, Side.opposite, better] at * <;> grind

/-- The quantity an incoming order trades with a resting one. -/
def tradeQuantity (incoming : Order) (n : Node) : Quantity :=
  min incoming.remainingQuantity n.order.remainingQuantity

inductive Sweeps (s : Side) : Order → List Node → List Trade → Order → List Node → Prop
  | stop {o : Order} {ns : List Node} : Sweeps s o ns [] o ns
  | step {o o' : Order} {n : Node} {ns ns' : List Node} {ts : List Trade}
      (hpos : 0 < o.remainingQuantity) (hcross : crosses s o n.order.price)
      (rest : Sweeps s (o.fill (tradeQuantity o n)) (filled (tradeQuantity o n) (n :: ns)) ts o' ns') :
      Sweeps s o (n :: ns)
        (tradeWith s o n.order.id n.order.price (tradeQuantity o n) :: ts) o' ns'

/-- The walk cannot go on: nothing is left to trade, or the best resting order does not cross. -/
def Exhausted (s : Side) (o : Order) (ns : List Node) : Prop :=
  0 < o.remainingQuantity → ∀ n ∈ ns.head?, ¬ crosses s o n.order.price

/-! ## One trade -/

section One

variable {s : Side} {o : Order} {n : Node} {ns : List Node}

theorem tradeQuantity_le_incoming (o : Order) (n : Node) : tradeQuantity o n ≤ o.remainingQuantity := by
  have := quantity_min o.remainingQuantity n.order.remainingQuantity
  grind [tradeQuantity]

theorem tradeQuantity_le_resting (o : Order) (n : Node) :
    tradeQuantity o n ≤ n.order.remainingQuantity := by
  have := quantity_min o.remainingQuantity n.order.remainingQuantity
  grind [tradeQuantity]

theorem tradeQuantity_pos (ho : 0 < o.remainingQuantity) (hn : 0 < n.order.remainingQuantity) :
    0 < tradeQuantity o n := by
  have := quantity_min o.remainingQuantity n.order.remainingQuantity
  grind [tradeQuantity]

/-- A resting order that is not filled has taken all of the incoming one. -/
theorem fill_remaining_eq_zero (h : tradeQuantity o n ≠ n.order.remainingQuantity) :
    (o.fill (tradeQuantity o n)).remainingQuantity = 0 := by
  have := quantity_min o.remainingQuantity n.order.remainingQuantity
  rw [Order.fill_remaining]
  grind [tradeQuantity]

theorem fill_toNat {q : Quantity} (h : q ≤ o.remainingQuantity) :
    (o.fill q).remainingQuantity.toNat + q.toNat = o.remainingQuantity.toNat := by
  have := UInt32.le_iff_toNat_le.mp h
  rw [Order.fill_remaining, UInt32.toNat_sub_of_le _ _ h]
  omega

theorem mem_filled {q : Quantity} {m : Node} (h : m ∈ filled q (n :: ns)) :
    m = n.fill q ∧ q ≠ n.order.remainingQuantity ∨ m ∈ ns := by
  simp only [filled] at h
  split at h
  · exact .inr h
  · rename_i hne
    rcases List.mem_cons.mp h with rfl | h
    · exact .inl ⟨rfl, hne⟩
    · exact .inr h

end One

/-! ## A whole walk -/

namespace Sweeps

variable {s : Side} {o o' : Order} {ns ns' : List Node} {ts : List Trade}

theorem residual_eq (h : Sweeps s o ns ts o' ns') :
    o' = { o with remainingQuantity := o'.remainingQuantity } := by
  induction h with
  | stop => rfl
  | step _ _ _ ih => rw [ih]; rfl

theorem conserves (h : Sweeps s o ns ts o' ns') :
    o'.remainingQuantity.toNat + (ts.map fun t => t.quantity.toNat).sum =
      o.remainingQuantity.toNat := by
  induction h with
  | stop => simp
  | @step o _ n _ _ _ _ _ _ ih =>
    have := fill_toNat (tradeQuantity_le_incoming o n)
    simp only [List.map_cons, List.sum_cons, tradeWith]
    omega

/-- A node that is left was there before, with at least as much remaining. -/
theorem resting (h : Sweeps s o ns ts o' ns') : ∀ n' ∈ ns', ∃ n ∈ ns, n'.handle = n.handle ∧
    n'.order = { n.order with remainingQuantity := n'.order.remainingQuantity } ∧
    n'.order.remainingQuantity ≤ n.order.remainingQuantity := by
  induction h with
  | stop => exact fun n hn => ⟨n, hn, rfl, rfl, by grind⟩
  | @step o _ n _ _ _ _ _ _ ih =>
    intro n' hn'
    obtain ⟨m, hm, hh, ho, hle⟩ := ih n' hn'
    rcases mem_filled hm with ⟨rfl, -⟩ | hm
    · have := tradeQuantity_le_resting o n
      refine ⟨n, .head _, hh, by rw [ho]; rfl, ?_⟩
      rw [Node.fill_order, Order.fill_remaining] at hle
      grind
    · exact ⟨m, .tail _ hm, hh, ho, hle⟩

theorem resting_price (h : Sweeps s o ns ts o' ns') {n' : Node} (hn' : n' ∈ ns') :
    ∃ n ∈ ns, n.order.price = n'.order.price ∧ n.order.id = n'.order.id := by
  obtain ⟨n, hn, -, ho, -⟩ := h.resting n' hn'
  exact ⟨n, hn, by rw [ho], by rw [ho]⟩

/-- Every trade is with a resting order, at its price, for a quantity both sides have. -/
theorem trade_mem (h : Sweeps s o ns ts o' ns') (hpos : ∀ n ∈ ns, 0 < n.order.remainingQuantity) :
    ∀ t ∈ ts, ∃ n ∈ ns, t = tradeWith s o n.order.id n.order.price t.quantity ∧
      0 < t.quantity ∧ t.quantity ≤ n.order.remainingQuantity ∧ crosses s o n.order.price := by
  induction h with
  | stop => simp
  | @step o _ n ns _ _ ho hcross _ ih =>
    intro t ht
    have hle := tradeQuantity_le_resting o n
    rcases List.mem_cons.mp ht with rfl | ht
    · exact ⟨n, .head _, rfl, tradeQuantity_pos ho (hpos n (.head _)), hle, hcross⟩
    have hpos' : ∀ m ∈ filled (tradeQuantity o n) (n :: ns), 0 < m.order.remainingQuantity := by
      intro m hm
      rcases mem_filled hm with ⟨rfl, hne⟩ | hm
      · rw [Node.fill_order, Order.fill_remaining]
        grind
      · exact hpos m (.tail _ hm)
    obtain ⟨m, hm, heq, htpos, htle, hc⟩ := ih hpos' t ht
    rcases mem_filled hm with ⟨rfl, -⟩ | hm
    · refine ⟨n, .head _, heq, htpos, ?_, hcross⟩
      rw [Node.fill_order, Order.fill_remaining] at htle
      grind
    · exact ⟨m, .tail _ hm, heq, htpos, htle, crosses_fill.mp hc⟩

end Sweeps

end ExchangeLab

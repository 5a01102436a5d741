import ExchangeLab.Matching.Invariants
import Mathlib.Logic.Function.Basic

/-!
# ExchangeLab.Matching.Trading

Matching seen by order id. The server looks orders up by id only, so for it a book is the map from
ids to resting orders, and a match is a series of trades that each reduce one entry.

* `Trading s o R ts o' R'`: the order `o`, incoming on side `s`, trades `ts` with the resting orders
  `R`, which become `R'`.
* `Processed.trading`: what the engine does to a book is a series of trades.
* `Processed.findOrder_incoming`: the incoming order rests afterwards exactly when it may and
  something is left of it.
-/

namespace ExchangeLab

open Container OrderBook MatchingEngine

/-- What is left of a resting order that trades `q`. -/
def Order.reduced (o : Order) (q : Quantity) : Option Order :=
  if q = o.remainingQuantity then none else some (o.fill q)

abbrev Resting := OrderId → Option Order

inductive Trading (s : Side) : Order → Resting → List Trade → Order → Resting → Prop
  | stop {o : Order} {R : Resting} : Trading s o R [] o R
  | step {o o' r : Order} {R R' : Resting} {q : Quantity} {ts : List Trade} (hr : R r.id = some r)
      (hside : r.side = s.opposite) (hpos : 0 < q) (hin : q ≤ o.remainingQuantity)
      (hres : q ≤ r.remainingQuantity)
      (rest : Trading s (o.fill q) (Function.update R r.id (r.reduced q)) ts o' R') :
      Trading s o R (tradeWith s o r.id r.price q :: ts) o' R'

/-! ## Lookups in a list of nodes -/

def lookupIn (ns : List Node) : Resting :=
  fun id => (ns.find? fun n => n.order.id = id).map Node.order

theorem lookupIn_eq_some {ns : List Node} (hids : (ns.map fun n => n.order.id).Nodup) {id : OrderId}
    {o : Order} : lookupIn ns id = some o ↔ ∃ n ∈ ns, n.order.id = id ∧ n.order = o := by
  constructor
  · intro h
    obtain ⟨n, hn, rfl⟩ := Option.map_eq_some_iff.mp h
    exact ⟨n, List.mem_of_find?_eq_some hn, by simpa using List.find?_some hn, rfl⟩
  · rintro ⟨n, hn, rfl, rfl⟩
    unfold lookupIn
    cases hf : ns.find? (fun m => m.order.id = n.order.id) with
    | none =>
      rw [List.find?_eq_none] at hf
      exact absurd (decide_eq_true rfl) (hf n hn)
    | some m =>
      have hm : m.order.id = n.order.id := by simpa using List.find?_some hf
      rw [List.inj_on_of_nodup_map hids (List.mem_of_find?_eq_some hf) hn hm]
      rfl

theorem lookupIn_eq_none {ns : List Node} {id : OrderId} :
    lookupIn ns id = none ↔ ∀ n ∈ ns, n.order.id ≠ id := by
  simp [lookupIn]

theorem lookupIn_append {ms : List Node} {id : OrderId} (h : ∀ n ∈ ms, n.order.id ≠ id)
    (ns : List Node) : lookupIn (ms ++ ns) id = lookupIn ns id := by
  have hskip : ms.find? (fun n => n.order.id = id) = none := by simpa using h
  rw [lookupIn, List.find?_append, hskip, Option.none_or, lookupIn]

/-- A trade with the first node is a reduction at its id. -/
theorem lookupIn_filled {n : Node} {ns others : List Node} (q : Quantity)
    (hids : (((n :: ns) ++ others).map fun n => n.order.id).Nodup) :
    lookupIn (filled q (n :: ns) ++ others) =
      Function.update (lookupIn ((n :: ns) ++ others)) n.order.id (n.order.reduced q) := by
  rw [List.cons_append, List.map_cons, List.nodup_cons] at hids
  have hne : ∀ m ∈ ns ++ others, m.order.id ≠ n.order.id := fun m hm h =>
    hids.1 (h ▸ List.mem_map_of_mem hm)
  funext id
  by_cases hid : id = n.order.id
  · subst hid
    rw [Function.update_self, filled, Order.reduced]
    split
    · exact lookupIn_eq_none.mpr hne
    · simp [lookupIn]
  · rw [Function.update_of_ne hid, filled]
    split <;> simp [lookupIn, Ne.symm hid]

theorem Sweeps.trading {s : Side} {o o' : Order} {ns ns' others : List Node} {ts : List Trade}
    (h : Sweeps s o ns ts o' ns') (hids : ((ns ++ others).map fun n => n.order.id).Nodup)
    (hpos : ∀ n ∈ ns, 0 < n.order.remainingQuantity) (hside : ∀ n ∈ ns, n.order.side = s.opposite) :
    Trading s o (lookupIn (ns ++ others)) ts o' (lookupIn (ns' ++ others)) := by
  induction h with
  | stop => exact .stop
  | @step o o' n ns ns' ts ho hcross rest ih =>
    have hr : lookupIn ((n :: ns) ++ others) n.order.id = some n.order :=
      (lookupIn_eq_some hids).mpr ⟨n, .head _, rfl, rfl⟩
    refine .step hr (hside n (.head _)) (tradeQuantity_pos ho (hpos n (.head _)))
      (tradeQuantity_le_incoming o n) (tradeQuantity_le_resting o n) ?_
    rw [← lookupIn_filled _ hids]
    refine ih ?_ (fun m hm => ?_) fun m hm => ?_
    · simp only [filled]
      split
      · exact (List.nodup_cons.mp hids).2
      · exact hids
    · rcases mem_filled hm with ⟨rfl, hne⟩ | hm
      · have hle := tradeQuantity_le_resting o n
        rw [Node.fill_order, Order.fill_remaining]
        grind
      · exact hpos m (.tail _ hm)
    · rcases mem_filled hm with ⟨rfl, -⟩ | hm
      · exact hside n (.head _)
      · exact hside m (.tail _ hm)

/-! ## The trades of a book -/

section Book

variable {b b' : OrderBook} {o o' : Order} {ts : List Trade}

theorem lookupIn_perm {ns ns' : List Node} (h : ns.Perm ns')
    (hids : (ns.map fun n => n.order.id).Nodup) : lookupIn ns = lookupIn ns' := by
  have hids' : (ns'.map fun n => n.order.id).Nodup := (h.map _).nodup_iff.mp hids
  funext id
  apply Option.ext
  intro o
  rw [lookupIn_eq_some hids, lookupIn_eq_some hids']
  simp only [h.mem_iff]

theorem Consistent.findOrder_eq (hc : Consistent b) {ns : List Node} (h : b.allNodes.Perm ns) :
    b.findOrder = lookupIn ns := by
  rw [← lookupIn_perm h hc.ids_nodup]
  funext id
  apply Option.ext
  intro o
  rw [hc.findOrder_eq_some, lookupIn_eq_some hc.ids_nodup]

theorem Processed.nodes_perm (h : Processed o b ts o' b') :
    b'.allNodes.Perm
      (rested b.nextNode o' ++ (b'.nodes o.side.opposite ++ b.nodes o.side)) := by
  refine (allNodes_perm b' o.side).trans ((h.own.append_right _).trans ?_)
  rw [List.append_assoc]
  exact List.perm_append_comm.append_left _

/-- Taking a node out of the book removes its entry. -/
theorem Consistent.findOrder_extracted (hc : Consistent b) (hc' : Consistent b') {s : Side} {n : Node}
    (hn : n ∈ b.nodes s) (hself : b'.nodes s = (b.nodes s).filter fun m => m.handle ≠ n.handle)
    (hother : b'.nodes s.opposite = b.nodes s.opposite) :
    b'.findOrder = Function.update b.findOrder n.order.id none := by
  have hmem : ∀ m, m ∈ b'.allNodes ↔ m ∈ b.allNodes ∧ m.handle ≠ n.handle := by
    intro m
    rw [(allNodes_perm b' s).mem_iff, (allNodes_perm b s).mem_iff, hself, hother]
    have hopposite := hc.handle_ne_opposite hn (m := m)
    simp only [List.mem_append, List.mem_filter, decide_eq_true_eq]
    constructor
    · rintro (⟨hm, hne⟩ | hm)
      · exact ⟨.inl hm, hne⟩
      · exact ⟨.inr hm, hopposite hm⟩
    · rintro ⟨hm | hm, hne⟩
      · exact .inl ⟨hm, hne⟩
      · exact .inr hm
  funext id
  apply Option.ext
  intro o
  by_cases hid : id = n.order.id
  · subst hid
    rw [Function.update_self, hc'.findOrder_eq_some]
    refine ⟨?_, fun h => by cases h⟩
    rintro ⟨m, hm, hmid, -⟩
    obtain ⟨hm, hne⟩ := (hmem m).mp hm
    exact absurd (congrArg Node.handle (hc.eq_of_id hm (mem_allNodes_of hn) hmid)) hne
  · rw [Function.update_of_ne hid, hc'.findOrder_eq_some, hc.findOrder_eq_some]
    constructor
    · rintro ⟨m, hm, hmid⟩
      exact ⟨m, ((hmem m).mp hm).1, hmid⟩
    · rintro ⟨m, hm, hmid, ho⟩
      refine ⟨m, (hmem m).mpr ⟨hm, fun hh => hid ?_⟩, hmid, ho⟩
      rw [← hmid, hc.eq_of_handle hm (mem_allNodes_of hn) hh]

/-- The incoming order rests when it may and something of it is left. -/
theorem Processed.findOrder_incoming (h : Processed o b ts o' b') (hid : b.findOrder o.id = none)
    (hc : Consistent b) :
    b'.findOrder o.id =
      if 0 < o'.remainingQuantity ∧ mayRest o' = true then some o' else none := by
  have hids := (h.nodes_perm.map fun n => n.order.id).nodup_iff.mp h.consistent.ids_nodup
  rw [h.consistent.findOrder_eq h.nodes_perm]
  split
  · rename_i hrest
    exact (lookupIn_eq_some hids).mpr
      ⟨⟨b.nextNode, o'⟩, by simp [rested, hrest], h.sweeps.id_eq, rfl⟩
  · rename_i hrest
    rw [lookupIn_eq_none]
    intro n hn
    rw [hc.findOrder_eq_none] at hid
    simp only [rested, hrest, if_false, List.nil_append, List.mem_append] at hn
    rcases hn with hn | hn
    · obtain ⟨m, hm, -, hmid⟩ := h.sweeps.resting_price hn
      exact hmid ▸ hid m (mem_allNodes_of hm)
    · exact hid n (mem_allNodes_of hn)

/-- The engine trades the incoming order with the resting ones, and no other entry changes. -/
theorem Processed.trading (h : Processed o b ts o' b') (hid : b.findOrder o.id = none)
    (hc : Consistent b) :
    Trading o.side o b.findOrder ts o' (Function.update b'.findOrder o.id none) := by
  have hperm : b.allNodes.Perm (b.nodes o.side.opposite ++ b.nodes o.side) :=
    (allNodes_perm b o.side).trans List.perm_append_comm
  have hids := (hperm.map fun n => n.order.id).nodup_iff.mp hc.ids_nodup
  have htrading := h.sweeps.trading hids
    (fun n hn => (hc.nodes_rests hn).positive) (fun n hn => hc.side_of_mem hn)
  have hafter : lookupIn (b'.nodes o.side.opposite ++ b.nodes o.side) =
      Function.update b'.findOrder o.id none := by
    funext id
    by_cases he : id = o.id
    · subst he
      rw [Function.update_self, lookupIn_eq_none]
      intro n hn
      rw [hc.findOrder_eq_none] at hid
      rcases List.mem_append.mp hn with hn | hn
      · obtain ⟨m, hm, -, hmid⟩ := h.sweeps.resting_price hn
        exact hmid ▸ hid m (mem_allNodes_of hm)
      · exact hid n (mem_allNodes_of hn)
    · rw [Function.update_of_ne he, h.consistent.findOrder_eq h.nodes_perm]
      refine (lookupIn_append (fun n hn => ?_) _).symm
      obtain ⟨-, rfl⟩ := mem_rested.mp hn
      exact fun hn => he (hn.symm.trans h.sweeps.id_eq)
  rw [hafter, ← hc.findOrder_eq hperm] at htrading
  exact htrading

end Book

/-! ## What trades leave alone -/

namespace Trading

variable {s : Side} {o o' : Order} {R R' : Resting} {ts : List Trade}

theorem id_eq (h : Trading s o R ts o' R') : o'.id = o.id := by
  induction h with
  | stop => rfl
  | step _ _ _ _ _ _ ih => exact ih

/-- An order that is gone was in one of the trades. -/
theorem traded (h : Trading s o R ts o' R') {id : OrderId} (hsome : R id ≠ none)
    (hnone : R' id = none) : ∃ t ∈ ts, t.buyOrderId = id ∨ t.sellOrderId = id := by
  induction h with
  | stop => exact absurd hnone hsome
  | @step o o' r R R' q ts hr hside hpos hin hres rest ih =>
    by_cases hid : id = r.id
    · refine ⟨_, .head _, ?_⟩
      cases s
      · exact .inr hid.symm
      · exact .inl hid.symm
    · rw [← Function.update_of_ne hid (r.reduced q) R] at hsome
      obtain ⟨t, ht, hor⟩ := ih hsome hnone
      exact ⟨t, .tail _ ht, hor⟩

/-- Trades bring no order into the book. -/
theorem none_of_none (h : Trading s o R ts o' R') {id : OrderId} (hnone : R id = none) :
    R' id = none := by
  induction h with
  | stop => exact hnone
  | @step o o' r R R' q ts hr hside hpos hin hres rest ih =>
    refine ih ?_
    have hid : id ≠ r.id := fun he => by rw [he, hr] at hnone; cases hnone
    rw [Function.update_of_ne hid, hnone]

end Trading

end ExchangeLab

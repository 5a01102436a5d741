import ExchangeLab.Dashboard
import ExchangeLab.Server.Ownership

/-!
# ExchangeLab.Server.Level3

The Level-3 feed reconstructs the books.

* `Shows orders b`: a subscriber's orders are those of the book `b`, and older ones come first.
* `Trading.tracked`: the execution events of a match, applied one by one, follow the orders that
  still rest; filled ones stay with a stale quantity until they are deleted.
* `Settling.shows`: executions, deletions and the residual's add together follow the book.
* `Shows.queueAt`: what is shown at a side and price is the queue of the book.
* `level3_reconstructs`: every run, with the feed in the order of its sequence numbers.
-/

namespace ExchangeLab

open Wire Protocol OrderBook MatchingEngine Container ExchangeServer Transition

/-- A resting order as the dashboard keeps it. -/
def Order.shown (o : Order) : Dashboard.Order := ⟨o.id, o.price, o.remainingQuantity.toNat, o.side⟩

namespace Dashboard

def ids (orders : List Order) : List OrderId := orders.map Order.orderId

section Map

variable {orders : List Order} {order e : Order} {id : OrderId}

theorem set_new (h : order.orderId ∉ ids orders) : set orders order = orders ++ [order] := by
  have hno : ¬ (orders.any fun other => other.orderId = order.orderId) = true := by
    simpa [ids] using h
  rw [set, if_neg hno]

theorem set_held (h : order.orderId ∈ ids orders) :
    set orders order =
      orders.map fun other => if other.orderId = order.orderId then order else other := by
  have hyes : (orders.any fun other => other.orderId = order.orderId) = true := by
    simpa [ids] using h
  rw [set, if_pos hyes]

theorem ids_set_held (h : order.orderId ∈ ids orders) : ids (set orders order) = ids orders := by
  rw [set_held h, ids, List.map_map]
  refine List.map_congr_left fun other _ => ?_
  simp only [Function.comp_apply]
  split
  · rename_i heq
    exact heq.symm
  · rfl

theorem mem_set_held (h : order.orderId ∈ ids orders) :
    order ∈ set orders order ∧
      ∀ e ∈ orders, e.orderId ≠ order.orderId → e ∈ set orders order := by
  rw [set_held h]
  obtain ⟨other, hother, hid⟩ := List.mem_map.mp h
  exact ⟨List.mem_map.mpr ⟨other, hother, if_pos hid⟩,
    fun e he hne => List.mem_map.mpr ⟨e, he, if_neg hne⟩⟩

theorem get_eq_none (h : id ∉ ids orders) : get orders id = none := by
  rw [get, List.find?_eq_none]
  intro order horder
  have hne : order.orderId ≠ id := fun hid => h (hid ▸ List.mem_map_of_mem horder)
  simpa using hne

theorem get_eq_some (h : get orders id = some order) : order ∈ orders ∧ order.orderId = id :=
  ⟨List.mem_of_find?_eq_some h, by simpa using List.find?_some h⟩

theorem held_of_mem (h : order ∈ orders) : order.orderId ∈ ids orders := List.mem_map_of_mem h

theorem get_of_mem (hnodup : (ids orders).Nodup) (h : order ∈ orders) :
    get orders order.orderId = some order := by
  rw [get]
  cases hf : orders.find? (fun other => other.orderId = order.orderId) with
  | none =>
    rw [List.find?_eq_none] at hf
    exact absurd (decide_eq_true rfl) (hf order h)
  | some other =>
    have hid : other.orderId = order.orderId := by simpa using List.find?_some hf
    rw [List.inj_on_of_nodup_map hnodup (List.mem_of_find?_eq_some hf) h hid]

/-- An execution keeps every key, in its place, and every other order. -/
theorem ids_executeOrder (quantity : Int) (orders : List Order) (id : OrderId) :
    ids (executeOrder quantity orders id) = ids orders := by
  unfold executeOrder
  split
  · rfl
  · rename_i order hget
    have hheld : order.orderId ∈ ids orders := held_of_mem (get_eq_some hget).1
    simp only
    split
    · exact ids_set_held (by exact hheld)
    · rfl

theorem mem_executeOrder_other (quantity : Int) (he : e ∈ orders) (hne : e.orderId ≠ id) :
    e ∈ executeOrder quantity orders id := by
  unfold executeOrder
  split
  · exact he
  · rename_i order hget
    obtain ⟨hmem, hid⟩ := get_eq_some hget
    have hheld : order.orderId ∈ ids orders := held_of_mem hmem
    simp only
    split
    · exact (mem_set_held (by exact hheld)).2 e he (by exact hid ▸ hne)
    · exact he

theorem executeOrder_absent (quantity : Int) (h : id ∉ ids orders) :
    executeOrder quantity orders id = orders := by
  rw [executeOrder, get_eq_none h]

theorem mem_executeOrder_self {quantity : Int} (hnodup : (ids orders).Nodup) (he : e ∈ orders)
    (hlt : quantity < e.quantity) :
    { e with quantity := e.quantity - quantity } ∈ executeOrder quantity orders e.orderId := by
  have hpos : e.quantity - quantity > 0 := by omega
  have hheld : e.orderId ∈ ids orders := held_of_mem he
  rw [executeOrder, get_of_mem hnodup he]
  simp only [if_pos hpos]
  exact (mem_set_held (by exact hheld)).1

end Map

end Dashboard

/-! ## What a subscriber shows of a book -/

/-- Of two ids, the order of the first arrived earlier. -/
def Arrived (b : OrderBook) (i j : OrderId) : Prop :=
  ∀ m ∈ b.allNodes, ∀ n ∈ b.allNodes, m.order.id = i → n.order.id = j → m.handle < n.handle

structure Shows (orders : List Dashboard.Order) (b : OrderBook) : Prop where
  nodup : (Dashboard.ids orders).Nodup
  mem : ∀ e, e ∈ orders ↔ ∃ o, b.findOrder o.id = some o ∧ o.shown = e
  arrived : (Dashboard.ids orders).Pairwise (Arrived b)

section Shows

variable {orders : List Dashboard.Order} {b b' : OrderBook} {s : Side}

theorem Consistent.findOrder_node (hc : Consistent b) {n : Node} (hn : n ∈ b.allNodes) :
    b.findOrder n.order.id = some n.order :=
  hc.findOrder_eq_some.mpr ⟨n, hn, rfl, rfl⟩

theorem Arrived.of_nodes {i j : OrderId} (h : Arrived b i j)
    (hnodes : ∀ n ∈ b'.allNodes, n.order.id = i ∨ n.order.id = j →
      ∃ m ∈ b.allNodes, m.order.id = n.order.id ∧ m.handle = n.handle) : Arrived b' i j := by
  intro m hm n hn hi hj
  obtain ⟨m', hm', hmi, hmh⟩ := hnodes m hm (.inl hi)
  obtain ⟨n', hn', hnj, hnh⟩ := hnodes n hn (.inr hj)
  rw [← hmh, ← hnh]
  exact h m' hm' n' hn' (hmi.trans hi) (hnj.trans hj)

/-- The ids a subscriber holds are those of resting orders. -/
theorem Shows.held (h : Shows orders b) {id : OrderId} (hid : id ∈ Dashboard.ids orders) :
    b.findOrder id ≠ none := by
  obtain ⟨e, he, rfl⟩ := List.mem_map.mp hid
  obtain ⟨o, ho, rfl⟩ := (h.mem e).mp he
  show b.findOrder o.id ≠ none
  rw [ho]
  simp

/-- What is shown at a side and price is the queue of the book. -/
theorem Shows.queueAt (h : Shows orders b) (hc : Consistent b) (s : Side) (p : Price) :
    orders.filter (fun e => e.side = s ∧ e.price = p) = (b.queueAt s p).map Order.shown := by
  rw [hc.queueAt_eq, List.map_map]
  let queued := (b.nodes s).filter fun n => n.order.price = p
  have hqueued : ∀ n ∈ queued, n ∈ b.allNodes := fun n hn =>
    mem_allNodes_of (List.mem_of_mem_filter hn)
  have hfifo : queued.Pairwise fun m n => m.handle < n.handle := hc.arrivals s p
  have hshown : (queued.map (Order.shown ∘ Node.order)).Pairwise
      fun e f => Arrived b e.orderId f.orderId := by
    rw [List.pairwise_map]
    refine hfifo.imp_of_mem fun {m n} hm hn hlt m' hm' n' hn' hi hj => ?_
    rw [hc.eq_of_id hm' (hqueued m hm) hi, hc.eq_of_id hn' (hqueued n hn) hj]
    exact hlt
  have horders : (orders.filter fun e => e.side = s ∧ e.price = p).Pairwise
      fun e f => Arrived b e.orderId f.orderId :=
    (List.pairwise_map.mp h.arrived).filter _
  have hmem : ∀ e, e ∈ orders.filter (fun e => e.side = s ∧ e.price = p) ↔
      e ∈ queued.map (Order.shown ∘ Node.order) := by
    intro e
    simp only [List.mem_filter, h.mem, List.mem_map, decide_eq_true_eq, Function.comp_apply, queued]
    constructor
    · rintro ⟨⟨o, ho, rfl⟩, hside, hprice⟩
      obtain ⟨n, hn, -, rfl⟩ := hc.findOrder_eq_some.mp ho
      have hns := hc.mem_nodes_side hn
      have hside : n.order.side = s := hside
      exact ⟨n, ⟨hside ▸ hns, hprice⟩, rfl⟩
    · rintro ⟨n, ⟨hn, hprice⟩, rfl⟩
      exact ⟨⟨n.order, hc.findOrder_node (mem_allNodes_of hn), rfl⟩, hc.side_of_mem hn, hprice⟩
  have hnodup : (orders.filter fun e => e.side = s ∧ e.price = p).Nodup :=
    (List.Nodup.of_map _ h.nodup).filter _
  have hnodup' : (queued.map (Order.shown ∘ Node.order)).Nodup := by
    have hsub : (queued.map fun n => n.order.id).Nodup := by
      refine hc.ids_nodup.sublist (List.Sublist.map _ ?_)
      exact List.filter_sublist.trans (hc.filter_side s ▸ List.filter_sublist)
    refine List.Nodup.of_map Dashboard.Order.orderId ?_
    rw [List.map_map]
    exact hsub
  refine List.Perm.eq_of_pairwise ?_ horders hshown
    ((List.perm_ext_iff_of_nodup hnodup hnodup').mpr hmem)
  intro e f he hf hef hfe
  -- two orders cannot both have come first
  obtain ⟨m, hm, rfl⟩ := List.mem_map.mp ((hmem e).mp he)
  obtain ⟨n, hn, rfl⟩ := List.mem_map.mp hf
  have hlt := hef m (hqueued m hm) n (hqueued n hn) rfl rfl
  have hgt := hfe n (hqueued n hn) m (hqueued m hm) rfl rfl
  omega

end Shows

/-! ## Executions -/

/-- The event of a trade, as it changes the orders a subscriber holds. -/
def executeTrade (orders : List Dashboard.Order) (t : Trade) : List Dashboard.Order :=
  [t.buyOrderId, t.sellOrderId].foldl (Dashboard.executeOrder t.quantity.toNat) orders

/-- Every resting order is shown, whatever else is. -/
def Covers (orders : List Dashboard.Order) (R : Resting) : Prop :=
  ∀ id r, R id = some r → r.id = id ∧ r.shown ∈ orders

section Executions

variable {orders : List Dashboard.Order} {s : Side} {o o' r : Order} {R R' : Resting} {q : Quantity}
  {ts : List Trade}

/-- The incoming order is not shown yet, so a trade changes the resting one only. -/
theorem executeTrade_eq (hid : o.id ∉ Dashboard.ids orders) (id : OrderId) (p : Price) :
    executeTrade orders (tradeWith s o id p q) = Dashboard.executeOrder q.toNat orders id := by
  cases s with
  | buy =>
    simp only [executeTrade, tradeWith, List.foldl_cons, List.foldl_nil,
      Dashboard.executeOrder_absent _ hid]
  | sell =>
    simp only [executeTrade, tradeWith, List.foldl_cons, List.foldl_nil]
    exact Dashboard.executeOrder_absent _ (by rwa [Dashboard.ids_executeOrder])

theorem Covers.execute (h : Covers orders R) (hnodup : (Dashboard.ids orders).Nodup)
    (hr : R r.id = some r) (hle : q ≤ r.remainingQuantity) :
    Covers (Dashboard.executeOrder q.toNat orders r.id) (Function.update R r.id (r.reduced q)) := by
  intro id r' hr'
  by_cases hid : id = r.id
  · subst hid
    rw [Function.update_self, Order.reduced] at hr'
    split at hr'
    · cases hr'
    rename_i hne
    cases hr'
    refine ⟨rfl, ?_⟩
    have hleNat := UInt32.le_iff_toNat_le.mp hle
    have hneNat : q.toNat ≠ r.remainingQuantity.toNat := fun he => hne (UInt32.toNat_inj.mp he)
    have hrest : (r.fill q).remainingQuantity.toNat = r.remainingQuantity.toNat - q.toNat :=
      UInt32.toNat_sub_of_le _ _ hle
    have hshown : (r.fill q).shown =
        { r.shown with quantity := r.shown.quantity - (q.toNat : Int) } := by
      simp only [Order.shown, hrest, Dashboard.Order.mk.injEq]
      refine ⟨rfl, rfl, ?_, rfl⟩
      omega
    rw [hshown]
    refine Dashboard.mem_executeOrder_self hnodup (h r.id r hr).2 ?_
    show (q.toNat : Int) < r.remainingQuantity.toNat
    omega
  · rw [Function.update_of_ne hid] at hr'
    obtain ⟨hid', hmem⟩ := h id r' hr'
    exact ⟨hid', Dashboard.mem_executeOrder_other _ hmem fun he => hid (hid'.symm.trans he)⟩

/-- The executions of a match, in order: no order comes or goes, and what rests is shown. -/
theorem Trading.covers (h : Trading s o R ts o' R') (hid : o.id ∉ Dashboard.ids orders)
    (hnodup : (Dashboard.ids orders).Nodup) (hcovers : Covers orders R) :
    Dashboard.ids (ts.foldl executeTrade orders) = Dashboard.ids orders ∧
      Covers (ts.foldl executeTrade orders) R' := by
  induction h generalizing orders with
  | stop => exact ⟨rfl, hcovers⟩
  | @step o o' r R R' q ts hr hside hpos hin hres rest ih =>
    rw [List.foldl_cons, executeTrade_eq hid]
    have hids := Dashboard.ids_executeOrder (q.toNat : Int) orders r.id
    have hid' : o.id ∉ Dashboard.ids (Dashboard.executeOrder q.toNat orders r.id) := hids ▸ hid
    have hnodup' : (Dashboard.ids (Dashboard.executeOrder q.toNat orders r.id)).Nodup :=
      hids ▸ hnodup
    obtain ⟨hsame, hcovers'⟩ := ih hid' hnodup' (hcovers.execute hnodup hr hres)
    exact ⟨hsame.trans hids, hcovers'⟩

end Executions

/-! ## A matched command -/

theorem foldl_delete (orders : List Dashboard.Order) (gone : List OrderId) :
    gone.foldl Dashboard.delete orders = orders.filter fun e => e.orderId ∉ gone := by
  induction gone generalizing orders with
  | nil => simp
  | cons id gone ih =>
    rw [List.foldl_cons, ih, Dashboard.delete, List.filter_filter]
    congr 1
    funext e
    simp [Bool.and_comm]

section Matched

variable {o o' : Order} {b b' : OrderBook} {ts : List Trade}

/-- Any other order of the book was there before, and came when it came. -/
theorem Processed.origin (h : Processed o b ts o' b') {n : Node} (hn : n ∈ b'.allNodes)
    (hne : n.order.id ≠ o.id) :
    ∃ m ∈ b.allNodes, m.order.id = n.order.id ∧ m.handle = n.handle := by
  rw [h.nodes_perm.mem_iff, List.mem_append, List.mem_append] at hn
  rcases hn with hn | hn | hn
  · obtain ⟨-, rfl⟩ := mem_rested.mp hn
    exact absurd h.sweeps.id_eq hne
  · obtain ⟨m, hm, hhandle, ho, -⟩ := h.sweeps.resting n hn
    exact ⟨m, mem_allNodes_of hm, by rw [ho], hhandle.symm⟩
  · exact ⟨n, mem_allNodes_of hn, rfl, rfl⟩

/-- What is left of the incoming order came last. -/
theorem Processed.arrival (h : Processed o b ts o' b') (hc : Consistent b)
    (habsent : b.findOrder o.id = none) {n : Node} (hn : n ∈ b'.allNodes) (hid : n.order.id = o.id) :
    n.handle = b.nextNode := by
  have hfresh := hc.findOrder_eq_none.mp habsent
  rw [h.nodes_perm.mem_iff, List.mem_append, List.mem_append] at hn
  rcases hn with hn | hn | hn
  · obtain ⟨-, rfl⟩ := mem_rested.mp hn
    rfl
  · obtain ⟨m, hm, -, ho, -⟩ := h.sweeps.resting n hn
    exact absurd (by rw [← hid, ho]) (hfresh m (mem_allNodes_of hm))
  · exact absurd hid (hfresh n (mem_allNodes_of hn))

/-- Ids that were shown keep the order of their arrival. -/
theorem Processed.arrived (h : Processed o b ts o' b') {kept shown : List OrderId}
    (hsub : kept.Sublist shown) (hfresh : o.id ∉ shown) (harrived : shown.Pairwise (Arrived b)) :
    kept.Pairwise (Arrived b') := by
  refine (harrived.sublist hsub).imp_of_mem fun {i j} hi hj hij => hij.of_nodes fun n hn hor => ?_
  refine h.origin hn fun hid => hfresh ?_
  rcases hor with rfl | rfl
  · exact hid ▸ hsub.subset hi
  · exact hid ▸ hsub.subset hj

end Matched

/-- An order that leaves the book is deleted. -/
theorem Shows.deleted {orders : List Dashboard.Order} {b b' : OrderBook} (h : Shows orders b)
    (hc : Consistent b) (hc' : Consistent b') {s : Side} {n : Node} (hn : n ∈ b.nodes s)
    (hself : b'.nodes s = (b.nodes s).filter fun m => m.handle ≠ n.handle)
    (hother : b'.nodes s.opposite = b.nodes s.opposite) :
    Shows (Dashboard.delete orders n.order.id) b' := by
  have hfind := hc.findOrder_extracted hc' hn hself hother
  have hsub : (Dashboard.ids (Dashboard.delete orders n.order.id)).Sublist (Dashboard.ids orders) :=
    List.filter_sublist.map _
  refine ⟨h.nodup.sublist hsub, fun e => ?_, ?_⟩
  · simp only [Dashboard.delete, List.mem_filter, h.mem, decide_eq_true_eq, hfind]
    constructor
    · rintro ⟨⟨o, ho, rfl⟩, hne⟩
      have hne : o.id ≠ n.order.id := hne
      exact ⟨o, by rw [Function.update_of_ne hne, ho], rfl⟩
    · rintro ⟨o, ho, rfl⟩
      have hne : o.id ≠ n.order.id := fun he => by rw [he, Function.update_self] at ho; cases ho
      rw [Function.update_of_ne hne] at ho
      exact ⟨⟨o, ho, rfl⟩, hne⟩
  · refine (h.arrived.sublist hsub).imp fun harrived => harrived.of_nodes fun m hm _ => ?_
    refine ⟨m, ?_, rfl, rfl⟩
    rw [(allNodes_perm b' s).mem_iff, hself, hother, List.mem_append, List.mem_filter] at hm
    rw [(allNodes_perm b s).mem_iff, List.mem_append]
    exact hm.imp_left And.left

namespace ExchangeServer

/-- What a subscriber makes of the trades, the deletions and the residual of a matched order. -/
def showMatched (order : SetOrder) (incoming : Incoming) (instrument : InstrumentState)
    (ts : List Trade) (orders : List Dashboard.Order) : List Dashboard.Order :=
  let gone := order.enumerate (ts.flatMap fun trade =>
    (Trade.orderIds trade).filter (isFilledResting instrument incoming.orderId))
  let kept := gone.foldl Dashboard.delete (ts.foldl executeTrade orders)
  ((instrument.book.findOrder incoming.orderId).toList.map Order.shown).foldl Dashboard.set kept

theorem Settling.shows {incoming : Incoming} {o o' : Order} {b b' : OrderBook} {ts : List Trade}
    {orderOwners : Finmap fun _ : OrderId => OrderOwner} {orders : List Dashboard.Order}
    (h : Settling incoming o b ts o' b' orderOwners) (order : SetOrder) (hs : Shows orders b) :
    Shows (showMatched order incoming ⟨b', orderOwners⟩ ts orders) b' := by
  have hfresh : o.id ∉ Dashboard.ids orders := fun hmem => hs.held hmem h.absent
  have hcovers : Covers orders b.findOrder := fun id r hr =>
    ⟨h.consistent.findOrder_id hr, (hs.mem _).mpr ⟨r, h.consistent.findOrder_id hr ▸ hr, rfl⟩⟩
  obtain ⟨hids, hcovers'⟩ := h.trading.covers hfresh hs.nodup hcovers
  let gone := order.enumerate (ts.flatMap fun trade =>
    (Trade.orderIds trade).filter (isFilledResting ⟨b', orderOwners⟩ incoming.orderId))
  let kept := gone.foldl Dashboard.delete (ts.foldl executeTrade orders)
  have hkept : kept = (ts.foldl executeTrade orders).filter fun e => e.orderId ∉ gone :=
    foldl_delete _ _
  have hgone : ∀ id, id ∈ gone ↔ id ∈ ts.flatMap Trade.orderIds ∧ id ≠ o.id ∧
      b'.findOrder id = none := by
    intro id
    simp only [gone, (order.perm _).mem_iff, List.mem_dedup, List.mem_flatMap, List.mem_filter,
      isFilledResting, Bool.and_eq_true, decide_eq_true_eq, Option.isNone_iff_eq_none, h.id_eq]
    constructor
    · rintro ⟨t, ht, hid, hand⟩
      exact ⟨⟨t, ht, hid⟩, hand⟩
    · rintro ⟨⟨t, ht, hid⟩, hand⟩
      exact ⟨t, ht, hid, hand⟩
  have htraded : (Dashboard.ids (ts.foldl executeTrade orders)).Nodup := hids ▸ hs.nodup
  have hmem : ∀ e, e ∈ kept ↔ ∃ r, r.id ≠ o.id ∧ b'.findOrder r.id = some r ∧ r.shown = e := by
    intro e
    rw [hkept, List.mem_filter, decide_eq_true_eq]
    constructor
    · rintro ⟨he, hstays⟩
      have hid : e.orderId ∈ Dashboard.ids orders := hids ▸ Dashboard.held_of_mem he
      have hne : e.orderId ≠ o.id := fun heq => hfresh (heq ▸ hid)
      cases hfind : b'.findOrder e.orderId with
      | none =>
        have hafter : Function.update b'.findOrder o.id none e.orderId = none := by
          rw [Function.update_of_ne hne, hfind]
        obtain ⟨t, ht, hor⟩ := h.trading.traded (hs.held hid) hafter
        refine absurd ((hgone _).mpr ⟨List.mem_flatMap.mpr ⟨t, ht, ?_⟩, hne, hfind⟩) hstays
        rcases hor with heq | heq <;> rw [← heq] <;> simp [Trade.orderIds]
      | some r =>
        obtain ⟨hrid, hshown⟩ := hcovers' e.orderId r (by rw [Function.update_of_ne hne, hfind])
        exact ⟨r, hrid ▸ hne, by rw [hrid]; exact hfind,
          List.inj_on_of_nodup_map htraded hshown he hrid⟩
    · rintro ⟨r, hne, hfind, rfl⟩
      refine ⟨(hcovers' r.id r (by rw [Function.update_of_ne hne, hfind])).2, fun hmem => ?_⟩
      have hnone := ((hgone _).mp hmem).2.2
      rw [show b'.findOrder r.shown.orderId = some r from hfind] at hnone
      cases hnone
  have hsub : (Dashboard.ids kept).Sublist (Dashboard.ids orders) := by
    rw [hkept, ← hids]
    exact List.filter_sublist.map _
  have hnodup := hs.nodup.sublist hsub
  have harrived := h.processed.arrived hsub hfresh hs.arrived
  show Shows (((b'.findOrder incoming.orderId).toList.map Order.shown).foldl Dashboard.set kept) b'
  rw [← h.id_eq]
  have hconsistent := h.processed.consistent
  cases hrests : b'.findOrder o.id with
  | none =>
    refine ⟨hnodup, fun e => (hmem e).trans ⟨?_, ?_⟩, harrived⟩
    · rintro ⟨r, -, hr⟩
      exact ⟨r, hr⟩
    · rintro ⟨r, hr, hshown⟩
      exact ⟨r, fun heq => (by rw [heq, hrests] at hr; cases hr), hr, hshown⟩
  | some r₀ =>
    have hid₀ : r₀.id = o.id := hconsistent.findOrder_id hrests
    have hfresh₀ : r₀.shown.orderId ∉ Dashboard.ids kept := fun hmem =>
      hfresh (hid₀ ▸ hsub.subset hmem)
    have hset : Dashboard.set kept r₀.shown = kept ++ [r₀.shown] := Dashboard.set_new hfresh₀
    simp only [Option.toList_some, List.map_cons, List.map_nil, List.foldl_cons, List.foldl_nil, hset]
    refine ⟨?_, fun e => ?_, ?_⟩
    · rw [Dashboard.ids, List.map_append]
      exact hnodup.append (List.nodup_singleton _) (by simpa using hfresh₀)
    · rw [List.mem_append, hmem, List.mem_singleton]
      constructor
      · rintro (⟨r, -, hr⟩ | rfl)
        · exact ⟨r, hr⟩
        · exact ⟨r₀, hid₀ ▸ hrests, rfl⟩
      · rintro ⟨r, hr, rfl⟩
        by_cases hid : r.id = o.id
        · rw [hid, hrests] at hr
          cases hr
          exact .inr rfl
        · exact .inl ⟨r, hid, hr, rfl⟩
    · rw [Dashboard.ids, List.map_append, List.pairwise_append]
      refine ⟨harrived, List.pairwise_singleton _ _, fun i hi j hj => ?_⟩
      -- the residual comes behind everything that was there
      rw [List.mem_singleton.mp hj]
      intro m hm n hn hmi hnj
      rw [h.processed.arrival h.consistent h.absent hn (hnj.trans hid₀)]
      have hne : m.order.id ≠ o.id := fun heq => hfresh (heq ▸ hmi ▸ hsub.subset hi)
      obtain ⟨m', hm', -, hhandle⟩ := h.processed.origin hm hne
      rw [← hhandle]
      exact h.consistent.handle_lt m' hm'

/-! ## The feed -/

/-- What an emission does to the orders shown of symbol `x`. -/
def showEmission (x : Bytes) (orders : List Dashboard.Order) : Emission → List Dashboard.Order
  | .level3AddOrder event =>
    if symbolToString event.symbol = x then
      Dashboard.set orders ⟨event.orderId, event.price, event.quantity.toNat,
        if event.side = .buy then .buy else .sell⟩
    else orders
  | .level3OrderExecuted event =>
    if symbolToString event.symbol = x then
      [event.buyOrderId, event.sellOrderId].foldl (Dashboard.executeOrder event.quantity.toNat) orders
    else orders
  | .level3OrderDeleted event =>
    if symbolToString event.symbol = x then Dashboard.delete orders event.orderId else orders
  | _ => orders

section Feed

variable {x : Bytes} {orders : List Dashboard.Order}

theorem orders_onMessage (instruments : Dashboard.Instruments)
    (message : Dashboard.MarketMessage) (x : Bytes) :
    (Dashboard.instrument (Dashboard.onMessage instruments message) x).orders =
      if message.symbol = x then ((Dashboard.instrument instruments x).onMessage message).orders
      else (Dashboard.instrument instruments x).orders := by
  rw [Dashboard.instrument, Dashboard.onMessage, lookup_insert_eq]
  by_cases hx : x = message.symbol
  · rw [if_pos hx, if_pos hx.symm, hx, Option.getD_some]
  · rw [if_neg hx, if_neg (Ne.symm hx)]
    rfl

theorem orders_sent (instruments : Dashboard.Instruments) (sent : Sent) (x : Bytes) :
    (Dashboard.instrument ((Dashboard.marketData sent).toList.foldl Dashboard.onMessage instruments)
      x).orders =
      showEmission x (Dashboard.instrument instruments x).orders sent.emission := by
  unfold Dashboard.marketData
  cases sent.emission with
  | orderResponse | tradeExecution => rfl
  | bookUpdate =>
    simp only [Option.toList_some, List.foldl_cons, List.foldl_nil]
    rw [orders_onMessage]
    exact ite_self _
  | level3AddOrder | level3OrderExecuted | level3OrderDeleted =>
    simp only [Option.toList_some, List.foldl_cons, List.foldl_nil]
    rw [orders_onMessage]
    rfl

theorem orders_feed (feed : List Sent) (instruments : Dashboard.Instruments) (x : Bytes) :
    (Dashboard.instrument ((feed.filterMap Dashboard.marketData).foldl Dashboard.onMessage
      instruments) x).orders =
      (feed.map Sent.emission).foldl (showEmission x) (Dashboard.instrument instruments x).orders := by
  induction feed generalizing instruments with
  | nil => rfl
  | cons sent feed ih =>
    have hcons : (sent :: feed).filterMap Dashboard.marketData =
        (Dashboard.marketData sent).toList ++ feed.filterMap Dashboard.marketData := by
      rw [List.filterMap_cons]
      cases Dashboard.marketData sent <;> rfl
    rw [hcons, List.foldl_append, ih, orders_sent, List.map_cons, List.foldl_cons]

/-- Executions without an address are not sent, and show nothing. -/
theorem showEmission_sent (x : Bytes) (emissions : List Emission) (orders : List Dashboard.Order) :
    (emissions.filter fun e => !e.unaddressed).foldl (showEmission x) orders =
      emissions.foldl (showEmission x) orders := by
  induction emissions generalizing orders with
  | nil => rfl
  | cons e emissions ih =>
    rw [List.filter_cons]
    split
    · rw [List.foldl_cons, List.foldl_cons, ih]
    · rename_i hunaddressed
      have hquiet : showEmission x orders e = orders := by
        cases e <;> first | rfl | simp [Emission.unaddressed] at hunaddressed
      rw [List.foldl_cons, ih, hquiet]

/-- Emissions that show nothing at a symbol. -/
theorem foldl_quiet {emissions : List Emission}
    (h : ∀ e ∈ emissions, ∀ orders, showEmission x orders e = orders) (orders : List Dashboard.Order) :
    emissions.foldl (showEmission x) orders = orders := by
  induction emissions with
  | nil => rfl
  | cons e emissions ih =>
    rw [List.foldl_cons, h e (.head _)]
    exact ih fun e' he' => h e' (.tail _ he')

theorem showEmission_delivery {deliveries : List ExecutionDelivery} {e : Emission}
    (h : e ∈ executionDeliveries deliveries) (orders : List Dashboard.Order) :
    showEmission x orders e = orders := by
  obtain ⟨delivery, -, hmem⟩ := List.mem_flatMap.mp h
  rcases List.mem_pair.mp hmem with rfl | rfl <;> rfl

variable {symbol : Symbol}

theorem show_executions (hx : symbolToString symbol = x) (ts : List Trade)
    (orders : List Dashboard.Order) :
    ((ts.map (executionOf symbol)).map Emission.level3OrderExecuted).foldl (showEmission x) orders =
      ts.foldl executeTrade orders := by
  induction ts generalizing orders with
  | nil => rfl
  | cons t ts ih =>
    rw [List.map_cons, List.map_cons, List.foldl_cons, List.foldl_cons, ih]
    congr 1
    simp only [showEmission, executionOf, if_pos hx, UInt32.toNat_toUInt64, executeTrade]

theorem show_deletions (hx : symbolToString symbol = x) (gone : List OrderId)
    (orders : List Dashboard.Order) :
    ((gone.map fun id => (⟨id, 0, symbol⟩ : Level3OrderDeleted)).map
        Emission.level3OrderDeleted).foldl (showEmission x) orders =
      gone.foldl Dashboard.delete orders := by
  induction gone generalizing orders with
  | nil => rfl
  | cons id gone ih =>
    rw [List.map_cons, List.map_cons, List.foldl_cons, List.foldl_cons, ih]
    congr 1
    exact if_pos hx

theorem show_added (hx : symbolToString symbol = x) (resting : Option Order)
    (orders : List Dashboard.Order) :
    ((resting.map (addOf symbol)).toList.map Emission.level3AddOrder).foldl (showEmission x) orders =
      (resting.toList.map Order.shown).foldl Dashboard.set orders := by
  cases resting with
  | none => rfl
  | some o =>
    have hside : (if (addOf symbol o).side = .buy then Side.buy else Side.sell) = o.side := by
      unfold addOf
      cases o.side <;> rfl
    have hquantity : (addOf symbol o).quantity.toNat = o.remainingQuantity.toNat :=
      UInt32.toNat_toUInt64 _
    simp only [Option.map_some, Option.toList_some, List.map_cons, List.map_nil, List.foldl_cons,
      List.foldl_nil, showEmission, hside, hquantity]
    exact if_pos hx

/-- The Level-3 events of a settled order, for its own symbol and for any other. -/
theorem show_settled (order : SetOrder) (incoming : Incoming) (ts : List Trade)
    (instrument : InstrumentState) (risk : RiskEngine) (x : Bytes) (orders : List Dashboard.Order) :
    let settled := settle order incoming ts instrument risk
    (settled.executions.map Emission.level3OrderExecuted ++
        settled.deletions.map Emission.level3OrderDeleted ++
        settled.added.toList.map Emission.level3AddOrder).foldl (showEmission x) orders =
      if symbolToString incoming.symbol = x then showMatched order incoming instrument ts orders
      else orders := by
  intro settled
  simp only [settled, settle_executions, settle_deletions, settle_added]
  split
  · rename_i hx
    rw [List.foldl_append, List.foldl_append, show_executions hx, show_deletions hx, show_added hx]
    rfl
  · rename_i hx
    refine foldl_quiet (fun e he orders => ?_) orders
    simp only [List.mem_append, List.mem_map, Option.mem_toList, Option.map_eq_some_iff] at he
    obtain (⟨_, ⟨t, -, rfl⟩, rfl⟩ | ⟨_, ⟨id, -, rfl⟩, rfl⟩) | ⟨_, ⟨o, -, rfl⟩, rfl⟩ := he <;>
      exact if_neg hx

end Feed

/-! ## One frame -/

section Frame

variable {order : SetOrder} {socket : Socket} {frame : Frame} {server server' : ExchangeServer}
  {emissions : List Emission} {accepted : Bytes → OrderId → Prop} {x : Bytes}
  {orders : List Dashboard.Order}

/-- The response, the executions of the owners and the top of the book show nothing. -/
theorem show_private (socket : Socket) (orderId : OrderId) (type : MessageType)
    (deliveries : List ExecutionDelivery) (snapshot : BookSnapshot)
    (orders : List Dashboard.Order) :
    ([Emission.orderResponse socket orderId true type] ++ executionDeliveries deliveries ++
      [Emission.bookUpdate snapshot]).foldl (showEmission x) orders = orders := by
  refine foldl_quiet (fun e he orders => ?_) orders
  simp only [List.mem_append, List.mem_singleton] at he
  rcases he with (rfl | he) | rfl
  · rfl
  · exact showEmission_delivery he orders
  · rfl

theorem show_newOrder (socket : Socket) (orderId : OrderId) (order : SetOrder) (incoming : Incoming)
    (ts : List Trade) (instrument : InstrumentState) (risk : RiskEngine) (snapshot : BookSnapshot) :
    (newOrderEmissions socket orderId (settle order incoming ts instrument risk) snapshot).foldl
        (showEmission x) orders =
      if symbolToString incoming.symbol = x then showMatched order incoming instrument ts orders
      else orders := by
  have hshown := show_settled order incoming ts instrument risk x orders
  simp only [List.foldl_append] at hshown
  have hquiet := show_private (x := x) socket orderId .orderAccepted
    (settle order incoming ts instrument risk).deliveries snapshot orders
  simp only [List.foldl_append] at hquiet
  simp only [newOrderEmissions, List.foldl_append, hquiet, hshown]

theorem show_replaceOrder (socket : Socket) (orderId : OrderId) (order : SetOrder)
    (incoming : Incoming) (ts : List Trade) (instrument : InstrumentState) (risk : RiskEngine)
    (snapshot : BookSnapshot) (orders : List Dashboard.Order) :
    (replaceOrderEmissions socket orderId incoming.symbol
        (settle order incoming ts instrument risk) snapshot).foldl (showEmission x) orders =
      if symbolToString incoming.symbol = x then
        showMatched order incoming instrument ts (Dashboard.delete orders orderId)
      else orders := by
  have hshown := fun orders => show_settled order incoming ts instrument risk x orders
  simp only [List.foldl_append] at hshown
  have hquiet := show_private (x := x) socket orderId .orderReplaced
    (settle order incoming ts instrument risk).deliveries snapshot orders
  simp only [List.foldl_append] at hquiet
  simp only [replaceOrderEmissions, List.foldl_append, hquiet, hshown]
  by_cases hx : symbolToString incoming.symbol = x
  · simp only [List.foldl_cons, List.foldl_nil, showEmission, if_pos hx]
  · simp only [List.foldl_cons, List.foldl_nil, showEmission, if_neg hx]

/-- A frame's events turn what is shown of each book into what is shown of it afterwards. -/
theorem Handled.shows (h : Handled order socket frame server server' emissions)
    (hs : Sessions server) (hopen : socket ∈ server.clientSockets) (hbooks : server.BooksConsistent)
    (howned : ∀ x, Owned (accepted x) server.riskEngine x (server.instrumentFor x))
    (hshows : Shows orders (server.instrumentFor x).book) :
    Shows (emissions.foldl (showEmission x) orders) (server'.instrumentFor x).book := by
  cases h with
  | ignored => exact hshows
  | rejected => exact hshows
  | @turnedAway _ symbol =>
    rw [instrumentFor_made]
    exact hshows
  | @placed request trades book snapshot h =>
    obtain ⟨o', hsettling⟩ := h.settling hs hopen hbooks (howned _)
    have hsymbol : symbolToString (server.incomingFrom socket request.orderId request.symbol).symbol =
        symbolToString request.symbol := rfl
    rw [instrumentFor_insert rfl, placedSettled, show_newOrder, hsymbol]
    by_cases hx : x = symbolToString request.symbol
    · rw [if_pos hx, settle_book, if_pos hx.symm]
      exact hsettling.shows order (hx ▸ hshows)
    · rw [if_neg hx, if_neg (Ne.symm hx)]
      exact hshows
  | @cancelled request instrument book snapshot h =>
    obtain ⟨s, n, hn, hid, hc', hself, hother⟩ := h.extracted hbooks
    rw [instrumentFor_insert rfl]
    by_cases hx : x = symbolToString request.symbol
    · rw [if_pos hx]
      rw [hx, instrumentFor_of_found h.found] at hshows
      simp only [List.foldl_cons, List.foldl_nil, showEmission, if_pos hx.symm]
      rw [← hid]
      exact hshows.deleted (hbooks _ _ h.found) hc' hn hself hother
    · rw [if_neg hx]
      simp only [List.foldl_cons, List.foldl_nil, showEmission, if_neg (Ne.symm hx)]
      exact hshows
  | @replaced request instrument trades book snapshot h =>
    have hox := howned (symbolToString request.symbol)
    rw [instrumentFor_of_found h.found] at hox
    obtain ⟨s, n, hn, hid, b₁, o', hself, hother, -, -, hsettling⟩ := h.settling hs hopen hbooks hox
    have hshown := fun instrument risk => show_replaceOrder (x := x) socket request.orderId order
      (server.incomingFrom socket request.orderId request.symbol) trades instrument risk snapshot orders
    have hsymbol : (server.incomingFrom socket request.orderId request.symbol).symbol =
        request.symbol := rfl
    rw [hsymbol] at hshown
    rw [instrumentFor_insert rfl, replacedSettled, hshown]
    by_cases hx : x = symbolToString request.symbol
    · rw [hx, instrumentFor_of_found h.found] at hshows
      rw [if_pos hx, dropUnrested_book, settle_book, if_pos hx.symm]
      refine hsettling.shows order ?_
      rw [← hid]
      exact hshows.deleted (hbooks _ _ h.found) hsettling.consistent hn hself hother
    · rw [if_neg hx, if_neg (Ne.symm hx)]
      exact hshows

end Frame

/-! ## Every run -/

section Run

variable {limits : RiskLimits} {file : Option (Option Bytes)} {log : List Event} {event : Event}
  {server₀ server server' : ExchangeServer} {x : Bytes}

/-- Sequence numbers are drawn one after the other. -/
theorem emitAll_sequence (emissions : List Emission) (server : ExchangeServer) :
    (emitAll emissions server).2.Pairwise (fun a b => a.sequenceNumber < b.sequenceNumber) ∧
      ∀ sent ∈ (emitAll emissions server).2, server.nextSequenceNumber ≤ sent.sequenceNumber ∧
        sent.sequenceNumber < (emitAll emissions server).1.nextSequenceNumber := by
  induction emissions generalizing server with
  | nil => exact ⟨.nil, fun sent hsent => absurd hsent List.not_mem_nil⟩
  | cons emission emissions ih =>
    obtain ⟨hpairwise, hrange⟩ := ih (emit emission server).1
    obtain ⟨n, hn, hstate⟩ := emitAll_state emissions (emit emission server).1
    rw [emitAll_cons]
    unfold emit at *
    split at hpairwise
    · rename_i hunaddressed
      simp only [hunaddressed, if_true] at *
      exact ⟨hpairwise, hrange⟩
    · rename_i haddressed
      simp only [haddressed, Bool.false_eq_true, if_false] at *
      refine ⟨List.pairwise_cons.mpr ⟨fun sent hsent => ?_, hpairwise⟩, fun sent hsent => ?_⟩
      · exact (hrange sent hsent).1
      · rcases List.mem_cons.mp hsent with rfl | hsent
        · rw [hstate]
          exact ⟨Nat.le_refl _, hn⟩
        · have := hrange sent hsent
          omega

theorem Handled.nextSequenceNumber {order : SetOrder} {socket : Socket} {frame : Frame}
    {emissions : List Emission} (h : Handled order socket frame server server' emissions) :
    server'.nextSequenceNumber = server.nextSequenceNumber := by
  cases h <;> rfl

/-- What a run has sent is in the order of its sequence numbers. -/
theorem sent_sorted (hstart : start limits file = some server₀) (hrun : Run Step server₀ log server) :
    (log.flatMap Event.sent).Pairwise (fun a b => a.sequenceNumber < b.sequenceNumber) ∧
      ∀ sent ∈ log.flatMap Event.sent, sent.sequenceNumber < server.nextSequenceNumber := by
  refine hrun.history (P := fun log server =>
    (log.flatMap Event.sent).Pairwise (fun a b => a.sequenceNumber < b.sequenceNumber) ∧
      ∀ sent ∈ log.flatMap Event.sent, sent.sequenceNumber < server.nextSequenceNumber)
    ⟨.nil, fun sent hsent => absurd hsent List.not_mem_nil⟩ ?_
  intro log server event server' hrun ⟨hsorted, hbound⟩ hstep
  rw [List.flatMap_append, List.flatMap_singleton]
  cases hstep with
  | connect | disconnect | setGlobalKillSwitch =>
    rw [List.append_nil]
    exact ⟨hsorted, hbound⟩
  | @frame server₁ socket frame emissions order hopen hhandle =>
    have hhandled := handleMessage_cases (booksConsistent_run hstart hrun) hhandle
    obtain ⟨hpairwise, hrange⟩ := emitAll_sequence emissions server₁
    obtain ⟨n, hn, hstate⟩ := emitAll_state emissions server₁
    rw [hhandled.nextSequenceNumber] at hrange hn
    refine ⟨List.pairwise_append.mpr ⟨hsorted, hpairwise, fun a ha b hb => ?_⟩, fun sent hsent => ?_⟩
    · have := hbound a ha
      have := (hrange b hb).1
      omega
    · rcases List.mem_append.mp hsent with hsent | hsent
      · have := hbound sent hsent
        rw [hstate]
        exact Nat.lt_of_lt_of_le this hn
      · exact (hrange sent hsent).2

theorem subscribe_append (feed feed' : List Sent) :
    Dashboard.subscribe (feed ++ feed') =
      (feed'.filterMap Dashboard.marketData).foldl Dashboard.onMessage
        (Dashboard.subscribe feed) := by
  rw [Dashboard.subscribe, List.filterMap_append, List.foldl_append]
  rfl

theorem Step.shows (hown : Ownership log server) (hstep : Step server event server')
    {feed : List Sent}
    (h : Shows (Dashboard.instrument (Dashboard.subscribe feed) x).orders
      (server.instrumentFor x).book) :
    Shows (Dashboard.instrument (Dashboard.subscribe (feed ++ event.sent)) x).orders
      (server'.instrumentFor x).book := by
  rw [subscribe_append, orders_feed]
  cases hstep with
  | connect | disconnect | setGlobalKillSwitch => exact h
  | @frame server₁ socket frame emissions order hopen hhandle =>
    have hhandled := handleMessage_cases hown.books hhandle
    obtain ⟨n, -, hstate⟩ := emitAll_state emissions server₁
    rw [emitAll_emissions, showEmission_sent, hstate]
    exact hhandled.shows hown.sessions hopen hown.books hown.owned h

theorem shows_run (hstart : start limits file = some server₀)
    (hempty : ∀ id, (server₀.instrumentFor x).book.findOrder id = none)
    (hrun : Run Step server₀ log server) :
    Shows (Dashboard.instrument (Dashboard.subscribe (log.flatMap Event.sent)) x).orders
      (server.instrumentFor x).book := by
  have hinv : Ownership log server ∧
      Shows (Dashboard.instrument (Dashboard.subscribe (log.flatMap Event.sent)) x).orders
        (server.instrumentFor x).book := by
    refine hrun.history (P := fun log server => Ownership log server ∧
      Shows (Dashboard.instrument (Dashboard.subscribe (log.flatMap Event.sent)) x).orders
        (server.instrumentFor x).book) ⟨start_ownership hstart, ?_⟩ ?_
    · refine ⟨.nil, fun e => ⟨fun he => absurd he List.not_mem_nil, ?_⟩, .nil⟩
      rintro ⟨o, ho, -⟩
      rw [hempty] at ho
      cases ho
    · intro log server event server' _ ⟨hown, hshows⟩ hstep
      refine ⟨hstep.ownership hown, ?_⟩
      rw [List.flatMap_append, List.flatMap_singleton]
      exact hstep.shows hown hshows
  exact hinv.2

end Run

end ExchangeServer

/-- A subscriber that starts empty with the books, and applies what every run has sent in the order
of the sequence numbers, holds at each side and price of each symbol the queue of the book. -/
theorem level3_reconstructs {limits : RiskLimits} {file : Option (Option Bytes)} {log : List Event}
    {server₀ server : ExchangeServer} {feed : List Sent} (hstart : start limits file = some server₀)
    (hempty : ∀ x id, (server₀.instrumentFor x).book.findOrder id = none)
    (hrun : Run Step server₀ log server) (hfeed : feed.Perm (log.flatMap Event.sent))
    (hsorted : feed.Pairwise fun a b => a.sequenceNumber ≤ b.sequenceNumber) (x : Bytes) (s : Side)
    (p : Price) :
    (Dashboard.instrument (Dashboard.subscribe feed) x).orders.filter
        (fun e => e.side = s ∧ e.price = p) =
      ((server.instrumentFor x).book.queueAt s p).map Order.shown := by
  obtain ⟨hsequence, -⟩ := sent_sorted hstart hrun
  -- no sequence number is drawn twice, so there is one order to apply them in
  have horder : feed = log.flatMap Event.sent := by
    have hnodup : ((log.flatMap Event.sent).map Sent.sequenceNumber).Nodup :=
      List.pairwise_map.mpr (hsequence.imp fun hlt => Nat.ne_of_lt hlt)
    refine List.Perm.eq_of_pairwise (fun a b ha hb hab hba => ?_) hsorted
      (hsequence.imp fun hlt => Nat.le_of_lt hlt) hfeed
    exact List.inj_on_of_nodup_map hnodup (hfeed.mem_iff.mp ha) hb (Nat.le_antisymm hab hba)
  rw [horder]
  have hshows := shows_run hstart (hempty x) hrun
  have hc := (booksConsistent_run hstart hrun).instrumentFor x
  exact hshows.queueAt hc s p

/-- Order 7 rests at 100, and a sale takes a part of it. -/
theorem level3_reconstructs_trade :
    ∃ server log, Run Step { riskEngine := { limits := {} } } log server ∧
      (Dashboard.instrument (Dashboard.subscribe (log.flatMap Event.sent)) [84, 69, 83, 84]).orders.filter
          (fun e => e.side = .buy ∧ e.price = 100) = [⟨7, 100, 2, .buy⟩] ∧
      (Dashboard.instrument (Dashboard.subscribe (log.flatMap Event.sent)) [84, 69, 83, 84]).orders.filter
          (fun e => e.side = .buy ∧ e.price = 100) =
        ((server.instrumentFor [84, 69, 83, 84]).book.queueAt .buy 100).map Order.shown := by
  obtain ⟨⟨server₁, emissions₁⟩, hrun₁, hopen, ⟨server₂, emissions₂⟩, hrun₂, hqueue⟩ : ∃ r₁,
      handleMessage .dedup 4
        (newOrderFrame ⟨7, 1, 100, 5, .buy, .limit, .goodTillCancel, defaultSymbol⟩)
        (registerClient 4 { riskEngine := { limits := {} } }) = .ok r₁ ∧
      4 ∈ (emitAll r₁.2 r₁.1).1.clientSockets ∧ ∃ r₂,
      handleMessage .dedup 4
        (newOrderFrame ⟨8, 2, 100, 3, .sell, .limit, .goodTillCancel, defaultSymbol⟩)
        (emitAll r₁.2 r₁.1).1 = .ok r₂ ∧
      (((emitAll r₂.2 r₂.1).1.instrumentFor [84, 69, 83, 84]).book.queueAt .buy 100).map Order.shown =
        [⟨7, 100, 2, .buy⟩] :=
    ⟨_, by rfl, by decide, _, by rfl, by decide⟩
  have run := ((Run.snoc (.nil _) (Step.connect (by decide) (by decide))).snoc
    (Step.frame .dedup (by decide) hrun₁)).snoc (Step.frame .dedup hopen hrun₂)
  have hstart : start {} none = some { riskEngine := { limits := {} } } := rfl
  have hempty : ∀ x id, ((ExchangeServer.mk { limits := {} } ∅ [] ∅ none 1 1).instrumentFor
      x).book.findOrder id = none := fun x id => rfl
  have hsorted := (sent_sorted hstart run).1.imp fun hlt => Nat.le_of_lt hlt
  have hshown := level3_reconstructs hstart hempty run (.refl _) hsorted [84, 69, 83, 84] .buy 100
  exact ⟨_, _, run, hshown.trans hqueue, hshown⟩

end ExchangeLab

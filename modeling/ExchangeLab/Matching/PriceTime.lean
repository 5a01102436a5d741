import ExchangeLab.Matching.Invariants
import Mathlib.Data.List.Sort

/-!
# ExchangeLab.Matching.PriceTime

Matching is exactly price-time priority.

`Reference` states what the engine is for, on a flat collection of resting orders that keeps no
levels and no index. Each is a node: its handle is drawn from a counter when the order is queued, so
it is the order's arrival number. The reference sorts the opposite side by price and arrival, keeps
what crosses, fills it greedily, and queues what is left of a good-till-cancel limit order last.

* `Reference.sweeps_fills`: an exhausted sweep is the greedy fill of the crossing orders.
* `processOrderInto_reference`: the engine agrees with the reference on every reachable book.
-/

namespace ExchangeLab

open Container OrderBook MatchingEngine Transition

namespace Reference

/-- Best price first and, at equal price, first come first. -/
def ahead (s : Side) (m n : Node) : Prop :=
  better s m.order.price n.order.price ∨ m.order.price = n.order.price ∧ m.handle ≤ n.handle

instance (s : Side) : DecidableRel (ahead s) := fun _ _ => instDecidableOr

def opposing (incoming : Order) (resting : List Node) : List Node :=
  (resting.filter fun n => n.order.side = incoming.side.opposite).insertionSort
    (ahead incoming.side.opposite)

/-- A price no worse than the limit of an order on side `s`. -/
def noWorse : Side → Price → Price → Prop
  | .buy, limit, price => price ≤ limit
  | .sell, limit, price => limit ≤ price

instance (s : Side) (limit price : Price) : Decidable (noWorse s limit price) := by
  cases s <;> (unfold noWorse; infer_instance)

def crossing (incoming : Order) (resting : List Node) : List Node :=
  (opposing incoming resting).filter fun n =>
    incoming.type = .market ∨ noWorse incoming.side incoming.price n.order.price

/-- The touched orders in turn, each with the quantity it trades. -/
def fills (left : Quantity) : List Node → List (Node × Quantity)
  | [] => []
  | n :: ns =>
    if left = 0 then []
    else
      let quantity := min left n.order.remainingQuantity
      (n, quantity) :: fills (left - quantity) ns

def trade (incoming : Order) (fill : Node × Quantity) : Trade where
  buyOrderId := if incoming.side = .buy then incoming.id else fill.1.order.id
  sellOrderId := if incoming.side = .buy then fill.1.order.id else incoming.id
  price := fill.1.order.price
  quantity := fill.2
  timestamp := incoming.timestamp

/-- What the fills leave of a resting order: nothing, a part, or all of it. -/
def afterFills (fs : List (Node × Quantity)) (n : Node) : Option Node :=
  match fs.find? fun f => f.1.handle = n.handle with
  | none => some n
  | some f =>
    if f.2 = n.order.remainingQuantity then none
    else some { n with order :=
      { n.order with remainingQuantity := n.order.remainingQuantity - f.2 } }

/-- What is left of the incoming order, queued last if it may rest. -/
def residual (arrival : Nat) (incoming : Order) (left : Quantity) : List Node :=
  if incoming.type = .limit ∧ incoming.timeInForce = .goodTillCancel ∧ left ≠ 0 then
    [⟨arrival, { incoming with remainingQuantity := left }⟩]
  else []

def process (arrival : Nat) (incoming : Order) (resting : List Node) : List Trade × List Node :=
  let fs := fills incoming.remainingQuantity (crossing incoming resting)
  let left := incoming.remainingQuantity - (fs.map Prod.snd).sum
  (fs.map (trade incoming), resting.filterMap (afterFills fs) ++ residual arrival incoming left)

/-- The queue at a price: the resting orders of that side and price by arrival. -/
def queue (resting : List Node) (s : Side) (p : Price) : List Order :=
  ((resting.filter fun n => n.order.side = s ∧ n.order.price = p).insertionSort
    fun m n => m.handle ≤ n.handle).map Node.order

/-! ## A sweep is the greedy fill -/

theorem crosses_iff {o : Order} {p : Price} :
    crosses o.side o p ↔ o.type = .market ∨ noWorse o.side o.price p := by
  unfold crosses
  cases o.side <;> rfl

theorem tradeWith_eq (o : Order) (n : Node) (q : Quantity) :
    tradeWith o.side o n.order.id n.order.price q = trade o (n, q) := by
  unfold tradeWith trade
  cases o.side <;> rfl

theorem afterFills_nil (ns : List Node) : ns.filterMap (afterFills []) = ns :=
  List.filterMap_some

theorem afterFills_cons_ne {m n : Node} (q : Quantity) (fs : List (Node × Quantity))
    (h : n.handle ≠ m.handle) : afterFills ((n, q) :: fs) m = afterFills fs m := by
  simp [afterFills, h]

/-- Fills of other nodes leave a list of nodes as it is. -/
theorem filterMap_afterFills_of_ne {fs : List (Node × Quantity)} {ns : List Node}
    (h : ∀ f ∈ fs, ∀ n ∈ ns, f.1.handle ≠ n.handle) : ns.filterMap (afterFills fs) = ns := by
  have hsome : ∀ n ∈ ns, afterFills fs n = some n := by
    intro n hn
    have : fs.find? (fun f => f.1.handle = n.handle) = none := by
      rw [List.find?_eq_none]
      intro f hf
      simpa using h f hf n hn
    simp only [afterFills, this]
  rw [List.filterMap_congr hsome, List.filterMap_some]

theorem fills_mem {left : Quantity} {ns : List Node} {f : Node × Quantity} (h : f ∈ fills left ns) :
    f.1 ∈ ns := by
  induction ns generalizing left with
  | nil => simp [fills] at h
  | cons n ns ih =>
    simp only [fills] at h
    split at h
    · simp at h
    · rcases List.mem_cons.mp h with rfl | h
      · exact .head _
      · exact .tail _ (ih h)

@[simp] theorem fills_zero (ns : List Node) : fills 0 ns = [] := by
  cases ns <;> simp [fills]

/-- An exhausted sweep of a side in price-time order trades the greedy fills of what crosses. -/
theorem sweeps_fills {s : Side} {o o' : Order} {ns ns' : List Node} {ts : List Trade}
    (h : Sweeps s o ns ts o' ns') (hex : Exhausted s o' ns')
    (hsorted : ns.Pairwise (before s.opposite)) (hhandles : (ns.map Node.handle).Nodup) :
    let fs := fills o.remainingQuantity (ns.filter fun n => crosses s o n.order.price)
    ts = fs.map (fun f => tradeWith s o f.1.order.id f.1.order.price f.2) ∧
      ns' = ns.filterMap (afterFills fs) ∧
      o'.remainingQuantity = o.remainingQuantity - (fs.map Prod.snd).sum := by
  induction h with
  | @stop o ns =>
    have hnil : fills o.remainingQuantity (ns.filter fun n => crosses s o n.order.price) = [] := by
      by_cases h0 : o.remainingQuantity = 0
      · rw [h0, fills_zero]
      · have hnone : ns.filter (fun n => crosses s o n.order.price) = [] := by
          rw [List.filter_eq_nil_iff]
          simpa using hex.forall hsorted (by grind)
        rw [hnone]
        rfl
    simp only [hnil, List.map_nil, afterFills_nil, List.sum_nil, true_and]
    grind
  | @step o o' n ns ns' ts hpos hcross rest ih =>
    have h0 : o.remainingQuantity ≠ 0 := by grind
    obtain ⟨hn, hns⟩ := List.pairwise_cons.mp hsorted
    have hnodup := List.nodup_cons.mp (List.map_cons ▸ hhandles)
    have hne : ∀ m ∈ ns, n.handle ≠ m.handle := fun m hm h =>
      hnodup.1 (h ▸ List.mem_map_of_mem hm)
    have hfs : fills o.remainingQuantity ((n :: ns).filter fun n => crosses s o n.order.price) =
        (n, tradeQuantity o n) :: fills (o.fill (tradeQuantity o n)).remainingQuantity
          (ns.filter fun n => crosses s o n.order.price) := by
      rw [List.filter_cons_of_pos (by simpa using hcross), fills, if_neg h0]
      rfl
    have htail : ∀ fs, ns.filterMap (afterFills ((n, tradeQuantity o n) :: fs)) =
        ns.filterMap (afterFills fs) := fun fs =>
      List.filterMap_congr fun m hm => afterFills_cons_ne _ _ (hne m hm)
    simp only [hfs, List.map_cons, List.sum_cons, List.filterMap_cons, htail]
    by_cases hfull : tradeQuantity o n = n.order.remainingQuantity
    · simp only [filled, if_pos hfull, crosses_fill] at ih
      obtain ⟨hts, hns', hleft⟩ := ih hex hns hnodup.2
      have hgone : ∀ fs, afterFills ((n, tradeQuantity o n) :: fs) n = none := fun fs => by
        simp [afterFills, hfull]
      refine ⟨?_, ?_, ?_⟩
      · rw [hts]
        rfl
      · rw [hgone, hns']
      · rw [hleft, Order.fill_remaining, sub_sub]
    · -- the incoming order is used up, so the walk ends here
      have hzero := fill_remaining_eq_zero hfull
      simp only [filled, if_neg hfull] at rest
      cases rest with
      | step hpos' => rw [hzero] at hpos'; exact absurd hpos' (by decide)
      | stop =>
        have hpart : ∀ fs, afterFills ((n, tradeQuantity o n) :: fs) n =
            some (n.fill (tradeQuantity o n)) := fun fs => by
          simp [afterFills, hfull, Node.fill]
        simp only [hzero, fills_zero, List.map_nil, List.sum_nil, afterFills_nil, hpart]
        refine ⟨trivial, trivial, ?_⟩
        rw [add_zero]
        exact hzero.symm

/-! ## The reference on a consistent book -/

section Book

variable {b : OrderBook} {o o' : Order}

theorem opposing_eq (hc : Consistent b) (o : Order) :
    opposing o b.allNodes = b.nodes o.side.opposite := by
  rw [opposing, hc.filter_side]
  refine List.Pairwise.insertionSort_eq ((hc.pairwise _).imp fun h => ?_)
  exact h.imp_right fun ⟨he, hlt⟩ => ⟨he, Nat.le_of_lt hlt⟩

theorem crossing_eq (hc : Consistent b) (o : Order) :
    crossing o b.allNodes =
      (b.nodes o.side.opposite).filter fun n => crosses o.side o n.order.price := by
  simp only [crossing, opposing_eq hc, crosses_iff]

theorem residual_eq {arrival : Nat} (h : o' = { o with remainingQuantity := o'.remainingQuantity }) :
    residual arrival o o'.remainingQuantity = rested arrival o' := by
  have hrest : mayRest o' = mayRest o := by rw [h]; rfl
  have hpos : 0 < o'.remainingQuantity ↔ o'.remainingQuantity ≠ 0 := by grind
  have hiff : (o.type = .limit ∧ o.timeInForce = .goodTillCancel ∧ o'.remainingQuantity ≠ 0) ↔
      0 < o'.remainingQuantity ∧ mayRest o' = true := by
    rw [hrest, hpos, mayRest_iff, ← and_assoc, and_comm]
  simp only [residual, rested, hiff, ← h]

theorem handles_nodup (hc : Consistent b) (s : Side) : ((b.nodes s).map Node.handle).Nodup := by
  have h := hc.handles_nodup
  rw [((allNodes_perm b s).map Node.handle).nodup_iff, List.map_append, List.nodup_append] at h
  exact h.1

/-- What the reference makes of the nodes of a consistent book. -/
theorem process_of_processed {ts : List Trade} {b' : OrderBook} (hc : Consistent b)
    (h : Processed o b ts o' b') (htif : o.timeInForce ≠ .fillOrKill) :
    ts = (process b.nextNode o b.allNodes).1 ∧
      b'.allNodes.Perm (process b.nextNode o b.allNodes).2 := by
  obtain ⟨hts, hopp, hleft⟩ := sweeps_fills h.sweeps (h.exhausted htif) (hc.pairwise _)
    (handles_nodup hc _)
  rw [← crossing_eq hc] at hts hopp hleft
  let fs := fills o.remainingQuantity (crossing o b.allNodes)
  have hmem : ∀ f ∈ fs, f.1 ∈ b.nodes o.side.opposite := fun f hf => by
    have := fills_mem hf
    rw [crossing_eq hc] at this
    exact List.mem_of_mem_filter this
  have hown : (b.nodes o.side).filterMap (afterFills fs) = b.nodes o.side :=
    filterMap_afterFills_of_ne fun f hf n hn => hc.handle_ne_opposite hn (hmem f hf)
  constructor
  · rw [hts]
    exact List.map_congr_left fun f _ => tradeWith_eq o f.1 f.2
  · have hresting : (b.nodes o.side ++ b'.nodes o.side.opposite).Perm
        (b.allNodes.filterMap (afterFills fs)) := by
      rw [hopp, ← hown, ← List.filterMap_append]
      exact (allNodes_perm b o.side).symm.filterMap _
    have hresidual : rested b.nextNode o' = residual b.nextNode o
        (o.remainingQuantity - (fs.map Prod.snd).sum) := by
      rw [← hleft, residual_eq h.sweeps.residual_eq]
    refine (allNodes_perm b' o.side).trans ((h.own.append_right _).trans ?_)
    rw [List.append_assoc, hresidual]
    exact List.perm_append_comm.trans (hresting.append_right _)

/-- The queue at a price of a book, from any permutation of its nodes. -/
theorem queueAt_eq_queue (hc : Consistent b) {resting : List Node} (h : b.allNodes.Perm resting)
    (s : Side) (p : Price) : b.queueAt s p = queue resting s p := by
  rw [hc.queueAt_eq, queue]
  congr 1
  have hperm : ((b.nodes s).filter fun n => n.order.price = p).Perm
      (resting.filter fun n => n.order.side = s ∧ n.order.price = p) := by
    have hsplit : (b.nodes s).filter (fun n => n.order.price = p) =
        b.allNodes.filter fun n => n.order.side = s ∧ n.order.price = p := by
      rw [← hc.filter_side, List.filter_filter]
      congr 1
      funext n
      simp [and_comm]
    rw [hsplit]
    exact h.filter _
  have hfifo : ((b.nodes s).filter fun n => n.order.price = p).Pairwise
      fun m n => m.handle ≤ n.handle := (hc.arrivals s p).imp Nat.le_of_lt
  refine List.Perm.eq_of_pairwise (fun m n hm hn h₁ h₂ => ?_) hfifo
    (List.pairwise_insertionSort _ _) (hperm.trans (List.perm_insertionSort _ _).symm)
  have hm' := mem_allNodes_of (List.mem_filter.mp hm).1
  have hn' := (List.mem_filter.mp (hperm.mem_iff.mpr ((List.mem_insertionSort _).mp hn))).1
  exact hc.eq_of_handle hm' (mem_allNodes_of hn') (Nat.le_antisymm h₁ h₂)

theorem process_normalize (arrival : Nat) (o : Order) (resting : List Node) :
    process arrival (normalizeIncoming o) resting = process arrival o resting := by
  by_cases hlimit : o.type = .limit
  · rw [normalize_of_limit hlimit]
  · have htrade : trade (normalizeIncoming o) = trade o := by funext f; simp [trade]
    simp [process, crossing, opposing, residual, htrade, hlimit]

end Book

end Reference

/-- On a book that any commands have led to, an order that is not fill-or-kill and whose id does not
rest is matched as the reference matches it: the same trades in the same order, the same resting
orders afterwards, in the same queues. -/
theorem processOrderInto_reference (calls : List EngineCall) (incoming : Order) :
    let book := calls.foldl EngineCall.apply OrderBook.new
    0 < incoming.remainingQuantity → book.contains incoming.id = false →
      incoming.timeInForce ≠ .fillOrKill →
    ∃ book', processOrderInto incoming book =
        .returned (Reference.process book.nextNode incoming book.allNodes).1 book' ∧
      book'.allNodes.Perm (Reference.process book.nextNode incoming book.allNodes).2 ∧
      (∀ s p, book'.queueAt s p =
        Reference.queue (Reference.process book.nextNode incoming book.allNodes).2 s p) ∧
      ∀ n ∈ book.allNodes, n.handle < book.nextNode := by
  intro book hpos hid htif
  have hc : Consistent book := consistent_engineCalls calls
  have htif' : (normalizeIncoming incoming).timeInForce ≠ .fillOrKill := by
    unfold normalizeIncoming
    split
    · simp
    · exact htif
  obtain ⟨ts, o', book', hret, hproc⟩ := processOrderInto_ok hc hid hpos
  obtain ⟨hts, hnodes⟩ := Reference.process_of_processed hc hproc htif'
  rw [Reference.process_normalize] at hts hnodes
  exact ⟨book', by rw [hret, hts], hnodes,
    Reference.queueAt_eq_queue hproc.consistent hnodes, hc.handle_lt⟩

/-- Two asks rest at 11 and one at 10; a buy for 8 at 11 takes the best, then the older of the two. -/
theorem processOrderInto_reference_sweep :
    let calls : List EngineCall :=
      [.processOrder ⟨1, .sell, .limit, .goodTillCancel, 11, 4, 4, 1⟩,
        .processOrder ⟨2, .sell, .limit, .goodTillCancel, 11, 4, 4, 2⟩,
        .processOrder ⟨3, .sell, .limit, .goodTillCancel, 10, 5, 5, 3⟩]
    let book := calls.foldl EngineCall.apply OrderBook.new
    ∃ book', processOrderInto ⟨4, .buy, .limit, .goodTillCancel, 11, 8, 8, 4⟩ book =
        .returned [⟨4, 3, 10, 5, 4⟩, ⟨4, 1, 11, 3, 4⟩] book' ∧
      book'.queueAt .sell 11 = [⟨1, .sell, .limit, .goodTillCancel, 11, 4, 1, 1⟩,
        ⟨2, .sell, .limit, .goodTillCancel, 11, 4, 4, 2⟩] :=
  let ⟨book', hret, _, hqueue, _⟩ := processOrderInto_reference
    [.processOrder ⟨1, .sell, .limit, .goodTillCancel, 11, 4, 4, 1⟩,
      .processOrder ⟨2, .sell, .limit, .goodTillCancel, 11, 4, 4, 2⟩,
      .processOrder ⟨3, .sell, .limit, .goodTillCancel, 10, 5, 5, 3⟩]
    ⟨4, .buy, .limit, .goodTillCancel, 11, 8, 8, 4⟩ (by decide) (by decide) (by decide)
  ⟨book', hret.trans (congrArg (Outcome.returned · book') (by decide)), (hqueue .sell 11).trans (by decide)⟩

end ExchangeLab

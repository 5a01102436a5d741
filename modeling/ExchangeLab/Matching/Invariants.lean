import ExchangeLab.Matching.Commands
import ExchangeLab.Lib.Transition

/-!
# ExchangeLab.Matching.Invariants

What holds of a book after any sequence of calls, whether they return or throw.

* `representation_holds`: the index and the level queues are in bijection, and every level and
  every queued order is proper (`WellFormed` spells it out).
* `never_crossed`: under the engine's own commands the best bid stays below the best ask.

The first allows the book operations that the engine does not expose, which can cross a book.
-/

namespace ExchangeLab

open Container OrderBook MatchingEngine Transition

/-! ## Calls -/

inductive EngineCall where
  | processOrder (incoming : Order)
  | cancelOrder (id : OrderId)
  | replaceOrder (id : OrderId) (newPrice : Price) (newQuantity : Quantity) (newTimestamp : Timestamp)

/-- The book after a call, returned or thrown. -/
def EngineCall.apply (book : OrderBook) : EngineCall → OrderBook
  | .processOrder incoming => (MatchingEngine.processOrder incoming book).state
  | .cancelOrder id => (MatchingEngine.cancelOrder id book).state
  | .replaceOrder id newPrice newQuantity newTimestamp =>
    (MatchingEngine.replaceOrder id newPrice newQuantity newTimestamp book).state

inductive BookCall where
  | addOrder (order : Order)
  | cancelOrder (id : OrderId)
  | extractOrder (id : OrderId)
  | engine (call : EngineCall)

def BookCall.apply (book : OrderBook) : BookCall → OrderBook
  | .addOrder order => (OrderBook.addOrder order book).state
  | .cancelOrder id => (OrderBook.cancelOrder id book).state
  | .extractOrder id => (OrderBook.extractOrder id book).state
  | .engine call => call.apply book

/-! ## Consistency -/

section Consistent

variable {b : OrderBook}

/-- An extraction returns the order it takes out, finds none, or changes nothing. -/
theorem extractOrder_cases (hc : Consistent b) (id : OrderId) :
    (b.extractOrder id).state = b ∨
      ∃ s, ∃ n ∈ b.nodes s, n.order.id = id ∧ ∃ b', b.extractOrder id = .returned (some n.order) b' ∧
        Consistent b' ∧ b'.nodes s = ((b.nodes s).filter fun m => m.handle ≠ n.handle) ∧
        b'.nodes s.opposite = b.nodes s.opposite := by
  by_cases hex : ∃ n ∈ b.allNodes, n.order.id = id
  · obtain ⟨n, hn, rfl⟩ := hex
    obtain ⟨s, hs⟩ := mem_allNodes.mp hn
    rcases extractOrder_some hc hs with ⟨-, hthrow⟩ | ⟨-, b', hret, hc', hself, hother, -⟩
    · exact .inl (by rw [hthrow]; rfl)
    · exact .inr ⟨s, n, hs, rfl, b', hret, hc', hself, hother⟩
  · refine .inl ?_
    rw [extractOrder_none hc fun n hn he => hex ⟨n, hn, he⟩]
    rfl

theorem cancelOrder_state (id : OrderId) (b : OrderBook) :
    (b.cancelOrder id).state = (b.extractOrder id).state := by
  rw [OrderBook.cancelOrder]
  cases b.extractOrder id <;> rfl

theorem extractOrder_consistent (hc : Consistent b) (id : OrderId) :
    Consistent (b.extractOrder id).state := by
  rcases extractOrder_cases hc id with h | ⟨_, _, _, _, b', hret, hc', -⟩
  · rwa [h]
  · rwa [hret]

theorem addOrder_consistent (hc : Consistent b) (o : Order) : Consistent (addOrder o b).state := by
  rcases addOrder_thrown_or b o with ⟨f, hf⟩ | ⟨hid, htype, hpos⟩
  · rwa [hf]
  · obtain ⟨b', hadd, hc', -⟩ := addOrder_ok hc hid htype hpos
    rwa [hadd]

theorem processOrderInto_consistent (hc : Consistent b) (o : Order) :
    Consistent (processOrderInto o b).state :=
  let ⟨_, _, h, _⟩ := processOrderInto_state o hc
  h

/-- The state after a replacement is the one before it, or one that processing an order leaves. -/
theorem replaceOrderInto_state (hc : Consistent b) (id : OrderId) (p : Price) (q : Quantity)
    (ts : Timestamp) :
    (replaceOrderInto id p q ts b).state = b ∨
      ∃ s, ∃ n ∈ b.nodes s, ∃ b₁, Consistent b₁ ∧
        b₁.nodes s = ((b.nodes s).filter fun m => m.handle ≠ n.handle) ∧
        b₁.nodes s.opposite = b.nodes s.opposite ∧
        (replaceOrderInto id p q ts b).state =
          (processOrderInto (replacement n.order p q ts) b₁).state := by
  rcases replaceOrderInto_cases hc id p q ts with
    h | ⟨s, n, hn, -, -, b₁, -, hc₁, hself, hother, h⟩
  · exact .inl h
  · refine .inr ⟨s, n, hn, b₁, hc₁, hself, hother, ?_⟩
    rw [h]
    cases processOrderInto (replacement n.order p q ts) b₁ <;> rfl

theorem EngineCall.consistent (hc : Consistent b) (call : EngineCall) :
    Consistent (call.apply b) := by
  cases call with
  | processOrder o => exact processOrderInto_consistent hc o
  | cancelOrder id =>
    simp only [apply, MatchingEngine.cancelOrder, cancelOrder_state]
    exact extractOrder_consistent hc id
  | replaceOrder id p q ts =>
    rcases replaceOrderInto_state hc id p q ts with h | ⟨_, n, _, b₁, hc₁, _, _, h⟩
    · simpa only [apply, MatchingEngine.replaceOrder, h] using hc
    · simpa only [apply, MatchingEngine.replaceOrder, h] using processOrderInto_consistent hc₁ _

theorem BookCall.consistent (hc : Consistent b) (call : BookCall) : Consistent (call.apply b) := by
  cases call with
  | addOrder o => exact addOrder_consistent hc o
  | cancelOrder id =>
    simp only [apply, cancelOrder_state]
    exact extractOrder_consistent hc id
  | extractOrder id => exact extractOrder_consistent hc id
  | engine call => exact call.consistent hc

end Consistent

theorem consistent_engineCalls (calls : List EngineCall) :
    Consistent (calls.foldl EngineCall.apply OrderBook.new) := by
  refine (Run.of_fold EngineCall.apply OrderBook.new calls).invariant consistent_new ?_
  rintro b call b' hc rfl
  exact call.consistent hc

theorem consistent_bookCalls (calls : List BookCall) :
    Consistent (calls.foldl BookCall.apply OrderBook.new) := by
  refine (Run.of_fold BookCall.apply OrderBook.new calls).invariant consistent_new ?_
  rintro b call b' hc rfl
  exact call.consistent hc

/-! ## The representation invariant -/

/-- The representation invariant of `OrderBook`, in terms of its containers. -/
structure WellFormed (b : OrderBook) : Prop where
  /-- An indexed id points at exactly one queued order, which has that id. -/
  indexed : ∀ id location, b.orderLocations.lookup id = some location →
    ∃ level, (b.levels location.side).find? location.price = some level ∧
      ∃! n, n ∈ level.orders ∧ n.handle = location.orderIterator ∧ n.order.id = id
  /-- A queued order is indexed under its side and price, at its own list node. -/
  queuedIndexed : ∀ s, ∀ e ∈ (b.levels s).entries, ∀ n ∈ e.2.orders,
    b.orderLocations.lookup n.order.id = some ⟨s, e.1, n.handle⟩
  handlesDistinct : (b.allNodes.map Node.handle).Nodup
  idsDistinct : (b.allNodes.map fun n => n.order.id).Nodup
  nonempty : ∀ s, ∀ e ∈ (b.levels s).entries, e.2.empty = false
  placed : ∀ s, ∀ e ∈ (b.levels s).entries, e.2.price = e.1 ∧
    ∀ n ∈ e.2.orders, n.order.price = e.1 ∧ n.order.side = s
  resting : ∀ n ∈ b.allNodes, n.order.type = .limit ∧ 0 < n.order.remainingQuantity
  emptyIff : b.empty = true ↔ b.orderCount = 0

section WellFormed

variable {b : OrderBook}

theorem Consistent.ids_nodup (hc : Consistent b) : (b.allNodes.map fun n => n.order.id).Nodup := by
  have hnodup : b.allNodes.Nodup := .of_map _ hc.handles_nodup
  exact hnodup.map_on fun m hm n hn h => hc.eq_of_id hm hn h

theorem Consistent.allNodes_eq_nil (hc : Consistent b) : b.allNodes = [] ↔ b.empty = true := by
  have hbids := queued_eq_nil (hc.levelsOk .buy)
  have hasks := queued_eq_nil (hc.levelsOk .sell)
  simp only [levels] at hbids hasks
  simp only [allNodes, nodes, List.append_eq_nil_iff, empty, Bool.and_eq_true,
    OrderedMap.isEmpty_iff, levels, hbids, hasks]

theorem Consistent.orderCount_eq_zero (hc : Consistent b) :
    b.orderCount = 0 ↔ b.allNodes = [] := by
  rw [orderCount, Finset.card_eq_zero, List.eq_nil_iff_forall_not_mem, Finset.eq_empty_iff_forall_notMem]
  constructor
  · intro h n hn
    refine h n.order.id ?_
    rw [Finmap.mem_keys, ← Finmap.lookup_isSome, hc.lookup_isSome hn]
    rfl
  · intro h id hid
    rw [Finmap.mem_keys, ← Finmap.lookup_isSome, Option.isSome_iff_exists] at hid
    obtain ⟨location, hl⟩ := hid
    obtain ⟨n, hn, -⟩ := (hc.indexed id location).mp hl
    exact h n hn

theorem Consistent.wellFormed (hc : Consistent b) : WellFormed b where
  indexed id location hl := by
    obtain ⟨n, hn, rfl, rfl⟩ := (hc.indexed id location).mp hl
    obtain ⟨level, he, hmem⟩ := queued_price (hc.levelsOk _) (hc.mem_nodes_side hn)
    refine ⟨level, OrderedMap.find?_of_mem he, n, ⟨hmem, rfl, rfl⟩, ?_⟩
    rintro m ⟨hm, hh, -⟩
    exact hc.eq_of_handle (mem_allNodes_of (mem_queued.mpr ⟨_, he, hm⟩)) hn hh
  queuedIndexed s e he n hn := by
    have hrests := ((hc.levelsOk s) e he).1.rests n hn
    rw [hc.lookup_isSome (mem_allNodes_of (mem_queued.mpr ⟨e, he, hn⟩)), Node.location,
      hrests.side, hrests.price]
  handlesDistinct := hc.handles_nodup
  idsDistinct := hc.ids_nodup
  nonempty s e he := by simpa [PriceLevel.empty] using ((hc.levelsOk s) e he).2
  placed s e he := by
    obtain ⟨hl, -⟩ := (hc.levelsOk s) e he
    exact ⟨hl.price, fun n hn => ⟨(hl.rests n hn).price, (hl.rests n hn).side⟩⟩
  resting n hn := by
    obtain ⟨s, hs⟩ := mem_allNodes.mp hn
    exact ⟨(hc.nodes_rests hs).type, (hc.nodes_rests hs).positive⟩
  emptyIff := by rw [hc.orderCount_eq_zero, hc.allNodes_eq_nil]

end WellFormed

theorem representation_holds (calls : List BookCall) :
    WellFormed (calls.foldl BookCall.apply OrderBook.new) :=
  (consistent_bookCalls calls).wellFormed

/-! ## The book is never crossed -/

/-- Every bid is below every ask. -/
def Uncrossed (b : OrderBook) : Prop :=
  ∀ m ∈ b.nodes .buy, ∀ n ∈ b.nodes .sell, m.order.price < n.order.price

section Uncrossed

variable {b : OrderBook}

theorem uncrossed_iff (s : Side) :
    Uncrossed b ↔ ∀ m ∈ b.nodes s, ∀ n ∈ b.nodes s.opposite, better s n.order.price m.order.price := by
  cases s
  · rfl
  · exact ⟨fun h m hm n hn => h n hn m hm, fun h m hm n hn => h n hn m hm⟩

/-- Fewer resting prices keep a book uncrossed. -/
theorem Uncrossed.mono {b' : OrderBook} (h : Uncrossed b) (s : Side)
    (hs : ∀ n' ∈ b'.nodes s, ∃ n ∈ b.nodes s, n.order.price = n'.order.price)
    (ho : ∀ n' ∈ b'.nodes s.opposite, ∃ n ∈ b.nodes s.opposite, n.order.price = n'.order.price) :
    Uncrossed b' := by
  rw [uncrossed_iff s] at h ⊢
  intro m' hm' n' hn'
  obtain ⟨m, hm, hmp⟩ := hs m' hm'
  obtain ⟨n, hn, hnp⟩ := ho n' hn'
  rw [← hmp, ← hnp]
  exact h m hm n hn

/-- Once the head of a queue in price-time order does not cross, nothing behind it does. -/
theorem Exhausted.forall {s : Side} {o : Order} {ns : List Node} (h : Exhausted s o ns)
    (hsorted : ns.Pairwise (before s.opposite)) (hpos : 0 < o.remainingQuantity) :
    ∀ n ∈ ns, ¬ crosses s o n.order.price := by
  cases ns with
  | nil => simp
  | cons m ns =>
    have hm : ¬ crosses s o m.order.price := h hpos m rfl
    intro n hn hcross
    rcases List.mem_cons.mp hn with rfl | hn
    · exact hm hcross
    · rcases (List.pairwise_cons.mp hsorted).1 n hn with hb | ⟨he, -⟩
      · exact hm (crosses_better hcross hb)
      · exact hm (he ▸ hcross)

/-- A limit order that does not cross a price is on the other side of it. -/
theorem better_of_not_crosses {s : Side} {o : Order} {p : Price} (h : ¬ crosses s o p) :
    better s p o.price := by
  have : ¬ withinLimit s o p := fun hw => h (.inr hw)
  cases s <;> simp only [withinLimit, better] at * <;> grind

theorem processOrderInto_uncrossed (hc : Consistent b) (hu : Uncrossed b) (o : Order) :
    Uncrossed (processOrderInto o b).state := by
  obtain ⟨ts, o', hc', hsweep, hown⟩ := processOrderInto_state o hc
  have hopp : ∀ n' ∈ (processOrderInto o b).state.nodes o.side.opposite,
      ∃ n ∈ b.nodes o.side.opposite, n.order.price = n'.order.price := fun n' hn' =>
    let ⟨n, hn, hp, _⟩ := hsweep.resting_price hn'
    ⟨n, hn, hp⟩
  rcases hown with hown | ⟨hex, hown⟩
  · exact hu.mono o.side (fun m hm => ⟨m, hown ▸ hm, rfl⟩) hopp
  rw [uncrossed_iff o.side] at hu ⊢
  intro m hm n' hn'
  rcases List.mem_append.mp (hown.mem_iff.mp hm) with hm | hm
  · obtain ⟨⟨hpos, -⟩, rfl⟩ := mem_rested.mp hm
    exact better_of_not_crosses (hex.forall (hc'.pairwise _) hpos n' hn')
  · obtain ⟨n, hn, hp⟩ := hopp n' hn'
    exact hp ▸ hu m hm n hn

theorem Uncrossed.extract {b' : OrderBook} {s : Side} {n : Node} (hu : Uncrossed b)
    (hself : b'.nodes s = (b.nodes s).filter fun m => m.handle ≠ n.handle)
    (hother : b'.nodes s.opposite = b.nodes s.opposite) : Uncrossed b' := by
  refine hu.mono s (fun m hm => ⟨m, ?_, rfl⟩) (fun m hm => ⟨m, hother ▸ hm, rfl⟩)
  rw [hself] at hm
  exact List.mem_of_mem_filter hm

theorem EngineCall.uncrossed (hc : Consistent b) (hu : Uncrossed b) (call : EngineCall) :
    Uncrossed (call.apply b) := by
  cases call with
  | processOrder o => exact processOrderInto_uncrossed hc hu o
  | cancelOrder id =>
    simp only [apply, MatchingEngine.cancelOrder, cancelOrder_state]
    rcases extractOrder_cases hc id with h | ⟨s, n, -, -, b', hret, -, hself, hother⟩
    · rwa [h]
    · rw [hret]
      exact hu.extract hself hother
  | replaceOrder id p q ts =>
    simp only [apply, MatchingEngine.replaceOrder]
    rcases replaceOrderInto_state hc id p q ts with h | ⟨s, n, -, b₁, hc₁, hself, hother, h⟩
    · rwa [h]
    · rw [h]
      exact processOrderInto_uncrossed hc₁ (hu.extract hself hother) _

/-- The best price of a side that has levels is the price of its first queued order. -/
theorem bestPrice_ok (hc : Consistent b) {s : Side} (h : b.hasLevels s = true) :
    ∃ n ∈ b.nodes s, b.bestPrice s = .ok n.order.price := by
  cases hn : b.nodes s with
  | nil =>
    have he := (queued_eq_nil (hc.levelsOk s)).mp hn
    simp [hasLevels, OrderedMap.isEmpty, he] at h
  | cons n ns =>
    obtain ⟨level, rest, B, he, -⟩ := first?_of_nodes hc hn
    exact ⟨n, .head _, by simp [bestPrice, OrderedMap.first?, he]⟩

end Uncrossed

theorem never_crossed (calls : List EngineCall) :
    let book := calls.foldl EngineCall.apply OrderBook.new
    book.hasBids = true → book.hasAsks = true →
      ∃ bid ask, book.bestBid = .ok bid ∧ book.bestAsk = .ok ask ∧ bid < ask := by
  intro book hbids hasks
  have hrun := Run.of_fold EngineCall.apply OrderBook.new calls
  obtain ⟨hc, hu⟩ : Consistent book ∧ Uncrossed book := by
    refine hrun.invariant (P := fun b => Consistent b ∧ Uncrossed b)
      ⟨consistent_new, fun m hm => by simp [nodes, queued, levels, OrderBook.new] at hm⟩ ?_
    rintro b call b' ⟨hc, hu⟩ rfl
    exact ⟨call.consistent hc, call.uncrossed hc hu⟩
  obtain ⟨m, hm, hbid⟩ := bestPrice_ok hc hbids
  obtain ⟨n, hn, hask⟩ := bestPrice_ok hc hasks
  exact ⟨m.order.price, n.order.price, hbid, hask, hu m hm n hn⟩

/-- A bid at 10 and an ask at 11 rest, an aggressive sell takes part of the bid. -/
theorem never_crossed_run :
    let calls : List EngineCall :=
      [.processOrder ⟨1, .buy, .limit, .goodTillCancel, 10, 5, 5, 1⟩,
        .processOrder ⟨2, .sell, .limit, .goodTillCancel, 11, 5, 5, 2⟩,
        .processOrder ⟨3, .sell, .market, .goodTillCancel, 0, 2, 2, 3⟩]
    ∃ bid ask, (calls.foldl EngineCall.apply OrderBook.new).bestBid = .ok bid ∧
      (calls.foldl EngineCall.apply OrderBook.new).bestAsk = .ok ask ∧ bid < ask :=
  never_crossed _ (by decide) (by decide)

end ExchangeLab

import ExchangeLab.OrderBook

/-!
# ExchangeLab.Book.Levels

What the level map of one side stores, and what storing a level does to it.

* `LevelOk s p l`: level `l` is a proper level of side `s` at price `p`; each of the three level
  operations keeps it (`LevelOk.addOrder`, `LevelOk.erase`, `LevelOk.fillFront`).
* `LevelsOk`: every level of the map is proper, and none is empty.
* `queued_pairwise`: the queued nodes stand in price-time order, where the time of a node is its
  handle (handles are allocated in increasing order).
* `storeLevel_ok` / `queued_storeLevel`: writing a level back changes its own queue and nothing else.
-/

namespace ExchangeLab

open Container

/-- `m` comes before `n` in the price-time order of side `s`. -/
def before (s : Side) (m n : Node) : Prop :=
  better s m.order.price n.order.price ∨ m.order.price = n.order.price ∧ m.handle < n.handle

instance (s : Side) : DecidableRel (before s) := fun _ _ => instDecidableOr

theorem before_asymm {s : Side} {m n : Node} (h₁ : before s m n) (h₂ : before s n m) : False := by
  rcases h₁ with h₁ | ⟨he, h₁⟩ <;> rcases h₂ with h₂ | ⟨he', h₂⟩
  · exact better_irrefl s _ (better_trans h₁ h₂)
  · exact better_irrefl s _ (he' ▸ h₁)
  · exact better_irrefl s _ (he ▸ h₂)
  · omega

/-- What a fill of `quantity` leaves of a node. -/
def Node.fill (n : Node) (quantity : Quantity) : Node :=
  { n with order :=
      { n.order with remainingQuantity := n.order.remainingQuantity - quantity } }

/-- A queue after its first node has been filled by `quantity`. -/
def filled (quantity : Quantity) : List Node → List Node
  | [] => []
  | n :: ns => if quantity = n.order.remainingQuantity then ns else n.fill quantity :: ns

/-- The remaining quantity of a list of nodes, as the 32-bit counter computes it. -/
def remaining (nodes : List Node) : Quantity := (nodes.map fun n => n.order.remainingQuantity).sum

@[simp] theorem remaining_nil : remaining [] = 0 := rfl
@[simp] theorem remaining_cons (n : Node) (ns : List Node) :
    remaining (n :: ns) = n.order.remainingQuantity + remaining ns := rfl
@[simp] theorem remaining_append (ms ns : List Node) :
    remaining (ms ++ ns) = remaining ms + remaining ns := by simp [remaining]

/-- An order that may rest on side `s` at price `p`. -/
structure Rests (s : Side) (p : Price) (o : Order) : Prop where
  side : o.side = s
  price : o.price = p
  type : o.type = .limit
  positive : 0 < o.remainingQuantity

/-! ## One level -/

structure LevelOk (s : Side) (p : Price) (l : PriceLevel) : Prop where
  price : l.price = p
  rests : ∀ n ∈ l.orders, Rests s p n.order
  fifo : l.orders.Pairwise fun m n => m.handle < n.handle
  total : l.totalQuantity = remaining l.orders

namespace LevelOk

variable {s : Side} {p : Price} {l : PriceLevel}

theorem new (s : Side) (p : Price) : LevelOk s p (.new p) :=
  ⟨rfl, by simp [PriceLevel.new], by simp [PriceLevel.new], rfl⟩

theorem addOrder (hl : LevelOk s p l) (handle : Nat) {o : Order} (ho : Rests s p o)
    (hlt : ∀ n ∈ l.orders, n.handle < handle) :
    ∃ l', l.addOrder handle o = .ok l' ∧ LevelOk s p l' ∧ l'.orders = l.orders ++ [⟨handle, o⟩] := by
  have hpos : o.remainingQuantity ≠ 0 := by have := ho.positive; grind
  have hprice : o.price = l.price := by rw [ho.price, hl.price]
  refine ⟨_, by rw [PriceLevel.addOrder, if_neg hpos, if_neg (not_not.mpr hprice)], ?_, rfl⟩
  refine ⟨hl.price, fun n hn => ?_, ?_, ?_⟩
  · rcases List.mem_append.mp hn with hn | hn
    · exact hl.rests n hn
    · rw [List.mem_singleton.mp hn]; exact ho
  · rw [List.pairwise_append]
    exact ⟨hl.fifo, by simp, by simpa using hlt⟩
  · simp [← hl.total]

theorem handles_nodup (hl : LevelOk s p l) : (l.orders.map Node.handle).Nodup :=
  (List.pairwise_map.mpr hl.fifo).imp Nat.ne_of_lt

/-- In a queue of increasing handles a handle picks out one node. -/
theorem find?_handle (hl : LevelOk s p l) {n : Node} (hn : n ∈ l.orders) :
    l.orders.find? (fun m => m.handle = n.handle) = some n := by
  cases hf : l.orders.find? (fun m => m.handle = n.handle) with
  | none =>
    rw [List.find?_eq_none] at hf
    exact absurd (decide_eq_true (rfl : n.handle = n.handle)) (hf n hn)
  | some m =>
    have hm := List.find?_some hf
    simp only [decide_eq_true_eq] at hm
    rw [List.inj_on_of_nodup_map hl.handles_nodup (List.mem_of_find?_eq_some hf) hn hm]

theorem remaining_filter (hl : LevelOk s p l) {n : Node} (hn : n ∈ l.orders) :
    remaining (l.orders.filter fun m => m.handle ≠ n.handle) =
      l.totalQuantity - n.order.remainingQuantity := by
  obtain ⟨C, D, hCD⟩ := List.append_of_mem hn
  have hfifo := hl.fifo
  rw [hCD, List.pairwise_append] at hfifo
  have hC : C.filter (fun m => m.handle ≠ n.handle) = C := by
    rw [List.filter_eq_self]
    intro m hm
    simpa using Nat.ne_of_lt (hfifo.2.2 m hm n (.head _))
  have hD : D.filter (fun m => m.handle ≠ n.handle) = D := by
    rw [List.filter_eq_self]
    intro m hm
    simpa using Nat.ne_of_gt ((List.pairwise_cons.mp hfifo.2.1).1 m hm)
  rw [hl.total, hCD, List.filter_append, List.filter_cons, hC, hD]
  simp only [ne_eq, not_true_eq_false, decide_false, remaining_append, remaining_cons]
  grind

/-- The level checks the total it keeps, which is the true one only modulo `2^32`. -/
theorem erase (hl : LevelOk s p l) {n : Node} (hn : n ∈ l.orders) :
    (l.totalQuantity < n.order.remainingQuantity ∧
        l.erase n.handle = .error (.logicError "Price level quantity is inconsistent")) ∨
      (n.order.remainingQuantity ≤ l.totalQuantity ∧ ∃ l', l.erase n.handle = .ok l' ∧
        LevelOk s p l' ∧ l'.orders = l.orders.filter fun m => m.handle ≠ n.handle) := by
  by_cases hq : n.order.remainingQuantity > l.totalQuantity
  · exact .inl ⟨hq, by simp [PriceLevel.erase, hl.find?_handle hn, hq]⟩
  refine .inr ⟨by grind, { l with
      totalQuantity := l.totalQuantity - n.order.remainingQuantity
      orders := l.orders.filter fun m => m.handle ≠ n.handle }, ?_, ⟨hl.price, ?_, ?_, ?_⟩, rfl⟩
  · simp only [PriceLevel.erase, hl.find?_handle hn, if_neg hq]
  · exact fun m hm => hl.rests m (List.mem_filter.mp hm).1
  · exact hl.fifo.filter _
  · exact (hl.remaining_filter hn).symm

theorem fillFront (hl : LevelOk s p l) {n : Node} {ns : List Node} (hn : l.orders = n :: ns)
    {quantity : Quantity} (hpos : 0 < quantity) (hle : quantity ≤ n.order.remainingQuantity) :
    ∃ l', l.fillFront quantity = .ok l' ∧ LevelOk s p l' ∧ l'.orders = filled quantity l.orders := by
  have h0 : quantity ≠ 0 := by grind
  have hgt : ¬ quantity > n.order.remainingQuantity := by grind
  have hiff : n.order.remainingQuantity - quantity = 0 ↔ quantity = n.order.remainingQuantity := by
    grind
  have hr := hl.rests
  have hf := hl.fifo
  have ht := hl.total
  rw [hn] at hr hf ht
  refine ⟨{ l with totalQuantity := l.totalQuantity - quantity, orders := filled quantity l.orders },
    ?_, ⟨hl.price, ?_, ?_, ?_⟩, rfl⟩
  · simp only [PriceLevel.fillFront, hn, if_neg h0, if_neg hgt, filled, Order.isFilled, hiff,
      decide_eq_true_eq]
    rfl
  all_goals
    simp only [hn, filled]
    split
  · exact fun m hm => hr m (.tail _ hm)
  · rename_i hne
    intro m hm
    rcases List.mem_cons.mp hm with rfl | hm
    · have hrn := hr n (.head _)
      exact ⟨hrn.side, hrn.price, hrn.type, by simp only [Node.fill]; grind⟩
    · exact hr m (.tail _ hm)
  · exact (List.pairwise_cons.mp hf).2
  · exact .cons (List.pairwise_cons.mp hf).1 (List.pairwise_cons.mp hf).2
  · rename_i he
    rw [ht, he]
    simp only [remaining_cons]
    grind
  · rw [ht]
    simp only [remaining_cons, Node.fill]
    grind

end LevelOk

/-! ## The level map of a side -/

/-- Every level of the map is proper, and none is empty. -/
def LevelsOk {s : Side} (levels : Levels s) : Prop :=
  ∀ e ∈ levels.entries, LevelOk s e.1 e.2 ∧ e.2.orders ≠ []

namespace OrderBook

/-- The queues of a list of level entries, one after the other. -/
abbrev queues (es : List (Price × PriceLevel)) : List Node := es.flatMap fun e => e.2.orders

variable {s : Side} {levels : Levels s} {p : Price} {l l' : PriceLevel}
  {A B : List (Price × PriceLevel)}

theorem levelsOk_empty : LevelsOk (OrderedMap.empty : Levels s) := by
  intro e he
  simp at he

theorem mem_queued {n : Node} : n ∈ queued levels ↔ ∃ e ∈ levels.entries, n ∈ e.2.orders :=
  List.mem_flatMap

theorem queued_of_entries (h : levels.entries = A ++ (p, l) :: B) :
    queued levels = queues A ++ (l.orders ++ queues B) := by
  simp [queued, h]

theorem queued_price (hok : LevelsOk levels) {n : Node} (hn : n ∈ queued levels) :
    ∃ l, (n.order.price, l) ∈ levels.entries ∧ n ∈ l.orders := by
  obtain ⟨⟨q, l⟩, he, hn⟩ := mem_queued.mp hn
  have hq : n.order.price = q := ((hok _ he).1.rests n hn).price
  exact ⟨l, hq ▸ he, hn⟩

theorem queued_rests (hok : LevelsOk levels) {n : Node} (hn : n ∈ queued levels) :
    Rests s n.order.price n.order := by
  obtain ⟨l, he, hn⟩ := queued_price hok hn
  exact (hok _ he).1.rests n hn

theorem queued_eq_nil (hok : LevelsOk levels) : queued levels = [] ↔ levels.entries = [] := by
  constructor
  · intro h
    cases he : levels.entries with
    | nil => rfl
    | cons e es =>
      have := (hok e (by simp [he])).2
      simp [queued, he, this] at h
  · intro h
    simp [queued, h]

/-- The nodes of a side stand in price-time order. -/
theorem queued_pairwise (hok : LevelsOk levels) : (queued levels).Pairwise (before s) := by
  rw [queued, List.pairwise_flatMap]
  constructor
  · intro e he
    have hl := (hok e he).1
    refine hl.fifo.imp_of_mem fun hm hn hlt => .inr ⟨?_, hlt⟩
    rw [(hl.rests _ hm).price, (hl.rests _ hn).price]
  · refine levels.sorted.imp_of_mem fun ha hb hab m hm n hn => .inl ?_
    rw [((hok _ ha).1.rests m hm).price, ((hok _ hb).1.rests n hn).price]
    exact hab

theorem split_sorted (hm : levels.entries = A ++ (p, l) :: B) :
    (∀ e ∈ A, better s e.1 p) ∧ ∀ e ∈ B, better s p e.1 := by
  have hs := levels.sorted
  rw [hm, List.pairwise_append] at hs
  exact ⟨fun e he => hs.2.2 e he _ (.head _), (List.pairwise_cons.mp hs.2.1).1⟩

/-- Away from the level at `p` no queued node has price `p`. -/
theorem queues_price_ne (hok : LevelsOk levels) {C : List (Price × PriceLevel)}
    (hC : ∀ e ∈ C, e ∈ levels.entries) (hp : ∀ e ∈ C, e.1 ≠ p) {n : Node} (hn : n ∈ queues C) :
    n.order.price ≠ p := by
  obtain ⟨e, he, hn⟩ := List.mem_flatMap.mp hn
  rw [((hok e (hC e he)).1.rests n hn).price]
  exact hp e he

/-- The nodes away from the level at `p` are the same before and after a change to that level. -/
theorem filter_queued (hok : LevelsOk levels) (hm : levels.entries = A ++ (p, l) :: B)
    {f : Node → Bool} (hf : ∀ n ∈ queued levels, n.order.price ≠ p → f n = true) :
    (queued levels).filter f = queues A ++ (l.orders.filter f ++ queues B) := by
  obtain ⟨hA, hB⟩ := split_sorted hm
  have keep : ∀ C : List (Price × PriceLevel), (∀ e ∈ C, e ∈ levels.entries ∧ e.1 ≠ p) →
      (queues C).filter f = queues C := by
    intro C hC
    rw [List.filter_eq_self]
    intro n hn
    obtain ⟨e, he, hne⟩ := List.mem_flatMap.mp hn
    exact hf n (mem_queued.mpr ⟨e, (hC e he).1, hne⟩)
      (queues_price_ne hok (fun e he => (hC e he).1) (fun e he => (hC e he).2) hn)
  rw [queued_of_entries hm, List.filter_append, List.filter_append,
    keep A fun e he => ⟨by simp [hm, he], OrderedMap.ne_of_before hA e he⟩,
    keep B fun e he => ⟨by simp [hm, he], OrderedMap.ne_of_after hB e he⟩]

/-- The queue of a level is the part of the side with its price. -/
theorem orders_eq_filter (hok : LevelsOk levels) (h : (p, l) ∈ levels.entries) :
    l.orders = (queued levels).filter fun n => n.order.price = p := by
  obtain ⟨A, B, hm⟩ := List.append_of_mem h
  obtain ⟨hA, hB⟩ := split_sorted hm
  have drop : ∀ C : List (Price × PriceLevel), (∀ e ∈ C, e ∈ levels.entries ∧ e.1 ≠ p) →
      (queues C).filter (fun n => n.order.price = p) = [] := by
    intro C hC
    rw [List.filter_eq_nil_iff]
    intro n hn
    simpa using queues_price_ne hok (fun e he => (hC e he).1) (fun e he => (hC e he).2) hn
  rw [queued_of_entries hm, List.filter_append, List.filter_append,
    drop A fun e he => ⟨by simp [hm, he], OrderedMap.ne_of_before hA e he⟩,
    drop B fun e he => ⟨by simp [hm, he], OrderedMap.ne_of_after hB e he⟩, List.append_nil,
    List.nil_append, List.filter_eq_self.mpr]
  intro n hn
  simpa using ((hok _ h).1.rests n hn).price

/-! ## Writing a level back -/

theorem storeLevel_entries (hm : levels.entries = A ++ (p, l) :: B) :
    (storeLevel levels p l').entries = if l'.empty then A ++ B else A ++ (p, l') :: B := by
  obtain ⟨hA, hB⟩ := split_sorted hm
  unfold storeLevel
  split
  · exact OrderedMap.entries_erase hm hA hB
  · exact OrderedMap.entries_insert_old hm hA

theorem queued_storeLevel (hm : levels.entries = A ++ (p, l) :: B) :
    queued (storeLevel levels p l') = queues A ++ (l'.orders ++ queues B) := by
  rw [queued, storeLevel_entries hm]
  split
  · rename_i h
    rw [PriceLevel.empty, List.isEmpty_iff] at h
    simp [h]
  · simp

theorem storeLevel_ok (hm : levels.entries = A ++ (p, l) :: B) (hok : LevelsOk levels)
    (hl : LevelOk s p l') : LevelsOk (storeLevel levels p l') := by
  intro e he
  rw [storeLevel_entries hm] at he
  split at he
  · exact hok e (by rw [hm]; rcases List.mem_append.mp he with he | he <;> simp [he])
  · rename_i hne
    rcases List.mem_append.mp he with he | he
    · exact hok e (by simp [hm, he])
    · rcases List.mem_cons.mp he with rfl | he
      · exact ⟨hl, by simpa [PriceLevel.empty] using hne⟩
      · exact hok e (by simp [hm, he])

/-- Storing a level that was absent, or was there with another queue. -/
theorem insert_ok (hok : LevelsOk levels) (hl : LevelOk s p l') (hne : l'.orders ≠ []) :
    LevelsOk (levels.insert p l') := by
  intro e he
  rcases OrderedMap.mem_insertEntry he with rfl | he
  · exact ⟨hl, hne⟩
  · exact hok e he

/-! ## The changes the book makes to a side -/

theorem levelAt_ok {book : OrderBook} (hok : LevelsOk (book.levels s)) (p : Price) :
    LevelOk s p (book.levelAt s p) := by
  unfold levelAt
  cases hf : (book.levels s).find? p with
  | none => exact LevelOk.new s p
  | some l => exact (hok _ (OrderedMap.mem_of_find? hf)).1

theorem mem_levelAt {book : OrderBook} {n : Node} (h : n ∈ (book.levelAt s p).orders) :
    n ∈ book.nodes s := by
  unfold levelAt at h
  cases hf : (book.levels s).find? p with
  | none => simp [hf, PriceLevel.new] at h
  | some l => exact mem_queued.mpr ⟨_, OrderedMap.mem_of_find? hf, by simpa [hf] using h⟩

/-- Queueing a node at its price, in a new level if there is none. -/
theorem queued_insert_push {book : OrderBook} {n : Node} (hl : l'.orders = (book.levelAt s p).orders ++ [n]) :
    (queued ((book.levels s).insert p l')).Perm (n :: book.nodes s) := by
  unfold levelAt at hl
  cases hf : (book.levels s).find? p with
  | none =>
    obtain ⟨A, B, hm, hA, hB⟩ := OrderedMap.split_of_find?_none hf
    rw [queued, nodes, queued, OrderedMap.entries_insert_new hm hA hB, hm]
    simp [hl, hf, PriceLevel.new]
  | some l =>
    obtain ⟨A, B, hm, hA, hB⟩ := OrderedMap.split_of_find? hf
    rw [queued_of_entries (OrderedMap.entries_insert_old hm hA), nodes, queued_of_entries hm, hl, hf]
    simp only [Option.getD_some, List.append_assoc, List.singleton_append]
    rw [← List.append_assoc, ← List.append_assoc]
    exact List.perm_middle

end OrderBook

end ExchangeLab

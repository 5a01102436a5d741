import ExchangeLab.Book.Levels

/-!
# ExchangeLab.Book.Invariant

The invariant that ties the level maps, the index and the node allocator of a book together, and
one lemma for each book operation that says what the operation does when it holds.

* `Consistent`: the levels are proper, handles are fresh and distinct, and the index maps an id to
  a location exactly when a node with that id is queued there.
* `addOrder_ok`, `extractOrder_none`, `extractOrder_some`: the book operations on a consistent book.
* `Consistent.push`, `Consistent.remove`, `Consistent.refill`: the three ways the queues change.
-/

namespace ExchangeLab

open Container OrderBook

/-- The orders queued on a side at a price, front first. -/
def OrderBook.queueAt (b : OrderBook) (s : Side) (p : Price) : List Order :=
  match (b.levels s).find? p with
  | none => []
  | some level => level.orders.map Node.order

/-- Where the index must say a node is. -/
def Node.location (n : Node) : OrderLocation := ⟨n.order.side, n.order.price, n.handle⟩

structure Consistent (b : OrderBook) : Prop where
  levelsOk : ∀ s, LevelsOk (b.levels s)
  handle_lt : ∀ n ∈ b.allNodes, n.handle < b.nextNode
  handles_nodup : (b.allNodes.map Node.handle).Nodup
  indexed : ∀ id location, b.orderLocations.lookup id = some location ↔
    ∃ n ∈ b.allNodes, n.order.id = id ∧ n.location = location

theorem mem_allNodes {b : OrderBook} {n : Node} : n ∈ b.allNodes ↔ ∃ s, n ∈ b.nodes s := by
  simp only [allNodes, List.mem_append]
  constructor
  · rintro (h | h)
    · exact ⟨.buy, h⟩
    · exact ⟨.sell, h⟩
  · rintro ⟨s, h⟩
    cases s
    · exact .inl h
    · exact .inr h

theorem mem_allNodes_of {b : OrderBook} {s : Side} {n : Node} (h : n ∈ b.nodes s) :
    n ∈ b.allNodes := mem_allNodes.mpr ⟨s, h⟩

theorem allNodes_perm (b : OrderBook) (s : Side) :
    b.allNodes.Perm (b.nodes s ++ b.nodes s.opposite) := by
  cases s
  · exact .refl _
  · exact List.perm_append_comm

/-- A change that works node by node, side by side, is that change of all the nodes. -/
theorem allNodes_eq {b b' : OrderBook} {f : List Node → List Node}
    (happ : ∀ xs ys, f (xs ++ ys) = f xs ++ f ys) (s : Side) (hself : b'.nodes s = f (b.nodes s))
    (hother : b'.nodes s.opposite = f (b.nodes s.opposite)) : b'.allNodes = f b.allNodes := by
  cases s <;> simp only [allNodes, Side.opposite, happ] at * <;> rw [hself, hother]

theorem consistent_new : Consistent OrderBook.new where
  levelsOk s := by cases s <;> exact levelsOk_empty
  handle_lt n hn := by simp [allNodes, nodes, queued, levels, OrderBook.new] at hn
  handles_nodup := by simp [allNodes, nodes, queued, levels, OrderBook.new]
  indexed id location := by simp [allNodes, nodes, queued, levels, OrderBook.new]

namespace Consistent

variable {b b' : OrderBook} {s : Side} {m n : Node}

theorem nodes_rests (hc : Consistent b) (hn : n ∈ b.nodes s) : Rests s n.order.price n.order :=
  queued_rests (hc.levelsOk s) hn

theorem side_of_mem (hc : Consistent b) (hn : n ∈ b.nodes s) : n.order.side = s :=
  (hc.nodes_rests hn).side

theorem mem_nodes_side (hc : Consistent b) (hn : n ∈ b.allNodes) : n ∈ b.nodes n.order.side := by
  obtain ⟨s, hs⟩ := mem_allNodes.mp hn
  rwa [hc.side_of_mem hs]

theorem pairwise (hc : Consistent b) (s : Side) : (b.nodes s).Pairwise (before s) :=
  queued_pairwise (hc.levelsOk s)

theorem eq_of_handle (hc : Consistent b) (hm : m ∈ b.allNodes) (hn : n ∈ b.allNodes)
    (h : m.handle = n.handle) : m = n :=
  List.inj_on_of_nodup_map hc.handles_nodup hm hn h

theorem eq_of_id (hc : Consistent b) (hm : m ∈ b.allNodes) (hn : n ∈ b.allNodes)
    (h : m.order.id = n.order.id) : m = n := by
  have hm' := (hc.indexed m.order.id m.location).mpr ⟨m, hm, rfl, rfl⟩
  have hn' := (hc.indexed n.order.id n.location).mpr ⟨n, hn, rfl, rfl⟩
  rw [h, hn'] at hm'
  exact hc.eq_of_handle hm hn (congrArg OrderLocation.orderIterator (Option.some.inj hm')).symm

/-- The sides share no node. -/
theorem handle_ne_opposite (hc : Consistent b) (hn : n ∈ b.nodes s) (hm : m ∈ b.nodes s.opposite) :
    m.handle ≠ n.handle := by
  intro h
  have : m = n := hc.eq_of_handle (mem_allNodes_of hm) (mem_allNodes_of hn) h
  exact Side.opposite_ne s ((hc.side_of_mem hm).symm.trans (this ▸ hc.side_of_mem hn))

theorem filter_opposite (hc : Consistent b) (hn : n ∈ b.nodes s) :
    (b.nodes s.opposite).filter (fun m => m.handle ≠ n.handle) = b.nodes s.opposite := by
  rw [List.filter_eq_self]
  intro m hm
  simpa using hc.handle_ne_opposite hn hm

theorem nodes_nodup (hc : Consistent b) (s : Side) : (b.nodes s).Nodup :=
  (hc.pairwise s).imp fun {m n} h (e : m = n) => before_asymm h (e ▸ e ▸ h)

theorem lookup_isSome (hc : Consistent b) (hn : n ∈ b.allNodes) :
    b.orderLocations.lookup n.order.id = some n.location :=
  (hc.indexed _ _).mpr ⟨n, hn, rfl, rfl⟩

theorem lookup_eq_none (hc : Consistent b) {id : OrderId} :
    b.orderLocations.lookup id = none ↔ ∀ n ∈ b.allNodes, n.order.id ≠ id := by
  constructor
  · rintro h n hn rfl
    rw [hc.lookup_isSome hn] at h
    cases h
  · intro h
    cases hl : b.orderLocations.lookup id with
    | none => rfl
    | some location =>
      obtain ⟨n, hn, hid, -⟩ := (hc.indexed id location).mp hl
      exact absurd hid (h n hn)

theorem contains_eq_false (hc : Consistent b) {id : OrderId} :
    b.contains id = false ↔ ∀ n ∈ b.allNodes, n.order.id ≠ id := by
  rw [← hc.lookup_eq_none, Finmap.lookup_eq_none]
  simp [contains]

theorem deref_eq (hc : Consistent b) (hn : n ∈ b.allNodes) : b.deref n.handle = some n.order := by
  unfold deref
  cases hf : b.allNodes.find? (fun m => m.handle = n.handle) with
  | none =>
    rw [List.find?_eq_none] at hf
    exact absurd (decide_eq_true (rfl : n.handle = n.handle)) (hf n hn)
  | some m =>
    have hm := List.find?_some hf
    simp only [decide_eq_true_eq] at hm
    rw [hc.eq_of_handle (List.mem_of_find?_eq_some hf) hn hm]
    rfl

theorem findOrder_eq_some (hc : Consistent b) {id : OrderId} {o : Order} :
    b.findOrder id = some o ↔ ∃ n ∈ b.allNodes, n.order.id = id ∧ n.order = o := by
  unfold findOrder
  constructor
  · intro h
    obtain ⟨location, hl, hd⟩ := Option.bind_eq_some_iff.mp h
    obtain ⟨n, hn, hid, rfl⟩ := (hc.indexed id location).mp hl
    rw [Node.location, hc.deref_eq hn] at hd
    exact ⟨n, hn, hid, Option.some.inj hd⟩
  · rintro ⟨n, hn, rfl, rfl⟩
    rw [hc.lookup_isSome hn]
    exact hc.deref_eq hn

theorem findOrder_id (hc : Consistent b) {id : OrderId} {o : Order}
    (h : b.findOrder id = some o) : o.id = id := by
  obtain ⟨n, -, hid, rfl⟩ := hc.findOrder_eq_some.mp h
  exact hid

theorem findOrder_eq_none (hc : Consistent b) {id : OrderId} :
    b.findOrder id = none ↔ ∀ n ∈ b.allNodes, n.order.id ≠ id := by
  constructor
  · intro h n hn hid
    rw [hc.findOrder_eq_some.mpr ⟨n, hn, hid, rfl⟩] at h
    cases h
  · intro h
    rw [findOrder, hc.lookup_eq_none.mpr h]
    rfl

theorem contains_iff_findOrder (hc : Consistent b) {id : OrderId} :
    b.contains id = false ↔ b.findOrder id = none := by
  rw [hc.contains_eq_false, hc.findOrder_eq_none]

/-- The sides of the nodes tell the two halves of `allNodes` apart. -/
theorem filter_side (hc : Consistent b) (s : Side) :
    b.allNodes.filter (fun n => n.order.side = s) = b.nodes s := by
  have hkeep : (b.nodes s).filter (fun n => n.order.side = s) = b.nodes s := by
    rw [List.filter_eq_self]
    intro n hn
    simpa using hc.side_of_mem hn
  have hdrop : (b.nodes s.opposite).filter (fun n => n.order.side = s) = [] := by
    rw [List.filter_eq_nil_iff]
    intro n hn
    simp [hc.side_of_mem hn]
  rw [allNodes, List.filter_append]
  cases s
  · exact (congrArg₂ _ hkeep hdrop).trans (List.append_nil _)
  · exact (congrArg₂ _ hdrop hkeep).trans (List.nil_append _)

theorem queueAt_eq (hc : Consistent b) (s : Side) (p : Price) :
    b.queueAt s p = ((b.nodes s).filter fun n => n.order.price = p).map Node.order := by
  unfold queueAt
  cases hf : (b.levels s).find? p with
  | some l => rw [nodes, ← orders_eq_filter (hc.levelsOk s) (OrderedMap.mem_of_find? hf)]
  | none =>
    rw [List.filter_eq_nil_iff.mpr]
    · rfl
    intro n hn h
    obtain ⟨l, he, -⟩ := queued_price (hc.levelsOk s) hn
    exact OrderedMap.find?_eq_none.mp hf _ he (by simpa using h)

/-- The orders of a queue stand in the order in which they arrived. -/
theorem arrivals (hc : Consistent b) (s : Side) (p : Price) :
    ((b.nodes s).filter fun n => n.order.price = p).Pairwise fun m n => m.handle < n.handle := by
  refine ((hc.pairwise s).filter _).imp_of_mem fun hm hn hb => ?_
  have hp := (List.mem_filter.mp hm).2
  have hp' := (List.mem_filter.mp hn).2
  simp only [decide_eq_true_eq] at hp hp'
  rcases hb with hb | ⟨-, hlt⟩
  · exact absurd (hp ▸ hp' ▸ hb) (better_irrefl s _)
  · exact hlt

/-! ## The three ways the queues change -/

/-- A new node joins the queues and is indexed. -/
theorem push (hc : Consistent b) (hok : ∀ t, LevelsOk (b'.levels t))
    (hid : ∀ m ∈ b.allNodes, m.order.id ≠ n.order.id) (hh : n.handle = b.nextNode)
    (hnodes : b'.allNodes.Perm (n :: b.allNodes))
    (hindex : b'.orderLocations = b.orderLocations.insert n.order.id n.location)
    (hnext : b'.nextNode = b.nextNode + 1) : Consistent b' where
  levelsOk := hok
  handle_lt m hm := by
    rw [hnext]
    rcases List.mem_cons.mp (hnodes.mem_iff.mp hm) with rfl | hm
    · omega
    · exact Nat.lt_succ_of_lt (hc.handle_lt m hm)
  handles_nodup := by
    rw [(hnodes.map Node.handle).nodup_iff, List.map_cons, List.nodup_cons]
    refine ⟨fun h => ?_, hc.handles_nodup⟩
    obtain ⟨m, hm, he⟩ := List.mem_map.mp h
    have := hc.handle_lt m hm
    omega
  indexed id location := by
    rw [hindex]
    by_cases h : id = n.order.id
    · subst h
      rw [Finmap.lookup_insert]
      constructor
      · intro h
        exact ⟨n, hnodes.mem_iff.mpr (.head _), rfl, Option.some.inj h⟩
      · rintro ⟨m, hm, he, rfl⟩
        rcases List.mem_cons.mp (hnodes.mem_iff.mp hm) with rfl | hm
        · rfl
        · exact absurd he (hid m hm)
    · rw [Finmap.lookup_insert_of_ne _ h, hc.indexed]
      constructor
      · rintro ⟨m, hm, he⟩
        exact ⟨m, hnodes.mem_iff.mpr (.tail _ hm), he⟩
      · rintro ⟨m, hm, he, hloc⟩
        rcases List.mem_cons.mp (hnodes.mem_iff.mp hm) with rfl | hm
        · exact absurd he.symm h
        · exact ⟨m, hm, he, hloc⟩

/-- A node leaves the queues and the index. -/
theorem remove (hc : Consistent b) (hn : n ∈ b.allNodes) (hok : ∀ t, LevelsOk (b'.levels t))
    (hnodes : b'.allNodes = b.allNodes.filter fun m => m.handle ≠ n.handle)
    (hindex : b'.orderLocations = b.orderLocations.erase n.order.id)
    (hnext : b'.nextNode = b.nextNode) : Consistent b' := by
  have hmem : ∀ m, m ∈ b'.allNodes ↔ m ∈ b.allNodes ∧ m.handle ≠ n.handle := by
    simp [hnodes]
  refine ⟨hok, fun m hm => hnext ▸ hc.handle_lt m ((hmem m).mp hm).1, ?_, fun id location => ?_⟩
  · rw [hnodes]
    exact hc.handles_nodup.sublist (List.filter_sublist.map _)
  · rw [hindex]
    by_cases h : id = n.order.id
    · subst h
      rw [Finmap.lookup_erase]
      simp only [reduceCtorEq, false_iff, not_exists, not_and]
      intro m hm he
      exact absurd (congrArg Node.handle (hc.eq_of_id ((hmem m).mp hm).1 hn he)) ((hmem m).mp hm).2
    · rw [Finmap.lookup_erase_ne h, hc.indexed]
      constructor
      · rintro ⟨m, hm, he, hloc⟩
        refine ⟨m, (hmem m).mpr ⟨hm, fun hh => ?_⟩, he, hloc⟩
        exact h (he ▸ hc.eq_of_handle hm hn hh ▸ rfl)
      · rintro ⟨m, hm, he⟩
        exact ⟨m, ((hmem m).mp hm).1, he⟩

/-- Queued nodes change in ways the index does not record. -/
theorem refill (hc : Consistent b) {f : Node → Node} (hok : ∀ t, LevelsOk (b'.levels t))
    (hf : ∀ m, (f m).handle = m.handle ∧ (f m).order.id = m.order.id ∧ (f m).location = m.location)
    (hnodes : b'.allNodes = b.allNodes.map f) (hindex : b'.orderLocations = b.orderLocations)
    (hnext : b'.nextNode = b.nextNode) : Consistent b' := by
  refine ⟨hok, fun m hm => ?_, ?_, fun id location => ?_⟩
  · rw [hnodes] at hm
    obtain ⟨k, hk, rfl⟩ := List.mem_map.mp hm
    rw [hnext, (hf k).1]
    exact hc.handle_lt k hk
  · rw [hnodes, List.map_map, show Node.handle ∘ f = Node.handle from funext fun m => (hf m).1]
    exact hc.handles_nodup
  · rw [hindex, hc.indexed, hnodes]
    constructor
    · rintro ⟨m, hm, he, hloc⟩
      exact ⟨f m, List.mem_map_of_mem hm, by rw [(hf m).2.1, he], by rw [(hf m).2.2, hloc]⟩
    · rintro ⟨m, hm, he, hloc⟩
      obtain ⟨k, hk, rfl⟩ := List.mem_map.mp hm
      exact ⟨k, hk, by rw [← (hf k).2.1, he], by rw [← (hf k).2.2, hloc]⟩

end Consistent

/-! ## The book operations -/

section Operations

variable {b : OrderBook}

def OrderBook.withIndex (b : OrderBook) (index : Finmap fun _ : OrderId => OrderLocation) :
    OrderBook := { b with orderLocations := index }

@[simp] theorem withIndex_levels (index : Finmap fun _ : OrderId => OrderLocation) (s : Side) :
    (b.withIndex index).levels s = b.levels s := by cases s <;> rfl
@[simp] theorem withIndex_setLevels (index : Finmap fun _ : OrderId => OrderLocation) (s : Side)
    (L : Levels s) : (b.withIndex index).setLevels s L = (b.setLevels s L).withIndex index := by
  cases s <;> rfl
@[simp] theorem withIndex_orderLocations (index : Finmap fun _ : OrderId => OrderLocation) :
    (b.withIndex index).orderLocations = index := rfl
@[simp] theorem withIndex_nextNode (index : Finmap fun _ : OrderId => OrderLocation) :
    (b.withIndex index).nextNode = b.nextNode := rfl

/-- The level maps of a book after one side has been replaced. -/
theorem levelsOk_setLevels {s : Side} {L : Levels s} (hc : ∀ t, LevelsOk (b.levels t))
    (hL : LevelsOk L) (t : Side) : LevelsOk ((b.setLevels s L).levels t) := by
  rcases Side.eq_or_eq_opposite s t with rfl | rfl
  · simpa using hL
  · simpa using hc _

theorem addOrder_ok (hc : Consistent b) {o : Order} (hid : b.contains o.id = false)
    (htype : o.type = .limit) (hpos : 0 < o.remainingQuantity) :
    ∃ b', addOrder o b = .returned () b' ∧ Consistent b' ∧
      (b'.nodes o.side).Perm (⟨b.nextNode, o⟩ :: b.nodes o.side) ∧
      b'.nodes o.side.opposite = b.nodes o.side.opposite ∧ b'.nextNode = b.nextNode + 1 := by
  have h0 : o.remainingQuantity ≠ 0 := by grind
  have hok := hc.levelsOk o.side
  obtain ⟨l, hadd, hl, horders⟩ := (levelAt_ok hok o.price).addOrder b.nextNode
    ⟨rfl, rfl, htype, hpos⟩ fun n hn => hc.handle_lt n (mem_allNodes_of (mem_levelAt hn))
  let b' : OrderBook := { b.setLevels o.side ((b.levels o.side).insert o.price l) with
    orderLocations := b.orderLocations.insert o.id ⟨o.side, o.price, b.nextNode⟩
    nextNode := b.nextNode + 1 }
  have hlev : ∀ t, b'.levels t = (b.setLevels o.side ((b.levels o.side).insert o.price l)).levels t :=
    fun t => by cases t <;> rfl
  have hself : (b'.nodes o.side).Perm (⟨b.nextNode, o⟩ :: b.nodes o.side) := by
    rw [nodes, hlev, setLevels_levels_self]
    exact queued_insert_push horders
  have hother : b'.nodes o.side.opposite = b.nodes o.side.opposite := by
    rw [nodes, hlev, setLevels_levels_opposite, nodes]
  have hall : b'.allNodes.Perm (⟨b.nextNode, o⟩ :: b.allNodes) := by
    refine (allNodes_perm b' o.side).trans ?_
    rw [hother]
    exact (hself.append_right _).trans ((allNodes_perm b o.side).symm.cons _)
  refine ⟨b', ?_, ?_, hself, hother, rfl⟩
  · unfold addOrder
    rw [if_neg (by simp [hid]), if_neg (by simp [htype]), if_neg h0]
    simp only [setLevels_nextNode, hadd, setLevels_setLevels, setLevels_levels_self,
      OrderedMap.insert_insert, setLevels_orderLocations]
    rfl
  · refine hc.push (n := ⟨b.nextNode, o⟩) (fun t => ?_) (hc.contains_eq_false.mp hid) rfl hall rfl rfl
    rw [hlev]
    exact levelsOk_setLevels hc.levelsOk (insert_ok hok hl (by simp [horders])) t

/-- Every way `addOrder` can throw is checked before the book is touched. -/
theorem addOrder_thrown_or (b : OrderBook) (o : Order) :
    (∃ f, addOrder o b = .thrown f b) ∨
      (b.contains o.id = false ∧ o.type = .limit ∧ 0 < o.remainingQuantity) := by
  by_cases h₁ : b.contains o.id = true
  · exact .inl ⟨_, by rw [addOrder, if_pos h₁]⟩
  by_cases h₂ : o.type = .limit
  · by_cases h₃ : o.remainingQuantity = 0
    · exact .inl ⟨_, by rw [addOrder, if_neg h₁, if_neg (by simp [h₂]), if_pos h₃]⟩
    · exact .inr ⟨by simpa using h₁, h₂, by grind⟩
  · exact .inl ⟨_, by rw [addOrder, if_neg h₁, if_pos h₂]⟩

theorem extractOrder_none (hc : Consistent b) {id : OrderId}
    (h : ∀ n ∈ b.allNodes, n.order.id ≠ id) : b.extractOrder id = .returned none b := by
  rw [extractOrder, hc.lookup_eq_none.mpr h]

/-- Extraction of a queued order. It throws exactly when the order is larger than the total its
level keeps, which happens when the 32-bit total has wrapped. -/
theorem extractOrder_some (hc : Consistent b) {s : Side} {n : Node} (hn : n ∈ b.nodes s) :
    let total := remaining ((b.nodes s).filter fun m => m.order.price = n.order.price)
    (total < n.order.remainingQuantity ∧ b.extractOrder n.order.id =
        .thrown (.logicError "Price level quantity is inconsistent") b) ∨
      (n.order.remainingQuantity ≤ total ∧ ∃ b',
        b.extractOrder n.order.id = .returned (some n.order) b' ∧ Consistent b' ∧
          b'.nodes s = ((b.nodes s).filter fun m => m.handle ≠ n.handle) ∧
          b'.nodes s.opposite = b.nodes s.opposite ∧ b'.nextNode = b.nextNode) := by
  intro total
  have hok := hc.levelsOk s
  have hall := mem_allNodes_of hn
  have hside := hc.side_of_mem hn
  obtain ⟨l, hentry, hnl⟩ := queued_price hok hn
  have hl := (hok _ hentry).1
  have hfind : (b.levels s).find? n.order.price = some l := OrderedMap.find?_of_mem hentry
  have htotal : l.totalQuantity = total := by rw [hl.total, orders_eq_filter hok hentry]; rfl
  have thrown : ∀ fault, l.erase n.handle = .error fault →
      b.extractOrder n.order.id = .thrown fault b := by
    intro fault hers
    subst hside
    rw [extractOrder, hc.lookup_isSome hall]
    simp only [Node.location, hc.deref_eq hall, hfind, hers]
  have returned : ∀ l', l.erase n.handle = .ok l' →
      b.extractOrder n.order.id = .returned (some n.order)
        ((b.setLevels s (storeLevel (b.levels s) n.order.price l')).withIndex
          (b.orderLocations.erase n.order.id)) := by
    intro l' hers
    subst hside
    rw [extractOrder, hc.lookup_isSome hall]
    simp only [Node.location, hc.deref_eq hall, hfind, hers]
    rfl
  rcases hl.erase hnl with ⟨hlt, herr⟩ | ⟨hle, l', hers, hl', horders⟩
  · exact .inl ⟨htotal ▸ hlt, thrown _ herr⟩
  obtain ⟨A, B, hm, -, -⟩ := OrderedMap.split_of_find? hfind
  let b' := (b.setLevels s (storeLevel (b.levels s) n.order.price l')).withIndex
    (b.orderLocations.erase n.order.id)
  have hlev : ∀ t, b'.levels t = (b.setLevels s (storeLevel (b.levels s) n.order.price l')).levels t :=
    withIndex_levels _
  have hself : b'.nodes s = (b.nodes s).filter fun m => m.handle ≠ n.handle := by
    rw [nodes, hlev, setLevels_levels_self, queued_storeLevel hm, horders, nodes,
      filter_queued hok hm]
    intro m hm hne
    simpa using fun h => hne (hc.eq_of_handle (mem_allNodes_of hm) hall h ▸ rfl)
  have hother : b'.nodes s.opposite = b.nodes s.opposite := by
    rw [nodes, hlev, setLevels_levels_opposite, nodes]
  refine .inr ⟨htotal ▸ hle, b', returned l' hers, ?_, hself, hother, ?_⟩
  · refine hc.remove hall (fun t => ?_) ?_ rfl (setLevels_nextNode ..)
    · rw [hlev]
      exact levelsOk_setLevels hc.levelsOk (storeLevel_ok hm hok hl') t
    · exact allNodes_eq (fun xs ys => List.filter_append xs ys) s hself
        (hother.trans (hc.filter_opposite hn).symm)
  · exact setLevels_nextNode ..

end Operations

end ExchangeLab

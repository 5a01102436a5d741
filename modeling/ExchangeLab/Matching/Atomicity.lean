import ExchangeLab.Matching.Aggregates
import ExchangeLab.Matching.PriceTime

/-!
# ExchangeLab.Matching.Atomicity

Whether a call of the engine takes effect as a whole or not at all.

* `Sweeps.crossing`: a sweep takes from the quantity that crosses what it trades.
* `Processing.residual`: what an exhausted sweep leaves of the order is what is not there to trade.
* `fillOrKill_all_or_nothing`: the scan of the level totals may miss quantity, but never finds more
  than the loop does afterwards.
* `throw_untouched_iff`: a call that throws has changed the book exactly when the duplicate id is
  found after the first trade.
-/

namespace ExchangeLab

open Container OrderBook MatchingEngine Transition

/-! ## The quantity that crosses -/

def crossingQuantity (s : Side) (o : Order) (ns : List Node) : Nat :=
  trueQuantity (ns.filter fun n => crosses s o n.order.price)

section Crossing

variable {s : Side} {o o' : Order} {n : Node} {ns ns' : List Node} {ts : List Trade}

theorem crossingQuantity_fill (q : Quantity) :
    crossingQuantity s (o.fill q) ns = crossingQuantity s o ns := by
  simp only [crossingQuantity, crosses_fill]

theorem crossingQuantity_cons (h : crosses s o n.order.price) :
    crossingQuantity s o (n :: ns) = n.order.remainingQuantity.toNat + crossingQuantity s o ns := by
  rw [crossingQuantity, List.filter_cons_of_pos (by simpa using h), trueQuantity_cons]
  rfl

theorem crossingQuantity_filled (ns : List Node) {q : Quantity} (h : crosses s o n.order.price)
    (hq : q ≤ n.order.remainingQuantity) :
    q.toNat + crossingQuantity s o (filled q (n :: ns)) = crossingQuantity s o (n :: ns) := by
  have hleft := fill_toNat hq
  rw [crossingQuantity_cons h, filled]
  split
  · rename_i hall
    rw [hall]
  · have hcross : crosses s o (n.fill q).order.price := h
    rw [crossingQuantity_cons hcross, Node.fill_order]
    omega

/-- What is traded is gone from what crosses. -/
theorem Sweeps.crossing (h : Sweeps s o ns ts o' ns') :
    (ts.map fun t => t.quantity.toNat).sum + crossingQuantity s o ns' = crossingQuantity s o ns := by
  induction h with
  | stop => simp
  | @step o o' n ns ns' ts hpos hcross rest ih =>
    have htaken := crossingQuantity_filled ns hcross (tradeQuantity_le_resting o n)
    rw [crossingQuantity_fill, crossingQuantity_fill] at ih
    simp only [List.map_cons, List.sum_cons, tradeWith]
    omega

/-- A resting order that does not cross is still there. -/
theorem Sweeps.keeps (h : Sweeps s o ns ts o' ns') (hn : n ∈ ns)
    (hcross : ¬ crosses s o n.order.price) : n ∈ ns' := by
  induction h with
  | stop => exact hn
  | @step o o' m ns ns' ts hpos hm rest ih =>
    refine ih ?_ fun h => hcross (crosses_fill.mp h)
    rcases List.mem_cons.mp hn with rfl | hn
    · exact absurd hm hcross
    · rw [filled]
      split
      · exact hn
      · exact .tail _ hn

theorem Sweeps.crosses_iff (h : Sweeps s o ns ts o' ns') {p : Price} :
    crosses s o' p ↔ crosses s o p := by
  rw [h.residual_eq]
  cases s <;> rfl

/-- What an exhausted sweep leaves of the order. -/
theorem Sweeps.residual (h : Sweeps s o ns ts o' ns') (hex : Exhausted s o' ns')
    (hsorted : ns'.Pairwise (before s.opposite)) :
    o'.remainingQuantity.toNat = o.remainingQuantity.toNat - crossingQuantity s o ns := by
  have hconserves := h.conserves
  have hcrossing := h.crossing
  by_cases hpos : 0 < o'.remainingQuantity
  · have hnone : crossingQuantity s o ns' = 0 := by
      rw [crossingQuantity, List.filter_eq_nil_iff.mpr]
      · rfl
      intro n hn
      simpa [h.crosses_iff] using hex.forall hsorted hpos n hn
    omega
  · have hzero : o'.remainingQuantity.toNat = 0 := by
      rw [UInt32.lt_iff_toNat_lt, UInt32.toNat_zero] at hpos
      omega
    omega

end Crossing

/-! ## Fill or kill -/

section FillOrKill

variable {o : Order}

/-- What the scan finds is there, even where a total has wrapped and shows less. -/
theorem executableQuantityLoop_enough {entries : List (Price × PriceLevel)} {available : UInt64}
    (hok : ∀ e ∈ entries, LevelOk o.side.opposite e.1 e.2)
    (hlt : available.toNat ≤ o.remainingQuantity.toNat)
    (h : o.remainingQuantity.toUInt64 ≤ executableQuantityLoop o available entries) :
    o.remainingQuantity.toNat ≤ available.toNat + crossable o entries := by
  have hq := o.remainingQuantity.toNat_lt
  induction entries generalizing available with
  | nil =>
    rw [executableQuantityLoop, UInt64.le_iff_toNat_le, UInt32.toNat_toUInt64] at h
    omega
  | cons e rest ih =>
    obtain ⟨p, l⟩ := e
    have hl : LevelOk o.side.opposite p l := hok (p, l) (.head _)
    rw [executableQuantityLoop] at h
    by_cases hcross : crosses o.side o p
    · have hno : ¬ (o.type = .limit ∧ beyondLimit o.side o p) := fun h => beyondLimit_iff.mp h hcross
      have htotal : l.totalQuantity.toNat ≤ trueQuantity l.orders := by
        rw [hl.total_toNat]
        exact Nat.mod_le _ _
      have hsum : (available + l.totalQuantity.toUInt64).toNat =
          available.toNat + l.totalQuantity.toNat := by
        have htl := l.totalQuantity.toNat_lt
        rw [UInt64.toNat_add, UInt32.toNat_toUInt64]
        exact Nat.mod_eq_of_lt (by omega)
      rw [if_neg hno] at h
      rw [crossable_cons hl hcross]
      simp only [ge_iff_le, UInt64.le_iff_toNat_le, UInt32.toNat_toUInt64, hsum] at h ih
      split at h
      · omega
      · have hrest := ih
          (fun e he => hok e (.tail _ he)) (by omega) h
        omega
    · rw [if_pos (beyondLimit_iff.mpr hcross), UInt64.le_iff_toNat_le, UInt32.toNat_toUInt64] at h
      omega

theorem executableQuantity_enough {b : OrderBook} (hc : Consistent b)
    (h : o.remainingQuantity.toUInt64 ≤ b.executableQuantity o) :
    o.remainingQuantity.toNat ≤ crossableQuantity b o := by
  have hfound := executableQuantityLoop_enough
    (fun e he => (hc.levelsOk o.side.opposite e he).1) (Nat.zero_le _) h
  rwa [UInt64.toNat_zero, Nat.zero_add] at hfound

theorem noWorse_of_crosses {p : Price} (h : crosses o.side o p) (hlimit : o.type = .limit) :
    Reference.noWorse o.side o.price p := by
  rcases Reference.crosses_iff.mp h with hmarket | hprice
  · rw [hlimit] at hmarket
    cases hmarket
  · exact hprice

theorem tradeWith_price (s : Side) (o : Order) (id : OrderId) (p : Price) (q : Quantity) :
    (tradeWith s o id p q).price = p := rfl

end FillOrKill

/-- A fill-or-kill order trades its whole quantity, at prices within its limit, or the book stays as
it is. -/
theorem fillOrKill_all_or_nothing (calls : List EngineCall) (incoming : Order)
    (htif : incoming.timeInForce = .fillOrKill) (hpos : 0 < incoming.remainingQuantity) :
    let book := calls.foldl EngineCall.apply OrderBook.new
    ∃ trades book', processOrderInto incoming book = .returned trades book' ∧
      book'.nodes incoming.side = book.nodes incoming.side ∧
      ((trades.map fun t => t.quantity.toNat).sum = incoming.remainingQuantity.toNat ∧
          (incoming.type = .limit →
            ∀ t ∈ trades, Reference.noWorse incoming.side incoming.price t.price) ∨
        trades = [] ∧ book' = book) := by
  intro book
  have hc : Consistent book := consistent_engineCalls calls
  have hsame : normalizeIncoming incoming = incoming := by simp [normalizeIncoming, htif]
  have h0 : incoming.remainingQuantity ≠ 0 := by grind
  rw [processOrderInto_eq, if_neg h0, hsame]
  by_cases hkill : book.executableQuantity incoming < incoming.remainingQuantity.toUInt64
  · rw [if_pos ⟨htif, hkill⟩]
    exact ⟨[], book, rfl, rfl, .inr ⟨rfl, rfl⟩⟩
  · rw [if_neg fun h => hkill h.2]
    have henough := executableQuantity_enough (o := incoming) hc (by grind)
    obtain ⟨o', trades, book', hsweep, hex, hc', hown, -, heq⟩ :=
      matchSide_eq (s := incoming.side) (o := incoming) hc
    have hresidual := hsweep.residual hex (hc'.pairwise _)
    have hconserves := hsweep.conserves
    have hnorest : ¬ (0 < o'.remainingQuantity ∧ mayRest o' = true) := by
      rw [hsweep.mayRest_eq]
      simp [mayRest, htif]
    rw [heq, if_neg hnorest]
    refine ⟨trades, book', rfl, hown, .inl ⟨?_, fun hlimit t ht => ?_⟩⟩
    · simp only [crossableQuantity] at henough
      simp only [crossingQuantity] at hresidual
      omega
    · obtain ⟨n, hn, heq, -, -, hcross⟩ :=
        hsweep.trade_mem (fun n hn => (hc.nodes_rests hn).positive) t ht
      rw [heq, tradeWith_price]
      exact noWorse_of_crosses hcross hlimit

/-- Two asks of 5 rest at 10 and 11; a fill-or-kill order for 8 at 11 takes from both. -/
theorem fillOrKill_all_or_nothing_levels :
    let calls : List EngineCall :=
      [.processOrder ⟨1, .sell, .limit, .goodTillCancel, 10, 5, 5, 1⟩,
        .processOrder ⟨2, .sell, .limit, .goodTillCancel, 11, 5, 5, 2⟩]
    let incoming : Order := ⟨3, .buy, .limit, .fillOrKill, 11, 8, 8, 3⟩
    let book := calls.foldl EngineCall.apply OrderBook.new
    ∃ trades book', processOrderInto incoming book = .returned trades book' ∧
      book'.nodes incoming.side = book.nodes incoming.side ∧
      ((trades.map fun t => t.quantity.toNat).sum = incoming.remainingQuantity.toNat ∧
          (incoming.type = .limit →
            ∀ t ∈ trades, Reference.noWorse incoming.side incoming.price t.price) ∨
        trades = [] ∧ book' = book) :=
  fillOrKill_all_or_nothing _ _ rfl (by decide)

/-! ## Calls that throw -/

/-- The order trades with a part of its quantity, the remainder is to rest, and its id is found to
rest already, on its own side or behind what crosses. -/
def FailsLate (b : OrderBook) (o : Order) : Prop :=
  mayRest o = true ∧ 0 < crossableQuantity b o ∧
    crossableQuantity b o < o.remainingQuantity.toNat ∧
    ∃ n ∈ b.allNodes, n.order.id = o.id ∧
      ¬ (n.order.side = o.side.opposite ∧ crosses o.side o n.order.price)

section Throws

variable {b : OrderBook} {o : Order}

/-- A loop that has nothing to trade with leaves the book alone. -/
theorem matchLoop_stop {s : Side} (fuel : Nat) (trades : List Trade)
    (h : canMatch s o b = false) : matchLoop s fuel o trades b = .returned (o, trades) b := by
  cases fuel with
  | zero => rfl
  | succ fuel => rw [matchLoop, if_neg fun hgo => by rw [h] at hgo; cases hgo.2]

/-- An order that crosses nothing changes nothing when the call throws. -/
theorem processOrderInto_idle (hc : Consistent b) {fault : Fault} {b' : OrderBook} (hmay : mayRest o = true)
    (hidle : canMatch o.side o b = false) (h : processOrderInto o b = .thrown fault b') : b' = b := by
  rw [processOrderInto_eq, normalize_of_limit (mayRest_iff.mp hmay).1] at h
  split at h
  · cases h
    rfl
  split at h
  · cases h
  rw [matchSide, matchLoop_stop _ _ hidle] at h
  dsimp only at h
  split at h
  · rcases addOrder_thrown_or b o with ⟨f, hf⟩ | ⟨hid, htype, hpos⟩
    · rw [hf] at h
      cases h
      rfl
    · obtain ⟨b₁, hadd, -⟩ := addOrder_ok hc hid htype hpos
      rw [hadd] at h
      cases h
  · cases h

theorem canMatch_of_crossing (hc : Consistent b) {s : Side}
    (h : crossingQuantity s o (b.nodes s.opposite) = 0) : canMatch s o b = false := by
  rw [← Bool.not_eq_true, canMatch_iff hc]
  rintro ⟨n, hn, hcross⟩
  obtain ⟨ns, hns⟩ := List.head?_eq_some_iff.mp hn
  have hpos := UInt32.lt_iff_toNat_lt.mp (hc.nodes_rests (hns ▸ List.mem_cons_self)).positive
  rw [hns, crossingQuantity_cons hcross] at h
  rw [UInt32.toNat_zero] at hpos
  omega

/-- The loop on an order that may rest, and what becomes of its remainder. -/
theorem processOrderInto_resting (hc : Consistent b) (hpos : o.remainingQuantity ≠ 0)
    (hmay : mayRest o = true) :
    ∃ o' ts b₁, Sweeps o.side o (b.nodes o.side.opposite) ts o' (b₁.nodes o.side.opposite) ∧
      Exhausted o.side o' (b₁.nodes o.side.opposite) ∧ Consistent b₁ ∧
      b₁.nodes o.side = b.nodes o.side ∧
      o'.remainingQuantity.toNat = o.remainingQuantity.toNat - crossableQuantity b o ∧
      ((0 < o'.remainingQuantity ∧ b₁.contains o.id = true) ∧
          (∃ fault, processOrderInto o b = .thrown fault b₁) ∨
        ¬ (0 < o'.remainingQuantity ∧ b₁.contains o.id = true) ∧
          ∃ b', processOrderInto o b = .returned ts b') := by
  have htif : o.timeInForce ≠ .fillOrKill := by simp [(mayRest_iff.mp hmay).2]
  rw [processOrderInto_eq, if_neg hpos, if_neg fun h => htif h.1,
    normalize_of_limit (mayRest_iff.mp hmay).1]
  obtain ⟨o', ts, b₁, hsweep, hex, hc₁, hown, -, heq⟩ := matchSide_eq (s := o.side) (o := o) hc
  have hresidual := hsweep.residual hex (hc₁.pairwise _)
  refine ⟨o', ts, b₁, hsweep, hex, hc₁, hown, hresidual, ?_⟩
  have hrest : mayRest o' = true := by rw [hsweep.mayRest_eq, hmay]
  rw [heq, ← hsweep.id_eq]
  by_cases hleft : 0 < o'.remainingQuantity
  · rw [if_pos ⟨hleft, hrest⟩]
    by_cases hcontains : b₁.contains o'.id = true
    · exact .inl ⟨⟨hleft, hcontains⟩, _, by rw [addOrder, if_pos hcontains]⟩
    · obtain ⟨b₂, hadd, -⟩ :=
        addOrder_ok hc₁ (by simpa using hcontains) (mayRest_iff.mp hrest).1 hleft
      exact .inr ⟨fun h => hcontains h.2, b₂, by rw [hadd]⟩
  · rw [if_neg fun h => hleft h.1]
    exact .inr ⟨fun h => hleft h.1, b₁, rfl⟩

/-- An order that may not rest does not throw once the loop runs. -/
theorem processOrderInto_returns (hc : Consistent b) (hpos : o.remainingQuantity ≠ 0)
    (hmay : mayRest o = false) : ∃ ts b', processOrderInto o b = .returned ts b' := by
  rw [processOrderInto_eq, if_neg hpos]
  split
  · exact ⟨_, _, rfl⟩
  obtain ⟨o', ts, b₁, hsweep, -, -, -, -, heq⟩ :=
    matchSide_eq (s := o.side) (o := normalizeIncoming o) hc
  have hrest : ¬ (0 < o'.remainingQuantity ∧ mayRest o' = true) := by
    rw [hsweep.mayRest_eq, mayRest_normalize, hmay]
    exact fun h => Bool.false_ne_true h.2
  exact ⟨ts, b₁, by rw [heq, if_neg hrest]⟩

/-- The id rests after the loop when it rests where the loop has not taken it away. -/
theorem contains_after (hc : Consistent b) {b₁ : OrderBook} (hc₁ : Consistent b₁) {o' : Order}
    {ts : List Trade}
    (hsweep : Sweeps o.side o (b.nodes o.side.opposite) ts o' (b₁.nodes o.side.opposite))
    (hex : Exhausted o.side o' (b₁.nodes o.side.opposite))
    (hown : b₁.nodes o.side = b.nodes o.side) (hpos : 0 < o'.remainingQuantity) (id : OrderId) :
    b₁.contains id = true ↔ ∃ n ∈ b.allNodes, n.order.id = id ∧
      ¬ (n.order.side = o.side.opposite ∧ crosses o.side o n.order.price) := by
  rw [← not_iff_not, Bool.not_eq_true, hc₁.contains_eq_false]
  constructor
  · rintro habsent ⟨n, hn, hid, hbehind⟩
    refine habsent n ?_ hid
    rcases List.mem_append.mp ((allNodes_perm b o.side).mem_iff.mp hn) with hn | hn
    · exact mem_allNodes_of (hown ▸ hn)
    · refine mem_allNodes_of (hsweep.keeps hn fun hcross => hbehind ⟨hc.side_of_mem hn, hcross⟩)
  · intro habsent n hn hid
    rcases List.mem_append.mp ((allNodes_perm b₁ o.side).mem_iff.mp hn) with hn | hn
    · refine habsent ⟨n, mem_allNodes_of (hown ▸ hn), hid, fun hother => ?_⟩
      exact Side.opposite_ne o.side (hother.1.symm.trans (hc.side_of_mem (hown ▸ hn)))
    · obtain ⟨m, hm, hprice, hmid⟩ := hsweep.resting_price hn
      refine habsent ⟨m, mem_allNodes_of hm, hmid.trans hid, fun hother => ?_⟩
      exact hex.forall (hc₁.pairwise _) hpos n hn (hsweep.crosses_iff.mpr (hprice ▸ hother.2))

end Throws

/-- A call that throws leaves the book as it was, but for an order that fails late. -/
theorem throw_untouched_iff (calls : List EngineCall) (incoming : Order) :
    let book := calls.foldl EngineCall.apply OrderBook.new
    (∀ fault book', processOrderInto incoming book = .thrown fault book' → book' = book) ↔
      ¬ FailsLate book incoming := by
  intro book
  have hc : Consistent book := consistent_engineCalls calls
  by_cases h0 : incoming.remainingQuantity = 0
  · refine iff_of_true (fun fault book' hthrown => ?_) fun hlate => ?_
    · rw [processOrderInto_eq, if_pos h0] at hthrown
      cases hthrown
      rfl
    · have hless := hlate.2.2.1
      simp [h0] at hless
  by_cases hmay : mayRest incoming = true
  swap
  · obtain ⟨ts, b', hreturned⟩ := processOrderInto_returns hc h0 (by simpa using hmay)
    refine iff_of_true (fun fault book' hthrown => ?_) fun hlate => hmay hlate.1
    rw [hreturned] at hthrown
    cases hthrown
  obtain ⟨o', ts, b₁, hsweep, hex, hc₁, hown, hresidual, houtcome⟩ :=
    processOrderInto_resting hc h0 hmay
  have hless : 0 < o'.remainingQuantity ↔
      crossableQuantity book incoming < incoming.remainingQuantity.toNat := by
    rw [UInt32.lt_iff_toNat_lt, UInt32.toNat_zero]
    omega
  have hafter := contains_after hc hc₁ hsweep hex hown
  rcases houtcome with ⟨⟨hleft, hcontains⟩, fault, hthrown⟩ | ⟨hstop, b', hreturned⟩
  · -- the call throws: it has changed the book exactly when it has traded
    have hlate : FailsLate book incoming ↔ 0 < crossableQuantity book incoming :=
      ⟨fun h => h.2.1, fun h => ⟨hmay, h, hless.mp hleft, (hafter hleft _).mp hcontains⟩⟩
    rw [hlate]
    constructor
    · intro huntouched hsome
      have hsame := huntouched fault b₁ hthrown
      have hcrossing := hsweep.crossing
      have hconserves := hsweep.conserves
      rw [hsame] at hcrossing
      have := hless.mp hleft
      omega
    · intro hnone fault' book' hthrown'
      refine processOrderInto_idle hc hmay (canMatch_of_crossing hc ?_) hthrown'
      exact Nat.eq_zero_of_not_pos hnone
  · refine iff_of_true (fun fault book' hthrown => ?_) fun hlate => hstop ?_
    · rw [hreturned] at hthrown
      cases hthrown
    · have hleft := hless.mpr hlate.2.2.1
      exact ⟨hleft, (hafter hleft _).mpr hlate.2.2.2⟩

/-- An ask of 5 at 100 and the bid 7 rest; another bid 7 for 10 at 100 takes the ask and then
throws. -/
theorem throw_takes_liquidity :
    ¬ ∀ (calls : List EngineCall) (incoming : Order) (fault : Fault) (book' : OrderBook),
      processOrderInto incoming (calls.foldl EngineCall.apply OrderBook.new) =
          .thrown fault book' →
        book' = calls.foldl EngineCall.apply OrderBook.new := by
  intro h
  let calls : List EngineCall :=
    [.processOrder ⟨1, .sell, .limit, .goodTillCancel, 100, 5, 5, 1⟩,
      .processOrder ⟨7, .buy, .limit, .goodTillCancel, 90, 5, 5, 2⟩]
  have hthrown : ∃ book', processOrderInto ⟨7, .buy, .limit, .goodTillCancel, 100, 10, 10, 3⟩
      (calls.foldl EngineCall.apply OrderBook.new) =
        .thrown (.invalidArgument "Duplicate order ID") book' ∧ book'.nodes .sell = [] :=
    ⟨_, by rfl, by decide⟩
  obtain ⟨book', hthrown, hempty⟩ := hthrown
  rw [h _ _ _ _ hthrown] at hempty
  have hrests : (calls.foldl EngineCall.apply OrderBook.new).nodes .sell ≠ [] := by decide
  exact hrests hempty

end ExchangeLab

import ExchangeLab.Matching.Invariants

/-!
# ExchangeLab.Matching.Aggregates

How far the 32-bit total of a level can be trusted.

* `LevelOk.total_toNat`: it is the sum of the queued quantities modulo `2^32`.
* `executableQuantityLoop_ge`: the scan of a fill-or-kill order adds these totals up without an
  overflow of its own.
* `aggregates_exact_iff`: a reachable book has exact totals, can release every order it holds, and
  answers fill-or-kill correctly, exactly when the quantities at each price sum up to less than `2^32`.
-/

namespace ExchangeLab

open Container OrderBook MatchingEngine Transition

/-! ## Sums -/

/-- The sum of the remaining quantities, as a number. -/
def trueQuantity (nodes : List Node) : Nat := (nodes.map fun n => n.order.remainingQuantity.toNat).sum

@[simp] theorem trueQuantity_nil : trueQuantity [] = 0 := rfl
@[simp] theorem trueQuantity_cons (n : Node) (ns : List Node) :
    trueQuantity (n :: ns) = n.order.remainingQuantity.toNat + trueQuantity ns := rfl
@[simp] theorem trueQuantity_append (ms ns : List Node) :
    trueQuantity (ms ++ ns) = trueQuantity ms + trueQuantity ns := by simp [trueQuantity]

theorem remaining_toNat (ns : List Node) : (remaining ns).toNat = trueQuantity ns % 2 ^ 32 := by
  induction ns with
  | nil => rfl
  | cons n ns ih => rw [remaining_cons, UInt32.toNat_add, ih, trueQuantity_cons, Nat.add_mod_mod]

theorem le_trueQuantity {n : Node} {ns : List Node} (h : n ∈ ns) :
    n.order.remainingQuantity.toNat ≤ trueQuantity ns := by
  induction h with
  | head => rw [trueQuantity_cons]; omega
  | tail m _ ih => rw [trueQuantity_cons]; omega

/-- The quantities at every price sum up to less than `2^32`. -/
def Bounded (b : OrderBook) : Prop :=
  ∀ s, ∀ e ∈ (b.levels s).entries, trueQuantity e.2.orders < 2 ^ 32

theorem LevelOk.total_toNat {s : Side} {p : Price} {l : PriceLevel} (h : LevelOk s p l) :
    l.totalQuantity.toNat = trueQuantity l.orders % 2 ^ 32 := by rw [h.total, remaining_toNat]

theorem LevelOk.total_exact_iff {s : Side} {p : Price} {l : PriceLevel} (h : LevelOk s p l) :
    l.totalQuantity.toNat = trueQuantity l.orders ↔ trueQuantity l.orders < 2 ^ 32 := by
  rw [h.total_toNat]
  exact ⟨fun he => he ▸ Nat.mod_lt _ (by decide), Nat.mod_eq_of_lt⟩

/-! ## The scan of a fill-or-kill order -/

/-- The resting quantity that the order may trade with. -/
def crossableQuantity (b : OrderBook) (o : Order) : Nat :=
  trueQuantity ((b.nodes o.side.opposite).filter fun n => crosses o.side o n.order.price)

/-- The same over a list of level entries. -/
def crossable (o : Order) (entries : List (Price × PriceLevel)) : Nat :=
  trueQuantity ((queues entries).filter fun n => crosses o.side o n.order.price)

theorem beyondLimit_iff {s : Side} {o : Order} {p : Price} :
    (o.type = .limit ∧ beyondLimit s o p) ↔ ¬ crosses s o p := by
  have htype : o.type = .limit ↔ ¬ o.type = .market := by cases o.type <;> simp
  cases s <;> simp [crosses, withinLimit, beyondLimit, htype]

section Scan

variable {o : Order}

/-- Nothing crosses behind a level that does not. -/
theorem crossable_eq_zero {p : Price} {l : PriceLevel} {rest : List (Price × PriceLevel)}
    (hsorted : ((p, l) :: rest).Pairwise fun a b => better o.side.opposite a.1 b.1)
    (hok : ∀ e ∈ (p, l) :: rest, LevelOk o.side.opposite e.1 e.2) (h : ¬ crosses o.side o p) :
    crossable o ((p, l) :: rest) = 0 := by
  have hnone : (queues ((p, l) :: rest)).filter (fun n => crosses o.side o n.order.price) = [] := by
    rw [List.filter_eq_nil_iff]
    intro n hn
    obtain ⟨e, he, hne⟩ := List.mem_flatMap.mp hn
    rw [decide_eq_true_eq, ((hok e he).rests n hne).price]
    rcases List.mem_cons.mp he with rfl | he
    · exact h
    · exact fun hcross => h (crosses_better hcross ((List.pairwise_cons.mp hsorted).1 e he))
  rw [crossable, hnone, trueQuantity_nil]

theorem crossable_cons {p : Price} {l : PriceLevel} {rest : List (Price × PriceLevel)}
    (hok : LevelOk o.side.opposite p l) (h : crosses o.side o p) :
    crossable o ((p, l) :: rest) = trueQuantity l.orders + crossable o rest := by
  have hall : l.orders.filter (fun n => crosses o.side o n.order.price) = l.orders := by
    rw [List.filter_eq_self]
    intro n hn
    rw [decide_eq_true_eq, (hok.rests n hn).price]
    exact h
  rw [crossable, queues, List.flatMap_cons, List.filter_append, hall, trueQuantity_append]
  rfl

/-- The scan finds enough exactly when there is enough; it stops before its sum could wrap. -/
theorem executableQuantityLoop_ge {entries : List (Price × PriceLevel)} {available : UInt64}
    (hsorted : entries.Pairwise fun a b => better o.side.opposite a.1 b.1)
    (hok : ∀ e ∈ entries, LevelOk o.side.opposite e.1 e.2)
    (hbound : ∀ e ∈ entries, trueQuantity e.2.orders < 2 ^ 32) (hlt : available.toNat < 2 ^ 32) :
    o.remainingQuantity.toUInt64 ≤ executableQuantityLoop o available entries ↔
      o.remainingQuantity.toNat ≤ available.toNat + crossable o entries := by
  induction entries generalizing available with
  | nil =>
    rw [executableQuantityLoop, UInt64.le_iff_toNat_le, UInt32.toNat_toUInt64]
    simp [crossable]
  | cons e rest ih =>
    obtain ⟨p, l⟩ := e
    rw [executableQuantityLoop]
    by_cases hcross : crosses o.side o p
    · have hno : ¬ (o.type = .limit ∧ beyondLimit o.side o p) := fun h => beyondLimit_iff.mp h hcross
      have hl := hok (p, l) (.head _)
      have htotal : l.totalQuantity.toNat = trueQuantity l.orders :=
        hl.total_exact_iff.mpr (hbound (p, l) (.head _))
      have hsum : (available + l.totalQuantity.toUInt64).toNat =
          available.toNat + trueQuantity l.orders := by
        have hb : trueQuantity l.orders < 2 ^ 32 := hbound (p, l) (.head _)
        rw [UInt64.toNat_add, UInt32.toNat_toUInt64, htotal]
        exact Nat.mod_eq_of_lt (by omega)
      rw [if_neg hno, crossable_cons hl hcross]
      simp only [ge_iff_le]
      split
      · rename_i henough
        rw [UInt64.le_iff_toNat_le, UInt32.toNat_toUInt64, hsum] at henough
        refine ⟨fun _ => by omega, fun _ => ?_⟩
        rwa [UInt64.le_iff_toNat_le, UInt32.toNat_toUInt64, hsum]
      · rename_i hmore
        rw [UInt64.le_iff_toNat_le, UInt32.toNat_toUInt64, hsum] at hmore
        have hq := o.remainingQuantity.toNat_lt
        rw [ih (List.pairwise_cons.mp hsorted).2 (fun e he => hok e (.tail _ he))
          (fun e he => hbound e (.tail _ he)) (by omega), hsum, Nat.add_assoc]
    · rw [if_pos (beyondLimit_iff.mpr hcross), crossable_eq_zero hsorted hok hcross,
        UInt64.le_iff_toNat_le, UInt32.toNat_toUInt64, Nat.add_zero]

end Scan

/-! ## What rests on the totals -/

/-- The totals are the sums of the queued quantities, and everything that trusts them is right: an
order that rests can be taken out, cancelled and replaced, and a fill-or-kill order finds enough
exactly when there is enough. A replacement by nothing is refused before the book is looked at. -/
structure AggregatesExact (b : OrderBook) : Prop where
  totals : ∀ s, ∀ e ∈ (b.levels s).entries, e.2.totalQuantity.toNat = trueQuantity e.2.orders
  extracts : ∀ n ∈ b.allNodes, ∃ b', b.extractOrder n.order.id = .returned (some n.order) b'
  cancels : ∀ n ∈ b.allNodes, ∃ b', MatchingEngine.cancelOrder n.order.id b = .returned true b'
  replaces : ∀ n ∈ b.allNodes, ∀ newPrice newQuantity newTimestamp, 0 < newQuantity →
    ∃ result b', MatchingEngine.replaceOrder n.order.id newPrice newQuantity newTimestamp b =
      .returned result b'
  executable : ∀ o : Order, o.remainingQuantity.toUInt64 ≤ b.executableQuantity o ↔
    o.remainingQuantity.toNat ≤ crossableQuantity b o

section Exact

variable {b : OrderBook}

theorem Bounded.extract (hb : Bounded b) (hc : Consistent b) {s : Side} {n : Node}
    (hn : n ∈ b.nodes s) :
    ∃ b', b.extractOrder n.order.id = .returned (some n.order) b' ∧ Consistent b' ∧
      b'.contains n.order.id = false := by
  obtain ⟨l, hentry, hnl⟩ := queued_price (hc.levelsOk s) hn
  have hl := (hc.levelsOk s _ hentry).1
  rcases extractOrder_some hc hn with ⟨hlt, -⟩ | ⟨-, b', hret, hc', hself, hother, -⟩
  · -- the level has at least the quantity of the order
    have htotal : remaining ((b.nodes s).filter fun m => m.order.price = n.order.price) =
        l.totalQuantity := by rw [hl.total, orders_eq_filter (hc.levelsOk s) hentry]; rfl
    have hexact : l.totalQuantity.toNat = trueQuantity l.orders :=
      hl.total_exact_iff.mpr (hb s _ hentry)
    rw [htotal, UInt32.lt_iff_toNat_lt, hexact] at hlt
    exact absurd (le_trueQuantity hnl) (by omega)
  · refine ⟨b', hret, hc', hc'.contains_eq_false.mpr fun m hm hid => ?_⟩
    rcases List.mem_append.mp ((allNodes_perm b' s).mem_iff.mp hm) with hm | hm
    · rw [hself, List.mem_filter] at hm
      have he := hc.eq_of_id (mem_allNodes_of hm.1) (mem_allNodes_of hn) hid
      simp [he] at hm
    · rw [hother] at hm
      have he := hc.eq_of_id (mem_allNodes_of hm) (mem_allNodes_of hn) hid
      exact hc.handle_ne_opposite hn hm (congrArg Node.handle he)

theorem Bounded.aggregatesExact (hb : Bounded b) (hc : Consistent b) : AggregatesExact b where
  totals s e he := (hc.levelsOk s e he).1.total_exact_iff.mpr (hb s e he)
  extracts n hn := by
    obtain ⟨s, hs⟩ := mem_allNodes.mp hn
    obtain ⟨b', hret, -⟩ := hb.extract hc hs
    exact ⟨b', hret⟩
  cancels n hn := by
    obtain ⟨s, hs⟩ := mem_allNodes.mp hn
    obtain ⟨b', hret, -⟩ := hb.extract hc hs
    exact ⟨b', by rw [MatchingEngine.cancelOrder, OrderBook.cancelOrder, hret]; rfl⟩
  replaces n hn newPrice newQuantity newTimestamp hpos := by
    obtain ⟨s, hs⟩ := mem_allNodes.mp hn
    obtain ⟨b₁, hret, hc₁, habsent⟩ := hb.extract hc hs
    have h0 : newQuantity ≠ 0 := fun h => by simp [h] at hpos
    obtain ⟨ts, o', b', hproc, -⟩ := processOrderInto_ok hc₁
      (o := replacement n.order newPrice newQuantity newTimestamp) habsent hpos
    refine ⟨⟨true, ts⟩, b', ?_⟩
    rw [MatchingEngine.replaceOrder, replaceOrderInto, if_neg h0, hret]
    rw [replacement] at hproc
    simp only [hproc]
  executable o := by
    have hloop : o.remainingQuantity.toUInt64 ≤
          executableQuantityLoop o 0 (b.levels o.side.opposite).entries ↔
        o.remainingQuantity.toNat ≤
          (0 : UInt64).toNat + crossable o (b.levels o.side.opposite).entries :=
      executableQuantityLoop_ge (b.levels o.side.opposite).sorted
        (fun e he => (hc.levelsOk _ e he).1) (hb o.side.opposite) (by decide)
    rwa [UInt64.toNat_zero, Nat.zero_add] at hloop

end Exact

/-- In every book that is reached, the totals can be trusted exactly when no sum is too large. -/
theorem aggregates_exact_iff (calls : List BookCall) :
    AggregatesExact (calls.foldl BookCall.apply OrderBook.new) ↔
      Bounded (calls.foldl BookCall.apply OrderBook.new) := by
  have hc := consistent_bookCalls calls
  refine ⟨fun h s e he => ?_, fun hb => hb.aggregatesExact hc⟩
  exact (hc.levelsOk s e he).1.total_exact_iff.mp (h.totals s e he)

/-- A limit order to buy at 100. -/
def bid (id : OrderId) (quantity : Quantity) : Order where
  id := id
  side := .buy
  type := .limit
  timeInForce := .goodTillCancel
  price := 100
  initialQuantity := quantity
  remainingQuantity := quantity
  timestamp := 1

/-- Two bids of `2^32 - 1` and 1 at one price leave a total of 0, and the first cannot be
cancelled any more. -/
theorem aggregates_wrap :
    ¬ ∀ calls : List BookCall, AggregatesExact (calls.foldl BookCall.apply OrderBook.new) := by
  intro h
  have hthrown : ∃ b, MatchingEngine.cancelOrder 1
      ([.engine (.processOrder (bid 1 4294967295)), .engine (.processOrder (bid 2 1))].foldl
        BookCall.apply OrderBook.new) =
      .thrown (.logicError "Price level quantity is inconsistent") b := ⟨_, by rfl⟩
  obtain ⟨b, hthrown⟩ := hthrown
  obtain ⟨b', hcancel⟩ := (h [.engine (.processOrder (bid 1 4294967295)),
    .engine (.processOrder (bid 2 1))]).cancels ⟨0, bid 1 4294967295⟩ (by decide)
  have hid : (⟨0, bid 1 4294967295⟩ : Node).order.id = 1 := rfl
  rw [hid, hthrown] at hcancel
  cases hcancel

end ExchangeLab

import ExchangeLab.Matching.Loop

/-!
# ExchangeLab.Matching.Commands

The commands of the engine, on a consistent book.

* `processOrderInto_ok`: a fresh order with a positive quantity is swept against the opposite side
  and what is left of it rests if it may; `Processed` says so field by field.
* `processed_of_returned`: so is every fresh order whose command returns.
* `processOrderInto_state`: the same for an order with no assumption on it, whether the call returns
  or throws.
* `replaceOrderInto_cases`: a replacement is an extraction, then a processed order with that id.
-/

namespace ExchangeLab

open Container OrderBook MatchingEngine

/-! ## The incoming order -/

@[simp] theorem normalize_id (o : Order) : (normalizeIncoming o).id = o.id := by
  unfold normalizeIncoming; split <;> rfl
@[simp] theorem normalize_side (o : Order) : (normalizeIncoming o).side = o.side := by
  unfold normalizeIncoming; split <;> rfl
@[simp] theorem normalize_type (o : Order) : (normalizeIncoming o).type = o.type := by
  unfold normalizeIncoming; split <;> rfl
@[simp] theorem normalize_price (o : Order) : (normalizeIncoming o).price = o.price := by
  unfold normalizeIncoming; split <;> rfl
@[simp] theorem normalize_remainingQuantity (o : Order) :
    (normalizeIncoming o).remainingQuantity = o.remainingQuantity := by
  unfold normalizeIncoming; split <;> rfl
@[simp] theorem normalize_timestamp (o : Order) : (normalizeIncoming o).timestamp = o.timestamp := by
  unfold normalizeIncoming; split <;> rfl

@[simp] theorem mayRest_normalize (o : Order) : mayRest (normalizeIncoming o) = mayRest o := by
  unfold normalizeIncoming
  split
  · rename_i h
    simp [mayRest, h.1]
  · rfl

theorem mayRest_iff {o : Order} :
    mayRest o = true ↔ o.type = .limit ∧ o.timeInForce = .goodTillCancel := by
  simp [mayRest]

theorem normalize_of_limit {o : Order} (h : o.type = .limit) : normalizeIncoming o = o := by
  simp [normalizeIncoming, h]

theorem Sweeps.mayRest_eq {s : Side} {o o' : Order} {ns ns' : List Node} {ts : List Trade}
    (h : Sweeps s o ns ts o' ns') : mayRest o' = mayRest o := by rw [h.residual_eq]; rfl

theorem Sweeps.id_eq {s : Side} {o o' : Order} {ns ns' : List Node} {ts : List Trade}
    (h : Sweeps s o ns ts o' ns') : o'.id = o.id := by rw [h.residual_eq]

theorem Sweeps.side_eq {s : Side} {o o' : Order} {ns ns' : List Node} {ts : List Trade}
    (h : Sweeps s o ns ts o' ns') : o'.side = o.side := by rw [h.residual_eq]

theorem Sweeps.price_eq {s : Side} {o o' : Order} {ns ns' : List Node} {ts : List Trade}
    (h : Sweeps s o ns ts o' ns') : o'.price = o.price := by rw [h.residual_eq]

/-- The node left behind by an order swept down to `o'`, if any. -/
def rested (handle : Nat) (o' : Order) : List Node :=
  if 0 < o'.remainingQuantity ∧ mayRest o' = true then [⟨handle, o'⟩] else []

theorem mem_rested {handle : Nat} {o' : Order} {n : Node} :
    n ∈ rested handle o' ↔
      (0 < o'.remainingQuantity ∧ mayRest o' = true) ∧ n = ⟨handle, o'⟩ := by
  unfold rested
  split <;> simp_all

/-- Processing `o` on `b` emits `ts`, leaves `o'` of the order and `b'` of the book. -/
structure Processed (o : Order) (b : OrderBook) (ts : List Trade) (o' : Order) (b' : OrderBook) :
    Prop where
  sweeps : Sweeps o.side o (b.nodes o.side.opposite) ts o' (b'.nodes o.side.opposite)
  exhausted : o.timeInForce ≠ .fillOrKill → Exhausted o.side o' (b'.nodes o.side.opposite)
  own : (b'.nodes o.side).Perm (rested b.nextNode o' ++ b.nodes o.side)
  consistent : Consistent b'

section Process

variable {b b₁ : OrderBook} {o o' : Order} {ts : List Trade}

theorem contains_of_sweep {s : Side} (hc : Consistent b) (hc₁ : Consistent b₁)
    (hsweep : Sweeps s o (b.nodes s.opposite) ts o' (b₁.nodes s.opposite))
    (hown : b₁.nodes s = b.nodes s) {id : OrderId} (hid : b.contains id = false) :
    b₁.contains id = false := by
  rw [hc₁.contains_eq_false]
  intro m hm he
  rw [hc.contains_eq_false] at hid
  rcases (allNodes_perm b₁ s).mem_iff.mp hm |> List.mem_append.mp with hm | hm
  · exact hid m (mem_allNodes_of (hown ▸ hm)) he
  · obtain ⟨n, hn, -, hne⟩ := hsweep.resting_price hm
    exact hid n (mem_allNodes_of hn) (hne.trans he)

/-- What `matchSide` leaves, whether it returns or throws. -/
theorem matchSide_state (hc : Consistent b) (s : Side) (hs : o.side = s) :
    ∃ ts o', Consistent (matchSide s o b).state ∧
      Sweeps s o (b.nodes s.opposite) ts o' ((matchSide s o b).state.nodes s.opposite) ∧
      Exhausted s o' ((matchSide s o b).state.nodes s.opposite) ∧
      ((matchSide s o b).state.nodes s = b.nodes s ∨
        ((matchSide s o b).state.nodes s).Perm (rested b.nextNode o' ++ b.nodes s)) := by
  obtain ⟨o', ts, b₁, hsweep, hex, hc₁, hown, hnext, heq⟩ := matchSide_eq (s := s) (o := o) hc
  refine ⟨ts, o', ?_⟩
  rw [heq]
  split
  · rename_i hrest
    rcases addOrder_thrown_or b₁ o' with ⟨f, hf⟩ | ⟨hid, htype, hpos⟩
    · rw [hf]
      exact ⟨hc₁, hsweep, hex, .inl hown⟩
    · obtain ⟨b', hadd, hc', hself, hother, -⟩ := addOrder_ok hc₁ hid htype hpos
      rw [hsweep.side_eq, hs] at hself hother
      rw [hadd]
      refine ⟨hc', ?_, ?_, .inr ?_⟩
      · simpa [hother] using hsweep
      · simpa [hother] using hex
      · simpa [rested, hrest, hown, hnext] using hself
  · exact ⟨hc₁, hsweep, hex, .inl hown⟩

theorem matchSide_ok (hc : Consistent b) (hid : b.contains o.id = false) :
    ∃ ts o' b', matchSide o.side o b = .returned ts b' ∧ Processed o b ts o' b' := by
  obtain ⟨o', ts, b₁, hsweep, hex, hc₁, hown, hnext, heq⟩ := matchSide_eq (s := o.side) (o := o) hc
  rw [heq]
  by_cases hrest : 0 < o'.remainingQuantity ∧ mayRest o' = true
  · have hid₁ : b₁.contains o'.id = false :=
      contains_of_sweep hc hc₁ hsweep hown (by rwa [hsweep.id_eq])
    obtain ⟨b', hadd, hc', hself, hother, -⟩ :=
      addOrder_ok hc₁ hid₁ (mayRest_iff.mp hrest.2).1 hrest.1
    rw [hsweep.side_eq] at hself hother
    refine ⟨ts, o', b', by rw [if_pos hrest, hadd], ?_, fun _ => ?_, ?_, hc'⟩
    · rwa [hother]
    · rwa [hother]
    · simpa [rested, hrest, hown, hnext] using hself
  · exact ⟨ts, o', b₁, by rw [if_neg hrest], hsweep, fun _ => hex, by simp [rested, hrest, hown], hc₁⟩

/-- A command that processes an order rejects it, kills it untouched, or matches it. -/
theorem processOrderInto_eq (o : Order) (b : OrderBook) :
    processOrderInto o b =
      if o.remainingQuantity = 0 then
        .thrown (.invalidArgument "Incoming order quantity must be positive") b
      else if o.timeInForce = .fillOrKill ∧
          b.executableQuantity (normalizeIncoming o) < o.remainingQuantity.toUInt64 then .returned [] b
      else matchSide o.side (normalizeIncoming o) b := by
  have htif : (normalizeIncoming o).timeInForce = .fillOrKill ↔ o.timeInForce = .fillOrKill := by
    unfold normalizeIncoming
    split
    · rename_i h
      simp [h.2]
    · rfl
  by_cases h0 : o.remainingQuantity = 0
  · simp [processOrderInto, validateIncoming, h0]
  · simp only [processOrderInto, validateIncoming, normalize_remainingQuantity, h0, if_false, htif,
      normalize_side]
    split
    · rfl
    · cases o.side <;> rfl

theorem processOrderInto_ok (hc : Consistent b) (hid : b.contains o.id = false)
    (hpos : 0 < o.remainingQuantity) :
    ∃ ts o' b', processOrderInto o b = .returned ts b' ∧
      Processed (normalizeIncoming o) b ts o' b' := by
  have h0 : o.remainingQuantity ≠ 0 := by grind
  rw [processOrderInto_eq, if_neg h0]
  split
  · rename_i hkill
    have htif : (normalizeIncoming o).timeInForce = .fillOrKill := by simp [normalizeIncoming, hkill.1]
    have hrest : mayRest (normalizeIncoming o) = false := by simp [mayRest, htif]
    exact ⟨[], normalizeIncoming o, b, rfl, .stop, fun h => absurd htif h, by simp [rested, hrest], hc⟩
  · rw [← normalize_side]
    exact matchSide_ok hc (by simpa using hid)

theorem processed_of_returned (hc : Consistent b) (hid : b.findOrder o.id = none)
    (h : processOrderInto o b = .returned ts b₁) :
    ∃ o', Processed (normalizeIncoming o) b ts o' b₁ := by
  have h0 : o.remainingQuantity ≠ 0 := by
    intro h0
    rw [processOrderInto_eq, if_pos h0] at h
    cases h
  obtain ⟨ts', o', b', heq, hprocessed⟩ := processOrderInto_ok hc
    (hc.contains_iff_findOrder.mpr hid) (UInt32.pos_iff_ne_zero.mpr h0)
  rw [h] at heq
  cases heq
  exact ⟨o', hprocessed⟩

theorem processOrderInto_state (o : Order) (hc : Consistent b) :
    ∃ ts o', Consistent (processOrderInto o b).state ∧
      Sweeps o.side (normalizeIncoming o) (b.nodes o.side.opposite) ts o'
        ((processOrderInto o b).state.nodes o.side.opposite) ∧
      ((processOrderInto o b).state.nodes o.side = b.nodes o.side ∨
        Exhausted o.side o' ((processOrderInto o b).state.nodes o.side.opposite) ∧
        ((processOrderInto o b).state.nodes o.side).Perm
          (rested b.nextNode o' ++ b.nodes o.side)) := by
  rw [processOrderInto_eq]
  split
  · exact ⟨[], normalizeIncoming o, hc, .stop, .inl rfl⟩
  split
  · exact ⟨[], normalizeIncoming o, hc, .stop, .inl rfl⟩
  · obtain ⟨ts, o', hc', hsweep, hex, hown⟩ := matchSide_state hc o.side (normalize_side o)
    exact ⟨ts, o', hc', hsweep, hown.imp_right fun h => ⟨hex, h⟩⟩

end Process

/-! ## Replacement -/

/-- The order a replacement puts in the place of `existing`. -/
def replacement (existing : Order) (newPrice : Price) (newQuantity : Quantity)
    (newTimestamp : Timestamp) : Order :=
  { existing with
    price := newPrice
    initialQuantity := newQuantity
    remainingQuantity := newQuantity
    timestamp := newTimestamp }

/-- A replacement that is refused, or that finds no order, changes nothing. Any other takes the
order out of the book and processes its replacement there. -/
theorem replaceOrderInto_cases {b : OrderBook} (hc : Consistent b) (id : OrderId)
    (newPrice : Price) (newQuantity : Quantity) (newTimestamp : Timestamp) :
    (replaceOrderInto id newPrice newQuantity newTimestamp b).state = b ∨
      ∃ s, ∃ n ∈ b.nodes s, n.order.id = id ∧ 0 < newQuantity ∧ ∃ b₁,
        b.extractOrder id = .returned (some n.order) b₁ ∧ Consistent b₁ ∧
        b₁.nodes s = ((b.nodes s).filter fun m => m.handle ≠ n.handle) ∧
        b₁.nodes s.opposite = b.nodes s.opposite ∧
        replaceOrderInto id newPrice newQuantity newTimestamp b =
          match processOrderInto (replacement n.order newPrice newQuantity newTimestamp) b₁ with
          | .thrown fault b' => .thrown fault b'
          | .returned ts b' => .returned ⟨true, ts⟩ b' := by
  by_cases h0 : newQuantity = 0
  · exact .inl (by simp [replaceOrderInto, h0])
  by_cases hex : ∃ n ∈ b.allNodes, n.order.id = id
  · obtain ⟨n, hn, rfl⟩ := hex
    obtain ⟨s, hs⟩ := mem_allNodes.mp hn
    rcases extractOrder_some hc hs with ⟨-, hthrow⟩ | ⟨-, b₁, hret, hc₁, hself, hother, -⟩
    · exact .inl (by simp [replaceOrderInto, h0, hthrow])
    · refine .inr ⟨s, n, hs, rfl, by grind, b₁, hret, hc₁, hself, hother, ?_⟩
      rw [replaceOrderInto, if_neg h0, hret]
      rfl
  · have := extractOrder_none hc fun n hn he => hex ⟨n, hn, he⟩
    exact .inl (by simp [replaceOrderInto, h0, this])

/-- A replacement of a resting order that returns has taken it out and processed its replacement. -/
theorem replaceOrderInto_returned {b b' : OrderBook} (hc : Consistent b) {s : Side} {n : Node}
    (hn : n ∈ b.nodes s) {newPrice : Price} {newQuantity : Quantity} {newTimestamp : Timestamp}
    {result : ReplaceResult}
    (h : replaceOrderInto n.order.id newPrice newQuantity newTimestamp b = .returned result b') :
    result.replaced = true ∧ 0 < newQuantity ∧ ∃ b₁, Consistent b₁ ∧
      b₁.nodes s = ((b.nodes s).filter fun m => m.handle ≠ n.handle) ∧
      b₁.nodes s.opposite = b.nodes s.opposite ∧ b₁.nextNode = b.nextNode ∧
      processOrderInto (replacement n.order newPrice newQuantity newTimestamp) b₁ =
        .returned result.trades b' := by
  by_cases h0 : newQuantity = 0
  · simp [replaceOrderInto, h0] at h
  rw [replaceOrderInto, if_neg h0] at h
  rcases extractOrder_some hc hn with ⟨-, hthrow⟩ | ⟨-, b₁, hret, hc₁, hself, hother, hnext⟩
  · simp [hthrow] at h
  simp only [hret] at h
  split at h
  · cases h
  · rename_i ts b'' hproc
    cases h
    exact ⟨rfl, by grind, b₁, hc₁, hself, hother, hnext, hproc⟩

end ExchangeLab

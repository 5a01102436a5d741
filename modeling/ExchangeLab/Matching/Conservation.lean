import ExchangeLab.Matching.Trading

/-!
# ExchangeLab.Matching.Conservation

Quantity is conserved, order by order.

* `Trading.reduces`: a match takes from a resting order what its trades name it for.
* `Settles`: one submission or replacement, from the order's quantity to its trades and what is left.
* `quantity_conserved`: over any run, what a resting order has lost since it was submitted or last
  replaced is what has been traded with it since then.
-/

namespace ExchangeLab

open Container OrderBook MatchingEngine Transition

/-! ## Trades that name an order -/

def Trade.names (t : Trade) (id : OrderId) : Bool := t.buyOrderId = id || t.sellOrderId = id

/-- The quantity traded with the order. -/
def tradedWith (id : OrderId) (ts : List Trade) : Nat :=
  ((ts.filter fun t => t.names id).map fun t => t.quantity.toNat).sum

@[simp] theorem tradedWith_nil (id : OrderId) : tradedWith id [] = 0 := rfl

theorem tradedWith_cons (id : OrderId) (t : Trade) (ts : List Trade) :
    tradedWith id (t :: ts) = (if t.names id then t.quantity.toNat else 0) + tradedWith id ts := by
  unfold tradedWith
  rw [List.filter_cons]
  split
  · rfl
  · exact (Nat.zero_add _).symm

theorem tradeWith_names (s : Side) (o : Order) (rid : OrderId) (p : Price) (q : Quantity)
    (id : OrderId) : (tradeWith s o rid p q).names id = (o.id = id || rid = id) := by
  cases s
  · rfl
  · exact Bool.or_comm _ _

namespace Trading

variable {s : Side} {o o' : Order} {R R' : Resting} {ts : List Trade}

/-- Every trade names the incoming order. -/
theorem conserves (h : Trading s o R ts o' R') :
    o'.remainingQuantity.toNat + tradedWith o.id ts = o.remainingQuantity.toNat := by
  induction h with
  | stop => rfl
  | @step o o' r R R' q ts hr hside hpos hin hres rest ih =>
    have hleft := fill_toNat hin
    rw [Order.fill_id] at ih
    rw [tradedWith_cons, tradeWith_names, if_pos (by simp)]
    simp only [tradeWith]
    omega

theorem initialQuantity_eq (h : Trading s o R ts o' R') :
    o'.initialQuantity = o.initialQuantity := by
  induction h with
  | stop => rfl
  | step _ _ _ _ _ _ ih => exact ih

theorem tradedWith_eq_sum (h : Trading s o R ts o' R') :
    tradedWith o.id ts = (ts.map fun t => t.quantity.toNat).sum := by
  induction h with
  | stop => rfl
  | @step o o' r R R' q ts hr hside hpos hin hres rest ih =>
    rw [tradedWith_cons, tradeWith_names, if_pos (by simp), List.map_cons, List.sum_cons, ← ih]
    rfl

theorem positive (h : Trading s o R ts o' R') : ∀ t ∈ ts, 0 < t.quantity := by
  induction h with
  | stop => simp
  | @step o o' r R R' q ts hr hside hpos hin hres rest ih =>
    intro t ht
    rcases List.mem_cons.mp ht with rfl | ht
    · exact hpos
    · exact ih t ht

/-- A resting order that is left has lost what the trades with it say. -/
theorem reduces (h : Trading s o R ts o' R') (hkeyed : ∀ id r, R id = some r → r.id = id)
    {id : OrderId} {r' : Order} (hid : id ≠ o.id) (hr' : R' id = some r') :
    ∃ r, R id = some r ∧ r'.initialQuantity = r.initialQuantity ∧
      r'.remainingQuantity.toNat + tradedWith id ts = r.remainingQuantity.toNat := by
  induction h with
  | stop => exact ⟨r', hr', rfl, rfl⟩
  | @step o o' r R R' q ts hr hside hpos hin hres rest ih =>
    have hkeyed' : ∀ id x, Function.update R r.id (r.reduced q) id = some x → x.id = id := by
      intro id x hx
      by_cases he : id = r.id
      · subst he
        rw [Function.update_self, Order.reduced] at hx
        split at hx
        · cases hx
        · cases hx
          rfl
      · rw [Function.update_of_ne he] at hx
        exact hkeyed id x hx
    obtain ⟨x, hx, hinitial, hleft⟩ := ih hkeyed' hid hr'
    by_cases he : id = r.id
    · -- the trade is with this order
      subst he
      rw [Function.update_self, Order.reduced] at hx
      split at hx
      · cases hx
      · cases hx
        have hfill := fill_toNat hres
        refine ⟨r, hr, hinitial, ?_⟩
        rw [tradedWith_cons, tradeWith_names, if_pos (by simp)]
        simp only [tradeWith]
        omega
    · rw [Function.update_of_ne he] at hx
      refine ⟨x, hx, hinitial, ?_⟩
      rw [tradedWith_cons, tradeWith_names, if_neg (by simp [Ne.symm hid, Ne.symm he]), Nat.zero_add]
      exact hleft

end Trading

/-! ## One submission or replacement -/

/-- The order `o` has been matched and `ts` are its trades. Each of them reduces one resting order, by
`Trading`; what is left of `o` rests, if it may, or is discarded. -/
def Settles (o : Order) (b : OrderBook) (ts : List Trade) (b' : OrderBook) : Prop :=
  ∃ left, Trading o.side o (Function.update b.findOrder o.id none) ts left
      (Function.update b'.findOrder o.id none) ∧
    left.remainingQuantity.toNat + (ts.map fun t => t.quantity.toNat).sum =
      o.remainingQuantity.toNat ∧
    b'.findOrder o.id = if 0 < left.remainingQuantity ∧ mayRest o = true then some left else none

section Settle

variable {b b' : OrderBook} {o : Order} {ts : List Trade}

theorem Processed.settles {o' : Order} (h : Processed o b ts o' b') (hid : b.findOrder o.id = none)
    (hc : Consistent b) : Settles o b ts b' := by
  have htrading := h.trading hid hc
  have habsent : Function.update b.findOrder o.id none = b.findOrder := by
    rw [← hid, Function.update_eq_self]
  refine ⟨o', by rwa [habsent], ?_, ?_⟩
  · rw [← htrading.tradedWith_eq_sum]
    exact htrading.conserves
  · rw [h.findOrder_incoming hid hc, h.sweeps.mayRest_eq]

end Settle

/-! ## Runs -/

/-- What a call comes to: the order that is matched, if there is one, and its trades. -/
structure Matched where
  placed : Option Order
  trades : List Trade

def EngineCall.matched (b : OrderBook) : EngineCall → Matched
  | .processOrder incoming =>
    match MatchingEngine.processOrder incoming b with
    | .returned trades _ => ⟨some (normalizeIncoming incoming), trades⟩
    | .thrown _ _ => ⟨none, []⟩
  | .cancelOrder _ => ⟨none, []⟩
  | .replaceOrder id newPrice newQuantity newTimestamp =>
    match MatchingEngine.replaceOrder id newPrice newQuantity newTimestamp b with
    | .returned result _ =>
      ⟨if result.replaced then (b.findOrder id).map fun existing =>
          normalizeIncoming (replacement existing newPrice newQuantity newTimestamp) else none,
        result.trades⟩
    | .thrown _ _ => ⟨none, []⟩

/-- An order comes in whole, as the server and the replayer build it, under an id that does not
rest. -/
def EngineCall.Admissible (b : OrderBook) : EngineCall → Prop
  | .processOrder incoming =>
    b.contains incoming.id = false ∧ incoming.initialQuantity = incoming.remainingQuantity
  | _ => True

inductive EngineStep : OrderBook → Matched → OrderBook → Prop
  | call {b : OrderBook} (call : EngineCall) (h : call.Admissible b) :
      EngineStep b (call.matched b) (call.apply b)

/-- What has been traded with an order since it was last placed. -/
def tradedSince (id : OrderId) (log : List Matched) : Nat :=
  log.foldl (fun n m =>
    (if m.placed.any (·.id = id) then 0 else n) + tradedWith id m.trades) 0

section Step

variable {b b' : OrderBook} {m : Matched}

/-- Only the entry of the order itself may differ. -/
theorem Settles.congr {b₁ : OrderBook} {o : Order} {ts : List Trade} (h : Settles o b₁ ts b')
    (hsame : Function.update b₁.findOrder o.id none = Function.update b.findOrder o.id none) :
    Settles o b ts b' := by
  rw [Settles, hsame] at h
  exact h

theorem normalize_initialQuantity (o : Order) :
    (normalizeIncoming o).initialQuantity = o.initialQuantity := by
  unfold normalizeIncoming
  split <;> rfl

theorem processOrder_settles (hc : Consistent b) {o : Order} (hid : b.contains o.id = false)
    (hpos : o.remainingQuantity ≠ 0) :
    ∃ ts b', processOrderInto o b = .returned ts b' ∧ Settles (normalizeIncoming o) b ts b' := by
  obtain ⟨ts, o', b', hreturned, hprocessed⟩ :=
    processOrderInto_ok hc hid (UInt32.pos_iff_ne_zero.mpr hpos)
  refine ⟨ts, b', hreturned, hprocessed.settles ?_ hc⟩
  rw [normalize_id]
  exact hc.contains_iff_findOrder.mp hid

theorem replaceOrder_settles (hc : Consistent b) (id : OrderId) (p : Price) (q : Quantity)
    (time : Timestamp) :
    (MatchingEngine.replaceOrder id p q time b).state = b ∧
        (EngineCall.replaceOrder id p q time).matched b = ⟨none, []⟩ ∨
      ∃ o ts b', MatchingEngine.replaceOrder id p q time b = .returned ⟨true, ts⟩ b' ∧
        (EngineCall.replaceOrder id p q time).matched b = ⟨some o, ts⟩ ∧
        o.initialQuantity = o.remainingQuantity ∧ Settles o b ts b' := by
  have hunchanged : ∀ outcome, MatchingEngine.replaceOrder id p q time b = outcome →
      outcome = .returned ⟨false, []⟩ b ∨ (∃ fault, outcome = .thrown fault b) →
      (MatchingEngine.replaceOrder id p q time b).state = b ∧
        (EngineCall.replaceOrder id p q time).matched b = ⟨none, []⟩ := by
    rintro _ rfl (h | ⟨fault, h⟩)
    · simp [EngineCall.matched, h]
    · simp [EngineCall.matched, h]
  by_cases h0 : q = 0
  · refine .inl (hunchanged _ rfl (.inr ⟨.invalidArgument "Replacement quantity must be positive", ?_⟩))
    rw [MatchingEngine.replaceOrder, replaceOrderInto, if_pos h0]
  by_cases hex : ∃ n ∈ b.allNodes, n.order.id = id
  swap
  · refine .inl (hunchanged _ rfl (.inl ?_))
    rw [MatchingEngine.replaceOrder, replaceOrderInto, if_neg h0,
      extractOrder_none hc fun n hn he => hex ⟨n, hn, he⟩]
  obtain ⟨n, hn, rfl⟩ := hex
  obtain ⟨s, hs⟩ := mem_allNodes.mp hn
  rcases extractOrder_some hc hs with ⟨-, hthrown⟩ | ⟨-, b₁, hextracted, hc₁, hself, hother, -⟩
  · refine .inl (hunchanged _ rfl (.inr ⟨.logicError "Price level quantity is inconsistent", ?_⟩))
    rw [MatchingEngine.replaceOrder, replaceOrderInto, if_neg h0, hthrown]
  have hfind : b.findOrder n.order.id = some n.order :=
    hc.findOrder_eq_some.mpr ⟨n, hn, rfl, rfl⟩
  have hupdate := hc.findOrder_extracted hc₁ hs hself hother
  have habsent : b₁.findOrder n.order.id = none := by rw [hupdate, Function.update_self]
  obtain ⟨ts, b', hproc, hsettles⟩ := processOrder_settles hc₁
    (o := replacement n.order p q time) (hc₁.contains_iff_findOrder.mpr habsent) h0
  have hreturned : MatchingEngine.replaceOrder n.order.id p q time b = .returned ⟨true, ts⟩ b' := by
    rw [MatchingEngine.replaceOrder, replaceOrderInto, if_neg h0, hextracted]
    rw [replacement] at hproc
    simp only [hproc]
  refine .inr ⟨normalizeIncoming (replacement n.order p q time), ts, b', hreturned, ?_, ?_,
    hsettles.congr ?_⟩
  · simp only [EngineCall.matched, hreturned, hfind]
    rfl
  · rw [normalize_initialQuantity, normalize_remainingQuantity]
    rfl
  · rw [normalize_id, hupdate]
    exact Function.update_idem _ _ _

/-- A call matches one order, or at most takes one out of the book. -/
theorem EngineStep.cases (hc : Consistent b) (h : EngineStep b m b') :
    (m = ⟨none, []⟩ ∧ ∀ id, b'.findOrder id = b.findOrder id ∨ b'.findOrder id = none) ∨
      ∃ o, m.placed = some o ∧ o.initialQuantity = o.remainingQuantity ∧ Settles o b m.trades b' := by
  obtain ⟨call, hadmissible⟩ := h
  cases call with
  | processOrder o =>
    obtain ⟨hid, hwhole⟩ := hadmissible
    by_cases h0 : o.remainingQuantity = 0
    · have hthrown : MatchingEngine.processOrder o b =
          .thrown (.invalidArgument "Incoming order quantity must be positive") b := by
        rw [MatchingEngine.processOrder, processOrderInto_eq, if_pos h0]
      refine .inl ⟨by simp only [EngineCall.matched, hthrown], fun id => .inl ?_⟩
      simp only [EngineCall.apply, hthrown, Outcome.state]
    · obtain ⟨ts, b', hreturned, hsettles⟩ := processOrder_settles hc hid h0
      have hreturned : MatchingEngine.processOrder o b = .returned ts b' := hreturned
      refine .inr ⟨normalizeIncoming o, by simp only [EngineCall.matched, hreturned], ?_, ?_⟩
      · rw [normalize_initialQuantity, normalize_remainingQuantity, hwhole]
      · simp only [EngineCall.matched, EngineCall.apply, hreturned, Outcome.state]
        exact hsettles
  | cancelOrder id =>
    refine .inl ⟨rfl, fun other => ?_⟩
    simp only [EngineCall.apply, MatchingEngine.cancelOrder, cancelOrder_state]
    rcases extractOrder_cases hc id with h | ⟨s, n, hn, -, b', hret, hc', hself, hother⟩
    · exact .inl (by rw [h])
    · rw [hret]
      show b'.findOrder other = _ ∨ b'.findOrder other = none
      rw [hc.findOrder_extracted hc' hn hself hother, Function.update_apply]
      split
      · exact .inr rfl
      · exact .inl rfl
  | replaceOrder id p q time =>
    rcases replaceOrder_settles hc id p q time with ⟨hstate, hmatched⟩ |
      ⟨o, ts, b', hreturned, hmatched, hwhole, hsettles⟩
    · refine .inl ⟨hmatched, fun other => .inl ?_⟩
      simp only [EngineCall.apply, hstate]
    · refine .inr ⟨o, by rw [hmatched], hwhole, ?_⟩
      simp only [hmatched, EngineCall.apply, hreturned, Outcome.state]
      exact hsettles

end Step

/-- Every resting order has lost what was traded with it since it was placed. -/
def Conserved (b : OrderBook) (log : List Matched) : Prop :=
  ∀ id r, b.findOrder id = some r →
    r.remainingQuantity.toNat + tradedSince id log = r.initialQuantity.toNat

theorem tradedSince_snoc (id : OrderId) (log : List Matched) (m : Matched) :
    tradedSince id (log ++ [m]) =
      (if m.placed.any (·.id = id) then 0 else tradedSince id log) + tradedWith id m.trades := by
  rw [tradedSince, List.foldl_append]
  rfl

theorem Conserved.step {b b' : OrderBook} {m : Matched} {log : List Matched} (hc : Consistent b)
    (h : Conserved b log) (hstep : EngineStep b m b') : Conserved b' (log ++ [m]) := by
  intro id r hr
  rw [tradedSince_snoc]
  rcases hstep.cases hc with ⟨rfl, hfewer⟩ | ⟨o, hplaced, hwhole, left, htrading, hsum, hleft⟩
  · rcases hfewer id with hsame | hnone
    · exact h id r (hsame ▸ hr)
    · rw [hnone] at hr
      cases hr
  rw [hplaced]
  by_cases hid : id = o.id
  · -- the order that was placed
    subst hid
    rw [hleft] at hr
    split at hr
    · cases hr
      rw [if_pos (by simp), Nat.zero_add, htrading.initialQuantity_eq, hwhole]
      exact htrading.conserves
    · cases hr
  · have hr' : Function.update b'.findOrder o.id none id = some r := by
      rwa [Function.update_of_ne hid]
    have hkeyed : ∀ i x, Function.update b.findOrder o.id none i = some x → x.id = i := by
      intro i x hx
      rw [Function.update_apply] at hx
      split at hx
      · cases hx
      · exact hc.findOrder_id hx
    obtain ⟨x, hx, hinitial, hreduced⟩ := htrading.reduces hkeyed hid hr'
    rw [Function.update_of_ne hid] at hx
    have hbefore := h id x hx
    rw [if_neg (by simpa using Ne.symm hid), hinitial]
    omega

theorem EngineStep.consistent {b b' : OrderBook} {m : Matched} (hc : Consistent b)
    (h : EngineStep b m b') : Consistent b' := by
  obtain ⟨call, -⟩ := h
  exact call.consistent hc

/-- At every point of a run, what each resting order has lost since it was placed is what was traded
with it. Whatever call comes next, its trades and what is left of the order it places add up to the
order, and each of them takes a positive quantity from one resting order. -/
theorem quantity_conserved {log : List Matched} {b : OrderBook}
    (h : Run EngineStep OrderBook.new log b) :
    Conserved b log ∧ ∀ m b', EngineStep b m b' →
      (∀ t ∈ m.trades, 0 < t.quantity) ∧
        ∀ o, m.placed = some o → Settles o b m.trades b' := by
  have hinv : Consistent b ∧ Conserved b log := by
    induction h with
    | nil => exact ⟨consistent_new, fun id r hr => by cases hr⟩
    | snoc _ hstep ih => exact ⟨hstep.consistent ih.1, ih.2.step ih.1 hstep⟩
  refine ⟨hinv.2, fun m b' hstep => ?_⟩
  rcases hstep.cases hinv.1 with ⟨rfl, -⟩ | ⟨o, hplaced, -, hsettles⟩
  · refine ⟨fun t ht => ?_, fun o ho => ?_⟩
    · cases ht
    · cases ho
  · refine ⟨?_, fun o' ho' => ?_⟩
    · obtain ⟨left, htrading, -⟩ := hsettles
      exact htrading.positive
    · rw [hplaced] at ho'
      cases ho'
      exact hsettles

/-- A bid of 5 rests, an ask of 2 takes part of it, and a replacement puts it back to 4. -/
theorem quantity_conserved_replaced :
    let bid : EngineCall := .processOrder ⟨1, .buy, .limit, .goodTillCancel, 10, 5, 5, 1⟩
    let ask : EngineCall := .processOrder ⟨2, .sell, .limit, .goodTillCancel, 10, 2, 2, 2⟩
    let replace : EngineCall := .replaceOrder 1 10 4 3
    let b₁ := bid.apply OrderBook.new
    let b₂ := ask.apply b₁
    Conserved (replace.apply b₂)
      [bid.matched OrderBook.new, ask.matched b₁, replace.matched b₂] :=
  (quantity_conserved ((((Run.nil _).snoc (.call _ ⟨by decide, rfl⟩)).snoc
    (.call _ ⟨by decide, rfl⟩)).snoc (.call (.replaceOrder 1 10 4 3) trivial))).1

end ExchangeLab

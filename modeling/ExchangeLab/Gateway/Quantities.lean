import ExchangeLab.Gateway.Clients
import ExchangeLab.Gateway.Execution

/-!
# ExchangeLab.Gateway.Quantities

The quantities of the orders of a session add up as long as no fill crosses a replace.

* `Balanced`: what holds of an order at every moment.
* `Quantities`: what holds of a ledger; `Quantities.client` and `Quantities.absorb` are its two steps.
* `ReplacesCurrent`: a confirmed replace finds the CumQty it was computed from.
* `quantities_consistent`: the condition is the exact one.
-/

namespace ExchangeLab

open Wire Protocol Container ExchangeServer ExchangeLab.Fix FixGateway FixBridge Transition

/-- The order is working, as far as its status says. -/
def OrderState.Working (order : OrderState) : Prop :=
  order.ordStatus = .new ∨ order.ordStatus = .partiallyFilled

/-- OrderQty is CumQty and LeavesQty while the order works, and never less than CumQty. -/
def SessionContext.QuantitiesConsistent (session : SessionContext) : Prop :=
  ∀ id order, session.orders.lookup id = some order →
    (order.Working → order.orderQuantity = order.cumulativeQuantity + order.leavesQuantity) ∧
    order.cumulativeQuantity ≤ order.orderQuantity

structure OrderState.Balanced (order : OrderState) : Prop where
  within : order.cumulativeQuantity + order.leavesQuantity ≤ order.orderQuantity
  working : 0 < order.leavesQuantity ∨ order.Working →
    order.orderQuantity = order.cumulativeQuantity + order.leavesQuantity

namespace OrderState.Balanced

variable {order : OrderState}

theorem fill (h : order.Balanced) (execution : TradeExecution) :
    (fillOrder execution order).Balanced := by
  have hmin := Nat.min_le_left order.leavesQuantity execution.quantity.toNat
  have hwithin := h.within
  refine ⟨?_, fun hwork => ?_⟩
  · simp only [fillOrder]
    omega
  · have hleft : 0 < order.leavesQuantity - min order.leavesQuantity execution.quantity.toNat := by
      rcases hwork with hleft | hstatus
      · exact hleft
      · simp only [Working, fillOrder] at hstatus
        by_contra hzero
        rw [if_pos (by omega)] at hstatus
        rcases hstatus with hstatus | hstatus <;> cases hstatus
    have := h.working (.inl (by omega))
    simp only [fillOrder]
    omega

theorem close (h : order.Balanced) : order.close.Balanced := by
  have := h.within
  refine ⟨?_, ?_⟩
  · simp only [OrderState.close]
    omega
  · rintro (hleft | hstatus | hstatus)
    · exact absurd hleft (Nat.lt_irrefl 0)
    · cases hstatus
    · cases hstatus

theorem reach (h : order.Balanced) (symbol : Symbol) : (order.reach symbol).Balanced := by
  unfold OrderState.reach
  split
  · exact h.close
  · exact h

theorem accept (h : order.Balanced)
    (heq : order.orderQuantity = order.cumulativeQuantity + order.leavesQuantity) :
    { order with ordStatus := .new }.Balanced :=
  ⟨h.within, fun _ => heq⟩

/-- A replace balances exactly when CumQty is what it was when the replace was sent. -/
theorem replace_iff {pending : PendingRequest}
    (hsized : pending.replacementWorkingQuantity ≤ pending.replacementTotalQuantity) :
    (order.replace pending).Balanced ↔ order.cumulativeQuantity =
      pending.replacementTotalQuantity - pending.replacementWorkingQuantity := by
  constructor
  · intro h
    have hworking : (order.replace pending).Working := by
      simp only [Working, OrderState.replace]
      split
      · exact .inl rfl
      · exact .inr rfl
    have := h.working (.inr hworking)
    simp only [OrderState.replace] at this
    omega
  · intro hcum
    have heq : (order.replace pending).orderQuantity =
        (order.replace pending).cumulativeQuantity + (order.replace pending).leavesQuantity := by
      simp only [OrderState.replace]
      omega
    exact ⟨Nat.le_of_eq heq.symm, fun _ => heq⟩

end OrderState.Balanced

namespace Ledger

structure Quantities (next : Nat) (l : Ledger) : Prop where
  balanced : ∀ id order, l.orders id = some order → order.Balanced
  keyed : ∀ id order, l.orders id = some order → order.numericOrderId = id
  drawn : ∀ id, l.orders id ≠ none ∨ l.pending id ≠ [] ∨ id ∈ l.awaiting → id.toNat < next
  first : ∀ id, ∀ pending ∈ (l.pending id).tail, pending.kind ≠ .new
  unanswered : ∀ id, ∀ pending ∈ l.pending id, pending.kind = .new → id ∉ l.awaiting ∧
    ∀ order, l.orders id = some order →
      order.orderQuantity = order.cumulativeQuantity + order.leavesQuantity
  sized : ∀ id, ∀ pending ∈ l.pending id,
    pending.replacementWorkingQuantity ≤ pending.replacementTotalQuantity

/-- If the message confirms a replace, the order's CumQty is what it was when the replace was
sent. -/
def ReplacesCurrent (message : CoreMessage) (l : Ledger) : Prop :=
  ∀ response pending rest order, isOrderResponse message.header.type = true →
    decodeOrderResponse message.body = some response →
    l.pending response.orderId = pending :: rest → pending.kind = .replace →
    (response.success ≠ 0 ∧ message.header.type ≠ .orderRejected) →
    l.orders response.orderId = some order →
    order.cumulativeQuantity =
      pending.replacementTotalQuantity - pending.replacementWorkingQuantity

namespace Quantities

variable {next next' : Nat} {l : Ledger}

theorem mono (h : l.Quantities next) (hle : next ≤ next') : l.Quantities next' where
  balanced := h.balanced
  keyed := h.keyed
  drawn id hid := Nat.lt_of_lt_of_le (h.drawn id hid) hle
  first := h.first
  unanswered := h.unanswered
  sized := h.sized

/-- A change of orders that keeps each of them balanced, and balanced to the last unit while its
first request is unanswered. -/
theorem evolve {l' : Ledger} (h : l.Quantities next) (hpending : l'.pending = l.pending)
    (hawaiting : l'.awaiting ⊆ l.awaiting)
    (horders : ∀ id order', l'.orders id = some order' → ∃ order, l.orders id = some order ∧
      order'.Balanced ∧ order'.numericOrderId = order.numericOrderId ∧
      ((∃ pending ∈ l.pending id, pending.kind = .new) →
        order.orderQuantity = order.cumulativeQuantity + order.leavesQuantity →
        order'.orderQuantity = order'.cumulativeQuantity + order'.leavesQuantity)) :
    l'.Quantities next where
  balanced id order' horder' := by
    obtain ⟨order, -, hbalanced, -⟩ := horders id order' horder'
    exact hbalanced
  keyed id order' horder' := by
    obtain ⟨order, horder, -, hkey, -⟩ := horders id order' horder'
    exact hkey.trans (h.keyed id order horder)
  drawn id hid := by
    refine h.drawn id ?_
    rcases hid with hid | hid | hid
    · obtain ⟨order', horder'⟩ := Option.ne_none_iff_exists'.mp hid
      obtain ⟨order, horder, -⟩ := horders id order' horder'
      exact .inl (by rw [horder]; exact Option.some_ne_none _)
    · exact .inr (.inl (hpending ▸ hid))
    · exact .inr (.inr (hawaiting hid))
  first id := by rw [hpending]; exact h.first id
  unanswered id pending hmem hkind := by
    rw [hpending] at hmem
    obtain ⟨hnot, heq⟩ := h.unanswered id pending hmem hkind
    refine ⟨fun hid => hnot (hawaiting hid), fun order' horder' => ?_⟩
    obtain ⟨order, horder, -, -, hkeeps⟩ := horders id order' horder'
    exact hkeeps ⟨pending, hmem, hkind⟩ (heq order horder)
  sized id := by rw [hpending]; exact h.sized id

theorem fillAt (h : l.Quantities next) (id : OrderId) (execution : TradeExecution) :
    (l.fillAt id execution).Quantities next := by
  refine h.evolve rfl (Set.Subset.refl _) fun i order' horder' => ?_
  rw [Ledger.fillAt] at horder'
  simp only [Function.update_apply] at horder'
  split at horder'
  · rename_i hi
    obtain ⟨order, horder, rfl⟩ := Option.map_eq_some_iff.mp horder'
    refine ⟨order, hi ▸ horder, (h.balanced id order horder).fill execution, rfl, fun _ heq => ?_⟩
    have hmin := Nat.min_le_left order.leavesQuantity execution.quantity.toNat
    simp only [fillOrder]
    omega
  · exact ⟨order', horder', h.balanced i order' horder', rfl, fun _ heq => heq⟩

theorem trade (h : l.Quantities next) (execution : TradeExecution) :
    (l.trade execution).Quantities next := by
  have hfill : (l.fill execution).Quantities next := (h.fillAt _ execution).fillAt _ execution
  unfold Ledger.trade
  split
  · split
    · exact ⟨h.balanced, h.keyed, h.drawn, h.first, h.unanswered, h.sized⟩
    · exact ⟨hfill.balanced, hfill.keyed, hfill.drawn, hfill.first, hfill.unanswered, hfill.sized⟩
  · exact hfill

theorem boundary (h : l.Quantities next) (symbol : Symbol) :
    (l.boundary symbol).Quantities next := by
  refine h.evolve rfl (fun _ hid => hid.1) fun id order' horder' => ?_
  simp only [Ledger.boundary] at horder'
  split at horder'
  · rename_i hid
    obtain ⟨order, horder, rfl⟩ := Option.map_eq_some_iff.mp horder'
    refine ⟨order, horder, (h.balanced id order horder).reach symbol, ?_, ?_⟩
    · unfold OrderState.reach
      split <;> rfl
    · rintro ⟨pending, hmem, hkind⟩
      exact absurd hid (h.unanswered id pending hmem hkind).1
  · exact ⟨order', horder', h.balanced id order' horder', rfl, fun _ heq => heq⟩

/-- The front entry is taken out; the entries behind it are not of new orders. -/
theorem pop (h : l.Quantities next) {id : OrderId} {pending : PendingRequest}
    {rest : List PendingRequest} (hpending : l.pending id = pending :: rest) :
    (l.setPending id rest).Quantities next ∧ ∀ p ∈ rest, p.kind ≠ .new := by
  have hrest : ∀ p ∈ rest, p.kind ≠ .new := by
    have := h.first id
    rwa [hpending] at this
  have hmem : ∀ i, ∀ p ∈ (l.setPending id rest).pending i, p ∈ l.pending i := by
    intro i p hp
    simp only [Ledger.setPending, Function.update_apply] at hp
    split at hp
    · rename_i hi
      rw [hi, hpending]
      exact .tail _ hp
    · exact hp
  refine ⟨⟨h.balanced, h.keyed, fun i hi => h.drawn i ?_, fun i p hp => ?_,
    fun i p hp => h.unanswered i p (hmem i p hp), fun i p hp => h.sized i p (hmem i p hp)⟩, hrest⟩
  · rcases hi with hi | hi | hi
    · exact .inl hi
    · obtain ⟨p, hp⟩ := List.exists_mem_of_ne_nil _ hi
      exact .inr (.inl (List.ne_nil_of_mem (hmem i p hp)))
    · exact .inr (.inr hi)
  · simp only [Ledger.setPending, Function.update_apply] at hp
    split at hp
    · exact hrest p (List.mem_of_mem_tail hp)
    · exact h.first i p hp

/-- Once its first request is answered, an order may become any balanced one. -/
theorem setOrder (h : l.Quantities next) {id : OrderId} {order order' : OrderState}
    (hanswered : ∀ p ∈ l.pending id, p.kind ≠ .new) (horder : l.orders id = some order)
    (hbalanced : order'.Balanced) (hkey : order'.numericOrderId = order.numericOrderId) :
    (l.setOrder id order').Quantities next := by
  refine h.evolve rfl (Set.Subset.refl _) fun i other hother => ?_
  simp only [Ledger.setOrder, Function.update_apply] at hother
  split at hother
  · rename_i hi
    cases hother
    refine ⟨order, hi ▸ horder, hbalanced, hkey, ?_⟩
    rintro ⟨p, hp, hkind⟩
    exact absurd hkind (hanswered p (hi ▸ hp))
  · exact ⟨other, hother, h.balanced i other hother, rfl, fun _ heq => heq⟩

theorem answer (h : l.Quantities next) {id : OrderId} {pending : PendingRequest} {success : Bool}
    {order : OrderState} (hanswered : ∀ p ∈ l.pending id, p.kind ≠ .new)
    (horder : l.orders id = some order)
    (hnew : pending.kind = .new →
      order.orderQuantity = order.cumulativeQuantity + order.leavesQuantity)
    (hreplace : pending.kind = .replace → success = true → (order.replace pending).Balanced) :
    (l.answer id pending success order).Quantities next := by
  have hbalanced := h.balanced id order horder
  unfold Ledger.answer
  split
  · rename_i hkind
    have hset := h.setOrder hanswered horder (hbalanced.accept (hnew hkind)) rfl
    refine ⟨hset.balanced, hset.keyed, fun i hi => ?_, hset.first, fun i p hp hp' => ?_, hset.sized⟩
    · rcases hi with hi | hi | hi | ⟨-, hi⟩
      · exact hset.drawn i (.inl hi)
      · exact hset.drawn i (.inr (.inl hi))
      · exact hset.drawn i (.inr (.inr hi))
      · rw [hi, h.keyed id order horder]
        exact h.drawn id (.inl (by rw [horder]; exact Option.some_ne_none _))
    · obtain ⟨hnot, heq⟩ := hset.unanswered i p hp hp'
      refine ⟨?_, heq⟩
      rintro (hi | ⟨-, hi⟩)
      · exact hnot hi
      · rw [h.keyed id order horder] at hi
        exact hanswered p (hi ▸ hp) hp'
  · refine h.evolve rfl (Set.Subset.refl _) fun i other hother => ?_
    simp only [Function.update_apply] at hother
    split at hother
    · cases hother
    · exact ⟨other, hother, h.balanced i other hother, rfl, fun _ heq => heq⟩
  · exact h.setOrder hanswered horder hbalanced.close rfl
  · rename_i hkind
    exact h.setOrder hanswered horder (hreplace hkind rfl) rfl
  · exact h
  · exact h

theorem absorb (h : l.Quantities next) {message : CoreMessage}
    (hcurrent : l.ReplacesCurrent message) : (l.absorb message).Quantities next := by
  unfold Ledger.absorb
  split
  · rename_i htype
    split
    · exact h
    rename_i response hdecode
    unfold Ledger.respond
    split
    · exact h
    rename_i pending rest hpending
    obtain ⟨hpop, hrest⟩ := h.pop hpending
    have hmem : pending ∈ l.pending response.orderId := by
      rw [hpending]
      exact .head _
    split
    · exact hpop
    rename_i order horder
    refine hpop.answer ?_ horder (fun hkind => ?_) fun hkind hsuccess => ?_
    · simpa [Ledger.setPending] using hrest
    · exact (h.unanswered _ pending hmem hkind).2 order horder
    · rw [OrderState.Balanced.replace_iff (h.sized _ pending hmem)]
      exact hcurrent response pending rest order htype hdecode hpending hkind
        (of_decide_eq_true hsuccess) horder
  split
  · split
    · exact h
    · exact h.trade _
  split
  · split
    · exact h
    · exact h.boundary _
  · exact h

end Quantities

/-- A confirmed replace that is not computed from the order's CumQty leaves it unbalanced. -/
theorem not_balanced_of_stale {l : Ledger} {message : CoreMessage}
    (hstale : ¬l.ReplacesCurrent message) :
    ∃ id order, (l.absorb message).orders id = some order ∧ order.Working ∧
      order.orderQuantity ≠ order.cumulativeQuantity + order.leavesQuantity := by
  simp only [ReplacesCurrent, not_forall] at hstale
  obtain ⟨response, pending, rest, order, htype, hdecode, hpending, hkind, hsuccess, horder, hcum⟩ :=
    hstale
  refine ⟨response.orderId, order.replace pending, ?_, ?_, fun heq => hcum ?_⟩
  · rw [Ledger.absorb, if_pos htype, hdecode]
    simp only [Ledger.respond, hpending, horder, Ledger.answer, hkind, hsuccess, ne_eq,
      not_false_eq_true, and_self, decide_true, Ledger.setOrder, Function.update_self]
  · simp only [OrderState.Working, OrderState.replace]
    split
    · exact .inl rfl
    · exact .inr rfl
  · simp only [OrderState.replace] at heq
    omega

/-! ## The client's messages -/

namespace Quantities

variable {next next' : Nat} {l : Ledger}

theorem mem_push {id i : OrderId} {pending p : PendingRequest} (hp : p ∈ (l.push id pending).pending i) :
    p ∈ l.pending i ∨ (i = id ∧ p = pending) := by
  simp only [Ledger.push, Ledger.setPending, Function.update_apply] at hp
  split at hp
  · rename_i hi
    rcases List.mem_append.mp hp with hp | hp
    · exact .inl (hi ▸ hp)
    · exact .inr ⟨hi, List.mem_singleton.mp hp⟩
  · exact .inl hp

/-- A request on an order that is there waits behind the others. -/
theorem push (h : l.Quantities next) {id : OrderId} {pending : PendingRequest}
    (hdrawn : id.toNat < next) (hkind : pending.kind ≠ .new)
    (hsized : pending.replacementWorkingQuantity ≤ pending.replacementTotalQuantity) :
    (l.push id pending).Quantities next where
  balanced := h.balanced
  keyed := h.keyed
  drawn i hi := by
    by_cases heq : i = id
    · exact heq ▸ hdrawn
    · refine h.drawn i ?_
      simpa [Ledger.push, Ledger.setPending, Function.update_of_ne heq] using hi
  first i p hp := by
    simp only [Ledger.push, Ledger.setPending, Function.update_apply] at hp
    split at hp
    · rcases List.mem_of_mem_tail hp |> List.mem_append.mp with hmem | hmem
      · -- an entry that was there is not the first of the longer queue
        rename_i hi
        rw [List.tail_append] at hp
        split at hp
        · rename_i hnil
          rw [List.isEmpty_iff] at hnil
          rw [hnil] at hmem
          cases hmem
        · rcases List.mem_append.mp hp with hp | hp
          · exact h.first id p hp
          · exact List.mem_singleton.mp hp ▸ hkind
      · exact List.mem_singleton.mp hmem ▸ hkind
    · exact h.first i p hp
  unanswered i p hp hp' := by
    rcases mem_push hp with hp | ⟨-, rfl⟩
    · exact h.unanswered i p hp hp'
    · exact absurd hp' hkind
  sized i p hp := by
    rcases mem_push hp with hp | ⟨-, rfl⟩
    · exact h.sized i p hp
    · exact hsized

/-- What is new to a ledger has left no trace in it. -/
theorem fresh (h : l.Quantities next) {id : OrderId} (hid : ¬id.toNat < next) :
    l.orders id = none ∧ l.pending id = [] ∧ id ∉ l.awaiting := by
  refine ⟨?_, ?_, fun hawaiting => hid (h.drawn id (.inr (.inr hawaiting)))⟩
  · by_contra hsome
    exact hid (h.drawn id (.inl hsome))
  · by_contra hsome
    exact hid (h.drawn id (.inr (.inl hsome)))

theorem place (h : l.Quantities next) {id : OrderId} {order : OrderState} {pending : PendingRequest}
    (hid : ¬id.toNat < next) (hdrawn : id.toNat < next') (hle : next ≤ next')
    (hbalanced : order.Balanced) (hkey : order.numericOrderId = id)
    (heq : order.orderQuantity = order.cumulativeQuantity + order.leavesQuantity)
    (hsized : pending.replacementWorkingQuantity ≤ pending.replacementTotalQuantity) :
    ((l.place id order).push id pending).Quantities next' := by
  obtain ⟨habsent, hnil, hnot⟩ := h.fresh hid
  rw [Ledger.place_absent order habsent]
  have hpending : ∀ i, ((l.setOrder id order).push id pending).pending i =
      if i = id then [pending] else l.pending i := by
    intro i
    simp only [Ledger.push, Ledger.setPending, Ledger.setOrder, Function.update_apply, hnil,
      List.nil_append]
  have horders : ∀ i o, ((l.setOrder id order).push id pending).orders i = some o →
      (i = id ∧ o = order) ∨ l.orders i = some o := by
    intro i o ho
    simp only [Ledger.push, Ledger.setPending, Ledger.setOrder, Function.update_apply] at ho
    split at ho
    · rename_i hi
      cases ho
      exact .inl ⟨hi, rfl⟩
    · exact .inr ho
  refine ⟨fun i o ho => ?_, fun i o ho => ?_, fun i hi => ?_, fun i p hp => ?_,
    fun i p hp hp' => ?_, fun i p hp => ?_⟩
  · rcases horders i o ho with ⟨-, rfl⟩ | ho
    · exact hbalanced
    · exact h.balanced i o ho
  · rcases horders i o ho with ⟨rfl, rfl⟩ | ho
    · exact hkey
    · exact h.keyed i o ho
  · by_cases heq : i = id
    · exact heq ▸ hdrawn
    · refine Nat.lt_of_lt_of_le (h.drawn i ?_) hle
      rcases hi with hi | hi | hi
      · obtain ⟨o, ho⟩ := Option.ne_none_iff_exists'.mp hi
        rcases horders i o ho with ⟨hi, -⟩ | ho
        · exact absurd hi heq
        · exact .inl (by rw [ho]; exact Option.some_ne_none _)
      · rw [hpending, if_neg heq] at hi
        exact .inr (.inl hi)
      · exact .inr (.inr hi)
  · rw [hpending] at hp
    split at hp
    · cases hp
    · exact h.first i p hp
  · rw [hpending] at hp
    split at hp
    · rename_i hi
      refine ⟨hi ▸ hnot, fun o ho => ?_⟩
      rcases horders i o ho with ⟨-, rfl⟩ | ho
      · exact heq
      · rw [hi, habsent] at ho
        cases ho
    · rename_i hi
      obtain ⟨hnot', heq'⟩ := h.unanswered i p hp hp'
      refine ⟨hnot', fun o ho => ?_⟩
      rcases horders i o ho with ⟨hi', -⟩ | ho
      · exact absurd hi' hi
      · exact heq' o ho
  · rw [hpending] at hp
    split at hp
    · exact List.mem_singleton.mp hp ▸ hsized
    · exact h.sized i p hp

end Quantities

end Ledger

theorem FixBridge.NewOrderTranslation.order_balanced (translated : NewOrderTranslation) :
    translated.order.Balanced :=
  ⟨Nat.le_of_eq (Nat.zero_add _), fun _ => (Nat.zero_add _).symm⟩

theorem Ledger.Quantities.client {surroundings : Surroundings} {next : Nat} {message : Message}
    {session : SessionContext} {effects : Effects} (h : session.ledger.Quantities next)
    (hcounter : next < 2 ^ 64)
    (heffect : ClientEffect surroundings next message session effects) :
    effects.session.ledger.Quantities effects.nextNumericOrderId := by
  cases heffect with
  | kept hledger _ hnext => exact hledger ▸ h.mono hnext
  | unsent _ hledger =>
    have herased : (session.ledger.eraseOrder (UInt64.ofNat next)).Quantities next := by
      refine h.evolve rfl (Set.Subset.refl _) fun i other hother => ?_
      simp only [Ledger.eraseOrder, Function.update_apply] at hother
      split at hother
      · cases hother
      · exact ⟨other, hother, h.balanced i other hother, rfl, fun _ heq => heq⟩
    exact hledger ▸ herased.mono (Nat.le_succ _)
  | @placed session' translated htranslated _ _ hledger =>
    have hid : translated.request.orderId.toNat = next := by
      rw [(translateNewOrderSingle_ok htranslated).orderId, UInt64.toNat_ofNat_of_lt' hcounter]
    show Ledger.Quantities (next + 1) (SessionContext.ledger _)
    rw [hledger]
    exact h.place (by omega) (by omega) (Nat.le_succ _) translated.order_balanced rfl
      (Nat.zero_add _).symm (Nat.le_refl _)
  | cancelled hfound _ _ _ hledger =>
    show Ledger.Quantities _ (SessionContext.ledger _)
    rw [hledger]
    refine h.push (h.drawn _ (.inl ?_)) (fun hkind => by cases hkind) (Nat.le_refl _)
    rw [hfound]
    exact Option.some_ne_none _
  | replaced hfound _ _ _ _ _ _ _ hledger =>
    show Ledger.Quantities _ (SessionContext.ledger _)
    rw [hledger, h.keyed _ _ hfound]
    refine h.push (h.drawn _ (.inl ?_)) (fun hkind => by cases hkind) (Nat.sub_le _ _)
    rw [hfound]
    exact Option.some_ne_none _

/-! ## Every run -/

namespace Bridge

def SessionsConsistent (s : Bridge) : Prop :=
  ∀ socket link, s.links socket = some link → link.session.QuantitiesConsistent

/-- A confirmed replace that a session processes was computed from the order's CumQty as it still
is. -/
def ReplacesCurrent (s : Bridge) : Label → Prop
  | .deliver socket message =>
    ∀ link, s.links socket = some link → link.session.ledger.ReplacesCurrent message
  | _ => True

def CurrentStep (config : FixGatewayConfig) (s : Bridge) (label : Label) (s' : Bridge) : Prop :=
  Step config s label s' ∧ s.ReplacesCurrent label

def Quantities (s : Bridge) : Prop :=
  ∀ socket link, s.links socket = some link →
    link.session.ledger.Quantities s.nextNumericOrderId

variable {config : FixGatewayConfig} {server₀ : ExchangeServer} {labels : List Label}
  {label : Label} {s s' : Bridge}

theorem Quantities.consistent (h : s.Quantities) : s.SessionsConsistent := by
  intro socket link hlink id order horder
  have hbalanced := (h socket link hlink).balanced id order horder
  exact ⟨fun hworking => hbalanced.working (.inr hworking),
    Nat.le_trans (Nat.le_add_right _ _) hbalanced.within⟩

theorem Step.quantities (hstep : Step config s label s') (h : s.Quantities)
    (hcurrent : s.ReplacesCurrent label) : s'.Quantities := by
  intro socket link' hlink'
  have hle := hstep.nextNumericOrderId_le
  rcases hstep.session_cases hlink' with ⟨link, hlink, hsession⟩ | ⟨-, hsession⟩ |
    ⟨link, surroundings, message, hlink, rfl, hcounter, hnext, hsession⟩ |
    ⟨link, message, iteration, hlink, rfl, hsession⟩
  · rw [hsession]
    exact (h socket link hlink).mono hle
  · rw [hsession]
    refine ⟨fun id order horder => ?_, fun id order horder => ?_, fun id hid => ?_,
      fun id p hp => ?_, fun id p hp => ?_, fun id p hp => ?_⟩
    · cases horder
    · cases horder
    · rcases hid with hid | hid | hid
      · exact absurd rfl hid
      · exact absurd rfl hid
      · cases hid
    · cases hp
    · cases hp
    · cases hp
  · rw [hsession, hnext]
    exact (h socket link hlink).client hcounter processFixMessage_effect
  · rw [hsession, ledger_processCoreMessage]
    exact ((h socket link hlink).absorb (hcurrent link hlink)).mono hle

theorem quantities_run (h : Run (CurrentStep config) (starting server₀) labels s) : s.Quantities := by
  refine h.invariant (fun socket link hlink => by cases hlink) ?_
  rintro s₁ label s₂ hquantities ⟨hstep, hcurrent⟩
  exact hstep.quantities hquantities hcurrent

end Bridge

/-- While every confirmed replace finds the CumQty it was computed from, the quantities of every
order of every session are consistent; the first one that does not makes them inconsistent. -/
theorem quantities_consistent {config : FixGatewayConfig} {server₀ : ExchangeServer}
    {labels : List Bridge.Label} {label : Bridge.Label} {s s' : Bridge}
    (hrun : Run (Bridge.CurrentStep config) (.starting server₀) labels s)
    (hstep : Bridge.Step config s label s') :
    s.SessionsConsistent ∧ (s'.SessionsConsistent ↔ s.ReplacesCurrent label) := by
  have hquantities := Bridge.quantities_run hrun
  refine ⟨hquantities.consistent, fun hconsistent => ?_,
    fun hcurrent => (hstep.quantities hquantities hcurrent).consistent⟩
  cases label with
  | deliver socket message =>
    intro link hlink
    by_contra hstale
    obtain ⟨id, order, horder, hworking, hne⟩ := Ledger.not_balanced_of_stale hstale
    cases hstep with
    | @deliver _ link₁ _ rest iteration hlink₁ hnext =>
      rw [hlink] at hlink₁
      cases hlink₁
      rw [← ledger_processCoreMessage _ iteration] at horder
      exact hne ((hconsistent socket (link.process iteration message rest)
        (Function.update_self _ _ _) id order horder).1 hworking)
  | core => trivial
  | accept => trivial
  | client => trivial

/-- `ReplacesCurrent`, computed. -/
def Ledger.isCurrent (message : CoreMessage) (l : Ledger) : Bool :=
  !isOrderResponse message.header.type || (decodeOrderResponse message.body).all fun response =>
    (l.pending response.orderId).head?.all fun pending =>
      pending.kind ≠ .replace ||
        !(response.success ≠ 0 ∧ message.header.type ≠ .orderRejected : Bool) ||
        (l.orders response.orderId).all fun order =>
          order.cumulativeQuantity =
            pending.replacementTotalQuantity - pending.replacementWorkingQuantity

theorem Ledger.replacesCurrent {message : CoreMessage} {l : Ledger}
    (h : l.isCurrent message = true) : l.ReplacesCurrent message := by
  intro response pending rest order hresponse hdecode hpending hkind hconfirmed horder
  simp only [isCurrent, hresponse, hdecode, hpending, hkind, hconfirmed, horder, List.head?_cons,
    Option.all_some, Bool.not_true, Bool.false_or, ne_eq, not_true_eq_false, decide_false,
    not_false_eq_true, and_self, decide_true, decide_eq_true_eq] at h
  exact h

/-- What is delivered confirms no replace that a fill has crossed. -/
def Bridge.isCurrent (move : Bridge.Move) (s : Bridge) : Bool :=
  match move with
  | .deliver socket => (s.links socket).all fun link =>
    link.toGateway.head?.all fun message => link.session.ledger.isCurrent message
  | _ => true

/-- An order of 100 is filled by 40, replaced by 150 when that is processed, and filled by 10 more. -/
def Bridge.replacedMoves : List Bridge.Move :=
  [.accept 4, .client 4 .reachable .logon, .connect 4, .connect 5, .connect 6,
    .client 4 .reachable (.newOrderSingle "2" "a" "1" "100" "10" "1"), .request 4, .send 4,
    .command 5 (newOrderFrame ⟨7, 1, 10, 40, .sell, .limit, .goodTillCancel, defaultSymbol⟩),
    .send 5, .send 5, .send 4, .send 4, .deliver 4, .deliver 4, .deliver 4, .deliver 4,
    .client 4 .reachable (.orderCancelReplaceRequest "3" "b" "a" "150" "10"),
    .request 4, .send 4, .deliver 4,
    .command 6 (newOrderFrame ⟨8, 2, 10, 10, .sell, .limit, .goodTillCancel, defaultSymbol⟩),
    .send 6, .send 6]

def Link.quantities (id : OrderId) (link : Link) : Option (OrdStatus × Nat × Nat × Nat) :=
  (link.session.orders.lookup id).map fun order =>
    (order.ordStatus, order.orderQuantity, order.cumulativeQuantity, order.leavesQuantity)

/-- The quantities of the replaced order before and after the fill that follows. -/
theorem quantities_consistent_replaced :
    ∃ labels s message s' link link', Run (Bridge.CurrentStep {})
        (.starting { riskEngine := { limits := {} } }) labels s ∧
      Bridge.CurrentStep {} s (.deliver 4 message) s' ∧
      s.links 4 = some link ∧ link.quantities (2 ^ 62) = some (.partiallyFilled, 150, 40, 110) ∧
      s'.links 4 = some link' ∧ link'.quantities (2 ^ 62) = some (.partiallyFilled, 150, 50, 100) ∧
      s.SessionsConsistent ∧ s'.SessionsConsistent := by
  have hreplaced : ((Bridge.performChecked {} Bridge.isCurrent Bridge.replacedMoves
      (.starting { riskEngine := { limits := {} } })).any fun s => (s.links 4).any fun link =>
        decide (link.quantities (2 ^ 62) = some (.partiallyFilled, 150, 40, 110)) &&
          link.toGateway.head?.any fun message => link.session.ledger.isCurrent message &&
            decide ((link.process .dedup message link.toGateway.tail).quantities (2 ^ 62) =
              some (.partiallyFilled, 150, 50, 100))) = true := by
    decide +kernel
  have hstart : start {} none = some { riskEngine := { limits := {} } } := rfl
  have hcurrent : ∀ move ∈ Bridge.replacedMoves, ∀ s label, Bridge.isCurrent move s = true →
      move.Yields s label → s.ReplacesCurrent label := by
    intro move _ s label hcheck hyields
    cases label with
    | deliver socket message =>
      obtain ⟨rfl, link, rest, hlink, hnext⟩ := hyields.deliver socket message rfl
      intro link₁ hlink₁
      rw [hlink] at hlink₁
      cases hlink₁
      simp only [Bridge.isCurrent, hlink, hnext, Option.all_some, List.head?_cons] at hcheck
      exact Ledger.replacesCurrent hcheck
    | core | accept | client => trivial
  obtain ⟨s, hperform, hfinal⟩ := (Option.any_eq_true _ _).mp hreplaced
  obtain ⟨labels, hrun⟩ := Bridge.performChecked_run hstart hcurrent hperform
  obtain ⟨link, hlink, hfinal⟩ := (Option.any_eq_true _ _).mp hfinal
  obtain ⟨hbefore, hfinal⟩ := (Bool.and_eq_true _ _).mp hfinal
  obtain ⟨message, hmessage, hfinal⟩ := (Option.any_eq_true _ _).mp hfinal
  obtain ⟨hcheck, hafter⟩ := (Bool.and_eq_true _ _).mp hfinal
  obtain ⟨rest, hnext⟩ := List.head?_eq_some_iff.mp hmessage
  rw [hnext, List.tail_cons] at hafter
  have hnow : s.ReplacesCurrent (.deliver 4 message) := by
    intro link₁ hlink₁
    rw [hlink] at hlink₁
    cases hlink₁
    exact Ledger.replacesCurrent hcheck
  have hstep : Bridge.CurrentStep {} s (.deliver 4 message) _ := ⟨.deliver .dedup hlink hnext, hnow⟩
  obtain ⟨hconsistent, hstays⟩ := quantities_consistent hrun hstep.1
  exact ⟨labels, s, message, _, link, _, hrun, hstep, hlink, of_decide_eq_true hbefore,
    Bridge.links_setLink 4 _ s, of_decide_eq_true hafter, hconsistent, hstays.mpr hnow⟩

/-- A fill of 40 crosses a replace of 100 by 150: the confirmation sets the order's leaves to the 150
it was sent with. -/
def Bridge.crossingMoves : List Bridge.Move :=
  [.accept 4, .client 4 .reachable .logon, .connect 4, .connect 5,
    .client 4 .reachable (.newOrderSingle "2" "a" "1" "100" "10" "1"),
    .client 4 .reachable (.orderCancelReplaceRequest "3" "b" "a" "150" "10"),
    .request 4, .send 4, .send 4, .send 4,
    .command 5 (newOrderFrame ⟨7, 1, 10, 40, .sell, .limit, .goodTillCancel, defaultSymbol⟩),
    .send 5, .send 5, .request 4, .send 4,
    .deliver 4, .deliver 4, .deliver 4, .deliver 4, .deliver 4]

theorem quantities_inconsistent :
    ¬ ∀ (config : FixGatewayConfig) (limits : RiskLimits) (file : Option (Option Bytes))
      (server₀ : ExchangeServer) (labels : List Bridge.Label) (s : Bridge),
      start limits file = some server₀ → Run (Bridge.Step config) (.starting server₀) labels s →
      s.SessionsConsistent := by
  intro hall
  have hcrossing : ((Bridge.performAll {} Bridge.crossingMoves
      (.starting { riskEngine := { limits := {} } })).any fun s => (s.links 4).any fun link =>
        (link.session.orders.lookup (2 ^ 62)).any fun order =>
          order.ordStatus = .partiallyFilled ∧ order.orderQuantity = 150 ∧
            order.cumulativeQuantity = 40 ∧ order.leavesQuantity = 150) = true := by
    decide +kernel
  have hstart : start {} none = some { riskEngine := { limits := {} } } := rfl
  obtain ⟨labels, s, hrun, hfinal⟩ := Bridge.performAll_any hstart hcrossing
  obtain ⟨link, hlink, hfinal⟩ := (Option.any_eq_true _ _).mp hfinal
  obtain ⟨order, horder, hfinal⟩ := (Option.any_eq_true _ _).mp hfinal
  obtain ⟨hstatus, hquantity, hcumulative, hleaves⟩ := of_decide_eq_true hfinal
  have hconsistent := (hall _ _ _ _ _ _ hstart hrun 4 link hlink _ order horder).1 (.inr hstatus)
  omega

end ExchangeLab

import ExchangeLab.Gateway.Answers
import ExchangeLab.Gateway.Duplicates

/-!
# ExchangeLab.Gateway.Reports

The quantities of the trades that a session reports to its client.

* `processCoreMessage_reported`: a copy that is not the second of a pair is reported for each order
  of the session that it names, in full if the order has enough left.
* `Link.Accounts`: over a session, the LastQty of an order add up to no more than the trades that it
  took, and to just that if and only if none of them was cut; kept by each message.
-/

namespace ExchangeLab

open Wire Protocol OrderBook MatchingEngine ExchangeServer ExchangeLab.Fix FixGateway FixBridge
  Duplicates

/-! ## Shares -/

/-- How much of a trade is the order's. -/
def SelfTradeKey.share (id : OrderId) (key : SelfTradeKey) : Nat :=
  (if key.buyOrderId = id then key.quantity.toNat else 0) +
    if key.sellOrderId = id then key.quantity.toNat else 0

def shares (id : OrderId) (keys : List SelfTradeKey) : Nat :=
  (keys.map (SelfTradeKey.share id)).sum

/-- The total quantity that the core has traded for an order. -/
def traded (id : OrderId) (executions : List Execution) : Nat :=
  shares id (executions.map Execution.key)

/-- The LastQty of a reply that reports a trade of the order. -/
def Reply.lastQty (id : OrderId) : Reply → Nat
  | .executionReport report =>
    if report.execType = .trade ∧ report.orderId = id then report.lastQty.getD 0 else 0
  | _ => 0

def reported (id : OrderId) (replies : List Reply) : Nat := (replies.map (Reply.lastQty id)).sum

variable {id : OrderId}

theorem SelfTradeKey.share_of_ne {key : SelfTradeKey}
    (h : ¬(id = key.buyOrderId ∨ id = key.sellOrderId)) : key.share id = 0 := by
  rw [not_or] at h
  rw [share, if_neg (Ne.symm h.1), if_neg (Ne.symm h.2)]

theorem shares_append (keys keys' : List SelfTradeKey) :
    shares id (keys ++ keys') = shares id keys + shares id keys' := by
  rw [shares, List.map_append, List.sum_append]
  rfl

theorem shares_eq_zero {keys : List SelfTradeKey} (h : ∀ key ∈ keys, key.share id = 0) :
    shares id keys = 0 := by
  rw [shares, List.sum_eq_zero_iff]
  intro share hmem
  obtain ⟨key, hkey, rfl⟩ := List.mem_map.mp hmem
  exact h key hkey

/-- What is counted apart adds up. -/
theorem shares_filter (p : SelfTradeKey → Bool) (keys : List SelfTradeKey) :
    shares id (keys.filter p) + shares id (keys.filter fun key => !p key) = shares id keys := by
  induction keys with
  | nil => rfl
  | cons key keys ih =>
    have hcons : shares id (key :: keys) = key.share id + shares id keys := rfl
    cases hp : p key with
    | true =>
      rw [List.filter_cons_of_pos hp, List.filter_cons_of_neg (by rw [hp]; exact Bool.false_ne_true)]
      have hcons' : shares id (key :: keys.filter p) = key.share id + shares id (keys.filter p) := rfl
      omega
    | false =>
      rw [List.filter_cons_of_neg (by rw [hp]; exact Bool.false_ne_true),
        List.filter_cons_of_pos (by rw [hp]; rfl)]
      have hcons' : shares id (key :: keys.filter fun key => !p key) =
        key.share id + shares id (keys.filter fun key => !p key) := rfl
      omega

theorem reported_append (replies replies' : List Reply) :
    reported id (replies ++ replies') = reported id replies + reported id replies' := by
  rw [reported, List.map_append, List.sum_append]
  rfl

theorem reported_eq_zero {replies : List Reply} (h : ∀ reply ∈ replies, reply.lastQty id = 0) :
    reported id replies = 0 := by
  rw [reported, List.sum_eq_zero_iff]
  intro quantity hmem
  obtain ⟨reply, hreply, rfl⟩ := List.mem_map.mp hmem
  exact h reply hreply

/-! ## One message -/

/-- A copy that is not dropped finds in each order that it names at least what is the order's. -/
def Ledger.FillsWhole (message : CoreMessage) (l : Ledger) : Prop :=
  ∀ execution, message.execution = some execution → ¬l.IsDuplicate execution →
    ∀ id order, l.orders id = some order →
      (selfTradeKey execution).share id ≤ order.leavesQuantity

theorem answerReply_lastQty (pending : PendingRequest) (success : Bool) (order : OrderState) :
    (answerReply pending success order).lastQty id = 0 := by
  obtain ⟨kind, clOrdId, origClOrdId, total, working, price⟩ := pending
  cases kind <;> cases success <;> rfl

theorem boundaryReplies_lastQty {symbol : Symbol} {order : OrderState} {reply : Reply}
    (h : reply ∈ boundaryReplies symbol order) : reply.lastQty id = 0 := by
  unfold boundaryReplies at h
  split at h
  · rw [List.mem_singleton.mp h]
    rfl
  · cases h

theorem fillReply_lastQty (execution : TradeExecution) (order : OrderState) :
    (fillReply execution order).lastQty id =
      if order.numericOrderId = id then min order.leavesQuantity execution.quantity.toNat else 0 := by
  by_cases hid : order.numericOrderId = id
  · rw [if_pos hid]
    exact if_pos ⟨rfl, hid⟩
  · rw [if_neg hid]
    exact if_neg fun hboth => hid hboth.2

/-- What a message reports of an order: its share of the trade, or what it has left. -/
def Ledger.filled (message : CoreMessage) (id : OrderId) (l : Ledger) : Nat :=
  match message.execution with
  | none => 0
  | some execution =>
    if l.IsDuplicate execution then 0
    else ((l.orders id).map fun order =>
      min order.leavesQuantity ((selfTradeKey execution).share id)).getD 0

/-- What it would report if the order always had enough left. -/
def Ledger.due (message : CoreMessage) (id : OrderId) (l : Ledger) : Nat :=
  match message.execution with
  | none => 0
  | some execution =>
    if l.IsDuplicate execution ∨ l.orders id = none then 0 else (selfTradeKey execution).share id

theorem Ledger.filled_le_due (message : CoreMessage) (id : OrderId) (l : Ledger) :
    l.filled message id ≤ l.due message id := by
  unfold filled due
  cases message.execution with
  | none => exact Nat.le_refl _
  | some execution =>
    by_cases hdropped : l.IsDuplicate execution
    · simp only [hdropped, true_or, if_true, Nat.le_refl]
    · cases horder : l.orders id with
      | none => simp [hdropped]
      | some order => simp [hdropped]

theorem Ledger.fillsWhole_iff {message : CoreMessage} {l : Ledger} :
    l.FillsWhole message ↔ ∀ id, l.filled message id = l.due message id := by
  unfold FillsWhole filled due
  cases message.execution with
  | none => exact ⟨fun _ _ => rfl, fun _ _ hnone => nomatch hnone⟩
  | some execution =>
    constructor
    · intro h id
      by_cases hdropped : l.IsDuplicate execution
      · simp only [hdropped, true_or, if_true]
      · cases horder : l.orders id with
        | none => simp [hdropped]
        | some order =>
          have hleaves := h execution rfl hdropped id order horder
          simpa [hdropped] using hleaves
    · intro h other hother hdropped id order horder
      cases hother
      have heq := h id
      simpa [hdropped, horder] using heq

/-- The orders of the session that a trade names report it, each its share or what it has left. -/
theorem tradeReplies_reported {l : Ledger} {execution : TradeExecution}
    (hkeyed : ∀ id order, l.orders id = some order → order.numericOrderId = id)
    (hdropped : ¬l.IsDuplicate execution) :
    reported id (l.tradeReplies execution) = ((l.orders id).map fun order =>
      min order.leavesQuantity ((selfTradeKey execution).share id)).getD 0 := by
  have hshare : (selfTradeKey execution).share id =
      (if execution.buyOrderId = id then execution.quantity.toNat else 0) +
        if execution.sellOrderId = id then execution.quantity.toNat else 0 := rfl
  have hfill : ∀ (named : OrderId) (order : Option OrderState),
      (∀ o, order = some o → o.numericOrderId = named) →
      reported id (order.toList.map (fillReply execution)) =
        if named = id then (order.map fun o => min o.leavesQuantity execution.quantity.toNat).getD 0
        else 0 := by
    intro named order hat
    cases order with
    | none => exact (ite_self _).symm
    | some o =>
      rw [Option.toList_some, List.map_singleton, reported, List.map_singleton, List.sum_singleton,
        fillReply_lastQty, hat o rfl]
      rfl
  have hsold : ∀ o, (l.fillAt execution.buyOrderId execution).orders execution.sellOrderId = some o →
      o.numericOrderId = execution.sellOrderId := by
    intro o ho
    have hidentity := l.fillAt_identity execution.buyOrderId execution execution.sellOrderId
    rw [ho, Option.map_some] at hidentity
    obtain ⟨order, horder, heq⟩ := Option.map_eq_some_iff.mp hidentity.symm
    exact (Prod.mk.inj (Prod.mk.inj heq).2).1.symm.trans (hkeyed _ _ horder)
  rw [Ledger.tradeReplies, if_neg hdropped, reported_append, hfill _ _ (hkeyed _), hfill _ _ hsold]
  simp only [Ledger.fillAt, Function.update_apply]
  cases horder : l.orders id with
  | none =>
    have hbuy : (if execution.buyOrderId = id then
        ((l.orders execution.buyOrderId).map fun o =>
          min o.leavesQuantity execution.quantity.toNat).getD 0 else 0) = 0 := by
      split
      · rename_i heq
        rw [heq, horder]
        rfl
      · rfl
    rw [hbuy, Nat.zero_add]
    split
    · rename_i heq
      rw [heq, horder]
      split
      · rename_i hboth
        rw [← hboth, horder]
        rfl
      · rfl
    · rfl
  | some order =>
    rw [hshare, Option.map_some, Option.getD_some]
    by_cases hbuy : execution.buyOrderId = id
    · rw [if_pos hbuy, if_pos hbuy]
      by_cases hsell : execution.sellOrderId = id
      · rw [if_pos hsell, if_pos hsell, if_pos (hsell.trans hbuy.symm), hbuy, horder]
        simp only [Option.map_some, Option.getD_some, fillOrder]
        omega
      · rw [if_neg hsell, if_neg hsell, hbuy, horder]
        rfl
    · rw [if_neg hbuy, if_neg hbuy]
      by_cases hsell : execution.sellOrderId = id
      · rw [if_pos hsell, if_pos hsell, if_neg fun heq => hbuy (heq.symm.trans hsell), hsell, horder,
          Nat.zero_add, Nat.zero_add]
        rfl
      · rw [if_neg hsell, if_neg hsell]
        exact (Nat.min_zero _).symm

theorem processCoreMessage_reported {iteration : SetOrder} {message : CoreMessage}
    {session : SessionContext}
    (hkeyed : ∀ id order, session.ledger.orders id = some order → order.numericOrderId = id) :
    reported id (processCoreMessage iteration message session).2 =
      session.ledger.filled message id := by
  rw [Ledger.filled]
  by_cases htype : message.header.type = .tradeExecution
  · have hresponse : ¬isOrderResponse message.header.type = true := by
      rw [htype]
      decide
    have hdecoded : message.execution = decodeTradeExecution message.body := if_pos htype
    rw [processCoreMessage, if_neg hresponse, if_pos htype, handleCoreTrade_replies, ← hdecoded]
    cases message.execution with
    | none => rfl
    | some execution =>
      by_cases hdropped : session.ledger.IsDuplicate execution
      · simp only [Ledger.tradeReplies, hdropped]
        rfl
      · simp only [hdropped]
        exact tradeReplies_reported hkeyed hdropped
  have hnone : message.execution = none := if_neg htype
  rw [hnone]
  refine reported_eq_zero fun reply hreply => ?_
  unfold processCoreMessage at hreply
  split at hreply
  · rw [handleCoreOrderResponse_replies] at hreply
    split at hreply
    · cases hreply
    · unfold Ledger.responseReplies at hreply
      split at hreply
      · cases hreply
      · obtain ⟨order, -, rfl⟩ := List.mem_map.mp hreply
        exact answerReply_lastQty _ _ _
  split at hreply
  · rw [finalizeNonRestingOrders_replies] at hreply
    split at hreply
    · cases hreply
    · obtain ⟨other, -, hreply⟩ := List.mem_flatMap.mp hreply
      obtain ⟨order, -, hreply⟩ := List.mem_flatMap.mp hreply
      exact boundaryReplies_lastQty hreply
  · cases hreply

/-! ## One link -/

namespace Link

/-- The trades that the session took, of the copies that it has processed: those with orders that are
not its own, and the first of two copies of the others. -/
def taken (link : Link) : List SelfTradeKey :=
  link.processed.filter (fun key => !link.owns key) ++
    ((marks {} (link.processed.filter link.owns)).filter Prod.snd).map Prod.fst

/-- What is to be reported of an order: its trades if it is one of the session's. -/
def owed (id : OrderId) (link : Link) : Nat :=
  if id ∈ link.placed then shares id link.taken else 0

/-- No more is reported of an order than its trades, and if and only if the session has cut none, just
that. -/
structure Accounts (link : Link) (whole : Prop) : Prop where
  atMost : ∀ id, reported id link.replies ≤ link.owed id
  exactly : whole ↔ ∀ id, reported id link.replies = link.owed id

theorem mem_taken {link : Link} {key : SelfTradeKey} (h : key ∈ link.taken) :
    key ∈ link.processed := by
  rcases List.mem_append.mp h with hmem | hmem
  · exact List.mem_of_mem_filter hmem
  · obtain ⟨mark, hmark, rfl⟩ := List.mem_map.mp hmem
    have hkey := List.mem_map_of_mem (f := Prod.fst) (List.mem_of_mem_filter hmark)
    rw [marks_keys] at hkey
    exact List.mem_of_mem_filter hkey

/-- A copy is taken unless it is dropped. -/
theorem shares_process {link : Link} (hfilters : link.Filters) {iteration : SetOrder}
    {message : CoreMessage} {rest : List CoreMessage} {execution : TradeExecution}
    (hkey : message.key = some (selfTradeKey execution))
    (hboth : link.session.ledger.OwnsBoth execution ↔ link.owns (selfTradeKey execution) = true) :
    shares id (link.process iteration message rest).taken =
      shares id link.taken +
        if link.session.ledger.IsDuplicate execution then 0 else (selfTradeKey execution).share id := by
  have howns : (link.process iteration message rest).owns = link.owns := rfl
  have hone : shares id [selfTradeKey execution] = (selfTradeKey execution).share id :=
    List.sum_singleton
  rw [Link.taken, Link.processed_process, howns, hkey, Option.toList_some, List.filter_append,
    List.filter_append, Link.taken]
  by_cases howned : link.owns (selfTradeKey execution) = true
  · have hforeign : [selfTradeKey execution].filter (fun key => !link.owns key) = [] := by
      simp [howned]
    have hown : [selfTradeKey execution].filter link.owns = [selfTradeKey execution] := by
      simp [howned]
    have hduplicate : link.session.ledger.IsDuplicate execution ↔
        link.session.ledger.memory.Ignores (selfTradeKey execution) := and_iff_right (hboth.mpr howned)
    rw [hforeign, hown, List.append_nil, marks_append, ← hfilters.memory, List.filter_append,
      List.map_append, ← List.append_assoc, shares_append]
    congr 1
    by_cases hignored : link.session.ledger.memory.Ignores (selfTradeKey execution)
    · rw [if_pos (hduplicate.mpr hignored)]
      simp [marks, hignored, shares]
    · rw [if_neg (hduplicate.not.mpr hignored), ← hone]
      simp [marks, hignored]
  · have hforeign : [selfTradeKey execution].filter (fun key => !link.owns key) =
        [selfTradeKey execution] := by simp [howned]
    have hown : [selfTradeKey execution].filter link.owns = [] := by simp [howned]
    have hduplicate : ¬link.session.ledger.IsDuplicate execution := fun hduplicate =>
      howned (hboth.mp hduplicate.1)
    rw [hforeign, hown, List.append_nil, if_neg hduplicate, shares_append, shares_append,
      shares_append, hone]
    omega

namespace Accounts

variable {link link' : Link} {whole : Prop}

theorem start (session : SessionContext) : Link.Accounts { session := session } True := by
  have hnothing : ∀ id, reported id (Link.replies { session := session }) =
      Link.owed id { session := session } := fun _ => (if_neg (by simp [Link.placed])).symm
  exact ⟨fun id => (hnothing id).le, ⟨fun _ => hnothing, fun _ => trivial⟩⟩

/-- Only what the session has processed and whose trades those are matter. An order that was not the
session's is in none of them. -/
theorem congr (h : link.Accounts whole) (hreceived : link'.received = link.received)
    (howns : ∀ key ∈ link.processed, link'.owns key = link.owns key)
    (hplaced : link.placed ⊆ link'.placed)
    (hnew : ∀ id ∈ link'.placed, id ∉ link.placed → ∀ key ∈ link.processed, key.share id = 0) :
    link'.Accounts whole := by
  have hprocessed : link'.processed = link.processed := by
    rw [Link.processed, hreceived, Link.processed]
  have htaken : link'.taken = link.taken := by
    have hnot : ∀ key ∈ link.processed, (!link'.owns key) = !link.owns key := fun key hmem => by
      rw [howns key hmem]
    rw [Link.taken, hprocessed, List.filter_congr howns, List.filter_congr hnot, Link.taken]
  have hreplies : link'.replies = link.replies := by rw [Link.replies, hreceived, Link.replies]
  have howed : ∀ id, link'.owed id = link.owed id := by
    intro id
    rw [Link.owed, Link.owed, htaken]
    by_cases hold : id ∈ link.placed
    · rw [if_pos hold, if_pos (hplaced hold)]
    · rw [if_neg hold]
      split
      · rename_i hid
        exact shares_eq_zero fun key hmem => hnew id hid hold key (mem_taken hmem)
      · rfl
  refine ⟨fun id => ?_, h.exactly.trans (forall_congr' fun id => ?_)⟩
  · rw [hreplies, howed]
    exact h.atMost id
  · rw [hreplies, howed]

end Accounts

/-- A message of the core. The session takes an order for its own if it is. -/
theorem owed_process {link : Link} (hfilters : link.Filters) {next : Nat}
    (hplacing : link.Placing next) {iteration : SetOrder} {message : CoreMessage}
    {rest : List CoreMessage}
    (hnamed : ∀ execution, message.execution = some execution →
      ∀ id, id = (selfTradeKey execution).buyOrderId ∨ id = (selfTradeKey execution).sellOrderId →
        ((link.session.ledger.orders id).isSome = true ↔ id ∈ link.placed)) (id : OrderId) :
    (link.process iteration message rest).owed id =
      link.owed id + link.session.ledger.due message id := by
  have hplaced : (link.process iteration message rest).placed = link.placed := rfl
  rw [owed, owed, hplaced, Ledger.due]
  cases hexecution : message.execution with
  | none =>
    have hsame : (link.process iteration message rest).processed = link.processed := by
      rw [Link.processed_process, CoreMessage.key, hexecution]
      exact List.append_nil _
    have htaken : (link.process iteration message rest).taken = link.taken := by
      rw [Link.taken, hsame]
      rfl
    rw [htaken]
    rfl
  | some execution =>
    have hkey : message.key = some (selfTradeKey execution) := by
      rw [CoreMessage.key, hexecution]
      rfl
    have hboth : link.session.ledger.OwnsBoth execution ↔
        link.owns (selfTradeKey execution) = true := by
      rw [Link.owns_iff]
      exact and_congr (hnamed execution hexecution _ (.inl rfl))
        (hnamed execution hexecution _ (.inr rfl))
    simp only [shares_process hfilters hkey hboth]
    by_cases hid : id ∈ link.placed
    · rw [if_pos hid, if_pos hid]
      by_cases hnames : id = (selfTradeKey execution).buyOrderId ∨
          id = (selfTradeKey execution).sellOrderId
      · have hsome := (hnamed execution hexecution id hnames).mpr hid
        simp only [Option.isSome_iff_ne_none.mp hsome, or_false]
      · rw [SelfTradeKey.share_of_ne hnames, ite_self, ite_self]
    · have hnone : link.session.ledger.orders id = none := by
        by_contra hsome
        obtain ⟨order, horder⟩ := Option.ne_none_iff_exists'.mp hsome
        exact hid (hplacing.orders id order horder).1
      rw [if_neg hid, if_neg hid, if_pos (.inr hnone)]

/-- What was cut once is never made up for. -/
theorem Accounts.deliver {link : Link} {whole : Prop} (h : link.Accounts whole)
    (hfilters : link.Filters) {next : Nat} (hplacing : link.Placing next) {iteration : SetOrder}
    {message : CoreMessage} {rest : List CoreMessage}
    (hnamed : ∀ execution, message.execution = some execution →
      ∀ id, id = (selfTradeKey execution).buyOrderId ∨ id = (selfTradeKey execution).sellOrderId →
        ((link.session.ledger.orders id).isSome = true ↔ id ∈ link.placed)) :
    (link.process iteration message rest).Accounts
      (whole ∧ link.session.ledger.FillsWhole message) := by
  have hkeyed : ∀ id order, link.session.ledger.orders id = some order → order.numericOrderId = id :=
    fun id order horder => (hplacing.orders id order horder).2
  have hreported : ∀ id, reported id (link.process iteration message rest).replies =
      reported id link.replies + link.session.ledger.filled message id := by
    intro id
    have hreplies : (link.process iteration message rest).replies = link.replies ++
        (processCoreMessage iteration message link.session).2 := Answerable.replies_process ..
    rw [hreplies, reported_append, processCoreMessage_reported hkeyed]
  have howed := @owed_process link hfilters next hplacing iteration message rest hnamed
  have hfilled : ∀ id, link.session.ledger.filled message id ≤ link.session.ledger.due message id :=
    fun id => link.session.ledger.filled_le_due message id
  refine ⟨fun id => ?_, ?_⟩
  · rw [hreported, howed]
    exact Nat.add_le_add (h.atMost id) (hfilled id)
  · rw [h.exactly, Ledger.fillsWhole_iff, ← forall_and]
    refine forall_congr' fun id => ?_
    have hbefore := h.atMost id
    have hnow := hfilled id
    rw [hreported, howed]
    omega

end Link

end ExchangeLab

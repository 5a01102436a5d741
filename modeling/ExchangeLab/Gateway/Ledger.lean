import ExchangeLab.Gateway.Bridge

/-!
# ExchangeLab.Gateway.Ledger

What decides how a session treats the core's messages, with finite maps as functions and the set of
waiting orders as a set, so that nothing depends on how a library walks it.

* `Ledger.absorb`: a message of the core, on the ledger.
* `ledger_processCoreMessage`: the handlers of the gateway do that.
* `ClientEffect`, `processFixMessage_effect`: what a message of the client can do to a ledger.
-/

namespace ExchangeLab

open Wire Protocol Container ExchangeLab.Fix FixGateway FixBridge

@[ext]
structure Ledger where
  orders : OrderId → Option OrderState
  pending : OrderId → List PendingRequest
  awaiting : Set OrderId
  lastSelfTradeKey : Option SelfTradeKey
  duplicatesToIgnore : Nat

def SessionContext.ledger (session : SessionContext) : Ledger where
  orders := session.orders.lookup
  pending := session.pendingFor
  awaiting := {id | id ∈ session.nonRestingAwaitingBoundary}
  lastSelfTradeKey := session.lastSelfTradeKey
  duplicatesToIgnore := session.selfTradeDuplicateMessagesToIgnore

namespace OrderState

/-- An order that needs a book update to be over. -/
def NonResting (order : OrderState) : Prop :=
  order.orderType = .market ∨ order.timeInForce ≠ .goodTillCancel

def close (order : OrderState) : OrderState :=
  { order with leavesQuantity := 0, ordStatus := .canceled }

/-- A waiting order at a book update. -/
def reach (symbol : Symbol) (order : OrderState) : OrderState :=
  if order.symbol = symbol ∧ 0 < order.leavesQuantity then order.close else order

def replace (pending : PendingRequest) (order : OrderState) : OrderState :=
  { order with
    currentClOrdId := pending.clOrdId
    orderQuantity := pending.replacementTotalQuantity
    leavesQuantity := pending.replacementWorkingQuantity
    price := pending.replacementPrice
    ordStatus := if order.cumulativeQuantity = 0 then .new else .partiallyFilled }

end OrderState

namespace Ledger

def setOrder (id : OrderId) (order : OrderState) (l : Ledger) : Ledger :=
  { l with orders := Function.update l.orders id (some order) }

def setPending (id : OrderId) (pending : List PendingRequest) (l : Ledger) : Ledger :=
  { l with pending := Function.update l.pending id pending }

/-- A request that waits for its answer behind those of the same order. -/
def push (id : OrderId) (pending : PendingRequest) (l : Ledger) : Ledger :=
  l.setPending id (l.pending id ++ [pending])

/-- A response to the entry that was taken out, for an order that is there. -/
def answer (id : OrderId) (pending : PendingRequest) (success : Bool) (order : OrderState)
    (l : Ledger) : Ledger :=
  match pending.kind, success with
  | .new, true =>
    { l.setOrder id { order with ordStatus := .new } with
      awaiting := {i | i ∈ l.awaiting ∨ (order.NonResting ∧ i = order.numericOrderId)} }
  | .new, false => { l with orders := Function.update l.orders id none }
  | .cancel, true => l.setOrder id order.close
  | .replace, true => l.setOrder id (order.replace pending)
  | .cancel, false | .replace, false => l

def respond (id : OrderId) (success : Bool) (l : Ledger) : Ledger :=
  match l.pending id with
  | [] => l
  | pending :: rest =>
    match l.orders id with
    | none => l.setPending id rest
    | some order => (l.setPending id rest).answer id pending success order

/-- An absent order is not filled. -/
def fillAt (id : OrderId) (execution : TradeExecution) (l : Ledger) : Ledger :=
  { l with orders := Function.update l.orders id ((l.orders id).map (fillOrder execution)) }

def fill (execution : TradeExecution) (l : Ledger) : Ledger :=
  (l.fillAt execution.buyOrderId execution).fillAt execution.sellOrderId execution

/-- Both orders of the execution are the session's. -/
def OwnsBoth (execution : TradeExecution) (l : Ledger) : Prop :=
  (l.orders execution.buyOrderId).isSome = true ∧ (l.orders execution.sellOrderId).isSome = true

instance (execution : TradeExecution) (l : Ledger) : Decidable (l.OwnsBoth execution) :=
  inferInstanceAs (Decidable (_ ∧ _))

def trade (execution : TradeExecution) (l : Ledger) : Ledger :=
  if l.OwnsBoth execution then
    if l.duplicatesToIgnore > 0 ∧ l.lastSelfTradeKey = some (selfTradeKey execution) then
      { l with duplicatesToIgnore := l.duplicatesToIgnore - 1 }
    else
      { l.fill execution with
        lastSelfTradeKey := some (selfTradeKey execution)
        duplicatesToIgnore := 1 }
  else l.fill execution

/-- A waiting order of the symbol is over, and a waiting id is kept for another symbol only. -/
noncomputable def boundary (symbol : Symbol) (l : Ledger) : Ledger :=
  open scoped Classical in
  { l with
    orders := fun id =>
      if id ∈ l.awaiting then (l.orders id).map (OrderState.reach symbol) else l.orders id
    awaiting := {id | id ∈ l.awaiting ∧ ∃ order, l.orders id = some order ∧ order.symbol ≠ symbol} }

noncomputable def absorb (message : CoreMessage) (l : Ledger) : Ledger :=
  if isOrderResponse message.header.type then
    match decodeOrderResponse message.body with
    | none => l
    | some response =>
      l.respond response.orderId
        (response.success ≠ 0 ∧ message.header.type ≠ .orderRejected)
  else if message.header.type = .tradeExecution then
    match decodeTradeExecution message.body with
    | none => l
    | some execution => l.trade execution
  else if message.header.type = .bookUpdate then
    match decodeBookUpdate message.body with
    | none => l
    | some update => l.boundary update.symbol
  else l

end Ledger

/-! ## The core's messages -/

section Core

variable (session : SessionContext)

@[simp] theorem ledger_orders (id : OrderId) :
    session.ledger.orders id = session.orders.lookup id := rfl

@[simp] theorem ledger_pending (id : OrderId) :
    session.ledger.pending id = session.pendingFor id := rfl

theorem ledger_setOrder (id : OrderId) (order : OrderState) :
    (session.setOrder id order).ledger = session.ledger.setOrder id order := by
  ext1
  · funext i
    simp only [SessionContext.ledger, SessionContext.setOrder, lookup_insert_eq, Ledger.setOrder,
      Function.update_apply]
  all_goals rfl

theorem ledger_popFrontPending (id : OrderId) (rest : List PendingRequest) :
    (popFrontPending id rest session).ledger = session.ledger.setPending id rest := by
  ext1
  · rfl
  · funext i
    simp only [SessionContext.ledger, SessionContext.pendingFor, popFrontPending, Ledger.setPending,
      Function.update_apply]
    by_cases hrest : rest = []
    · rw [if_pos hrest, lookup_erase_eq]
      split
      · rw [hrest]
        rfl
      · rfl
    · rw [if_neg hrest, lookup_insert_eq]
      split <;> rfl
  all_goals rfl

theorem ledger_answerPending (id : OrderId) (pending : PendingRequest) (success : Bool)
    (order : OrderState) :
    (answerPending id pending success order session).1.ledger =
      session.ledger.answer id pending success order := by
  obtain ⟨kind, clOrdId, origClOrdId, total, working, price⟩ := pending
  cases kind with
  | new =>
    cases success with
    | true =>
      have horders := congrArg Ledger.orders
        (ledger_setOrder session id { order with ordStatus := .new })
      simp only [answerPending, Ledger.answer]
      split
      · rename_i hrest
        refine Ledger.ext horders rfl (Set.ext fun i => ?_) rfl rfl
        simp [SessionContext.ledger, SessionContext.setOrder, OrderState.NonResting, hrest, or_comm]
      · rename_i hrest
        refine Ledger.ext horders rfl (Set.ext fun i => ?_) rfl rfl
        simp [SessionContext.ledger, SessionContext.setOrder, OrderState.NonResting, hrest]
    | false =>
      refine Ledger.ext (funext fun i => ?_) rfl rfl rfl rfl
      simp only [answerPending, SessionContext.ledger, SessionContext.eraseOrder, lookup_erase_eq,
        Ledger.answer, Function.update_apply]
  | cancel =>
    cases success with
    | true => exact ledger_setOrder session id order.close
    | false => rfl
  | replace =>
    cases success with
    | true => exact ledger_setOrder session id (order.replace _)
    | false => rfl

theorem ledger_handleCoreOrderResponse (message : CoreMessage) :
    (handleCoreOrderResponse message session).1.ledger =
      match decodeOrderResponse message.body with
      | none => session.ledger
      | some response => session.ledger.respond response.orderId
          (response.success ≠ 0 ∧ message.header.type ≠ .orderRejected) := by
  unfold handleCoreOrderResponse
  cases decodeOrderResponse message.body with
  | none => rfl
  | some response =>
    simp only [Ledger.respond, ledger_pending, ledger_orders]
    cases session.pendingFor response.orderId with
    | nil => rfl
    | cons pending rest =>
      have horders : (popFrontPending response.orderId rest session).orders = session.orders := rfl
      simp only [horders]
      cases session.orders.lookup response.orderId with
      | none => exact ledger_popFrontPending session response.orderId rest
      | some order =>
        simp only
        rw [ledger_answerPending, ledger_popFrontPending]

theorem ledger_applyTradeToOrder {id : OrderId} (execution : TradeExecution) {order : OrderState}
    (h : session.orders.lookup id = some order) :
    (applyTradeToOrder id execution order session).1.ledger =
      session.ledger.fillAt id execution := by
  rw [applyTradeToOrder, ledger_setOrder, Ledger.fillAt, ledger_orders, h]
  rfl

theorem fillAt_absent {id : OrderId} (execution : TradeExecution) {l : Ledger}
    (h : l.orders id = none) : l.fillAt id execution = l := by
  rw [Ledger.fillAt, h, Option.map_none, ← h, Function.update_eq_self]

theorem isSome_fillAt (id i : OrderId) (execution : TradeExecution) (l : Ledger) :
    ((l.fillAt id execution).orders i).isSome = (l.orders i).isSome := by
  rw [Ledger.fillAt]
  simp only [Function.update_apply]
  split
  · rename_i h
    rw [h, Option.isSome_map]
  · rfl

theorem ledger_handleCoreTrade (message : CoreMessage) :
    (handleCoreTrade message session).1.ledger =
      match decodeTradeExecution message.body with
      | none => session.ledger
      | some execution => session.ledger.trade execution := by
  unfold handleCoreTrade
  cases decodeTradeExecution message.body with
  | none => rfl
  | some execution =>
    simp only
    cases hbuy : session.orders.lookup execution.buyOrderId with
    | none =>
      have hnot : ¬session.ledger.OwnsBoth execution := by simp [Ledger.OwnsBoth, hbuy]
      have hbuy' : session.ledger.fillAt execution.buyOrderId execution = session.ledger :=
        fillAt_absent execution hbuy
      rw [Ledger.trade, if_neg hnot, Ledger.fill, hbuy']
      cases hsell : session.orders.lookup execution.sellOrderId with
      | none => exact (fillAt_absent execution hsell).symm
      | some order => exact ledger_applyTradeToOrder session execution hsell
    | some order =>
      have hbought := ledger_applyTradeToOrder session execution hbuy
      cases hsell : session.orders.lookup execution.sellOrderId with
      | none =>
        have hnot : ¬session.ledger.OwnsBoth execution := by simp [Ledger.OwnsBoth, hsell]
        rw [Ledger.trade, if_neg hnot, Ledger.fill]
        refine hbought.trans (fillAt_absent execution ?_).symm
        rw [← Option.isNone_iff_eq_none, ← Option.not_isSome, isSome_fillAt, ledger_orders, hsell]
        rfl
      | some sellOrder =>
        have hboth : session.ledger.OwnsBoth execution := by simp [Ledger.OwnsBoth, hbuy, hsell]
        rw [Ledger.trade, if_pos hboth]
        simp only [handleSelfTrade, hbuy]
        split
        · rename_i hdup
          exact (if_pos hdup).symm
        · rename_i hdup
          refine Eq.trans ?_ (if_neg hdup).symm
          have hsome : ((session.ledger.fillAt execution.buyOrderId execution).orders
              execution.sellOrderId).isSome = true := by
            rw [isSome_fillAt, ledger_orders, hsell]
            rfl
          rw [← hbought] at hsome
          obtain ⟨sellOrder', hsell'⟩ := Option.isSome_iff_exists.mp hsome
          rw [ledger_orders] at hsell'
          have hsold := ledger_applyTradeToOrder _ execution hsell'
          rw [hbought] at hsold
          simp only [hsell']
          rw [Ledger.fill, ← hsold]
          rfl

end Core

/-! ## Book updates -/

section Boundary

variable (symbol : Symbol) (done : Boundaries) (id : OrderId) (ids : List OrderId)

/-- There is an order, and it waits on for another symbol. -/
def Elsewhere (symbol : Symbol) (order : Option OrderState) : Prop :=
  ∃ o, order = some o ∧ o.symbol ≠ symbol

/-- What the client is told of a waiting order at a book update. -/
def boundaryReplies (symbol : Symbol) (order : OrderState) : List Reply :=
  if order.symbol = symbol ∧ 0 < order.leavesQuantity then
    [executionReport order.close order.currentClOrdId .canceled .canceled none none none
      (some "non-resting remainder canceled")]
  else []

theorem finalizeOrder_lookup (i : OrderId) :
    (finalizeOrder symbol done id).orders.lookup i =
      if i = id then (done.orders.lookup id).map (OrderState.reach symbol)
      else done.orders.lookup i := by
  unfold finalizeOrder
  cases horder : done.orders.lookup id with
  | none =>
    dsimp only
    split
    · rename_i h
      rw [h, horder]
      rfl
    · rfl
  | some order =>
    dsimp only [Option.map_some]
    have hsame : done.orders.lookup i = if i = id then some order else done.orders.lookup i := by
      split
      · rename_i h
        rw [h, horder]
      · rfl
    by_cases hsymbol : order.symbol = symbol
    · rw [if_neg (not_not.mpr hsymbol)]
      by_cases hleaves : 0 < order.leavesQuantity
      · have hreach : order.reach symbol = order.close := if_pos ⟨hsymbol, hleaves⟩
        rw [if_pos hleaves, lookup_insert_eq, hreach]
        rfl
      · have hreach : order.reach symbol = order := if_neg (not_and_of_not_right _ hleaves)
        rw [if_neg hleaves, hreach]
        exact hsame
    · have hreach : order.reach symbol = order := if_neg (not_and_of_not_left _ hsymbol)
      rw [if_pos hsymbol, hreach]
      exact hsame

theorem finalizeOrder_replies :
    (finalizeOrder symbol done id).replies =
      done.replies ++ (done.orders.lookup id).toList.flatMap (boundaryReplies symbol) := by
  unfold finalizeOrder boundaryReplies
  cases done.orders.lookup id with
  | none => simp
  | some order =>
    by_cases hsymbol : order.symbol = symbol
    · by_cases hleaves : 0 < order.leavesQuantity
      · simp [hsymbol, hleaves, OrderState.close]
      · simp [hsymbol, hleaves]
    · simp [hsymbol]

theorem finalizeOrder_completed (i : OrderId) :
    i ∈ (finalizeOrder symbol done id).completed ↔
      i ∈ done.completed ∨ (i = id ∧ ¬Elsewhere symbol (done.orders.lookup id)) := by
  unfold finalizeOrder Elsewhere
  cases done.orders.lookup id with
  | none => simp
  | some order =>
    by_cases hsymbol : order.symbol = symbol
    · by_cases hleaves : 0 < order.leavesQuantity
      · simp [hsymbol, hleaves]
      · simp [hsymbol, hleaves]
    · simp [hsymbol]

/-- Each id of the list is treated as if it were the only one. -/
theorem foldl_finalizeOrder (hnodup : ids.Nodup) :
    let result := ids.foldl (finalizeOrder symbol) done
    (∀ i, result.orders.lookup i =
      if i ∈ ids then (done.orders.lookup i).map (OrderState.reach symbol)
      else done.orders.lookup i) ∧
    result.replies = done.replies ++
      ids.flatMap (fun i => (done.orders.lookup i).toList.flatMap (boundaryReplies symbol)) ∧
    ∀ i, i ∈ result.completed ↔
      i ∈ done.completed ∨ (i ∈ ids ∧ ¬Elsewhere symbol (done.orders.lookup i)) := by
  induction ids generalizing done with
  | nil => simp
  | cons id ids ih =>
    obtain ⟨hid, hnodup⟩ := List.nodup_cons.mp hnodup
    obtain ⟨horders, hreplies, hcompleted⟩ := ih (finalizeOrder symbol done id) hnodup
    have hother : ∀ i, i ≠ id →
        (finalizeOrder symbol done id).orders.lookup i = done.orders.lookup i := by
      intro i hi
      rw [finalizeOrder_lookup, if_neg hi]
    refine ⟨fun i => ?_, ?_, fun i => ?_⟩
    · rw [List.foldl_cons, horders]
      by_cases hi : i = id
      · rw [hi, if_neg hid, finalizeOrder_lookup, if_pos rfl, if_pos (.head _)]
      · simp only [hother i hi, List.mem_cons, hi, false_or]
    · rw [List.foldl_cons, hreplies, finalizeOrder_replies, List.flatMap_cons, List.append_assoc]
      congr 2
      refine List.flatMap_congr fun i hi => ?_
      rw [hother i (fun h => hid (h ▸ hi))]
    · rw [List.foldl_cons, hcompleted, finalizeOrder_completed, List.mem_cons]
      by_cases hi : i = id
      · subst hi
        simp [hid]
      · simp [hi, hother i hi]

end Boundary

section Core

variable (session : SessionContext)

theorem mem_enumerate (iteration : SetOrder) (ids : List OrderId) (i : OrderId) :
    i ∈ iteration.enumerate ids ↔ i ∈ ids := by
  rw [(iteration.perm ids).mem_iff, List.mem_dedup]

theorem enumerate_nodup (iteration : SetOrder) (ids : List OrderId) :
    (iteration.enumerate ids).Nodup :=
  (iteration.perm ids).nodup_iff.mpr (List.nodup_dedup ids)

theorem ledger_finalizeNonRestingOrders (iteration : SetOrder) (message : CoreMessage) :
    (finalizeNonRestingOrders iteration message session).1.ledger =
      match decodeBookUpdate message.body with
      | none => session.ledger
      | some update => session.ledger.boundary update.symbol := by
  unfold finalizeNonRestingOrders
  cases decodeBookUpdate message.body with
  | none => rfl
  | some update =>
    obtain ⟨horders, -, hcompleted⟩ := foldl_finalizeOrder update.symbol ⟨session.orders, [], []⟩
      (iteration.enumerate session.nonRestingAwaitingBoundary) (enumerate_nodup _ _)
    refine Ledger.ext (funext fun i => ?_) rfl (Set.ext fun i => ?_) rfl rfl
    · simp only [SessionContext.ledger, horders, mem_enumerate]
      split
      · rename_i hi
        exact (if_pos hi).symm
      · rename_i hi
        exact (if_neg hi).symm
    · simp only [SessionContext.ledger, Ledger.boundary, Set.mem_ofPred_eq, List.mem_filter,
        decide_eq_true_eq, hcompleted, mem_enumerate, List.not_mem_nil, false_or]
      refine and_congr_right fun hi => ?_
      simp [hi, Elsewhere]

theorem ledger_processCoreMessage (iteration : SetOrder) (message : CoreMessage) :
    (processCoreMessage iteration message session).1.ledger = session.ledger.absorb message := by
  unfold processCoreMessage Ledger.absorb
  split
  · exact ledger_handleCoreOrderResponse session message
  split
  · exact ledger_handleCoreTrade session message
  split
  · exact ledger_finalizeNonRestingOrders session iteration message
  · rfl

end Core

/-! ## Replies -/

def answerReply (pending : PendingRequest) (success : Bool) (order : OrderState) : Reply :=
  match pending.kind, success with
  | .new, true => executionReport { order with ordStatus := .new } pending.clOrdId .new .new
  | .new, false =>
    executionReport { order with leavesQuantity := 0, ordStatus := .rejected } pending.clOrdId
      .rejected .rejected none none none (some rejectionText)
  | .cancel, true =>
    executionReport order.close pending.clOrdId .canceled .canceled (some pending.origClOrdId)
  | .cancel, false =>
    cancelReject (some order) pending.clOrdId pending.origClOrdId .cancel
      "cancel rejected by ExchangeLab core"
  | .replace, true =>
    executionReport (order.replace pending) pending.clOrdId .replaced
      (order.replace pending).ordStatus (some pending.origClOrdId)
  | .replace, false =>
    cancelReject (some order) pending.clOrdId pending.origClOrdId .replace
      "replace rejected by ExchangeLab core or risk engine"

def fillReply (execution : TradeExecution) (order : OrderState) : Reply :=
  executionReport (fillOrder execution order) order.currentClOrdId .trade
    (fillOrder execution order).ordStatus none
    (some (min order.leavesQuantity execution.quantity.toNat)) (some execution.price)

namespace Ledger

def responseReplies (id : OrderId) (success : Bool) (l : Ledger) : List Reply :=
  match l.pending id with
  | [] => []
  | pending :: _ => (l.orders id).toList.map (answerReply pending success)

/-- The second copy of an execution between two orders of the session. -/
def IsDuplicate (execution : TradeExecution) (l : Ledger) : Prop :=
  l.OwnsBoth execution ∧ l.duplicatesToIgnore > 0 ∧
    l.lastSelfTradeKey = some (selfTradeKey execution)

instance (execution : TradeExecution) (l : Ledger) : Decidable (l.IsDuplicate execution) :=
  inferInstanceAs (Decidable (_ ∧ _))

def tradeReplies (execution : TradeExecution) (l : Ledger) : List Reply :=
  if l.IsDuplicate execution then []
  else
    (l.orders execution.buyOrderId).toList.map (fillReply execution) ++
      ((l.fillAt execution.buyOrderId execution).orders execution.sellOrderId).toList.map
        (fillReply execution)

end Ledger

section Core

variable (session : SessionContext)

theorem answerPending_replies (id : OrderId) (pending : PendingRequest) (success : Bool)
    (order : OrderState) :
    (answerPending id pending success order session).2 = [answerReply pending success order] := by
  obtain ⟨kind, clOrdId, origClOrdId, total, working, price⟩ := pending
  cases kind <;> cases success <;> rfl

theorem handleCoreOrderResponse_replies (message : CoreMessage) :
    (handleCoreOrderResponse message session).2 =
      match decodeOrderResponse message.body with
      | none => []
      | some response => session.ledger.responseReplies response.orderId
          (response.success ≠ 0 ∧ message.header.type ≠ .orderRejected) := by
  unfold handleCoreOrderResponse
  cases decodeOrderResponse message.body with
  | none => rfl
  | some response =>
    simp only [Ledger.responseReplies, ledger_pending, ledger_orders]
    cases session.pendingFor response.orderId with
    | nil => rfl
    | cons pending rest =>
      have horders : (popFrontPending response.orderId rest session).orders = session.orders := rfl
      simp only [horders]
      cases session.orders.lookup response.orderId with
      | none => rfl
      | some order => exact answerPending_replies _ _ _ _ _

theorem handleCoreTrade_replies (message : CoreMessage) :
    (handleCoreTrade message session).2 =
      match decodeTradeExecution message.body with
      | none => []
      | some execution => session.ledger.tradeReplies execution := by
  unfold handleCoreTrade
  cases decodeTradeExecution message.body with
  | none => rfl
  | some execution =>
    simp only
    cases hbuy : session.orders.lookup execution.buyOrderId with
    | none =>
      have hnot : ¬session.ledger.IsDuplicate execution := by
        simp [Ledger.IsDuplicate, Ledger.OwnsBoth, hbuy]
      have hbuy' : session.ledger.fillAt execution.buyOrderId execution = session.ledger :=
        fillAt_absent execution hbuy
      rw [Ledger.tradeReplies, if_neg hnot, hbuy', ledger_orders, ledger_orders, hbuy]
      cases hsell : session.orders.lookup execution.sellOrderId with
      | none => rfl
      | some order => rfl
    | some order =>
      have hbought := ledger_applyTradeToOrder session execution hbuy
      cases hsell : session.orders.lookup execution.sellOrderId with
      | none =>
        have hnot : ¬session.ledger.IsDuplicate execution := by
          simp [Ledger.IsDuplicate, Ledger.OwnsBoth, hsell]
        have hsell' : (session.ledger.fillAt execution.buyOrderId execution).orders
            execution.sellOrderId = none := by
          rw [← Option.isNone_iff_eq_none, ← Option.not_isSome, isSome_fillAt, ledger_orders, hsell]
          rfl
        rw [Ledger.tradeReplies, if_neg hnot, ledger_orders, hbuy, hsell']
        rfl
      | some sellOrder =>
        have hboth : session.ledger.OwnsBoth execution := by simp [Ledger.OwnsBoth, hbuy, hsell]
        simp only [handleSelfTrade, hbuy]
        split
        · rename_i hdup
          exact (if_pos ⟨hboth, hdup⟩).symm
        · rename_i hdup
          have hsome : ((session.ledger.fillAt execution.buyOrderId execution).orders
              execution.sellOrderId).isSome = true := by
            rw [isSome_fillAt, ledger_orders, hsell]
            rfl
          obtain ⟨sellOrder', hsell'⟩ := Option.isSome_iff_exists.mp hsome
          rw [Ledger.tradeReplies, if_neg (fun h => hdup h.2), ledger_orders, hbuy, hsell']
          rw [← hbought, ledger_orders] at hsell'
          simp only [hsell']
          rfl

theorem finalizeNonRestingOrders_replies (iteration : SetOrder) (message : CoreMessage) :
    (finalizeNonRestingOrders iteration message session).2 =
      match decodeBookUpdate message.body with
      | none => []
      | some update => (iteration.enumerate session.nonRestingAwaitingBoundary).flatMap fun id =>
          (session.ledger.orders id).toList.flatMap (boundaryReplies update.symbol) := by
  unfold finalizeNonRestingOrders
  cases decodeBookUpdate message.body with
  | none => rfl
  | some update =>
    exact (foldl_finalizeOrder update.symbol ⟨session.orders, [], []⟩ _ (enumerate_nodup _ _)).2.1

end Core

end ExchangeLab

import ExchangeLab.Gateway.Ledger

/-!
# ExchangeLab.Gateway.Clients

What one message of a client can do to its session: nothing that the core's messages depend on, or
one request to the core with the entry that waits for its answer.

* `ClientEffect`: the possible effects, each with what was checked before it.
* `processFixMessage_effect`: they are all there are.
-/

namespace ExchangeLab

open Wire Protocol Container ExchangeLab.Fix FixGateway FixBridge

namespace Ledger

/-- `emplace` of a new order. -/
def place (id : OrderId) (order : OrderState) (l : Ledger) : Ledger :=
  { l with orders := Function.update l.orders id (some ((l.orders id).getD order)) }

def eraseOrder (id : OrderId) (l : Ledger) : Ledger :=
  { l with orders := Function.update l.orders id none }

theorem place_absent {id : OrderId} {l : Ledger} (order : OrderState) (h : l.orders id = none) :
    l.place id order = l.setOrder id order := by
  rw [place, h]
  rfl

theorem eraseOrder_place (id : OrderId) (order : OrderState) (l : Ledger) :
    (l.place id order).eraseOrder id = l.eraseOrder id := by
  rw [eraseOrder, place, Function.update_idem, eraseOrder]

end Ledger

/-- The order a new-order message starts. -/
def FixBridge.NewOrderTranslation.order (translated : NewOrderTranslation) : OrderState where
  numericOrderId := translated.request.orderId
  symbol := translated.request.symbol
  side := translated.request.side
  orderType := translated.request.orderType
  timeInForce := translated.request.timeInForce
  currentClOrdId := translated.clOrdId
  orderQuantity := translated.request.quantity.toNat
  leavesQuantity := translated.request.quantity.toNat
  price := translated.request.price

/-- The entry of a replace that was sent when `order` was what the session knew. -/
def replaceEntry (clOrdId origClOrdId : Bytes) (total : UInt64) (price : Price)
    (order : OrderState) : PendingRequest where
  kind := .replace
  clOrdId := clOrdId
  origClOrdId := origClOrdId
  replacementTotalQuantity := total.toNat
  replacementWorkingQuantity := total.toNat - order.cumulativeQuantity
  replacementPrice := price

inductive ClientEffect (surroundings : Surroundings) (next : Nat) (message : Message)
    (session : SessionContext) : Effects → Prop
  | kept {session' : SessionContext} {next' : Nat} {replies : List Reply}
      (hledger : session'.ledger = session.ledger)
      (hused : session.usedClOrdIds ⊆ session'.usedClOrdIds) (hnext : next ≤ next') :
      ClientEffect surroundings next message session ⟨session', next', none, replies⟩
  | unsent {session' : SessionContext} {replies : List Reply}
      (hsends : surroundings.coreSends = false)
      (hledger : session'.ledger = session.ledger.eraseOrder (UInt64.ofNat next))
      (hused : session.usedClOrdIds ⊆ session'.usedClOrdIds) :
      ClientEffect surroundings next message session ⟨session', next + 1, none, replies⟩
  | placed {session' : SessionContext} {translated : NewOrderTranslation}
      (htranslated : translateNewOrderSingle message (UInt64.ofNat next) surroundings.now =
        .ok translated)
      (hfresh : translated.clOrdId ∉ session.usedClOrdIds)
      (hused : session'.usedClOrdIds = translated.clOrdId :: session.usedClOrdIds)
      (hledger : session'.ledger =
        (session.ledger.place translated.request.orderId translated.order).push
          translated.request.orderId { clOrdId := translated.clOrdId }) :
      ClientEffect surroundings next message session ⟨session', next + 1,
        some ⟨.newOrder translated.request, session.nextCoreSequence,
          { clOrdId := translated.clOrdId }⟩, []⟩
  | cancelled {session' : SessionContext} {clOrdId origClOrdId : Bytes} {id : OrderId}
      {order : OrderState} (hfound : session.ledger.orders id = some order)
      (hleaves : order.leavesQuantity ≠ 0) (hfresh : clOrdId ∉ session.usedClOrdIds)
      (hused : session'.usedClOrdIds = clOrdId :: session.usedClOrdIds)
      (hledger : session'.ledger = session.ledger.push id
        { kind := .cancel, clOrdId := clOrdId, origClOrdId := origClOrdId }) :
      ClientEffect surroundings next message session ⟨session', next,
        some ⟨.cancelOrder ⟨id, surroundings.now, order.symbol⟩, session.nextCoreSequence,
          { kind := .cancel, clOrdId := clOrdId, origClOrdId := origClOrdId }⟩, []⟩
  | replaced {session' : SessionContext} {clOrdId origClOrdId : Bytes} {id : OrderId}
      {order : OrderState} {total : UInt64} {price : Price}
      (hfound : session.ledger.orders id = some order) (hleaves : order.leavesQuantity ≠ 0)
      (hlimit : order.orderType = .limit) (htotal : total ≤ 4294967295)
      (hmore : order.cumulativeQuantity < total.toNat) (hprice : 0 < price)
      (hfresh : clOrdId ∉ session.usedClOrdIds)
      (hused : session'.usedClOrdIds = clOrdId :: session.usedClOrdIds)
      (hledger : session'.ledger = session.ledger.push order.numericOrderId
        (replaceEntry clOrdId origClOrdId total price order)) :
      ClientEffect surroundings next message session ⟨session', next,
        some ⟨.replaceOrder ⟨order.numericOrderId, surroundings.now, price,
          UInt64.ofNat (total.toNat - order.cumulativeQuantity), order.symbol⟩,
          session.nextCoreSequence, replaceEntry clOrdId origClOrdId total price order⟩, []⟩

theorem ClientEffect.next_le {surroundings : Surroundings} {next : Nat} {message : Message}
    {session : SessionContext} {effects : Effects}
    (h : ClientEffect surroundings next message session effects) :
    next ≤ effects.nextNumericOrderId := by
  cases h with
  | kept _ _ hnext => exact hnext
  | unsent | placed => exact Nat.le_succ next
  | cancelled | replaced => exact Nat.le_refl next

section Effects

variable {config : FixGatewayConfig} {surroundings : Surroundings} {next : Nat} {message : Message}
  {session session₁ : SessionContext}

theorem ClientEffect.congr {effects : Effects}
    (h : ClientEffect surroundings next message session₁ effects)
    (hledger : session₁.ledger = session.ledger)
    (hused : session₁.usedClOrdIds = session.usedClOrdIds)
    (hcore : session₁.nextCoreSequence = session.nextCoreSequence) :
    ClientEffect surroundings next message session effects := by
  cases h with
  | kept h1 h2 h3 => exact .kept (h1.trans hledger) (hused ▸ h2) h3
  | unsent h1 h2 h3 => exact .unsent h1 (hledger ▸ h2) (hused ▸ h3)
  | placed h1 h2 h3 h4 =>
    rw [hcore]
    exact .placed h1 (hused ▸ h2) (hused ▸ h3) (hledger ▸ h4)
  | cancelled h1 h2 h3 h4 h5 =>
    rw [hcore]
    exact .cancelled (hledger ▸ h1) h2 (hused ▸ h3) (hused ▸ h4) (hledger ▸ h5)
  | replaced h1 h2 h3 h4 h5 h6 h7 h8 h9 =>
    rw [hcore]
    exact .replaced (hledger ▸ h1) h2 h3 h4 h5 h6 (hused ▸ h7) (hused ▸ h8) (hledger ▸ h9)

/-! ## Pushing -/

variable (session)

theorem ledger_pushPending (id : OrderId) (pending : PendingRequest) :
    (session.pushPending id pending).ledger = session.ledger.push id pending := by
  refine Ledger.ext rfl (funext fun i => ?_) rfl rfl rfl
  simp only [SessionContext.ledger, SessionContext.pendingFor, SessionContext.pushPending,
    lookup_insert_eq, Ledger.push, Ledger.setPending, Function.update_apply]
  split <;> rfl

theorem ledger_sendCoreRequest (core : CoreRequest) (pending : PendingRequest) :
    (sendCoreRequest core pending session).1.ledger = session.ledger.push core.orderId pending :=
  ledger_pushPending session core.orderId pending

/-- An entry that is taken back leaves the queue as it was. -/
theorem ledger_popBackPending (core : CoreRequest) (pending : PendingRequest) :
    ((sendCoreRequest core pending session).1.popBackPending core.orderId).ledger =
      session.ledger := by
  refine Ledger.ext rfl (funext fun i => ?_) rfl rfl rfl
  simp only [SessionContext.ledger, SessionContext.pendingFor, SessionContext.popBackPending,
    sendCoreRequest, SessionContext.pushPending, lookup_insert_eq]
  split
  · rename_i h
    subst h
    simp
  · rfl

theorem ledger_addOrder (order : OrderState) :
    (session.addOrder order).ledger = session.ledger.place order.numericOrderId order := by
  refine Ledger.ext (funext fun i => ?_) rfl rfl rfl rfl
  simp only [SessionContext.ledger, SessionContext.addOrder, lookup_emplace_eq, Ledger.place,
    Function.update_apply]

theorem ledger_eraseOrder (id : OrderId) (clOrdId : Bytes) :
    (session.eraseOrder id clOrdId).ledger = session.ledger.eraseOrder id := by
  refine Ledger.ext (funext fun i => ?_) rfl rfl rfl rfl
  simp only [SessionContext.ledger, SessionContext.eraseOrder, lookup_erase_eq, Ledger.eraseOrder,
    Function.update_apply]

end Effects

/-! ## Translation -/

section Translation

variable {message : Message}

theorem ok_of_bind {α β : Type} {x : Except String α} {f : α → Except String β} {b : β}
    (h : (x >>= f) = .ok b) : ∃ a, x = .ok a ∧ f a = .ok b := by
  cases x with
  | error error => cases h
  | ok a => exact ⟨a, rfl, h⟩

theorem orError_ok {α : Type} {error : String} {x : Option α} {a : α}
    (h : orError error x = .ok a) : x = some a := by
  cases x with
  | none => cases h
  | some b =>
    cases h
    rfl

theorem requiredField_ok {tag : Int32} {value : Bytes} (h : requiredField tag message = .ok value) :
    message.get tag = some value ∧ value ≠ [] := by
  unfold requiredField at h
  split at h
  · cases h
  rename_i found hget
  split at h
  · cases h
  · rename_i hne
    cases h
    exact ⟨hget, hne⟩

theorem parseQuantity_some {value : Bytes} {quantity : UInt64}
    (h : parseQuantity value = some quantity) : quantity ≠ 0 ∧ quantity ≤ 4294967295 := by
  obtain ⟨-, hp⟩ := Option.filter_eq_some_iff.mp h
  simpa using hp

theorem parsePrice_some {value : Bytes} {price : Price} (h : parsePrice value = some price) :
    0 < price := by
  obtain ⟨-, hp⟩ := Option.filter_eq_some_iff.mp h
  simpa using hp

/-- What a translated order satisfies. -/
structure Translates (message : Message) (id timestamp : UInt64) (translated : NewOrderTranslation) :
    Prop where
  clOrdId : message.get 11 = some translated.clOrdId
  orderId : translated.request.orderId = id
  timestamp : translated.request.timestamp = timestamp
  symbol : isValidSymbol translated.request.symbol = true
  quantity : translated.request.quantity ≠ 0 ∧ translated.request.quantity ≤ 4294967295
  side : translated.request.side = .buy ∨ translated.request.side = .sell
  orderType : (translated.request.orderType = .limit ∧ 0 < translated.request.price) ∨
    (translated.request.orderType = .market ∧ translated.request.price = 0 ∧
      translated.request.timeInForce ≠ .goodTillCancel)
  timeInForce : translated.request.timeInForce = .goodTillCancel ∨
    translated.request.timeInForce = .immediateOrCancel ∨
    translated.request.timeInForce = .fillOrKill

theorem translateSide_some {value : Bytes} {side : Protocol.Side}
    (h : translateSide value = some side) : side = .buy ∨ side = .sell := by
  unfold translateSide at h
  split at h
  · cases h
    exact .inl rfl
  split at h
  · cases h
    exact .inr rfl
  · cases h

theorem translateOrderType_some {value : Bytes} {orderType : Protocol.OrderType}
    (h : translateOrderType value = some orderType) :
    orderType = .market ∨ orderType = .limit := by
  unfold translateOrderType at h
  split at h
  · cases h
    exact .inl rfl
  split at h
  · cases h
    exact .inr rfl
  · cases h

theorem translateTimeInForce_some {value : Bytes} {timeInForce : Protocol.TimeInForce}
    (h : translateTimeInForce value = some timeInForce) :
    timeInForce = .goodTillCancel ∨ timeInForce = .immediateOrCancel ∨ timeInForce = .fillOrKill := by
  unfold translateTimeInForce at h
  split at h
  · cases h
    exact .inl rfl
  split at h
  · cases h
    exact .inr (.inl rfl)
  split at h
  · cases h
    exact .inr (.inr rfl)
  · cases h

/-- What each part of a translated order was read from. -/
structure ReadFrom (message : Message) (id timestamp : UInt64) (translated : NewOrderTranslation) :
    Prop where
  clOrdId : message.get 11 = some translated.clOrdId
  orderId : translated.request.orderId = id
  timestamp : translated.request.timestamp = timestamp
  symbol : ∃ value, message.get 55 = some value ∧ translated.request.symbol = makeSymbol value ∧
    isValidSymbol (makeSymbol value) = true
  side : ∃ value, message.get 54 = some value ∧ translateSide value = some translated.request.side
  quantity : ∃ value, message.get 38 = some value ∧
    parseQuantity value = some translated.request.quantity
  orderType : ∃ value, message.get 40 = some value ∧
    translateOrderType value = some translated.request.orderType
  price : translatePrice translated.request.orderType message = .ok translated.request.price
  timeInForce : chooseTimeInForce translated.request.orderType message =
    .ok translated.request.timeInForce

theorem translateNewOrderSingle_readFrom {id timestamp : UInt64} {translated : NewOrderTranslation}
    (h : translateNewOrderSingle message id timestamp = .ok translated) :
    ReadFrom message id timestamp translated := by
  unfold translateNewOrderSingle at h
  obtain ⟨orderTypeText, horderTypeText, h⟩ := ok_of_bind h
  obtain ⟨quantityText, hquantityText, h⟩ := ok_of_bind h
  obtain ⟨sideText, hsideText, h⟩ := ok_of_bind h
  obtain ⟨symbolText, hsymbolText, h⟩ := ok_of_bind h
  obtain ⟨clOrdId, hclOrdId, h⟩ := ok_of_bind h
  obtain ⟨symbol, hsymbol, h⟩ := ok_of_bind h
  obtain ⟨side, hside, h⟩ := ok_of_bind h
  obtain ⟨orderType, htype, h⟩ := ok_of_bind h
  obtain ⟨quantity, hquantity, h⟩ := ok_of_bind h
  obtain ⟨price, hprice, h⟩ := ok_of_bind h
  obtain ⟨timeInForce, htif, h⟩ := ok_of_bind h
  have hvalid : symbol = makeSymbol symbolText ∧ isValidSymbol (makeSymbol symbolText) = true := by
    have hsome := orError_ok hsymbol
    split at hsome
    · rename_i hv
      cases hsome
      exact ⟨rfl, hv⟩
    · cases hsome
  cases h
  exact ⟨(requiredField_ok hclOrdId).1, rfl, rfl, ⟨_, (requiredField_ok hsymbolText).1, hvalid⟩,
    ⟨_, (requiredField_ok hsideText).1, orError_ok hside⟩,
    ⟨_, (requiredField_ok hquantityText).1, orError_ok hquantity⟩,
    ⟨_, (requiredField_ok horderTypeText).1, orError_ok htype⟩, hprice, htif⟩

/-- A time in force is the one of tag 59 or the default, unless it cannot be that of the order. -/
theorem chooseTimeInForce_ok {orderType : Protocol.OrderType} {timeInForce : Protocol.TimeInForce}
    (h : chooseTimeInForce orderType message = .ok timeInForce) : ∃ given,
    ((message.get 59 = none ∧
        given = if orderType = .market then .immediateOrCancel else .goodTillCancel) ∨
      ∃ value, message.get 59 = some value ∧ translateTimeInForce value = some given) ∧
    (given = .goodTillCancel ∨ given = .immediateOrCancel ∨ given = .fillOrKill) ∧
    timeInForce = if orderType = .market ∧ given = .goodTillCancel then .immediateOrCancel
      else given := by
  obtain ⟨given, hgiven, hchosen⟩ := ok_of_bind h
  cases hchosen
  cases hget : message.get 59 with
  | none =>
    rw [hget] at hgiven
    cases hgiven
    refine ⟨_, .inl ⟨rfl, rfl⟩, ?_, rfl⟩
    split
    · exact .inr (.inl rfl)
    · exact .inl rfl
  | some value =>
    rw [hget] at hgiven
    have hvalue := orError_ok hgiven
    exact ⟨given, .inr ⟨value, rfl, hvalue⟩, translateTimeInForce_some hvalue, rfl⟩

theorem translateNewOrderSingle_ok {id timestamp : UInt64} {translated : NewOrderTranslation}
    (h : translateNewOrderSingle message id timestamp = .ok translated) :
    Translates message id timestamp translated := by
  obtain ⟨hclOrdId, horderId, htimestamp, ⟨symbolText, -, hsymbol, hvalid⟩, ⟨sideText, -, hside⟩,
    ⟨quantityText, -, hquantity⟩, ⟨typeText, -, htype⟩, hprice, htif⟩ :=
      translateNewOrderSingle_readFrom h
  obtain ⟨given, -, hknown, hchosen⟩ := chooseTimeInForce_ok htif
  refine ⟨hclOrdId, horderId, htimestamp, hsymbol ▸ hvalid, parseQuantity_some hquantity,
    translateSide_some hside, ?_, ?_⟩
  · rcases translateOrderType_some htype with hmarket | hlimit
    · rw [hmarket] at hprice hchosen
      refine .inr ⟨hmarket, ?_, ?_⟩
      · have hnone : Except.ok 0 = Except.ok translated.request.price := hprice
        exact (Except.ok.inj hnone).symm
      · rw [hchosen]
        split
        · decide
        · rename_i hne
          exact fun heq => hne ⟨rfl, heq⟩
    · rw [hlimit] at hprice
      refine .inl ⟨hlimit, ?_⟩
      obtain ⟨priceText, -, hprice⟩ := ok_of_bind hprice
      exact parsePrice_some (orError_ok hprice)
  · rw [hchosen]
    split
    · exact .inr (.inl rfl)
    · exact hknown

end Translation

/-! ## Handlers -/

section Handlers

variable {config : FixGatewayConfig} {surroundings : Surroundings} {next : Nat} {message : Message}
  {session : SessionContext}

theorem handleNewOrder_effect :
    ClientEffect surroundings next message session
      (handleNewOrder surroundings next message session) := by
  unfold handleNewOrder
  dsimp only
  split
  · exact .kept rfl (List.Subset.refl _) (Nat.le_refl _)
  rename_i hunused
  generalize hdef : (message.get 11).elim session (fun clOrdId => session.useClOrdId clOrdId) =
    session₁
  have hledger : session₁.ledger = session.ledger := by
    rw [← hdef]
    cases message.get 11 <;> rfl
  have hsubset : session.usedClOrdIds ⊆ session₁.usedClOrdIds := by
    rw [← hdef]
    cases message.get 11 with
    | none => exact List.Subset.refl _
    | some clOrdId => exact List.subset_cons_self _ _
  split
  · exact .kept hledger hsubset (Nat.le_succ _)
  rename_i translated htranslated
  have hspec := translateNewOrderSingle_ok htranslated
  have hsession : session₁ = session.useClOrdId translated.clOrdId := by
    rw [← hdef, hspec.clOrdId]
    rfl
  have horder : translated.order =
      { numericOrderId := UInt64.ofNat next
        symbol := translated.request.symbol
        side := translated.request.side
        orderType := translated.request.orderType
        timeInForce := translated.request.timeInForce
        currentClOrdId := translated.clOrdId
        orderQuantity := translated.request.quantity.toNat
        leavesQuantity := translated.request.quantity.toNat
        price := translated.request.price } := by
    rw [NewOrderTranslation.order, hspec.orderId]
  have hplaced : (session₁.addOrder translated.order).ledger =
      session.ledger.place translated.request.orderId translated.order := by
    rw [ledger_addOrder, hledger]
    rfl
  have hcore : (CoreRequest.newOrder translated.request).orderId = UInt64.ofNat next := hspec.orderId
  have hsent : (sendCoreRequest (.newOrder translated.request) { clOrdId := translated.clOrdId }
      (session₁.addOrder translated.order)).2 = ⟨.newOrder translated.request,
        session.nextCoreSequence, { clOrdId := translated.clOrdId }⟩ := by
    rw [hsession]
    rfl
  rw [← horder, ← hcore]
  split
  · rw [hsent]
    refine .placed htranslated (by simpa [hspec.clOrdId] using hunused) ?_ ?_
    · show (session₁.addOrder translated.order).usedClOrdIds = _
      rw [hsession]
      rfl
    · exact (ledger_sendCoreRequest _ _ _).trans (congrArg _ hplaced)
  · rename_i hsends
    have hunsent : surroundings.coreSends = false := Bool.eq_false_iff.mpr hsends
    refine .unsent hunsent ?_ ?_
    · rw [ledger_eraseOrder, ledger_popBackPending]
      refine (congrArg _ hplaced).trans ?_
      rw [hcore, hspec.orderId, Ledger.eraseOrder_place]
    · exact hsubset

/-- A cancel or a replace names a working order, or it changes nothing but the ids in use. -/
theorem findWorkingOrder_cases (kind : PendingKind) (message : Message)
    (session : SessionContext) :
    (∃ session' reply, findWorkingOrder kind message session = (session', .error reply) ∧
      session'.ledger = session.ledger ∧ session.usedClOrdIds ⊆ session'.usedClOrdIds) ∨
    ∃ clOrdId origClOrdId id order,
      findWorkingOrder kind message session =
        (session.useClOrdId clOrdId, .ok (clOrdId, origClOrdId, id, order)) ∧
      clOrdId ∉ session.usedClOrdIds ∧ session.ledger.orders id = some order ∧
      order.leavesQuantity ≠ 0 := by
  unfold findWorkingOrder
  dsimp only
  split
  · exact .inl ⟨_, _, rfl, rfl, List.Subset.refl _⟩
  rename_i clOrdId origClOrdId _
  split
  · exact .inl ⟨_, _, rfl, rfl, List.Subset.refl _⟩
  rename_i hfresh
  have hsubset : session.usedClOrdIds ⊆ (session.useClOrdId clOrdId).usedClOrdIds :=
    List.subset_cons_self _ _
  split
  · exact .inl ⟨_, _, rfl, rfl, hsubset⟩
  rename_i id _
  split
  · exact .inl ⟨_, _, rfl, rfl, hsubset⟩
  rename_i order horder
  split
  · exact .inl ⟨_, _, rfl, rfl, hsubset⟩
  · rename_i hleaves
    exact .inr ⟨clOrdId, origClOrdId, id, order, rfl, hfresh, horder, hleaves⟩

/-- The entry stays exactly when the request was sent. -/
theorem forward_cases (surroundings : Surroundings) (next : Nat) (core : CoreRequest)
    (pending : PendingRequest) (order : OrderState) (session : SessionContext) :
    (∃ session', forward surroundings next core pending order session =
        ⟨session', next, some ⟨core, session.nextCoreSequence, pending⟩, []⟩ ∧
      session'.ledger = session.ledger.push core.orderId pending ∧
      session'.usedClOrdIds = session.usedClOrdIds) ∨
    ∃ session' reply, forward surroundings next core pending order session =
        ⟨session', next, none, [reply]⟩ ∧
      session'.ledger = session.ledger ∧ session'.usedClOrdIds = session.usedClOrdIds := by
  unfold forward
  dsimp only
  split
  · exact .inl ⟨_, rfl, ledger_sendCoreRequest session core pending, rfl⟩
  · exact .inr ⟨_, _, rfl, ledger_popBackPending session core pending, rfl⟩

theorem handleCancel_effect :
    ClientEffect surroundings next message session
      (handleCancel surroundings next message session) := by
  unfold handleCancel
  rcases findWorkingOrder_cases .cancel message session with
    ⟨session', reply, heq, hledger, hused⟩ |
    ⟨clOrdId, origClOrdId, id, order, heq, hfresh, hfound, hleaves⟩
  · rw [heq]
    exact .kept hledger hused (Nat.le_refl _)
  rw [heq]
  dsimp only
  rcases forward_cases surroundings next (.cancelOrder ⟨id, surroundings.now, order.symbol⟩)
      { kind := .cancel, clOrdId := clOrdId, origClOrdId := origClOrdId } order
      (session.useClOrdId clOrdId) with
    ⟨session', heq, hledger, hused⟩ | ⟨session', reply, heq, hledger, hused⟩
  · rw [heq]
    exact .cancelled hfound hleaves hfresh hused hledger
  · rw [heq]
    exact .kept hledger (by rw [hused]; exact List.subset_cons_self _ _) (Nat.le_refl _)

theorem replacementOf_ok {order : OrderState} {total : UInt64} {price : Price}
    (h : replacementOf message order = .ok (total, price)) :
    order.orderType = .limit ∧ total ≤ 4294967295 ∧ order.cumulativeQuantity < total.toNat ∧
      0 < price := by
  unfold replacementOf at h
  obtain ⟨priceText, -, h⟩ := ok_of_bind h
  obtain ⟨quantityText, -, h⟩ := ok_of_bind h
  obtain ⟨symbol, -, h⟩ := ok_of_bind h
  split at h
  · cases h
  split at h
  · cases h
  rename_i hlimit
  obtain ⟨total', htotal, h⟩ := ok_of_bind h
  obtain ⟨price', hprice, h⟩ := ok_of_bind h
  split at h
  · cases h
  rename_i hmore
  split at h
  · cases h
  cases h
  exact ⟨not_not.mp hlimit, (parseQuantity_some (orError_ok htotal)).2, Nat.not_le.mp hmore,
    parsePrice_some (orError_ok hprice)⟩

theorem handleReplace_effect :
    ClientEffect surroundings next message session
      (handleReplace surroundings next message session) := by
  unfold handleReplace
  rcases findWorkingOrder_cases .replace message session with
    ⟨session', reply, heq, hledger, hused⟩ |
    ⟨clOrdId, origClOrdId, id, order, heq, hfresh, hfound, hleaves⟩
  · rw [heq]
    exact .kept hledger hused (Nat.le_refl _)
  rw [heq]
  dsimp only
  split
  · exact .kept rfl (List.subset_cons_self _ _) (Nat.le_refl _)
  rename_i total price hreplacement
  obtain ⟨hlimit, htotal, hmore, hprice⟩ := replacementOf_ok hreplacement
  rcases forward_cases surroundings next
      (.replaceOrder ⟨order.numericOrderId, surroundings.now, price,
        UInt64.ofNat (total.toNat - order.cumulativeQuantity), order.symbol⟩)
      (replaceEntry clOrdId origClOrdId total price order) order
      (session.useClOrdId clOrdId) with
    ⟨session', heq, hledger, hused⟩ | ⟨session', reply, heq, hledger, hused⟩
  · rw [replaceEntry] at heq
    rw [heq]
    exact .replaced hfound hleaves hlimit htotal hmore hprice hfresh hused hledger
  · rw [replaceEntry] at heq
    rw [heq]
    exact .kept hledger (by rw [hused]; exact List.subset_cons_self _ _) (Nat.le_refl _)

theorem handleLogon_effect (reject : String → Reply) :
    ClientEffect surroundings next message session
      (handleLogon surroundings next reject message session) := by
  have hkept : ∀ session' replies, session'.ledger = session.ledger →
      session'.usedClOrdIds = session.usedClOrdIds →
      ClientEffect surroundings next message session ⟨session', next, none, replies⟩ :=
    fun session' replies hledger hused =>
      .kept hledger (by rw [hused]; exact List.Subset.refl _) (Nat.le_refl _)
  unfold handleLogon
  split
  · exact hkept _ _ rfl rfl
  split
  · split
    · exact hkept _ _ rfl rfl
    split
    · exact hkept _ _ rfl rfl
    dsimp only
    split
    · exact hkept _ _ rfl rfl
    · exact hkept _ _ rfl rfl
  · exact hkept _ _ rfl rfl

theorem processFixMessage_effect :
    ClientEffect surroundings next message session
      (processFixMessage config surroundings next message session) := by
  have hkept : ∀ session' replies, session'.ledger = session.ledger →
      session'.usedClOrdIds = session.usedClOrdIds →
      ClientEffect surroundings next message session ⟨session', next, none, replies⟩ :=
    fun session' replies hledger hused =>
      .kept hledger (by rw [hused]; exact List.Subset.refl _) (Nat.le_refl _)
  let session₁ :=
    { session with expectedInboundSequence := session.expectedInboundSequence + 1 }
  have hexpected : ∀ {effects}, ClientEffect surroundings next message session₁ effects →
      ClientEffect surroundings next message session effects :=
    fun h => h.congr rfl rfl rfl
  unfold processFixMessage
  split
  · dsimp only
    split
    · exact hkept _ _ rfl rfl
    split
    · exact hkept _ _ rfl rfl
    split
    · exact hexpected (handleLogon_effect _)
    split
    · exact hkept _ _ rfl rfl
    split
    · exact hkept _ _ rfl rfl
    split
    · exact hkept _ _ rfl rfl
    split
    · exact hkept _ _ rfl rfl
    split
    · exact hexpected handleNewOrder_effect
    split
    · exact hexpected handleCancel_effect
    split
    · exact hexpected handleReplace_effect
    · exact hkept _ _ rfl rfl
  · exact hkept _ _ rfl rfl

end Handlers

/-- The counter of order ids only grows. -/
theorem Bridge.Step.nextNumericOrderId_le {config : FixGatewayConfig} {label : Bridge.Label}
    {s s' : Bridge} (hstep : Bridge.Step config s label s') :
    s.nextNumericOrderId ≤ s'.nextNumericOrderId := by
  cases hstep with
  | core | accept | deliver => exact Nat.le_refl _
  | client => exact processFixMessage_effect.next_le

end ExchangeLab

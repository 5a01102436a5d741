import ExchangeLab.Gateway.Messages
import ExchangeLab.Gateway.Clients

/-!
# ExchangeLab.Gateway.Texts

Where the texts in a reply come from: the client's messages, in which no value has a SOH, what the
session has kept of them, numbers, and the gateway's own sentences.

* `SessionContext.Clean`: what the session has kept has no SOH in it.
* `processFixMessage_clean`, `processCoreMessage_clean`: the handlers keep it so, and so are their
  replies.
-/

namespace ExchangeLab

open Wire Protocol Container ExchangeLab.Fix FixGateway FixBridge

/-! ## The client's messages -/

def Fix.Message.Clean (message : Message) : Prop := ∀ field ∈ message.fields, soh ∉ field.value

theorem Fix.BodyText.clean {fields : List Field} {body : Bytes} (h : BodyText fields body) :
    ∀ field ∈ fields, soh ∉ field.value := by
  induction h with
  | nil => exact List.forall_mem_nil _
  | cons hfirst hrest ih =>
    obtain ⟨-, -, -, hvalue⟩ := hfirst
    exact List.forall_mem_cons.mpr ⟨hvalue, ih⟩

theorem clean_of_parse {wire : Bytes} {message : Message} (h : parse wire = .ok message) :
    message.Clean := by
  obtain ⟨-, -, hbody, -, -, -⟩ := (parse_iff wire message).mp h
  exact hbody.clean

section Message

variable {message : Message} {tag : Int32}

theorem Fix.Message.Clean.get (h : message.Clean) {value : Bytes} (hget : message.get tag = some value) :
    soh ∉ value := by
  obtain ⟨field, hfield, rfl⟩ := Option.map_eq_some_iff.mp hget
  exact h field (List.mem_of_find?_eq_some hfield)

/-- The value of a field, or what stands in for it. -/
theorem Fix.Message.Clean.getD (h : message.Clean) {default : Bytes} (hdefault : soh ∉ default) :
    soh ∉ (message.get tag).getD default := by
  cases hget : message.get tag with
  | none => exact hdefault
  | some value => exact h.get hget

end Message

/-! ## Errors -/

/-- An error that can be sent. -/
def ErrorClean {α : Type} (result : Except String α) : Prop :=
  ∀ error, result = .error error → soh ∉ text error

namespace ErrorClean

variable {α β : Type}

theorem ok (a : α) : ErrorClean (.ok a) := by
  intro error h
  cases h

theorem error {s : String} (h : soh ∉ text s) : ErrorClean (α := α) (.error s) := by
  intro error heq
  cases heq
  exact h

theorem bind {x : Except String α} {f : α → Except String β} (hx : ErrorClean x)
    (hf : ∀ a, ErrorClean (f a)) : ErrorClean (x >>= f) := by
  intro error h
  cases x with
  | error other =>
    cases h
    exact hx error rfl
  | ok a => exact hf a error h

theorem orError {s : String} (x : Option α) (h : soh ∉ text s) : ErrorClean (orError s x) := by
  cases x with
  | none => exact .error h
  | some a => exact .ok a

end ErrorClean

theorem soh_not_mem_append {bytes bytes' : Bytes} (h : soh ∉ bytes) (h' : soh ∉ bytes') :
    soh ∉ bytes ++ bytes' := by
  rw [List.mem_append, not_or]
  exact ⟨h, h'⟩

theorem soh_not_mem_tag (tag : Int32) : soh ∉ text (toString tag) := by
  change soh ∉ text (toString tag.toInt)
  cases tag.toInt with
  | ofNat n => exact soh_not_mem_decimal n
  | negSucc n =>
    change soh ∉ text ("-" ++ toString (n + 1))
    rw [text_append]
    exact soh_not_mem_append (by decide) (soh_not_mem_decimal (n + 1))

section Message

variable {message : Message}

theorem errorClean_requiredField (tag : Int32) (message : Message) :
    ErrorClean (requiredField tag message) := by
  have hmissing : soh ∉ text ("required FIX tag " ++ toString tag ++ " is missing") := by
    rw [text_append, text_append]
    exact soh_not_mem_append (soh_not_mem_append (by decide) (soh_not_mem_tag tag)) (by decide)
  unfold requiredField
  split
  · exact .error hmissing
  split
  · exact .error hmissing
  · exact .ok _

theorem errorClean_translatePrice (orderType : Protocol.OrderType) (message : Message) :
    ErrorClean (translatePrice orderType message) := by
  unfold translatePrice
  split
  · exact .bind (errorClean_requiredField 44 message) fun priceText => .orError _ (by decide)
  · exact .ok 0

theorem errorClean_chooseTimeInForce (orderType : Protocol.OrderType) (message : Message) :
    ErrorClean (chooseTimeInForce orderType message) := by
  unfold chooseTimeInForce
  refine .bind ?_ fun timeInForce => .ok _
  cases message.get 59 with
  | none => exact .ok _
  | some value => exact .orError _ (by decide)

theorem errorClean_translateNewOrderSingle (message : Message) (id timestamp : UInt64) :
    ErrorClean (translateNewOrderSingle message id timestamp) := by
  have hrequired := fun tag => errorClean_requiredField tag message
  unfold translateNewOrderSingle
  refine .bind (hrequired 40) fun orderTypeText => .bind (hrequired 38) fun quantityText =>
    .bind (hrequired 54) fun sideText => .bind (hrequired 55) fun symbolText =>
    .bind (hrequired 11) fun clOrdId => .bind (.orError _ (by decide)) fun symbol =>
    .bind (.orError _ (by decide)) fun side => .bind (.orError _ (by decide)) fun orderType =>
    .bind (.orError _ (by decide)) fun quantity =>
    .bind (errorClean_translatePrice orderType message) fun price =>
    .bind (errorClean_chooseTimeInForce orderType message) fun timeInForce => .ok _

theorem errorClean_replacementOf (message : Message) (order : OrderState) :
    ErrorClean (replacementOf message order) := by
  have hrequired := fun tag => errorClean_requiredField tag message
  unfold replacementOf
  refine .bind (hrequired 44) fun priceText => .bind (hrequired 38) fun quantityText =>
    .bind (hrequired 55) fun symbol => ?_
  split
  · exact .error (by decide)
  split
  · exact .error (by decide)
  refine .bind (.orError _ (by decide)) fun total => .bind (.orError _ (by decide)) fun price => ?_
  split
  · exact .error (by decide)
  split
  · exact .error (by decide)
  · exact .ok _

theorem validateCompIds_clean {config : FixGatewayConfig} {session : SessionContext} {error : String}
    (h : validateCompIds config message session = some error) : soh ∉ text error := by
  unfold validateCompIds at h
  split at h
  · split at h
    · cases h
      decide
    split at h
    · cases h
      decide
    · cases h
  · cases h
    decide

end Message

/-! ## Sessions -/

def PendingRequest.Clean (pending : PendingRequest) : Prop :=
  soh ∉ pending.clOrdId ∧ soh ∉ pending.origClOrdId

structure Ledger.Clean (l : Ledger) : Prop where
  orders : ∀ id order, l.orders id = some order → soh ∉ order.currentClOrdId
  pending : ∀ id, ∀ entry ∈ l.pending id, entry.Clean

structure SessionContext.Clean (session : SessionContext) : Prop where
  clientCompId : soh ∉ session.clientCompId
  ledger : session.ledger.Clean

namespace Ledger.Clean

variable {l : Ledger} (h : l.Clean) {id : OrderId}

include h

theorem update {order : Option OrderState} (horder : ∀ o ∈ order, soh ∉ o.currentClOrdId) :
    ({ l with orders := Function.update l.orders id order } : Ledger).Clean := by
  refine ⟨fun i o ho => ?_, h.pending⟩
  simp only [Function.update_apply] at ho
  split at ho
  · exact horder o ho
  · exact h.orders i o ho

theorem setOrder {order : OrderState} (horder : soh ∉ order.currentClOrdId) :
    (l.setOrder id order).Clean :=
  h.update fun _ ho => Option.some.inj ho ▸ horder

theorem place {order : OrderState} (horder : soh ∉ order.currentClOrdId) :
    (l.place id order).Clean := by
  refine h.update fun o ho => ?_
  cases hid : l.orders id with
  | none =>
    rw [hid] at ho
    exact Option.some.inj ho ▸ horder
  | some found =>
    rw [hid] at ho
    exact Option.some.inj ho ▸ h.orders id found hid

theorem eraseOrder : (l.eraseOrder id).Clean := h.update fun _ ho => by cases ho

theorem setPending {pending : List PendingRequest} (hpending : ∀ entry ∈ pending, entry.Clean) :
    (l.setPending id pending).Clean := by
  refine ⟨h.orders, fun i => ?_⟩
  simp only [Ledger.setPending, Function.update_apply]
  split
  · exact hpending
  · exact h.pending i

theorem push {pending : PendingRequest} (hpending : pending.Clean) : (l.push id pending).Clean := by
  refine h.setPending fun entry hentry => ?_
  rcases List.mem_append.mp hentry with hentry | hentry
  · exact h.pending id entry hentry
  · rw [List.mem_singleton.mp hentry]
    exact hpending

theorem answer {pending : PendingRequest} {order : OrderState} (success : Bool)
    (hpending : pending.Clean) (horder : soh ∉ order.currentClOrdId) :
    (l.answer id pending success order).Clean := by
  unfold Ledger.answer
  split
  · have hset : (l.setOrder id { order with ordStatus := .new }).Clean := h.setOrder horder
    exact ⟨hset.orders, hset.pending⟩
  · exact h.eraseOrder
  · exact h.setOrder horder
  · exact h.setOrder hpending.1
  · exact h
  · exact h

theorem respond (success : Bool) : (l.respond id success).Clean := by
  unfold Ledger.respond
  split
  · exact h
  rename_i pending rest hpending
  have hclean := h.pending id
  rw [hpending, List.forall_mem_cons] at hclean
  split
  · exact h.setPending hclean.2
  · rename_i order horder
    exact (h.setPending hclean.2).answer success hclean.1 (h.orders id order horder)

theorem fillAt (execution : TradeExecution) : (l.fillAt id execution).Clean := by
  refine h.update fun o ho => ?_
  obtain ⟨order, horder, rfl⟩ := Option.map_eq_some_iff.mp ho
  exact h.orders id order horder

theorem trade (execution : TradeExecution) : (l.trade execution).Clean := by
  have hfill : (l.fill execution).Clean := (h.fillAt execution).fillAt execution
  unfold Ledger.trade
  split
  · split
    · exact ⟨h.orders, h.pending⟩
    · exact ⟨hfill.orders, hfill.pending⟩
  · exact hfill

theorem boundary (symbol : Symbol) : (l.boundary symbol).Clean := by
  refine ⟨fun id order horder => ?_, h.pending⟩
  simp only [Ledger.boundary] at horder
  split at horder
  · obtain ⟨found, hfound, rfl⟩ := Option.map_eq_some_iff.mp horder
    rw [OrderState.reach]
    split
    · exact h.orders id found hfound
    · exact h.orders id found hfound
  · exact h.orders id order horder

theorem absorb (message : CoreMessage) : (l.absorb message).Clean := by
  unfold Ledger.absorb
  split
  · split
    · exact h
    · exact h.respond _
  split
  · split
    · exact h
    · exact h.trade _
  split
  · split
    · exact h
    · exact h.boundary _
  · exact h

end Ledger.Clean

/-! ## The core's messages -/

section Core

theorem clean_answerReply {pending : PendingRequest} (success : Bool) (order : OrderState)
    (h : pending.Clean) : (answerReply pending success order).Clean := by
  have horig : ∀ bytes ∈ some pending.origClOrdId, soh ∉ bytes :=
    fun bytes hbytes => Option.some.inj hbytes ▸ h.2
  unfold answerReply
  split
  · exact clean_executionReport _ _ _ _ _ h.1 (by simp) (by simp)
  · refine clean_executionReport _ _ _ _ _ h.1 (by simp) fun s hs => ?_
    rw [← Option.some.inj hs]
    decide
  · exact clean_executionReport _ _ _ _ _ h.1 horig (by simp)
  · exact clean_cancelReject _ _ h.1 h.2 (by decide)
  · exact clean_executionReport _ _ _ _ _ h.1 horig (by simp)
  · exact clean_cancelReject _ _ h.1 h.2 (by decide)

theorem clean_fillReply (execution : TradeExecution) {order : OrderState}
    (h : soh ∉ order.currentClOrdId) : (fillReply execution order).Clean :=
  clean_executionReport _ _ _ _ _ h (by simp) (by simp)

theorem clean_boundaryReplies (symbol : Symbol) {order : OrderState}
    (h : soh ∉ order.currentClOrdId) : ∀ reply ∈ boundaryReplies symbol order, reply.Clean := by
  rw [boundaryReplies]
  split
  · refine List.forall_mem_singleton.mpr (clean_executionReport _ _ _ _ _ h (by simp) fun s hs => ?_)
    rw [← Option.some.inj hs]
    decide
  · exact List.forall_mem_nil _

variable {session : SessionContext}

theorem Ledger.Clean.responseReplies {l : Ledger} (h : l.Clean) (id : OrderId) (success : Bool) :
    ∀ reply ∈ l.responseReplies id success, reply.Clean := by
  unfold Ledger.responseReplies
  split
  · exact List.forall_mem_nil _
  · rename_i pending rest hpending
    intro reply hreply
    obtain ⟨order, -, rfl⟩ := List.mem_map.mp hreply
    exact clean_answerReply success order (h.pending id pending (hpending ▸ .head rest))

theorem Ledger.Clean.tradeReplies {l : Ledger} (h : l.Clean) (execution : TradeExecution) :
    ∀ reply ∈ l.tradeReplies execution, reply.Clean := by
  have hfilled : ∀ {l : Ledger}, l.Clean → ∀ id,
      ∀ reply ∈ (l.orders id).toList.map (fillReply execution), reply.Clean := by
    intro l h id reply hreply
    obtain ⟨order, horder, rfl⟩ := List.mem_map.mp hreply
    exact clean_fillReply execution (h.orders id order (Option.mem_toList.mp horder))
  unfold Ledger.tradeReplies
  split
  · exact List.forall_mem_nil _
  · exact List.forall_mem_append.mpr ⟨hfilled h _, hfilled (h.fillAt execution) _⟩

theorem clientCompId_handleCoreTrade (message : CoreMessage) (session : SessionContext) :
    (handleCoreTrade message session).1.clientCompId = session.clientCompId := by
  unfold handleCoreTrade
  split
  · rfl
  split
  · rfl
  · unfold handleSelfTrade
    split
    · rfl
    split
    · rfl
    dsimp only
    split <;> rfl
  · rfl
  · rfl

theorem clientCompId_processCoreMessage (iteration : SetOrder) (message : CoreMessage)
    (session : SessionContext) :
    (processCoreMessage iteration message session).1.clientCompId = session.clientCompId := by
  unfold processCoreMessage
  split
  · unfold handleCoreOrderResponse
    split
    · rfl
    split
    · rfl
    dsimp only
    split
    · rfl
    · unfold answerPending
      split
      · dsimp only
        split <;> rfl
      all_goals rfl
  split
  · exact clientCompId_handleCoreTrade message session
  split
  · unfold finalizeNonRestingOrders
    split <;> rfl
  · rfl

theorem processCoreMessage_clean (iteration : SetOrder) (message : CoreMessage)
    (h : session.Clean) :
    (processCoreMessage iteration message session).1.Clean ∧
      ∀ reply ∈ (processCoreMessage iteration message session).2, reply.Clean := by
  refine ⟨⟨?_, ?_⟩, ?_⟩
  · rw [clientCompId_processCoreMessage]
    exact h.clientCompId
  · rw [ledger_processCoreMessage]
    exact h.ledger.absorb message
  unfold processCoreMessage
  split
  · rw [handleCoreOrderResponse_replies]
    split
    · exact List.forall_mem_nil _
    · exact h.ledger.responseReplies _ _
  split
  · rw [handleCoreTrade_replies]
    split
    · exact List.forall_mem_nil _
    · exact h.ledger.tradeReplies _
  split
  · rw [finalizeNonRestingOrders_replies]
    split
    · exact List.forall_mem_nil _
    · intro reply hreply
      obtain ⟨id, -, hreply⟩ := List.mem_flatMap.mp hreply
      obtain ⟨order, horder, hreply⟩ := List.mem_flatMap.mp hreply
      exact clean_boundaryReplies _ (h.ledger.orders id order (Option.mem_toList.mp horder)) reply
        hreply
  · exact List.forall_mem_nil _

end Core

/-! ## The client's messages, handled -/

structure Effects.Clean (effects : Effects) : Prop where
  session : effects.session.Clean
  replies : ∀ reply ∈ effects.replies, reply.Clean

/-- A single reply, and nothing new kept. -/
theorem Effects.Clean.reply {session : SessionContext} {next : Nat} {request : Option Request}
    {reply : Reply} (h : session.Clean) (hreply : reply.Clean) :
    (⟨session, next, request, [reply]⟩ : Effects).Clean :=
  ⟨h, List.forall_mem_singleton.mpr hreply⟩

section Client

variable {config : FixGatewayConfig} {surroundings : Surroundings} {next : Nat} {message : Message}
  {session : SessionContext}

theorem SessionContext.Clean.push (h : session.Clean) (core : CoreRequest) {pending : PendingRequest}
    (hpending : pending.Clean) : (sendCoreRequest core pending session).1.Clean :=
  ⟨h.clientCompId, by
    rw [ledger_sendCoreRequest]
    exact h.ledger.push hpending⟩

theorem handleNewOrder_clean (h : session.Clean) (hmessage : message.Clean) :
    (handleNewOrder surroundings next message session).Clean := by
  have hreject : ∀ reason : String, soh ∉ text reason →
      (Reply.newReject ((message.get 11).getD (text "MISSING"))
        ((message.get 55).getD (text "UNKNOWN")) ((message.get 54).getD (text "?"))
        ((message.get 38).getD (text "0")) reason).Clean :=
    fun reason => clean_newReject (hmessage.getD (by decide)) (hmessage.getD (by decide))
      (hmessage.getD (by decide)) (hmessage.getD (by decide))
  unfold handleNewOrder
  dsimp only
  split
  · exact .reply h (hreject _ (by decide))
  generalize hdef : (message.get 11).elim session (fun clOrdId => session.useClOrdId clOrdId) =
    session₁
  have h₁ : session₁.Clean := by
    rw [← hdef]
    cases message.get 11 with
    | none => exact h
    | some clOrdId => exact ⟨h.clientCompId, h.ledger⟩
  split
  · rename_i error herror
    exact .reply h₁ (hreject error (errorClean_translateNewOrderSingle _ _ _ error herror))
  rename_i translated htranslated
  have hclOrdId := hmessage.get (translateNewOrderSingle_readFrom htranslated).clOrdId
  have hpending : ({ clOrdId := translated.clOrdId } : PendingRequest).Clean :=
    ⟨hclOrdId, List.not_mem_nil⟩
  have hadded : (session₁.addOrder
      { numericOrderId := UInt64.ofNat next
        symbol := translated.request.symbol
        side := translated.request.side
        orderType := translated.request.orderType
        timeInForce := translated.request.timeInForce
        currentClOrdId := translated.clOrdId
        orderQuantity := translated.request.quantity.toNat
        leavesQuantity := translated.request.quantity.toNat
        price := translated.request.price }).Clean := by
    refine ⟨h₁.clientCompId, ?_⟩
    rw [ledger_addOrder]
    exact h₁.ledger.place hclOrdId
  split
  · exact ⟨hadded.push _ hpending, List.forall_mem_nil _⟩
  · refine .reply ⟨h₁.clientCompId, ?_⟩ (clean_newReject hclOrdId (soh_not_mem_symbolToString _)
      (soh_not_mem_sideText _) (soh_not_mem_decimal _) (by decide))
    have hid : (CoreRequest.newOrder translated.request).orderId = UInt64.ofNat next :=
      (translateNewOrderSingle_readFrom htranslated).orderId
    rw [ledger_eraseOrder, ← hid, ledger_popBackPending, hid]
    exact hadded.ledger.eraseOrder

/-- The two ClOrdIDs of a cancel or a replace are the message's. -/
theorem findWorkingOrder_clean (kind : PendingKind) (h : session.Clean) (hmessage : message.Clean) :
    (∃ session' reply, findWorkingOrder kind message session = (session', .error reply) ∧
      session'.Clean ∧ reply.Clean) ∨
    ∃ clOrdId origClOrdId id order, findWorkingOrder kind message session =
        (session.useClOrdId clOrdId, .ok (clOrdId, origClOrdId, id, order)) ∧
      soh ∉ clOrdId ∧ soh ∉ origClOrdId := by
  have hrequired : ∀ {tag : Int32} {value : Bytes}, requiredField tag message = .ok value →
      soh ∉ value := fun hvalue => hmessage.get (requiredField_ok hvalue).1
  have hstandIn : ∀ tag : Int32, soh ∉ (requiredField tag message).toOption.getD (text "MISSING") := by
    intro tag
    cases hvalue : requiredField tag message with
    | error => exact show soh ∉ text "MISSING" by decide
    | ok value => exact hrequired hvalue
  unfold findWorkingOrder
  dsimp only
  split
  · rename_i error herror
    refine .inl ⟨_, _, rfl, h, clean_cancelReject _ _ (hstandIn 11) (hstandIn 41) ?_⟩
    have herrors : ErrorClean (do
        let origClOrdId ← requiredField 41 message
        let clOrdId ← requiredField 11 message
        return (clOrdId, origClOrdId)) :=
      .bind (errorClean_requiredField 41 message) fun _ =>
        .bind (errorClean_requiredField 11 message) fun _ => .ok _
    exact herrors error herror
  rename_i clOrdId origClOrdId hids
  obtain ⟨orig, horig, hids⟩ := ok_of_bind hids
  obtain ⟨clOrd, hclOrd, hids⟩ := ok_of_bind hids
  cases hids
  have hclOrdId := hrequired hclOrd
  have horigClOrdId := hrequired horig
  have hused : (session.useClOrdId clOrdId).Clean := ⟨h.clientCompId, h.ledger⟩
  split
  · exact .inl ⟨_, _, rfl, h, clean_cancelReject _ _ hclOrdId horigClOrdId (by decide)⟩
  split
  · exact .inl ⟨_, _, rfl, hused, clean_cancelReject _ _ hclOrdId horigClOrdId (by decide)⟩
  split
  · exact .inl ⟨_, _, rfl, hused, clean_cancelReject _ _ hclOrdId horigClOrdId (by decide)⟩
  split
  · exact .inl ⟨_, _, rfl, hused, clean_cancelReject _ _ hclOrdId horigClOrdId (by decide)⟩
  · exact .inr ⟨_, _, _, _, rfl, hclOrdId, horigClOrdId⟩

theorem forward_clean (core : CoreRequest) {pending : PendingRequest} (order : OrderState)
    (h : session.Clean) (hpending : pending.Clean) :
    (forward surroundings next core pending order session).Clean := by
  unfold forward
  dsimp only
  split
  · exact ⟨h.push core hpending, List.forall_mem_nil _⟩
  · refine .reply ⟨h.clientCompId, ?_⟩
      (clean_cancelReject _ _ hpending.1 hpending.2 (by decide))
    rw [ledger_popBackPending]
    exact h.ledger

theorem handleCancel_clean (h : session.Clean) (hmessage : message.Clean) :
    (handleCancel surroundings next message session).Clean := by
  unfold handleCancel
  rcases findWorkingOrder_clean .cancel h hmessage with ⟨session', reply, heq, hsession, hreply⟩ |
    ⟨clOrdId, origClOrdId, id, order, heq, hclOrdId, horigClOrdId⟩
  · rw [heq]
    exact .reply hsession hreply
  · rw [heq]
    exact forward_clean _ _ ⟨h.clientCompId, h.ledger⟩ ⟨hclOrdId, horigClOrdId⟩

theorem handleReplace_clean (h : session.Clean) (hmessage : message.Clean) :
    (handleReplace surroundings next message session).Clean := by
  unfold handleReplace
  rcases findWorkingOrder_clean .replace h hmessage with ⟨session', reply, heq, hsession, hreply⟩ |
    ⟨clOrdId, origClOrdId, id, order, heq, hclOrdId, horigClOrdId⟩
  · rw [heq]
    exact .reply hsession hreply
  rw [heq]
  dsimp only
  have hused : (session.useClOrdId clOrdId).Clean := ⟨h.clientCompId, h.ledger⟩
  split
  · rename_i reason hreason
    exact .reply hused (clean_cancelReject _ _ hclOrdId horigClOrdId
      (errorClean_replacementOf message order reason hreason))
  · exact forward_clean _ _ hused ⟨hclOrdId, horigClOrdId⟩

theorem handleLogon_clean {reject : String → Reply} (h : session.Clean) (hmessage : message.Clean)
    (hreject : ∀ reason, soh ∉ text reason → (reject reason).Clean) :
    (handleLogon surroundings next reject message session).Clean := by
  unfold handleLogon
  split
  · exact .reply h (hreject _ (by decide))
  split
  · rename_i sender encryptMethod heartbeat hsender _ _
    split
    · exact .reply h (hreject _ (by decide))
    split
    · exact .reply h (hreject _ (by decide))
    dsimp only
    split
    · refine .reply ⟨hmessage.get hsender, h.ledger⟩ (clean_logout fun s hs => ?_)
      rw [← Option.some.inj hs]
      decide
    · exact .reply ⟨hmessage.get hsender, h.ledger⟩ (clean_logon _)
  · exact .reply h (hreject _ (by decide))

theorem processFixMessage_clean (h : session.Clean) (hmessage : message.Clean) :
    (processFixMessage config surroundings next message session).Clean := by
  unfold processFixMessage
  split
  · rename_i msgType seqNum htype _
    have hreject : ∀ reason : String, soh ∉ text reason →
        (Reply.sessionReject seqNum reason (some msgType)).Clean :=
      fun reason hreason => clean_sessionReject seqNum hreason fun bytes hbytes =>
        Option.some.inj hbytes ▸ hmessage.get htype
    dsimp only
    split
    · refine .reply h (hreject _ ?_)
      rw [text_append]
      exact soh_not_mem_append (by decide) (soh_not_mem_decimal _)
    have hcounted : SessionContext.Clean
        { session with expectedInboundSequence := session.expectedInboundSequence + 1 } :=
      ⟨h.clientCompId, h.ledger⟩
    split
    · rename_i error herror
      exact .reply hcounted (hreject error (validateCompIds_clean herror))
    split
    · exact handleLogon_clean hcounted hmessage hreject
    split
    · exact .reply hcounted (hreject _ (by decide))
    split
    · exact ⟨hcounted, List.forall_mem_nil _⟩
    split
    · refine .reply hcounted ?_
      cases htest : message.get 112 with
      | none => exact hreject _ (by decide)
      | some testRequestId => exact clean_heartbeat (hmessage.get htest)
    split
    · exact .reply ⟨h.clientCompId, h.ledger⟩ (clean_logout (by simp))
    split
    · exact handleNewOrder_clean hcounted hmessage
    split
    · exact handleCancel_clean hcounted hmessage
    split
    · exact handleReplace_clean hcounted hmessage
    · exact .reply hcounted (hreject _ (by decide))
  · exact .reply h (clean_sessionReject _ (by decide) (by simp))

end Client

end ExchangeLab

import ExchangeLab.Gateway.Pending

/-!
# ExchangeLab.Gateway.Answers

What the client is told of each request that was forwarded.

* `Reply.answersTo`: an answer to the request with a ClOrdID; the report of a fill is none.
* `Link.Answerable`: no outstanding request has been answered yet, and the order it names is there.
* `Unpipelined`: no request waits behind a new order whose rejection is processed.
* `forwarded_answered`: while that holds, a response is passed on as exactly one answer;
  `pipelined_unanswered`: that to a cancel behind a rejected order is not passed on.
-/

namespace ExchangeLab

open Wire Protocol Container ExchangeServer ExchangeLab.Fix FixGateway FixBridge Transition

/-! ## Replies -/

/-- An execution report for anything but a fill, or a reject, that carries the ClOrdID. -/
def Reply.answersTo (clOrdId : Bytes) : Reply → Bool
  | .executionReport report => report.execType ≠ .trade && report.clOrdId = clOrdId
  | .newReject clOrdId' .. => clOrdId' = clOrdId
  | .cancelReject _ clOrdId' .. => clOrdId' = clOrdId
  | .sessionReject .. | .logon _ | .heartbeat _ | .logout _ => false

theorem answerReply_answersTo (pending : PendingRequest) (success : Bool) (order : OrderState)
    (clOrdId : Bytes) :
    (answerReply pending success order).answersTo clOrdId = decide (pending.clOrdId = clOrdId) := by
  obtain ⟨kind, clOrdId', origClOrdId, total, working, price⟩ := pending
  cases kind <;> cases success <;>
    simp [answerReply, executionReport, cancelReject, Reply.answersTo]

theorem fillReply_answersTo (execution : TradeExecution) (order : OrderState) (clOrdId : Bytes) :
    (fillReply execution order).answersTo clOrdId = false := by
  simp [fillReply, executionReport, Reply.answersTo]

theorem boundaryReplies_answersTo {symbol : Symbol} {order : OrderState} {reply : Reply}
    (h : reply ∈ boundaryReplies symbol order) {clOrdId : Bytes}
    (hanswers : reply.answersTo clOrdId = true) : order.currentClOrdId = clOrdId := by
  unfold boundaryReplies at h
  split at h
  · rw [List.mem_singleton.mp h] at hanswers
    simpa [executionReport, Reply.answersTo] using hanswers
  · cases h

section Replies

variable {session : SessionContext} {message : CoreMessage} {iteration : SetOrder}

theorem replies_of_answer {id : OrderId} {success : Bool}
    (h : message.answer = some (id, success)) :
    (processCoreMessage iteration message session).2 =
      session.ledger.responseReplies id success := by
  unfold CoreMessage.answer at h
  split at h
  · rename_i hresponse
    obtain ⟨response, hdecode, heq⟩ := Option.map_eq_some_iff.mp h
    obtain ⟨rfl, rfl⟩ := Prod.mk.inj heq
    rw [processCoreMessage, if_pos hresponse, handleCoreOrderResponse_replies, hdecode]
  · cases h

/-- A message that is no response answers nothing, but for a waiting order that is over. -/
theorem replies_of_no_answer (h : message.answer = none) {reply : Reply}
    (hreply : reply ∈ (processCoreMessage iteration message session).2) {clOrdId : Bytes}
    (hanswers : reply.answersTo clOrdId = true) :
    ∃ id ∈ session.ledger.awaiting, ∃ order, session.ledger.orders id = some order ∧
      order.currentClOrdId = clOrdId := by
  unfold processCoreMessage at hreply
  split at hreply
  · rename_i hresponse
    rw [CoreMessage.answer, if_pos hresponse, Option.map_eq_none_iff] at h
    rw [handleCoreOrderResponse_replies, h] at hreply
    cases hreply
  split at hreply
  · rw [handleCoreTrade_replies] at hreply
    exfalso
    cases hdecode : decodeTradeExecution message.body with
    | none =>
      rw [hdecode] at hreply
      cases hreply
    | some execution =>
      have hfill : ∃ order, fillReply execution order = reply := by
        simp only [hdecode, Ledger.tradeReplies] at hreply
        split at hreply
        · cases hreply
        · rcases List.mem_append.mp hreply with hmem | hmem
          · obtain ⟨order, -, heq⟩ := List.mem_map.mp hmem
            exact ⟨order, heq⟩
          · obtain ⟨order, -, heq⟩ := List.mem_map.mp hmem
            exact ⟨order, heq⟩
      obtain ⟨order, rfl⟩ := hfill
      rw [fillReply_answersTo] at hanswers
      cases hanswers
  split at hreply
  · rw [finalizeNonRestingOrders_replies] at hreply
    cases hdecode : decodeBookUpdate message.body with
    | none =>
      rw [hdecode] at hreply
      cases hreply
    | some update =>
      rw [hdecode] at hreply
      obtain ⟨id, hid, hreply⟩ := List.mem_flatMap.mp hreply
      obtain ⟨order, horder, hreply⟩ := List.mem_flatMap.mp hreply
      exact ⟨id, (mem_enumerate iteration _ id).mp hid, order, Option.mem_toList.mp horder,
        boundaryReplies_answersTo hreply hanswers⟩
  · cases hreply

theorem answerPending_usedClOrdIds (id : OrderId) (pending : PendingRequest) (success : Bool)
    (order : OrderState) :
    (answerPending id pending success order session).1.usedClOrdIds = session.usedClOrdIds := by
  unfold answerPending
  split
  · dsimp only
    split <;> rfl
  all_goals rfl

theorem handleSelfTrade_usedClOrdIds (execution : TradeExecution) :
    (handleSelfTrade execution session).1.usedClOrdIds = session.usedClOrdIds := by
  unfold handleSelfTrade
  split
  · rfl
  split
  · rfl
  dsimp only
  split <;> rfl

/-- Only the client's messages use ClOrdIDs up. -/
theorem processCoreMessage_usedClOrdIds (iteration : SetOrder) (message : CoreMessage)
    (session : SessionContext) :
    (processCoreMessage iteration message session).1.usedClOrdIds = session.usedClOrdIds := by
  unfold processCoreMessage
  split
  · unfold handleCoreOrderResponse
    split
    · rfl
    split
    · rfl
    dsimp only
    split
    · rfl
    · exact answerPending_usedClOrdIds ..
  split
  · unfold handleCoreTrade
    split
    · rfl
    split
    · rfl
    · exact handleSelfTrade_usedClOrdIds _
    · rfl
    · rfl
  split
  · unfold finalizeNonRestingOrders
    split <;> rfl
  · rfl

end Replies

/-! ## One link -/

/-- The requests that are not answered yet. -/
def Link.outstanding (link : Link) : List Request := link.requests.drop link.answers.length

/-- What the client has been told because of the core's messages. -/
def Link.replies (link : Link) : List Reply := link.received.flatMap Reception.replies

structure Link.Answerable (next : Nat) (link : Link) : Prop where
  keyed : ∀ id order, link.session.ledger.orders id = some order → order.numericOrderId = id
  drawn : ∀ id, (link.session.ledger.orders id ≠ none ∨ id ∈ link.session.ledger.awaiting ∨
    ∃ request ∈ link.requests, request.orderId = id) → id.toNat < next
  present : ∀ request ∈ link.outstanding, link.session.ledger.orders request.orderId ≠ none
  used : ∀ request ∈ link.requests, request.pending.clOrdId ∈ link.session.usedClOrdIds
  current : ∀ id order, link.session.ledger.orders id = some order →
    order.currentClOrdId ∈ link.session.usedClOrdIds
  distinct : (link.requests.map fun request => request.pending.clOrdId).Nodup
  first : ∀ id, ∀ pending ∈ (entriesOf id link.outstanding).tail, pending.kind ≠ .new
  /-- An order that is not accepted yet has the ClOrdID it came with and waits for no book update. -/
  unaccepted : ∀ request ∈ link.outstanding, request.pending.kind = .new →
    request.orderId ∉ link.session.ledger.awaiting ∧
    ∀ order, link.session.ledger.orders request.orderId = some order →
      order.currentClOrdId = request.pending.clOrdId
  /-- So the ClOrdID of an order that waits for one is that of an answered request. -/
  settled : ∀ id ∈ link.session.ledger.awaiting, ∀ order,
    link.session.ledger.orders id = some order →
    ∀ request ∈ link.outstanding, request.pending.clOrdId ≠ order.currentClOrdId
  known : ∀ reply ∈ link.replies, ∀ clOrdId, reply.answersTo clOrdId = true →
    clOrdId ∈ link.session.usedClOrdIds
  unanswered : ∀ request ∈ link.outstanding, ∀ reply ∈ link.replies,
    reply.answersTo request.pending.clOrdId = false

theorem exists_of_entriesOf {id : OrderId} {requests : List Request} {pending : PendingRequest}
    {rest : List PendingRequest} (h : entriesOf id requests = pending :: rest) :
    ∃ request ∈ requests, request.orderId = id := by
  have hmem : pending ∈ entriesOf id requests := by
    rw [h]
    exact .head _
  obtain ⟨request, hrequest, -⟩ := List.mem_map.mp hmem
  obtain ⟨hrequest, hid⟩ := List.mem_filter.mp hrequest
  exact ⟨request, hrequest, of_decide_eq_true hid⟩

namespace Link.Answerable

variable {next next' : Nat} {link : Link}

theorem start (seconds : UInt32) :
    Link.Answerable next { session := { heartbeatSeconds := seconds } } where
  keyed _ _ horder := by cases horder
  drawn id hid := by
    rcases hid with hid | hid | ⟨_, hmem, -⟩
    · exact absurd rfl hid
    · cases hid
    · cases hmem
  present _ hmem := by cases hmem
  used _ hmem := by cases hmem
  current _ _ horder := by cases horder
  distinct := .nil
  first _ _ hmem := by cases hmem
  unaccepted _ hmem := by cases hmem
  settled _ hid := by cases hid
  known _ hmem := by cases hmem
  unanswered _ hmem := by cases hmem

/-- A message of the client that sends nothing. It may take back an order with an id of its own. -/
theorem kept (h : link.Answerable next) {effects : Effects} (hle : next ≤ next')
    (hrequest : effects.request = none)
    (hawaiting : effects.session.ledger.awaiting = link.session.ledger.awaiting)
    (horders : ∀ id order, effects.session.ledger.orders id = some order →
      link.session.ledger.orders id = some order)
    (hdrawn : ∀ id, id.toNat < next →
      effects.session.ledger.orders id = link.session.ledger.orders id)
    (hused : link.session.usedClOrdIds ⊆ effects.session.usedClOrdIds) :
    (link.forward effects).Answerable next' := by
  have hrequests : (link.forward effects).requests = link.requests := by
    rw [Link.forward, hrequest, Option.toList_none, List.append_nil]
  have houtstanding : (link.forward effects).outstanding = link.outstanding := by
    rw [Link.outstanding, hrequests]
    rfl
  have hsome : ∀ id, effects.session.ledger.orders id ≠ none →
      link.session.ledger.orders id ≠ none := by
    intro id hid
    obtain ⟨order, horder⟩ := Option.ne_none_iff_exists'.mp hid
    rw [horders id order horder]
    exact Option.some_ne_none _
  refine ⟨fun id order ho => h.keyed id order (horders id order ho), fun id hid => ?_, ?_, ?_,
    fun id order ho => hused (h.current id order (horders id order ho)), ?_, ?_, ?_, ?_,
    fun reply hmem clOrdId ha => hused (h.known reply hmem clOrdId ha), ?_⟩
  · rw [hrequests] at hid
    refine Nat.lt_of_lt_of_le (h.drawn id (hid.imp (hsome id) (Or.imp_left fun hmem => ?_))) hle
    exact hawaiting ▸ hmem
  · rw [houtstanding]
    intro request hmem
    have hpresent := h.present request hmem
    rw [← hdrawn _ (h.drawn _ (.inl hpresent))] at hpresent
    exact hpresent
  · rw [hrequests]
    exact fun request hmem => hused (h.used request hmem)
  · rw [hrequests]
    exact h.distinct
  · rw [houtstanding]
    exact h.first
  · rw [houtstanding]
    intro request hmem hkind
    obtain ⟨hnot, hcurrent⟩ := h.unaccepted request hmem hkind
    exact ⟨fun hid => hnot (hawaiting ▸ hid), fun order ho => hcurrent order (horders _ _ ho)⟩
  · rw [houtstanding]
    intro id hid order ho
    exact h.settled id (hawaiting ▸ hid) order (horders id order ho)
  · rw [houtstanding]
    exact h.unanswered

/-- A message of the client that sends a request: on an order that is there, or with a new one. -/
theorem push (h : link.Answerable next) {effects : Effects} {request : Request}
    (hsent : link.answers.length ≤ link.requests.length) (hrequest : effects.request = some request)
    (hfresh : request.pending.clOrdId ∉ link.session.usedClOrdIds)
    (hused : effects.session.usedClOrdIds = request.pending.clOrdId :: link.session.usedClOrdIds)
    (hawaiting : effects.session.ledger.awaiting = link.session.ledger.awaiting)
    (hothers : ∀ id, id ≠ request.orderId →
      effects.session.ledger.orders id = link.session.ledger.orders id)
    (hle : next ≤ next') (hdrawn : request.orderId.toNat < next') {order : OrderState}
    (horder : effects.session.ledger.orders request.orderId = some order)
    (hkey : order.numericOrderId = request.orderId)
    (hkind : request.pending.kind ≠ .new ∧
        link.session.ledger.orders request.orderId = some order ∨
      ¬request.orderId.toNat < next ∧ order.currentClOrdId = request.pending.clOrdId) :
    (link.forward effects).Answerable next' := by
  have hrequests : (link.forward effects).requests = link.requests ++ [request] := by
    rw [Link.forward, hrequest, Option.toList_some]
  have houtstanding : (link.forward effects).outstanding = link.outstanding ++ [request] := by
    rw [Link.outstanding, hrequests, Link.outstanding]
    exact List.drop_append_of_le_length hsent
  have hreplies : (link.forward effects).replies = link.replies := rfl
  have hmem : ∀ {other}, other ∈ (link.forward effects).outstanding →
      other ∈ link.outstanding ∨ other = request := by
    intro other hother
    rw [houtstanding] at hother
    simpa using hother
  have hold : ∀ id o, effects.session.ledger.orders id = some o →
      link.session.ledger.orders id = some o ∨ id = request.orderId ∧ o = order ∧
        ¬request.orderId.toNat < next ∧ order.currentClOrdId = request.pending.clOrdId := by
    intro id o ho
    by_cases hid : id = request.orderId
    · subst hid
      rw [horder] at ho
      cases ho
      rcases hkind with ⟨-, hsame⟩ | hnew
      · exact .inl hsame
      · exact .inr ⟨rfl, rfl, hnew⟩
    · exact .inl (hothers id hid ▸ ho)
  refine ⟨fun id o ho => ?_, fun id hid => ?_, fun other hother => ?_, fun other hother => ?_,
    fun id o ho => ?_, ?_, fun id pending hpending => ?_, fun other hother hnew => ?_,
    fun id hid o ho other hother => ?_, fun reply hreply clOrdId ha => ?_,
    fun other hother reply hreply => ?_⟩
  · rcases hold id o ho with ho | ⟨rfl, rfl, -⟩
    · exact h.keyed id o ho
    · exact hkey
  · by_cases hsame : id = request.orderId
    · exact hsame ▸ hdrawn
    refine Nat.lt_of_lt_of_le (h.drawn id ?_) hle
    rcases hid with hid | hid | ⟨other, hother, hid⟩
    · exact .inl (hothers id hsame ▸ hid)
    · exact .inr (.inl (hawaiting ▸ hid))
    · rw [hrequests] at hother
      rcases List.mem_append.mp hother with hother | hother
      · exact .inr (.inr ⟨other, hother, hid⟩)
      · exact absurd ((List.mem_singleton.mp hother) ▸ hid).symm hsame
  · show effects.session.ledger.orders other.orderId ≠ none
    by_cases hsame : other.orderId = request.orderId
    · rw [hsame, horder]
      exact Option.some_ne_none _
    · rw [hothers _ hsame]
      rcases hmem hother with hother | rfl
      · exact h.present other hother
      · exact absurd rfl hsame
  · show other.pending.clOrdId ∈ effects.session.usedClOrdIds
    rw [hused]
    rw [hrequests] at hother
    rcases List.mem_append.mp hother with hother | hother
    · exact .tail _ (h.used other hother)
    · rw [List.mem_singleton.mp hother]
      exact .head _
  · show o.currentClOrdId ∈ effects.session.usedClOrdIds
    rw [hused]
    rcases hold id o ho with ho | ⟨-, rfl, -, hcurrent⟩
    · exact .tail _ (h.current id o ho)
    · rw [hcurrent]
      exact .head _
  · rw [hrequests, List.map_append, List.map_singleton, List.nodup_append]
    refine ⟨h.distinct, List.nodup_singleton _, fun a ha b hb => ?_⟩
    obtain ⟨other, hother, rfl⟩ := List.mem_map.mp ha
    rw [List.mem_singleton.mp hb]
    exact fun heq => hfresh (heq ▸ h.used other hother)
  · rw [houtstanding, entriesOf_append] at hpending
    cases hentries : entriesOf id link.outstanding with
    | nil =>
      -- the only entry of its order is the first
      rw [hentries, List.nil_append, entriesOf_cons] at hpending
      split at hpending <;> cases hpending
    | cons first rest =>
      rw [hentries, List.cons_append, List.tail_cons] at hpending
      rcases List.mem_append.mp hpending with hpending | hpending
      · refine h.first id pending ?_
        rw [hentries]
        exact hpending
      · rw [entriesOf_cons] at hpending
        split at hpending
        · rename_i hid
          obtain ⟨other, hother, hother'⟩ := exists_of_entriesOf hentries
          rcases hkind with ⟨hkind, -⟩ | ⟨hnew, -⟩
          · rw [List.mem_singleton.mp hpending]
            exact hkind
          · exact absurd (h.drawn _ (.inr (.inr ⟨other, List.mem_of_mem_drop hother,
              hother'.trans hid.symm⟩))) hnew
        · cases hpending
  · rcases hmem hother with hother | rfl
    · obtain ⟨hnot, hcurrent⟩ := h.unaccepted other hother hnew
      refine ⟨fun hid => hnot (hawaiting ▸ hid), fun o ho => ?_⟩
      rcases hold _ o ho with ho | ⟨hid, -, hundrawn, -⟩
      · exact hcurrent o ho
      · exact absurd (h.drawn _ (.inr (.inr ⟨other, List.mem_of_mem_drop hother, hid⟩))) hundrawn
    · rcases hkind with ⟨hkind, -⟩ | ⟨hundrawn, hcurrent⟩
      · exact absurd hnew hkind
      · refine ⟨fun hid => hundrawn (h.drawn _ (.inr (.inl (hawaiting ▸ hid)))), fun o ho => ?_⟩
        have heq : o = order := Option.some.inj (ho.symm.trans horder)
        rw [heq, hcurrent]
  · have hid' : id ∈ link.session.ledger.awaiting := hawaiting ▸ hid
    rcases hold id o ho with ho | ⟨rfl, -, hundrawn, -⟩
    · rcases hmem hother with hother | rfl
      · exact h.settled id hid' o ho other hother
      · exact fun heq => hfresh (heq ▸ h.current id o ho)
    · exact absurd (h.drawn _ (.inr (.inl hid'))) hundrawn
  · show clOrdId ∈ effects.session.usedClOrdIds
    rw [hused]
    exact .tail _ (h.known reply hreply clOrdId ha)
  · rcases hmem hother with hother | rfl
    · exact h.unanswered other hother reply hreply
    · by_contra ha
      exact hfresh (h.known reply hreply _ (Bool.not_eq_false _ ▸ ha))

theorem replies_process (iteration : SetOrder) (message : CoreMessage) (rest : List CoreMessage) :
    (link.process iteration message rest).replies =
      link.replies ++ (processCoreMessage iteration message link.session).2 := by
  rw [Link.replies, Link.process, List.flatMap_append, List.flatMap_singleton, Link.replies]

theorem quiet (h : link.Answerable next) {message : CoreMessage} (hanswer : message.answer = none)
    (iteration : SetOrder) (rest : List CoreMessage) :
    (link.process iteration message rest).Answerable next := by
  have hledger : (link.process iteration message rest).session.ledger =
      link.session.ledger.absorb message := ledger_processCoreMessage link.session iteration message
  have hused : (link.process iteration message rest).session.usedClOrdIds =
      link.session.usedClOrdIds := processCoreMessage_usedClOrdIds iteration message link.session
  obtain ⟨-, hidentity, hawaiting⟩ := @Ledger.absorb_of_no_answer link.session.ledger message hanswer
  rw [← hledger] at hidentity hawaiting
  have houtstanding : (link.process iteration message rest).outstanding = link.outstanding := by
    simp [Link.outstanding, Link.answers, Link.process, hanswer]
  have hnone : ∀ id, (link.process iteration message rest).session.ledger.orders id = none ↔
      link.session.ledger.orders id = none := by
    intro id
    rw [← @Option.map_eq_none_iff _ _ _ OrderState.identity, hidentity, Option.map_eq_none_iff]
  have hold : ∀ id order, (link.process iteration message rest).session.ledger.orders id =
      some order → ∃ order₀, link.session.ledger.orders id = some order₀ ∧
        order.numericOrderId = order₀.numericOrderId ∧
        order.currentClOrdId = order₀.currentClOrdId := by
    intro id order horder
    have hid := hidentity id
    rw [horder, Option.map_some] at hid
    obtain ⟨order₀, horder₀, heq⟩ := Option.map_eq_some_iff.mp hid.symm
    obtain ⟨-, heq⟩ := Prod.mk.inj heq
    obtain ⟨hkey, hcurrent⟩ := Prod.mk.inj heq
    exact ⟨order₀, horder₀, hkey.symm, hcurrent.symm⟩
  refine ⟨fun id order horder => ?_, fun id hid => ?_, ?_, ?_, fun id order horder => ?_,
    h.distinct, ?_, ?_, ?_, fun reply hreply clOrdId ha => ?_, ?_⟩
  · obtain ⟨order₀, horder₀, hkey, -⟩ := hold id order horder
    exact hkey.trans (h.keyed id order₀ horder₀)
  · refine h.drawn id (hid.imp (fun hid => ?_) (Or.imp_left fun hid => hawaiting hid))
    rwa [ne_eq, hnone] at hid
  · rw [houtstanding]
    intro request hmem
    rw [ne_eq, hnone]
    exact h.present request hmem
  · rw [hused]
    exact h.used
  · obtain ⟨order₀, horder₀, -, hcurrent⟩ := hold id order horder
    rw [hused, hcurrent]
    exact h.current id order₀ horder₀
  · rw [houtstanding]
    exact h.first
  · rw [houtstanding]
    intro request hmem hkind
    obtain ⟨hnot, hcurrent⟩ := h.unaccepted request hmem hkind
    refine ⟨fun hid => hnot (hawaiting hid), fun order horder => ?_⟩
    obtain ⟨order₀, horder₀, -, hsame⟩ := hold _ order horder
    exact hsame.trans (hcurrent order₀ horder₀)
  · rw [houtstanding]
    intro id hid order horder request hmem
    obtain ⟨order₀, horder₀, -, hsame⟩ := hold id order horder
    rw [hsame]
    exact h.settled id (hawaiting hid) order₀ horder₀ request hmem
  · rw [replies_process] at hreply
    rw [hused]
    rcases List.mem_append.mp hreply with hreply | hreply
    · exact h.known reply hreply clOrdId ha
    · obtain ⟨id, -, order, horder, rfl⟩ := replies_of_no_answer hanswer hreply ha
      exact h.current id order horder
  · rw [houtstanding, replies_process]
    intro request hmem reply hreply
    rcases List.mem_append.mp hreply with hreply | hreply
    · exact h.unanswered request hmem reply hreply
    · by_contra ha
      rw [Bool.not_eq_false] at ha
      obtain ⟨id, hid, order, horder, hcurrent⟩ := replies_of_no_answer hanswer hreply ha
      exact h.settled id hid order horder request hmem hcurrent.symm

end Link.Answerable

/-- What an answer does to its order, and that it does nothing to the others. -/
theorem Ledger.answer_effect {l : Ledger} {id : OrderId} (pending : PendingRequest) (success : Bool)
    {order : OrderState} (horder : l.orders id = some order) (hkey : order.numericOrderId = id) :
    (∀ i, i ≠ id → (l.answer id pending success order).orders i = l.orders i) ∧
    ((l.answer id pending success order).orders id = none ∧ pending.kind = .new ∧ success = false ∨
      ∃ order', (l.answer id pending success order).orders id = some order' ∧
        order'.numericOrderId = id ∧ (order'.currentClOrdId = order.currentClOrdId ∨
          order'.currentClOrdId = pending.clOrdId)) ∧
    ∀ i ∈ (l.answer id pending success order).awaiting,
      i ∈ l.awaiting ∨ i = id ∧ pending.kind = .new := by
  unfold Ledger.answer
  split
  · rename_i hkind
    refine ⟨fun i hi => Function.update_of_ne hi _ _, .inr ⟨_, Function.update_self _ _ _, hkey,
      .inl rfl⟩, fun i hi => ?_⟩
    rcases hi with hi | ⟨-, rfl⟩
    · exact .inl hi
    · exact .inr ⟨hkey, hkind⟩
  · rename_i hkind
    exact ⟨fun i hi => Function.update_of_ne hi _ _, .inl ⟨Function.update_self _ _ _, hkind, rfl⟩,
      fun i hi => .inl hi⟩
  · exact ⟨fun i hi => Function.update_of_ne hi _ _, .inr ⟨_, Function.update_self _ _ _, hkey,
      .inl rfl⟩, fun i hi => .inl hi⟩
  · exact ⟨fun i hi => Function.update_of_ne hi _ _, .inr ⟨_, Function.update_self _ _ _, hkey,
      .inr rfl⟩, fun i hi => .inl hi⟩
  · exact ⟨fun i hi => rfl, .inr ⟨order, horder, hkey, .inl rfl⟩, fun i hi => .inl hi⟩
  · exact ⟨fun i hi => rfl, .inr ⟨order, horder, hkey, .inl rfl⟩, fun i hi => .inl hi⟩

/-- No request waits behind a new order whose rejection is the message. -/
def Link.Unpipelined (message : CoreMessage) (link : Link) : Prop :=
  ∀ id pending rest, message.answer = some (id, false) →
    link.session.pendingFor id = pending :: rest → pending.kind = .new → rest = []

namespace Link.Answerable

variable {next : Nat} {link : Link} {handled : List (Frame × List Emission)}
  {sending : List Emission} {message : CoreMessage} {rest : List CoreMessage} {id : OrderId}
  {success : Bool}

/-- The later requests have other ClOrdIDs. -/
theorem distinct_later (h : link.Answerable next) {request : Request} {waiting : List Request}
    (houtstanding : link.outstanding = request :: waiting) {other : Request}
    (hother : other ∈ waiting) : other.pending.clOrdId ≠ request.pending.clOrdId := by
  have hsublist : (link.outstanding.map fun request => request.pending.clOrdId).Nodup :=
    h.distinct.sublist ((List.drop_sublist _ _).map _)
  rw [houtstanding, List.map_cons, List.nodup_cons] at hsublist
  exact fun heq => hsublist.1 (List.mem_map.mpr ⟨other, hother, heq⟩)

theorem answered (h : link.Answerable next) (hmatched : link.Matched handled sending)
    (hnext : link.toGateway = message :: rest) (hanswer : message.answer = some (id, success))
    (hunpipelined : link.Unpipelined message) (iteration : SetOrder) :
    (link.process iteration message rest).Answerable next ∧
    ∃ request order, link.requests[link.answers.length]? = some request ∧ request.orderId = id ∧
      (link.process iteration message rest).replies =
        link.replies ++ [answerReply request.pending success order] ∧
      (link.process iteration message rest).replies.countP
        (Reply.answersTo request.pending.clOrdId) = 1 := by
  obtain ⟨request, emissions, hat, -, -, hid, hdrop, hpending⟩ := hmatched.answered hnext hanswer
  have hlength : (link.process iteration message rest).answers.length = link.answers.length + 1 := by
    simp [Link.answers, Link.process, hanswer]
  have hwaiting : (link.process iteration message rest).outstanding =
      link.requests.drop (link.answers.length + 1) := by
    rw [Link.outstanding, hlength]
    rfl
  rw [← hwaiting] at hdrop hpending
  have houtstanding : link.outstanding =
    request :: (link.process iteration message rest).outstanding := hdrop
  generalize hwaits : (link.process iteration message rest).outstanding = waiting
    at hpending houtstanding
  have hmem : request ∈ link.outstanding := by
    rw [houtstanding]
    exact .head _
  have hlater : ∀ {other}, other ∈ waiting → other ∈ link.outstanding := by
    intro other hother
    rw [houtstanding]
    exact .tail _ hother
  obtain ⟨order, horder⟩ := Option.ne_none_iff_exists'.mp (hid ▸ h.present request hmem)
  have hreplies : (link.process iteration message rest).replies =
      link.replies ++ [answerReply request.pending success order] := by
    rw [replies_process, replies_of_answer hanswer, Ledger.responseReplies, hpending]
    simp only [horder, Option.toList_some, List.map_cons, List.map_nil]
  have hledger : (link.process iteration message rest).session.ledger =
      (link.session.ledger.setPending id (entriesOf id waiting)).answer id request.pending success
        order := by
    have habsorb := ledger_processCoreMessage link.session iteration message
    rw [Ledger.absorb_of_answer hanswer, Ledger.respond, hpending] at habsorb
    simp only [horder] at habsorb
    exact habsorb
  have hused : (link.process iteration message rest).session.usedClOrdIds =
      link.session.usedClOrdIds := processCoreMessage_usedClOrdIds iteration message link.session
  obtain ⟨hothers, hself, hawaiting⟩ := @Ledger.answer_effect
    (link.session.ledger.setPending id (entriesOf id waiting)) id request.pending success order horder
    (h.keyed id order horder)
  rw [← hledger] at hothers hself hawaiting
  -- an order that is gone was rejected, and then nothing waits behind it
  have hpresent : ∀ other ∈ waiting,
      (link.process iteration message rest).session.ledger.orders other.orderId ≠ none := by
    intro other hother
    by_cases hsame : other.orderId = id
    · rw [hsame]
      rcases hself with ⟨-, hnew, hrejected⟩ | ⟨order', horder', -⟩
      · have hnil := hunpipelined id request.pending _ (hrejected ▸ hanswer) hpending hnew
        have hentry : other.pending ∈ entriesOf id waiting :=
          List.mem_map_of_mem (List.mem_filter.mpr ⟨hother, decide_eq_true hsame⟩)
        rw [hnil] at hentry
        cases hentry
      · rw [horder']
        exact Option.some_ne_none _
    · rw [hothers _ hsame]
      exact h.present other (hlater hother)
  have hfirst : ∀ i, ∀ pending ∈ entriesOf i waiting, i = id → pending.kind ≠ .new := by
    rintro i pending hentry rfl
    refine h.first i pending ?_
    rw [houtstanding, entriesOf_cons, if_pos hid, List.tail_cons]
    exact hentry
  have hcurrent : ∀ order', (link.process iteration message rest).session.ledger.orders id =
      some order' → order'.currentClOrdId = order.currentClOrdId ∨
        order'.currentClOrdId = request.pending.clOrdId := by
    intro order' horder'
    rcases hself with ⟨hnone, -⟩ | ⟨order₁, horder₁, -, hcurrent⟩
    · rw [hnone] at horder'
      cases horder'
    · rw [horder'] at horder₁
      cases horder₁
      exact hcurrent
  refine ⟨⟨fun i o ho => ?_, fun i hi => ?_, ?_, ?_, fun i o ho => ?_, h.distinct, ?_, ?_, ?_, ?_, ?_⟩,
    request, order, hat, hid, hreplies, ?_⟩
  · by_cases hsame : i = id
    · subst hsame
      rcases hself with ⟨hnone, -⟩ | ⟨order', horder', hkey, -⟩
      · rw [hnone] at ho
        cases ho
      · rw [horder'] at ho
        cases ho
        exact hkey
    · exact h.keyed i o (hothers i hsame ▸ ho)
  · by_cases hsame : i = id
    · exact hsame ▸ h.drawn id (.inl (by rw [horder]; exact Option.some_ne_none _))
    · refine h.drawn i (hi.imp (fun hi => hothers i hsame ▸ hi) (Or.imp_left fun hi => ?_))
      exact (hawaiting i hi).resolve_right fun heq => hsame heq.1
  · rw [hwaits]
    exact hpresent
  · rw [hused]
    exact h.used
  · rw [hused]
    by_cases hsame : i = id
    · subst hsame
      rcases hcurrent o ho with heq | heq
      · rw [heq]
        exact h.current i order horder
      · rw [heq]
        exact h.used request (List.mem_of_mem_drop hmem)
    · exact h.current i o (hothers i hsame ▸ ho)
  · rw [hwaits]
    intro i pending hentry
    by_cases hsame : i = id
    · exact hfirst i pending (List.mem_of_mem_tail hentry) hsame
    · refine h.first i pending ?_
      rw [houtstanding, entriesOf_cons, if_neg (fun heq => hsame (heq.symm.trans hid))]
      exact hentry
  · rw [hwaits]
    intro other hother hnew
    have hne : other.orderId ≠ id := by
      intro hsame
      exact hfirst id other.pending
        (List.mem_map_of_mem (List.mem_filter.mpr ⟨hother, decide_eq_true hsame⟩)) rfl hnew
    obtain ⟨hnot, hcame⟩ := h.unaccepted other (hlater hother) hnew
    refine ⟨fun hi => hnot ((hawaiting _ hi).resolve_right fun heq => hne heq.1), fun o ho => ?_⟩
    exact hcame o (hothers _ hne ▸ ho)
  · rw [hwaits]
    intro i hi o ho other hother
    by_cases hsame : i = id
    · subst hsame
      have hother' := h.distinct_later houtstanding hother
      rcases hcurrent o ho with heq | heq
      · rw [heq]
        rcases hawaiting i hi with hi | ⟨-, hnew⟩
        · exact h.settled i hi order horder other (hlater hother)
        · rw [(h.unaccepted request hmem hnew).2 order (hid ▸ horder)]
          exact hother'
      · rw [heq]
        exact hother'
    · exact h.settled i ((hawaiting i hi).resolve_right fun heq => hsame heq.1) o
        (hothers i hsame ▸ ho) other (hlater hother)
  · rw [hreplies, hused]
    intro reply hreply clOrdId ha
    rcases List.mem_append.mp hreply with hreply | hreply
    · exact h.known reply hreply clOrdId ha
    · rw [List.mem_singleton.mp hreply, answerReply_answersTo, decide_eq_true_eq] at ha
      exact ha ▸ h.used request (List.mem_of_mem_drop hmem)
  · rw [hwaits, hreplies]
    intro other hother reply hreply
    rcases List.mem_append.mp hreply with hreply | hreply
    · exact h.unanswered other (hlater hother) reply hreply
    · rw [List.mem_singleton.mp hreply, answerReply_answersTo, decide_eq_false_iff_not]
      exact (h.distinct_later houtstanding hother).symm
  · have hnone : link.replies.countP (Reply.answersTo request.pending.clOrdId) = 0 :=
      List.countP_eq_zero.mpr fun reply hreply => by
        rw [h.unanswered request hmem reply hreply]
        exact Bool.false_ne_true
    rw [hreplies, List.countP_append, hnone, List.countP_singleton, answerReply_answersTo]
    simp

end Link.Answerable

/-! ## Every run -/

namespace Link.Answerable

variable {next next' : Nat} {link link' : Link}

theorem mono (h : link.Answerable next) (hle : next ≤ next') : link.Answerable next' :=
  { h with drawn := fun id hid => Nat.lt_of_lt_of_le (h.drawn id hid) hle }

theorem congr (h : link.Answerable next) (hsame : link'.SameSession link) :
    link'.Answerable next := by
  obtain ⟨session, toCore, toGateway, requests, received⟩ := link'
  obtain ⟨rfl, rfl, rfl⟩ := hsame
  exact ⟨h.keyed, h.drawn, h.present, h.used, h.current, h.distinct, h.first, h.unaccepted,
    h.settled, h.known, h.unanswered⟩

theorem client (h : link.Answerable next) (hsent : link.answers.length ≤ link.requests.length)
    (hcounter : next < 2 ^ 64) {surroundings : Surroundings} {message : Message} {effects : Effects}
    (heffect : ClientEffect surroundings next message link.session effects) :
    (link.forward effects).Answerable effects.nextNumericOrderId := by
  have hdrawn : ∀ id, id.toNat < next → id ≠ UInt64.ofNat next := by
    rintro id hid rfl
    rw [UInt64.toNat_ofNat_of_lt' hcounter] at hid
    exact Nat.lt_irrefl _ hid
  cases heffect with
  | kept hledger hused hnext =>
    refine h.kept hnext rfl (by rw [hledger]) (fun id order ho => ?_) (fun id _ => ?_) hused
    · rwa [hledger] at ho
    · rw [hledger]
  | unsent _ hledger hused =>
    refine h.kept (Nat.le_succ _) rfl (by rw [hledger]; rfl) (fun id order ho => ?_)
      (fun id hid => ?_) hused
    · rw [hledger] at ho
      simp only [Ledger.eraseOrder, Function.update_apply] at ho
      split at ho
      · cases ho
      · exact ho
    · rw [hledger]
      exact Function.update_of_ne (hdrawn id hid) _ _
  | @placed session' translated htranslated hfresh hused hledger =>
    have hid := (translateNewOrderSingle_ok htranslated).orderId
    have hundrawn : ¬translated.request.orderId.toNat < next := fun hlt => hdrawn _ hlt hid
    have habsent : link.session.ledger.orders translated.request.orderId = none := by
      by_contra hsome
      exact hundrawn (h.drawn _ (.inl hsome))
    have hplaced : session'.ledger.orders translated.request.orderId = some translated.order := by
      rw [hledger, Ledger.place_absent _ habsent]
      exact Function.update_self _ _ _
    refine h.push hsent rfl hfresh hused (by rw [hledger]; rfl) (fun id hne => ?_) (Nat.le_succ _) ?_
      hplaced rfl (.inr ⟨hundrawn, rfl⟩)
    · rw [hledger]
      exact Function.update_of_ne hne _ _
    · show translated.request.orderId.toNat < _
      rw [hid, UInt64.toNat_ofNat_of_lt' hcounter]
      exact Nat.lt_succ_self _
  | @cancelled session' clOrdId origClOrdId id order hfound _ hfresh hused hledger =>
    have horder : session'.ledger.orders id = some order := by
      rw [hledger]
      exact hfound
    exact h.push hsent rfl hfresh hused (by rw [hledger]; rfl) (fun _ _ => by rw [hledger]; rfl)
      (Nat.le_refl _) (h.drawn id (.inl (by rw [hfound]; exact Option.some_ne_none _))) horder
      (h.keyed id order hfound) (.inl ⟨fun hkind => (by cases hkind), hfound⟩)
  | @replaced session' clOrdId origClOrdId id order total price hfound _ _ _ _ _ hfresh hused hledger =>
    have hkey := h.keyed id order hfound
    have horder : session'.ledger.orders order.numericOrderId = some order := by
      rw [hledger, hkey]
      exact hfound
    have hdrawn := h.drawn id (.inl (by rw [hfound]; exact Option.some_ne_none _))
    exact h.push hsent rfl hfresh hused (by rw [hledger]; rfl) (fun _ _ => by rw [hledger]; rfl)
      (Nat.le_refl _) (hkey.symm ▸ hdrawn) horder rfl
      (.inl ⟨fun hkind => (by cases hkind), hkey.symm ▸ hfound⟩)

end Link.Answerable

namespace Bridge

/-- No request waits behind a new order whose rejection a session processes. -/
def Unpipelined (s : Bridge) : Label → Prop
  | .deliver socket message => ∀ link, s.links socket = some link → link.Unpipelined message
  | _ => True

def UnpipelinedStep (config : FixGatewayConfig) (s : Bridge) (label : Label) (s' : Bridge) : Prop :=
  Step config s label s' ∧ s.Unpipelined label

def Answerable (s : Bridge) : Prop :=
  ∀ socket link, s.links socket = some link → link.Answerable s.nextNumericOrderId

variable {config : FixGatewayConfig} {limits : RiskLimits} {file : Option (Option Bytes)}
  {server₀ : ExchangeServer} {labels : List Label} {label : Label} {s s' : Bridge}

theorem Step.answerable (h : s.Answerable) (hmatched : s.Matched labels)
    (hstep : Step config s label s') (hunpipelined : s.Unpipelined label) : s'.Answerable := by
  intro socket link' hlink'
  have hle := hstep.nextNumericOrderId_le
  rcases hstep.link_cases hlink' with ⟨link, hlink, hsame, -⟩ | ⟨-, rfl⟩ |
    ⟨link, surroundings, message, hlink, -, hcounter, hnext, rfl⟩ |
    ⟨link, message, rest, iteration, hlink, hnext, rfl, rfl⟩
  · exact ((h socket link hlink).congr hsame).mono hle
  · exact .start _
  · rw [hnext]
    exact (h socket link hlink).client (hmatched.links socket link hlink).answers_le hcounter
      processFixMessage_effect
  · have hlinkAnswerable := h socket link hlink
    refine Link.Answerable.mono ?_ hle
    cases hanswer : message.answer with
    | none => exact hlinkAnswerable.quiet hanswer iteration rest
    | some answer =>
      exact (hlinkAnswerable.answered (hmatched.links socket link hlink) hnext hanswer
        (hunpipelined link hlink) iteration).1

theorem answerable_run (hstart : start limits file = some server₀)
    (hrun : Run (UnpipelinedStep config) (starting server₀) labels s) : s.Answerable := by
  refine hrun.history (P := fun _ s => s.Answerable) (fun _ _ hlink => by cases hlink) ?_
  intro labels s₁ label s₂ hrun h ⟨hstep, hunpipelined⟩
  exact hstep.answerable h (matched_run hstart (hrun.mono fun _ _ _ h => h.1)) hunpipelined

end Bridge

/-- The response that a session processes is passed on as one answer to the request it belongs to, the
only one that the client has got for that request. -/
def Bridge.AnsweredOnce (s : Bridge) (socket : Socket) (id : OrderId) (success : Bool)
    (s' : Bridge) : Prop :=
  ∃ link link' request order, s.links socket = some link ∧ s'.links socket = some link' ∧
    link.requests[link.answers.length]? = some request ∧ request.orderId = id ∧
    link'.replies = link.replies ++ [answerReply request.pending success order] ∧
    link'.replies.countP (Reply.answersTo request.pending.clOrdId) = 1

/-- That is so in every run in which no rejection of a new order is processed with requests waiting
behind it. -/
theorem forwarded_answered {config : FixGatewayConfig} {limits : RiskLimits}
    {file : Option (Option Bytes)} {server₀ : ExchangeServer} {labels : List Bridge.Label}
    {s s' : Bridge} (hstart : start limits file = some server₀)
    (hrun : Run (Bridge.UnpipelinedStep config) (.starting server₀) labels s) {socket : Socket}
    {message : CoreMessage} (hstep : Bridge.UnpipelinedStep config s (.deliver socket message) s')
    {id : OrderId} {success : Bool} (hanswer : message.answer = some (id, success)) :
    s.AnsweredOnce socket id success s' := by
  have hmatched := Bridge.matched_run hstart (hrun.mono fun _ _ _ h => h.1)
  have hanswerable := Bridge.answerable_run hstart hrun
  obtain ⟨hstep, hunpipelined⟩ := hstep
  cases hstep with
  | @deliver _ link _ rest iteration hlink hnext =>
    obtain ⟨-, request, order, hat, hid, hreplies, hcount⟩ :=
      (hanswerable socket link hlink).answered (hmatched.links socket link hlink) hnext hanswer
        (hunpipelined link hlink) iteration
    exact ⟨link, _, request, order, hlink, Function.update_self _ _ _, hat, hid, hreplies, hcount⟩

/-- An order and a cancel behind it: the acceptance of the order is passed on. -/
theorem forwarded_answered_pipelined :
    ∃ labels s message s', Run (Bridge.UnpipelinedStep {})
        (.starting { riskEngine := { limits := {} } }) labels s ∧
      Bridge.UnpipelinedStep {} s (.deliver 4 message) s' ∧ s.AnsweredOnce 4 (2 ^ 62) true s' := by
  have hpipelined : ((Bridge.performAll {} Bridge.pipelinedMoves
      (.starting { riskEngine := { limits := {} } })).any fun s => (s.links 4).any fun link =>
        link.toGateway.head?.any fun message => message.answer = some (2 ^ 62, true)) = true := by
    decide +kernel
  have hstart : start {} none = some { riskEngine := { limits := {} } } := rfl
  have hallowed : ∀ (s : Bridge) (label : Bridge.Label), label.isDelivery = false →
      s.Unpipelined label := by
    intro s label hlabel
    cases label with
    | deliver => cases hlabel
    | core | accept | client => trivial
  obtain ⟨labels, s, hrun, hfinal⟩ :=
    Bridge.performAll_undelivered hstart hallowed rfl hpipelined
  obtain ⟨link, hlink, hhead⟩ := (Option.any_eq_true _ _).mp hfinal
  obtain ⟨message, hmessage, hanswer⟩ := (Option.any_eq_true _ _).mp hhead
  rw [decide_eq_true_eq] at hanswer
  obtain ⟨messages, hnext⟩ := List.head?_eq_some_iff.mp hmessage
  have hstep : Bridge.UnpipelinedStep {} s (.deliver 4 message) _ :=
    ⟨.deliver .dedup hlink hnext, fun _ _ _ _ _ hrejected => by
      rw [hanswer] at hrejected
      exact Bool.noConfusion (congrArg Prod.snd (Option.some.inj hrejected))⟩
  exact ⟨labels, s, message, _, hrun, hstep, forwarded_answered hstart hrun hstep hanswer⟩

/-- A cancel is sent behind an order that the risk engine rejects for its quantity. -/
def Bridge.rejectedMoves : List Bridge.Move :=
  [.accept 4, .client 4 .reachable .logon, .connect 4,
    .client 4 .reachable (.newOrderSingle "2" "a" "1" "200000" "10" "1"),
    .client 4 .reachable (.orderCancelRequest "3" "b" "a"),
    .request 4, .send 4, .request 4, .send 4, .deliver 4]

/-- The rejection of the order is passed on, and that of the cancel is not. -/
theorem pipelined_unanswered :
    ¬ ∀ (config : FixGatewayConfig) (limits : RiskLimits) (file : Option (Option Bytes))
      (server₀ : ExchangeServer) (labels : List Bridge.Label) (s s' : Bridge) (socket : Socket)
      (message : CoreMessage) (id : OrderId) (success : Bool),
      start limits file = some server₀ → Run (Bridge.Step config) (.starting server₀) labels s →
      Bridge.Step config s (.deliver socket message) s' → message.answer = some (id, success) →
      s.AnsweredOnce socket id success s' := by
  intro hall
  have hrejected : ((Bridge.performAll {} Bridge.rejectedMoves
      (.starting { riskEngine := { limits := {} } })).any fun s => (s.links 4).any fun link =>
        link.toGateway.head?.any fun message => message.answer = some (2 ^ 62, false) &&
          (processCoreMessage .dedup message link.session).2 = []) = true := by
    decide +kernel
  have hstart : start {} none = some { riskEngine := { limits := {} } } := rfl
  obtain ⟨labels, s, hrun, hfinal⟩ := Bridge.performAll_any hstart hrejected
  obtain ⟨link, hlink, hhead⟩ := (Option.any_eq_true _ _).mp hfinal
  obtain ⟨message, hmessage, hfinal⟩ := (Option.any_eq_true _ _).mp hhead
  rw [Bool.and_eq_true, decide_eq_true_eq, decide_eq_true_eq] at hfinal
  obtain ⟨hanswer, hsilent⟩ := hfinal
  obtain ⟨messages, hnext⟩ := List.head?_eq_some_iff.mp hmessage
  obtain ⟨link₁, link', request, order, hlink₁, hlink', -, -, hreplies, -⟩ :=
    hall _ _ _ _ _ _ _ _ _ _ _ hstart hrun (.deliver .dedup hlink hnext) hanswer
  rw [hlink] at hlink₁
  cases hlink₁
  have hself : some (link.process .dedup message messages) = some link' :=
    (Bridge.links_setLink 4 _ s).symm.trans hlink'
  cases hself
  rw [Link.Answerable.replies_process, hsilent] at hreplies
  exact absurd (List.append_cancel_left hreplies).symm (List.cons_ne_nil _ _)

end ExchangeLab

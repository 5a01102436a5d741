import ExchangeLab.Gateway.Pending

/-!
# ExchangeLab.Gateway.Placing

The orders that a FIX session places: their ids are drawn from the gateway's counter, each is sent
once, and the session forgets one only when the core has rejected it.

* `Link.Placing`: what a session's requests and orders say of the ids it has placed.
* `Link.Placing.client`, `Link.Placing.deliver`: messages of the client and of the core keep it.
* `Link.Accepted.present`: an order that the core accepted is there for the session as long as it is.
-/

namespace ExchangeLab

open Wire Protocol Container ExchangeServer ExchangeLab.Fix FixGateway FixBridge Transition

def CoreRequest.placedId : CoreRequest → Option OrderId
  | .newOrder request => some request.orderId
  | .cancelOrder _ => none
  | .replaceOrder _ => none

/-- The ids of the new orders that were sent. -/
def Link.placed (link : Link) : List OrderId :=
  link.requests.filterMap fun request => request.core.placedId

theorem CoreRequest.placedId_of_kind {core : CoreRequest} (h : core.kind = .new) :
    core.placedId = some core.orderId := by
  cases core with
  | newOrder => rfl
  | cancelOrder | replaceOrder => cases h

/-- The session was told that the core rejects the new order. -/
def Link.Refused (link : Link) (id : OrderId) : Prop :=
  ∃ (i : Nat) (request : Request), link.requests[i]? = some request ∧
    request.core.placedId = some id ∧ link.answers[i]? = some (id, false)

structure Link.Placing (next : Nat) (link : Link) : Prop where
  drawn : ∀ id ∈ link.placed, 2 ^ 62 ≤ id.toNat ∧ id.toNat < next
  once : link.placed.Nodup
  requests : ∀ request ∈ link.requests, request.orderId ∈ link.placed
  orders : ∀ id order, link.session.ledger.orders id = some order →
    id ∈ link.placed ∧ order.numericOrderId = id
  kept : ∀ id ∈ link.placed, link.session.ledger.orders id = none → link.Refused id

/-! ## The ledger -/

namespace Ledger

/-- An answer makes an order absent only if it rejects it as a new one. -/
theorem answer_absent {l : Ledger} {id i : OrderId} {pending : PendingRequest} {success : Bool}
    {order : OrderState} (hpresent : l.orders i ≠ none)
    (h : (l.answer id pending success order).orders i = none) :
    i = id ∧ pending.kind = .new ∧ success = false := by
  have hset : ∀ order', (l.setOrder id order').orders i ≠ none := by
    intro order'
    simp only [Ledger.setOrder, Function.update_apply]
    split
    · exact Option.some_ne_none _
    · exact hpresent
  unfold Ledger.answer at h
  split at h
  · exact absurd h (hset _)
  · rename_i hkind
    simp only [Function.update_apply] at h
    split at h
    · rename_i hi
      exact ⟨hi, hkind, rfl⟩
    · exact absurd h hpresent
  · exact absurd h (hset _)
  · exact absurd h (hset _)
  · exact absurd h hpresent
  · exact absurd h hpresent

theorem absorb_absent {l : Ledger} {message : CoreMessage} {i : OrderId}
    (hpresent : l.orders i ≠ none) (h : (l.absorb message).orders i = none) :
    ∃ pending rest, message.answer = some (i, false) ∧ l.pending i = pending :: rest ∧
      pending.kind = .new := by
  cases hanswer : message.answer with
  | none =>
    have hidentity := (absorb_of_no_answer (l := l) hanswer).2.1 i
    rw [h, Option.map_none] at hidentity
    exact absurd (Option.map_eq_none_iff.mp hidentity.symm) hpresent
  | some answer =>
    obtain ⟨id, success⟩ := answer
    rw [absorb_of_answer hanswer] at h
    unfold Ledger.respond at h
    split at h
    · exact absurd h hpresent
    · rename_i pending rest hpending
      split at h
      · exact absurd h hpresent
      · obtain ⟨rfl, hkind, rfl⟩ := answer_absent (l := l.setPending id rest) hpresent h
        exact ⟨pending, rest, rfl, hpending, hkind⟩

end Ledger

/-! ## One link -/

theorem Link.SameSession.placed {link link' : Link} (h : link'.SameSession link) :
    link'.placed = link.placed := by
  rw [Link.placed, h.2.1, Link.placed]

theorem Link.SameSession.answers {link link' : Link} (h : link'.SameSession link) :
    link'.answers = link.answers := by
  rw [Link.answers, h.2.2, Link.answers]

theorem Link.placed_forward (link : Link) (effects : Effects) :
    (link.forward effects).placed =
      link.placed ++ effects.request.toList.filterMap fun request => request.core.placedId :=
  List.filterMap_append

theorem Link.mem_placed {link : Link} {request : Request} {id : OrderId}
    (hmem : request ∈ link.requests) (hid : request.core.placedId = some id) : id ∈ link.placed :=
  List.mem_filterMap.mpr ⟨request, hmem, hid⟩

/-- Only one request places an order. -/
theorem Link.placed_at {link : Link} (honce : link.placed.Nodup) {i j : Nat}
    {request other : Request} {id : OrderId} (hi : link.requests[i]? = some request)
    (hj : link.requests[j]? = some other) (hplaced : request.core.placedId = some id)
    (hother : other.core.placedId = some id) : i = j := by
  obtain ⟨hilt, rfl⟩ := List.getElem?_eq_some_iff.mp hi
  obtain ⟨hjlt, rfl⟩ := List.getElem?_eq_some_iff.mp hj
  have hdistinct := List.pairwise_iff_getElem.mp (List.pairwise_filterMap.mp honce)
  rcases Nat.lt_trichotomy i j with hlt | heq | hlt
  · exact absurd rfl (hdistinct i j hilt hjlt hlt id hplaced id hother)
  · exact heq
  · exact absurd rfl (hdistinct j i hjlt hilt hlt id hother id hplaced)

namespace Link.Placing

variable {next next' : Nat} {link link' : Link}

theorem start (seconds : UInt32) :
    Link.Placing next { session := { heartbeatSeconds := seconds } } where
  drawn _ hid := by cases hid
  once := .nil
  requests _ hmem := by cases hmem
  orders _ _ horder := by cases horder
  kept _ hid := by cases hid

theorem mono (h : link.Placing next) (hle : next ≤ next') : link.Placing next' :=
  ⟨fun id hid => ⟨(h.drawn id hid).1, Nat.lt_of_lt_of_le (h.drawn id hid).2 hle⟩, h.once,
    h.requests, h.orders, h.kept⟩

/-- The id that is next has not been placed. -/
theorem undrawn (h : link.Placing next) (hcounter : next < 2 ^ 64) :
    UInt64.ofNat next ∉ link.placed := fun hmem => by
  have hlt := (h.drawn _ hmem).2
  rw [UInt64.toNat_ofNat_of_lt' hcounter] at hlt
  exact Nat.lt_irrefl next hlt

theorem congr (h : link.Placing next) (hsame : link'.SameSession link) : link'.Placing next := by
  have hrefused : ∀ id, link.Refused id → link'.Refused id := by
    rintro id ⟨i, request, hi, hplaced, hanswer⟩
    exact ⟨i, request, hsame.2.1 ▸ hi, hplaced, hsame.answers ▸ hanswer⟩
  refine ⟨?_, ?_, ?_, ?_, ?_⟩
  · rw [hsame.placed]
    exact h.drawn
  · rw [hsame.placed]
    exact h.once
  · rw [hsame.placed, hsame.2.1]
    exact h.requests
  · rw [hsame.placed, hsame.1]
    exact h.orders
  · rw [hsame.placed, hsame.1]
    exact fun id hid hnone => hrefused id (h.kept id hid hnone)

theorem refused_forward {effects : Effects} {id : OrderId} (h : link.Refused id) :
    (link.forward effects).Refused id := by
  obtain ⟨i, request, hi, hplaced, hanswer⟩ := h
  exact ⟨i, request, (List.getElem?_append_left (List.getElem?_eq_some_iff.mp hi).1).trans hi, hplaced, hanswer⟩

/-- A message of the client that places no order. It may take back one that was not sent. -/
theorem kept_forward (h : link.Placing next) {effects : Effects} (hle : next ≤ next')
    (hplaced : effects.request.toList.filterMap (fun request => request.core.placedId) = [])
    (hrequests : ∀ request ∈ effects.request, request.orderId ∈ link.placed)
    (horders : ∀ id order, effects.session.ledger.orders id = some order →
      link.session.ledger.orders id = some order)
    (hkept : ∀ id ∈ link.placed,
      effects.session.ledger.orders id = link.session.ledger.orders id) :
    (link.forward effects).Placing next' := by
  have hsame : (link.forward effects).placed = link.placed := by
    rw [Link.placed_forward, hplaced, List.append_nil]
  have hmono := h.mono hle
  refine ⟨?_, ?_, ?_, ?_, ?_⟩
  · rw [hsame]
    exact hmono.drawn
  · rw [hsame]
    exact h.once
  · rw [hsame]
    intro request hmem
    rcases List.mem_append.mp hmem with hmem | hmem
    · exact h.requests request hmem
    · exact hrequests request (Option.mem_toList.mp hmem)
  · rw [hsame]
    exact fun id order horder => h.orders id order (horders id order horder)
  · rw [hsame]
    intro id hid hnone
    exact refused_forward (h.kept id hid ((hkept id hid).symm.trans hnone))

/-- A message of the client that places an order, under the id that was next. -/
theorem place_forward (h : link.Placing next) (hleast : 2 ^ 62 ≤ next) {effects : Effects}
    {request : Request} {order : OrderState} (hrequest : effects.request = some request)
    (hid : request.core.placedId = some request.orderId) (hnext : request.orderId.toNat = next)
    (hkey : order.numericOrderId = request.orderId)
    (horders : effects.session.ledger.orders =
      (link.session.ledger.place request.orderId order).orders) :
    (link.forward effects).Placing (next + 1) := by
  have hplaced : (link.forward effects).placed = link.placed ++ [request.orderId] := by
    simp only [Link.placed_forward, hrequest, Option.toList_some, List.filterMap_cons, hid,
      List.filterMap_nil]
  have hfresh : request.orderId ∉ link.placed := fun hmem =>
    absurd (h.drawn _ hmem).2 (by rw [hnext]; exact Nat.lt_irrefl _)
  have hat : ∀ id, effects.session.ledger.orders id =
      if id = request.orderId then some ((link.session.ledger.orders request.orderId).getD order)
      else link.session.ledger.orders id := by
    intro id
    rw [horders]
    exact Function.update_apply ..
  refine ⟨?_, ?_, ?_, ?_, ?_⟩
  · rw [hplaced]
    intro id hmem
    rcases List.mem_append.mp hmem with hmem | hmem
    · exact (h.mono (Nat.le_succ next)).drawn id hmem
    · rw [List.mem_singleton.mp hmem, hnext]
      exact ⟨hleast, Nat.lt_succ_self next⟩
  · rw [hplaced]
    exact h.once.append (List.nodup_singleton _) fun id hmem hnew =>
      hfresh (List.mem_singleton.mp hnew ▸ hmem)
  · rw [hplaced]
    intro other hmem
    rcases List.mem_append.mp hmem with hmem | hmem
    · exact List.mem_append_left _ (h.requests other hmem)
    · have hother : request = other :=
        Option.some.inj (hrequest.symm.trans (Option.mem_toList.mp hmem))
      exact List.mem_append_right _ (hother ▸ .head _)
  · rw [hplaced]
    intro id other hother
    have hold : ∀ order', link.session.ledger.orders request.orderId = some order' → False :=
      fun order' horder' => hfresh (h.orders _ _ horder').1
    have hother : effects.session.ledger.orders id = some other := hother
    rw [hat] at hother
    split at hother
    · rename_i hnew
      cases habsent : link.session.ledger.orders request.orderId with
      | some order' => exact (hold order' habsent).elim
      | none =>
        rw [habsent] at hother
        cases hother
        exact ⟨List.mem_append_right _ (List.mem_singleton.mpr hnew), hkey.trans hnew.symm⟩
    · obtain ⟨hmem, hother⟩ := h.orders id other hother
      exact ⟨List.mem_append_left _ hmem, hother⟩
  · rw [hplaced]
    intro id hmem hnone
    have hnone : effects.session.ledger.orders id = none := hnone
    rw [hat] at hnone
    split at hnone
    · cases hnone
    · rename_i hne
      rcases List.mem_append.mp hmem with hmem | hmem
      · exact refused_forward (h.kept id hmem hnone)
      · exact absurd (List.mem_singleton.mp hmem) hne

/-- A message of the client; it places at most the id that was next. -/
theorem client (h : link.Placing next) (hleast : 2 ^ 62 ≤ next) (hcounter : next < 2 ^ 64)
    {surroundings : Surroundings} {message : Message} {effects : Effects}
    (heffect : ClientEffect surroundings next message link.session effects) :
    (link.forward effects).Placing effects.nextNumericOrderId ∧
      ∀ id ∈ (link.forward effects).placed, id ∈ link.placed ∨
        id.toNat = next ∧ effects.nextNumericOrderId = next + 1 := by
  have hold : ∀ effects : Effects,
      effects.request.toList.filterMap (fun request => request.core.placedId) = [] →
      ∀ id ∈ (link.forward effects).placed, id ∈ link.placed := by
    intro effects hnone id hmem
    rwa [Link.placed_forward, hnone, List.append_nil] at hmem
  have hnext : (UInt64.ofNat next).toNat = next := UInt64.toNat_ofNat_of_lt' hcounter
  cases heffect with
  | kept hledger _ hle =>
    refine ⟨h.kept_forward hle rfl (fun _ hmem => by cases hmem) ?_ ?_,
      fun id hmem => .inl (hold _ rfl id hmem)⟩
    · exact fun id order horder => (congrFun (congrArg Ledger.orders hledger) id).symm.trans horder
    · exact fun id _ => congrFun (congrArg Ledger.orders hledger) id
  | unsent _ hledger =>
    refine ⟨h.kept_forward (Nat.le_succ next) rfl (fun _ hmem => by cases hmem) ?_ ?_,
      fun id hmem => .inl (hold _ rfl id hmem)⟩
    · simp only [hledger, Ledger.eraseOrder, Function.update_apply]
      intro id order horder
      split at horder
      · cases horder
      · exact horder
    · simp only [hledger, Ledger.eraseOrder, Function.update_apply]
      intro id hmem
      refine if_neg fun heq => h.undrawn hcounter ?_
      rwa [← heq]
  | @placed session' translated htranslated _ _ hledger =>
    have hid : translated.request.orderId.toNat = next := by
      rw [(translateNewOrderSingle_ok htranslated).orderId, hnext]
    have hkey : translated.order.numericOrderId = translated.request.orderId := rfl
    have horders := congrArg Ledger.orders hledger
    refine ⟨h.place_forward hleast rfl rfl hid hkey horders, fun id hmem => ?_⟩
    rw [Link.placed_forward] at hmem
    rcases List.mem_append.mp hmem with hmem | hmem
    · exact .inl hmem
    · have hnew : id = translated.request.orderId := List.mem_singleton.mp hmem
      exact .inr ⟨hnew ▸ hid, rfl⟩
  | cancelled hfound _ _ _ hledger =>
    refine ⟨h.kept_forward (Nat.le_refl _) rfl ?_ ?_ ?_,
      fun id hmem => .inl (hold _ rfl id hmem)⟩
    · rintro _ ⟨⟩
      exact (h.orders _ _ hfound).1
    · exact fun id order horder => (congrFun (congrArg Ledger.orders hledger) id).symm.trans horder
    · exact fun id _ => congrFun (congrArg Ledger.orders hledger) id
  | replaced hfound _ _ _ _ _ _ _ hledger =>
    refine ⟨h.kept_forward (Nat.le_refl _) rfl ?_ ?_ ?_,
      fun id hmem => .inl (hold _ rfl id hmem)⟩
    · rintro _ ⟨⟩
      obtain ⟨hmem, hkey⟩ := h.orders _ _ hfound
      exact (congrArg (· ∈ link.placed) hkey).mpr hmem
    · exact fun id order horder => (congrFun (congrArg Ledger.orders hledger) id).symm.trans horder
    · exact fun id _ => congrFun (congrArg Ledger.orders hledger) id

/-- A message of the core; only the rejection of a new order makes the session forget one. -/
theorem deliver (h : link.Placing next) {handled : List (Frame × List Emission)}
    {sending : List Emission} (hmatched : link.Matched handled sending) {message : CoreMessage}
    {rest : List CoreMessage} (hnext : link.toGateway = message :: rest) (iteration : SetOrder) :
    (link.process iteration message rest).Placing next := by
  have hledger : (link.process iteration message rest).session.ledger =
      link.session.ledger.absorb message := ledger_processCoreMessage link.session iteration message
  have hanswers : (link.process iteration message rest).answers =
      link.answers ++ message.answer.toList := by
    rw [Link.answers, Link.process, List.filterMap_append]
    cases hanswer : message.answer <;> simp [Link.answers, hanswer]
  refine ⟨h.drawn, h.once, h.requests, ?_, ?_⟩
  · rw [hledger]
    intro id order' horder'
    obtain ⟨order, horder, -, hkey⟩ := Ledger.absorb_keepsOrders message id order' horder'
    obtain ⟨hmem, hid⟩ := h.orders id order horder
    exact ⟨hmem, hkey.trans hid⟩
  · rw [hledger]
    intro id hmem hnone
    by_cases habsent : link.session.ledger.orders id = none
    · obtain ⟨i, request, hi, hplaced, hanswer⟩ := h.kept id hmem habsent
      refine ⟨i, request, hi, hplaced, ?_⟩
      rw [hanswers, List.getElem?_append_left (List.getElem?_eq_some_iff.mp hanswer).1]
      exact hanswer
    · obtain ⟨pending, waiting, hanswer, hpending, hkind⟩ := Ledger.absorb_absent habsent hnone
      obtain ⟨request, -, hat, -, -, hid, -, hfront⟩ := hmatched.answered hnext hanswer
      rw [hpending] at hfront
      obtain ⟨rfl, -⟩ := List.cons.inj hfront
      have hsound := hmatched.sound request (List.mem_of_getElem? hat)
      have hplaced := CoreRequest.placedId_of_kind (hsound.kind.symm.trans hkind)
      have hid : request.core.orderId = id := hid
      refine ⟨link.answers.length, request, hat, hid ▸ hplaced, ?_⟩
      rw [hanswers, hanswer, List.getElem?_append_right (Nat.le_refl _), Nat.sub_self]
      rfl

end Link.Placing

/-! ## Accepted orders -/

/-- The core accepted the new order when it handled the frame that it was sent as. -/
def Link.Accepted (handled : List (Frame × List Emission)) (link : Link) (id : OrderId) : Prop :=
  ∃ (i : Nat) (request : Request) (emissions : List Emission), link.requests[i]? = some request ∧
    request.core.placedId = some id ∧ handled[i]? = some (request.frame, emissions) ∧
    emissions.filterMap Emission.answer = [(id, true)]

theorem answersOf_at {done : List Request} {handled : List (Frame × List Emission)}
    (h : List.Forall₂ AnsweredBy done handled) {i : Nat} {frame : Frame × List Emission}
    {answer : OrderId × Bool} (hi : handled[i]? = some frame)
    (hanswer : frame.2.filterMap Emission.answer = [answer]) :
    (answersOf handled)[i]? = some answer := by
  induction h generalizing i with
  | nil => cases hi
  | @cons request first done handled hfirst _ ih =>
    obtain ⟨-, success, hone⟩ := hfirst
    rw [answersOf, List.flatMap_cons, hone, ← answersOf]
    cases i with
    | zero =>
      cases hi
      rw [hone] at hanswer
      exact congrArg some (List.cons.inj hanswer).1
    | succ i => exact ih hi

namespace Link.Accepted

variable {handled : List (Frame × List Emission)} {link link' : Link} {id : OrderId}

theorem placed (h : link.Accepted handled id) : id ∈ link.placed := by
  obtain ⟨i, request, emissions, hi, hplaced, -⟩ := h
  exact Link.mem_placed (List.mem_of_getElem? hi) hplaced

/-- Later requests and later frames change nothing. -/
theorem mono (h : link.Accepted handled id) {requests : List Request}
    (hrequests : link'.requests = link.requests ++ requests)
    (later : List (Frame × List Emission)) : link'.Accepted (handled ++ later) id := by
  obtain ⟨i, request, emissions, hi, hplaced, hhandled, hanswer⟩ := h
  refine ⟨i, request, emissions, ?_, hplaced, ?_, hanswer⟩
  · rw [hrequests]
    exact (List.getElem?_append_left (List.getElem?_eq_some_iff.mp hi).1).trans hi
  · exact (List.getElem?_append_left (List.getElem?_eq_some_iff.mp hhandled).1).trans hhandled

/-- The session still has the order. -/
theorem present (h : link.Accepted handled id) {next : Nat} {sending : List Emission}
    (hplacing : link.Placing next) (hmatched : link.Matched handled sending) :
    link.session.ledger.orders id ≠ none := by
  intro hnone
  obtain ⟨j, other, hj, hother, hrefused⟩ := hplacing.kept id h.placed hnone
  obtain ⟨i, request, emissions, hi, hplaced, hhandled, hanswer⟩ := h
  obtain rfl := Link.placed_at hplacing.once hi hj hplaced hother
  obtain ⟨done, waiting, -, hdone, -⟩ := hmatched.sent
  have hat := answersOf_at hdone hhandled hanswer
  rw [hmatched.flow, List.append_assoc,
    List.getElem?_append_left (List.getElem?_eq_some_iff.mp hrefused).1, hrefused] at hat
  cases hat

end Link.Accepted

/-- The next frame of a link that the core accepts as a new order. -/
theorem Link.Matched.accepts {handled : List (Frame × List Emission)} {link : Link}
    (h : link.Matched handled []) {frame : Frame} {rest : List Frame}
    (hnext : link.toCore = frame :: rest) {order : SetOrder} {socket : Socket}
    {server server' : ExchangeServer} {emissions : List Emission} {request : NewOrderRequest}
    (hrun : handleMessage order socket frame server = .ok (server', emissions))
    (hcommand : commandOf frame.header.type frame.body = some (.newOrder request))
    (haccepted : .orderResponse socket request.orderId true .orderAccepted ∈ emissions) :
    link.Accepted (handled ++ [(frame, emissions)]) request.orderId := by
  obtain ⟨done, waiting, hrequests, hdone, hwaiting⟩ := h.sent
  rw [hnext] at hwaiting
  obtain ⟨sent, waiting, rfl, rfl, rfl⟩ := List.map_eq_cons_iff.mp hwaiting.symm
  have hlength := hdone.length_eq
  have hat : link.requests[handled.length]? = some sent := by
    rw [hrequests, ← hlength, List.getElem?_append_right (Nat.le_refl _), Nat.sub_self]
    rfl
  have hsound := h.sound sent (List.mem_of_getElem? hat)
  have hsent : sent.core.command = .newOrder request :=
    Option.some.inj (hsound.decodes.symm.trans hcommand)
  have hplaced : sent.core.placedId = some request.orderId := by
    cases hcore : sent.core with
    | newOrder other =>
      rw [hcore] at hsent
      cases hsent
      rfl
    | cancelOrder | replaceOrder =>
      rw [hcore] at hsent
      cases hsent
  obtain ⟨success, hanswer⟩ := (handleMessage_respondsTo hcommand hrun).answer
  have hmem : (request.orderId, true) ∈ emissions.filterMap Emission.answer :=
    List.mem_filterMap.mpr ⟨_, haccepted, orderResponse_answer 0 socket _ true (.inl rfl)⟩
  have hrequest : (Command.newOrder request).orderId = request.orderId := rfl
  rw [hrequest] at hanswer
  rw [hanswer, List.mem_singleton] at hmem
  refine ⟨handled.length, sent, emissions, hat, hplaced, ?_, hanswer.trans (by rw [hmem])⟩
  rw [List.getElem?_append_right (Nat.le_refl _), Nat.sub_self]
  rfl

end ExchangeLab

import ExchangeLab.Server.Settlement

/-!
# ExchangeLab.Server.Ownership

Who owns what: the sessions of the server, the owners of each instrument, and the working orders of
the risk engine, in every state of a run.

* `Sessions`: every open socket has a risk client of its own, which is never the invalid one.
* `Placed.settling`, `Replaced.settling`: the two commands that settle trades.
* `Owned`: the owners of an instrument are its resting orders that were accepted, and the working
  orders of the symbol mirror them.
* `ownership_run`: both hold after every run; `ownership_mirrors` spells the second out.
-/

namespace ExchangeLab

open Wire Protocol OrderBook MatchingEngine Container ExchangeServer Transition

/-! ## Sessions -/

structure Sessions (server : ExchangeServer) : Prop where
  nodup : server.clientSockets.Nodup
  identified : ∀ socket, socket ∈ server.clientSockets ↔ socket ∈ server.clientRiskIds
  issued : ∀ socket c, server.clientRiskIds.lookup socket = some c →
    c ≠ invalidRiskClientId ∧ c < server.nextRiskClientId
  next : invalidRiskClientId < server.nextRiskClientId

namespace ExchangeServer

/-- A step of a handler changes nothing about the sessions. -/
structure SameSessions (server server' : ExchangeServer) : Prop where
  sockets : server'.clientSockets = server.clientSockets
  riskIds : server'.clientRiskIds = server.clientRiskIds
  next : server'.nextRiskClientId = server.nextRiskClientId

theorem Handled.sameSessions {order : SetOrder} {socket : Socket} {frame : Frame}
    {server server' : ExchangeServer} {emissions : List Emission}
    (h : Handled order socket frame server server' emissions) : SameSessions server server' := by
  cases h <;> exact ⟨rfl, rfl, rfl⟩

end ExchangeServer

namespace Sessions

variable {server server' : ExchangeServer} {socket : Socket}

theorem same (h : Sessions server) (hsame : SameSessions server server') : Sessions server' where
  nodup := hsame.sockets ▸ h.nodup
  identified s := by rw [hsame.sockets, hsame.riskIds]; exact h.identified s
  issued s c hl := by rw [hsame.riskIds] at hl; rw [hsame.next]; exact h.issued s c hl
  next := hsame.next ▸ h.next

theorem register (h : Sessions server) (hfree : socket ∉ server.clientSockets) :
    Sessions (registerClient socket server) where
  nodup := List.Nodup.append h.nodup (List.nodup_singleton _) (by simpa using hfree)
  identified s := by
    simp only [registerClient, List.mem_append, List.mem_singleton, Finmap.mem_insert,
      h.identified s, or_comm]
  issued s c hl := by
    simp only [registerClient, lookup_insert_eq] at hl ⊢
    have hnext := h.next
    split at hl
    · cases hl
      exact ⟨Nat.pos_iff_ne_zero.mp hnext, Nat.lt_succ_self _⟩
    · exact ⟨(h.issued s c hl).1, Nat.lt_succ_of_lt (h.issued s c hl).2⟩
  next := Nat.lt_succ_of_lt h.next

theorem unregister (h : Sessions server) (socket : Socket) :
    Sessions (unregisterClient socket server) where
  nodup := h.nodup.erase socket
  identified s := by
    simp only [unregisterClient, Finmap.mem_erase, h.nodup.mem_erase_iff, h.identified s]
  issued s c hl := by
    simp only [unregisterClient, lookup_erase_eq] at hl
    split at hl
    · cases hl
    · exact h.issued s c hl
  next := h.next

/-- The risk client of an open session. -/
theorem riskClient_ne (h : Sessions server) (hopen : socket ∈ server.clientSockets) :
    server.riskClientIdForSocket socket ≠ invalidRiskClientId := by
  obtain ⟨c, hc⟩ := Finmap.mem_iff.mp ((h.identified socket).mp hopen)
  rw [riskClientIdForSocket, hc]
  exact (h.issued socket c hc).1

end Sessions

/-! ## One instrument -/

/-- The owners of an instrument are its resting orders that were accepted, and the working orders of
its symbol mirror them. -/
structure Owned (accepted : OrderId → Prop) (risk : RiskEngine) (x : Bytes)
    (instrument : InstrumentState) : Prop where
  owners : ∀ id, (instrument.orderOwners.lookup id).isSome = true ↔
    (instrument.book.findOrder id).isSome = true ∧ accepted id
  client : ∀ id owner, instrument.orderOwners.lookup id = some owner →
    owner.riskClientId ≠ invalidRiskClientId
  mirrors : Mirrors risk x instrument.owner instrument.book.findOrder

namespace Owned

variable {accepted : OrderId → Prop} {risk risk' : RiskEngine} {x y : Bytes}
  {instrument : InstrumentState}

theorem elsewhere (h : Owned accepted risk y instrument) (hy : y ≠ x)
    (hsame : SameElsewhere x risk risk') : Owned accepted risk' y instrument where
  owners := h.owners
  client := h.client
  mirrors c id := (hsame ⟨c, y, id⟩ hy).trans (h.mirrors c id)

theorem congr {accepted' : OrderId → Prop} (h : Owned accepted risk x instrument)
    (hiff : ∀ id, accepted' id ↔ accepted id) : Owned accepted' risk x instrument where
  owners id := by rw [h.owners, hiff]
  client := h.client
  mirrors := h.mirrors

theorem rests (h : Owned accepted risk x instrument) {id : OrderId} {owner : OrderOwner}
    (howner : instrument.orderOwners.lookup id = some owner) : instrument.book.findOrder id ≠ none := by
  have hsome := ((h.owners id).mp (by rw [howner]; rfl)).1
  exact Option.isSome_iff_ne_none.mp hsome

/-- What a client owns is its own working order, so cancelling it frees the id. -/
theorem cancel (h : Owned accepted risk x instrument) {id : OrderId} {owner : OrderOwner}
    (howner : instrument.orderOwners.lookup id = some owner) :
    Mirrors (risk.onOrderCancelled owner.riskClientId x id) x instrument.owner
        (Function.update instrument.book.findOrder id none) ∧
      SameElsewhere x risk (risk.onOrderCancelled owner.riskClientId x id) := by
  have hne := h.client id owner howner
  refine ⟨fun c id' => ?_, fun k hk => ?_⟩
  · rw [onOrderCancelled_lookup risk hne, h.mirrors]
    by_cases hid : id' = id
    · subst hid
      rw [Function.update_self, InstrumentState.owner, howner]
      by_cases hc : c = owner.riskClientId
      · simp [hc]
      · simp [hc, Ne.symm hc]
    · rw [if_neg (by simp [hid]), Function.update_of_ne hid]
  · rw [onOrderCancelled_lookup risk hne, if_neg (fun he => hk (by rw [he]))]

end Owned

/-! ## The commands that settle trades -/

namespace ExchangeServer

section Commands

variable {socket : Socket} {frame : Frame} {server : ExchangeServer} {trades : List Trade}
  {book : OrderBook} {snapshot : BookSnapshot} {accepted : OrderId → Prop}

theorem Placed.settling {request : NewOrderRequest}
    (h : Placed socket frame server request trades book snapshot) (hs : Sessions server)
    (hopen : socket ∈ server.clientSockets) (hbooks : server.BooksConsistent)
    (howned : Owned accepted server.riskEngine (symbolToString request.symbol)
      (server.instrumentFor (symbolToString request.symbol))) :
    ∃ o', Settling (server.incomingFrom socket request.orderId request.symbol)
      (normalizeIncoming (orderOf request))
      (server.instrumentFor (symbolToString request.symbol)).book trades o' book
      (server.instrumentFor (symbolToString request.symbol)).orderOwners := by
  have hc := hbooks.instrumentFor (symbolToString request.symbol)
  obtain ⟨o', hprocessed⟩ := processed_of_returned hc h.absent h.engine
  exact ⟨o',
    { processed := hprocessed
      consistent := hc
      id_eq := normalize_id _
      absent := by rw [normalize_id]; exact h.absent
      client := hs.riskClient_ne hopen
      owned := fun id owner ho => ⟨howned.client id owner ho, fun _ => howned.rests ho⟩ }⟩

/-- The session of a command that names an order of its own. -/
theorem owner_of_ownsResting {instrument : InstrumentState} {id : OrderId}
    (h : server.ownsResting socket instrument id = true) :
    instrument.orderOwners.lookup id = some ⟨socket, server.riskClientIdForSocket socket⟩ := by
  rw [ownsResting, Bool.and_eq_true] at h
  simpa using h.1

theorem Replaced.settling {request : ReplaceOrderRequest} {instrument : InstrumentState}
    (h : Replaced socket frame server request instrument trades book snapshot) (hs : Sessions server)
    (hopen : socket ∈ server.clientSockets) (hbooks : server.BooksConsistent)
    (howned : Owned accepted server.riskEngine (symbolToString request.symbol) instrument) :
    ∃ s, ∃ n ∈ instrument.book.nodes s, n.order.id = request.orderId ∧ ∃ b₁ o',
      b₁.nodes s = ((instrument.book.nodes s).filter fun m => m.handle ≠ n.handle) ∧
      b₁.nodes s.opposite = instrument.book.nodes s.opposite ∧
      b₁.nextNode = instrument.book.nextNode ∧
      b₁.findOrder = Function.update instrument.book.findOrder request.orderId none ∧
      Settling (server.incomingFrom socket request.orderId request.symbol)
        (normalizeIncoming
          (replacement n.order request.newPrice request.newQuantity.toUInt32 request.timestamp))
        b₁ trades o' book instrument.orderOwners := by
  have hc := hbooks _ _ h.found
  obtain ⟨s, n, hn, hid⟩ := exists_node_of_owned hc h.owned
  have hengine := h.engine
  rw [← hid] at hengine
  obtain ⟨-, -, b₁, hc₁, hself, hother, hnext, hproc⟩ := replaceOrderInto_returned hc hn hengine
  have hfind := hc.findOrder_extracted hc₁ hn hself hother
  rw [hid] at hfind
  have habsent : b₁.findOrder request.orderId = none := by rw [hfind, Function.update_self]
  let o := replacement n.order request.newPrice request.newQuantity.toUInt32 request.timestamp
  have hoid : o.id = request.orderId := hid
  obtain ⟨o', hprocessed⟩ := processed_of_returned hc₁ (o := o) (hoid.symm ▸ habsent) hproc
  refine ⟨s, n, hn, hid, b₁, o', hself, hother, hnext, hfind,
    { processed := hprocessed
      consistent := hc₁
      id_eq := (normalize_id o).trans hoid
      absent := by rw [normalize_id, hoid, habsent]
      client := hs.riskClient_ne hopen
      owned := fun id owner ho => ⟨howned.client id owner ho, fun hne => ?_⟩ }⟩
  rw [hfind, Function.update_of_ne (fun he => hne (he.trans ((normalize_id o).trans hoid).symm))]
  exact howned.rests ho

/-- A cancel takes the named order out of the book, and nothing else. -/
theorem Cancelled.extracted {request : CancelOrderRequest} {instrument : InstrumentState}
    (h : Cancelled socket frame server request instrument book snapshot)
    (hbooks : server.BooksConsistent) :
    ∃ s, ∃ n ∈ instrument.book.nodes s, n.order.id = request.orderId ∧ Consistent book ∧
      book.nodes s = ((instrument.book.nodes s).filter fun m => m.handle ≠ n.handle) ∧
      book.nodes s.opposite = instrument.book.nodes s.opposite := by
  have hc := hbooks _ _ h.found
  obtain ⟨s, n, hn, hid⟩ := exists_node_of_owned hc h.owned
  have hengine := h.engine
  rw [MatchingEngine.cancelOrder, OrderBook.cancelOrder, ← hid] at hengine
  rcases extractOrder_some hc hn with ⟨-, hthrow⟩ | ⟨-, b', hret, hc', hself, hother, -⟩
  · rw [hthrow] at hengine
    cases hengine
  · rw [hret] at hengine
    cases hengine
    exact ⟨s, n, hn, hid, hc', hself, hother⟩

theorem Cancelled.findOrder {request : CancelOrderRequest} {instrument : InstrumentState}
    (h : Cancelled socket frame server request instrument book snapshot)
    (hbooks : server.BooksConsistent) :
    book.findOrder = Function.update instrument.book.findOrder request.orderId none := by
  obtain ⟨s, n, hn, hid, hc', hself, hother⟩ := h.extracted hbooks
  rw [← hid]
  exact (hbooks _ _ h.found).findOrder_extracted hc' hn hself hother

end Commands

/-! ## One frame -/

/-- A new order for this symbol and id was accepted. -/
def Accepts (frame : Frame) (types : List MessageType) (x : Bytes) (id : OrderId) : Prop :=
  frame.header.type = .newOrder ∧ MessageType.orderAccepted ∈ types ∧
    ∃ request, decodeNewOrder frame.body = some request ∧ symbolToString request.symbol = x ∧
      request.orderId = id

theorem instrumentFor_of_found {server : ExchangeServer} {x : Bytes} {instrument : InstrumentState}
    (h : server.findInstrument x = some instrument) : server.instrumentFor x = instrument := by
  rw [instrumentFor, h, Option.getD_some]

theorem not_accepts_of_type {frame : Frame} {types : List MessageType} {x : Bytes} {id : OrderId}
    (h : frame.header.type ≠ .newOrder) : ¬ Accepts frame types x id := fun hacc => h hacc.1

theorem not_accepts_rejection {frame : Frame} {socket : Socket} {orderId : UInt64}
    {successType : MessageType} {x : Bytes} {id : OrderId} :
    ¬ Accepts frame ([.orderResponse socket orderId false successType].map Emission.type) x id := by
  rintro ⟨-, hmem, -⟩
  have hmem : MessageType.orderAccepted ∈ [MessageType.orderRejected] := hmem
  revert hmem
  decide

/-- The owners after settling: the residual has the session it came from, and every other order that
still rests keeps its owner. -/
def ownersAfter (incoming : Incoming) (book : OrderBook)
    (orderOwners : Finmap fun _ : OrderId => OrderOwner) (id : OrderId) : Option OrderOwner :=
  if (book.findOrder id).isSome = true then
    if id = incoming.orderId then some ⟨incoming.socket, incoming.riskClientId⟩
    else orderOwners.lookup id
  else none

theorem Settling.ownersAfter_new {incoming : Incoming} {o o' : Order} {b b' : OrderBook}
    {ts : List Trade} {orderOwners : Finmap fun _ : OrderId => OrderOwner}
    (h : Settling incoming o b ts o' b' orderOwners)
    (hnew : orderOwners.lookup incoming.orderId = none) (order : SetOrder) (risk : RiskEngine)
    (id : OrderId) :
    (settle order incoming ts ⟨b', orderOwners⟩ risk).instrument.orderOwners.lookup id =
      ownersAfter incoming b' orderOwners id := by
  rw [h.lookup order risk id, ownersAfter]
  by_cases hid : id = incoming.orderId
  · subst hid
    simp [hnew]
  · simp [hid]

theorem Settling.ownersAfter_replaced {incoming : Incoming} {o o' : Order} {b b' : OrderBook}
    {ts : List Trade} {orderOwners : Finmap fun _ : OrderId => OrderOwner}
    (h : Settling incoming o b ts o' b' orderOwners) (order : SetOrder) (risk : RiskEngine)
    (id : OrderId) :
    (dropUnrested incoming.orderId
      (settle order incoming ts ⟨b', orderOwners⟩ risk)).orderOwners.lookup id =
      ownersAfter incoming b' orderOwners id := by
  have hadded := settle_added order incoming ts ⟨b', orderOwners⟩ risk
  simp only at hadded
  unfold dropUnrested
  rw [hadded, Option.isSome_map]
  by_cases hrests : (b'.findOrder incoming.orderId).isSome = true
  · rw [if_pos hrests, h.lookup order risk id, ownersAfter]
    by_cases hid : id = incoming.orderId
    · subst hid
      simp [hrests]
    · simp [hid]
  · rw [if_neg hrests, lookup_erase_eq, h.lookup order risk id, ownersAfter]
    by_cases hid : id = incoming.orderId
    · subst hid
      simp [hrests]
    · simp [hid]

/-- Settling keeps an instrument owned; the order that came in counts as accepted from then on. -/
theorem Settling.ownedAfter {incoming : Incoming} {o o' : Order} {b b' : OrderBook} {ts : List Trade}
    {orderOwners : Finmap fun _ : OrderId => OrderOwner} {risk : RiskEngine}
    {instrument : InstrumentState} (h : Settling incoming o b ts o' b' orderOwners)
    (accepted : OrderId → Prop) (order : SetOrder)
    (hm : Mirrors risk (symbolToString incoming.symbol) (InstrumentState.mk b orderOwners).owner
      b.findOrder)
    (haccepted : ∀ id, b.findOrder id ≠ none →
      ((orderOwners.lookup id).isSome = true ↔ accepted id))
    (hbook : instrument.book = b')
    (howners : ∀ id, instrument.orderOwners.lookup id = ownersAfter incoming b' orderOwners id) :
    Owned (fun id => accepted id ∨ id = incoming.orderId)
      (settle order incoming ts ⟨b', orderOwners⟩ risk).riskEngine (symbolToString incoming.symbol)
      instrument := by
  subst hbook
  refine ⟨fun id => ?_, fun id owner ho => ?_, ?_⟩
  · rw [howners, ownersAfter]
    by_cases hrests : (instrument.book.findOrder id).isSome = true
    · rw [if_pos hrests]
      by_cases hid : id = incoming.orderId
      · simp [hid]
        exact hid ▸ hrests
      · have hrested : b.findOrder id ≠ none := by
          intro hnone
          have hgone := h.trading.none_of_none hnone
          rw [Function.update_of_ne (fun he => hid (he.trans h.id_eq))] at hgone
          simp [hgone] at hrests
        simp [hid, hrests, haccepted id hrested]
    · simp [hrests]
  · rw [howners, ownersAfter] at ho
    split at ho
    · split at ho
      · cases ho
        exact h.client
      · exact (h.owned id owner ho).1
    · cases ho
  · refine (h.mirrors order hm).1.congr fun id hrests => ?_
    rw [InstrumentState.owner, InstrumentState.owner, howners, h.lookup order risk id, ownersAfter]
    simp only [Option.isSome_iff_ne_none.mpr hrests, if_true]

section Frame

variable {order : SetOrder} {socket : Socket} {frame : Frame} {server server' : ExchangeServer}
  {emissions : List Emission} {accepted : Bytes → OrderId → Prop}

/-- The state after a command on one symbol: what holds of its instrument is all that is new. -/
theorem owned_of_instrument {x : Bytes} {instrument : InstrumentState}
    {accepts : Bytes → OrderId → Prop}
    (h : ∀ y, Owned (accepted y) server.riskEngine y (server.instrumentFor y))
    (hinsert : server'.instruments = server.instruments.insert x instrument)
    (haccepts : ∀ y id, accepts y id → y = x)
    (hx : Owned (fun id => accepted x id ∨ accepts x id) server'.riskEngine x instrument)
    (hsame : SameElsewhere x server.riskEngine server'.riskEngine) (y : Bytes) :
    Owned (fun id => accepted y id ∨ accepts y id) server'.riskEngine y
      (server'.instrumentFor y) := by
  rw [instrumentFor_insert hinsert]
  split
  · rename_i hy
    exact hy ▸ hx
  · rename_i hy
    exact ((h y).elsewhere hy hsame).congr fun id =>
      ⟨fun hor => hor.resolve_right fun hacc => hy (haccepts y id hacc), .inl⟩

theorem Handled.owned (h : Handled order socket frame server server' emissions)
    (hs : Sessions server) (hopen : socket ∈ server.clientSockets) (hbooks : server.BooksConsistent)
    (howned : ∀ x, Owned (accepted x) server.riskEngine x (server.instrumentFor x)) (x : Bytes) :
    Owned (fun id => accepted x id ∨ Accepts frame (emissions.map Emission.type) x id)
      server'.riskEngine x (server'.instrumentFor x) := by
  cases h with
  | ignored =>
    refine (howned x).congr fun id => or_iff_left ?_
    rintro ⟨-, hmem, -⟩
    simp at hmem
  | rejected => exact (howned x).congr fun id => or_iff_left not_accepts_rejection
  | @turnedAway _ symbol =>
    rw [instrumentFor_made]
    exact (howned x).congr fun id => or_iff_left not_accepts_rejection
  | @placed request trades book snapshot h =>
    obtain ⟨o', hsettling⟩ := h.settling hs hopen hbooks (howned _)
    have hone := howned (symbolToString request.symbol)
    refine owned_of_instrument howned rfl ?_ ?_ (hsettling.mirrors order hone.mirrors).2 x
    · rintro y id ⟨-, -, request', hdecoded, rfl, -⟩
      rw [h.decoded] at hdecoded
      cases hdecoded
      rfl
    · refine (hsettling.ownedAfter (accepted (symbolToString request.symbol)) order hone.mirrors (fun id hid => ?_) (settle_book ..)
        (hsettling.ownersAfter_new h.unowned order server.riskEngine)).congr fun id => ?_
      · rw [hone.owners, and_iff_right (Option.isSome_iff_ne_none.mpr hid)]
      · refine or_congr_right ⟨?_, ?_⟩
        · rintro ⟨-, -, request', hdecoded, -, rfl⟩
          rw [h.decoded] at hdecoded
          cases hdecoded
          rfl
        · rintro rfl
          exact ⟨h.type, by simp [newOrderEmissions, Emission.type], request, h.decoded, rfl, rfl⟩
  | @cancelled request instrument book snapshot h =>
    have hx := howned (symbolToString request.symbol)
    rw [instrumentFor_of_found h.found] at hx
    have howner := owner_of_ownsResting h.owned
    obtain ⟨hm, hsame⟩ := hx.cancel howner
    have hnot : ∀ y id, ¬ Accepts frame (List.map Emission.type
        [.orderResponse socket request.orderId true .orderCancelled, .bookUpdate snapshot,
          .level3OrderDeleted ⟨request.orderId, 0, request.symbol⟩]) y id := fun y id =>
      not_accepts_of_type (by rw [h.type]; decide)
    refine owned_of_instrument howned rfl (fun y id hacc => absurd hacc (hnot y id)) ?_ hsame x
    suffices hafter : Owned (accepted (symbolToString request.symbol)) _ _ _ from
      hafter.congr fun id => or_iff_left (hnot _ id)
    have hfind := h.findOrder hbooks
    refine ⟨fun id => ?_, fun id owner ho => ?_, ?_⟩
    · by_cases hid : id = request.orderId
      · simp [lookup_erase_eq, hid, hfind]
      · simp only [lookup_erase_eq, hid, if_false, hfind, Function.update_of_ne hid]
        exact hx.owners id
    · rw [lookup_erase_eq] at ho
      split at ho
      · cases ho
      · exact hx.client id owner ho
    · show Mirrors _ _ _ book.findOrder
      rw [hfind]
      refine hm.congr fun id hid => ?_
      have hne : id ≠ request.orderId := fun he => hid (by rw [he, Function.update_self])
      simp only [InstrumentState.owner, lookup_erase_eq, hne, if_false]
  | @replaced request instrument trades book snapshot h =>
    have hx := howned (symbolToString request.symbol)
    rw [instrumentFor_of_found h.found] at hx
    have howner := owner_of_ownsResting h.owned
    obtain ⟨hm, hsame⟩ := hx.cancel howner
    obtain ⟨s, n, hn, hid, b₁, o', -, -, -, hfind, hsettling⟩ := h.settling hs hopen hbooks hx
    rw [← hfind] at hm
    have hnot : ∀ y id, ¬ Accepts frame
        ((replaceOrderEmissions socket request.orderId request.symbol
          (server.replacedSettled order socket request instrument trades book) snapshot).map
            Emission.type) y id := fun y id => not_accepts_of_type (by rw [h.type]; decide)
    have hafter := hsettling.mirrors order hm
    refine owned_of_instrument howned rfl (fun y id hacc => absurd hacc (hnot y id)) ?_
      (fun k hk => (hafter.2 k hk).trans (hsame k hk)) x
    have hbook : (dropUnrested request.orderId
        (server.replacedSettled order socket request instrument trades book)).book = book := by
      rw [dropUnrested_book, replacedSettled, settle_book]
    refine (hsettling.ownedAfter (accepted (symbolToString request.symbol)) order hm (fun id hid => ?_) hbook
      (hsettling.ownersAfter_replaced order _)).congr fun id => ?_
    · rw [hx.owners, and_iff_right]
      rw [hfind] at hid
      have hne : id ≠ request.orderId := fun he => hid (by rw [he, Function.update_self])
      rw [Function.update_of_ne hne] at hid
      exact Option.isSome_iff_ne_none.mpr hid
    · -- a replaced order was accepted when it was placed
      rw [or_iff_left (hnot _ id)]
      refine (or_iff_left_of_imp ?_).symm
      rintro rfl
      exact ((hx.owners request.orderId).mp (by rw [howner]; rfl)).2

end Frame

end ExchangeServer

/-! ## Every run -/

/-- The event is a new order for this symbol and id that was accepted. -/
def Event.Accepts (event : Event) (x : Bytes) (id : OrderId) : Prop :=
  ∃ socket frame, event.action = .frame socket frame ∧
    ExchangeServer.Accepts frame (event.sent.map fun sent => sent.emission.type) x id

structure Ownership (log : List Event) (server : ExchangeServer) : Prop where
  books : server.BooksConsistent
  sessions : Sessions server
  owned : ∀ x, Owned (fun id => ∃ event ∈ log, event.Accepts x id) server.riskEngine x
    (server.instrumentFor x)

namespace ExchangeServer

variable {server server' : ExchangeServer} {limits : RiskLimits} {file : Option (Option Bytes)}
  {log : List Event}

theorem Emission.type_of_unaddressed {e : Emission} (h : e.unaddressed = true) :
    e.type = .tradeExecution := by
  cases e <;> first | rfl | cases h

/-- An acceptance is never left unsent. -/
theorem accepts_sent (emissions : List Emission) (server : ExchangeServer) (frame : Frame) (x : Bytes)
    (id : OrderId) :
    ExchangeServer.Accepts frame
        ((emitAll emissions server).2.map fun sent => sent.emission.type) x id ↔
      ExchangeServer.Accepts frame (emissions.map Emission.type) x id := by
  have htypes : (emitAll emissions server).2.map (fun sent => sent.emission.type) =
      (emissions.filter fun e => !e.unaddressed).map Emission.type := by
    rw [← emitAll_emissions emissions server, List.map_map]
    rfl
  rw [htypes]
  refine and_congr_right fun _ => and_congr_left fun _ => ?_
  simp only [List.mem_map, List.mem_filter, Bool.not_eq_true']
  constructor
  · rintro ⟨e, ⟨he, -⟩, htype⟩
    exact ⟨e, he, htype⟩
  · rintro ⟨e, he, htype⟩
    refine ⟨e, ⟨he, Bool.eq_false_iff.mpr fun hu => ?_⟩, htype⟩
    rw [Emission.type_of_unaddressed hu] at htype
    revert htype
    decide

theorem start_sessions (h : start limits file = some server) : server.clientSockets = [] ∧
    server.clientRiskIds = ∅ ∧ server.nextRiskClientId = 1 := by
  unfold start at h
  split at h
  · cases h
    exact ⟨rfl, rfl, rfl⟩
  · obtain ⟨books, -, heq⟩ := Option.bind_eq_some_iff.mp h
    cases heq
    exact ⟨rfl, rfl, rfl⟩

theorem start_ownership (h : start limits file = some server) : Ownership [] server := by
  refine ⟨start_booksConsistent h, ?_, fun x => ?_⟩
  · obtain ⟨hsockets, hids, hnext⟩ := start_sessions h
    refine ⟨by simp [hsockets], 
      fun s => by simp [hsockets, hids, Finmap.notMem_empty], fun s c hl => ?_,
      by simp [hnext, invalidRiskClientId]⟩
    rw [hids] at hl
    cases hl
  · have hempty : (server.instrumentFor x).orderOwners = ∅ ∧
        server.riskEngine.workingOrders = ∅ := by
      unfold start at h
      split at h
      · cases h
        exact ⟨rfl, rfl⟩
      · obtain ⟨books, -, heq⟩ := Option.bind_eq_some_iff.mp h
        cases heq
        refine ⟨?_, rfl⟩
        simp only [instrumentFor, findInstrument, lookup_mapValues]
        cases books.lookup x <;> rfl
    obtain ⟨howners, hworking⟩ := hempty
    refine ⟨fun id => by simp [howners], fun id owner ho => ?_, fun c id => ?_⟩
    · rw [howners] at ho
      cases ho
    · simp [hworking, InstrumentState.owner, howners]

theorem Step.ownership {event : Event} (h : Ownership log server) (hstep : Step server event server') :
    Ownership (log ++ [event]) server' := by
  have hbooks := hstep.booksConsistent h.books
  -- a step that handles no frame accepts nothing
  have hquiet : ∀ action, (∀ socket frame, action ≠ .frame socket frame) → ∀ x id,
      (∃ event ∈ log ++ [⟨action, []⟩], event.Accepts x id) ↔ ∃ event ∈ log, event.Accepts x id := by
    intro action haction x id
    simp only [List.mem_append, List.mem_singleton, or_and_right, exists_or, exists_eq_left]
    refine or_iff_left ?_
    rintro ⟨socket, frame, hframe, -⟩
    exact haction socket frame hframe
  cases hstep with
  | connect _ hfree =>
    exact ⟨hbooks, h.sessions.register hfree,
      fun x => (h.owned x).congr (hquiet _ (by simp) x)⟩
  | disconnect =>
    exact ⟨hbooks, h.sessions.unregister _, fun x => (h.owned x).congr (hquiet _ (by simp) x)⟩
  | setGlobalKillSwitch enabled =>
    refine ⟨hbooks, ⟨h.sessions.nodup, h.sessions.identified, h.sessions.issued, h.sessions.next⟩,
      fun x => ?_⟩
    exact Owned.congr ⟨(h.owned x).owners, (h.owned x).client, (h.owned x).mirrors⟩
      (hquiet _ (by simp) x)
  | @frame server₁ socket frame emissions order hopen hrun =>
    have hhandled := handleMessage_cases h.books hrun
    obtain ⟨n, -, heq⟩ := emitAll_state emissions server₁
    refine ⟨hbooks, ?_, fun x => ?_⟩
    · rw [heq]
      exact h.sessions.same
        ⟨hhandled.sameSessions.sockets, hhandled.sameSessions.riskIds, hhandled.sameSessions.next⟩
    · rw [heq]
      refine Owned.congr (hhandled.owned h.sessions hopen h.books h.owned x) fun id => ?_
      simp only [List.mem_append, List.mem_singleton, or_and_right, exists_or, exists_eq_left]
      refine or_congr_right ⟨?_, fun hacc => ⟨socket, frame, rfl, ?_⟩⟩
      · rintro ⟨socket', frame', hframe, hacc⟩
        cases hframe
        exact (accepts_sent emissions server₁ _ x id).mp hacc
      · exact (accepts_sent emissions server₁ _ x id).mpr hacc

theorem ownership_run (hstart : start limits file = some server) (h : Run Step server log server') :
    Ownership log server' :=
  h.history (start_ownership hstart) fun _ _ _ _ _ hown hstep => hstep.ownership hown

end ExchangeServer

/-- After every run, for every symbol: the owners are the resting orders that were accepted since the
start, and the working orders are theirs, with the side, price and remaining quantity of the book. -/
theorem ownership_mirrors {limits : RiskLimits} {file : Option (Option Bytes)} {log : List Event}
    {server server' : ExchangeServer} (hstart : start limits file = some server)
    (hrun : Run Step server log server') (x : Bytes) :
    let instrument := server'.instrumentFor x
    (∀ id, id ∈ instrument.orderOwners ↔ (instrument.book.findOrder id).isSome = true ∧
      ∃ event ∈ log, event.Accepts x id) ∧
    ∀ c id working, server'.riskEngine.workingOrders.lookup ⟨c, x, id⟩ = some working ↔
      ∃ owner o, instrument.orderOwners.lookup id = some owner ∧ owner.riskClientId = c ∧
        instrument.book.findOrder id = some o ∧
        working = ⟨o.side, o.price, o.remainingQuantity⟩ := by
  intro instrument
  have h := (ownership_run hstart hrun).owned x
  refine ⟨fun id => ?_, fun c id working => ?_⟩
  · rw [← h.owners id, Option.isSome_iff_exists, Finmap.mem_iff]
  · rw [h.mirrors c id, InstrumentState.owner]
    cases howner : instrument.orderOwners.lookup id with
    | none => simp
    | some owner =>
      rw [Option.map_some, Option.bind_some]
      by_cases hc : owner.riskClientId = c
      · rw [if_pos hc, Option.map_eq_some_iff]
        constructor
        · rintro ⟨o, ho, rfl⟩
          exact ⟨owner, o, rfl, hc, ho, rfl⟩
        · rintro ⟨owner', o, hown, -, ho, rfl⟩
          exact ⟨o, ho, rfl⟩
      · rw [if_neg hc]
        refine ⟨fun hnone => (by cases hnone), ?_⟩
        rintro ⟨owner', o, hown, hc', -, -⟩
        cases hown
        exact absurd hc' hc

/-- A session that bought 5 at 100 owns its order, and nothing else is owned. -/
theorem ownership_mirrors_order :
    ∃ server log,
      Run Step { riskEngine := { limits := {} } } log server ∧
      (∃ owner, (server.instrumentFor [84, 69, 83, 84]).orderOwners.lookup 7 = some owner ∧
        server.riskEngine.workingOrders.lookup ⟨owner.riskClientId, [84, 69, 83, 84], 7⟩ =
          some ⟨.buy, 100, 5⟩) ∧
      (server.instrumentFor [84, 69, 83, 84]).orderOwners.lookup 8 = none := by
  obtain ⟨⟨server, emissions⟩, hrun, hfound, hother⟩ : ∃ result,
      handleMessage .dedup 4
        (newOrderFrame ⟨7, 1, 100, 5, .buy, .limit, .goodTillCancel, defaultSymbol⟩)
        (registerClient 4 { riskEngine := { limits := {} } }) = .ok result ∧
      (result.1.riskEngine.workingOrders.lookup ⟨1, [84, 69, 83, 84], 7⟩ = some ⟨.buy, 100, 5⟩) ∧
      (result.1.instrumentFor [84, 69, 83, 84]).book.findOrder 8 = none :=
    ⟨_, by rfl, by decide, by decide⟩
  have run := Run.snoc (.snoc (.nil _) (Step.connect (by decide) (by decide)))
    (Step.frame .dedup (by decide) hrun)
  obtain ⟨n, -, hstate⟩ := emitAll_state emissions server
  have hstart : start {} none = some { riskEngine := { limits := {} } } := rfl
  obtain ⟨howners, hworking⟩ := ownership_mirrors hstart run [84, 69, 83, 84]
  refine ⟨_, _, run, ?_, ?_⟩
  · rw [hstate] at hworking ⊢
    obtain ⟨owner, o, hown, hc, -, -⟩ := (hworking 1 7 ⟨.buy, 100, 5⟩).mp hfound
    exact ⟨owner, hown, hc.symm ▸ hfound⟩
  · rw [hstate] at howners ⊢
    rw [Finmap.lookup_eq_none]
    intro hmem
    have hrests := ((howners 8).mp hmem).1
    rw [withSequence] at hrests
    change (OrderBook.findOrder (server.instrumentFor [84, 69, 83, 84]).book 8).isSome = true at hrests
    rw [hother] at hrests
    cases hrests

end ExchangeLab

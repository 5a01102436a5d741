import ExchangeLab.Gateway.Current
import ExchangeLab.Gateway.Fills
import ExchangeLab.Server.Serial

/-!
# ExchangeLab.Gateway.Agreement

What a session knows of its orders against the core, over every run next to a core with a journal.

* `Bridge.drained`: the ledger of a session once all that is on the way to it has arrived.
* `Bridge.Converges`: it is current, so that what a step of the core changes is either there already or
  on the way; kept by each kind of step.
* `orders_agree`: so when nothing is on the way, the quantities of an order without a pending request
  are those of the core.
-/

namespace ExchangeLab

open Wire Protocol OrderBook MatchingEngine Container ExchangeServer ExchangeLab.Fix FixGateway
  FixBridge Transition Duplicates

/-! ## What is on the way -/

/-- The answers among what a thread has still to send go to its own session. -/
theorem coming_answers {socket sender : Socket} {emissions : List Emission}
    (haddressed : ∀ emission ∈ emissions, emission.isResponse = true →
      ∃ id success type, emission = .orderResponse sender id success type) :
    (coming socket emissions).filterMap CoreMessage.answer =
      if socket = sender then emissions.filterMap Emission.answer else [] := by
  induction emissions with
  | nil => exact (ite_self _).symm
  | cons emission emissions ih =>
    have hrest := ih fun other hother => haddressed other (.tail _ hother)
    have hhead : coming socket (emission :: emissions) =
        coming socket [emission] ++ coming socket emissions := coming_append socket [emission] emissions
    have hone : (coming socket [emission]).filterMap CoreMessage.answer =
        if socket = sender then [emission].filterMap Emission.answer else [] := by
      cases hresponse : emission.isResponse with
      | true =>
        obtain ⟨id, success, type, rfl⟩ := haddressed emission (.head _) hresponse
        by_cases hsocket : socket = sender
        · rw [if_pos hsocket]
          have hcoming : coming socket [Emission.orderResponse sender id success type] =
              [(Emission.orderResponse sender id success type).coreMessage 0] := by
            simp [coming, Emission.reaches, hsocket]
          rw [hcoming]
          rfl
        · rw [if_neg hsocket]
          simp [coming, Emission.reaches, Ne.symm hsocket]
      | false =>
        have hnone : emission.answer = none := answer_of_not_response 0 hresponse
        have hcoming : (emission.coreMessage 0).answer = none := hnone
        rw [List.filterMap_cons_none hnone, List.filterMap_nil, ite_self]
        cases hreaches : emission.reaches socket with
        | true => simp [coming, hreaches, hcoming]
        | false => simp [coming, hreaches]
    rw [hhead, List.filterMap_append, hone, hrest]
    split
    · rw [← List.filterMap_append]
      rfl
    · rfl

namespace Bridge

variable {config : FixGatewayConfig} {limits : RiskLimits} {file : Option Bytes}
  {server₀ : ExchangeServer} {labels : List Label} {label : Label} {s s' : Bridge} {last : Nat}
  {busy socket : Socket} {link : Link}

/-- The ledger of a session once all that is on the way to it has arrived, when only the thread of
`busy` has something to send. -/
noncomputable def drained (busy socket : Socket) (link : Link) (s : Bridge) : Ledger :=
  link.session.ledger.absorbAll (link.toGateway ++ coming socket (s.core.sending busy))

/-- What will have arrived at a session makes it current. -/
structure Informed (busy socket : Socket) (link : Link) (s : Bridge) : Prop where
  current : 0 ≤ socket →
    (s.drained busy socket link).Current link.unhandled s.core.server s.executions
  /-- A session that is not connected waits for no book update, and no answer is on the way to it. -/
  unconnected : socket ∉ s.core.server.clientSockets →
    link.session.ledger.awaiting = ∅ ∧ ∀ message ∈ link.toGateway, message.answer = none
  awaiting : ∀ id ∈ link.session.ledger.awaiting, id ∈ link.placed

structure Converges (last : Nat) (busy : Socket) (s : Bridge) : Prop where
  alone : ∀ other, other ≠ busy → s.core.sending other = []
  links : ∀ socket link, s.links socket = some link → s.Informed busy socket link
  restable : ∀ id, GatewayId last id → ∀ x, s.core.server.Restable x id

theorem Informed.absorbed (h : s.Informed busy socket link)
    (hclosed : socket ∉ s.core.server.clientSockets) :
    (link.session.ledger.absorbAll link.toGateway).awaiting = ∅ := by
  obtain ⟨hempty, hanswers⟩ := h.unconnected hclosed
  exact Set.subset_empty_iff.mp (hempty ▸ Ledger.absorbAll_awaiting hanswers)

theorem Matched.coming (h : s.Matched labels)
    (halone : ∀ other, other ≠ busy → s.core.sending other = []) (socket : Socket) :
    (s.core.sending socket).filterMap Emission.answer =
      (ExchangeLab.coming socket (s.core.sending busy)).filterMap CoreMessage.answer := by
  rw [coming_answers (h.addressed busy)]
  split
  · rename_i heq
    rw [heq]
  · rename_i hne
    rw [halone socket hne]
    rfl

theorem Converges.drains (h : s.Converges last busy) (hmatched : s.Matched labels)
    (hplacing : s.Placing) (hlink : s.links socket = some link) :
    Ledger.Answers (link.toGateway ++ ExchangeLab.coming socket (s.core.sending busy))
        link.session.ledger ∧
      link.Drains (handledBy socket labels) (s.drained busy socket link) :=
  (hmatched.links socket link hlink).drains (hplacing.links socket link hlink)
    (hmatched.coming h.alone socket)

/-- The core does not know an order whose request it has not handled. -/
theorem Sole.unknown (h : s.Sole last labels) (hplacing : s.Placing) (hmatched : s.Matched labels)
    (hlink : s.links socket = some link) {request : Request} (hmem : request ∈ link.unhandled)
    {id : OrderId} (hplaced : request.core.placedId = some id) : ¬s.Knows id := by
  intro hknows
  obtain ⟨done, waiting, hrequests, hdone, hwaiting⟩ := (hmatched.links socket link hlink).sent
  rw [Link.Matched.unhandled_eq hrequests hwaiting] at hmem
  have hall : request ∈ link.requests := by
    rw [hrequests]
    exact List.mem_append_right _ hmem
  obtain ⟨i, other, emissions, hi, hother, hhandled, -⟩ :=
    h.accepted socket link hlink id (Link.mem_placed hall hplaced) hknows
  obtain ⟨j, hj⟩ := List.mem_iff_getElem?.mp hmem
  have hat : link.requests[done.length + j]? = some request := by
    rw [hrequests, List.getElem?_append_right (Nat.le_add_right _ _), Nat.add_sub_cancel_left]
    exact hj
  have heq := Link.placed_at (hplacing.links socket link hlink).once hi hat hother hplaced
  have hlt := (List.getElem?_eq_some_iff.mp hhandled).1
  rw [← hdone.length_eq, heq] at hlt
  omega

theorem untraded {id : OrderId} (h : ¬s.Knows id) : traded id s.executions = 0 := by
  refine shares_eq_zero fun key hmem => SelfTradeKey.share_of_ne fun hnamed => h ?_
  obtain ⟨execution, hexecution, rfl⟩ := List.mem_map.mp hmem
  exact .inr ⟨_, .inl ⟨execution, hexecution, rfl⟩, hnamed⟩

/-! ## Handled frames -/

section Handle

variable {sender : Socket} {frame : Frame} {server₁ : ExchangeServer} {emissions : List Emission}
  {log : List Event}

theorem Converges.mem_placed (h : s.Converges last busy) (hplacing : s.Placing)
    (hmatched : s.Matched labels) (hlink : s.links socket = some link) {id : OrderId}
    (hsome : (s.drained busy socket link).standing id ≠ none) : id ∈ link.placed := by
  obtain ⟨order, horder⟩ := Option.isSome_iff_exists.mp (Ledger.standing_ne_none.mp hsome)
  exact ((h.drains hmatched hplacing hlink).2.orders id order horder).1

/-- A session has its orders that the core knows. -/
theorem Converges.present (h : s.Converges last busy) (hsole : s.Sole last labels)
    (hplacing : s.Placing) (hmatched : s.Matched labels) (hlink : s.links socket = some link)
    {id : OrderId} (hid : id ∈ link.placed) (hknows : s.Knows id) :
    (s.drained busy socket link).standing id ≠ none := by
  have hpresent := (h.drains hmatched hplacing hlink).2.present id
    (hsole.accepted socket link hlink id hid hknows)
  exact Ledger.standing_ne_none.mpr (Option.isSome_iff_ne_none.mpr hpresent)

/-- The request behind the frame that is handled for a session. -/
theorem Matched.next (h : s.Matched labels)
    (hstep : Step config s (.core (.handle sender frame emissions)) s')
    (hlink : s.links sender = some link) :
    ∃ request waiting, link.unhandled = request :: waiting ∧ request ∈ link.requests ∧
      frame = request.frame ∧ ∃ link', s'.links sender = some link' ∧ link'.session = link.session ∧
        link'.toGateway = link.toGateway ∧ link'.unhandled = waiting := by
  cases hstep with
  | core hcore hlinks =>
    cases hlinks with
    | command _ _ hnone =>
      rw [hlink] at hnone
      cases hnone
    | @request _ other _ rest _ hother hnext =>
      rw [hlink] at hother
      cases hother
      obtain ⟨done, waiting, hrequests, -, hwaiting⟩ := (h.links sender link hlink).sent
      have hunhandled := Link.Matched.unhandled_eq hrequests hwaiting
      rw [hnext] at hwaiting
      obtain ⟨request, waiting, rfl, rfl, rfl⟩ := List.map_eq_cons_iff.mp hwaiting.symm
      refine ⟨request, waiting, hunhandled, ?_, rfl, _, Function.update_self .., rfl, rfl,
        @Link.Matched.unhandled_eq _ (done ++ [request]) waiting ?_ rfl⟩
      · rw [hrequests]
        exact List.mem_append_right _ (.head _)
      · exact hrequests.trans (List.append_cons done request waiting)

/-- An order that a handler lets trade is of its session if it is of any, and the session has it. -/
theorem Converges.works (h : s.Converges last busy) (hsole : s.Sole last labels)
    (hplacing : s.Placing) (hmatched : s.Matched labels) (hown : Ownership log s.core.server)
    (hlast : s.nextNumericOrderId ≤ last) (hsocket : 0 ≤ sender)
    (hstep : Step config s (.core (.handle sender frame emissions)) s')
    (hunused : s.UnusedIds last (.core (.handle sender frame emissions)))
    (hlink : s.links socket = some link) {id : OrderId} (hid : id ∈ link.placed)
    (hworks : s.core.server.WorksFor sender frame emissions id) :
    sender = socket ∧ (s.drained busy socket link).standing id ≠ none := by
  obtain ⟨rfl, -⟩ := (hsole.worksFor hplacing hmatched hown hlast hstep hunused hworks).2
    socket link hlink hid
  refine ⟨rfl, ?_⟩
  rcases hworks with ⟨-, new, hcommand, rfl⟩ | ⟨x, owner, howner, -⟩
  · obtain ⟨request, waiting, hunhandled, hmem, rfl, -⟩ := hmatched.next hstep hlink
    have hdecodes := ((hmatched.links socket link hlink).sound request hmem).decodes
    rw [hcommand] at hdecodes
    have hcore : CoreRequest.newOrder new = request.core :=
      CoreRequest.command_injective (Option.some.inj hdecodes)
    have hsent := ((h.links socket link hlink).current hsocket).unhandled request
      (by rw [hunhandled]; exact .head _) new hcore.symm
    rw [hsent]
    exact Option.some_ne_none _
  · exact h.present hsole hplacing hmatched hlink hid (.inl ⟨x, recorded_rests hown howner⟩)

/-- An order that rests is recorded with the session that placed it, and the session has it. -/
theorem Converges.resting (h : s.Converges last busy) (hsole : s.Sole last labels)
    (hplacing : s.Placing) (hmatched : s.Matched labels) (hlast : s.nextNumericOrderId ≤ last)
    (hlink : s.links socket = some link) {x : Bytes} {id : OrderId} (hid : id ∈ link.placed)
    (hrests : s.core.server.Rests x id) :
    ((s.core.server.recordedOwner x id).getD {}).socket = socket ∧
      (s.drained busy socket link).standing id ≠ none := by
  obtain ⟨owner, howner⟩ := Option.ne_none_iff_exists'.mp
    (hsole.recorded x id (hplacing.gatewayId hlast hlink hid).1 hrests)
  rw [howner]
  exact ⟨hsole.owners socket link hlink id hid x owner howner,
    h.present hsole hplacing hmatched hlink hid (.inl ⟨x, hrests⟩)⟩

/-- Each session gets its copies of what a handler executes. -/
theorem Converges.copied (h : s.Converges last busy) (hbefore : s.Accounted last labels)
    (hplacing : s.Placing) (hmatched : s.Matched labels) (hown : Ownership log s.core.server)
    (hlast : s.nextNumericOrderId ≤ last)
    (hstep : Step config s (.core (.handle sender frame emissions)) s')
    (hunused : s.UnusedIds last (.core (.handle sender frame emissions)))
    (hopen : sender ∈ s.core.server.clientSockets)
    (hturnover : Turnover sender frame s.core.server server₁ emissions)
    (hlink : s.links socket = some link) {execution : Execution}
    (hmem : execution ∈ executionsOf emissions) :
    execution.Copied socket fun id => (s.drained busy socket link).standing id ≠ none := by
  have hsole := hbefore.booked.sole
  have hconnected := hbefore.booked.connected
  obtain ⟨incoming, hworks, hcrossing⟩ := hturnover.crossings execution hmem
  have hone : ¬link.owns execution.key = true → ∀ {id}, id ∈ link.placed →
      id = execution.key.buyOrderId ∨ id = execution.key.sellOrderId →
        (execution.buyerSocket = socket ↔ execution.sellerSocket ≠ socket) :=
    fun hforeign _ hid hnamed => hsole.one_copy hplacing hmatched hconnected hbefore.own hown hlast
      hstep hunused hopen hworks hcrossing hlink hforeign hid hnamed
  obtain ⟨hsymbol, hquantity, x, resting, -, hrests, horders⟩ := hcrossing
  have hsides : (execution.trade.buyOrderId ∈ link.placed → execution.buyerSocket = socket ∧
        (s.drained busy socket link).standing execution.trade.buyOrderId ≠ none) ∧
      (execution.trade.sellOrderId ∈ link.placed → execution.sellerSocket = socket ∧
        (s.drained busy socket link).standing execution.trade.sellOrderId ≠ none) := by
    have hincoming := fun hid => h.works hsole hplacing hmatched hown hlast (hconnected _ hopen) hstep
      hunused hlink hid hworks
    have hresting := fun hid => h.resting hsole hplacing hmatched hlast hlink hid hrests
    rcases horders with ⟨hids, hbuyer, hseller⟩ | ⟨hids, hbuyer, hseller⟩
    · cases hids
      rw [hbuyer, hseller]
      exact ⟨hincoming, hresting⟩
    · cases hids
      rw [hbuyer, hseller]
      exact ⟨hresting, hincoming⟩
  have hplaced : ∀ {id}, (s.drained busy socket link).standing id ≠ none → id ∈ link.placed :=
    h.mem_placed hplacing hmatched hlink
  refine ⟨hsymbol, hquantity, fun hbuy hsell => ?_, fun hboth hany => ?_⟩
  · exact ⟨(hsides.1 (hplaced hbuy)).1, (hsides.2 (hplaced hsell)).1⟩
  · have hforeign : ¬link.owns execution.key = true := fun howns => by
      obtain ⟨hbuy, hsell⟩ := Link.owns_iff.mp howns
      exact hboth ⟨(hsides.1 hbuy).2, (hsides.2 hsell).2⟩
    rcases hany with hbuy | hsell
    · exact hone hforeign (hplaced hbuy) (.inl rfl)
    · exact hone hforeign (hplaced hsell) (.inr rfl)

/-- What the handler of a frame sends comes behind all that is on the way. -/
theorem drained_handle (hidle : s.core.sending busy = []) (hsending : s'.core.sending sender = emissions)
    {link' : Link} (hsession : link'.session = link.session)
    (hgateway : link'.toGateway = link.toGateway) :
    s'.drained sender socket link' =
      (s.drained busy socket link).absorbAll (ExchangeLab.coming socket emissions) := by
  rw [drained, hsession, hgateway, hsending, drained, hidle, ← Ledger.absorbAll_append]
  rw [List.append_assoc]
  rfl

/-- The request behind the frame is the next to be answered. -/
theorem Converges.fronts (h : s.Converges last busy) (hsole : s.Sole last labels)
    (hplacing : s.Placing) (hmatched : s.Matched labels) (hlink : s.links socket = some link)
    {request : Request} {waiting : List Request} (hunhandled : link.unhandled = request :: waiting)
    (hmem : request ∈ link.requests) :
    Ledger.Fronts s.core.server request waiting (s.drained busy socket link) := by
  have hdrains := (h.drains hmatched hplacing hlink).2
  refine ⟨⟨entriesOf request.orderId waiting, ?_⟩,
    ((hmatched.links socket link hlink).sound request hmem).kind,
    fun id order horder => (hdrains.orders id order horder).2, fun other hother id hplaced y hrests => ?_,
    fun other hother id hplaced hsame => ?_⟩
  · rw [hdrains.pending, hunhandled, entriesOf_cons, if_pos rfl]
  · rw [← hunhandled] at hother
    exact hsole.unknown hplacing hmatched hlink hother hplaced (.inl ⟨y, hrests⟩)
  · have hdistinct := List.pairwise_filterMap.mp (hplacing.links socket link hlink).once
    have hsuffix := hdistinct.sublist (List.drop_sublist
      (link.requests.length - link.toCore.length) link.requests)
    rw [← Link.unhandled, hunhandled] at hsuffix
    exact (List.pairwise_cons.mp hsuffix).1 other hother id hplaced id hsame rfl

theorem follows_other {links links' : Socket → Option Link}
    (h : Follows links (.handle sender frame emissions) links') (hne : socket ≠ sender) :
    links' socket = links socket := by
  cases h with
  | command => rfl
  | request => exact Function.update_of_ne hne _ _

/-- A handler leaves what has been sent to the sessions. -/
theorem follows_gateway {links links' : Socket → Option Link}
    (h : Follows links (.handle sender frame emissions) links') {link' : Link}
    (hlink' : links' socket = some link') :
    ∃ link, links socket = some link ∧ link'.SameSession link ∧
      link'.toGateway = link.toGateway := by
  by_cases hsame : socket = sender
  · subst hsame
    cases h with
    | command => exact ⟨link', hlink', ⟨rfl, rfl, rfl⟩, rfl⟩
    | request _ hlink =>
      cases (Function.update_self socket _ links).symm.trans hlink'
      exact ⟨_, hlink, ⟨rfl, rfl, rfl⟩, rfl⟩
  · exact ⟨link', (follows_other h hsame).symm.trans hlink', ⟨rfl, rfl, rfl⟩, rfl⟩

/-- The session's own frame is handled. -/
theorem Converges.current_own (h : s.Converges last busy) (hsole : s.Sole last labels)
    (hplacing : s.Placing) (hmatched : s.Matched labels) (hownership : Ownership log s.core.server)
    (hlast : s.nextNumericOrderId ≤ last) (hopen : sender ∈ s.core.server.clientSockets)
    (hsocket : 0 ≤ sender) (hlink : s.links sender = some link) {request : Request}
    {waiting : List Request} (hunhandled : link.unhandled = request :: waiting)
    (hmem : request ∈ link.requests) {order : SetOrder}
    (hrun : handleMessage order sender request.frame s.core.server = .ok (server₁, emissions))
    (hcopied : ∀ execution ∈ executionsOf emissions,
      execution.Copied sender fun id => (s.drained busy sender link).standing id ≠ none) :
    ((s.drained busy sender link).absorbAll (ExchangeLab.coming sender emissions)).Current waiting
      server₁ (s.executions ++ executionsOf emissions) := by
  have hsound := (hmatched.links sender link hlink).sound request hmem
  have hcurrent := (h.links sender link hlink).current hsocket
  rw [hunhandled] at hcurrent
  have hresponds := handleMessage_respondsTo hsound.decodes hrun
  rw [request.core.command_orderId] at hresponds
  have hplaced := (hplacing.links sender link hlink).requests request hmem
  have huntraded : ∀ id, request.core.placedId = some id → traded id s.executions = 0 :=
    fun id hid => untraded (hsole.unknown hplacing hmatched hlink
      (by rw [hunhandled]; exact .head _) hid)
  exact hcurrent.own (h.fronts hsole hplacing hmatched hlink hunhandled hmem) hsound.decodes
    (handleMessage_cases hownership.books hrun) hresponds hownership hopen hsocket
    (h.restable _ (hplacing.gatewayId hlast hlink hplaced).1) huntraded hcopied

/-- A frame of another session is handled. -/
theorem Converges.current_other (h : s.Converges last busy) (hsole : s.Sole last labels)
    (hplacing : s.Placing) (hmatched : s.Matched labels) (hownership : Ownership log s.core.server)
    (hopen : sender ∈ s.core.server.clientSockets) (hsocket : 0 ≤ socket) (hne : socket ≠ sender)
    (hlink : s.links socket = some link) {order : SetOrder}
    (hhandled : Handled order sender frame s.core.server server₁ emissions)
    (hforeign : ∀ id, s.core.server.WorksFor sender frame emissions id → id ∉ link.placed)
    (hcopied : ∀ execution ∈ executionsOf emissions,
      execution.Copied socket fun id => (s.drained busy socket link).standing id ≠ none) :
    ((s.drained busy socket link).absorbAll (ExchangeLab.coming socket emissions)).Current
      link.unhandled server₁ (s.executions ++ executionsOf emissions) := by
  obtain ⟨x, named, hdepletes, hnamed⟩ := hhandled.depletes hownership hopen
  have hcurrent := (h.links socket link hlink).current hsocket
  have hresponses : ∀ emission ∈ emissions, emission.isResponse = true →
      emission.reaches socket = false := by
    intro emission hmem hresponse
    obtain ⟨_, _, _, rfl⟩ := hhandled.addressed hmem hresponse
    exact decide_eq_false (Ne.symm hne)
  have htakes := Ledger.absorb_handled hsocket (hhandled.turnover hownership hopen).copies hresponses
    hcurrent.empty hcurrent.even hcopied
  refine hcurrent.other hdepletes (fun request hmem id hplaced y hrests => ?_)
    (Ledger.absorbAll_keepsOrders _ _) htakes fun id hid => ?_
  · exact hsole.unknown hplacing hmatched hlink hmem hplaced (.inl ⟨y, hrests⟩)
  · by_contra hsome
    exact hforeign id (hnamed id hid) (h.mem_placed hplacing hmatched hlink hsome)

/-- A frame is handled while no thread has anything to send. -/
theorem Converges.handle (h : s.Converges last busy) (hbefore : s.Accounted last labels)
    (hplacing : s.Placing) (hmatched : s.Matched labels) (hownership : Ownership log s.core.server)
    (hlast : s.nextNumericOrderId ≤ last)
    (hstep : Step config s (.core (.handle sender frame emissions)) s')
    (hidle : ∀ other, s.core.sending other = [])
    (hunused : s.UnusedIds last (.core (.handle sender frame emissions))) :
    s'.Converges last sender := by
  have hsole := hbefore.booked.sole
  have hunchanged := hstep
  cases hstep with
  | core hcore hlinks =>
    cases hcore with
    | @handle _ _ server₁ _ order hopen hready hrun =>
      have hhandled := handleMessage_cases hownership.books hrun
      have hcopied : ∀ socket link, s.links socket = some link → ∀ execution ∈ executionsOf emissions,
          execution.Copied socket fun id => (s.drained busy socket link).standing id ≠ none :=
        fun socket link hlink execution hmem => h.copied hbefore hplacing hmatched hownership hlast
          hunchanged hunused hopen (hhandled.turnover hownership hopen) hlink hmem
      refine ⟨fun other hne => ?_, fun socket link' hlink' =>
        ⟨fun hsocket => ?_, fun hclosed => ?_, ?_⟩, fun id hid x => ?_⟩
      · exact (Function.update_of_ne hne _ _).trans (hidle other)
      · by_cases hsame : socket = sender
        · subst hsame
          obtain ⟨link, hlink, -⟩ := hlinks.sameSession hlink'
          obtain ⟨request, waiting, hunhandled, hmem, rfl, other, hother, hsession, hgateway, hrest⟩ :=
            hmatched.next hunchanged hlink
          cases hlink'.symm.trans hother
          rw [hrest, drained_handle (hidle busy) (Function.update_self ..) hsession hgateway]
          exact h.current_own hsole hplacing hmatched hownership hlast hopen hsocket hlink hunhandled
            hmem hrun (hcopied socket link hlink)
        · have hlink : s.links socket = some link' := (follows_other hlinks hsame).symm.trans hlink'
          rw [drained_handle (hidle busy) (Function.update_self ..) rfl rfl]
          refine h.current_other hsole hplacing hmatched hownership hopen hsocket hsame hlink hhandled
            (fun id hworks hplaced => hsame ?_) (hcopied socket link' hlink)
          exact ((hsole.worksFor hplacing hmatched hownership hlast hunchanged hunused hworks).2
            socket link' hlink hplaced).1
      · obtain ⟨link, hlink, hsame, hgateway⟩ := follows_gateway hlinks hlink'
        rw [hsame.1, hgateway]
        refine (h.links socket link hlink).unconnected fun hconnected => hclosed ?_
        exact hhandled.sameSessions.sockets ▸ hconnected
      · obtain ⟨link, hlink, hsame⟩ := hlinks.sameSession hlink'
        rw [hsame.1, hsame.placed]
        exact (h.links socket link hlink).awaiting
      · exact hhandled.restable hownership hopen (h.restable id hid x)

end Handle

/-! ## Sends -/

theorem reaches_of_received {emission : Emission} {server : ExchangeServer}
    (h : emission.unaddressed = false ∧ socket ∈ server.recipients emission) :
    emission.reaches socket = true := by
  obtain ⟨haddressed, hmem⟩ := h
  cases emission with
  | orderResponse address =>
    rw [List.mem_singleton.mp hmem]
    exact decide_eq_true rfl
  | tradeExecution address =>
    have hnonneg : 0 ≤ address := Int.not_lt.mp (of_decide_eq_false haddressed)
    rw [List.mem_singleton.mp hmem]
    simp [Emission.reaches, hnonneg]
  | bookUpdate | level3AddOrder | level3OrderExecuted | level3OrderDeleted => rfl

/-- A copy misses a session only where it goes to all that are connected. -/
theorem missed {emission : Emission} {server : ExchangeServer}
    (h : ¬(emission.unaddressed = false ∧ socket ∈ server.recipients emission))
    (hreaches : emission.reaches socket = true) :
    emission.trade = none ∧ emission.isResponse = false ∧ socket ∉ server.clientSockets := by
  cases emission with
  | orderResponse address =>
    exact absurd ⟨rfl, List.mem_singleton.mpr (of_decide_eq_true hreaches).symm⟩ h
  | tradeExecution address =>
    rw [Emission.reaches, Bool.and_eq_true, decide_eq_true_eq, decide_eq_true_eq] at hreaches
    exact absurd ⟨decide_eq_false (Int.not_lt.mpr hreaches.1),
      List.mem_singleton.mpr hreaches.2.symm⟩ h
  | bookUpdate | level3AddOrder | level3OrderExecuted | level3OrderDeleted =>
    exact ⟨rfl, rfl, fun hmem => h ⟨rfl, hmem⟩⟩

theorem emit_link {links : Socket → Option Link} {emission : Emission} {server : ExchangeServer}
    {link' : Link} (h : (emit emission server).2.foldl deliverSent links socket = some link') :
    ∃ link, links socket = some link ∧ link' = { link with
      toGateway := link.toGateway ++
        if emission.unaddressed = false ∧ socket ∈ server.recipients emission then
          [emission.coreMessage (UInt64.ofNat server.nextSequenceNumber)] else [] } := by
  unfold emit at h
  split at h
  · rename_i hunaddressed
    refine ⟨link', h, ?_⟩
    have hmissed : ¬(emission.unaddressed = false ∧ socket ∈ server.recipients emission) := by
      rw [hunaddressed]
      exact fun hboth => Bool.noConfusion hboth.1
    rw [if_neg hmissed, List.append_nil]
  · rename_i haddressed
    obtain ⟨link, hlink, rfl⟩ := Option.map_eq_some_iff.mp h
    refine ⟨link, hlink, ?_⟩
    by_cases hmem : socket ∈ server.recipients emission
    · rw [if_pos hmem, if_pos ⟨eq_false_of_ne_true haddressed, hmem⟩]
      rfl
    · rw [if_neg hmem, if_neg fun hboth => hmem hboth.2, List.append_nil]

/-- Sending a message takes nothing from what will have arrived. -/
theorem absorbAll_send {emission : Emission} {rest : List Emission} {server : ExchangeServer} {l : Ledger}
    {messages : List CoreMessage} (n : UInt64)
    (hempty : socket ∉ server.clientSockets → (l.absorbAll messages).awaiting = ∅) :
    l.absorbAll (messages ++ (if emission.unaddressed = false ∧ socket ∈ server.recipients emission then
        [emission.coreMessage n] else []) ++ ExchangeLab.coming socket rest) =
      l.absorbAll (messages ++ ExchangeLab.coming socket (emission :: rest)) := by
  have hhead : ExchangeLab.coming socket (emission :: rest) =
      ExchangeLab.coming socket [emission] ++ ExchangeLab.coming socket rest :=
    coming_append socket [emission] rest
  have hone : emission.reaches socket = true →
      ExchangeLab.coming socket [emission] = [emission.coreMessage 0] := fun hreaches => by
    rw [ExchangeLab.coming, List.filter_cons_of_pos hreaches]
    rfl
  rw [hhead, ← List.append_assoc, Ledger.absorbAll_append, Ledger.absorbAll_append _ _ l,
    Ledger.absorbAll_append, Ledger.absorbAll_append]
  congr 1
  split
  · rename_i hreceived
    rw [hone (reaches_of_received hreceived)]
    exact Ledger.absorb_coreMessage n emission _
  · rename_i hmissed
    cases hreaches : emission.reaches socket with
    | false =>
      rw [ExchangeLab.coming, List.filter_cons_of_neg (by rw [hreaches]; exact Bool.false_ne_true)]
      rfl
    | true =>
      obtain ⟨htrade, hresponse, hclosed⟩ := missed hmissed hreaches
      rw [hone hreaches]
      exact (Ledger.absorb_untraded htrade hresponse (hempty hclosed)).symm

theorem Converges.send (h : s.Converges last busy) (hmatched : s.Matched labels)
    {sender : Socket} {emission : Emission} {rest : List Emission}
    (hnext : s.core.sending sender = emission :: rest) :
    Converges last busy ⟨⟨(emit emission s.core.server).1, Function.update s.core.sending sender rest⟩,
      (emit emission s.core.server).2.foldl deliverSent s.links, s.nextNumericOrderId,
      s.executions⟩ := by
  have hopen : sender ∈ s.core.server.clientSockets := by
    by_contra hclosed
    rw [hmatched.silent sender hclosed] at hnext
    cases hnext
  obtain rfl : sender = busy := by
    by_contra hne
    rw [h.alone sender hne] at hnext
    cases hnext
  obtain ⟨n, -, hstate⟩ := emit_state emission s.core.server
  refine ⟨fun other hne => ?_, fun socket link' hlink' => ⟨fun hsocket => ?_, fun hclosed => ?_, ?_⟩,
    fun id hid x => ?_⟩
  · exact (Function.update_of_ne hne _ _).trans (h.alone other hne)
  · obtain ⟨link, hlink, rfl⟩ := emit_link hlink'
    have hcurrent := (h.links socket link hlink).current hsocket
    rw [drained, hnext, ← absorbAll_send (UInt64.ofNat s.core.server.nextSequenceNumber)
      (h.links socket link hlink).absorbed] at hcurrent
    rw [drained, hstate]
    dsimp only
    rw [Function.update_self]
    exact hcurrent.congr fun _ => rfl
  · rw [hstate] at hclosed
    obtain ⟨link, hlink, rfl⟩ := emit_link hlink'
    obtain ⟨hempty, hanswers⟩ := (h.links socket link hlink).unconnected hclosed
    refine ⟨hempty, fun message hmem => ?_⟩
    rcases List.mem_append.mp hmem with hmem | hmem
    · exact hanswers message hmem
    split at hmem
    · rename_i hreceived
      rw [List.mem_singleton.mp hmem]
      refine answer_of_not_response _ ?_
      by_contra hyes
      obtain ⟨_, _, _, rfl⟩ := hmatched.addressed sender emission (by rw [hnext]; exact .head _)
        (eq_true_of_ne_false hyes)
      exact hclosed (List.mem_singleton.mp hreceived.2 ▸ hopen)
    · cases hmem
  · obtain ⟨link, hlink, rfl⟩ := emit_link hlink'
    exact (h.links socket link hlink).awaiting
  · rw [hstate]
    exact h.restable id hid x

/-! ## Messages of the client -/

/-- What is on the way to a session is about orders that were placed. -/
theorem Converges.unnamed (h : s.Converges last busy) (hsole : s.Sole last labels)
    (hplacing : s.Placing) (hmatched : s.Matched labels) (hlink : s.links socket = some link)
    {id : OrderId} (huntaken : s.Untaken last id) {message : CoreMessage}
    (hmem : message ∈ link.toGateway ++ ExchangeLab.coming socket (s.core.sending busy)) :
    ¬message.Names id := by
  have hlinkMatched := hmatched.links socket link hlink
  rintro (⟨success, hanswer⟩ | ⟨execution, hexecution, hid⟩)
  · obtain ⟨done, waiting, hrequests, hdone, -⟩ := hlinkMatched.sent
    have hflow := hlinkMatched.flow
    rw [hmatched.coming h.alone socket, List.append_assoc, ← List.filterMap_append] at hflow
    have hanswered : (id, success) ∈ answersOf (handledBy socket labels) := by
      rw [hflow]
      exact List.mem_append_right _ (List.mem_filterMap.mpr ⟨message, hmem, hanswer⟩)
    obtain ⟨request, hrequest, rfl⟩ := mem_answersOf hdone hanswered
    have hplaced := (hplacing.links socket link hlink).requests request (by
      rw [hrequests]
      exact List.mem_append_left _ hrequest)
    exact Nat.not_lt.mpr huntaken.1 ((hplacing.links socket link hlink).drawn _ hplaced).2
  · have hkey : message.key = some (selfTradeKey execution) := by
      rw [CoreMessage.key, hexecution]
      rfl
    have hnames : s.Names (selfTradeKey execution) := by
      rcases List.mem_append.mp hmem with hmem | hmem
      · exact .inr (.inr ⟨socket, link, hlink,
          List.mem_append_right _ (List.mem_filterMap.mpr ⟨message, hmem, hkey⟩)⟩)
      · obtain ⟨emission, hemission, rfl⟩ := List.mem_map.mp hmem
        have hsent := List.mem_of_mem_filter hemission
        exact .inr (.inl ⟨busy, emission, hsent, (hsole.key_eq hsent 0).symm.trans hkey⟩)
    exact hsole.fresh id huntaken (.inr ⟨_, hnames, hid⟩)

theorem Converges.client (h : s.Converges last busy) (hsole : s.Sole last labels)
    (hplacing : s.Placing) (hmatched : s.Matched labels) (hlink : s.links socket = some link)
    (hcounter : s.nextNumericOrderId < 2 ^ 64) {surroundings : Surroundings} {message : Fix.Message}
    {effects : Effects} (hlast : effects.nextNumericOrderId ≤ last)
    (heffect : ClientEffect surroundings s.nextNumericOrderId message link.session effects) :
    s.Informed busy socket (link.forward effects) := by
  have hlinkPlacing := hplacing.links socket link hlink
  have hinformed := h.links socket link hlink
  have hid : (UInt64.ofNat s.nextNumericOrderId).toNat = s.nextNumericOrderId :=
    UInt64.toNat_ofNat_of_lt' hcounter
  have hundrawn := hlinkPlacing.undrawn hcounter
  have hawaiting : (link.forward effects).session.ledger.awaiting = link.session.ledger.awaiting :=
    heffect.awaiting
  refine ⟨fun hsocket => ?_, fun hclosed => ?_, fun id hmem => ?_⟩
  · obtain ⟨done, waiting, hrequests, -, hwaiting⟩ := (hmatched.links socket link hlink).sent
    have hlength : link.toCore.length ≤ link.requests.length := by
      rw [hrequests, hwaiting, List.length_append, List.length_map]
      exact Nat.le_add_left _ _
    rw [Link.unhandled_forward hlength]
    refine (hinformed.current hsocket).client (h.drains hmatched hplacing hlink).1 hlinkPlacing hcounter
      (fun hnext message hmem => ?_) (fun hmem => hundrawn (hinformed.awaiting _ hmem)) heffect
    exact h.unnamed hsole hplacing hmatched hlink ⟨hid.ge, by omega⟩ hmem
  · obtain ⟨hempty, hanswers⟩ := hinformed.unconnected hclosed
    exact ⟨hawaiting.trans hempty, hanswers⟩
  · rw [hawaiting] at hmem
    rw [Link.placed_forward]
    exact List.mem_append_left _ (hinformed.awaiting id hmem)

/-! ## Steps -/

theorem informed_start (hmatched : s.Matched labels) (hclosed : socket ∉ s.core.server.clientSockets)
    (seconds : UInt32) : s.Informed busy socket { session := { heartbeatSeconds := seconds } } := by
  have hempty : (SessionContext.ledger { heartbeatSeconds := seconds }).awaiting = ∅ :=
    Set.eq_empty_of_forall_notMem fun _ hmem => by cases hmem
  refine ⟨fun _ => ?_, fun _ => ⟨hempty, fun _ hmem => by cases hmem⟩, fun _ hmem => by cases hmem⟩
  have hanswers : ∀ message ∈ ExchangeLab.coming socket (s.core.sending busy),
      message.answer = none := by
    intro message hmem
    obtain ⟨emission, hemission, rfl⟩ := List.mem_map.mp hmem
    obtain ⟨hsent, hreaches⟩ := List.mem_filter.mp hemission
    refine answer_of_not_response 0 (eq_false_of_ne_true fun hresponse => ?_)
    obtain ⟨_, _, _, rfl⟩ := hmatched.addressed busy emission hsent hresponse
    rw [← of_decide_eq_true hreaches] at hclosed
    rw [hmatched.silent busy hclosed] at hsent
    cases hsent
  rw [drained, List.nil_append, Ledger.absorbAll_vacant (fun _ => rfl) hempty hanswers]
  exact ⟨hempty, rfl, fun _ hmem => (by cases hmem), fun _ hmem => (by cases hmem),
    fun _ hmem => (by cases hmem), fun _ _ hstanding => by cases hstanding⟩

/-- The next message arrives. -/
theorem Informed.deliver (h : s.Informed busy socket link) (hplacing : link.Placing s.nextNumericOrderId)
    {message : CoreMessage} {rest : List CoreMessage} (hnext : link.toGateway = message :: rest)
    (iteration : SetOrder) : s.Informed busy socket (link.process iteration message rest) := by
  have hledger : (link.process iteration message rest).session.ledger =
      link.session.ledger.absorb message := ledger_processCoreMessage link.session iteration message
  refine ⟨fun hsocket => ?_, fun hclosed => ?_, fun id hmem => ?_⟩
  · have hcurrent := h.current hsocket
    rw [drained, hnext] at hcurrent
    rw [drained, hledger]
    exact hcurrent
  · obtain ⟨hempty, hanswers⟩ := h.unconnected hclosed
    rw [hnext] at hanswers
    have hsubset := (Ledger.absorb_of_no_answer (l := link.session.ledger)
      (hanswers message (.head _))).2.2
    rw [hempty] at hsubset
    rw [hledger]
    exact ⟨Set.subset_empty_iff.mp hsubset, fun other hother => hanswers other (.tail _ hother)⟩
  · rw [hledger] at hmem
    rcases Ledger.absorb_awaiting (fun id order horder => (hplacing.orders id order horder).2) hmem with
      hmem | hsome
    · exact h.awaiting id hmem
    · obtain ⟨order, horder⟩ := Option.ne_none_iff_exists'.mp hsome
      exact (hplacing.orders id order horder).1

/-- The instruments stay, and nothing is sent or traded. -/
theorem Converges.quiet (h : s.Converges last busy)
    (hinstruments : s'.core.server.instruments = s.core.server.instruments)
    (hsending : s'.core.sending = s.core.sending) (hexecutions : s'.executions = s.executions)
    (hlinks : ∀ socket link, s'.links socket = some link → s.Informed busy socket link ∧
      (socket ∉ s'.core.server.clientSockets → socket ∉ s.core.server.clientSockets)) :
    s'.Converges last busy := by
  have hat : ∀ x, s'.core.server.instrumentFor x = s.core.server.instrumentFor x := by
    intro x
    rw [instrumentFor, findInstrument, hinstruments]
    rfl
  refine ⟨fun other hne => ?_, fun socket link hlink => ?_, fun id hid x => ?_⟩
  · rw [hsending]
    exact h.alone other hne
  · obtain ⟨hinformed, hclosed⟩ := hlinks socket link hlink
    refine ⟨fun hsocket => ?_, fun hnot => hinformed.unconnected (hclosed hnot), hinformed.awaiting⟩
    have hcurrent := hinformed.current hsocket
    rw [drained, hsending, hexecutions]
    exact hcurrent.congr hat
  · rw [Restable, hat]
    exact h.restable id hid x

theorem Step.converges (h : s.Converges last busy) (hbefore : s.Accounted last labels)
    (hplacing : s.Placing) (hmatched : s.Matched labels) {log : List Event}
    (hownership : Ownership log s.core.server) (hjournal : s.core.server.journal.isSome = true)
    (hstep : Step config s label s') (hlast : s'.nextNumericOrderId ≤ last)
    (hunused : s.UnusedIds last label) : ∃ busy', s'.Converges last busy' := by
  have hsole := hbefore.booked.sole
  have hunchanged := hstep
  have hold := hstep.nextNumericOrderId_le.trans hlast
  -- the links that a step of a session leaves
  have hset : ∀ other link, s.Informed busy other link →
      ∀ socket link', (s.setLink other link).links socket = some link' →
        s.Informed busy socket link' ∧
          (socket ∉ s.core.server.clientSockets → socket ∉ s.core.server.clientSockets) := by
    intro other link hinformed socket link' hlink'
    rcases setLink_cases hlink' with ⟨rfl, rfl⟩ | ⟨-, hlink⟩
    · exact ⟨hinformed, id⟩
    · exact ⟨h.links socket link' hlink, id⟩
  cases hstep with
  | @accept socket hfree hnone =>
    exact ⟨busy, h.quiet rfl rfl rfl (hset socket _ (informed_start hmatched hfree _))⟩
  | @client socket link surroundings message hlink hopen hcounter =>
    exact ⟨busy, h.quiet rfl rfl rfl (hset socket _ (h.client hsole hplacing hmatched hlink hcounter
      hlast processFixMessage_effect))⟩
  | @deliver socket link message rest iteration hlink hnext =>
    exact ⟨busy, h.quiet rfl rfl rfl (hset socket _ ((h.links socket link hlink).deliver
      (hplacing.links socket link hlink) hnext iteration))⟩
  | core hcore hlinks =>
    cases hcore with
    | connect =>
      cases hlinks
      refine ⟨busy, h.quiet rfl rfl (List.append_nil _) fun socket link hlink => ?_⟩
      exact ⟨h.links socket link hlink, fun hnot hmem => hnot (List.mem_append_left _ hmem)⟩
    | @disconnect other =>
      cases hlinks
      refine ⟨busy, h.quiet rfl rfl (List.append_nil _) fun socket link hlink => ?_⟩
      have hlink : Function.update s.links other none socket = some link := hlink
      rw [Function.update_apply] at hlink
      split at hlink
      · cases hlink
      · rename_i hne
        exact ⟨h.links socket link hlink, fun hnot hmem => hnot ((List.mem_erase_of_ne hne).mpr hmem)⟩
    | setGlobalKillSwitch =>
      cases hlinks
      exact ⟨busy, h.quiet rfl rfl (List.append_nil _) fun socket link hlink =>
        ⟨h.links socket link hlink, id⟩⟩
    | @handle sender frame server₁ emissions order hopen hready hrun =>
      exact ⟨sender, h.handle hbefore hplacing hmatched hownership hold hunchanged
        (hready.2 hjournal) hunused⟩
    | send hnext =>
      cases hlinks
      have hsent := h.send hmatched hnext
      rw [← List.append_nil s.executions] at hsent
      exact ⟨busy, hsent⟩

/-! ## Runs -/

theorem converges_run {file : Option Bytes} (hstart : start limits (some file) = some server₀)
    (hfresh : ∀ x id, server₀.Rests x id → ¬GatewayId last id)
    (hrun : Run (fun s label s' => Step config s label s' ∧ s.Unshared last label)
      (starting server₀) labels s) (hlast : s.nextNumericOrderId ≤ last) :
    ∃ busy, s.Converges last busy := by
  induction hrun with
  | nil =>
    refine ⟨0, fun _ _ => rfl, fun _ _ hlink => (by cases hlink), fun id hid x r hr => ?_⟩
    exact absurd hid (hfresh x id (Option.ne_none_iff_exists'.mpr ⟨r, hr⟩))
  | snoc hrun hstep ih =>
    have hbefore := hrun.mono fun _ _ _ hstep => hstep.1
    have hold := hstep.1.nextNumericOrderId_le.trans hlast
    obtain ⟨busy, h⟩ := ih hold
    obtain ⟨log, hownership⟩ := ownership hstart hbefore
    obtain ⟨labels', hcore⟩ := core_run hbefore
    exact hstep.1.converges h (accounted_run hstart hfresh hrun hold) (placing_run hstart hbefore)
      (matched_run hstart hbefore) hownership (Concurrent.journaled hstart hcore) hlast hstep.2.1

/-- What goes to all that are connected does nothing to a session that is not. -/
theorem Converges.settled (h : s.Converges last busy) (hlink : s.links socket = some link)
    (hsettled : s.Settled socket link) : s.drained busy socket link = link.session.ledger := by
  have hmissed : ∀ emission ∈ s.core.sending busy, emission.reaches socket = true →
      emission.trade = none ∧ emission.isResponse = false ∧ socket ∉ s.core.server.clientSockets :=
    fun emission hmem => missed fun hboth => hsettled.2 busy emission hmem hboth.2
  rw [drained, hsettled.1, List.nil_append]
  by_cases hclosed : socket ∈ s.core.server.clientSockets
  · have hnone : ExchangeLab.coming socket (s.core.sending busy) = [] := by
      rw [ExchangeLab.coming, List.map_eq_nil_iff, List.filter_eq_nil_iff]
      exact fun emission hmem hreaches => (hmissed emission hmem hreaches).2.2 hclosed
    rw [hnone]
    rfl
  · have hnone : ExchangeLab.coming socket
        ((s.core.sending busy).filter fun emission => emission.trade.isSome) = [] := by
      rw [ExchangeLab.coming, List.map_eq_nil_iff, List.filter_eq_nil_iff]
      intro emission hmem hreaches
      obtain ⟨hmem, hsome⟩ := List.mem_filter.mp hmem
      rw [(hmissed emission hmem hreaches).1] at hsome
      cases hsome
    rw [Ledger.absorbAll_trades (fun emission hmem hresponse => ?_)
      ((h.links socket link hlink).unconnected hclosed).1, hnone]
    · rfl
    · refine eq_false_of_ne_true fun hreaches => ?_
      rw [(hmissed emission hmem hreaches).2.1] at hresponse
      cases hresponse

end Bridge

theorem of_entriesOf_nil {id : OrderId} {requests : List Request} (h : entriesOf id requests = []) :
    ∀ request ∈ requests, request.core.placedId ≠ some id := by
  intro request hmem hplaced
  obtain ⟨new, hnew, rfl⟩ := CoreRequest.eq_newOrder hplaced
  rw [entriesOf, List.map_eq_nil_iff, List.filter_eq_nil_iff] at h
  exact h request hmem (decide_eq_true (by rw [Request.orderId, hnew]; rfl))

/-- Next to a core with a journal, in every run in which the ids of the gateway's and the numbers of its
connections are used by its sessions only: once no message for a session is on the way, each of its
orders without a pending request has left what is left of it in the book, and has filled what the core
has traded of it. -/
theorem orders_agree {config : FixGatewayConfig} {limits : RiskLimits} {file : Option Bytes}
    {server₀ : ExchangeServer} {labels : List Bridge.Label} {s : Bridge}
    (hstart : start limits (some file) = some server₀)
    (hfresh : ∀ x id, server₀.Rests x id → ¬Bridge.GatewayId s.nextNumericOrderId id)
    (hrun : Run (fun s₁ label s₂ => Bridge.Step config s₁ label s₂ ∧
      s₁.Unshared s.nextNumericOrderId label) (.starting server₀) labels s)
    {socket : Socket} {link : Link} (hlink : s.links socket = some link)
    (hsettled : s.Settled socket link) {id : OrderId} {order : OrderState}
    (horder : link.session.orders.lookup id = some order) (hpending : link.session.pendingFor id = []) :
    order.leavesQuantity = s.core.server.remaining (symbolToString order.symbol) id ∧
      order.cumulativeQuantity = traded id s.executions := by
  obtain ⟨busy, h⟩ := Bridge.converges_run hstart hfresh hrun (Nat.le_refl _)
  have haccounted := Bridge.accounted_run hstart hfresh hrun (Nat.le_refl _)
  have hbefore := hrun.mono fun _ _ _ hstep => hstep.1
  have hplacing := Bridge.placing_run hstart hbefore
  have hmatched := Bridge.matched_run hstart hbefore
  have hdrains := (h.drains hmatched hplacing hlink).2
  rw [h.settled hlink hsettled] at hdrains
  -- the core has handled the request that placed the order
  have hhandled : ∀ request ∈ link.unhandled, request.core.placedId ≠ some id :=
    of_entriesOf_nil ((hdrains.pending id).symm.trans hpending)
  by_cases hsocket : 0 ≤ socket
  · have hcurrent := (h.links socket link hlink).current hsocket
    rw [h.settled hlink hsettled] at hcurrent
    have hagrees := hcurrent.handled id order.standing (by
      rw [Ledger.standing, ledger_orders, horder]
      rfl) hhandled
    exact ⟨hagrees.leaves, hagrees.cumulative⟩
  · -- no request of a session without a descriptor is ever handled
    exfalso
    obtain ⟨done, waiting, hrequests, hdone, hwaiting⟩ := (hmatched.links socket link hlink).sent
    have hnone : Bridge.handledBy socket labels = [] := by
      by_contra hsome
      exact hsocket (haccounted.heard socket hsome)
    rw [hnone] at hdone
    cases hdone
    rw [Link.Matched.unhandled_eq hrequests hwaiting, ← List.nil_append waiting, ← hrequests] at hhandled
    obtain ⟨request, hmem, hplaced⟩ :=
      List.mem_filterMap.mp ((hplacing.links socket link hlink).orders id order horder).1
    exact hhandled request hmem hplaced

/-- A session replaces an order without knowing yet of a trade of it, and buys of it itself. -/
def Bridge.staleMoves : List Bridge.Move :=
  [.accept 4, .client 4 .reachable .logon, .connect 4, .connect 5,
    .client 4 .reachable (.newOrderSingle "2" "a" "2" "10" "10" "1"),
    .request 4, .send 4, .send 4, .send 4, .deliver 4,
    .command 5 (newOrderFrame ⟨1, 1, 10, 3, .buy, .limit, .goodTillCancel, defaultSymbol⟩),
    .client 4 .reachable (.orderCancelReplaceRequest "3" "b" "a" "8" "10"),
    .client 4 .reachable (.newOrderSingle "4" "c" "1" "2" "10" "3"),
    .send 5, .send 5, .send 5, .send 5, .send 5, .request 4, .send 4, .send 4, .send 4, .send 4,
    .request 4] ++ List.replicate 5 (.send 4) ++ List.replicate 14 (.deliver 4)

/-- The book says the same of both orders as the session. -/
theorem orders_agree_stale :
    ∃ (labels : List Bridge.Label) (s : Bridge) (link : Link) (order other : OrderState),
      Run (fun s₁ label s₂ => Bridge.Step {} s₁ label s₂ ∧ s₁.Unshared s.nextNumericOrderId label)
        (.starting { riskEngine := { limits := {} }, journal := some [] }) labels s ∧
      s.links 4 = some link ∧ link.session.orders.lookup (2 ^ 62) = some order ∧
      link.session.orders.lookup (2 ^ 62 + 1) = some other ∧
      order.leavesQuantity = 6 ∧ order.cumulativeQuantity = 5 ∧
      other.leavesQuantity = 0 ∧ other.cumulativeQuantity = 2 := by
  have hstale : ((Bridge.performChecked {} Bridge.undisturbed Bridge.staleMoves
      (.starting { riskEngine := { limits := {} }, journal := some [] })).any fun s =>
        (s.links 4).any fun link => decide (s.nextNumericOrderId = 2 ^ 62 + 2) && s.isSettled link &&
          decide (link.session.pendingFor (2 ^ 62) = [] ∧ link.session.pendingFor (2 ^ 62 + 1) = []) &&
          (link.session.orders.lookup (2 ^ 62)).any fun order =>
            (link.session.orders.lookup (2 ^ 62 + 1)).any fun other => decide
              (s.core.server.remaining (symbolToString order.symbol) (2 ^ 62) = 6 ∧
                traded (2 ^ 62) s.executions = 5 ∧
                s.core.server.remaining (symbolToString other.symbol) (2 ^ 62 + 1) = 0 ∧
                traded (2 ^ 62 + 1) s.executions = 2)) = true := by
    decide +kernel
  have hstart : start {} (some none) =
      some { riskEngine := { limits := {} }, journal := some [] } := rfl
  have hmoves : ∀ socket frame, .command socket frame ∈ Bridge.staleMoves → frame =
      newOrderFrame ⟨1, 1, 10, 3, .buy, .limit, .goodTillCancel, defaultSymbol⟩ := by
    simp [Bridge.staleMoves]
  have hunused := Bridge.unusedIds_of_moves (2 ^ 62 + 2) hmoves
    ⟨.inl rfl, .inl rfl, .inl rfl, by decide, by decide⟩ (by decide)
  obtain ⟨s, hperform, hfinal⟩ := (Option.any_eq_true _ _).mp hstale
  obtain ⟨link, hlink, hfinal⟩ := (Option.any_eq_true _ _).mp hfinal
  simp only [Bool.and_eq_true, decide_eq_true_eq] at hfinal
  obtain ⟨⟨⟨hnext, hsettled⟩, hpending, hpending'⟩, hfinal⟩ := hfinal
  obtain ⟨order, horder, hfinal⟩ := (Option.any_eq_true _ _).mp hfinal
  obtain ⟨other, hother, hfinal⟩ := (Option.any_eq_true _ _).mp hfinal
  obtain ⟨hremaining, htraded, hremaining', htraded'⟩ := of_decide_eq_true hfinal
  have hallowed : ∀ move ∈ Bridge.staleMoves, ∀ s label, Bridge.undisturbed move s = true →
      move.Yields s label → s.Unshared (2 ^ 62 + 2) label := fun move hmem s label hcheck hyields =>
    have hundisturbed := Bridge.undisturbed_of_yields hcheck hyields (hunused move hmem s label hyields)
    ⟨hundisturbed.1, hundisturbed.2.1⟩
  obtain ⟨labels, hrun⟩ := Bridge.performChecked_run hstart hallowed hperform
  have hsettled' : s.Settled 4 link :=
    Bridge.settled_of_isSettled hstart (hrun.mono fun _ _ _ hstep => hstep.1) hsettled
  rw [← hnext] at hrun
  have hfresh : ∀ x id,
      ExchangeServer.Rests { riskEngine := { limits := {} }, journal := some [] } x id →
        ¬Bridge.GatewayId s.nextNumericOrderId id := fun _ _ hrests => absurd rfl hrests
  obtain ⟨hleaves, hcumulative⟩ := orders_agree hstart hfresh hrun hlink hsettled' horder hpending
  obtain ⟨hleaves', hcumulative'⟩ := orders_agree hstart hfresh hrun hlink hsettled' hother hpending'
  exact ⟨labels, s, link, order, other, hrun, hlink, horder, hother, hleaves.trans hremaining,
    hcumulative.trans htraded, hleaves'.trans hremaining', hcumulative'.trans htraded'⟩

/-- A session gets the number of one that has left an order to rest, and buys of that order. -/
def Bridge.reconnectedMoves : List Bridge.Move :=
  [.connect 4,
    .command 4 (newOrderFrame ⟨1, 1, 10, 2, .sell, .limit, .goodTillCancel, defaultSymbol⟩),
    .send 4, .send 4, .send 4, .disconnect 4, .accept 4, .client 4 .reachable .logon, .connect 4,
    .client 4 .reachable (.newOrderSingle "2" "a" "1" "5" "10" "1"), .request 4]
    ++ List.replicate 7 (.send 4) ++ List.replicate 7 (.deliver 4)

/-- What a client's message sends to the core is sent. -/
def Bridge.Label.sends : Bridge.Label → Bool
  | .client _ surroundings _ => surroundings.coreSends
  | _ => true

/-- Both copies of the trade come to the session, which takes it twice. -/
theorem orders_agree_reconnected :
    ¬ ∀ (config : FixGatewayConfig) (limits : RiskLimits) (file : Option Bytes)
        (server₀ : ExchangeServer) (labels : List Bridge.Label) (s : Bridge) (socket : Socket)
        (link : Link) (id : OrderId) (order : OrderState),
        start limits (some file) = some server₀ →
        (∀ x id, server₀.Rests x id → ¬Bridge.GatewayId s.nextNumericOrderId id) →
        Run (fun s₁ label s₂ => Bridge.Step config s₁ label s₂ ∧
          s₁.UnusedIds s.nextNumericOrderId label ∧ label.sends = true) (.starting server₀) labels s →
        s.links socket = some link → s.Settled socket link →
        (∀ id, link.session.pendingFor id = []) → link.session.orders.lookup id = some order →
        order.leavesQuantity = s.core.server.remaining (symbolToString order.symbol) id ∧
          order.cumulativeQuantity = traded id s.executions := by
  intro h
  have hreconnected : ((Bridge.performAll {} Bridge.reconnectedMoves
      (.starting { riskEngine := { limits := {} }, journal := some [] })).any fun s =>
        (s.links 4).any fun link => decide (s.nextNumericOrderId = 2 ^ 62 + 1) && s.isSettled link &&
          decide (link.requests.length ≤ link.answers.length) &&
          (link.session.orders.lookup (2 ^ 62)).any fun order =>
            decide (order.cumulativeQuantity = 4 ∧ traded (2 ^ 62) s.executions = 2)) = true := by
    decide +kernel
  have hstart : start {} (some none) =
      some { riskEngine := { limits := {} }, journal := some [] } := rfl
  have hmoves : ∀ socket frame, .command socket frame ∈ Bridge.reconnectedMoves → frame =
      newOrderFrame ⟨1, 1, 10, 2, .sell, .limit, .goodTillCancel, defaultSymbol⟩ := by
    simp [Bridge.reconnectedMoves]
  have hunused := Bridge.unusedIds_of_moves (2 ^ 62 + 1) hmoves
    ⟨.inr rfl, .inl rfl, .inl rfl, by decide, by decide⟩ (by decide)
  have hsends : ∀ socket surroundings message,
      .client socket surroundings message ∈ Bridge.reconnectedMoves → surroundings = .reachable := by
    intro socket surroundings message hmem
    simp only [Bridge.reconnectedMoves, List.mem_append, List.mem_cons, reduceCtorEq,
      Bridge.Move.client.injEq, List.mem_replicate, List.not_mem_nil, false_or, or_false, and_false]
      at hmem
    rcases hmem with ⟨-, hsame, -⟩ | ⟨-, hsame, -⟩
    · exact hsame
    · exact hsame
  obtain ⟨s, hperform, hfinal⟩ := (Option.any_eq_true _ _).mp hreconnected
  obtain ⟨link, hlink, hfinal⟩ := (Option.any_eq_true _ _).mp hfinal
  simp only [Bool.and_eq_true, decide_eq_true_eq] at hfinal
  obtain ⟨⟨⟨hnext, hsettled⟩, hanswered⟩, hfinal⟩ := hfinal
  obtain ⟨order, horder, hfinal⟩ := (Option.any_eq_true _ _).mp hfinal
  obtain ⟨hcumulative, htraded⟩ := of_decide_eq_true hfinal
  have hallowed : ∀ move ∈ Bridge.reconnectedMoves, ∀ s label, move.Yields s label →
      s.UnusedIds (2 ^ 62 + 1) label ∧ label.sends = true := by
    intro move hmem s label hyields
    refine ⟨hunused move hmem s label hyields, ?_⟩
    cases label with
    | client socket surroundings message =>
      obtain rfl := hyields.client socket surroundings message rfl
      rw [hsends socket surroundings message hmem]
      rfl
    | core | accept | deliver => rfl
  obtain ⟨labels, hrun⟩ := Bridge.performAll_run hstart hallowed hperform
  have hsteps := hrun.mono fun _ _ _ hstep => hstep.1
  have hpending : ∀ id, link.session.pendingFor id = [] := by
    intro id
    have hentries := ((Bridge.matched_run hstart hsteps).links 4 link hlink).pending id
    rw [List.drop_eq_nil_of_le hanswered] at hentries
    exact hentries
  rw [← hnext] at hrun
  have heq := (h {} {} none _ labels s 4 link _ order hstart (fun _ _ hrests => absurd rfl hrests) hrun
    hlink (Bridge.settled_of_isSettled hstart hsteps hsettled) hpending horder).2
  rw [hcumulative, htraded] at heq
  cases heq

end ExchangeLab

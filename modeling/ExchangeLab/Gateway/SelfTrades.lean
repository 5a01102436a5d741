import ExchangeLab.Gateway.Duplicates
import ExchangeLab.Gateway.Execution

/-!
# ExchangeLab.Gateway.SelfTrades

Trades between two orders of one FIX session, over every run of the gateway and the core. The core
sends the session two copies of each, one for the buyer and one for the seller.

* `Bridge.UnusedIds`: no session of another kind brings in an order under an id that the gateway
  takes.
* `Bridge.Sole`: so what the core knows of such an id, it has from the session that placed the order.
* `Bridge.Streamed`: the copies a session has received, has on the way and that its thread has still
  to send are those of its self-trades, in pairs.
* `selfTrades_applied_once`: the first copy of each is applied to both orders, the second to none.
-/

namespace ExchangeLab

open Wire Protocol OrderBook MatchingEngine Container ExchangeServer ExchangeLab.Fix FixGateway
  FixBridge Transition Duplicates

namespace Bridge

variable {config : FixGatewayConfig} {limits : RiskLimits} {file : Option (Option Bytes)}
  {server₀ : ExchangeServer} {labels : List Label} {label : Label} {s s' : Bridge} {last : Nat}

/-! ## Ids -/

/-- The ids that the gateway takes until its counter is at `last`. -/
def GatewayId (last : Nat) (id : OrderId) : Prop := 2 ^ 62 ≤ id.toNat ∧ id.toNat < last

/-- Those of them that it has still to take. -/
def Untaken (last : Nat) (s : Bridge) (id : OrderId) : Prop :=
  s.nextNumericOrderId ≤ id.toNat ∧ id.toNat < last

/-- A session that is not the gateway's brings in no order under an id of the gateway's. -/
def UnusedIds (last : Nat) (s : Bridge) (label : Label) : Prop :=
  ∀ socket frame emissions request, label = .core (.handle socket frame emissions) →
    s.links socket = none → commandOf frame.header.type frame.body = some (.newOrder request) →
    .orderResponse socket request.orderId true .orderAccepted ∈ emissions →
    ¬GatewayId last request.orderId

/-- There is a copy of the trade, or the core has made it. -/
def Names (s : Bridge) (key : SelfTradeKey) : Prop :=
  (∃ execution ∈ s.executions, execution.key = key) ∨
  (∃ socket, ∃ emission ∈ s.core.sending socket, emission.key = some key) ∨
  ∃ socket link, s.links socket = some link ∧ key ∈ link.arrived

/-- The core knows the order: it rests, or it was in a trade. -/
def Knows (s : Bridge) (id : OrderId) : Prop :=
  (∃ x, s.core.server.Rests x id) ∨
    ∃ key, s.Names key ∧ (id = key.buyOrderId ∨ id = key.sellOrderId)

/-- Each session has ids of its own. -/
structure Placing (s : Bridge) : Prop where
  least : 2 ^ 62 ≤ s.nextNumericOrderId
  links : ∀ socket link, s.links socket = some link → link.Placing s.nextNumericOrderId
  disjoint : ∀ socket other link link', s.links socket = some link → s.links other = some link' →
    ∀ id ∈ link.placed, id ∈ link'.placed → socket = other

/-- What the core knows of an id of the gateway's, it has from the session that placed the order. -/
structure Sole (last : Nat) (labels : List Label) (s : Bridge) : Prop where
  fresh : ∀ id, s.Untaken last id → ¬s.Knows id
  recorded : ∀ x id, GatewayId last id → s.core.server.Rests x id →
    s.core.server.recordedOwner x id ≠ none
  owners : ∀ socket link, s.links socket = some link → ∀ id ∈ link.placed, ∀ x owner,
    s.core.server.recordedOwner x id = some owner → owner.socket = socket
  accepted : ∀ socket link, s.links socket = some link → ∀ id ∈ link.placed, s.Knows id →
    link.Accepted (handledBy socket labels) id
  sending : ∀ sender address symbol trade,
    .tradeExecution address symbol trade ∈ s.core.sending sender →
    isValidSymbol symbol = true ∧ 0 < trade.quantity ∧
      ∀ socket link, s.links socket = some link → link.owns (keyOf trade) = true →
        socket = sender ∧ address = sender

/-- The copies of a session's self-trades, in pairs. -/
def Streamed (s : Bridge) : Prop :=
  ∀ socket link, s.links socket = some link →
    (link.arrived ++ (s.core.sending socket).filterMap Emission.key).filter link.owns =
      twice (link.selfTrades s.executions)

/-! ## Placing -/

/-- A step places at most the next id, for the client whose message it is. -/
theorem Step.placed_cases (h : s.Placing) (hstep : Step config s label s') {socket : Socket}
    {link' : Link} (hlink' : s'.links socket = some link') {id : OrderId} (hid : id ∈ link'.placed) :
    (∃ link requests, s.links socket = some link ∧ id ∈ link.placed ∧
      link'.requests = link.requests ++ requests) ∨
    ∃ surroundings message, label = .client socket surroundings message ∧
      id.toNat = s.nextNumericOrderId ∧ s'.nextNumericOrderId = s.nextNumericOrderId + 1 := by
  rcases hstep.link_cases hlink' with ⟨link, hlink, hsame, -⟩ | ⟨-, rfl⟩ |
    ⟨link, surroundings, message, hlink, hlabel, hcounter, hnext, rfl⟩ |
    ⟨link, message, rest, iteration, hlink, -, -, rfl⟩
  · exact .inl ⟨link, [], hlink, hsame.placed ▸ hid, by rw [hsame.2.1, List.append_nil]⟩
  · cases hid
  · have heffect : ClientEffect surroundings s.nextNumericOrderId message link.session
        (processFixMessage config surroundings s.nextNumericOrderId message link.session) :=
      processFixMessage_effect
    obtain ⟨-, hcases⟩ := (h.links _ _ hlink).client h.least hcounter heffect
    rcases hcases id hid with hold | ⟨hnew, heffects⟩
    · exact .inl ⟨link, _, hlink, hold, rfl⟩
    · exact .inr ⟨surroundings, message, hlabel, hnew, hnext.trans heffects⟩
  · exact .inl ⟨link, [], hlink, hid, (List.append_nil _).symm⟩

theorem Step.placing (h : s.Placing) (hmatched : s.Matched labels)
    (hstep : Step config s label s') : s'.Placing := by
  have hle := hstep.nextNumericOrderId_le
  refine ⟨h.least.trans hle, fun socket link' hlink' => ?_, ?_⟩
  · rcases hstep.link_cases hlink' with ⟨link, hlink, hsame, -⟩ | ⟨-, rfl⟩ |
      ⟨link, surroundings, message, hlink, -, hcounter, hnext, rfl⟩ |
      ⟨link, message, rest, iteration, hlink, hnext, -, rfl⟩
    · exact ((h.links socket link hlink).congr hsame).mono hle
    · exact .start _
    · rw [hnext]
      exact ((h.links socket link hlink).client h.least hcounter processFixMessage_effect).1
    · exact ((h.links socket link hlink).deliver (hmatched.links socket link hlink) hnext
        iteration).mono hle
  · intro socket other link' other' hlink' hother' id hid hid'
    rcases hstep.placed_cases h hlink' hid with ⟨link, _, hlink, hold, -⟩ | ⟨_, _, hlabel, hnew, -⟩
    · rcases hstep.placed_cases h hother' hid' with
        ⟨second, _, hsecond, hold', -⟩ | ⟨_, _, -, hnew, -⟩
      · exact h.disjoint _ _ link second hlink hsecond id hold hold'
      · exact absurd ((h.links _ _ hlink).drawn id hold).2 (Nat.not_lt.mpr hnew.ge)
    · rcases hstep.placed_cases h hother' hid' with
        ⟨second, _, hsecond, hold', -⟩ | ⟨_, _, hlabel', -, -⟩
      · exact absurd ((h.links _ _ hsecond).drawn id hold').2 (Nat.not_lt.mpr hnew.ge)
      · rw [hlabel] at hlabel'
        cases hlabel'
        rfl

theorem starting_placing (server : ExchangeServer) : (starting server).Placing :=
  ⟨Nat.le_refl _, fun _ _ hlink => (by cases hlink), fun _ _ _ _ hlink => (by cases hlink)⟩

/-! ## What is on the way -/

theorem arrived_process {link : Link} {message : CoreMessage} {rest : List CoreMessage}
    (hnext : link.toGateway = message :: rest) (iteration : SetOrder) :
    (link.process iteration message rest).arrived = link.arrived := by
  have hrest : (link.process iteration message rest).toGateway = rest := rfl
  rw [Link.arrived, Link.processed_process, hrest, Link.arrived, hnext, List.append_assoc,
    List.filterMap_cons]
  cases message.key <;> rfl

/-- The core's part of a step, if it sends nothing, leaves what is on the way to a session. -/
theorem arrived_of_follows {links links' : Socket → Option Link} {label : Concurrent.Label}
    (h : Follows links label links') (hlabel : ∀ socket sent, label ≠ .send socket sent)
    {socket : Socket} {link' : Link} (hlink' : links' socket = some link') :
    ∃ link, links socket = some link ∧ link'.SameSession link ∧ link'.arrived = link.arrived := by
  cases h with
  | connect | command | setGlobalKillSwitch => exact ⟨link', hlink', ⟨rfl, rfl, rfl⟩, rfl⟩
  | disconnect other =>
    rw [Function.update_apply] at hlink'
    split at hlink'
    · cases hlink'
    · exact ⟨link', hlink', ⟨rfl, rfl, rfl⟩, rfl⟩
  | @request other link frame rest _ hother =>
    rw [Function.update_apply] at hlink'
    split at hlink'
    · rename_i heq
      cases hlink'
      exact ⟨link, heq ▸ hother, ⟨rfl, rfl, rfl⟩, rfl⟩
    · exact ⟨link', hlink', ⟨rfl, rfl, rfl⟩, rfl⟩
  | send other sent => exact absurd rfl (hlabel other sent)

/-- A step that neither handles a frame nor sends. -/
def Label.isQuiet : Label → Bool
  | .core (.handle ..) | .core (.send ..) => false
  | _ => true

/-- A quiet step leaves what is on the way to a session, or the session is new. -/
theorem Step.arrived (hstep : Step config s label s') (hquiet : label.isQuiet = true)
    {socket : Socket} {link' : Link} (hlink' : s'.links socket = some link') :
    (∃ link, s.links socket = some link ∧ link'.arrived = link.arrived ∧
      link.placed ⊆ link'.placed) ∨ link'.arrived = [] ∧ link'.requests = [] := by
  rcases hstep.link_cases hlink' with ⟨link, hlink, hsession, hsame⟩ | ⟨-, rfl⟩ |
    ⟨link, _, _, hlink, -, -, -, rfl⟩ | ⟨link, message, rest, iteration, hlink, hnext, -, rfl⟩
  · refine .inl ⟨link, hlink, ?_, by rw [hsession.placed]; exact List.Subset.refl _⟩
    cases hstep with
    | core hcore hlinks =>
      obtain ⟨other, hother, -, harrived⟩ := arrived_of_follows hlinks
        (fun _ _ heq => by rw [heq] at hquiet; cases hquiet) hlink'
      rw [hlink] at hother
      cases hother
      exact harrived
    | accept | client | deliver => rw [hsame fun core heq => by cases heq]
  · exact .inr ⟨rfl, rfl⟩
  · refine .inl ⟨link, hlink, rfl, ?_⟩
    rw [Link.placed_forward]
    exact List.subset_append_left _ _
  · exact .inl ⟨link, hlink, arrived_process hnext iteration, List.Subset.refl _⟩

/-- A quiet step changes no instrument, sends nothing and executes nothing. -/
theorem Step.quiet_core (hstep : Step config s label s') (hquiet : label.isQuiet = true) :
    s'.core.server.instruments = s.core.server.instruments ∧ s'.core.sending = s.core.sending ∧
      s'.executions = s.executions := by
  cases hstep with
  | accept | client | deliver => exact ⟨rfl, rfl, rfl⟩
  | core hcore _ =>
    cases hcore with
    | connect | disconnect | setGlobalKillSwitch => exact ⟨rfl, rfl, List.append_nil _⟩
    | handle | send => cases hquiet

theorem Step.names_quiet (hstep : Step config s label s') (hquiet : label.isQuiet = true)
    {key : SelfTradeKey} (h : s'.Names key) : s.Names key := by
  obtain ⟨-, hsending, hexecutions⟩ := hstep.quiet_core hquiet
  rcases h with h | h | ⟨socket, link', hlink', hkey⟩
  · exact .inl (hexecutions ▸ h)
  · exact .inr (.inl (hsending ▸ h))
  · rcases hstep.arrived hquiet hlink' with ⟨link, hlink, harrived, -⟩ | ⟨harrived, -⟩
    · exact .inr (.inr ⟨socket, link, hlink, harrived ▸ hkey⟩)
    · rw [harrived] at hkey
      cases hkey

/-- What a link gets of an emission whose trade the gateway can read. -/
theorem emit_arrived {links : Socket → Option Link} {emission : Emission} {server : ExchangeServer}
    (hkey : ∀ n, (emission.coreMessage n).key = emission.key) {socket : Socket} {link' : Link}
    (h : (emit emission server).2.foldl deliverSent links socket = some link') :
    ∃ link, links socket = some link ∧ link'.SameSession link ∧
      link'.arrived = link.arrived ++
        if emission.unaddressed = false ∧ socket ∈ server.recipients emission then
          emission.key.toList
        else [] := by
  unfold emit at h
  split at h
  · rename_i hunaddressed
    refine ⟨link', h, ⟨rfl, rfl, rfl⟩, ?_⟩
    rw [if_neg (fun hand => by rw [hunaddressed] at hand; cases hand.1), List.append_nil]
  · rename_i haddressed
    rw [Bool.not_eq_true] at haddressed
    obtain ⟨link, hlink, rfl⟩ := Option.map_eq_some_iff.mp h
    refine ⟨link, hlink, ?_, ?_⟩
    · split <;> exact ⟨rfl, rfl, rfl⟩
    · simp only [haddressed, true_and]
      split
      · rw [Link.arrived, Link.receive, List.filterMap_append, ← List.append_assoc,
          ← hkey (UInt64.ofNat server.nextSequenceNumber)]
        rfl
      · rw [List.append_nil]

/-! ## What a step changes -/

/-- The step is the handler of a frame that lets the order trade. -/
def WorksOn (s : Bridge) (label : Label) (id : OrderId) : Prop :=
  ∃ sender frame emissions, label = .core (.handle sender frame emissions) ∧
    s.core.server.WorksFor sender frame emissions id

structure Change (s : Bridge) (label : Label) (s' : Bridge) : Prop where
  knows : ∀ id, s'.Knows id → s.Knows id ∨ s.WorksOn label id
  recorded : ∀ x id owner, s'.core.server.recordedOwner x id = some owner →
    s.core.server.recordedOwner x id = some owner ∨
      ∃ frame emissions, label = .core (.handle owner.socket frame emissions) ∧
        s.core.server.WorksFor owner.socket frame emissions id
  unrecorded : ∀ x id, s'.core.server.Rests x id → s'.core.server.recordedOwner x id = none →
    s.core.server.Rests x id ∧ s.core.server.recordedOwner x id = none
  sending : ∀ sender address symbol trade,
    .tradeExecution address symbol trade ∈ s'.core.sending sender →
    .tradeExecution address symbol trade ∈ s.core.sending sender ∨
      ∃ frame emissions id execution, label = .core (.handle sender frame emissions) ∧
        s.core.server.WorksFor sender frame emissions id ∧
        s.core.server.Crossing sender id execution ∧
        .tradeExecution address symbol trade ∈ execution.copies

/-- A step that leaves the instruments, and adds nothing to what is sent or known. -/
theorem change_of_same
    (hinstruments : s'.core.server.instruments = s.core.server.instruments)
    (hsending : ∀ socket, s'.core.sending socket ⊆ s.core.sending socket)
    (hnames : ∀ key, s'.Names key → s.Names key) : Change s label s' := by
  have hat : ∀ x, s'.core.server.instrumentFor x = s.core.server.instrumentFor x := by
    intro x
    rw [instrumentFor, findInstrument, hinstruments]
    rfl
  refine ⟨fun id hknows => .inl ?_, fun x id owner howner => .inl ?_, fun x id hrests hnone => ?_,
    fun sender _ _ _ hmem => .inl (hsending sender hmem)⟩
  · rcases hknows with ⟨x, hrests⟩ | ⟨key, hkey, hid⟩
    · rw [ExchangeServer.Rests, hat] at hrests
      exact .inl ⟨x, hrests⟩
    · exact .inr ⟨key, hnames key hkey, hid⟩
  · rwa [recordedOwner, hat] at howner
  · rw [ExchangeServer.Rests, hat] at hrests
    rw [recordedOwner, hat] at hnone
    exact ⟨hrests, hnone⟩

theorem Sole.key_eq (h : s.Sole last labels) {sender : Socket} {emission : Emission}
    (hmem : emission ∈ s.core.sending sender) (n : UInt64) :
    (emission.coreMessage n).key = emission.key := by
  cases htrade : emission.trade with
  | none =>
    rw [key_of_no_trade n htrade, Emission.key, htrade]
    rfl
  | some trade =>
    cases emission with
    | tradeExecution address symbol trade' =>
      obtain ⟨hsymbol, hquantity, -⟩ := h.sending sender address symbol trade' hmem
      exact tradeExecution_key n address hsymbol hquantity
    | orderResponse | bookUpdate | level3AddOrder | level3OrderExecuted | level3OrderDeleted =>
      cases htrade

theorem Sole.send_change (h : s.Sole last labels) {sender : Socket} {emission : Emission}
    {rest : List Emission} (hnext : s.core.sending sender = emission :: rest) :
    Change s label
      ⟨⟨(emit emission s.core.server).1, Function.update s.core.sending sender rest⟩,
        (emit emission s.core.server).2.foldl deliverSent s.links, s.nextNumericOrderId,
        s.executions⟩ := by
  have hhead : emission ∈ s.core.sending sender := by
    rw [hnext]
    exact .head _
  have hsubset : ∀ socket,
      Function.update s.core.sending sender rest socket ⊆ s.core.sending socket := by
    intro socket other hmem
    rw [Function.update_apply] at hmem
    split at hmem
    · rename_i heq
      rw [heq, hnext]
      exact .tail _ hmem
    · exact hmem
  obtain ⟨n, -, hstate⟩ := emit_state emission s.core.server
  refine change_of_same ?_ hsubset fun key hnames => ?_
  · rw [hstate]
    rfl
  · rcases hnames with hexecuted | ⟨socket, other, hmem, hkey⟩ | ⟨socket, link', hlink', hkey⟩
    · exact .inl hexecuted
    · exact .inr (.inl ⟨socket, other, hsubset socket hmem, hkey⟩)
    · obtain ⟨link, hlink, -, harrived⟩ := emit_arrived (h.key_eq hhead) hlink'
      rw [harrived] at hkey
      rcases List.mem_append.mp hkey with hkey | hkey
      · exact .inr (.inr ⟨socket, link, hlink, hkey⟩)
      · split at hkey
        · exact .inr (.inl ⟨sender, emission, hhead, Option.mem_toList.mp hkey⟩)
        · cases hkey

theorem key_some {emission : Emission} {key : SelfTradeKey} (h : emission.key = some key) :
    ∃ address symbol trade, emission = .tradeExecution address symbol trade ∧ keyOf trade = key := by
  obtain ⟨trade, htrade, rfl⟩ := Option.map_eq_some_iff.mp h
  cases emission with
  | tradeExecution address symbol other =>
    cases htrade
    exact ⟨address, symbol, _, rfl, rfl⟩
  | orderResponse | bookUpdate | level3AddOrder | level3OrderExecuted | level3OrderDeleted =>
    cases htrade

/-- The orders of a crossing are the one that came in and one that rests, and a copy goes to the
session of one of them. -/
theorem crossing_copy {server : ExchangeServer} {socket : Socket} {id : OrderId}
    {execution : Execution} (h : server.Crossing socket id execution) {address : Socket}
    {symbol : Symbol} {trade : Trade}
    (hmem : .tradeExecution address symbol trade ∈ execution.copies) :
    isValidSymbol symbol = true ∧ 0 < trade.quantity ∧ ∃ x resting, server.Rests x resting ∧
      (address = socket ∨ address = ((server.recordedOwner x resting).getD {}).socket) ∧
      ∀ i, (i = (keyOf trade).buyOrderId ∨ i = (keyOf trade).sellOrderId) ↔
        i = id ∨ i = resting := by
  obtain ⟨hsymbol, hquantity, x, resting, -, hrests, horders⟩ := h
  obtain ⟨rfl, rfl, haddress⟩ : symbol = execution.symbol ∧ trade = execution.trade ∧
      (address = execution.buyerSocket ∨ address = execution.sellerSocket) := by
    rcases List.mem_pair.mp hmem with heq | heq
    · cases heq
      exact ⟨rfl, rfl, .inl rfl⟩
    · cases heq
      exact ⟨rfl, rfl, .inr rfl⟩
  refine ⟨hsymbol, hquantity, x, resting, hrests, ?_, fun i => ?_⟩
  · rcases horders with ⟨-, hbuyer, hseller⟩ | ⟨-, hbuyer, hseller⟩
    · exact haddress.imp (fun heq => heq.trans hbuyer) fun heq => heq.trans hseller
    · exact (haddress.imp (fun heq => heq.trans hbuyer) fun heq => heq.trans hseller).symm
  · rcases horders with ⟨hids, -⟩ | ⟨hids, -⟩
    · obtain ⟨hbuy, hsell⟩ := List.cons.inj hids
      obtain ⟨hsell, -⟩ := List.cons.inj hsell
      rw [keyOf, hbuy, hsell]
    · obtain ⟨hbuy, hsell⟩ := List.cons.inj hids
      obtain ⟨hsell, -⟩ := List.cons.inj hsell
      rw [keyOf, hbuy, hsell]
      exact or_comm

theorem handle_change {sender : Socket} {frame : Frame} {server₁ : ExchangeServer}
    {emissions : List Emission}
    (h : Turnover sender frame s.core.server server₁ emissions) {links' : Socket → Option Link}
    (hlinks : ∀ socket link', links' socket = some link' →
      ∃ link, s.links socket = some link ∧ link'.arrived = link.arrived) :
    Change s (.core (.handle sender frame emissions))
      ⟨⟨server₁, Function.update s.core.sending sender emissions⟩, links', s.nextNumericOrderId,
        s.executions ++ executionsOf emissions⟩ := by
  have hexecution : ∀ execution ∈ executionsOf emissions, ∀ id,
      id = execution.key.buyOrderId ∨ id = execution.key.sellOrderId →
        s.Knows id ∨ s.WorksOn (.core (.handle sender frame emissions)) id := by
    intro execution hmem id hid
    obtain ⟨incoming, hworks, hcrossing⟩ := h.crossings execution hmem
    obtain ⟨-, -, x, resting, hrests, -, hids⟩ := crossing_copy hcrossing (.head _)
    rcases (hids id).mp hid with rfl | rfl
    · exact .inr ⟨sender, frame, emissions, rfl, hworks⟩
    · exact .inl (.inl ⟨x, hrests⟩)
  refine ⟨fun id hknows => ?_, fun x id owner howner => ?_, h.unrecorded,
    fun other address symbol trade hmem => ?_⟩
  · rcases hknows with ⟨x, hrests⟩ | ⟨key, hnames, hid⟩
    · rcases h.rests x id hrests with hold | hworks
      · exact .inl (.inl ⟨x, hold⟩)
      · exact .inr ⟨sender, frame, emissions, rfl, hworks⟩
    have hold : s.Names key → s.Knows id := fun hnames => .inr ⟨key, hnames, hid⟩
    rcases hnames with ⟨execution, hmem, rfl⟩ | ⟨socket, emission, hmem, hkey⟩ |
      ⟨socket, link', hlink', hkey⟩
    · rcases List.mem_append.mp hmem with hmem | hmem
      · exact .inl (hold (.inl ⟨execution, hmem, rfl⟩))
      · exact hexecution execution hmem id hid
    · simp only [Function.update_apply] at hmem
      split at hmem
      · have hcopy : key ∈ emissions.filterMap Emission.key :=
          List.mem_filterMap.mpr ⟨emission, hmem, hkey⟩
        rw [h.copies.keys, mem_twice] at hcopy
        obtain ⟨execution, hmem, rfl⟩ := List.mem_map.mp hcopy
        exact hexecution execution hmem id hid
      · exact .inl (hold (.inr (.inl ⟨socket, emission, hmem, hkey⟩)))
    · obtain ⟨link, hlink, harrived⟩ := hlinks socket link' hlink'
      exact .inl (hold (.inr (.inr ⟨socket, link, hlink, harrived ▸ hkey⟩)))
  · rcases h.recorded x id owner howner with hold | ⟨rfl, hworks⟩
    · exact .inl hold
    · exact .inr ⟨frame, emissions, rfl, hworks⟩
  · simp only [Function.update_apply] at hmem
    split at hmem
    · rename_i heq
      obtain ⟨execution, hexecution, hcopy⟩ := h.execution hmem
      obtain ⟨id, hworks, hcrossing⟩ := h.crossings execution hexecution
      exact .inr ⟨frame, emissions, id, execution, by rw [heq], heq ▸ hworks, heq ▸ hcrossing, hcopy⟩
    · exact .inl hmem

theorem Step.change (h : s.Sole last labels) {log : List Event}
    (hown : Ownership log s.core.server) (hstep : Step config s label s') : Change s label s' := by
  have hquiet : label.isQuiet = true → Change s label s' := by
    intro hquiet
    obtain ⟨hinstruments, hsending, -⟩ := hstep.quiet_core hquiet
    exact change_of_same hinstruments (fun socket => by rw [hsending]; exact List.Subset.refl _)
      fun key => hstep.names_quiet hquiet
  cases hstep with
  | accept | client | deliver => exact hquiet rfl
  | core hcore hlinks =>
    cases hcore with
    | connect | disconnect | setGlobalKillSwitch => exact hquiet rfl
    | @handle sender frame server₁ emissions order hopen hready hrun =>
      refine handle_change ((handleMessage_cases hown.books hrun).turnover hown hopen) ?_
      intro socket link' hlink'
      obtain ⟨link, hlink, -, harrived⟩ :=
        arrived_of_follows hlinks (fun _ _ heq => by cases heq) hlink'
      exact ⟨link, hlink, harrived⟩
    | @send sender emission rest hnext =>
      cases hlinks
      have hnone : executedBy (.send sender (emit emission s.core.server).2) = [] := rfl
      rw [hnone, List.append_nil]
      exact h.send_change hnext

/-! ## Sole use -/

/-- The frames that were handled for a link stay those that were. -/
theorem handledBy_later (labels : List Label) (hstep : Step config s label s') {socket : Socket} {link : Link}
    (hlink : s.links socket = some link) :
    ∃ later, handledBy socket (labels ++ [label]) = handledBy socket labels ++ later := by
  rw [handledBy_snoc]
  cases hstep with
  | client | deliver => exact ⟨[], (List.append_nil _).symm⟩
  | @accept other hfree hnone =>
    have hne : other ≠ socket := by
      rintro rfl
      rw [hlink] at hnone
      cases hnone
    exact ⟨[], (if_neg hne).trans (List.append_nil _).symm⟩
  | @core label =>
    cases label with
    | connect | disconnect | send | setGlobalKillSwitch => exact ⟨[], (List.append_nil _).symm⟩
    | handle other frame emissions =>
      by_cases heq : other = socket
      · exact ⟨_, if_pos heq⟩
      · exact ⟨[], (if_neg heq).trans (List.append_nil _).symm⟩

theorem Placing.gatewayId (h : s.Placing) (hlast : s.nextNumericOrderId ≤ last) {socket : Socket}
    {link : Link} (hlink : s.links socket = some link) {id : OrderId} (hid : id ∈ link.placed) :
    GatewayId last id ∧ ¬s.Untaken last id := by
  obtain ⟨hleast, hlt⟩ := (h.links socket link hlink).drawn id hid
  exact ⟨⟨hleast, Nat.lt_of_lt_of_le hlt hlast⟩, fun huntaken => Nat.not_lt.mpr huntaken.1 hlt⟩

theorem recorded_rests {log : List Event} {server : ExchangeServer} (hown : Ownership log server)
    {x : Bytes} {id : OrderId} {owner : OrderOwner}
    (h : server.recordedOwner x id = some owner) : server.Rests x id := by
  have hsome : (server.recordedOwner x id).isSome = true := by
    rw [h]
    rfl
  exact Option.isSome_iff_ne_none.mp (((hown.owned x).owners id).mp hsome).1

/-- A new order of a session that the core accepts. -/
theorem Matched.accepts (hmatched : s.Matched labels) {sender : Socket} {frame : Frame}
    {emissions : List Emission} (hstep : Step config s (.core (.handle sender frame emissions)) s')
    {link : Link} (hlink : s.links sender = some link) {request : NewOrderRequest}
    (hcommand : commandOf frame.header.type frame.body = some (.newOrder request))
    (haccepted : .orderResponse sender request.orderId true .orderAccepted ∈ emissions) :
    link.Accepted (handledBy sender (labels ++ [.core (.handle sender frame emissions)]))
      request.orderId := by
  cases hstep with
  | core hcore hlinks =>
    cases hcore with
    | handle order hopen hready hrun =>
      cases hlinks with
      | command _ _ hnone =>
        rw [hlink] at hnone
        cases hnone
      | @request _ other _ rest _ hother hnext =>
        rw [hlink] at hother
        cases hother
        have hidle := hmatched.links sender link hlink
        rw [hready.1] at hidle
        rw [handledBy_snoc, handledStep, if_pos rfl]
        exact hidle.accepts hnext hrun hcommand haccepted

/-- An order that a handler lets trade is that of the session it works for, if it is a session's. -/
theorem Sole.worksFor (h : s.Sole last labels) (hplacing : s.Placing) (hmatched : s.Matched labels)
    {log : List Event} (hown : Ownership log s.core.server)
    (hlast : s.nextNumericOrderId ≤ last) {sender : Socket} {frame : Frame}
    {emissions : List Emission} (hstep : Step config s (.core (.handle sender frame emissions)) s')
    (hunused : s.UnusedIds last (.core (.handle sender frame emissions))) {id : OrderId}
    (hworks : s.core.server.WorksFor sender frame emissions id) :
    ¬s.Untaken last id ∧ ∀ socket link, s.links socket = some link → id ∈ link.placed →
      socket = sender ∧
        link.Accepted (handledBy socket (labels ++ [.core (.handle sender frame emissions)])) id := by
  rcases hworks with ⟨haccepted, request, hcommand, rfl⟩ | ⟨x, owner, howner, rfl⟩
  · cases hsender : s.links sender with
    | none =>
      have hforeign := hunused sender frame emissions request rfl hsender hcommand haccepted
      refine ⟨fun huntaken => hforeign ⟨hplacing.least.trans huntaken.1, huntaken.2⟩,
        fun socket link hlink hid => ?_⟩
      exact absurd (hplacing.gatewayId hlast hlink hid).1 hforeign
    | some own =>
      have hnew := hmatched.accepts hstep hsender hcommand haccepted
      refine ⟨(hplacing.gatewayId hlast hsender hnew.placed).2, fun socket link hlink hid => ?_⟩
      obtain rfl := hplacing.disjoint socket sender link own hlink hsender _ hid hnew.placed
      rw [hsender] at hlink
      cases hlink
      exact ⟨rfl, hnew⟩
  · have hknows : s.Knows id := .inl ⟨x, recorded_rests hown howner⟩
    refine ⟨fun huntaken => h.fresh id huntaken hknows, fun socket link hlink hid => ?_⟩
    obtain ⟨later, hlater⟩ := handledBy_later labels hstep hlink
    rw [hlater]
    exact ⟨(h.owners socket link hlink id hid x owner howner).symm,
      (h.accepted socket link hlink id hid hknows).mono (List.append_nil _).symm later⟩

/-- An id that the gateway has not just taken was placed before the step. -/
theorem Placing.placed_before (h : s.Placing) (hstep : Step config s label s')
    (hlast : s'.nextNumericOrderId ≤ last) {socket : Socket} {link' : Link}
    (hlink' : s'.links socket = some link') {id : OrderId} (hid : id ∈ link'.placed)
    (htaken : ¬s.Untaken last id) :
    ∃ link requests, s.links socket = some link ∧ id ∈ link.placed ∧
      link'.requests = link.requests ++ requests := by
  rcases hstep.placed_cases h hlink' hid with hold | ⟨_, _, -, hnew, hnext⟩
  · exact hold
  · exact absurd ⟨hnew.ge, by omega⟩ htaken

theorem Step.sole (h : s.Sole last labels) (hplacing : s.Placing) (hmatched : s.Matched labels)
    {log : List Event} (hown : Ownership log s.core.server) (hstep : Step config s label s')
    (hlast : s'.nextNumericOrderId ≤ last) (hunused : s.UnusedIds last label) :
    s'.Sole last (labels ++ [label]) := by
  have hle := hstep.nextNumericOrderId_le
  have hchange := hstep.change h hown
  have hknown : ∀ id, s.Knows id → ¬s.Untaken last id := fun id hknows huntaken =>
    h.fresh id huntaken hknows
  have hworks : ∀ id sender frame emissions, label = .core (.handle sender frame emissions) →
      s.core.server.WorksFor sender frame emissions id →
      ¬s.Untaken last id ∧ ∀ socket link, s.links socket = some link → id ∈ link.placed →
        socket = sender ∧ link.Accepted (handledBy socket (labels ++ [label])) id := by
    rintro id sender frame emissions rfl hworks
    exact h.worksFor hplacing hmatched hown (hle.trans hlast) hstep hunused hworks
  refine ⟨fun id huntaken hknows => ?_, fun x id hid hrests hnone => ?_,
    fun socket link' hlink' id hid x owner howner => ?_,
    fun socket link' hlink' id hid hknows => ?_, fun sender address symbol trade hmem => ?_⟩
  · have huntaken : s.Untaken last id := ⟨hle.trans huntaken.1, huntaken.2⟩
    rcases hchange.knows id hknows with hknows | ⟨sender, frame, emissions, hlabel, hfor⟩
    · exact h.fresh id huntaken hknows
    · exact (hworks id sender frame emissions hlabel hfor).1 huntaken
  · obtain ⟨hrests, hnone⟩ := hchange.unrecorded x id hrests hnone
    exact h.recorded x id hid hrests hnone
  · rcases hchange.recorded x id owner howner with hold | ⟨frame, emissions, hlabel, hfor⟩
    · obtain ⟨link, _, hlink, hid, -⟩ := hplacing.placed_before hstep hlast hlink' hid
        (hknown id (.inl ⟨x, recorded_rests hown hold⟩))
      exact h.owners socket link hlink id hid x owner hold
    · obtain ⟨htaken, hsession⟩ := hworks id owner.socket frame emissions hlabel hfor
      obtain ⟨link, _, hlink, hid, -⟩ := hplacing.placed_before hstep hlast hlink' hid htaken
      exact (hsession socket link hlink hid).1.symm
  · rcases hchange.knows id hknows with hold | ⟨sender, frame, emissions, hlabel, hfor⟩
    · obtain ⟨link, requests, hlink, hid, hrequests⟩ := hplacing.placed_before hstep hlast hlink' hid
        (hknown id hold)
      obtain ⟨later, hlater⟩ := handledBy_later labels hstep hlink
      rw [hlater]
      exact (h.accepted socket link hlink id hid hold).mono hrequests later
    · obtain ⟨htaken, hsession⟩ := hworks id sender frame emissions hlabel hfor
      obtain ⟨link, requests, hlink, hid, hrequests⟩ :=
        hplacing.placed_before hstep hlast hlink' hid htaken
      have haccepted := (hsession socket link hlink hid).2.mono hrequests []
      rwa [List.append_nil] at haccepted
  · rcases hchange.sending sender address symbol trade hmem with
      hold | ⟨frame, emissions, id, execution, hlabel, hfor, hcrossing, hcopy⟩
    · obtain ⟨hsymbol, hquantity, hsessions⟩ := h.sending sender address symbol trade hold
      refine ⟨hsymbol, hquantity, fun socket link' hlink' howns => ?_⟩
      obtain ⟨hbuy, hsell⟩ := Link.owns_iff.mp howns
      have hnames : s.Names (keyOf trade) := .inr (.inl ⟨sender, _, hold, rfl⟩)
      obtain ⟨link, _, hlink, hbuy, -⟩ := hplacing.placed_before hstep hlast hlink' hbuy
        (hknown _ (.inr ⟨_, hnames, .inl rfl⟩))
      obtain ⟨other, _, hother, hsell, -⟩ := hplacing.placed_before hstep hlast hlink' hsell
        (hknown _ (.inr ⟨_, hnames, .inr rfl⟩))
      rw [hlink] at hother
      cases hother
      exact hsessions socket link hlink (Link.owns_iff.mpr ⟨hbuy, hsell⟩)
    · obtain ⟨hsymbol, hquantity, x, resting, hrests, haddress, hids⟩ :=
        crossing_copy hcrossing hcopy
      refine ⟨hsymbol, hquantity, fun socket link' hlink' howns => ?_⟩
      have hplaced : ∀ i, i = id ∨ i = resting → i ∈ link'.placed := by
        intro i hi
        obtain ⟨hbuy, hsell⟩ := Link.owns_iff.mp howns
        rcases (hids i).mpr hi with rfl | rfl
        · exact hbuy
        · exact hsell
      obtain ⟨htaken, hsession⟩ := hworks id sender frame emissions hlabel hfor
      obtain ⟨link, _, hlink, hid, -⟩ :=
        hplacing.placed_before hstep hlast hlink' (hplaced id (.inl rfl)) htaken
      obtain ⟨rfl, -⟩ := hsession socket link hlink hid
      refine ⟨rfl, ?_⟩
      rcases haddress with rfl | rfl
      · rfl
      obtain ⟨other, _, hother, hresting, -⟩ := hplacing.placed_before hstep hlast hlink'
        (hplaced resting (.inr rfl)) (hknown resting (.inl ⟨x, hrests⟩))
      obtain ⟨owner, howner⟩ := Option.ne_none_iff_exists'.mp
        (h.recorded x resting (hplacing.gatewayId (hle.trans hlast) hother hresting).1 hrests)
      rw [howner]
      exact h.owners socket other hother resting hresting x owner howner

/-! ## The stream of copies -/

/-- Every connected session has a descriptor. -/
def Connected (s : Bridge) : Prop := ∀ socket ∈ s.core.server.clientSockets, 0 ≤ socket

theorem Step.connected (h : s.Connected) (hbooks : s.core.server.BooksConsistent)
    (hstep : Step config s label s') : s'.Connected := by
  cases hstep with
  | accept | client | deliver => exact h
  | core hcore _ =>
    intro other hother
    cases hcore with
    | connect hvalid =>
      rcases List.mem_append.mp hother with hother | hother
      · exact h other hother
      · rw [List.mem_singleton.mp hother]
        exact hvalid
    | disconnect => exact h other (List.mem_of_mem_erase hother)
    | handle order hopen hready hrun =>
      have hsockets := (handleMessage_cases hbooks hrun).sameSessions.sockets
      exact h other (hsockets ▸ hother)
    | @send sender emission rest hnext =>
      obtain ⟨n, -, heq⟩ := emit_state emission s.core.server
      rw [heq] at hother
      exact h other hother
    | setGlobalKillSwitch => exact h other hother

/-- Where no trade changes hands, the stream of a link stays as it was. -/
theorem stream_same {socket : Socket} {link link' : Link}
    (h : (link.arrived ++ (s.core.sending socket).filterMap Emission.key).filter link.owns =
      twice (link.selfTrades s.executions))
    (hlink : s.links socket = some link) (harrived : link'.arrived = link.arrived)
    (howns : ∀ key, s.Names key → link'.owns key = link.owns key) :
    (link'.arrived ++ (s.core.sending socket).filterMap Emission.key).filter link'.owns =
      twice (link'.selfTrades s.executions) := by
  have hcopies : (link'.arrived ++ (s.core.sending socket).filterMap Emission.key).filter link'.owns =
      (link.arrived ++ (s.core.sending socket).filterMap Emission.key).filter link.owns := by
    rw [harrived]
    refine List.filter_congr fun key hmem => howns key ?_
    rcases List.mem_append.mp hmem with hmem | hmem
    · exact .inr (.inr ⟨socket, link, hlink, hmem⟩)
    · obtain ⟨emission, hemission, hkey⟩ := List.mem_filterMap.mp hmem
      exact .inr (.inl ⟨socket, emission, hemission, hkey⟩)
  have htrades : link'.selfTrades s.executions = link.selfTrades s.executions := by
    refine List.filter_congr fun key hmem => howns key ?_
    obtain ⟨execution, hexecution, rfl⟩ := List.mem_map.mp hmem
    exact .inl ⟨execution, hexecution, rfl⟩
  rw [hcopies, htrades]
  exact h

theorem stream_start {link : Link} (h : link.requests = []) (keys : List SelfTradeKey)
    (executions : List Execution) :
    keys.filter link.owns = twice (link.selfTrades executions) := by
  have hplaced : link.placed = [] := by rw [Link.placed, h]; rfl
  have hnone : ∀ keys : List SelfTradeKey, keys.filter link.owns = [] := by
    intro keys
    refine List.filter_eq_nil_iff.mpr fun key _ howns => ?_
    have hbuy := (Link.owns_iff.mp howns).1
    rw [hplaced] at hbuy
    cases hbuy
  rw [hnone, Link.selfTrades, hnone]
  rfl

/-- A session owns the trades that the core has made as it did before the step. -/
theorem Sole.owns_same (h : s.Sole last labels) (hplacing : s.Placing)
    (hstep : Step config s label s') (hlast : s'.nextNumericOrderId ≤ last) {socket : Socket}
    {link link' : Link} (hlink : s.links socket = some link) (hlink' : s'.links socket = some link')
    (hplaced : link.placed ⊆ link'.placed) {key : SelfTradeKey} (hnames : s.Names key) :
    link'.owns key = link.owns key := by
  have hold : ∀ id, (id = key.buyOrderId ∨ id = key.sellOrderId) → id ∈ link'.placed →
      id ∈ link.placed := by
    intro id hid hmem
    obtain ⟨other, _, hother, hmem, -⟩ := hplacing.placed_before hstep hlast hlink' hmem
      (fun huntaken => h.fresh id huntaken (.inr ⟨key, hnames, hid⟩))
    rw [hlink] at hother
    cases hother
    exact hmem
  rw [Bool.eq_iff_iff, Link.owns_iff, Link.owns_iff]
  exact ⟨fun hboth => ⟨hold _ (.inl rfl) hboth.1, hold _ (.inr rfl) hboth.2⟩,
    fun hboth => ⟨hplaced hboth.1, hplaced hboth.2⟩⟩

theorem Step.streamed_quiet (h : s.Streamed) (hsole : s.Sole last labels) (hplacing : s.Placing)
    (hstep : Step config s label s') (hlast : s'.nextNumericOrderId ≤ last)
    (hquiet : label.isQuiet = true) : s'.Streamed := by
  obtain ⟨-, hsending, hexecutions⟩ := hstep.quiet_core hquiet
  intro socket link' hlink'
  rw [hsending, hexecutions]
  rcases hstep.arrived hquiet hlink' with ⟨link, hlink, harrived, hplaced⟩ | ⟨-, hnew⟩
  · exact stream_same (h socket link hlink) hlink harrived fun key hnames =>
      hsole.owns_same hplacing hstep hlast hlink hlink' hplaced hnames
  · exact stream_start hnew _ _

theorem streamed_send (h : s.Streamed) (hsole : s.Sole last labels) (hsilent : s.Silent)
    (hconnected : s.Connected) {sender : Socket} {emission : Emission} {rest : List Emission}
    (hnext : s.core.sending sender = emission :: rest) {socket : Socket} {link' : Link}
    (hlink' : (emit emission s.core.server).2.foldl deliverSent s.links socket = some link') :
    (link'.arrived ++ (Function.update s.core.sending sender rest socket).filterMap
      Emission.key).filter link'.owns = twice (link'.selfTrades s.executions) := by
  have hhead : emission ∈ s.core.sending sender := by
    rw [hnext]
    exact .head _
  obtain ⟨link, hlink, hsame, harrived⟩ := emit_arrived (hsole.key_eq hhead) hlink'
  have howns := Link.owns_congr hsame.placed
  have hstream := h socket link hlink
  rw [Link.selfTrades, howns, ← Link.selfTrades, ← hstream, harrived]
  simp only [List.filter_append, List.append_assoc]
  congr 1
  by_cases hsender : socket = sender
  · subst hsender
    have hrest : (s.core.sending socket).filterMap Emission.key =
        emission.key.toList ++ rest.filterMap Emission.key := by
      rw [hnext, List.filterMap_cons]
      cases emission.key <;> rfl
    rw [hrest, Function.update_self, List.filter_append]
    congr 1
    -- the head of the queue is of the session's own trades only if it goes to the session
    cases hkey : emission.key with
    | none => rw [Option.toList_none, ite_self]
    | some key =>
      by_cases howned : link.owns key = true
      · obtain ⟨address, symbol, trade, rfl, rfl⟩ := key_some hkey
        obtain ⟨-, -, hsessions⟩ := hsole.sending socket address symbol trade hhead
        obtain ⟨-, rfl⟩ := hsessions socket link hlink howned
        have hopen : address ∈ s.core.server.clientSockets := by
          by_contra hclosed
          rw [hsilent address hclosed] at hnext
          cases hnext
        have haddressed : (Emission.tradeExecution address symbol trade).unaddressed = false :=
          decide_eq_false (Int.not_lt.mpr (hconnected address hopen))
        rw [if_pos ⟨haddressed, List.mem_singleton.mpr rfl⟩]
      · have hnone : [key].filter link.owns = [] := List.filter_cons_of_neg howned
        rw [Option.toList_some, hnone]
        split
        · exact hnone
        · rfl
  · rw [Function.update_of_ne hsender]
    have hnone : ((if emission.unaddressed = false ∧ socket ∈ s.core.server.recipients emission then
        emission.key.toList else []) : List SelfTradeKey).filter link.owns = [] := by
      refine List.filter_eq_nil_iff.mpr fun key hmem howned => ?_
      split at hmem
      · obtain ⟨address, symbol, trade, rfl, rfl⟩ := key_some (Option.mem_toList.mp hmem)
        obtain ⟨-, -, hsessions⟩ := hsole.sending sender address symbol trade hhead
        exact hsender (hsessions socket link hlink howned).1
      · cases hmem
    rw [hnone, List.nil_append]

theorem streamed_handle (h : s.Streamed) {sender : Socket} {frame : Frame}
    {server₁ : ExchangeServer} {emissions : List Emission}
    (hturnover : Turnover sender frame s.core.server server₁ emissions)
    (hidle : s.core.sending sender = []) {socket : Socket} {link link' : Link}
    (hlink : s.links socket = some link) (hsame : link'.SameSession link)
    (harrived : link'.arrived = link.arrived)
    (hown : ∀ address symbol trade, .tradeExecution address symbol trade ∈ emissions →
      link'.owns (keyOf trade) = true → socket = sender) :
    (link'.arrived ++ (Function.update s.core.sending sender emissions socket).filterMap
      Emission.key).filter link'.owns =
        twice (link'.selfTrades (s.executions ++ executionsOf emissions)) := by
  have howns := Link.owns_congr hsame.placed
  have hstream := h socket link hlink
  rw [← howns, ← harrived] at hstream
  have hkeys := hturnover.copies.keys
  have htrades : twice (link'.selfTrades (s.executions ++ executionsOf emissions)) =
      twice (link.selfTrades s.executions) ++ (emissions.filterMap Emission.key).filter link'.owns := by
    rw [Link.selfTrades, List.map_append, List.filter_append, twice_append, hkeys, twice_filter,
      howns]
    rfl
  rw [htrades, ← hstream]
  by_cases hsender : socket = sender
  · subst hsender
    rw [Function.update_self, hidle, List.filterMap_nil, List.append_nil, List.filter_append]
  · have hnone : (emissions.filterMap Emission.key).filter link'.owns = [] := by
      refine List.filter_eq_nil_iff.mpr fun key hmem howned => ?_
      obtain ⟨emission, hemission, hkey⟩ := List.mem_filterMap.mp hmem
      obtain ⟨address, symbol, trade, rfl, rfl⟩ := key_some hkey
      exact hsender (hown address symbol trade hemission howned)
    rw [Function.update_of_ne hsender, hnone, List.append_nil]

theorem Step.streamed (h : s.Streamed) (hsole : s.Sole last labels)
    (hsole' : s'.Sole last (labels ++ [label])) (hplacing : s.Placing)
    (hmatched : s.Matched labels) (hconnected : s.Connected) {log : List Event}
    (hown : Ownership log s.core.server) (hstep : Step config s label s')
    (hlast : s'.nextNumericOrderId ≤ last) : s'.Streamed := by
  have hquiet := hstep.streamed_quiet h hsole hplacing hlast
  cases hstep with
  | accept | client | deliver => exact hquiet rfl
  | core hcore hlinks =>
    cases hcore with
    | connect | disconnect | setGlobalKillSwitch => exact hquiet rfl
    | @handle sender frame server₁ emissions order hopen hready hrun =>
      intro socket link' hlink'
      obtain ⟨link, hlink, hsame, harrived⟩ :=
        arrived_of_follows hlinks (fun _ _ heq => by cases heq) hlink'
      refine streamed_handle h ((handleMessage_cases hown.books hrun).turnover hown hopen) hready.1
        hlink hsame harrived fun address symbol trade hmem howned => ?_
      have hqueued : .tradeExecution address symbol trade ∈
          Function.update s.core.sending sender emissions sender := by
        rw [Function.update_self]
        exact hmem
      exact ((hsole'.sending sender address symbol trade hqueued).2.2 socket link' hlink' howned).1
    | send hnext =>
      cases hlinks
      intro socket link' hlink'
      have hstream := streamed_send h hsole hmatched.silent hconnected hnext hlink'
      rw [← List.append_nil s.executions] at hstream
      exact hstream

/-! ## What the session makes of them -/

/-- Of the orders of a trade that it gets, a session has those that it placed: the core has accepted
them. -/
theorem Sole.named (h : s.Sole last labels) (hplacing : s.Placing) (hmatched : s.Matched labels)
    {socket : Socket} {link : Link} (hlink : s.links socket = some link) {message : CoreMessage}
    {rest : List CoreMessage} (hnext : link.toGateway = message :: rest)
    {execution : TradeExecution} (hexecution : message.execution = some execution) {id : OrderId}
    (hid : id = (selfTradeKey execution).buyOrderId ∨ id = (selfTradeKey execution).sellOrderId) :
    (link.session.ledger.orders id).isSome = true ↔ id ∈ link.placed := by
  have hlinkPlacing := hplacing.links socket link hlink
  constructor
  · intro hsome
    obtain ⟨order, horder⟩ := Option.isSome_iff_exists.mp hsome
    exact (hlinkPlacing.orders id order horder).1
  · intro hplaced
    have hkey : message.key = some (selfTradeKey execution) := by
      rw [CoreMessage.key, hexecution]
      rfl
    have harrived : selfTradeKey execution ∈ link.arrived :=
      List.mem_append_right _ (List.mem_filterMap.mpr ⟨message, by rw [hnext]; exact .head _, hkey⟩)
    have hknows : s.Knows id := .inr ⟨_, .inr (.inr ⟨socket, link, hlink, harrived⟩), hid⟩
    exact Option.isSome_iff_ne_none.mpr ((h.accepted socket link hlink id hplaced hknows).present
      hlinkPlacing (hmatched.links socket link hlink))

def Filtered (s : Bridge) : Prop := ∀ socket link, s.links socket = some link → link.Filters

theorem Step.filtered (h : s.Filtered) (hsole : s.Sole last labels) (hplacing : s.Placing)
    (hmatched : s.Matched labels) (hstep : Step config s label s')
    (hlast : s'.nextNumericOrderId ≤ last) : s'.Filtered := by
  intro socket link' hlink'
  rcases hstep.link_cases hlink' with ⟨link, hlink, hsame, -⟩ | ⟨-, rfl⟩ |
    ⟨link, surroundings, message, hlink, -, -, -, rfl⟩ |
    ⟨link, message, rest, iteration, hlink, hnext, -, rfl⟩
  · refine (h socket link hlink).congr (by rw [hsame.1]) hsame.2.2 fun key _ => ?_
    rw [Link.owns_congr hsame.placed]
  · exact .start _ rfl
  · refine (h socket link hlink).congr processFixMessage_effect.memory rfl fun key hmem => ?_
    refine hsole.owns_same hplacing hstep hlast hlink hlink' ?_
      (.inr (.inr ⟨socket, link, hlink, List.mem_append_left _ hmem⟩))
    rw [Link.placed_forward]
    exact List.subset_append_left _ _
  · refine (h socket link hlink).deliver (hplacing.links socket link hlink) fun execution hexecution => ?_
    rw [Link.owns_iff]
    exact and_congr (hsole.named hplacing hmatched hlink hnext hexecution (.inl rfl))
      (hsole.named hplacing hmatched hlink hnext hexecution (.inr rfl))

/-! ## Runs -/

theorem placing_run (hstart : start limits file = some server₀)
    (hrun : Run (Step config) (starting server₀) labels s) : s.Placing := by
  induction hrun with
  | nil => exact starting_placing server₀
  | snoc hrun hstep ih => exact hstep.placing ih (matched_run hstart hrun)

/-- At the start nothing is on the way, and what rests does not rest under an id of the gateway's. -/
theorem starting_sole (hfresh : ∀ x id, server₀.Rests x id → ¬GatewayId last id) :
    (starting server₀).Sole last [] := by
  have hknows : ∀ id, GatewayId last id → ¬(starting server₀).Knows id := by
    rintro id hid (⟨x, hrests⟩ | ⟨key, ⟨_, hmem, -⟩ | ⟨_, _, hmem, -⟩ | ⟨_, _, hlink, -⟩, -⟩)
    · exact hfresh x id hrests hid
    · cases hmem
    · cases hmem
    · cases hlink
  refine ⟨hknows, fun x id hid hrests => absurd hid (hfresh x id hrests), ?_, ?_, ?_⟩
  · exact fun _ _ hlink => by cases hlink
  · exact fun _ _ hlink => by cases hlink
  · exact fun _ _ _ _ hmem => by cases hmem

structure Booked (last : Nat) (labels : List Label) (s : Bridge) : Prop where
  sole : s.Sole last labels
  connected : s.Connected
  streamed : s.Streamed
  filtered : s.Filtered

theorem booked_run (hstart : start limits file = some server₀)
    (hfresh : ∀ x id, server₀.Rests x id → ¬GatewayId last id)
    (hrun : Run (fun s label s' => Step config s label s' ∧ s.UnusedIds last label)
      (starting server₀) labels s) (hlast : s.nextNumericOrderId ≤ last) : s.Booked last labels := by
  induction hrun with
  | nil =>
    refine ⟨starting_sole hfresh, fun socket hmem => ?_, fun _ _ hlink => (by cases hlink),
      fun _ _ hlink => (by cases hlink)⟩
    have hnone : (starting server₀).core.server.clientSockets = [] := (start_sessions hstart).1
    rw [hnone] at hmem
    cases hmem
  | snoc hrun hstep ih =>
    have hbefore := hrun.mono fun _ _ _ hstep => hstep.1
    obtain ⟨hstep, hunused⟩ := hstep
    have hplacing := placing_run hstart hbefore
    have hmatched := matched_run hstart hbefore
    obtain ⟨log, hown⟩ := ownership hstart hbefore
    have h := ih (hstep.nextNumericOrderId_le.trans hlast)
    have hsole := hstep.sole h.sole hplacing hmatched hown hlast hunused
    exact ⟨hsole, hstep.connected h.connected hown.books,
      hstep.streamed h.streamed h.sole hsole hplacing hmatched h.connected hown hlast,
      hstep.filtered h.filtered h.sole hplacing hmatched hlast⟩

end Bridge

/-- Moves in which the other sessions send one new order, under an id of their own. -/
theorem Bridge.unusedIds_of_moves (last : Nat) {moves : List Bridge.Move} {request : NewOrderRequest}
    (hmoves : ∀ socket frame, .command socket frame ∈ moves → frame = newOrderFrame request)
    (hvalid : request.Valid) (hforeign : request.orderId.toNat < 2 ^ 62) :
    ∀ move ∈ moves, ∀ s label, Bridge.Move.Yields s move label → s.UnusedIds last label := by
  intro move hmem s label hyields socket frame emissions other hlabel hnone hcommand _ hid
  obtain rfl := hyields.command socket frame emissions hlabel hnone
  rw [hmoves socket frame hmem] at hcommand
  cases hcommand.symm.trans (commandOf_newOrder hvalid)
  exact Nat.not_lt.mpr hid.1 hforeign

end ExchangeLab

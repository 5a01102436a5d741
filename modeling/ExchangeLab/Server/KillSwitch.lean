import ExchangeLab.Server.Clearing
import ExchangeLab.Server.Tracking

/-!
# ExchangeLab.Server.KillSwitch

The global kill switch stops trading and leaves cancels.

* `Handled.halted`: what a handler may still do while the switch is on.
* `kill_switch_halts`: as long as it stays on, under any interleaving, no order is accepted or
  replaced, nothing is executed, no position moves, and an order leaves its book only by a cancel.
-/

namespace ExchangeLab

open Wire Protocol OrderBook MatchingEngine Container ExchangeServer Transition

/-! ## The risk engine -/

namespace RiskEngine

variable {risk : RiskEngine}

theorem checkNewOrder_halted (h : risk.globalKillSwitch = true) (request : RiskOrderRequest) :
    (risk.checkNewOrder request).accepted = false := by
  rw [checkNewOrder, if_pos h]
  rfl

theorem checkReplace_halted (h : risk.globalKillSwitch = true) (c : RiskClientId) (x : List UInt8)
    (id : OrderId) (price : Price) (q : Quantity) :
    (risk.checkReplace c x id price q).accepted = false := by
  rw [checkReplace, if_pos h]
  rfl

/-- A cancel gives back what was open, and nothing was bought or sold. -/
theorem eraseWorkingOrder_position (k : WorkingOrderKey) (c : RiskClientId) (x : List UInt8) :
    (risk.eraseWorkingOrder k).position c x = risk.position c x := by
  unfold eraseWorkingOrder
  split
  · rfl
  rename_i w _
  cases hclient : risk.clients.lookup k.clientId with
  | none => rfl
  | some client =>
    have hview : risk.client k.clientId = client := by simp [RiskEngine.client, hclient]
    let released := client.dropOpenOrder.release w.remainingQuantity
    have hupdate : ∀ client' : ClientState, (client'.symbol x).position = (client.symbol x).position →
        ({ risk with
            clients := risk.clients.insert k.clientId client'
            workingOrders := risk.workingOrders.erase k } : RiskEngine).position c x =
          risk.position c x := by
      intro client' hsame
      have hposition := @position_updateClient risk k.clientId x (fun _ => client')
        (by rw [hsame, RiskEngine.state, hview]) c
      exact hposition
    have hreleased : released.symbol x = client.symbol x := by
      rw [release_symbol, dropOpenOrder_symbol]
    cases hsymbol : released.symbols.lookup k.symbol with
    | none =>
      simp only [released] at hsymbol
      simp only [hsymbol]
      exact hupdate released (congrArg SymbolState.position hreleased)
    | some state =>
      simp only [released] at hsymbol
      simp only [hsymbol]
      refine hupdate _ ?_
      rw [symbol_updateSymbol]
      split
      · rename_i hx
        rw [position_setOpenQuantity, ← hx, ← hreleased]
      · rw [← hreleased]

theorem onOrderCancelled_position (c : RiskClientId) (y : List UInt8) (id : OrderId)
    (c' : RiskClientId) (x : List UInt8) :
    (risk.onOrderCancelled c y id).position c' x = risk.position c' x := by
  unfold onOrderCancelled
  split
  · rfl
  · exact eraseWorkingOrder_position ..

theorem onOrderCancelled_globalKillSwitch (c : RiskClientId) (y : List UInt8) (id : OrderId) :
    (risk.onOrderCancelled c y id).globalKillSwitch = risk.globalKillSwitch := by
  unfold onOrderCancelled eraseWorkingOrder
  split
  · rfl
  · split <;> rfl

end RiskEngine

/-! ## Handlers -/

namespace ExchangeServer

/-- What a handler may still do while the switch is on. -/
structure Halted (server server' : ExchangeServer) (emissions : List Emission) : Prop where
  switch : server'.riskEngine.globalKillSwitch = true
  positions : ∀ client x, server'.riskEngine.position client x = server.riskEngine.position client x
  quiet : NoTrades emissions
  unplaced : ∀ type ∈ [MessageType.orderAccepted, .orderReplaced],
    type ∉ emissions.map Emission.type

theorem Handled.halted {order : SetOrder} {socket : Socket} {frame : Frame}
    {server server' : ExchangeServer} {emissions : List Emission}
    (h : Handled order socket frame server server' emissions)
    (hon : server.riskEngine.globalKillSwitch = true) : Halted server server' emissions := by
  have hrejected : ∀ type ∈ [MessageType.orderAccepted, .orderReplaced], type ≠ .orderRejected := by
    decide
  have hcancelled : ∀ type ∈ [MessageType.orderAccepted, .orderReplaced],
      type ∉ [MessageType.orderCancelled, .bookUpdate, .level3OrderDeleted] := by decide
  cases h with
  | ignored => exact ⟨hon, fun _ _ => rfl, noTrades_nil, fun _ _ => List.not_mem_nil⟩
  | rejected | turnedAway =>
    exact ⟨hon, fun _ _ => rfl, .cons rfl noTrades_nil, fun type htype hmem =>
      hrejected type htype (List.mem_singleton.mp hmem)⟩
  | placed h =>
    obtain ⟨_, -, happroved⟩ := h.approved
    rw [RiskEngine.checkNewOrder_halted hon] at happroved
    cases happroved
  | cancelled =>
    refine ⟨?_, fun _ _ => RiskEngine.onOrderCancelled_position ..,
      .cons rfl (.cons rfl (.cons rfl noTrades_nil)), hcancelled⟩
    exact (RiskEngine.onOrderCancelled_globalKillSwitch ..).trans hon
  | replaced h =>
    have happroved := h.approved
    rw [RiskEngine.checkReplace_halted hon] at happroved
    cases happroved

end ExchangeServer

/-! ## Labels -/

/-- The label of a cancel that was accepted for the order. -/
def Concurrent.Label.cancels (x : Bytes) (id : OrderId) : Concurrent.Label → Bool
  | .handle _ frame emissions =>
    match commandOf frame.header.type frame.body with
    | some (.cancelOrder request) =>
      (Command.cancelOrder request).acceptedFor x id (emissions.map Emission.type)
    | _ => false
  | _ => false

/-- The label tells of no accepted order, of no replacement and of no execution. -/
def Concurrent.Label.Idle : Concurrent.Label → Prop
  | .handle _ _ emissions => NoTrades emissions ∧
    ∀ type ∈ [MessageType.orderAccepted, .orderReplaced], type ∉ emissions.map Emission.type
  | _ => True

/-- An idle label takes away an order that it cancels. -/
theorem trackFrame_idle {x : Bytes} {id : OrderId} {socket : Socket} {frame : Frame}
    {emissions : List Emission} {rested : Option Order}
    (h : (Concurrent.Label.handle socket frame emissions).Idle) :
    trackFrame x id frame emissions rested =
      if (Concurrent.Label.handle socket frame emissions).cancels x id = true then none
      else rested.bind (·.afterTrades 0) := by
  obtain ⟨hquiet, hunplaced⟩ := h
  have hmissing : ∀ type ∈ [MessageType.orderAccepted, .orderReplaced],
      (emissions.map Emission.type).contains type = false := fun type htype =>
    Bool.eq_false_iff.mpr fun hmem => hunplaced type htype (List.contains_iff_mem.mp hmem)
  have haccepted := hmissing _ List.mem_cons_self
  have hreplaced := hmissing _ (.tail _ List.mem_cons_self)
  cases hcommand : commandOf frame.header.type frame.body with
  | none =>
    have hunaccepted : ∀ command, commandOf frame.header.type frame.body = some command →
        command.acceptedFor x id (emissions.map Emission.type) = false := by
      intro command h
      rw [hcommand] at h
      cases h
    rw [trackFrame_unaccepted hunaccepted, hquiet.tradedOf, Concurrent.Label.cancels, hcommand]
    rfl
  | some command =>
    rw [trackFrame_command hcommand, hquiet.tradedOf, Concurrent.Label.cancels, hcommand]
    cases command with
    | newOrder request => rw [Command.acceptedFor, haccepted, Bool.and_false]; rfl
    | cancelOrder request => rfl
    | replaceOrder request => rw [Command.acceptedFor, hreplaced, Bool.and_false]; rfl

theorem Concurrent.Step.halted {c c' : Concurrent} {label : Concurrent.Label} {log : List Event}
    (h : Concurrent.Step c label c') (hown : Ownership log c.server)
    (hon : c.server.riskEngine.globalKillSwitch = true)
    (hkept : label ≠ .setGlobalKillSwitch false) :
    c'.server.riskEngine.globalKillSwitch = true ∧ label.Idle ∧
      (∀ client x, c'.server.riskEngine.position client x = c.server.riskEngine.position client x) ∧
      ∀ x id, (c'.server.instrumentFor x).book.findOrder id =
        if label.cancels x id = true then none else (c.server.instrumentFor x).book.findOrder id := by
  have hbook := fun x id => h.tracked hown x id
  cases h with
  | connect | disconnect => exact ⟨hon, trivial, fun _ _ => rfl, hbook⟩
  | setGlobalKillSwitch enabled =>
    cases enabled with
    | false => exact absurd rfl hkept
    | true => exact ⟨rfl, trivial, fun _ _ => rfl, hbook⟩
  | @send socket emission rest hnext =>
    obtain ⟨n, -, hstate⟩ := emit_state emission c.server
    rw [hstate] at hbook ⊢
    exact ⟨hon, trivial, fun _ _ => rfl, hbook⟩
  | @handle socket frame server₁ emissions order hopen hready hrun =>
    have hhalted := (handleMessage_cases hown.books hrun).halted hon
    have hidle : (Concurrent.Label.handle socket frame emissions).Idle :=
      ⟨hhalted.quiet, hhalted.unplaced⟩
    refine ⟨hhalted.switch, hidle, hhalted.positions, fun x id => ?_⟩
    rw [hbook, track, trackFrame_idle hidle, (hown.books.instrumentFor x).untraded]

/-- As long as the global kill switch stays on: no handler accepts or replaces an order or executes
anything, the position of every session stays what it was, and every book holds the orders that it
held but for those that were cancelled. -/
theorem kill_switch_halts {limits : RiskLimits} {file : Option (Option Bytes)}
    {server₀ : ExchangeServer} {labels₀ labels : List Concurrent.Label} {c c' : Concurrent}
    (hstart : start limits file = some server₀)
    (hrun₀ : Run Concurrent.Step ⟨server₀, fun _ => []⟩ labels₀ c)
    (hon : c.server.riskEngine.globalKillSwitch = true) (hrun : Run Concurrent.Step c labels c')
    (hkept : ∀ label ∈ labels, label ≠ .setGlobalKillSwitch false) :
    (∀ label ∈ labels, label.Idle) ∧
      (∀ client x, (c'.server.riskEngine.snapshot client x).position =
        (c.server.riskEngine.snapshot client x).position) ∧
      ∀ x id, (c'.server.instrumentFor x).book.findOrder id =
        if labels.any (·.cancels x id) = true then none
        else (c.server.instrumentFor x).book.findOrder id := by
  have hinv := hrun.history
    (P := fun labels c' => (∀ label ∈ labels, label ≠ .setGlobalKillSwitch false) →
      c'.server.riskEngine.globalKillSwitch = true ∧ (∀ label ∈ labels, label.Idle) ∧
      (∀ client x, c'.server.riskEngine.position client x = c.server.riskEngine.position client x) ∧
      ∀ x id, (c'.server.instrumentFor x).book.findOrder id =
        if labels.any (·.cancels x id) = true then none
        else (c.server.instrumentFor x).book.findOrder id)
    (fun _ => ⟨hon, fun _ hmem => (nomatch hmem), fun _ _ => rfl, fun _ _ => rfl⟩) ?_ hkept
  swap
  · intro labels c₁ label c₂ hprefix ih hstep hkept
    obtain ⟨hon₁, hidle, hpositions, hbooks⟩ := ih fun l hmem => hkept l (List.mem_append_left _ hmem)
    obtain ⟨log, hown⟩ := Concurrent.ownership hstart (hrun₀.append hprefix)
    obtain ⟨hon₂, hidle', hpositions', hbooks'⟩ :=
      hstep.halted hown hon₁ (hkept label (List.mem_append_right _ List.mem_cons_self))
    refine ⟨hon₂, fun l hmem => ?_, fun client x => ?_, fun x id => ?_⟩
    · rcases List.mem_append.mp hmem with hmem | hmem
      · exact hidle l hmem
      · exact List.mem_singleton.mp hmem ▸ hidle'
    · rw [hpositions', hpositions]
    · rw [hbooks', hbooks, List.any_append, List.any_cons, List.any_nil, Bool.or_false]
      cases labels.any (·.cancels x id) <;> cases label.cancels x id <;> rfl
  obtain ⟨-, hidle, hpositions, hbooks⟩ := hinv
  refine ⟨hidle, fun client x => ?_, hbooks⟩
  rw [(snapshot_state ..).1, (snapshot_state ..).1]
  exact Int64.toInt_inj.mp (hpositions client x)

/-- Session 4 bids, the switch is turned on, and session 5 would sell: the bid stays whole. -/
theorem kill_switch_halts_ask :
    ∃ labels₀ labels c c', Run Concurrent.Step ⟨{ riskEngine := { limits := {} } }, fun _ => []⟩
        labels₀ c ∧ Run Concurrent.Step c labels c' ∧ labels.length = 1 ∧
      (∀ label ∈ labels, label.Idle) ∧
      (c'.server.instrumentFor [84, 69, 83, 84]).book.findOrder 7 =
        some ⟨7, .buy, .limit, .goodTillCancel, 100, 5, 5, 1⟩ := by
  obtain ⟨⟨server₁, emissions₁⟩, hrun₁, hopen, hjournal, hrests, ⟨server₂, emissions₂⟩, hrun₂⟩ :
      ∃ r₁, handleMessage .dedup 4
        (newOrderFrame ⟨7, 1, 100, 5, .buy, .limit, .goodTillCancel, defaultSymbol⟩)
        (registerClient 5 (registerClient 4 { riskEngine := { limits := {} } })) = .ok r₁ ∧
      5 ∈ r₁.1.clientSockets ∧ r₁.1.journal.isSome = false ∧
      (r₁.1.instrumentFor [84, 69, 83, 84]).book.findOrder 7 =
        some ⟨7, .buy, .limit, .goodTillCancel, 100, 5, 5, 1⟩ ∧ ∃ r₂,
      handleMessage .dedup 5
        (newOrderFrame ⟨8, 2, 100, 2, .sell, .limit, .goodTillCancel, defaultSymbol⟩)
        (setGlobalKillSwitch true r₁.1) = .ok r₂ :=
    ⟨_, by rfl, by decide, rfl, by decide, _, by rfl⟩
  have connect : Concurrent.Step ⟨{ riskEngine := { limits := {} } }, fun _ => []⟩ (.connect 4) _ :=
    .connect (by decide) (by decide)
  have connect' : Concurrent.Step ⟨registerClient 4 { riskEngine := { limits := {} } }, fun _ => []⟩
      (.connect 5) _ := .connect (by decide) (by decide)
  have bid : Concurrent.Step
      ⟨registerClient 5 (registerClient 4 { riskEngine := { limits := {} } }), fun _ => []⟩
      (.handle 4 _ emissions₁) _ := .handle .dedup (by decide) ⟨rfl, fun _ _ => rfl⟩ hrun₁
  have halt : Concurrent.Step ⟨server₁, Function.update (fun _ => []) 4 emissions₁⟩ _ _ :=
    .setGlobalKillSwitch true
  have hready : Concurrent.Ready
      ⟨setGlobalKillSwitch true server₁, Function.update (fun _ => []) 4 emissions₁⟩ 5 := by
    refine ⟨rfl, fun h => ?_⟩
    rw [setGlobalKillSwitch, hjournal] at h
    cases h
  have ask := Concurrent.Step.handle .dedup hopen hready hrun₂
  have run₀ := ((((Run.nil _).snoc connect).snoc connect').snoc bid).snoc halt
  have run := (Run.nil _).snoc ask
  have hstart : start {} none = some { riskEngine := { limits := {} } } := rfl
  obtain ⟨hidle, -, hbooks⟩ := kill_switch_halts hstart run₀ rfl run fun label hmem => by
    rw [List.mem_singleton.mp hmem]
    exact nofun
  refine ⟨_, _, _, _, run₀, run, rfl, hidle, ?_⟩
  have hcancels : (Concurrent.Label.handle 5 (newOrderFrame ⟨8, 2, 100, 2, .sell, .limit,
      .goodTillCancel, defaultSymbol⟩) emissions₂).cancels [84, 69, 83, 84] 7 = false := rfl
  rw [hbooks, List.nil_append, List.any_cons, List.any_nil, Bool.or_false, hcancels]
  exact hrests

end ExchangeLab

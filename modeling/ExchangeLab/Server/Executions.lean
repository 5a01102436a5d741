import ExchangeLab.Server.Sequence

/-!
# ExchangeLab.Server.Executions

Who receives a private execution. The owner of an order is recorded as a socket number and a risk
client. The record outlives the connection, and so does the copy of the number that a thread holds
for an execution it has still to send; the number may then belong to a later connection.

* `Handled.execution`: an execution goes to the socket recorded with one of the two orders.
* `Handled.owner`: a frame records no owner but the session it came from.
* `Linked`, `Deliveries.Addressed`: the socket of a record, and that of an unsent execution, is the
  session of the record if it is connected.
* `execution_private`: executions reach their owners in runs that never connect under a number that
  is recorded or addressed; `execution_misdirected` and `execution_overtaken` are runs that do.
-/

namespace ExchangeLab

open Wire Protocol OrderBook MatchingEngine Container ExchangeServer Transition

/-- The owner of an order as the handler of a frame finds it: the record of the instrument, or the
session itself for the order that the frame brings in. -/
def RecordedOwner (server : ExchangeServer) (socket : Socket) (frame : Frame) (x : Bytes)
    (id : OrderId) (owner : OrderOwner) : Prop :=
  (server.instrumentFor x).orderOwners.lookup id = some owner ∨
    frame.header.type = .newOrder ∧
      (∃ request, decodeNewOrder frame.body = some request ∧ symbolToString request.symbol = x ∧
        request.orderId = id) ∧
      owner = ⟨socket, server.riskClientIdForSocket socket⟩

/-- The socket of a record is not connected, or its session is that of the record. -/
def Linked (server : ExchangeServer) : Prop :=
  ∀ x id owner, (server.instrumentFor x).orderOwners.lookup id = some owner →
    owner.socket ∈ server.clientSockets →
      server.riskClientIdForSocket owner.socket = owner.riskClientId

/-- `Sequenced` with what the thread of each session sends for: the server as its engine section
found it, and the frame. -/
structure Deliveries where
  sequenced : Sequenced
  found : Socket → Option (ExchangeServer × Frame) := fun _ => none

namespace Deliveries

def after (d : Deliveries) (label : Sequenced.Label) (s : Sequenced) : Deliveries :=
  match label with
  | .handle socket frame _ =>
    ⟨s, Function.update d.found socket (some (d.sequenced.server, frame))⟩
  | _ => { d with sequenced := s }

inductive Step : Deliveries → Sequenced.Label → Deliveries → Prop
  | mk {d : Deliveries} {label : Sequenced.Label} {s : Sequenced}
      (hstep : Sequenced.Step d.sequenced label s) : Step d label (d.after label s)

/-- The connection, if it is one, has the risk client that was recorded for the buy or the sell
order of the trade when the thread made it. -/
def Addressed (d : Deliveries) (thread connection : Socket) (symbol : Symbol) (trade : Trade) :
    Prop :=
  connection ∈ d.sequenced.server.clientSockets → ∃ server frame,
    d.found thread = some (server, frame) ∧ ∃ id ∈ Trade.orderIds trade, ∃ owner,
      RecordedOwner server thread frame (symbolToString symbol) id owner ∧
        d.sequenced.server.riskClientIdForSocket connection = owner.riskClientId

/-- An execution that is written is written to its owners only. -/
def ExecutionsPrivate (d : Deliveries) : Sequenced.Label → Prop
  | .write thread => ∀ held recipients receiver symbol trade, d.sequenced.held thread = some held →
      held.recipients = some recipients → held.emission = .tradeExecution receiver symbol trade →
      ∀ connection ∈ recipients, d.Addressed thread connection symbol trade
  | _ => True

/-- A connection gets no number that is still recorded with an order. -/
def ConnectsUnrecorded (d : Deliveries) : Sequenced.Label → Prop
  | .connect socket => ∀ x id owner,
      (d.sequenced.server.instrumentFor x).orderOwners.lookup id = some owner →
      owner.socket ≠ socket
  | _ => True

/-- A thread has still to draw a number for this, or to write it. -/
def Unsent (s : Sequenced) (thread : Socket) (emission : Emission) : Prop :=
  emission ∈ s.sending thread ∨ ∃ held, s.held thread = some held ∧ held.emission = emission

/-- A connection gets no number that an unsent execution is addressed to. -/
def ConnectsUnaddressed (d : Deliveries) : Sequenced.Label → Prop
  | .connect socket => ∀ thread receiver symbol trade,
      Unsent d.sequenced thread (.tradeExecution receiver symbol trade) → receiver ≠ socket
  | _ => True

def UnusedStep (d : Deliveries) (label : Sequenced.Label) (d' : Deliveries) : Prop :=
  Step d label d' ∧ d.ConnectsUnrecorded label ∧ d.ConnectsUnaddressed label

def starting (server₀ : ExchangeServer) : Deliveries := { sequenced := { server := server₀ } }

end Deliveries

namespace ExchangeServer

section Settle

variable {order : SetOrder} {incoming : Incoming} {trades : List Trade}
  {instrument : InstrumentState} {risk : RiskEngine}

theorem settle_owner {id : OrderId} {owner : OrderOwner}
    (h : (settle order incoming trades instrument risk).instrument.orderOwners.lookup id =
      some owner) :
    instrument.orderOwners.lookup id = some owner ∨
      owner = ⟨incoming.socket, incoming.riskClientId⟩ := by
  rw [settle_lookup] at h
  split at h
  · cases h
    exact .inr rfl
  · split at h
    · cases h
    · exact .inl h

theorem dropUnrested_owner {orderId id : OrderId} {settled : Settled} {owner : OrderOwner}
    (h : (dropUnrested orderId settled).orderOwners.lookup id = some owner) :
    settled.instrument.orderOwners.lookup id = some owner := by
  unfold dropUnrested at h
  split at h
  · exact h
  · rw [lookup_erase_eq] at h
    split at h
    · cases h
    · exact h

/-- Both copies of an execution are addressed by `findOrderOwner`. -/
theorem execution_delivery {s : Socket} {symbol : Symbol} {trade : Trade}
    (h : .tradeExecution s symbol trade ∈
      executionDeliveries (settle order incoming trades instrument risk).deliveries) :
    symbol = incoming.symbol ∧ ∃ id ∈ Trade.orderIds trade,
      (findOrderOwner instrument id incoming).socket = s := by
  rw [settle_deliveries, executionDeliveries] at h
  obtain ⟨delivery, hdelivery, hmem⟩ := List.mem_flatMap.mp h
  obtain ⟨t, -, rfl⟩ := List.mem_map.mp hdelivery
  rcases List.mem_pair.mp hmem with heq | heq
  · cases heq
    exact ⟨rfl, t.buyOrderId, .head _, rfl⟩
  · cases heq
    exact ⟨rfl, t.sellOrderId, .tail _ (.head _), rfl⟩

/-- A socket number that `findOrderOwner` finds is that of the session or of a record. -/
theorem findOrderOwner_socket {id : OrderId} (h : 0 ≤ (findOrderOwner instrument id incoming).socket) :
    id = incoming.orderId ∧
        findOrderOwner instrument id incoming = ⟨incoming.socket, incoming.riskClientId⟩ ∨
      instrument.orderOwners.lookup id = some (findOrderOwner instrument id incoming) := by
  unfold findOrderOwner at h ⊢
  split
  · rename_i hid
    exact .inl ⟨hid, rfl⟩
  · rename_i hid
    rw [if_neg hid] at h
    cases howner : instrument.orderOwners.lookup id with
    | none =>
      rw [howner] at h
      exact absurd h (by decide)
    | some owner => exact .inr rfl

end Settle

section Frame

variable {order : SetOrder} {socket : Socket} {frame : Frame} {server server' : ExchangeServer}
  {emissions : List Emission}

theorem newOrderEmissions_execution {orderId : OrderId} {settled : Settled} {snapshot : BookSnapshot}
    {s : Socket} {symbol : Symbol} {trade : Trade}
    (h : .tradeExecution s symbol trade ∈ newOrderEmissions socket orderId settled snapshot) :
    .tradeExecution s symbol trade ∈ executionDeliveries settled.deliveries := by
  simpa [newOrderEmissions] using h

theorem replaceOrderEmissions_execution {orderId : OrderId} {replaced : Symbol} {settled : Settled}
    {snapshot : BookSnapshot} {s : Socket} {symbol : Symbol} {trade : Trade}
    (h : .tradeExecution s symbol trade ∈
      replaceOrderEmissions socket orderId replaced settled snapshot) :
    .tradeExecution s symbol trade ∈ executionDeliveries settled.deliveries := by
  simpa [replaceOrderEmissions] using h

theorem Handled.execution (h : Handled order socket frame server server' emissions) {s : Socket}
    {symbol : Symbol} {trade : Trade} (hmem : .tradeExecution s symbol trade ∈ emissions)
    (hs : 0 ≤ s) :
    ∃ id ∈ Trade.orderIds trade, ∃ owner,
      RecordedOwner server socket frame (symbolToString symbol) id owner ∧ owner.socket = s := by
  cases h with
  | ignored => cases hmem
  | rejected | turnedAway | cancelled => simp at hmem
  | @placed request trades book snapshot h =>
    obtain ⟨rfl, id, hid, rfl⟩ := execution_delivery (newOrderEmissions_execution hmem)
    refine ⟨id, hid, _, ?_, rfl⟩
    rcases findOrderOwner_socket hs with ⟨rfl, howner⟩ | howner
    · rw [howner]
      exact .inr ⟨h.type, ⟨request, h.decoded, rfl, rfl⟩, rfl⟩
    · exact .inl howner
  | @replaced request instrument trades book snapshot h =>
    obtain ⟨rfl, id, hid, rfl⟩ := execution_delivery (replaceOrderEmissions_execution hmem)
    refine ⟨id, hid, _, .inl ?_, rfl⟩
    have hinstrument : server.instrumentFor (symbolToString
        (server.incomingFrom socket request.orderId request.symbol).symbol) = instrument :=
      instrumentFor_of_found h.found
    rw [hinstrument]
    rcases findOrderOwner_socket hs with ⟨rfl, howner⟩ | howner
    · rw [howner]
      exact owner_of_ownsResting h.owned
    · exact howner

theorem Handled.owner (h : Handled order socket frame server server' emissions) {x : Bytes}
    {id : OrderId} {owner : OrderOwner}
    (howner : (server'.instrumentFor x).orderOwners.lookup id = some owner) :
    (server.instrumentFor x).orderOwners.lookup id = some owner ∨
      owner = ⟨socket, server.riskClientIdForSocket socket⟩ := by
  cases h with
  | ignored | rejected => exact .inl howner
  | @turnedAway _ symbol =>
    rw [instrumentFor_made] at howner
    exact .inl howner
  | @placed request trades book snapshot h =>
    rw [instrumentFor_insert rfl] at howner
    split at howner
    · rename_i hx
      exact hx ▸ settle_owner howner
    · exact .inl howner
  | @cancelled request instrument book snapshot h =>
    rw [instrumentFor_insert rfl] at howner
    split at howner
    · rename_i hx
      rw [lookup_erase_eq] at howner
      split at howner
      · cases howner
      · exact .inl (by rw [hx, instrumentFor_of_found h.found]; exact howner)
    · exact .inl howner
  | @replaced request instrument trades book snapshot h =>
    rw [instrumentFor_insert rfl] at howner
    split at howner
    · rename_i hx
      rw [hx, instrumentFor_of_found h.found]
      exact settle_owner (dropUnrested_owner howner)
    · exact .inl howner

end Frame

end ExchangeServer

/-! ## Every run -/

namespace ExchangeServer

variable {server server' : ExchangeServer} {limits : RiskLimits} {file : Option (Option Bytes)}
  {socket receiver : Socket}

theorem start_linked (h : start limits file = some server) : Linked server := by
  intro x id owner howner
  have hsome := (((start_ownership h).owned x).owners id).mp (by rw [howner]; rfl)
  obtain ⟨-, event, hmem, -⟩ := hsome
  cases hmem

/-- Whoever is connected under the number was so before. -/
def KeepsSession (server server' : ExchangeServer) (receiver : Socket) : Prop :=
  receiver ∈ server'.clientSockets → receiver ∈ server.clientSockets ∧
    server'.riskClientIdForSocket receiver = server.riskClientIdForSocket receiver

theorem keepsSession_register (server : ExchangeServer) (h : receiver ≠ socket) :
    KeepsSession server (registerClient socket server) receiver := by
  intro hmem
  refine ⟨by simpa [registerClient, h] using hmem, ?_⟩
  simp only [riskClientIdForSocket, registerClient, lookup_insert_eq, if_neg h]

theorem keepsSession_unregister (h : server.clientSockets.Nodup) :
    KeepsSession server (unregisterClient socket server) receiver := by
  intro hmem
  obtain ⟨hne, hopen⟩ := h.mem_erase_iff.mp hmem
  refine ⟨hopen, ?_⟩
  simp only [riskClientIdForSocket, unregisterClient, lookup_erase_eq, if_neg hne]

theorem SameSessions.keepsSession (h : SameSessions server server') :
    KeepsSession server server' receiver := by
  intro hmem
  rw [riskClientIdForSocket, h.riskIds]
  exact ⟨h.sockets ▸ hmem, rfl⟩

end ExchangeServer

namespace Deliveries

variable {d d' : Deliveries} {s : Sequenced} {label : Sequenced.Label}
  {labels : List Sequenced.Label} {server₀ : ExchangeServer} {limits : RiskLimits}
  {file : Option (Option Bytes)} {thread receiver : Socket} {symbol : Symbol} {trade : Trade}

/-- A frame that is held goes to whom it is addressed. -/
def HeldAddressed (s : Sequenced) : Prop :=
  ∀ thread held, s.held thread = some held → held.emission.unaddressed = false ∧
    ∀ recipients, held.emission.addressee = some recipients → held.recipients = some recipients

/-- Every record and every unsent execution names a session that is still the one it was, if it is
connected. -/
structure Private (d : Deliveries) : Prop where
  linked : Linked d.sequenced.server
  addressed : ∀ thread receiver symbol trade, 0 ≤ receiver →
    Unsent d.sequenced thread (.tradeExecution receiver symbol trade) →
    d.Addressed thread receiver symbol trade
  held : HeldAddressed d.sequenced

theorem Private.executionsPrivate (h : d.Private) : d.ExecutionsPrivate label := by
  cases label with
  | write thread =>
    intro held recipients receiver symbol trade hheld hrecipients hemission connection hconnection
    obtain ⟨haddressed, haddressee⟩ := h.held thread held hheld
    rw [hemission] at haddressed haddressee
    rw [haddressee [receiver] rfl] at hrecipients
    cases hrecipients
    rw [List.mem_singleton.mp hconnection]
    refine h.addressed thread receiver symbol trade ?_ (.inr ⟨held, hheld, hemission⟩)
    simpa [Emission.unaddressed] using haddressed
  | _ => trivial

theorem Addressed.keep (h : d.Addressed thread receiver symbol trade)
    (hkeeps : KeepsSession d.sequenced.server s.server receiver)
    {found : Socket → Option (ExchangeServer × Frame)} (hfound : found thread = d.found thread) :
    Addressed ⟨s, found⟩ thread receiver symbol trade := by
  intro hopen
  obtain ⟨hwas, hsame⟩ := hkeeps hopen
  obtain ⟨server, frame, hserver, id, hid, owner, howner, hrisk⟩ := h hwas
  exact ⟨server, frame, hfound.trans hserver, id, hid, owner, howner, hsame.trans hrisk⟩

/-- A step that is not an engine section. -/
theorem Private.later (h : d.Private)
    (hinstruments : s.server.instruments = d.sequenced.server.instruments)
    (hrecorded : ∀ x id owner,
      (d.sequenced.server.instrumentFor x).orderOwners.lookup id = some owner →
      KeepsSession d.sequenced.server s.server owner.socket)
    (hunsent : ∀ thread receiver symbol trade,
      Unsent s thread (.tradeExecution receiver symbol trade) →
      Unsent d.sequenced thread (.tradeExecution receiver symbol trade) ∧
        KeepsSession d.sequenced.server s.server receiver)
    (hheld : HeldAddressed s) :
    Private { d with sequenced := s } where
  linked := by
    intro x id owner howner hopen
    have hrecord : (d.sequenced.server.instrumentFor x).orderOwners.lookup id = some owner := by
      rw [instrumentFor, findInstrument, hinstruments] at howner
      exact howner
    obtain ⟨hwas, hsame⟩ := hrecorded x id owner hrecord hopen
    exact hsame.trans (h.linked x id owner hrecord hwas)
  addressed := by
    intro thread receiver symbol trade hvalid hmem
    obtain ⟨hbefore, hkeeps⟩ := hunsent thread receiver symbol trade hmem
    exact (h.addressed thread receiver symbol trade hvalid hbefore).keep hkeeps rfl
  held := hheld

/-- A step of a thread that sends. -/
theorem Private.sends (h : d.Private)
    (hinstruments : s.server.instruments = d.sequenced.server.instruments)
    (hsessions : SameSessions d.sequenced.server s.server)
    (hunsent : ∀ thread emission, Unsent s thread emission → Unsent d.sequenced thread emission)
    (hheld : HeldAddressed s) :
    Private { d with sequenced := s } :=
  h.later hinstruments (fun _ _ _ _ => hsessions.keepsSession)
    (fun thread _ _ _ hmem => ⟨hunsent thread _ hmem, hsessions.keepsSession⟩) hheld

/-- A thread that starts on a frame has nothing to send from before. -/
theorem Unsent.handled {server₁ : ExchangeServer} {emissions : List Emission} {other : Socket}
    {emission : Emission} (hidle : s.Idle thread)
    (h : Unsent { s with
      server := server₁, sending := Function.update s.sending thread emissions } other emission) :
    other = thread ∧ emission ∈ emissions ∨ other ≠ thread ∧ Unsent s other emission := by
  simp only [Unsent] at h
  by_cases hother : other = thread
  · subst hother
    rw [Function.update_self, hidle.2] at h
    rcases h with hmem | ⟨held, hheld, -⟩
    · exact .inl ⟨rfl, hmem⟩
    · cases hheld
  · rw [Function.update_of_ne hother] at h
    exact .inr ⟨hother, h⟩

/-- What an engine section has traded is addressed to the owners it found. -/
theorem Private.handle (h : d.Private) {order : SetOrder} {frame : Frame} {server₁ : ExchangeServer}
    {emissions : List Emission} (hidle : d.sequenced.Idle thread)
    (hhandled : Handled order thread frame d.sequenced.server server₁ emissions) :
    (d.after (.handle thread frame emissions) { d.sequenced with
      server := server₁
      sending := Function.update d.sequenced.sending thread emissions }).Private where
  linked := by
    intro x id owner howner hopen
    obtain ⟨hwas, hsame⟩ := hhandled.sameSessions.keepsSession hopen
    refine hsame.trans ?_
    rcases hhandled.owner howner with hold | rfl
    · exact h.linked x id owner hold hwas
    · rfl
  addressed := by
    intro other receiver symbol trade hvalid hmem
    rcases Unsent.handled hidle hmem with ⟨rfl, htraded⟩ | ⟨hother, hbefore⟩
    · obtain ⟨id, hid, owner, howner, rfl⟩ := hhandled.execution htraded hvalid
      intro hopen
      obtain ⟨hwas, hsame⟩ := hhandled.sameSessions.keepsSession hopen
      refine ⟨d.sequenced.server, frame, Function.update_self .., id, hid, owner, howner, ?_⟩
      refine hsame.trans ?_
      rcases howner with hrecord | ⟨-, -, rfl⟩
      · exact h.linked _ id owner hrecord hwas
      · rfl
    · exact (h.addressed other receiver symbol trade hvalid hbefore).keep
        hhandled.sameSessions.keepsSession (Function.update_of_ne hother ..)
  held := h.held

theorem Private.step {log : List Event} (h : d.Private) (hown : Ownership log d.sequenced.server)
    (hstep : UnusedStep d label d') : d'.Private := by
  obtain ⟨⟨hstep⟩, hunrecorded, hunaddressed⟩ := hstep
  have hsame : SameSessions d.sequenced.server d.sequenced.server := ⟨rfl, rfl, rfl⟩
  -- the thread that goes on has no more to send than it had
  have hfewer : ∀ {socket emission rest}, d.sequenced.sending socket = emission :: rest →
      ∀ {thread e}, e ∈ Function.update d.sequenced.sending socket rest thread →
      e ∈ d.sequenced.sending thread := by
    intro socket emission rest hnext thread e hmem
    by_cases hthread : thread = socket
    · subst hthread
      rw [Function.update_self] at hmem
      rw [hnext]
      exact List.mem_cons_of_mem _ hmem
    · rwa [Function.update_of_ne hthread] at hmem
  cases hstep with
  | @connect socket hvalid hfree =>
    exact h.later rfl
      (fun x id owner howner => keepsSession_register _ (hunrecorded x id owner howner))
      (fun thread receiver symbol trade hmem =>
        ⟨hmem, keepsSession_register _ (hunaddressed thread receiver symbol trade hmem)⟩) h.held
  | disconnect hopen hidle =>
    exact h.later rfl (fun _ _ _ _ => keepsSession_unregister hown.sessions.nodup)
      (fun _ _ _ _ hmem => ⟨hmem, keepsSession_unregister hown.sessions.nodup⟩) h.held
  | handle order hopen hready hrun =>
    exact h.handle hready.1 (handleMessage_cases hown.books hrun)
  | setGlobalKillSwitch => exact h.sends rfl ⟨rfl, rfl, rfl⟩ (fun _ _ hmem => hmem) h.held
  | skip hnext hfree hunaddressed =>
    exact h.sends rfl hsame (fun _ _ hmem => hmem.imp_left (hfewer hnext)) h.held
  | @draw socket emission rest hnext hfree haddressed =>
    refine h.sends rfl ⟨rfl, rfl, rfl⟩ ?_ ?_
    · rintro thread e (hmem | ⟨held, hheld, rfl⟩)
      · exact .inl (hfewer hnext hmem)
      · rcases Sequenced.held_update hheld with ⟨rfl, hnew⟩ | ⟨-, hold⟩
        · cases hnew
          exact .inl (by rw [hnext]; exact List.mem_cons_self)
        · exact .inr ⟨held, hold, rfl⟩
    · intro thread held hheld
      rcases Sequenced.held_update hheld with ⟨-, hnew⟩ | ⟨-, hold⟩
      · cases hnew
        exact ⟨haddressed, fun recipients haddressee => haddressee⟩
      · exact h.held thread held hold
  | @snapshot socket held hheld hnone =>
    refine h.sends rfl hsame ?_ ?_
    · rintro thread e (hmem | ⟨later, hlater, rfl⟩)
      · exact .inl hmem
      · rcases Sequenced.held_update hlater with ⟨rfl, hnew⟩ | ⟨-, hold⟩
        · cases hnew
          exact .inr ⟨held, hheld, rfl⟩
        · exact .inr ⟨later, hold, rfl⟩
    · intro thread later hlater
      rcases Sequenced.held_update hlater with ⟨-, hnew⟩ | ⟨-, hold⟩
      · cases hnew
        obtain ⟨haddressed, haddressee⟩ := h.held socket held hheld
        refine ⟨haddressed, fun recipients hsome => ?_⟩
        rw [hnone] at haddressee
        cases haddressee recipients hsome
      · exact h.held thread later hold
  | @write socket held recipients hheld hrecipients =>
    have hothers : ∀ {thread later},
        Function.update d.sequenced.held socket none thread = some later →
        d.sequenced.held thread = some later := by
      intro thread later hlater
      rcases Sequenced.held_update hlater with ⟨-, hnew⟩ | ⟨-, hold⟩
      · cases hnew
      · exact hold
    exact h.sends rfl hsame
      (fun _ _ hmem => hmem.imp_right fun ⟨later, hlater, heq⟩ => ⟨later, hothers hlater, heq⟩)
      fun thread later hlater => h.held thread later (hothers hlater)

theorem after_sequenced (d : Deliveries) (label : Sequenced.Label) (s : Sequenced) :
    (d.after label s).sequenced = s := by
  cases label <;> rfl

theorem sequenced_run (h : Run Step (starting server₀) labels d) :
    Run Sequenced.Step { server := server₀ } labels d.sequenced := by
  induction h with
  | nil => exact .nil _
  | snoc hrun hstep ih =>
    obtain ⟨hstep⟩ := hstep
    rw [after_sequenced]
    exact ih.snoc hstep

theorem private_run (hstart : start limits file = some server₀)
    (h : Run UnusedStep (starting server₀) labels d) : d.Private := by
  refine h.history (P := fun _ => Private) ⟨start_linked hstart, ?_, ?_⟩ ?_
  · rintro thread receiver symbol trade - (hmem | ⟨held, hheld, -⟩)
    · exact absurd hmem List.not_mem_nil
    · cases hheld
  · intro thread held hheld
    cases hheld
  · intro labels d label d' hrun hprivate hstep
    obtain ⟨labels', hconcurrent⟩ :=
      Sequenced.concurrent (sequenced_run (hrun.mono fun _ _ _ hstep => hstep.1))
    obtain ⟨log, hown⟩ := Concurrent.ownership hstart hconcurrent
    exact hprivate.step hown hstep

end Deliveries

/-- In every run whose connections are never made under a number that is recorded with a resting
order or that an unsent execution is addressed to, each execution reaches a session that owns one of
its two orders, and no other. -/
theorem execution_private {limits : RiskLimits} {file : Option (Option Bytes)}
    {labels : List Sequenced.Label} {label : Sequenced.Label} {server₀ : ExchangeServer}
    {d : Deliveries} (hstart : start limits file = some server₀)
    (hrun : Run Deliveries.UnusedStep (.starting server₀) labels d) : d.ExecutionsPrivate label :=
  (Deliveries.private_run hstart hrun).executionsPrivate

/-! ## Runs that are computed -/

namespace Deliveries

variable {d d' : Deliveries} {label : Sequenced.Label} {labels : List Sequenced.Label}
  {server₀ : ExchangeServer} {limits : RiskLimits} {file : Option (Option Bytes)}
  {thread connection : Socket}

def perform (move : Sequenced.Move) (d : Deliveries) : Option (Sequenced.Label × Deliveries) :=
  (d.sequenced.perform move).map fun next => (next.1, d.after next.1 next.2)

/-- No record has the number of a new connection. -/
def unrecorded (d : Deliveries) : Sequenced.Label → Bool
  | .connect socket => decide (∀ e ∈ d.sequenced.server.instruments.entries,
      ∀ record ∈ e.2.orderOwners.entries, record.2.socket ≠ socket)
  | _ => true

/-- Connections are made while nobody has anything to send. -/
def settled (d : Deliveries) : Sequenced.Label → Bool
  | .connect _ => d.sequenced.server.clientSockets.all d.sequenced.isIdle
  | _ => true

/-- The thread is about to write an execution to a connection that it is not for. -/
def misdirects (d : Deliveries) (thread connection : Socket) : Bool :=
  let current := d.sequenced.server.riskClientIdForSocket connection
  match d.sequenced.held thread, d.found thread with
  | some ⟨_, .tradeExecution _ symbol trade, some recipients⟩, some (server, _) =>
    decide (connection ∈ recipients ∧ connection ∈ d.sequenced.server.clientSockets) &&
      server.riskClientIdForSocket thread != current &&
      (Trade.orderIds trade).all fun id =>
        ((server.instrumentFor (symbolToString symbol)).orderOwners.lookup id).all fun owner =>
          owner.riskClientId != current
  | _, _ => false

theorem perform_step {move : Sequenced.Move} (hstart : start limits file = some server₀)
    (hrun : Run Step (starting server₀) labels d) (h : d.perform move = some (label, d')) :
    Step d label d' := by
  obtain ⟨⟨label', s⟩, hperform, heq⟩ := Option.map_eq_some_iff.mp h
  cases heq
  exact .mk (Sequenced.perform_step hstart (sequenced_run hrun) hperform)

theorem unrecorded_connects (h : d.unrecorded label = true) : d.ConnectsUnrecorded label := by
  cases label with
  | connect socket =>
    intro x id owner howner
    cases hinstrument : d.sequenced.server.findInstrument x with
    | none =>
      rw [instrumentFor, hinstrument] at howner
      cases howner
    | some instrument =>
      rw [instrumentFor, hinstrument] at howner
      exact of_decide_eq_true h ⟨x, instrument⟩ (Finmap.mem_lookup_iff.mp hinstrument) ⟨id, owner⟩
        (Finmap.mem_lookup_iff.mp howner)
  | _ => trivial

theorem settled_connects
    (hidle : ∀ socket, socket ∉ d.sequenced.server.clientSockets → d.sequenced.Idle socket)
    (h : d.settled label = true) : d.ConnectsUnaddressed label := by
  cases label with
  | connect socket =>
    intro thread receiver symbol trade hunsent
    have hnone : d.sequenced.Idle thread := by
      by_cases hmem : thread ∈ d.sequenced.server.clientSockets
      · exact Sequenced.isIdle_idle (List.all_eq_true.mp h thread hmem)
      · exact hidle thread hmem
    rcases hunsent with hmem | ⟨held, hheld, -⟩
    · rw [hnone.1] at hmem
      cases hmem
    · rw [hnone.2] at hheld
      cases hheld
  | _ => trivial

theorem misdirects_not_private (h : d.misdirects thread connection = true) :
    ¬d.ExecutionsPrivate (.write thread) := by
  intro hprivate
  rw [misdirects] at h
  split at h
  · rename_i number receiver symbol trade recipients server frame hheld hfound
    simp only [Bool.and_eq_true, decide_eq_true_eq, List.all_eq_true, bne_iff_ne] at h
    obtain ⟨⟨⟨hrecipient, hopen⟩, hself⟩, hrecorded⟩ := h
    obtain ⟨server', frame', hfound', id, hid, owner, howner, hrisk⟩ :=
      hprivate _ recipients receiver symbol trade hheld rfl rfl connection hrecipient hopen
    rw [hfound] at hfound'
    cases hfound'
    rcases howner with hrecord | ⟨-, -, rfl⟩
    · have hall := hrecorded id hid
      rw [hrecord, Option.all_some, bne_iff_ne] at hall
      exact hall hrisk.symm
    · exact hself hrisk.symm
  · cases h

end Deliveries

open Deliveries

/-- The thread of a session answers, and sends this many messages to single sessions and to all. -/
def Sequenced.sendMoves (socket : Socket) (single all : Nat) : List Sequenced.Move :=
  List.replicate (2 * single + 3 * all) (.advance socket)

/-- Session 4 sells to session 5 and leaves; the next session under its number sells to session 5
again, whose thread has got to the seller's copy of the second trade. -/
def reconnectedMoves : List Sequenced.Move :=
  [.connect 4, .connect 5,
    .handle 4 (newOrderFrame ⟨7, 1, 100, 5, .sell, .limit, .goodTillCancel, defaultSymbol⟩)] ++
  Sequenced.sendMoves 4 1 2 ++
  [.handle 5 (newOrderFrame ⟨8, 2, 100, 5, .buy, .limit, .goodTillCancel, defaultSymbol⟩)] ++
  Sequenced.sendMoves 5 3 3 ++
  [.disconnect 4, .connect 4,
    .handle 4 (newOrderFrame ⟨9, 3, 100, 5, .sell, .limit, .goodTillCancel, defaultSymbol⟩)] ++
  Sequenced.sendMoves 4 1 2 ++
  [.handle 5 (newOrderFrame ⟨10, 4, 100, 5, .buy, .limit, .goodTillCancel, defaultSymbol⟩)] ++
  Sequenced.sendMoves 5 2 0 ++ [.advance 5]

theorem execution_private_reconnected : ∃ labels d held,
    Run UnusedStep (.starting { riskEngine := { limits := {} } }) labels d ∧
    d.sequenced.held 5 = some held ∧ held.emission.type = .tradeExecution ∧
    held.recipients = some [4] ∧ 4 ∈ d.sequenced.server.clientSockets ∧
    d.sequenced.server.riskClientIdForSocket 4 = 3 ∧ d.ExecutionsPrivate (.write 5) := by
  have hstart : start {} none = some { riskEngine := { limits := {} } } := rfl
  have hplayed : (play (fun move d => (perform move d).filter fun next =>
        d.unrecorded next.1 && d.settled next.1) reconnectedMoves
      (.starting { riskEngine := { limits := {} } })).any (fun result =>
        (result.2.sequenced.held 5).any fun held => decide (held.emission.type = .tradeExecution ∧
          held.recipients = some [4] ∧ 4 ∈ result.2.sequenced.server.clientSockets ∧
          result.2.sequenced.server.riskClientIdForSocket 4 = 3)) = true := by
    decide +kernel
  obtain ⟨⟨labels, d⟩, hplay, hfinal⟩ := (Option.any_eq_true _ _).mp hplayed
  have hrun : Run UnusedStep (.starting { riskEngine := { limits := {} } }) labels d := by
    refine Run.of_play_filter perform (fun d label => d.unrecorded label && d.settled label)
      (perform_step hstart) (fun hrun hchecked => ?_) hplay
    rw [Bool.and_eq_true] at hchecked
    exact ⟨unrecorded_connects hchecked.1,
      settled_connects (Sequenced.idle_run hstart (sequenced_run hrun)) hchecked.2⟩
  obtain ⟨held, hheld, hfinal⟩ := (Option.any_eq_true _ _).mp hfinal
  obtain ⟨htype, hrecipients, hopen, hclient⟩ := of_decide_eq_true hfinal
  exact ⟨labels, d, held, hrun, hheld, htype, hrecipients, hopen, hclient,
    execution_private hstart hrun⟩

/-- Session 4 leaves a sale behind and the next connection gets its number: the trade that session 5
makes with the sale is reported to that connection, which owns neither order. -/
def misdirectedMoves : List Sequenced.Move :=
  [.connect 4,
    .handle 4 (newOrderFrame ⟨7, 1, 100, 5, .sell, .limit, .goodTillCancel, defaultSymbol⟩)] ++
  Sequenced.sendMoves 4 1 2 ++
  [.disconnect 4, .connect 4, .connect 5,
    .handle 5 (newOrderFrame ⟨8, 2, 100, 5, .buy, .limit, .goodTillCancel, defaultSymbol⟩)] ++
  Sequenced.sendMoves 5 2 0 ++ [.advance 5]

theorem execution_misdirected :
    ¬ ∀ (limits : RiskLimits) (file : Option (Option Bytes)) (labels : List Sequenced.Label)
        (label : Sequenced.Label) (server₀ : ExchangeServer) (d : Deliveries),
        start limits file = some server₀ → Run Deliveries.Step (.starting server₀) labels d →
        d.ExecutionsPrivate label := by
  intro h
  have hstart : start {} none = some { riskEngine := { limits := {} } } := rfl
  have hplayed : (play (fun move d => perform move d) misdirectedMoves
      (.starting { riskEngine := { limits := {} } })).any (fun result =>
        result.2.misdirects 5 4) = true := by
    decide +kernel
  obtain ⟨⟨labels, d⟩, hplay, hmisdirects⟩ := (Option.any_eq_true _ _).mp hplayed
  have hrun := Run.of_play (perform_step hstart) (.nil _) hplay
  exact misdirects_not_private hmisdirects (h {} none labels _ _ d hstart hrun)

/-- Session 4 leaves after its sale has been taken, and before the taker's thread has reported that;
the next connection gets its number. -/
def overtakenMoves : List Sequenced.Move :=
  [.connect 4, .connect 5,
    .handle 4 (newOrderFrame ⟨7, 1, 100, 5, .sell, .limit, .goodTillCancel, defaultSymbol⟩)] ++
  Sequenced.sendMoves 4 1 2 ++
  [.handle 5 (newOrderFrame ⟨8, 2, 100, 5, .buy, .limit, .goodTillCancel, defaultSymbol⟩),
    .disconnect 4, .connect 4] ++
  Sequenced.sendMoves 5 2 0 ++ [.advance 5]

/-- No order need be recorded under the number. -/
theorem execution_overtaken :
    ¬ ∀ (limits : RiskLimits) (file : Option (Option Bytes)) (labels : List Sequenced.Label)
        (label : Sequenced.Label) (server₀ : ExchangeServer) (d : Deliveries),
        start limits file = some server₀ →
        Run (fun d label d' => Deliveries.Step d label d' ∧ d.ConnectsUnrecorded label)
          (.starting server₀) labels d → d.ExecutionsPrivate label := by
  intro h
  have hstart : start {} none = some { riskEngine := { limits := {} } } := rfl
  have hplayed : (play (fun move d => (perform move d).filter fun next => d.unrecorded next.1)
      overtakenMoves (.starting { riskEngine := { limits := {} } })).any (fun result =>
        result.2.misdirects 5 4) = true := by
    decide +kernel
  obtain ⟨⟨labels, d⟩, hplay, hmisdirects⟩ := (Option.any_eq_true _ _).mp hplayed
  have hrun := Run.of_play_filter perform unrecorded (perform_step hstart)
    (fun _ => unrecorded_connects) hplay
  exact misdirects_not_private hmisdirects (h {} none labels _ _ d hstart hrun)

end ExchangeLab

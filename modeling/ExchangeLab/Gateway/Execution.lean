import ExchangeLab.Gateway.Bridge

/-!
# ExchangeLab.Gateway.Execution

Runs of the gateway and the core that are computed: `perform` takes one step if it can be taken, and
`performAll_run` turns a list of moves that all succeed into a run. The messages of a client that
such runs need are at the end.
-/

namespace ExchangeLab

open Wire Protocol Container ExchangeServer FixGateway Transition

namespace Bridge

inductive Move where
  | accept (socket : Socket)
  | connect (socket : Socket)
  | disconnect (socket : Socket)
  | client (socket : Socket) (surroundings : Surroundings) (message : Fix.Message)
  | command (socket : Socket) (frame : Frame)
  | request (socket : Socket)
  | send (socket : Socket)
  | deliver (socket : Socket)

/-- Only a connected session has something to send, so these are all there are to look at. -/
def isReady (socket : Socket) (s : Bridge) : Bool :=
  (s.core.sending socket).isEmpty && (s.core.server.journal.isNone ||
    s.core.server.clientSockets.all fun other => (s.core.sending other).isEmpty)

/-- The locked part of a handler, for a frame that leaves the links as they are given. -/
def performHandler (socket : Socket) (frame : Frame) (links : Socket → Option Link) (s : Bridge) :
    Option Bridge :=
  if socket ∉ s.core.server.clientSockets ∨ !s.isReady socket then none
  else
    match handleMessage .dedup socket frame s.core.server with
    | .error _ => none
    | .ok (server, emissions) =>
      some ⟨⟨server, Function.update s.core.sending socket emissions⟩, links, s.nextNumericOrderId,
        s.executions ++ executionsOf emissions⟩

def perform (config : FixGatewayConfig) (move : Move) (s : Bridge) : Option Bridge :=
  match move with
  | .accept socket =>
    if socket ∈ s.core.server.clientSockets ∨ (s.links socket).isSome then none
    else
      some (s.setLink socket
        { session := { heartbeatSeconds := config.defaultHeartbeatSeconds } })
  | .connect socket =>
    if socket < 0 ∨ socket ∈ s.core.server.clientSockets ∨
        (s.links socket).any (·.session.coreSocket < 0) then none
    else some { s with core := ⟨registerClient socket s.core.server, s.core.sending⟩ }
  | .disconnect socket =>
    if socket ∉ s.core.server.clientSockets ∨ !(s.core.sending socket).isEmpty then none
    else
      some { s with
        core := ⟨unregisterClient socket s.core.server, s.core.sending⟩
        links := Function.update s.links socket none }
  | .client socket surroundings message =>
    match s.links socket with
    | none => none
    | some link =>
      if link.session.closing ∨ s.nextNumericOrderId ≥ 2 ^ 64 then none
      else
        some (s.afterClient socket link
          (processFixMessage config surroundings s.nextNumericOrderId message link.session))
  | .command socket frame =>
    if (s.links socket).isSome then none else s.performHandler socket frame s.links
  | .request socket =>
    match s.links socket with
    | none => none
    | some link =>
      match link.toCore with
      | [] => none
      | frame :: rest =>
        s.performHandler socket frame
          (Function.update s.links socket (some { link with toCore := rest }))
  | .send socket =>
    match s.core.sending socket with
    | [] => none
    | emission :: rest =>
      some { s with
        core := ⟨(emit emission s.core.server).1, Function.update s.core.sending socket rest⟩
        links := (emit emission s.core.server).2.foldl deliverSent s.links }
  | .deliver socket =>
    match s.links socket with
    | none => none
    | some link =>
      match link.toGateway with
      | [] => none
      | message :: rest => some (s.setLink socket (link.process .dedup message rest))

def performAll (config : FixGatewayConfig) (moves : List Move) (s : Bridge) : Option Bridge :=
  moves.foldlM (fun s move => perform config move s) s

variable {config : FixGatewayConfig} {limits : RiskLimits} {file : Option (Option Bytes)}
  {server₀ : ExchangeServer} {s s' : Bridge}

/-! ## A session that is not connected has nothing to send -/

def Silent (s : Bridge) : Prop :=
  ∀ socket, socket ∉ s.core.server.clientSockets → s.core.sending socket = []

theorem Silent.step {label : Label} (h : s.Silent) (hbooks : s.core.server.BooksConsistent)
    (hstep : Step config s label s') : s'.Silent := by
  cases hstep with
  | accept => exact h
  | client => exact h
  | deliver => exact h
  | core hcore _ =>
    intro other hother
    cases hcore with
    | connect => exact h other fun hmem => hother (List.mem_append_left _ hmem)
    | @disconnect socket hopen hidle =>
      by_cases heq : other = socket
      · rw [heq]
        exact hidle
      · exact h other fun hmem => hother ((List.mem_erase_of_ne heq).mpr hmem)
    | @handle socket frame server₁ emissions order hopen hready hrun =>
      have hsockets := (handleMessage_cases hbooks hrun).sameSessions.sockets
      have hne : other ≠ socket := by
        rintro rfl
        exact hother (hsockets ▸ hopen)
      exact (Function.update_of_ne hne _ _).trans (h other (hsockets ▸ hother))
    | @send socket emission rest hnext =>
      obtain ⟨n, -, heq⟩ := emit_state emission s.core.server
      have hidle := h other (by rw [heq] at hother; exact hother)
      have hne : other ≠ socket := by
        rintro rfl
        rw [hidle] at hnext
        cases hnext
      exact (Function.update_of_ne hne _ _).trans hidle
    | setGlobalKillSwitch => exact h other hother

theorem silent_run {labels : List Label} (hstart : start limits file = some server₀)
    (h : Run (Step config) (starting server₀) labels s) : s.Silent := by
  induction h with
  | nil => exact fun _ _ => rfl
  | snoc hrun hstep ih =>
    obtain ⟨log, hown⟩ := ownership hstart hrun
    exact ih.step hown.books hstep

theorem Silent.ready (h : s.Silent) {socket : Socket} (hready : s.isReady socket = true) :
    s.core.Ready socket := by
  rw [isReady, Bool.and_eq_true, Bool.or_eq_true, List.isEmpty_iff, List.all_eq_true] at hready
  refine ⟨hready.1, fun hjournal other => ?_⟩
  rcases hready.2 with hnone | hall
  · rw [Option.isNone_iff_eq_none] at hnone
    rw [hnone] at hjournal
    cases hjournal
  · by_cases hmem : other ∈ s.core.server.clientSockets
    · exact List.isEmpty_iff.mp (hall other hmem)
    · exact h other hmem

/-! ## A move is a step -/

def Label.isDelivery : Label → Bool
  | .deliver .. => true
  | _ => false

def Move.isDelivery : Move → Bool
  | .deliver _ => true
  | _ => false

theorem Step.quiet {label : Concurrent.Label} {core' : Concurrent} {links' : Socket → Option Link}
    (hstep : Concurrent.Step s.core label core') (hlinks : Follows s.links label links')
    (hquiet : executedBy label = []) :
    Step config s (.core label) ⟨core', links', s.nextNumericOrderId, s.executions⟩ := by
  have hcore : Step config s (.core label)
      ⟨core', links', s.nextNumericOrderId, s.executions ++ executedBy label⟩ :=
    .core hstep hlinks
  rw [hquiet, List.append_nil] at hcore
  exact hcore

/-- What the labels of a move have in common: it delivers if the move does, and it is of a kind that
runs may restrict only if the move is. -/
structure Move.Yields (s : Bridge) (move : Move) (label : Label) : Prop where
  delivery : label.isDelivery = move.isDelivery
  command : ∀ socket frame emissions, label = .core (.handle socket frame emissions) →
    s.links socket = none → move = .command socket frame
  connect : ∀ socket, label = .core (.connect socket) → move = .connect socket
  client : ∀ socket surroundings message, label = .client socket surroundings message →
    move = .client socket surroundings message
  deliver : ∀ socket message, label = .deliver socket message →
    move = .deliver socket ∧ ∃ link rest, s.links socket = some link ∧ link.toGateway = message :: rest

theorem Move.Yields.of_core {move : Move} {label : Concurrent.Label} (hmove : move.isDelivery = false)
    (hhandle : ∀ socket frame emissions, label ≠ .handle socket frame emissions)
    (hconnect : ∀ socket, label = .connect socket → move = .connect socket) :
    move.Yields s (.core label) where
  delivery := hmove.symm
  command socket frame emissions hlabel := by
    cases hlabel
    exact absurd rfl (hhandle socket frame emissions)
  connect socket hlabel := by
    cases hlabel
    exact hconnect socket rfl
  client _ _ _ hlabel := by cases hlabel
  deliver _ _ hlabel := by cases hlabel

theorem Move.Yields.of_handle {move : Move} {socket : Socket} {frame : Frame}
    {emissions : List Emission} (hmove : move.isDelivery = false)
    (hcommand : s.links socket = none → move = .command socket frame) :
    move.Yields s (.core (.handle socket frame emissions)) where
  delivery := hmove.symm
  command _ _ _ hlabel hnone := by
    cases hlabel
    exact hcommand hnone
  connect _ hlabel := by cases hlabel
  client _ _ _ hlabel := by cases hlabel
  deliver _ _ hlabel := by cases hlabel

theorem performHandler_step {socket : Socket} {frame : Frame} {links : Socket → Option Link}
    (h : s.Silent) (hlinks : ∀ emissions, Follows s.links (.handle socket frame emissions) links)
    (hperform : s.performHandler socket frame links = some s') :
    ∃ emissions, Step config s (.core (.handle socket frame emissions)) s' := by
  unfold performHandler at hperform
  split at hperform
  · cases hperform
  rename_i hguard
  rw [not_or, not_not, Bool.not_eq_true', Bool.not_eq_false] at hguard
  split at hperform
  · cases hperform
  rename_i server emissions hrun
  cases hperform
  exact ⟨emissions, .core (.handle .dedup hguard.1 (h.ready hguard.2) hrun) (hlinks emissions)⟩

theorem perform_step {move : Move} (h : s.Silent) (hperform : perform config move s = some s') :
    ∃ label, Step config s label s' ∧ move.Yields s label := by
  cases move with
  | accept socket =>
    simp only [perform, Option.ite_none_left_eq_some, not_or] at hperform
    obtain ⟨⟨hfree, hlink⟩, heq⟩ := hperform
    cases heq
    exact ⟨_, .accept hfree (Option.not_isSome_iff_eq_none.mp hlink), rfl,
      fun _ _ _ hlabel => (by cases hlabel), fun _ hlabel => (by cases hlabel),
      fun _ _ _ hlabel => (by cases hlabel), fun _ _ hlabel => by cases hlabel⟩
  | connect socket =>
    simp only [perform, Option.ite_none_left_eq_some, not_or, Int.not_lt] at hperform
    obtain ⟨⟨hvalid, hfree, hconnecting⟩, heq⟩ := hperform
    cases heq
    refine ⟨_, .quiet (.connect hvalid hfree) (.connect ?_) rfl,
      .of_core rfl (fun _ _ _ hlabel => by cases hlabel) fun _ hlabel => by cases hlabel; rfl⟩
    intro link hlink
    rw [hlink] at hconnecting
    simpa using hconnecting
  | disconnect socket =>
    simp only [perform, Option.ite_none_left_eq_some, not_or, not_not, Bool.not_eq_true',
      Bool.not_eq_false, List.isEmpty_iff] at hperform
    obtain ⟨⟨hopen, hidle⟩, heq⟩ := hperform
    cases heq
    exact ⟨_, .quiet (.disconnect hopen hidle) (.disconnect socket) rfl,
      .of_core rfl (fun _ _ _ hlabel => by cases hlabel) fun _ hlabel => by cases hlabel⟩
  | client socket surroundings message =>
    cases hlink : s.links socket with
    | none =>
      simp only [perform, hlink] at hperform
      cases hperform
    | some link =>
      simp only [perform, hlink, Option.ite_none_left_eq_some, not_or, Bool.not_eq_true,
        Nat.not_le] at hperform
      obtain ⟨⟨hopen, hcounter⟩, heq⟩ := hperform
      cases heq
      exact ⟨_, .client surroundings message hlink hopen hcounter, rfl,
        fun _ _ _ hlabel => (by cases hlabel), fun _ hlabel => (by cases hlabel),
        fun _ _ _ hlabel => (by cases hlabel; rfl), fun _ _ hlabel => by cases hlabel⟩
  | command socket frame =>
    simp only [perform, Option.ite_none_left_eq_some] at hperform
    obtain ⟨hlink, hperform⟩ := hperform
    rw [Option.not_isSome_iff_eq_none] at hlink
    obtain ⟨emissions, hstep⟩ := performHandler_step h
      (fun emissions => .command frame emissions hlink) hperform
    exact ⟨_, hstep, .of_handle rfl fun _ => rfl⟩
  | request socket =>
    cases hlink : s.links socket with
    | none =>
      simp only [perform, hlink] at hperform
      cases hperform
    | some link =>
      cases hnext : link.toCore with
      | nil =>
        simp only [perform, hlink, hnext] at hperform
        cases hperform
      | cons frame rest =>
        simp only [perform, hlink, hnext] at hperform
        obtain ⟨emissions, hstep⟩ := performHandler_step h
          (fun emissions => .request emissions hlink hnext) hperform
        refine ⟨_, hstep, .of_handle rfl fun hnone => ?_⟩
        rw [hlink] at hnone
        cases hnone
  | send socket =>
    cases hnext : s.core.sending socket with
    | nil =>
      simp only [perform, hnext] at hperform
      cases hperform
    | cons emission rest =>
      simp only [perform, hnext] at hperform
      cases hperform
      exact ⟨_, .quiet (.send hnext) (.send socket _) rfl,
        .of_core rfl (fun _ _ _ hlabel => by cases hlabel) fun _ hlabel => by cases hlabel⟩
  | deliver socket =>
    cases hlink : s.links socket with
    | none =>
      simp only [perform, hlink] at hperform
      cases hperform
    | some link =>
      cases hnext : link.toGateway with
      | nil =>
        simp only [perform, hlink, hnext] at hperform
        cases hperform
      | cons message rest =>
        simp only [perform, hlink, hnext] at hperform
        cases hperform
        refine ⟨_, .deliver .dedup hlink hnext, rfl, fun _ _ _ hlabel => (by cases hlabel),
          fun _ hlabel => (by cases hlabel), fun _ _ _ hlabel => (by cases hlabel),
          fun _ _ hlabel => ?_⟩
        cases hlabel
        exact ⟨rfl, link, rest, hlink, hnext⟩

/-- Moves that can all be made, each where the check allows it. -/
def performChecked (config : FixGatewayConfig) (check : Move → Bridge → Bool) (moves : List Move)
    (s : Bridge) : Option Bridge :=
  moves.foldlM (fun s move => if check move s then perform config move s else none) s

theorem performChecked_run {check : Move → Bridge → Bool} {moves : List Move}
    {allowed : Bridge → Label → Prop} (hstart : start limits file = some server₀)
    (hmoves : ∀ move ∈ moves, ∀ s label, check move s = true → move.Yields s label →
      allowed s label)
    (hperform : performChecked config check moves (starting server₀) = some s) :
    ∃ labels, Run (fun s label s' => Step config s label s' ∧ allowed s label) (starting server₀)
      labels s := by
  suffices hall : ∀ (s₀ : Bridge) (labels : List Label),
      Run (fun s label s' => Step config s label s' ∧ allowed s label) (starting server₀) labels s₀ →
      performChecked config check moves s₀ = some s →
      ∃ labels, Run (fun s label s' => Step config s label s' ∧ allowed s label) (starting server₀)
        labels s from
    hall _ [] (.nil _) hperform
  clear hperform
  induction moves with
  | nil =>
    intro s₀ labels hrun h
    cases h
    exact ⟨labels, hrun⟩
  | cons move moves ih =>
    intro s₀ labels hrun h
    obtain ⟨s₁, hfirst, hrest⟩ := Option.bind_eq_some_iff.mp h
    obtain ⟨hcheck, hfirst⟩ := Option.ite_none_right_eq_some.mp hfirst
    have hsilent := silent_run hstart (hrun.mono fun _ _ _ hstep => hstep.1)
    obtain ⟨label, hstep, hyields⟩ := perform_step hsilent hfirst
    exact ih (fun move hmem => hmoves move (.tail _ hmem)) s₁ _
      (hrun.snoc ⟨hstep, hmoves move (.head _) s₀ label hcheck hyields⟩) hrest

/-- Moves that can all be made are a run, of the steps that they allow. -/
theorem performAll_run {moves : List Move} {allowed : Bridge → Label → Prop}
    (hstart : start limits file = some server₀)
    (hmoves : ∀ move ∈ moves, ∀ s label, move.Yields s label → allowed s label)
    (hperform : performAll config moves (starting server₀) = some s) :
    ∃ labels, Run (fun s label s' => Step config s label s' ∧ allowed s label) (starting server₀)
      labels s :=
  @performChecked_run _ _ _ _ _ (fun _ _ => true) moves allowed hstart
    (fun move hmem s label _ => hmoves move hmem s label) hperform

theorem performAll_any {moves : List Move} {p : Bridge → Bool} (hstart : start limits file = some server₀)
    (h : (performAll config moves (starting server₀)).any p = true) :
    ∃ labels s, Run (Step config) (starting server₀) labels s ∧ p s = true := by
  obtain ⟨s, hperform, hp⟩ := (Option.any_eq_true _ _).mp h
  have hany : ∀ move ∈ moves, ∀ s label, move.Yields s label →
      (fun _ _ => True : Bridge → Label → Prop) s label := fun _ _ _ _ _ => trivial
  obtain ⟨labels, hrun⟩ := performAll_run hstart hany hperform
  exact ⟨labels, s, hrun.mono fun _ _ _ hstep => hstep.1, hp⟩

/-- Where nothing is delivered, what is asked of deliveries only holds of every step. -/
theorem performAll_undelivered {moves : List Move} {p : Bridge → Bool}
    {allowed : Bridge → Label → Prop} (hstart : start limits file = some server₀)
    (hallowed : ∀ s label, label.isDelivery = false → allowed s label)
    (hmoves : moves.map Move.isDelivery = List.replicate moves.length false)
    (h : (performAll config moves (starting server₀)).any p = true) :
    ∃ labels s, Run (fun s label s' => Step config s label s' ∧ allowed s label) (starting server₀)
      labels s ∧ p s = true := by
  obtain ⟨s, hperform, hp⟩ := (Option.any_eq_true _ _).mp h
  have hall : ∀ move ∈ moves, ∀ s label, move.Yields s label → allowed s label := by
    intro move hmem s label hyields
    refine hallowed s label (hyields.delivery.trans ?_)
    have hmem : move.isDelivery ∈ moves.map Move.isDelivery := List.mem_map_of_mem hmem
    rw [hmoves] at hmem
    exact List.eq_of_mem_replicate hmem
  obtain ⟨labels, hrun⟩ := performAll_run hstart hall hperform
  exact ⟨labels, s, hrun, hp⟩

end Bridge

/-! ## Messages of a client -/

namespace Fix.Message

open ExchangeLab.Fix

/-- The header fields, for the client that logs on as `CLIENT`. -/
def client (msgType sequence : String) : Message :=
  ⟨[⟨35, text msgType⟩, ⟨34, text sequence⟩, ⟨49, text "CLIENT"⟩, ⟨56, text "EXCHANGELAB"⟩]⟩

def logon : Message := (client "A" "1").add 98 (text "0") |>.add 108 (text "30")

/-- A limit order for `TEST`. -/
def newOrderSingle (sequence clOrdId side quantity price timeInForce : String) : Message :=
  (client "D" sequence).add 11 (text clOrdId) |>.add 55 (text "TEST") |>.add 54 (text side)
    |>.add 38 (text quantity) |>.add 40 (text "2") |>.add 44 (text price)
    |>.add 59 (text timeInForce)

def orderCancelRequest (sequence clOrdId origClOrdId : String) : Message :=
  (client "F" sequence).add 11 (text clOrdId) |>.add 41 (text origClOrdId)

def orderCancelReplaceRequest (sequence clOrdId origClOrdId quantity price : String) : Message :=
  (client "G" sequence).add 11 (text clOrdId) |>.add 41 (text origClOrdId)
    |>.add 55 (text "TEST") |>.add 38 (text quantity) |>.add 44 (text price)

end Fix.Message

/-- The core can be reached and takes what is sent to it. -/
def Surroundings.reachable : Surroundings := ⟨1, 7, true⟩

end ExchangeLab

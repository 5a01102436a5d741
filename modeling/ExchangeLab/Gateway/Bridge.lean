import ExchangeLab.FixGateway
import ExchangeLab.Server.Concurrent

/-!
# ExchangeLab.Gateway.Bridge

The gateway and the core together: any number of FIX sessions, each with a TCP connection to the
core, next to sessions that speak the binary protocol themselves.

A connection is named by the descriptor the core has for it. Bytes stay in order in each direction,
so a direction is a queue of messages; `extractCoreMessage_message` is how the gateway finds them in
the bytes. The gateway handles one message of a client or of the core in one step.

`requests` and `received` of a link, and `executions`, are what has happened so far; no step looks
at them.
-/

namespace ExchangeLab

open Wire Protocol Container ExchangeServer FixGateway Transition

/-! ## Messages of the core -/

/-- The message of an emission, as `extract_core_message` hands it over. -/
def Emission.coreMessage (sequenceNumber : UInt64) (emission : Emission) : CoreMessage :=
  let body := emission.body sequenceNumber
  ⟨⟨protocolMagic, protocolVersion, emission.type, UInt32.ofNat body.length, sequenceNumber⟩, body⟩

def Sent.coreMessage (sent : Sent) : CoreMessage :=
  sent.emission.coreMessage (UInt64.ofNat sent.sequenceNumber)

theorem Emission.body_small (sequenceNumber : UInt64) (emission : Emission) :
    (emission.body sequenceNumber).length ≤ 50 := by
  cases emission with
  | orderResponse =>
    rw [body, length_encodeOrderResponse]
    decide
  | tradeExecution =>
    rw [body, length_encodeTradeExecution]
    decide
  | bookUpdate => exact Nat.le_of_eq (length_encodeBookUpdate _)
  | level3AddOrder =>
    rw [body, length_encodeLevel3AddOrder]
    decide
  | level3OrderExecuted =>
    rw [body, length_encodeLevel3OrderExecuted]
    decide
  | level3OrderDeleted =>
    rw [body, length_encodeLevel3OrderDeleted]
    decide

/-- The gateway takes out of the bytes it has received what the core sent. -/
theorem extractCoreMessage_message (sequenceNumber : UInt64) (emission : Emission) (rest : Bytes) :
    extractCoreMessage (emission.message sequenceNumber ++ rest) =
      (some (emission.coreMessage sequenceNumber), rest) := by
  have hsmall := emission.body_small sequenceNumber
  have hsize : (UInt32.ofNat (emission.body sequenceNumber).length).toNat =
      (emission.body sequenceNumber).length := by
    rw [UInt32.toNat_ofNat_of_lt']
    exact Nat.lt_of_le_of_lt hsmall (by decide)
  let header : MessageHeader := ⟨protocolMagic, protocolVersion, emission.type,
    UInt32.ofNat (emission.body sequenceNumber).length, sequenceNumber⟩
  have hmessage : emission.message sequenceNumber ++ rest =
      encodeHeader header ++ (emission.body sequenceNumber ++ rest) := by
    rw [← List.append_assoc]
    rfl
  have hheader : (encodeHeader header).length = headerSize := length_encodeHeader header
  rw [hmessage, extractCoreMessage, List.take_left' hheader, List.drop_left' hheader,
    decodeHeader_encodeHeader (rfl : header.magic = protocolMagic) rfl]
  simp only [List.length_append, hheader, header, hsize]
  rw [if_neg (by omega), if_neg (by omega), List.take_left' rfl]
  have hdrop : (encodeHeader header ++ (emission.body sequenceNumber ++ rest)).drop
      (headerSize + (emission.body sequenceNumber).length) = rest := by
    rw [← List.append_assoc, List.drop_left' (by rw [List.length_append, hheader])]
  rw [hdrop]
  rfl

/-! ## Links -/

/-- A message of the core that was processed, with the replies to the client. -/
structure Reception where
  message : CoreMessage
  replies : List Reply

/-- A FIX session and its connection to the core. -/
structure Link where
  session : SessionContext
  toCore : List Frame := []
  toGateway : List CoreMessage := []
  requests : List Request := []
  received : List Reception := []

def Link.receive (message : CoreMessage) (link : Link) : Link :=
  { link with toGateway := link.toGateway ++ [message] }

/-- After a message of the client. -/
def Link.forward (effects : Effects) (link : Link) : Link :=
  { link with
    session := effects.session
    toCore := link.toCore ++ effects.request.toList.map Request.frame
    requests := link.requests ++ effects.request.toList }

/-- After the message of the core that was next. -/
def Link.process (iteration : SetOrder) (message : CoreMessage) (rest : List CoreMessage)
    (link : Link) : Link :=
  { link with
    session := (processCoreMessage iteration message link.session).1
    toGateway := rest
    received := link.received ++ [⟨message, (processCoreMessage iteration message link.session).2⟩] }

def deliverSent (links : Socket → Option Link) (sent : Sent) : Socket → Option Link :=
  fun socket => (links socket).map fun link =>
    if socket ∈ sent.recipients then link.receive sent.coreMessage else link

/-- A trade with the sessions that its orders belong to. -/
structure Execution where
  trade : Trade
  symbol : Symbol
  buyerSocket : Socket
  sellerSocket : Socket

/-- The trades behind what a handler sends, from the two copies of each. -/
def executionsOf : List Emission → List Execution
  | .tradeExecution buyerSocket symbol trade :: .tradeExecution sellerSocket _ _ :: rest =>
    ⟨trade, symbol, buyerSocket, sellerSocket⟩ :: executionsOf rest
  | _ :: rest => executionsOf rest
  | [] => []

/-- What a step of the core means for the links. A handler works on the next frame of a link, or on
any frame of a session of another kind. -/
inductive Follows (links : Socket → Option Link) :
    Concurrent.Label → (Socket → Option Link) → Prop
  | connect {socket : Socket}
      (hconnecting : ∀ link, links socket = some link → 0 ≤ link.session.coreSocket) :
      Follows links (.connect socket) links
  | disconnect (socket : Socket) :
      Follows links (.disconnect socket) (Function.update links socket none)
  | command {socket : Socket} (frame : Frame) (emissions : List Emission)
      (hlink : links socket = none) : Follows links (.handle socket frame emissions) links
  | request {socket : Socket} {link : Link} {frame : Frame} {rest : List Frame}
      (emissions : List Emission) (hlink : links socket = some link)
      (hnext : link.toCore = frame :: rest) :
      Follows links (.handle socket frame emissions)
        (Function.update links socket (some { link with toCore := rest }))
  | send (socket : Socket) (sent : List Sent) :
      Follows links (.send socket sent) (sent.foldl deliverSent links)
  | setGlobalKillSwitch (enabled : Bool) : Follows links (.setGlobalKillSwitch enabled) links

/-- What is on the way to a link and from it is no part of what its session has done. -/
def Link.SameSession (link' link : Link) : Prop :=
  link'.session = link.session ∧ link'.requests = link.requests ∧ link'.received = link.received

theorem deliverSents_sameSession {links : Socket → Option Link} (sents : List Sent) {socket : Socket}
    {link' : Link} (h : sents.foldl deliverSent links socket = some link') :
    ∃ link, links socket = some link ∧ link'.SameSession link := by
  induction sents generalizing links with
  | nil => exact ⟨link', h, rfl, rfl, rfl⟩
  | cons sent sents ih =>
    obtain ⟨link₁, h₁, hsession, hrequests, hreceived⟩ := ih h
    obtain ⟨link, hlink, rfl⟩ := Option.map_eq_some_iff.mp h₁
    refine ⟨link, hlink, hsession.trans ?_, hrequests.trans ?_, hreceived.trans ?_⟩
    all_goals split <;> rfl

/-- The core does not change a session. -/
theorem Follows.sameSession {links links' : Socket → Option Link}
    {label : Concurrent.Label} (h : Follows links label links') {socket : Socket} {link' : Link}
    (hlink : links' socket = some link') :
    ∃ link, links socket = some link ∧ link'.SameSession link := by
  cases h with
  | connect => exact ⟨link', hlink, rfl, rfl, rfl⟩
  | disconnect other =>
    rw [Function.update_apply] at hlink
    split at hlink
    · cases hlink
    · exact ⟨link', hlink, rfl, rfl, rfl⟩
  | command => exact ⟨link', hlink, rfl, rfl, rfl⟩
  | @request other link frame rest _ hother =>
    rw [Function.update_apply] at hlink
    split at hlink
    · rename_i heq
      cases hlink
      exact ⟨link, heq ▸ hother, rfl, rfl, rfl⟩
    · exact ⟨link', hlink, rfl, rfl, rfl⟩
  | send _ sents => exact deliverSents_sameSession sents hlink
  | setGlobalKillSwitch => exact ⟨link', hlink, rfl, rfl, rfl⟩

/-! ## Runs -/

structure Bridge where
  core : Concurrent
  links : Socket → Option Link := fun _ => none
  nextNumericOrderId : Nat := 2 ^ 62
  executions : List Execution := []

namespace Bridge

inductive Label where
  | core (label : Concurrent.Label)
  | accept (socket : Socket)
  | client (socket : Socket) (surroundings : Surroundings) (message : Fix.Message)
  | deliver (socket : Socket) (message : CoreMessage)

def setLink (socket : Socket) (link : Link) (s : Bridge) : Bridge :=
  { s with links := Function.update s.links socket (some link) }

theorem links_setLink (socket : Socket) (link : Link) (s : Bridge) :
    (s.setLink socket link).links socket = some link :=
  Function.update_self socket _ s.links

theorem setLink_cases {socket other : Socket} {link link' : Link} {s : Bridge}
    (h : (s.setLink other link).links socket = some link') :
    socket = other ∧ link' = link ∨ socket ≠ other ∧ s.links socket = some link' := by
  simp only [setLink, Function.update_apply] at h
  split at h
  · rename_i heq
    exact .inl ⟨heq, (Option.some.inj h).symm⟩
  · rename_i hne
    exact .inr ⟨hne, h⟩

def executedBy : Concurrent.Label → List Execution
  | .handle _ _ emissions => executionsOf emissions
  | _ => []

def afterClient (socket : Socket) (link : Link) (effects : Effects) (s : Bridge) : Bridge :=
  { s.setLink socket (link.forward effects) with nextNumericOrderId := effects.nextNumericOrderId }

inductive Step (config : FixGatewayConfig) : Bridge → Label → Bridge → Prop
  | core {s : Bridge} {label : Concurrent.Label} {core' : Concurrent}
      {links' : Socket → Option Link} (hstep : Concurrent.Step s.core label core')
      (hlinks : Follows s.links label links') :
      Step config s (.core label)
        ⟨core', links', s.nextNumericOrderId, s.executions ++ executedBy label⟩
  | accept {s : Bridge} {socket : Socket} (hfree : socket ∉ s.core.server.clientSockets)
      (hlink : s.links socket = none) :
      Step config s (.accept socket)
        (s.setLink socket
          { session := { heartbeatSeconds := config.defaultHeartbeatSeconds } })
  | client {s : Bridge} {socket : Socket} {link : Link} (surroundings : Surroundings)
      (message : Fix.Message) (hlink : s.links socket = some link)
      (hopen : link.session.closing = false)
      -- the counter of order ids is not used up
      (hcounter : s.nextNumericOrderId < 2 ^ 64) :
      Step config s (.client socket surroundings message)
        (s.afterClient socket link
          (processFixMessage config surroundings s.nextNumericOrderId message link.session))
  | deliver {s : Bridge} {socket : Socket} {link : Link} {message : CoreMessage}
      {rest : List CoreMessage} (iteration : SetOrder) (hlink : s.links socket = some link)
      (hnext : link.toGateway = message :: rest) :
      Step config s (.deliver socket message)
        (s.setLink socket (link.process iteration message rest))

/-- The gateway next to a core that has just started. -/
def starting (server : ExchangeServer) : Bridge := { core := ⟨server, fun _ => []⟩ }

variable {config : FixGatewayConfig} {limits : RiskLimits} {file : Option (Option Bytes)}
  {server₀ : ExchangeServer} {labels : List Label} {s : Bridge}

/-- The core's part of a run is a run of the core. -/
theorem core_run (h : Run (Step config) (starting server₀) labels s) :
    ∃ labels', Run Concurrent.Step ⟨server₀, fun _ => []⟩ labels' s.core := by
  refine h.invariant (P := fun s => ∃ labels', Run Concurrent.Step ⟨server₀, fun _ => []⟩ labels' s.core)
    ⟨[], .nil _⟩ ?_
  rintro s label s' ⟨labels', hrun⟩ hstep
  cases hstep with
  | core hstep _ => exact ⟨_, hrun.snoc hstep⟩
  | accept => exact ⟨_, hrun⟩
  | client => exact ⟨_, hrun⟩
  | deliver => exact ⟨_, hrun⟩

theorem ownership (hstart : start limits file = some server₀)
    (h : Run (Step config) (starting server₀) labels s) :
    ∃ log, Ownership log s.core.server := by
  obtain ⟨labels', hrun⟩ := core_run h
  exact Concurrent.ownership hstart hrun

/-! ## What a step does to a session -/

/-- After a step, a link is as it was but for what is on the way, or new, or the step was its own. -/
theorem Step.link_cases {label : Label} {s' : Bridge} (h : Step config s label s') {socket : Socket}
    {link' : Link} (hlink : s'.links socket = some link') :
    (∃ link, s.links socket = some link ∧ link'.SameSession link ∧
      ((∀ core, label ≠ .core core) → link' = link)) ∨
    (label = .accept socket ∧
      link' = { session := { heartbeatSeconds := config.defaultHeartbeatSeconds } }) ∨
    (∃ link surroundings message, s.links socket = some link ∧
      label = .client socket surroundings message ∧ s.nextNumericOrderId < 2 ^ 64 ∧
      s'.nextNumericOrderId =
        (processFixMessage config surroundings s.nextNumericOrderId message
          link.session).nextNumericOrderId ∧
      link' = link.forward
        (processFixMessage config surroundings s.nextNumericOrderId message link.session)) ∨
    ∃ link message rest iteration, s.links socket = some link ∧ link.toGateway = message :: rest ∧
      label = .deliver socket message ∧ link' = link.process iteration message rest := by
  have hold : s.links socket = some link' → ∃ link, s.links socket = some link ∧
      link'.SameSession link ∧ ((∀ core, label ≠ .core core) → link' = link) :=
    fun hlink => ⟨link', hlink, ⟨rfl, rfl, rfl⟩, fun _ => rfl⟩
  cases h with
  | core _ hlinks =>
    obtain ⟨link, hlink, hsession⟩ := hlinks.sameSession hlink
    exact .inl ⟨link, hlink, hsession, fun hlabel => absurd rfl (hlabel _)⟩
  | accept =>
    rcases setLink_cases hlink with ⟨rfl, rfl⟩ | ⟨-, hlink⟩
    · exact .inr (.inl ⟨rfl, rfl⟩)
    · exact .inl (hold hlink)
  | @client other link surroundings message hother hopen hcounter =>
    rcases setLink_cases hlink with ⟨rfl, rfl⟩ | ⟨-, hlink⟩
    · exact .inr (.inr (.inl ⟨link, surroundings, message, hother, rfl, hcounter, rfl, rfl⟩))
    · exact .inl (hold hlink)
  | @deliver other link message rest iteration hother hnext =>
    rcases setLink_cases hlink with ⟨rfl, rfl⟩ | ⟨-, hlink⟩
    · exact .inr (.inr (.inr ⟨link, message, rest, iteration, hother, hnext, rfl, rfl⟩))
    · exact .inl (hold hlink)

/-- After a step, the session of a link is as it was, or new, or the step was its own. -/
theorem Step.session_cases {label : Label} {s' : Bridge} (h : Step config s label s') {socket : Socket}
    {link' : Link} (hlink : s'.links socket = some link') :
    (∃ link, s.links socket = some link ∧ link'.session = link.session) ∨
    (label = .accept socket ∧
      link'.session = { heartbeatSeconds := config.defaultHeartbeatSeconds }) ∨
    (∃ link surroundings message, s.links socket = some link ∧
      label = .client socket surroundings message ∧ s.nextNumericOrderId < 2 ^ 64 ∧
      s'.nextNumericOrderId =
        (processFixMessage config surroundings s.nextNumericOrderId message
          link.session).nextNumericOrderId ∧
      link'.session =
        (processFixMessage config surroundings s.nextNumericOrderId message link.session).session) ∨
    ∃ link message iteration, s.links socket = some link ∧ label = .deliver socket message ∧
      link'.session = (processCoreMessage iteration message link.session).1 := by
  rcases h.link_cases hlink with ⟨link, hold, hsession, -⟩ | ⟨hlabel, rfl⟩ |
    ⟨link, surroundings, message, hold, hlabel, hcounter, hnext, rfl⟩ |
    ⟨link, message, rest, iteration, hold, -, hlabel, rfl⟩
  · exact .inl ⟨link, hold, hsession.1⟩
  · exact .inr (.inl ⟨hlabel, rfl⟩)
  · exact .inr (.inr (.inl ⟨link, surroundings, message, hold, hlabel, hcounter, hnext, rfl⟩))
  · exact .inr (.inr (.inr ⟨link, message, iteration, hold, hlabel, rfl⟩))

end Bridge

end ExchangeLab

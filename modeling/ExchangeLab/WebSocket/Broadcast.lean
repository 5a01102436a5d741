import ExchangeLab.ExchangeServer
import ExchangeLab.Lib.Transition
import ExchangeLab.WebSocket.Handshake
import ExchangeLab.WebSocket.MarketData
import ExchangeLab.WebSocketGateway

/-!
# ExchangeLab.WebSocket.Broadcast

The threads of the WebSocket gateway. `accept_loop` answers one client at a time and then adds it to
`clients_`; `multicast_loop` and `performance_loop` each receive datagrams and send a text to every
client. `clients_mutex_` is held over the whole of `broadcast_text` and over the addition of a client.
A call of `send` takes some of the bytes that are left to send, or fails and costs the client its
connection. A client that is turned away changes nothing and has no step; neither has `stop`.

* `Step`: one step of one thread.
* `websocket_clients_agree`: each client hears the texts in the order in which the two loops got hold
  of the mutex, all of them from its addition on.
-/

namespace ExchangeLab

open Wire ExchangeLab.Fix Transition

namespace WebSocketGateway

/-- The two loops that call `broadcast_text`. -/
inductive Broadcaster where
  | multicast
  | performance
  deriving DecidableEq

/-- The size of a loop's receive buffer. -/
def Broadcaster.bufferSize : Broadcaster → Nat
  | .multicast => 2048
  | .performance => 8192

/-- The text that a loop broadcasts of a datagram; none of it if it is empty. -/
def Broadcaster.textOf : Broadcaster → Bytes → Bytes
  | .multicast, datagram => marketDataToJson datagram
  | .performance, datagram =>
    if (findString (text "\"type\":\"performance\"") datagram).isSome then datagram else []

inductive Accepting where
  | listening
  /-- In `perform_handshake`, with these bytes of the answer left to send. -/
  | answering (socket : Socket) (unsent : Bytes)

inductive Broadcasting where
  | receiving
  /-- At the lock. -/
  | waiting (text : Text)
  /-- With some clients behind the iterator and the rest before it; `unsent` is what is left to send
  to the first of the rest. -/
  | sending (text : Text) (visited : List Socket) (unsent : Bytes) (rest : List Socket)

end WebSocketGateway

open WebSocketGateway

structure WebSocketGateway where
  clients : List Socket := []
  /-- `clients_mutex_`, if one of the loops holds it. -/
  holder : Option Broadcaster := none
  accepting : Accepting := .listening
  broadcasting : Broadcaster → Broadcasting := fun _ => .receiving
  /-- What has been sent on each connection that is open. -/
  streams : Socket → Option Bytes := fun _ => none

namespace WebSocketGateway

inductive Label where
  | answer (socket : Socket) (chunks : List Bytes) (answer : Bytes)
  | sendAnswer (socket : Socket) (sent : Bytes)
  | dropAnswer (socket : Socket)
  | join (socket : Socket)
  | receive (broadcaster : Broadcaster) (datagram : Bytes)
  | lock (broadcaster : Broadcaster) (text : Text)
  | send (broadcaster : Broadcaster) (socket : Socket) (sent : Bytes)
  | next (broadcaster : Broadcaster) (socket : Socket)
  | drop (broadcaster : Broadcaster) (socket : Socket)
  | unlock (broadcaster : Broadcaster)

def setBroadcasting (broadcaster : Broadcaster) (state : Broadcasting) (gateway : WebSocketGateway) :
    WebSocketGateway :=
  { gateway with broadcasting := Function.update gateway.broadcasting broadcaster state }

def setStream (socket : Socket) (stream : Option Bytes) (gateway : WebSocketGateway) :
    WebSocketGateway :=
  { gateway with streams := Function.update gateway.streams socket stream }

inductive Step : WebSocketGateway → Label → WebSocketGateway → Prop
  /-- A socket is accepted that is not in use, and the client's request has been read. -/
  | answer {gateway : WebSocketGateway} {socket : Socket} {chunks : List Bytes} {answer : Bytes}
      (hlistening : gateway.accepting = .listening) (hfree : gateway.streams socket = none)
      (hanswer : performHandshake chunks = some answer) :
      Step gateway (.answer socket chunks answer)
        (setStream socket (some []) { gateway with accepting := .answering socket answer })
  | sendAnswer {gateway : WebSocketGateway} {socket : Socket} {stream sent unsent : Bytes}
      (hanswering : gateway.accepting = .answering socket (sent ++ unsent)) (hsent : sent ≠ [])
      (hstream : gateway.streams socket = some stream) :
      Step gateway (.sendAnswer socket sent)
        (setStream socket (some (stream ++ sent))
          { gateway with accepting := .answering socket unsent })
  | dropAnswer {gateway : WebSocketGateway} {socket : Socket} {unsent : Bytes}
      (hanswering : gateway.accepting = .answering socket unsent) (hunsent : unsent ≠ []) :
      Step gateway (.dropAnswer socket)
        (setStream socket none { gateway with accepting := .listening })
  | join {gateway : WebSocketGateway} {socket : Socket}
      (hanswering : gateway.accepting = .answering socket []) (hunlocked : gateway.holder = none) :
      Step gateway (.join socket)
        { gateway with accepting := .listening, clients := gateway.clients ++ [socket] }
  | receive {gateway : WebSocketGateway} {broadcaster : Broadcaster} {datagram : Bytes} {text : Text}
      (hreceiving : gateway.broadcasting broadcaster = .receiving) (hdatagram : datagram ≠ [])
      (hsize : datagram.length ≤ broadcaster.bufferSize)
      (htext : text.bytes = broadcaster.textOf datagram) :
      Step gateway (.receive broadcaster datagram)
        (if text.bytes = [] then gateway else setBroadcasting broadcaster (.waiting text) gateway)
  | lock {gateway : WebSocketGateway} {broadcaster : Broadcaster} {text : Text}
      (hwaiting : gateway.broadcasting broadcaster = .waiting text)
      (hunlocked : gateway.holder = none) :
      Step gateway (.lock broadcaster text)
        (setBroadcasting broadcaster (.sending text [] (websocketTextFrame text) gateway.clients)
          { gateway with holder := some broadcaster })
  | send {gateway : WebSocketGateway} {broadcaster : Broadcaster} {text : Text} {socket : Socket}
      {visited rest : List Socket} {stream sent unsent : Bytes}
      (hsending : gateway.broadcasting broadcaster =
        .sending text visited (sent ++ unsent) (socket :: rest)) (hsent : sent ≠ [])
      (hstream : gateway.streams socket = some stream) :
      Step gateway (.send broadcaster socket sent)
        (setStream socket (some (stream ++ sent))
          (setBroadcasting broadcaster (.sending text visited unsent (socket :: rest)) gateway))
  | next {gateway : WebSocketGateway} {broadcaster : Broadcaster} {text : Text} {socket : Socket}
      {visited rest : List Socket}
      (hsending : gateway.broadcasting broadcaster = .sending text visited [] (socket :: rest)) :
      Step gateway (.next broadcaster socket)
        (setBroadcasting broadcaster
          (.sending text (visited ++ [socket]) (websocketTextFrame text) rest) gateway)
  | drop {gateway : WebSocketGateway} {broadcaster : Broadcaster} {text : Text} {socket : Socket}
      {visited rest : List Socket} {unsent : Bytes}
      (hsending : gateway.broadcasting broadcaster = .sending text visited unsent (socket :: rest))
      (hunsent : unsent ≠ []) :
      Step gateway (.drop broadcaster socket)
        (setStream socket none
          (setBroadcasting broadcaster (.sending text visited (websocketTextFrame text) rest)
            { gateway with clients := visited ++ rest }))
  | unlock {gateway : WebSocketGateway} {broadcaster : Broadcaster} {text : Text}
      {visited : List Socket} {unsent : Bytes}
      (hsending : gateway.broadcasting broadcaster = .sending text visited unsent []) :
      Step gateway (.unlock broadcaster)
        (setBroadcasting broadcaster .receiving { gateway with holder := none })

/-! ## What a client hears -/

def Label.broadcast? : Label → Option Text
  | .lock _ text => some text
  | _ => none

/-- The texts in the order of the mutex. -/
def texts (labels : List Label) : List Text := labels.filterMap Label.broadcast?

/-- What a client has been answered whose connection has this socket. -/
def answered (socket : Socket) (labels : List Label) : Bytes :=
  labels.foldl (fun answered label =>
    match label with
    | .answer other _ answer => if other = socket then answer else answered
    | _ => answered) []

/-- The texts since the client was added. -/
def heard (socket : Socket) (labels : List Label) : List Text :=
  labels.foldl (fun heard label =>
    match label with
    | .join other => if other = socket then [] else heard
    | .lock _ text => heard ++ [text]
    | _ => heard) []

/-- What the holder of the mutex has still to send to a client. -/
def pending (gateway : WebSocketGateway) (socket : Socket) : Bytes :=
  match gateway.holder.map gateway.broadcasting with
  | some (.sending text visited unsent rest) =>
    if socket ∈ visited then []
    else if rest.head? = some socket then unsent
    else websocketTextFrame text
  | _ => []

section Labels

variable {labels : List Label} {label : Label} {socket other : Socket}

theorem answered_snoc : answered socket (labels ++ [label]) =
    match label with
    | .answer other _ answer => if other = socket then answer else answered socket labels
    | _ => answered socket labels := by
  rw [answered, List.foldl_concat]
  rfl

theorem heard_snoc : heard socket (labels ++ [label]) =
    match label with
    | .join other => if other = socket then [] else heard socket labels
    | .lock _ text => heard socket labels ++ [text]
    | _ => heard socket labels := by
  rw [heard, List.foldl_concat]
  rfl

/-- What a client has heard are the last of the texts. -/
theorem heard_suffix (socket : Socket) (labels : List Label) : heard socket labels <:+ texts labels := by
  induction labels using List.reverseRecOn with
  | nil => exact List.nil_suffix
  | append_singleton labels label ih =>
    rw [heard_snoc, texts, List.filterMap_append]
    cases label with
    | join other =>
      dsimp only
      split
      · exact List.nil_suffix
      · exact ih.trans (List.append_nil (texts labels) ▸ List.suffix_refl _)
    | lock broadcaster text =>
      obtain ⟨before, heq⟩ := ih
      exact ⟨before, by rw [← List.append_assoc, heq]; rfl⟩
    | _ => exact ih.trans (List.append_nil (texts labels) ▸ List.suffix_refl _)

end Labels

theorem setBroadcasting_self {broadcaster : Broadcaster} {state : Broadcasting}
    {gateway : WebSocketGateway} :
    (setBroadcasting broadcaster state gateway).broadcasting broadcaster = state :=
  Function.update_self _ _ _

theorem setBroadcasting_other {broadcaster other : Broadcaster} {state : Broadcasting}
    {gateway : WebSocketGateway} (h : other ≠ broadcaster) :
    (setBroadcasting broadcaster state gateway).broadcasting other = gateway.broadcasting other :=
  Function.update_of_ne h _ _

section Pending

variable {gateway : WebSocketGateway} {broadcaster : Broadcaster} {text : Text}
  {visited rest : List Socket} {unsent : Bytes} {socket : Socket}

theorem pending_free (h : gateway.holder = none) : gateway.pending socket = [] := by
  rw [pending, h]
  rfl

theorem pending_sending (h : gateway.holder = some broadcaster)
    (hsending : gateway.broadcasting broadcaster = .sending text visited unsent rest) :
    gateway.pending socket =
      if socket ∈ visited then []
      else if rest.head? = some socket then unsent
      else websocketTextFrame text := by
  rw [pending, h, Option.map_some, hsending]

theorem pending_current (h : gateway.holder = some broadcaster)
    (hsending : gateway.broadcasting broadcaster = .sending text visited unsent (socket :: rest))
    (hnot : socket ∉ visited) : gateway.pending socket = unsent := by
  rw [pending_sending h hsending, if_neg hnot, List.head?_cons, if_pos rfl]

theorem pending_other {other : Socket} (h : gateway.holder = some broadcaster)
    (hsending : gateway.broadcasting broadcaster = .sending text visited unsent (socket :: rest))
    (hne : other ≠ socket) :
    gateway.pending other = if other ∈ visited then [] else websocketTextFrame text := by
  rw [pending_sending h hsending, List.head?_cons,
    if_neg fun heq => hne (Option.some.inj heq).symm]

end Pending

/-! ## One step -/

/-- What is on its way to a client completes what it has to hear. -/
def Hears (labels : List Label) (gateway : WebSocketGateway) (socket : Socket) : Prop :=
  ∃ received, gateway.streams socket = some (answered socket labels ++ received) ∧
    received ++ gateway.pending socket = (heard socket labels).flatMap websocketTextFrame

structure Delivering (labels : List Label) (gateway : WebSocketGateway) : Prop where
  nodup : gateway.clients.Nodup
  answering : ∀ socket unsent, gateway.accepting = .answering socket unsent →
    socket ∉ gateway.clients ∧
      ∃ sent, gateway.streams socket = some sent ∧ sent ++ unsent = answered socket labels
  holds : ∀ broadcaster, gateway.holder = some broadcaster → ∃ text visited unsent rest,
    gateway.broadcasting broadcaster = .sending text visited unsent rest
  sending : ∀ broadcaster text visited unsent rest,
    gateway.broadcasting broadcaster = .sending text visited unsent rest →
      gateway.holder = some broadcaster ∧ gateway.clients = visited ++ rest
  hears : ∀ socket ∈ gateway.clients, Hears labels gateway socket

section Steps

variable {labels : List Label} {label : Label} {gateway gateway' : WebSocketGateway}
  {socket : Socket}

theorem Hears.congr (h : Hears labels gateway socket)
    (hstream : gateway'.streams socket = gateway.streams socket)
    (hpending : gateway'.pending socket = gateway.pending socket)
    (hanswered : answered socket (labels ++ [label]) = answered socket labels)
    (hheard : heard socket (labels ++ [label]) = heard socket labels) :
    Hears (labels ++ [label]) gateway' socket := by
  rw [Hears, hstream, hpending, hanswered, hheard]
  exact h

/-- The socket of a client carries a stream. -/
theorem Delivering.stream_ne (h : Delivering labels gateway) (hclient : socket ∈ gateway.clients) :
    gateway.streams socket ≠ none := by
  obtain ⟨received, hstream, -⟩ := h.hears socket hclient
  rw [hstream]
  exact Option.some_ne_none _

theorem Delivering.answer (h : Delivering labels gateway) {chunks : List Bytes} {answer : Bytes}
    (hfree : gateway.streams socket = none) :
    Delivering (labels ++ [.answer socket chunks answer])
      (setStream socket (some []) { gateway with accepting := .answering socket answer }) := by
  have hnew : socket ∉ gateway.clients := fun hclient => h.stream_ne hclient hfree
  refine ⟨h.nodup, fun other unsent heq => ?_, h.holds, h.sending, fun other hclient => ?_⟩
  · cases heq
    refine ⟨hnew, [], Function.update_self _ _ _, ?_⟩
    rw [answered_snoc]
    exact (if_pos rfl).symm
  · have hne : other ≠ socket := fun heq => hnew (heq ▸ hclient)
    refine (h.hears other hclient).congr (Function.update_of_ne hne _ _) rfl ?_ heard_snoc
    rw [answered_snoc]
    exact if_neg (Ne.symm hne)

theorem Delivering.sendAnswer (h : Delivering labels gateway) {stream sent unsent : Bytes}
    (hanswering : gateway.accepting = .answering socket (sent ++ unsent))
    (hstream : gateway.streams socket = some stream) :
    Delivering (labels ++ [.sendAnswer socket sent])
      (setStream socket (some (stream ++ sent))
        { gateway with accepting := .answering socket unsent }) := by
  obtain ⟨hnew, stream', hstream', hwhole⟩ := h.answering socket _ hanswering
  cases hstream.symm.trans hstream'
  refine ⟨h.nodup, fun other unsent heq => ?_, h.holds, h.sending, fun other hclient => ?_⟩
  · cases heq
    refine ⟨hnew, stream ++ sent, Function.update_self _ _ _, ?_⟩
    rw [answered_snoc, List.append_assoc, hwhole]
  · have hne : other ≠ socket := fun heq => hnew (heq ▸ hclient)
    exact (h.hears other hclient).congr (Function.update_of_ne hne _ _) rfl answered_snoc heard_snoc

theorem Delivering.dropAnswer (h : Delivering labels gateway) {unsent : Bytes}
    (hanswering : gateway.accepting = .answering socket unsent) :
    Delivering (labels ++ [.dropAnswer socket])
      (setStream socket none { gateway with accepting := .listening }) := by
  obtain ⟨hnew, -⟩ := h.answering socket _ hanswering
  refine ⟨h.nodup, fun _ _ heq => (by cases heq), h.holds, h.sending, fun other hclient => ?_⟩
  have hne : other ≠ socket := fun heq => hnew (heq ▸ hclient)
  exact (h.hears other hclient).congr (Function.update_of_ne hne _ _) rfl answered_snoc heard_snoc

/-- A client that is added has heard nothing yet. -/
theorem Delivering.join (h : Delivering labels gateway)
    (hanswering : gateway.accepting = .answering socket []) (hunlocked : gateway.holder = none) :
    Delivering (labels ++ [.join socket])
      { gateway with accepting := .listening, clients := gateway.clients ++ [socket] } := by
  obtain ⟨hnew, sent, hstream, hwhole⟩ := h.answering socket _ hanswering
  refine ⟨?_, fun _ _ heq => (by cases heq), h.holds, fun broadcaster text visited unsent rest hsending => ?_,
    fun other hclient => ?_⟩
  · rw [List.nodup_append]
    refine ⟨h.nodup, List.nodup_singleton _, fun a ha b hb heq => ?_⟩
    rw [List.mem_singleton.mp hb] at heq
    exact hnew (heq ▸ ha)
  · have hheld := (h.sending broadcaster text visited unsent rest hsending).1
    rw [hunlocked] at hheld
    cases hheld
  · rcases List.mem_append.mp hclient with hclient | hclient
    · have hne : other ≠ socket := fun heq => hnew (heq ▸ hclient)
      refine (h.hears other hclient).congr rfl rfl answered_snoc ?_
      rw [heard_snoc]
      exact if_neg (Ne.symm hne)
    · obtain rfl := List.mem_singleton.mp hclient
      rw [List.append_nil] at hwhole
      refine ⟨[], ?_, ?_⟩
      · rw [answered_snoc, List.append_nil, ← hwhole]
        exact hstream
      · have hpending : WebSocketGateway.pending
            { gateway with accepting := .listening, clients := gateway.clients ++ [other] } other = [] :=
          pending_free hunlocked
        rw [heard_snoc, hpending]
        simp only [if_true]
        rfl

theorem pending_setBroadcasting {broadcaster : Broadcaster} {state : Broadcasting}
    (h : gateway.holder ≠ some broadcaster) (socket : Socket) :
    (setBroadcasting broadcaster state gateway).pending socket = gateway.pending socket := by
  have hheld : gateway.holder.map (setBroadcasting broadcaster state gateway).broadcasting =
      gateway.holder.map gateway.broadcasting := by
    cases hholder : gateway.holder with
    | none => rfl
    | some holder =>
      have hne : holder ≠ broadcaster := fun heq => h (by rw [hholder, heq])
      exact congrArg some (setBroadcasting_other hne)
  have hholder : (setBroadcasting broadcaster state gateway).holder = gateway.holder := rfl
  rw [pending, hholder, hheld]
  rfl

theorem Delivering.quiet (h : Delivering labels gateway) {broadcaster : Broadcaster}
    {datagram : Bytes} : Delivering (labels ++ [.receive broadcaster datagram]) gateway := by
  refine ⟨h.nodup, fun socket unsent heq => ?_, h.holds, h.sending, fun socket hclient =>
    (h.hears socket hclient).congr rfl rfl answered_snoc heard_snoc⟩
  obtain ⟨hnew, sent, hstream, hwhole⟩ := h.answering socket unsent heq
  exact ⟨hnew, sent, hstream, by rw [hwhole, answered_snoc]⟩

/-- A datagram sets its loop to wait for the mutex, which the loop does not hold. -/
theorem Delivering.receive (h : Delivering labels gateway) {broadcaster : Broadcaster}
    {datagram : Bytes} {text : Text} (hreceiving : gateway.broadcasting broadcaster = .receiving) :
    Delivering (labels ++ [.receive broadcaster datagram])
      (setBroadcasting broadcaster (.waiting text) gateway) := by
  have hnot : gateway.holder ≠ some broadcaster := fun hheld => by
    obtain ⟨_, _, _, _, hsending⟩ := h.holds broadcaster hheld
    rw [hreceiving] at hsending
    cases hsending
  refine ⟨h.nodup, fun socket unsent heq => ?_, fun other hheld => ?_,
    fun other text visited unsent rest hsending => ?_, fun socket hclient => ?_⟩
  · obtain ⟨hnew, sent, hstream, hwhole⟩ := h.answering socket unsent heq
    exact ⟨hnew, sent, hstream, by rw [hwhole, answered_snoc]⟩
  · have hne : other ≠ broadcaster := fun heq => hnot (heq ▸ hheld)
    obtain ⟨text, visited, unsent, rest, hsending⟩ := h.holds other hheld
    exact ⟨text, visited, unsent, rest, (setBroadcasting_other hne).trans hsending⟩
  · by_cases hother : other = broadcaster
    · rw [hother, setBroadcasting_self] at hsending
      cases hsending
    · rw [setBroadcasting_other hother] at hsending
      exact h.sending other text visited unsent rest hsending
  · exact (h.hears socket hclient).congr rfl (pending_setBroadcasting hnot socket) answered_snoc
      heard_snoc

section Broadcast

variable {broadcaster : Broadcaster} {text : Text} {visited rest : List Socket}
  {unsent : Bytes}

/-- The state of the only loop that sends, and of the mutex with it. -/
theorem Delivering.setSending (h : Delivering labels gateway)
    (hsending : gateway.broadcasting broadcaster = .sending text visited unsent rest)
    {state : Broadcasting} {other : Broadcaster} (hother : other ≠ broadcaster)
    {text' : Text} {visited' rest' : List Socket} {unsent' : Bytes} :
    (setBroadcasting broadcaster state gateway).broadcasting other ≠
      .sending text' visited' unsent' rest' := by
  intro hsending'
  rw [setBroadcasting_other hother] at hsending'
  have hheld := (h.sending broadcaster _ _ _ _ hsending).1
  rw [(h.sending other _ _ _ _ hsending').1] at hheld
  exact hother (Option.some.inj hheld)

theorem Delivering.lock (h : Delivering labels gateway) (hunlocked : gateway.holder = none) :
    Delivering (labels ++ [.lock broadcaster text])
      (setBroadcasting broadcaster (.sending text [] (websocketTextFrame text) gateway.clients)
        { gateway with holder := some broadcaster }) := by
  refine ⟨h.nodup, fun socket unsent heq => ?_, fun other hheld => ?_,
    fun other text' visited' unsent' rest' hsending => ?_, fun socket hclient => ?_⟩
  · obtain ⟨hnew, sent, hstream, hwhole⟩ := h.answering socket unsent heq
    exact ⟨hnew, sent, hstream, by rw [hwhole, answered_snoc]⟩
  · cases hheld
    exact ⟨_, _, _, _, setBroadcasting_self⟩
  · by_cases hother : other = broadcaster
    · subst hother
      rw [setBroadcasting_self] at hsending
      cases hsending
      exact ⟨rfl, rfl⟩
    · rw [setBroadcasting_other hother] at hsending
      have hheld := (h.sending other _ _ _ _ hsending).1
      rw [hunlocked] at hheld
      cases hheld
  · obtain ⟨received, hstream, hwhole⟩ := h.hears socket hclient
    have hpending : (setBroadcasting broadcaster
        (.sending text [] (websocketTextFrame text) gateway.clients)
        { gateway with holder := some broadcaster }).pending socket = websocketTextFrame text := by
      rw [pending_sending rfl setBroadcasting_self, if_neg List.not_mem_nil, ite_self]
    refine ⟨received, by rw [answered_snoc]; exact hstream, ?_⟩
    rw [pending_free hunlocked, List.append_nil] at hwhole
    rw [hpending, heard_snoc, hwhole, List.flatMap_append, List.flatMap_singleton]

theorem Delivering.send (h : Delivering labels gateway) {stream sent : Bytes}
    (hsending : gateway.broadcasting broadcaster =
      .sending text visited (sent ++ unsent) (socket :: rest))
    (hstream : gateway.streams socket = some stream) :
    Delivering (labels ++ [.send broadcaster socket sent])
      (setStream socket (some (stream ++ sent))
        (setBroadcasting broadcaster (.sending text visited unsent (socket :: rest)) gateway)) := by
  obtain ⟨hheld, hclients⟩ := h.sending broadcaster _ _ _ _ hsending
  have hclient : socket ∈ gateway.clients := by
    rw [hclients]
    exact List.mem_append_right _ List.mem_cons_self
  have hnodup := h.nodup
  rw [hclients, List.nodup_append] at hnodup
  have hlater : socket ∉ visited := fun hmem => hnodup.2.2 socket hmem socket List.mem_cons_self rfl
  refine ⟨h.nodup, fun other unsent heq => ?_, fun other hheld' => ?_,
    fun other text' visited' unsent' rest' hsending' => ?_, fun other hclient' => ?_⟩
  · obtain ⟨hnew, sent, hstream', hwhole⟩ := h.answering other unsent heq
    have hne : other ≠ socket := fun heq => hnew (heq ▸ hclient)
    exact ⟨hnew, sent, (Function.update_of_ne hne _ _).trans hstream', by rw [hwhole, answered_snoc]⟩
  · cases hheld.symm.trans hheld'
    exact ⟨_, _, _, _, setBroadcasting_self⟩
  · by_cases hother : other = broadcaster
    · subst hother
      cases setBroadcasting_self.symm.trans hsending'
      exact ⟨hheld, hclients⟩
    · exact absurd hsending' (h.setSending hsending hother)
  · by_cases heq : other = socket
    · subst heq
      obtain ⟨received, hstream', hwhole⟩ := h.hears other hclient'
      cases hstream.symm.trans hstream'
      have hafter : (setBroadcasting broadcaster (.sending text visited unsent (other :: rest))
          gateway).pending other = unsent := pending_current hheld setBroadcasting_self hlater
      rw [pending_current hheld hsending hlater] at hwhole
      refine ⟨received ++ sent, ?_, ?_⟩
      · rw [answered_snoc, ← List.append_assoc]
        exact Function.update_self _ _ _
      · rw [heard_snoc, List.append_assoc]
        exact (congrArg (fun later => received ++ (sent ++ later)) hafter).trans hwhole
    · refine (h.hears other hclient').congr (Function.update_of_ne heq _ _) ?_ answered_snoc heard_snoc
      have hafter : (setBroadcasting broadcaster (.sending text visited unsent (socket :: rest))
          gateway).pending other = _ := pending_other hheld setBroadcasting_self heq
      exact hafter.trans (pending_other hheld hsending heq).symm

theorem Delivering.next (h : Delivering labels gateway)
    (hsending : gateway.broadcasting broadcaster = .sending text visited [] (socket :: rest)) :
    Delivering (labels ++ [.next broadcaster socket])
      (setBroadcasting broadcaster
        (.sending text (visited ++ [socket]) (websocketTextFrame text) rest) gateway) := by
  obtain ⟨hheld, hclients⟩ := h.sending broadcaster _ _ _ _ hsending
  refine ⟨h.nodup, fun other unsent heq => ?_, fun other hheld' => ?_,
    fun other text' visited' unsent' rest' hsending' => ?_, fun other hclient => ?_⟩
  · obtain ⟨hnew, sent, hstream, hwhole⟩ := h.answering other unsent heq
    exact ⟨hnew, sent, hstream, by rw [hwhole, answered_snoc]⟩
  · cases hheld.symm.trans hheld'
    exact ⟨_, _, _, _, setBroadcasting_self⟩
  · by_cases hother : other = broadcaster
    · subst hother
      cases setBroadcasting_self.symm.trans hsending'
      refine ⟨hheld, ?_⟩
      rw [List.append_assoc, List.singleton_append]
      exact hclients
    · exact absurd hsending' (h.setSending hsending hother)
  · refine (h.hears other hclient).congr rfl ?_ answered_snoc heard_snoc
    have hafter : (setBroadcasting broadcaster
        (.sending text (visited ++ [socket]) (websocketTextFrame text) rest) gateway).pending other =
        _ := pending_sending hheld setBroadcasting_self
    rw [hafter, ite_self]
    by_cases heq : other = socket
    · subst heq
      rw [if_pos (List.mem_append_right _ (List.mem_singleton_self other))]
      by_cases hvisited : other ∈ visited
      · rw [pending_sending hheld hsending, if_pos hvisited]
      · rw [pending_current hheld hsending hvisited]
    · rw [pending_other hheld hsending heq]
      simp only [List.mem_append, List.mem_singleton, heq, or_false]

theorem Delivering.drop (h : Delivering labels gateway)
    (hsending : gateway.broadcasting broadcaster = .sending text visited unsent (socket :: rest)) :
    Delivering (labels ++ [.drop broadcaster socket])
      (setStream socket none
        (setBroadcasting broadcaster (.sending text visited (websocketTextFrame text) rest)
          { gateway with clients := visited ++ rest })) := by
  obtain ⟨hheld, hclients⟩ := h.sending broadcaster _ _ _ _ hsending
  have hsublist : (visited ++ rest).Sublist gateway.clients := by
    rw [hclients]
    exact (List.sublist_cons_self socket rest).append_left visited
  have hgone : socket ∉ visited ++ rest := by
    have hnodup := h.nodup
    rw [hclients, List.nodup_middle, List.nodup_cons] at hnodup
    exact hnodup.1
  have hclient : socket ∈ gateway.clients := by
    rw [hclients]
    exact List.mem_append_right _ List.mem_cons_self
  refine ⟨h.nodup.sublist hsublist, fun other unsent heq => ?_, fun other hheld' => ?_,
    fun other text' visited' unsent' rest' hsending' => ?_, fun other hother => ?_⟩
  · obtain ⟨hnew, sent, hstream, hwhole⟩ := h.answering other unsent heq
    have hne : other ≠ socket := fun heq => hnew (heq ▸ hclient)
    exact ⟨fun hmem => hnew (hsublist.subset hmem), sent,
      (Function.update_of_ne hne _ _).trans hstream, by rw [hwhole, answered_snoc]⟩
  · cases hheld.symm.trans hheld'
    exact ⟨_, _, _, _, setBroadcasting_self⟩
  · by_cases hother : other = broadcaster
    · subst hother
      cases setBroadcasting_self.symm.trans hsending'
      exact ⟨hheld, rfl⟩
    · exact absurd hsending' (h.setSending hsending hother)
  · have hne : other ≠ socket := fun heq => hgone (heq ▸ hother)
    refine (h.hears other (hsublist.subset hother)).congr (Function.update_of_ne hne _ _) ?_
      answered_snoc heard_snoc
    have hafter : (setBroadcasting broadcaster
        (.sending text visited (websocketTextFrame text) rest)
        { gateway with clients := visited ++ rest }).pending other = _ :=
      pending_sending hheld setBroadcasting_self
    rw [ite_self] at hafter
    exact hafter.trans (pending_other hheld hsending hne).symm

theorem Delivering.unlock (h : Delivering labels gateway)
    (hsending : gateway.broadcasting broadcaster = .sending text visited unsent []) :
    Delivering (labels ++ [.unlock broadcaster])
      (setBroadcasting broadcaster .receiving { gateway with holder := none }) := by
  obtain ⟨hheld, hclients⟩ := h.sending broadcaster _ _ _ _ hsending
  rw [List.append_nil] at hclients
  refine ⟨h.nodup, fun socket unsent heq => ?_, fun other hheld' => (by cases hheld'),
    fun other text' visited' unsent' rest' hsending' => ?_, fun socket hclient => ?_⟩
  · obtain ⟨hnew, sent, hstream, hwhole⟩ := h.answering socket unsent heq
    exact ⟨hnew, sent, hstream, by rw [hwhole, answered_snoc]⟩
  · by_cases hother : other = broadcaster
    · rw [hother, setBroadcasting_self] at hsending'
      cases hsending'
    · exact absurd hsending' (h.setSending hsending hother)
  · refine (h.hears socket hclient).congr rfl ?_ answered_snoc heard_snoc
    rw [pending_sending hheld hsending, if_pos (hclients ▸ hclient)]
    exact pending_free rfl

end Broadcast

theorem Delivering.step (h : Delivering labels gateway) (hstep : Step gateway label gateway') :
    Delivering (labels ++ [label]) gateway' := by
  cases hstep with
  | answer hlistening hfree hanswer => exact h.answer hfree
  | sendAnswer hanswering hsent hstream => exact h.sendAnswer hanswering hstream
  | dropAnswer hanswering hunsent => exact h.dropAnswer hanswering
  | join hanswering hunlocked => exact h.join hanswering hunlocked
  | receive hreceiving hdatagram hsize htext =>
    split
    · exact h.quiet
    · exact h.receive hreceiving
  | lock hwaiting hunlocked => exact h.lock hunlocked
  | send hsending hsent hstream => exact h.send hsending hstream
  | next hsending => exact h.next hsending
  | drop hsending hunsent => exact h.drop hsending
  | unlock hsending => exact h.unlock hsending

end Steps

theorem delivering_run {labels : List Label} {gateway : WebSocketGateway}
    (hrun : Run Step {} labels gateway) : Delivering labels gateway := by
  refine hrun.history ?_ fun labels gateway label gateway' _ h hstep => h.step hstep
  exact ⟨List.nodup_nil, fun _ _ heq => (by cases heq), fun _ heq => (by cases heq),
    fun _ _ _ _ _ heq => (by cases heq), fun _ hclient => by cases hclient⟩

def frameOf (text : Text) : Wire.Frame := ⟨true, .text, text.bytes⟩

/-- In every run, however the loops and the partial sends interleave: the texts that a client has to
hear are the last of those that got hold of the mutex, the same for every client that was there by
then; the frames that it reads behind its answer are the first of these; and they are all of these
whenever the mutex is free. -/
theorem websocket_clients_agree {labels : List Label} {gateway : WebSocketGateway} {socket : Socket}
    (hrun : Run Step {} labels gateway) (hclient : socket ∈ gateway.clients) :
    heard socket labels <:+ texts labels ∧
    ∃ received, gateway.streams socket = some (answered socket labels ++ received) ∧
      (receiveFrames received).1 <+: (heard socket labels).map frameOf ∧
      (gateway.holder = none → receiveFrames received = ((heard socket labels).map frameOf, [])) := by
  obtain ⟨received, hstream, hwhole⟩ := (delivering_run hrun).hears socket hclient
  refine ⟨heard_suffix socket labels, received, hstream, ?_, fun hfree => ?_⟩
  · exact receiveFrames_prefix readFrame_websocketTextFrame ⟨_, hwhole⟩
  · rw [pending_free hfree, List.append_nil] at hwhole
    rw [hwhole]
    exact receiveFrames_flatMap websocketTextFrame_pos readFrame_websocketTextFrame _

/-- The smallest telemetry. -/
def telemetry : Text := ⟨text "\x7b\"type\":\"performance\"\x7d", by decide⟩

def exampleKey : Bytes := text "dGhlIHNhbXBsZSBub25jZQ=="

def exampleRequest : Bytes :=
  text "GET / HTTP/1.1\r\nSec-WebSocket-Key: " ++ exampleKey ++ text "\r\n\r\n"

/-- A book update of the core. -/
def exampleDatagram : Bytes :=
  (Emission.bookUpdate ⟨Protocol.defaultSymbol, true, 100, 5, false, 0, 0⟩).message 2

def updateText : Text := ⟨marketDataToJson exampleDatagram, by decide +kernel⟩

/-- A client hears telemetry in two parts. In between, another is answered and a book update arrives;
once the mutex is free, the other is added, and then both of them hear the update. -/
theorem websocket_clients_agree_joining :
    ∃ labels gateway, Run Step {} labels gateway ∧ gateway.clients = [4, 5] ∧
      texts labels = [telemetry, updateText] ∧
      ∃ received received', gateway.streams 4 = some (answered 4 labels ++ received) ∧
        receiveFrames received = ([frameOf telemetry, frameOf updateText], []) ∧
        gateway.streams 5 = some (answered 5 labels ++ received') ∧
        receiveFrames received' = ([frameOf updateText], []) := by
  have hanswer : performHandshake [exampleRequest] = some (handshakeResponse exampleKey) := by
    rfl
  have hne : handshakeResponse exampleKey ≠ [] :=
    fun h => absurd (List.append_eq_nil_iff.mp h).1 (by decide)
  generalize handshakeResponse exampleKey = answer at hanswer hne
  have hupdate : updateText.bytes = marketDataToJson exampleDatagram := rfl
  have hshown : updateText.bytes ≠ [] := by decide +kernel
  have hsize : exampleDatagram.length ≤ 2048 := by decide
  have hdatagram : exampleDatagram ≠ [] := by decide
  generalize updateText = update at hupdate hshown ⊢
  generalize exampleDatagram = datagram at hupdate hsize hdatagram
  let frame := websocketTextFrame telemetry
  have hanswering := congrArg (Accepting.answering 4) (List.append_nil answer).symm
  have hanswering' := congrArg (Accepting.answering 5) (List.append_nil answer).symm
  have run := (Run.snoc (.nil _) (@Step.answer {} 4 _ answer rfl rfl hanswer)).snoc
    (@Step.sendAnswer _ 4 [] answer [] hanswering hne rfl)
  have run := (run.snoc (@Step.join _ 4 rfl rfl)).snoc
    (@Step.receive _ .performance telemetry.bytes telemetry rfl (by decide) (by decide) (by decide))
  rw [if_neg (by decide)] at run
  have run := (run.snoc (@Step.lock _ .performance telemetry rfl rfl)).snoc
    (@Step.send _ .performance telemetry 4 [] [] answer (frame.take 3) (frame.drop 3) rfl (by decide)
      rfl)
  have run := (run.snoc (@Step.answer _ 5 _ answer rfl rfl hanswer)).snoc
    (@Step.sendAnswer _ 5 [] answer [] hanswering' hne rfl)
  have run := run.snoc (@Step.receive _ .multicast datagram update rfl hdatagram hsize hupdate)
  rw [if_neg hshown] at run
  have run := (run.snoc (@Step.send _ .performance telemetry 4 [] [] (answer ++ frame.take 3)
    (frame.drop 3) [] rfl (by decide) rfl)).snoc (@Step.next _ .performance telemetry 4 [] [] rfl)
  have run := (run.snoc (@Step.unlock _ .performance telemetry [4] frame rfl)).snoc
    (@Step.join _ 5 rfl rfl)
  obtain ⟨labels, gateway, run, hclients, hfree, hwaiting, ⟨stream, hstream⟩, ⟨stream', hstream'⟩,
      htexts, hheard, hheard'⟩ : ∃ labels gateway, Run Step {} labels gateway ∧
      gateway.clients = [4, 5] ∧ gateway.holder = none ∧
      gateway.broadcasting .multicast = .waiting update ∧ (∃ stream, gateway.streams 4 = some stream) ∧
      (∃ stream, gateway.streams 5 = some stream) ∧ texts labels = [telemetry] ∧
      heard 4 labels = [telemetry] ∧ heard 5 labels = [] :=
    ⟨_, _, run, rfl, rfl, rfl, ⟨_, rfl⟩, ⟨_, rfl⟩, rfl, rfl, rfl⟩
  let shown := websocketTextFrame update
  have hne : shown ≠ [] := List.ne_nil_of_length_pos (websocketTextFrame_pos update)
  have hfirst : Broadcasting.sending update [] shown gateway.clients =
      .sending update [] (shown ++ []) [4, 5] := by rw [hclients, List.append_nil]
  have hsecond : Broadcasting.sending update [4] shown [5] =
      .sending update [4] (shown ++ []) [5] := by rw [List.append_nil]
  have run := (run.snoc (@Step.lock _ .multicast update hwaiting hfree)).snoc
    (@Step.send _ .multicast update 4 [] [5] stream shown [] (setBroadcasting_self.trans hfirst) hne
      hstream)
  have run := (run.snoc (@Step.next _ .multicast update 4 [] [5] rfl)).snoc
    (@Step.send _ .multicast update 5 [4] [] stream' shown [] (setBroadcasting_self.trans hsecond) hne
      hstream')
  have run := (run.snoc (@Step.next _ .multicast update 5 [4] [] rfl)).snoc
    (@Step.unlock _ .multicast update [4, 5] shown rfl)
  simp only [List.append_assoc, List.singleton_append] at run
  obtain ⟨-, received, hreceived, -, hwhole⟩ :=
    websocket_clients_agree run (hclients ▸ List.mem_cons_self)
  obtain ⟨-, received', hreceived', -, hwhole'⟩ :=
    websocket_clients_agree run (hclients ▸ List.mem_cons_of_mem _ List.mem_cons_self)
  have hall := hwhole rfl
  have hall' := hwhole' rfl
  simp only [heard, List.foldl_append, List.foldl_cons, List.foldl_nil] at hall hall'
  rw [← heard, hheard] at hall
  rw [← heard, hheard'] at hall'
  refine ⟨_, _, run, hclients, ?_, received, received', hreceived, hall, hreceived', hall'⟩
  rw [texts, List.filterMap_append, ← texts, htexts]
  rfl

end WebSocketGateway

end ExchangeLab

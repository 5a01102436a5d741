import ExchangeLab.Gateway.Execution
import ExchangeLab.Gateway.Texts

/-!
# ExchangeLab.Gateway.Threads

The threads of the gateway, one for each client, and the bytes they write to their clients.

A thread takes one message at a time out of what it has received, and sends the replies of the
handler one after the other before it does anything else. Between two sends of one thread the others
may do what they like; they share the counters of order ids and of execution ids. The order in which
a thread turns to the client, the core and the clock is left open.

A socket that has refused a message takes nothing more. What the thread does before it notices is
left out, but for the execution ids it may use up.

* `ClientThread.Sound`: what holds of a thread in every run.
* `fix_client_reads`: what a client reads is what the handlers of its session have returned.
* `exec_ids_unique`: no two messages have one execution id.
-/

namespace ExchangeLab

open Wire ExchangeLab.Fix FixGateway Transition

/-- A message that was written to a client, and what it was written from. -/
structure Sending where
  outgoing : Outgoing
  stamp : Stamp
  clientCompId : Bytes
  deriving DecidableEq

def Sending.message (config : FixGatewayConfig) (sequenceNumber : UInt64) (sending : Sending) :
    Message :=
  buildSessionMessage config sending.clientCompId sending.stamp.timestamp sequenceNumber
    sending.outgoing.msgType (sending.outgoing.fields sending.stamp)

/-- What `handle_client` has of its client. -/
structure ClientThread where
  session : SessionContext
  fixReceiveBuffer : Bytes := []
  nextOutboundSequence : UInt64 := 1
  /-- What the handler that has run has still to send. -/
  unsent : List Outgoing := []
  /-- What the client's socket has taken. -/
  wire : Bytes := []
  sent : List Sending := []
  failed : Bool := false
  /-- The thread sends what is unsent, and handles nothing more. -/
  ended : Bool := false

namespace ClientThread

def Idle (thread : ClientThread) : Prop := thread.ended = false ∧ thread.unsent = []

/-- The messages that were sent, numbered from one. -/
def messages (config : FixGatewayConfig) (thread : ClientThread) : List Message :=
  (thread.sent.zipIdx 1).map fun (sending, i) => sending.message config (UInt64.ofNat i)

/-- The next message is built for what is to be sent first. -/
def sending (outgoing : Outgoing) (stamp : Stamp) (thread : ClientThread) : Sending :=
  ⟨outgoing, stamp, thread.session.clientCompId⟩

def encoded (config : FixGatewayConfig) (outgoing : Outgoing) (stamp : Stamp) (thread : ClientThread) :
    Bytes :=
  encode ((thread.sending outgoing stamp).message config thread.nextOutboundSequence)

def send (config : FixGatewayConfig) (outgoing : Outgoing) (stamp : Stamp) (rest : List Outgoing)
    (thread : ClientThread) : ClientThread :=
  { thread with
    nextOutboundSequence := thread.nextOutboundSequence + 1
    unsent := rest
    wire := thread.wire ++ thread.encoded config outgoing stamp
    sent := thread.sent ++ [thread.sending outgoing stamp] }

/-- The socket has taken the front of a message only. -/
def fail (front : Bytes) (thread : ClientThread) : ClientThread :=
  { thread with unsent := [], wire := thread.wire ++ front, failed := true, ended := true }

end ClientThread

structure ClientThreads where
  clients : Nat → Option ClientThread := fun _ => none
  nextNumericOrderId : Nat := 2 ^ 62
  nextExecId : UInt64 := 1

namespace ClientThreads

inductive Label where
  | accept (client : Nat)
  | receive (client : Nat) (chunk : Bytes)
  | refuse (client : Nat)
  | fix (client : Nat) (message : Message) (replies : List Reply)
  | core (client : Nat) (message : CoreMessage) (replies : List Reply)
  | heartbeat (client : Nat)
  | close (client : Nat) (reason : String)
  | leave (client : Nat)
  | send (client : Nat) (outgoing : Outgoing)
  | fail (client : Nat) (outgoing : Outgoing)
  | draw

/-- What a step gives a client's thread to send. -/
def Label.produces (client : Nat) : Label → List Outgoing
  | .fix other _ replies | .core other _ replies =>
    if other = client then replies.map .reply else []
  | .heartbeat other => if other = client then [.heartbeat] else []
  | .close other reason => if other = client then [.reply (.logout (some reason))] else []
  | _ => []

/-- All that was to be sent to a client, in order. -/
def produced (client : Nat) (labels : List Label) : List Outgoing :=
  labels.flatMap (Label.produces client)

/-- An execution id is used up. -/
def Label.draws : Label → Bool
  | .send _ outgoing | .fail _ outgoing => outgoing.drawsExecId
  | .draw => true
  | _ => false

def setClient (client : Nat) (thread : ClientThread) (s : ClientThreads) : ClientThreads :=
  { s with clients := Function.update s.clients client (some thread) }

def drawFor (outgoing : Outgoing) (s : ClientThreads) : ClientThreads :=
  { s with nextExecId := if outgoing.drawsExecId then s.nextExecId + 1 else s.nextExecId }

/-- After a handler of the client's messages. -/
def afterFix (client : Nat) (rest : Bytes) (effects : Effects) (thread : ClientThread)
    (s : ClientThreads) : ClientThreads :=
  { s.setClient client { thread with
      session := effects.session
      fixReceiveBuffer := rest
      unsent := effects.replies.map .reply } with
    nextNumericOrderId := effects.nextNumericOrderId }

inductive Step (config : FixGatewayConfig) : ClientThreads → Label → ClientThreads → Prop
  | accept {s : ClientThreads} {client : Nat} (hfresh : s.clients client = none) :
      Step config s (.accept client)
        (s.setClient client { session := { heartbeatSeconds := config.defaultHeartbeatSeconds } })
  | receive {s : ClientThreads} {client : Nat} {thread : ClientThread} (chunk : Bytes)
      (hclient : s.clients client = some thread) (hidle : thread.Idle) :
      Step config s (.receive client chunk)
        (s.setClient client
          { thread with fixReceiveBuffer := thread.fixReceiveBuffer ++ chunk })
  -- the loop ends at such a message; a message of the core may keep the thread going
  | refuse {s : ClientThreads} {client : Nat} {thread : ClientThread} {wire rest : Bytes}
      {error : String} (hclient : s.clients client = some thread) (hidle : thread.Idle)
      (hextract : extractOne thread.fixReceiveBuffer = (.messageReady wire, rest))
      (hparse : parse wire = .error error) :
      Step config s (.refuse client)
        (s.setClient client { thread with fixReceiveBuffer := rest })
  | fix {s : ClientThreads} {client : Nat} {thread : ClientThread} {wire rest : Bytes}
      {message : Message} (surroundings : Surroundings)
      (hclient : s.clients client = some thread) (hidle : thread.Idle)
      (hopen : thread.session.closing = false)
      (hextract : extractOne thread.fixReceiveBuffer = (.messageReady wire, rest))
      (hparse : parse wire = .ok message) :
      Step config s
        (.fix client message
          (processFixMessage config surroundings s.nextNumericOrderId message
            thread.session).replies)
        (s.afterFix client rest
          (processFixMessage config surroundings s.nextNumericOrderId message thread.session)
          thread)
  | core {s : ClientThreads} {client : Nat} {thread : ClientThread} (iteration : SetOrder)
      (message : CoreMessage) (hclient : s.clients client = some thread) (hidle : thread.Idle)
      (hconnected : 0 ≤ thread.session.coreSocket) :
      Step config s
        (.core client message (processCoreMessage iteration message thread.session).2)
        (s.setClient client { thread with
          session := (processCoreMessage iteration message thread.session).1
          unsent := (processCoreMessage iteration message thread.session).2.map .reply })
  | heartbeat {s : ClientThreads} {client : Nat} {thread : ClientThread}
      (hclient : s.clients client = some thread) (hidle : thread.Idle)
      (hloggedOn : thread.session.loggedOn = true) :
      Step config s (.heartbeat client)
        (s.setClient client { thread with unsent := [.heartbeat] })
  | coreClosed {s : ClientThreads} {client : Nat} {thread : ClientThread}
      (hclient : s.clients client = some thread) (hidle : thread.Idle)
      (hconnected : 0 ≤ thread.session.coreSocket) :
      Step config s (.close client "ExchangeLab core connection closed")
        (s.setClient client { thread with
          unsent := [.reply (.logout (some "ExchangeLab core connection closed"))]
          ended := true })
  | timeout {s : ClientThreads} {client : Nat} {thread : ClientThread}
      (hclient : s.clients client = some thread) (hidle : thread.Idle)
      (hloggedOn : thread.session.loggedOn = true) :
      Step config s (.close client "heartbeat timeout")
        (s.setClient client { thread with
          unsent := [.reply (.logout (some "heartbeat timeout"))]
          ended := true })
  | leave {s : ClientThreads} {client : Nat} {thread : ClientThread}
      (hclient : s.clients client = some thread) (hidle : thread.Idle) :
      Step config s (.leave client) (s.setClient client { thread with ended := true })
  | send {s : ClientThreads} {client : Nat} {thread : ClientThread} {outgoing : Outgoing}
      {rest : List Outgoing} (stamp : Stamp) (hclient : s.clients client = some thread)
      (hunsent : thread.unsent = outgoing :: rest) (hexecId : stamp.execId = s.nextExecId)
      -- a string holds no more
      (hfits : (thread.encoded config outgoing stamp).length < 2 ^ 63) :
      Step config s (.send client outgoing)
        ((s.setClient client (thread.send config outgoing stamp rest)).drawFor outgoing)
  | fail {s : ClientThreads} {client : Nat} {thread : ClientThread} {outgoing : Outgoing}
      {rest : List Outgoing} {front : Bytes} (stamp : Stamp)
      (hclient : s.clients client = some thread) (hunsent : thread.unsent = outgoing :: rest)
      (hexecId : stamp.execId = s.nextExecId)
      (hfits : (thread.encoded config outgoing stamp).length < 2 ^ 63)
      (hfront : front <+: thread.encoded config outgoing stamp)
      (hshort : front.length < (thread.encoded config outgoing stamp).length) :
      Step config s (.fail client outgoing)
        ((s.setClient client (thread.fail front)).drawFor outgoing)
  | draw (s : ClientThreads) :
      Step config s .draw { s with nextExecId := s.nextExecId + 1 }

end ClientThreads

/-! ## What holds of a thread -/

structure ClientThread.Sound (config : FixGatewayConfig) (produced : List Outgoing)
    (thread : ClientThread) : Prop where
  session : thread.session.Clean
  unsent : ∀ outgoing ∈ thread.unsent, outgoing.Clean
  encodable : ∀ message ∈ thread.messages config, Encodable message
  sequence : thread.nextOutboundSequence = UInt64.ofNat (thread.sent.length + 1)
  wire : thread.failed = false → thread.wire = ((thread.messages config).map Fix.encode).flatten
  outgoing : thread.failed = false → thread.sent.map Sending.outgoing ++ thread.unsent = produced
  /-- The last message is cut off. -/
  cut : thread.failed = true → ∃ message front, Encodable message ∧ front <+: encode message ∧
    front.length < (encode message).length ∧
    thread.wire = ((thread.messages config).map Fix.encode).flatten ++ front
  stopped : thread.failed = true → thread.ended = true ∧ thread.unsent = [] ∧
    thread.sent.map Sending.outgoing <+: produced

namespace ClientThread

variable {config : FixGatewayConfig} {produced : List Outgoing} {thread : ClientThread}

theorem Idle.running (hidle : thread.Idle) (h : thread.Sound config produced) :
    thread.failed = false := by
  cases hfailed : thread.failed with
  | false => rfl
  | true =>
    have hended := (h.stopped hfailed).1
    rw [hidle.1] at hended
    cases hended

theorem messages_send (outgoing : Outgoing) (stamp : Stamp) (rest : List Outgoing) :
    (thread.send config outgoing stamp rest).messages config = thread.messages config ++
      [(thread.sending outgoing stamp).message config (UInt64.ofNat (thread.sent.length + 1))] := by
  rw [messages, send, List.zipIdx_append, List.map_append, Nat.add_comm 1]
  rfl

namespace Sound

/-- A thread that has nothing to send is given something. -/
theorem produce (h : thread.Sound config produced) (hidle : thread.Idle) {session : SessionContext}
    (hsession : session.Clean) {outgoing : List Outgoing}
    (houtgoing : ∀ o ∈ outgoing, o.Clean) (buffer : Bytes) (ended : Bool) :
    ClientThread.Sound config (produced ++ outgoing)
      { thread with
        session := session, fixReceiveBuffer := buffer, unsent := outgoing, ended := ended } where
  session := hsession
  unsent := houtgoing
  encodable := h.encodable
  sequence := h.sequence
  wire := h.wire
  outgoing := by
    intro hfailed
    have hall := h.outgoing hfailed
    rw [hidle.2, List.append_nil] at hall
    exact congrArg (· ++ outgoing) hall
  cut := h.cut
  stopped := by
    intro hfailed
    rw [hidle.running h] at hfailed
    cases hfailed

theorem running (h : thread.Sound config produced) {outgoing : Outgoing} {rest : List Outgoing}
    (hunsent : thread.unsent = outgoing :: rest) : thread.failed = false := by
  cases hfailed : thread.failed with
  | false => rfl
  | true =>
    have hnone := (h.stopped hfailed).2.1
    rw [hunsent] at hnone
    cases hnone

/-- What is built for the next send goes through the codec. -/
theorem encodable_next (h : thread.Sound config produced) (hsender : soh ∉ config.senderCompId)
    {outgoing : Outgoing} {rest : List Outgoing} (stamp : Stamp)
    (hunsent : thread.unsent = outgoing :: rest)
    (hfits : (thread.encoded config outgoing stamp).length < 2 ^ 63) :
    Encodable ((thread.sending outgoing stamp).message config thread.nextOutboundSequence) :=
  outgoing.encodable stamp thread.nextOutboundSequence (h.unsent outgoing (hunsent ▸ .head rest))
    hsender h.session.clientCompId hfits

theorem send (h : thread.Sound config produced) (hsender : soh ∉ config.senderCompId)
    {outgoing : Outgoing} {rest : List Outgoing} (stamp : Stamp)
    (hunsent : thread.unsent = outgoing :: rest)
    (hfits : (thread.encoded config outgoing stamp).length < 2 ^ 63) :
    (thread.send config outgoing stamp rest).Sound config produced := by
  have hnext := h.encodable_next hsender stamp hunsent hfits
  have hrunning := h.running hunsent
  refine ⟨h.session, ?_, ?_, ?_, fun _ => ?_, fun _ => ?_, ?_, ?_⟩
  · intro o ho
    exact h.unsent o (hunsent ▸ .tail _ ho)
  · rw [messages_send, ← h.sequence]
    exact List.forall_mem_append.mpr ⟨h.encodable, List.forall_mem_singleton.mpr hnext⟩
  · rw [ClientThread.send, List.length_append, h.sequence]
    exact (UInt64.ofNat_add _ 1).symm
  · rw [messages_send, ← h.sequence, List.map_append, List.flatten_append, ← h.wire hrunning]
    exact congrArg (thread.wire ++ ·) (List.append_nil _).symm
  · have hall := h.outgoing hrunning
    rw [hunsent] at hall
    rw [← hall, ClientThread.send, List.map_append, List.append_assoc]
    rfl
  all_goals
    intro hfailed
    rw [ClientThread.send, hrunning] at hfailed
    cases hfailed

theorem fail (h : thread.Sound config produced) (hsender : soh ∉ config.senderCompId)
    {outgoing : Outgoing} {rest : List Outgoing} {front : Bytes} (stamp : Stamp)
    (hunsent : thread.unsent = outgoing :: rest)
    (hfits : (thread.encoded config outgoing stamp).length < 2 ^ 63)
    (hfront : front <+: thread.encoded config outgoing stamp)
    (hshort : front.length < (thread.encoded config outgoing stamp).length) :
    (thread.fail front).Sound config produced := by
  have hrunning := h.running hunsent
  refine ⟨h.session, List.forall_mem_nil _, h.encodable, h.sequence, ?_, ?_, fun _ => ?_,
    fun _ => ⟨rfl, rfl, ?_⟩⟩
  · intro hfailed
    cases hfailed
  · intro hfailed
    cases hfailed
  · exact ⟨_, front, h.encodable_next hsender stamp hunsent hfits, hfront, hshort,
      congrArg (· ++ front) (h.wire hrunning)⟩
  · rw [← h.outgoing hrunning]
    exact List.prefix_append _ _

end Sound

end ClientThread

/-! ## What holds of every run -/

namespace ClientThreads

variable {config : FixGatewayConfig} {labels : List Label} {s s' : ClientThreads}

structure Sound (config : FixGatewayConfig) (labels : List Label) (s : ClientThreads) : Prop where
  threads : ∀ client thread, s.clients client = some thread →
    thread.Sound config (produced client labels)
  absent : ∀ client, s.clients client = none → produced client labels = []

theorem produced_append (client : Nat) (labels : List Label) (label : Label) :
    produced client (labels ++ [label]) = produced client labels ++ label.produces client := by
  rw [produced, List.flatMap_append, List.flatMap_singleton]
  rfl

/-- Only one thread has changed, and only it was given something to send. -/
theorem Sound.setClient (h : Sound config labels s) {client : Nat} {label : Label}
    {thread : ClientThread} (hothers : ∀ other ≠ client, label.produces other = [])
    (hown : thread.Sound config (produced client labels ++ label.produces client)) :
    Sound config (labels ++ [label]) (s.setClient client thread) := by
  constructor
  · intro other found hfound
    rw [produced_append]
    simp only [ClientThreads.setClient, Function.update_apply] at hfound
    split at hfound
    · rename_i heq
      cases hfound
      exact heq ▸ hown
    · rename_i hne
      rw [hothers other hne, List.append_nil]
      exact h.threads other found hfound
  · intro other hnone
    simp only [ClientThreads.setClient, Function.update_apply] at hnone
    split at hnone
    · cases hnone
    · rename_i hne
      rw [produced_append, hothers other hne, List.append_nil]
      exact h.absent other hnone

theorem Step.sound (hsender : soh ∉ config.senderCompId) {label : Label}
    (h : Sound config labels s) (hstep : Step config s label s') :
    Sound config (labels ++ [label]) s' := by
  have hreplies : ∀ replies : List Reply, (∀ reply ∈ replies, reply.Clean) →
      ∀ outgoing ∈ replies.map Outgoing.reply, outgoing.Clean := by
    intro replies hclean outgoing houtgoing
    obtain ⟨reply, hreply, rfl⟩ := List.mem_map.mp houtgoing
    exact hclean reply hreply
  have hlogout : ∀ reason : String, soh ∉ text reason →
      ∀ outgoing ∈ [Outgoing.reply (.logout (some reason))], outgoing.Clean :=
    fun reason hreason => List.forall_mem_singleton.mpr (clean_logout fun s hs =>
      Option.some.inj hs ▸ hreason)
  -- a thread with nothing to send is given what the label says
  have hproduce : ∀ {client : Nat} {thread : ClientThread}, s.clients client = some thread →
      thread.Idle → ∀ {session : SessionContext} {outgoing : List Outgoing} (buffer : Bytes)
      (ended : Bool), session.Clean → (∀ o ∈ outgoing, o.Clean) →
      label.produces client = outgoing → (∀ other ≠ client, label.produces other = []) →
      Sound config (labels ++ [label]) (s.setClient client { thread with
        session := session, fixReceiveBuffer := buffer, unsent := outgoing, ended := ended }) := by
    intro client thread hclient hidle session outgoing buffer ended hsession houtgoing hown hothers
    refine h.setClient hothers ?_
    rw [hown]
    exact (h.threads client thread hclient).produce hidle hsession houtgoing buffer ended
  have hother : ∀ {client other : Nat} (outgoing : List Outgoing), other ≠ client →
      (if client = other then outgoing else []) = [] :=
    fun _ hne => if_neg (Ne.symm hne)
  cases hstep with
  | @accept client hfresh =>
    refine h.setClient (fun _ _ => rfl) ?_
    rw [h.absent client hfresh]
    exact ⟨⟨List.not_mem_nil, ⟨fun _ _ ho => (by cases ho), fun _ => List.forall_mem_nil _⟩⟩,
      List.forall_mem_nil _, List.forall_mem_nil _, rfl, fun _ => rfl, fun _ => rfl,
      fun hfailed => (by cases hfailed), fun hfailed => (by cases hfailed)⟩
  | @receive client thread chunk hclient hidle =>
    have hsound := h.threads client thread hclient
    exact hproduce hclient hidle _ _ hsound.session hsound.unsent hidle.2.symm fun _ _ => rfl
  | @refuse client thread wire rest error hclient hidle hextract hparse =>
    have hsound := h.threads client thread hclient
    exact hproduce hclient hidle _ _ hsound.session hsound.unsent hidle.2.symm fun _ _ => rfl
  | @fix client thread wire rest message surroundings hclient hidle hopen hextract hparse =>
    have hclean : (processFixMessage config surroundings s.nextNumericOrderId message
        thread.session).Clean :=
      processFixMessage_clean (h.threads client thread hclient).session (clean_of_parse hparse)
    have hset := hproduce hclient hidle rest thread.ended hclean.session
      (hreplies _ hclean.replies) (if_pos rfl) fun _ => hother _
    exact ⟨hset.threads, hset.absent⟩
  | @core client thread iteration message hclient hidle hconnected =>
    have hclean := processCoreMessage_clean iteration message (h.threads client thread hclient).session
    exact hproduce hclient hidle _ _ hclean.1 (hreplies _ hclean.2) (if_pos rfl) fun _ => hother _
  | @heartbeat client thread hclient hidle hloggedOn =>
    exact hproduce hclient hidle _ _ (h.threads client thread hclient).session
      (List.forall_mem_singleton.mpr trivial) (if_pos rfl) fun _ => hother _
  | @coreClosed client thread hclient hidle hconnected =>
    exact hproduce hclient hidle _ _ (h.threads client thread hclient).session
      (hlogout _ (by decide)) (if_pos rfl) fun _ => hother _
  | @timeout client thread hclient hidle hloggedOn =>
    exact hproduce hclient hidle _ _ (h.threads client thread hclient).session
      (hlogout _ (by decide)) (if_pos rfl) fun _ => hother _
  | @leave client thread hclient hidle =>
    have hsound := h.threads client thread hclient
    exact hproduce hclient hidle _ _ hsound.session hsound.unsent hidle.2.symm fun _ _ => rfl
  | @send client thread outgoing rest stamp hclient hunsent hexecId hfits =>
    have hsent := (h.threads client thread hclient).send hsender stamp hunsent hfits
    rw [← List.append_nil (produced client labels)] at hsent
    have hset : Sound config (labels ++ [.send client outgoing]) (s.setClient client _) :=
      h.setClient (fun _ _ => rfl) hsent
    exact ⟨hset.threads, hset.absent⟩
  | @fail client thread outgoing rest front stamp hclient hunsent hexecId hfits hfront hshort =>
    have hcut := (h.threads client thread hclient).fail hsender stamp hunsent hfits hfront hshort
    rw [← List.append_nil (produced client labels)] at hcut
    have hset : Sound config (labels ++ [.fail client outgoing]) (s.setClient client _) :=
      h.setClient (fun _ _ => rfl) hcut
    exact ⟨hset.threads, hset.absent⟩
  | draw =>
    have hnone : ∀ client, produced client (labels ++ [Label.draw]) = produced client labels := by
      intro client
      rw [produced_append]
      exact List.append_nil _
    refine ⟨fun client thread hclient => ?_, fun client hclient => ?_⟩
    · rw [hnone]
      exact h.threads client thread hclient
    · rw [hnone]
      exact h.absent client hclient

theorem sound (hsender : soh ∉ config.senderCompId) (hrun : Run (Step config) {} labels s) :
    Sound config labels s := by
  refine hrun.history ⟨fun _ _ h => (by cases h), fun _ _ => rfl⟩ ?_
  intro labels s₁ label s₂ _ h hstep
  exact hstep.sound hsender h

end ClientThreads

/-! ## What a client reads -/

section Clients

variable {config : FixGatewayConfig} {labels : List ClientThreads.Label} {s : ClientThreads}

/-- What has arrived at a client is read by its codec as the messages that were sent. -/
theorem ClientThread.Sound.reads {produced : List Outgoing} {thread : ClientThread}
    (h : thread.Sound config produced) {chunks : List Bytes} (calls : Nat)
    (harrived : chunks.flatten <+: thread.wire) :
    receiveMany extractOne calls chunks [] =
      (arrived chunks.flatten.length ((thread.messages config).map Fix.encode)).take calls := by
  have hok : ∀ bytes ∈ (thread.messages config).map Fix.encode,
      ∃ message, Encodable message ∧ bytes = Fix.encode message := by
    intro bytes hbytes
    obtain ⟨message, hmessage, rfl⟩ := List.mem_map.mp hbytes
    exact ⟨message, h.encodable message hmessage, rfl⟩
  cases hfailed : thread.failed with
  | false =>
    rw [h.wire hfailed] at harrived
    exact delimits_encode.receiveMany hok harrived
  | true =>
    obtain ⟨message, front, hencodable, hfront, hshort, hwire⟩ := h.cut hfailed
    rw [hwire] at harrived
    have hwhole : chunks.flatten <+:
        ((thread.messages config).map Fix.encode ++ [Fix.encode message]).flatten := by
      rw [List.flatten_append, List.flatten_singleton]
      exact harrived.trans ((List.prefix_append_right_inj _).mpr hfront)
    have hsize := harrived.length_le
    rw [List.length_append] at hsize
    have hread : receiveMany extractOne calls chunks [] = (arrived chunks.flatten.length
        ((thread.messages config).map Fix.encode ++ [Fix.encode message])).take calls :=
      delimits_encode.receiveMany (List.forall_mem_append.mpr
        ⟨hok, List.forall_mem_singleton.mpr ⟨message, hencodable, rfl⟩⟩) hwhole
    rw [hread, arrived_append (by omega)]

theorem fix_client_reads (hsender : soh ∉ config.senderCompId)
    (hrun : Run (ClientThreads.Step config) {} labels s) {client : Nat} {thread : ClientThread}
    (hclient : s.clients client = some thread) :
    (∀ chunks calls, chunks.flatten <+: thread.wire → receiveMany extractOne calls chunks [] =
      (arrived chunks.flatten.length ((thread.messages config).map Fix.encode)).take calls) ∧
    (∀ message ∈ thread.messages config, parse (Fix.encode message) = .ok message) ∧
    thread.sent.map Sending.outgoing <+: ClientThreads.produced client labels ∧
    (thread.failed = false → thread.wire = ((thread.messages config).map Fix.encode).flatten ∧
      thread.sent.map Sending.outgoing ++ thread.unsent = ClientThreads.produced client labels) := by
  have hsound := (ClientThreads.sound hsender hrun).threads client thread hclient
  refine ⟨fun chunks calls => hsound.reads calls,
    fun message hmessage => parse_encode (hsound.encodable message hmessage), ?_,
    fun hfailed => ⟨hsound.wire hfailed, hsound.outgoing hfailed⟩⟩
  cases hfailed : thread.failed with
  | false =>
    rw [← hsound.outgoing hfailed]
    exact List.prefix_append _ _
  | true => exact (hsound.stopped hfailed).2.2

/-- The answer of the core to the first order of the gateway. -/
def exampleAccepted : CoreMessage :=
  ⟨⟨Protocol.protocolMagic, Protocol.protocolVersion, .orderAccepted, 17, 1⟩,
    Protocol.encodeOrderResponse ⟨2 ^ 62, 1, 1⟩⟩

def exampleReport : ExecutionReport where
  orderId := 2 ^ 62
  clOrdId := text "a"
  origClOrdId := none
  execType := .new
  ordStatus := .new
  symbol := text "TEST"
  side := .buy
  orderQty := 5
  ordType := .limit
  price := some 10
  timeInForce := .goodTillCancel
  cumQty := 0
  leavesQty := 5
  lastQty := none
  lastPx := none
  reason := none

def exampleStamp (execId : UInt64) : Stamp where
  timestamp := text "20240101-00:00:00.000"
  execId := execId
  averagePrice := text "0"
  timestamp_clean := by decide
  averagePrice_clean := by decide

/-- A client logs on and places an order, which the core accepts; a heartbeat follows. The client
reads the three messages in three pieces that are cut elsewhere. -/
theorem fix_client_reads_report : ∃ labels s thread,
    Run (ClientThreads.Step {}) {} labels s ∧ s.clients 0 = some thread ∧
    (thread.messages {}).map (fun message => (message.get 34, message.get 35, message.get 150)) =
      [(some (text "1"), some (text "A"), none), (some (text "2"), some (text "8"), some (text "0")),
        (some (text "3"), some (text "0"), none)] ∧
    receiveMany extractOne 3
      [thread.wire.take 9, (thread.wire.drop 9).take 200, (thread.wire.drop 9).drop 200] [] =
        (thread.messages {}).map Fix.encode ∧
    ∀ message ∈ thread.messages {}, parse (Fix.encode message) = .ok message := by
  let order : Message := .newOrderSingle "2" "a" "1" "5" "10" "1"
  have hlogon : extractOne (Fix.encode .logon ++ Fix.encode order) =
      (.messageReady (Fix.encode .logon), Fix.encode order) := by
    decide +kernel
  have hparse : parse (Fix.encode .logon) = .ok .logon := by decide +kernel
  have horder : extractOne (Fix.encode order) = (.messageReady (Fix.encode order), []) := by
    decide +kernel
  have hparse' : parse (Fix.encode order) = .ok order := by decide +kernel
  have r₁ : Run (ClientThreads.Step {}) {} _ _ := (Run.nil _).snoc (l := .accept 0) (.accept rfl)
  have r₂ := r₁.snoc (l := .receive 0 (Fix.encode .logon ++ Fix.encode order))
    (.receive _ rfl ⟨rfl, rfl⟩)
  have r₃ := r₂.snoc
    (@ClientThreads.Step.fix {} _ 0 _ _ _ _ .reachable rfl ⟨rfl, rfl⟩ rfl hlogon hparse)
  have r₄ := r₃.snoc (@ClientThreads.Step.send {} _ 0 _ (.reply (.logon 30)) [] (exampleStamp 1) rfl
    (by decide +kernel) rfl (by decide +kernel))
  have r₅ := r₄.snoc
    (@ClientThreads.Step.fix {} _ 0 _ _ _ _ .reachable rfl ⟨rfl, rfl⟩ rfl horder hparse')
  have r₆ := r₅.snoc (@ClientThreads.Step.core {} _ 0 _ .dedup exampleAccepted rfl
    ⟨rfl, by decide +kernel⟩ (by decide +kernel))
  obtain ⟨labels, s, thread, run, hclient, hunsent, hexecId, hcompId, hloggedOn, hended, hsequence,
      hsent, hfailed⟩ : ∃ labels s thread, Run (ClientThreads.Step {}) {} labels s ∧
      s.clients 0 = some thread ∧ thread.unsent = [.reply (.executionReport exampleReport)] ∧
      s.nextExecId = 1 ∧ thread.session.clientCompId = text "CLIENT" ∧
      thread.session.loggedOn = true ∧ thread.ended = false ∧ thread.nextOutboundSequence = 2 ∧
      thread.sent = [⟨.reply (.logon 30), exampleStamp 1, text "CLIENT"⟩] ∧ thread.failed = false :=
    ⟨_, _, _, r₆, rfl, by decide +kernel, rfl, by decide +kernel, by decide +kernel, rfl, rfl,
      by decide +kernel, rfl⟩
  have hfits : (thread.encoded {} (.reply (.executionReport exampleReport))
      (exampleStamp 1)).length < 2 ^ 63 := by
    rw [ClientThread.encoded, ClientThread.sending, hcompId, hsequence]
    decide +kernel
  have hexecId' : (exampleStamp 2).execId = s.nextExecId + 1 := by
    rw [hexecId]
    rfl
  have hfits' : (encode (Sending.message {} (thread.nextOutboundSequence + 1)
      ⟨.heartbeat, exampleStamp 2, thread.session.clientCompId⟩)).length < 2 ^ 63 := by
    rw [hcompId, hsequence]
    decide +kernel
  have run := run.snoc (.send (exampleStamp 1) hclient hunsent hexecId.symm hfits)
  have run := run.snoc (@ClientThreads.Step.heartbeat {} _ 0 _ rfl ⟨hended, rfl⟩ hloggedOn)
  have run := run.snoc (@ClientThreads.Step.send {} _ 0 _ .heartbeat [] (exampleStamp 2) rfl rfl
    hexecId' hfits')
  obtain ⟨labels, s, thread, run, hclient, hsent, hfailed⟩ : ∃ labels s thread,
      Run (ClientThreads.Step {}) {} labels s ∧ s.clients 0 = some thread ∧
      thread.sent = [⟨.reply (.logon 30), exampleStamp 1, text "CLIENT"⟩,
        ⟨.reply (.executionReport exampleReport), exampleStamp 1, text "CLIENT"⟩,
        ⟨.heartbeat, exampleStamp 2, text "CLIENT"⟩] ∧ thread.failed = false := by
    refine ⟨_, _, _, run, rfl, ?_, hfailed⟩
    show thread.sent ++ [⟨_, _, thread.session.clientCompId⟩] ++
      [⟨_, _, thread.session.clientCompId⟩] = _
    rw [hsent, hcompId]
    rfl
  obtain ⟨hreads, hparsed, -, hwhole⟩ := @fix_client_reads {} _ _ (by decide) run 0 _ hclient
  obtain ⟨hwire, -⟩ := hwhole hfailed
  have hpieces : [thread.wire.take 9, (thread.wire.drop 9).take 200,
      (thread.wire.drop 9).drop 200].flatten = thread.wire := by
    rw [List.flatten_cons, List.flatten_cons, List.flatten_singleton, List.take_append_drop,
      List.take_append_drop]
  have hread := hreads _ 3 (by rw [hpieces])
  rw [hpieces] at hread
  refine ⟨labels, s, thread, run, hclient, ?_, hread.trans ?_, hparsed⟩
  · rw [ClientThread.messages, hsent]
    decide +kernel
  · rw [hwire, ClientThread.messages, hsent]
    decide +kernel

end Clients

end ExchangeLab

import ExchangeLab.Gateway.Threads

/-!
# ExchangeLab.Gateway.ExecIds

The execution ids of all clients come from one counter, which a thread draws from in one step.

* `Sending.get_execId`: tag 17 of a message is what was drawn for it, and only then is there one.
* `exec_ids_unique`: no two messages have one execution id, to whichever clients they were sent.
-/

namespace ExchangeLab

open Wire ExchangeLab.Fix FixGateway Transition

/-! ## Tag 17 -/

theorem Reply.find_execId (stamp : Stamp) (reply : Reply) :
    ((reply.fields stamp).find? fun field => field.tag = 17) =
      if Outgoing.drawsExecId (.reply reply) then some ⟨17, decimal stamp.execId.toNat⟩ else none := by
  cases reply with
  | executionReport report =>
    simp only [Reply.fields, ExecutionReport.fields, Outgoing.drawsExecId]
    cases report.origClOrdId <;> rfl
  | newReject => rfl
  | cancelReject => rfl
  | sessionReject referenceSequence reason referenceMessageType =>
    cases referenceMessageType <;> rfl
  | logon => rfl
  | heartbeat => rfl
  | logout reason => cases reason <;> rfl

theorem Sending.get_execId (config : FixGatewayConfig) (sequenceNumber : UInt64) (sending : Sending) :
    (sending.message config sequenceNumber).get 17 =
      if sending.outgoing.drawsExecId then some (decimal sending.stamp.execId.toNat) else none := by
  obtain ⟨outgoing, stamp, clientCompId⟩ := sending
  rw [Message.get, Sending.message, buildSessionMessage_fields]
  cases outgoing with
  | reply reply =>
    have hfind := reply.find_execId stamp
    change Option.map Field.value ((reply.fields stamp).find? fun field => field.tag = 17) = _
    rw [hfind]
    split <;> rfl
  | heartbeat => rfl

theorem Outgoing.drawsExecId_eq (outgoing : Outgoing) :
    outgoing.drawsExecId = decide (outgoing.msgType = text "8") := by
  cases outgoing with
  | reply reply => cases reply <;> rfl
  | heartbeat => rfl

/-- Execution reports and new-order rejects are the messages of type 8. -/
theorem Sending.execId_iff (config : FixGatewayConfig) (sequenceNumber : UInt64) (sending : Sending) :
    ((sending.message config sequenceNumber).get 17).isSome = true ↔
      (sending.message config sequenceNumber).get 35 = some (text "8") := by
  have htype : (sending.message config sequenceNumber).get 35 = some sending.outgoing.msgType := by
    rw [Message.get, Sending.message, buildSessionMessage_fields]
    rfl
  rw [Sending.get_execId, htype, Option.some.injEq, sending.outgoing.drawsExecId_eq]
  split
  · rename_i hreport
    exact ⟨fun _ => of_decide_eq_true hreport, fun _ => rfl⟩
  · rename_i hother
    exact ⟨fun h => Bool.noConfusion h, fun h => absurd (decide_eq_true h) hother⟩

theorem decimal_injective {m n : Nat} (h : decimal m = decimal n) : m = n := by
  have hread := readDecimal_decimal m
  rw [h, readDecimal_decimal] at hread
  exact (Option.some.inj hread).symm

/-! ## Steps -/

namespace ClientThreads

variable {config : FixGatewayConfig} {labels : List Label} {s s' : ClientThreads} {label : Label}

/-- What was sent to a client. -/
def sentTo (client : Nat) (s : ClientThreads) : List Sending :=
  (s.clients client).elim [] ClientThread.sent

theorem sentTo_setClient {client : Nat} {thread : ClientThread} (other : Nat) :
    (s.setClient client thread).sentTo other =
      if other = client then thread.sent else s.sentTo other := by
  simp only [sentTo, setClient, Function.update_apply]
  split <;> rfl

theorem sentTo_eq {client : Nat} {thread : ClientThread} (h : s.clients client = some thread) :
    s.sentTo client = thread.sent := by
  rw [sentTo, h]
  rfl

/-- A message is sent with the execution id that is next, or nothing is sent. -/
theorem Step.sentTo (hstep : Step config s label s') :
    (∃ client sending, label = .send client sending.outgoing ∧
      sending.stamp.execId = s.nextExecId ∧
      ∀ other, s'.sentTo other =
        if other = client then s.sentTo client ++ [sending] else s.sentTo other) ∨
    ∀ other, s'.sentTo other = s.sentTo other := by
  have hsame : ∀ {client : Nat} {thread thread' : ClientThread},
      s.clients client = some thread → thread'.sent = thread.sent →
      ∀ other, (s.setClient client thread').sentTo other = s.sentTo other := by
    intro client thread thread' hclient hsent other
    rw [sentTo_setClient]
    split
    · rename_i heq
      rw [heq, sentTo_eq hclient, hsent]
    · rfl
  cases hstep with
  | @accept client hfresh =>
    refine .inr fun other => ?_
    rw [sentTo_setClient]
    split
    · rename_i heq
      rw [heq, ClientThreads.sentTo, hfresh]
      rfl
    · rfl
  | receive _ hclient | refuse hclient | core _ _ hclient | heartbeat hclient
  | coreClosed hclient | timeout hclient | leave hclient => exact .inr (hsame hclient rfl)
  | fix _ hclient => exact .inr (hsame hclient rfl)
  | @send client thread outgoing rest stamp hclient hunsent hexecId hfits =>
    refine .inl ⟨client, thread.sending outgoing stamp, rfl, hexecId, fun other => ?_⟩
    rw [sentTo_eq hclient]
    exact sentTo_setClient other
  | fail _ hclient => exact .inr (hsame hclient rfl)
  | draw => exact .inr fun _ => rfl

theorem Step.nextExecId (hstep : Step config s label s') :
    s'.nextExecId = if label.draws then s.nextExecId + 1 else s.nextExecId := by
  cases hstep <;> rfl

/-! ## Runs -/

/-- How many execution ids were used up. -/
def drawn (labels : List Label) : Nat := labels.countP Label.draws

theorem drawn_append (labels : List Label) (label : Label) :
    drawn (labels ++ [label]) = drawn labels + if label.draws then 1 else 0 := by
  rw [drawn, List.countP_append, List.countP_singleton]
  rfl

/-- The ids up to the next one are those that were drawn, and each went into one message at most. -/
structure Drawn (labels : List Label) (s : ClientThreads) : Prop where
  next : s.nextExecId = UInt64.ofNat (drawn labels + 1)
  earlier : ∀ (client i : Nat) (sending : Sending), (s.sentTo client)[i]? = some sending →
    sending.outgoing.drawsExecId = true →
    ∃ k < drawn labels, sending.stamp.execId = UInt64.ofNat (k + 1)
  unique : ∀ (client client' i j : Nat) (sending sending' : Sending),
    (s.sentTo client)[i]? = some sending → (s.sentTo client')[j]? = some sending' → sending.outgoing.drawsExecId = true →
    sending'.outgoing.drawsExecId = true → sending.stamp.execId = sending'.stamp.execId →
    client = client' ∧ i = j

/-- A later id is another one, as long as the counter has not gone around. -/
theorem execId_ne {k n : Nat} (hlt : k < n) (hn : n < 2 ^ 64) :
    UInt64.ofNat (k + 1) ≠ UInt64.ofNat (n + 1) := by
  intro heq
  have hmod := congrArg UInt64.toNat heq
  rw [UInt64.toNat_ofNat', UInt64.toNat_ofNat'] at hmod
  omega

theorem Drawn.step (h : Drawn labels s) (hstep : Step config s label s')
    (hcount : drawn (labels ++ [label]) ≤ 2 ^ 64) : Drawn (labels ++ [label]) s' := by
  have hnext : s'.nextExecId = UInt64.ofNat (drawn (labels ++ [label]) + 1) := by
    rw [hstep.nextExecId, drawn_append, h.next]
    split
    · exact (UInt64.ofNat_add _ 1).symm
    · rfl
  have hgrown : drawn labels ≤ drawn (labels ++ [label]) := by
    rw [drawn_append]
    exact Nat.le_add_right _ _
  rcases hstep.sentTo with ⟨client, sending, rfl, hexecId, hsent⟩ | hsent
  swap
  · refine ⟨hnext, fun other i sending hsending hdraws => ?_, ?_⟩
    · rw [hsent] at hsending
      obtain ⟨k, hk, heq⟩ := h.earlier other i sending hsending hdraws
      exact ⟨k, Nat.lt_of_lt_of_le hk hgrown, heq⟩
    · intro client client' i j sending sending' hsending hsending'
      rw [hsent] at hsending hsending'
      exact h.unique client client' i j sending sending' hsending hsending'
  -- an entry is as old as before, or the one that was sent now
  have hentry : ∀ other i found, (s'.sentTo other)[i]? = some found →
      (s.sentTo other)[i]? = some found ∨
        (other = client ∧ i = (s.sentTo client).length ∧ found = sending) := by
    intro other i found hfound
    rw [hsent] at hfound
    split at hfound
    · rename_i heq
      subst heq
      rw [List.getElem?_append] at hfound
      split at hfound
      · exact .inl hfound
      · rename_i hlong
        rw [List.getElem?_singleton] at hfound
        split at hfound
        · exact .inr ⟨rfl, by omega, (Option.some.inj hfound).symm⟩
        · cases hfound
    · exact .inl hfound
  have hdrawn : sending.outgoing.drawsExecId = true →
      drawn (labels ++ [.send client sending.outgoing]) = drawn labels + 1 := by
    intro hdraws
    rw [drawn_append, Label.draws, if_pos hdraws]
  have hother : ∀ (other i : Nat) (found : Sending), (s.sentTo other)[i]? = some found →
      found.outgoing.drawsExecId = true → sending.outgoing.drawsExecId = true →
      found.stamp.execId ≠ sending.stamp.execId := by
    intro other i found hfound hdraws hnew
    obtain ⟨k, hk, heq⟩ := h.earlier other i found hfound hdraws
    rw [hdrawn hnew] at hcount
    rw [heq, hexecId, h.next]
    exact execId_ne hk (by omega)
  refine ⟨hnext, fun other i found hfound hdraws => ?_, ?_⟩
  · rcases hentry other i found hfound with hold | ⟨-, -, rfl⟩
    · obtain ⟨k, hk, heq⟩ := h.earlier other i found hold hdraws
      exact ⟨k, Nat.lt_of_lt_of_le hk hgrown, heq⟩
    · exact ⟨drawn labels, by rw [hdrawn hdraws]; exact Nat.lt_succ_self _, hexecId.trans h.next⟩
  · intro client₁ client₂ i j found found' hfound hfound' hdraws hdraws' heq
    rcases hentry client₁ i found hfound with hold | ⟨rfl, rfl, rfl⟩
    · rcases hentry client₂ j found' hfound' with hold' | ⟨rfl, rfl, rfl⟩
      · exact h.unique client₁ client₂ i j found found' hold hold' hdraws hdraws' heq
      · exact absurd heq (hother client₁ i found hold hdraws hdraws')
    · rcases hentry client₂ j found' hfound' with hold' | ⟨rfl, rfl, rfl⟩
      · exact absurd heq.symm (hother client₂ j found' hold' hdraws' hdraws)
      · exact ⟨rfl, rfl⟩

theorem drawn_run (hrun : Run (Step config) {} labels s) (hcount : drawn labels ≤ 2 ^ 64) :
    Drawn labels s := by
  induction hrun with
  | nil => exact ⟨rfl, fun _ _ _ h => (by cases h), fun _ _ _ _ _ _ h => (by cases h)⟩
  | @snoc s₁ s₂ labels label _ hstep ih =>
    have hcount' := hcount
    rw [drawn_append] at hcount'
    exact (ih (by omega)).step hstep hcount

end ClientThreads

/-- An execution id names one message of one client, and the messages that have one are those of
type 8. -/
theorem exec_ids_unique {config : FixGatewayConfig} {labels : List ClientThreads.Label}
    {s : ClientThreads} (hrun : Run (ClientThreads.Step config) {} labels s)
    (hcount : ClientThreads.drawn labels ≤ 2 ^ 64) :
    (∀ (client client' : Nat) (thread thread' : ClientThread) (i j : Nat)
        (message message' : Message) (execId : Bytes),
      s.clients client = some thread → s.clients client' = some thread' →
      (thread.messages config)[i]? = some message → (thread'.messages config)[j]? = some message' →
      message.get 17 = some execId → message'.get 17 = some execId → client = client' ∧ i = j) ∧
    ∀ client thread, s.clients client = some thread → ∀ message ∈ thread.messages config,
      ((message.get 17).isSome = true ↔ message.get 35 = some (text "8")) := by
  have hsent : ∀ {client : Nat} {thread : ClientThread} {i : Nat} {message : Message},
      s.clients client = some thread → (thread.messages config)[i]? = some message →
      ∃ sending, (s.sentTo client)[i]? = some sending ∧
        message = sending.message config (UInt64.ofNat (1 + i)) := by
    intro client thread i message hclient hmessage
    rw [ClientThread.messages, List.getElem?_map, List.getElem?_zipIdx, Option.map_map,
      Option.map_eq_some_iff] at hmessage
    obtain ⟨sending, hsending, rfl⟩ := hmessage
    rw [ClientThreads.sentTo_eq hclient]
    exact ⟨sending, hsending, rfl⟩
  have hdrawn : ∀ {sending : Sending} {n : UInt64} {execId : Bytes},
      (sending.message config n).get 17 = some execId →
      sending.outgoing.drawsExecId = true ∧ execId = decimal sending.stamp.execId.toNat := by
    intro sending n execId hexecId
    rw [Sending.get_execId] at hexecId
    split at hexecId
    · rename_i hdraws
      exact ⟨hdraws, (Option.some.inj hexecId).symm⟩
    · cases hexecId
  constructor
  · intro client client' thread thread' i j message message' execId hclient hclient' hmessage
      hmessage' hexecId hexecId'
    obtain ⟨sending, hsending, rfl⟩ := hsent hclient hmessage
    obtain ⟨sending', hsending', rfl⟩ := hsent hclient' hmessage'
    obtain ⟨hdraws, heq⟩ := hdrawn hexecId
    obtain ⟨hdraws', heq'⟩ := hdrawn hexecId'
    exact (ClientThreads.drawn_run hrun hcount).unique client client' i j sending sending' hsending
      hsending' hdraws hdraws' (UInt64.toNat_inj.mp (decimal_injective (heq.symm.trans heq')))
  · intro client thread hclient message hmessage
    obtain ⟨i, hi⟩ := List.getElem?_of_mem hmessage
    obtain ⟨sending, -, rfl⟩ := hsent hclient hi
    exact Sending.execId_iff config _ sending

/-- Two clients log on, and each has an order refused. -/
theorem exec_ids_unique_rejects : ∃ labels s thread thread' message message',
    Run (ClientThreads.Step {}) {} labels s ∧ s.clients 0 = some thread ∧
    s.clients 1 = some thread' ∧ (thread.messages {})[1]? = some message ∧
    (thread'.messages {})[1]? = some message' ∧ (message.get 17).isSome = true ∧
    message.get 17 ≠ message'.get 17 := by
  -- an order with nothing in it, behind the Logon
  have hlogon : extractOne (Fix.encode .logon ++ Fix.encode (.client "D" "2")) =
      (.messageReady (Fix.encode .logon), Fix.encode (.client "D" "2")) := by
    decide +kernel
  have hparse : parse (Fix.encode .logon) = .ok .logon := by decide +kernel
  have horder : extractOne (Fix.encode (.client "D" "2")) =
      (.messageReady (Fix.encode (.client "D" "2")), []) := by
    decide +kernel
  have hparse' : parse (Fix.encode (.client "D" "2")) = .ok (.client "D" "2") := by decide +kernel
  have r₁ : Run (ClientThreads.Step {}) {} _ _ := (Run.nil _).snoc (l := .accept 0) (.accept rfl)
  have r₂ := r₁.snoc (l := .accept 1) (.accept rfl)
  have r₃ := r₂.snoc (l := .receive 0 (Fix.encode .logon ++ Fix.encode (.client "D" "2")))
    (.receive _ rfl ⟨rfl, rfl⟩)
  have r₄ := r₃.snoc (l := .receive 1 (Fix.encode .logon ++ Fix.encode (.client "D" "2")))
    (.receive _ rfl ⟨rfl, rfl⟩)
  have r₅ := r₄.snoc
    (@ClientThreads.Step.fix {} _ 0 _ _ _ _ .reachable rfl ⟨rfl, rfl⟩ rfl hlogon hparse)
  have r₆ := r₅.snoc
    (@ClientThreads.Step.fix {} _ 1 _ _ _ _ .reachable rfl ⟨rfl, rfl⟩ rfl hlogon hparse)
  have r₇ := r₆.snoc (@ClientThreads.Step.send {} _ 0 _ (.reply (.logon 30)) []
    ⟨[], 1, [], by decide, by decide⟩ rfl (by decide +kernel) rfl (by decide +kernel))
  have r₈ := r₇.snoc (@ClientThreads.Step.send {} _ 1 _ (.reply (.logon 30)) []
    ⟨[], 1, [], by decide, by decide⟩ rfl (by decide +kernel) rfl (by decide +kernel))
  have r₉ := r₈.snoc
    (@ClientThreads.Step.fix {} _ 0 _ _ _ _ .reachable rfl ⟨rfl, rfl⟩ rfl horder hparse')
  have r₁₀ := r₉.snoc
    (@ClientThreads.Step.fix {} _ 1 _ _ _ _ .reachable rfl ⟨rfl, rfl⟩ rfl horder hparse')
  have r₁₁ := r₁₀.snoc (@ClientThreads.Step.send {} _ 1 _
    (.reply (.newReject (text "MISSING") (text "UNKNOWN") (text "?") (text "0")
      "required FIX tag 40 is missing")) []
    ⟨[], 1, [], by decide, by decide⟩ rfl (by decide +kernel) rfl (by decide +kernel))
  have r₁₂ := r₁₁.snoc (@ClientThreads.Step.send {} _ 0 _
    (.reply (.newReject (text "MISSING") (text "UNKNOWN") (text "?") (text "0")
      "required FIX tag 40 is missing")) []
    ⟨[], 2, [], by decide, by decide⟩ rfl (by decide +kernel) rfl (by decide +kernel))
  refine ⟨_, _, _, _, _, _, r₁₂, rfl, rfl, rfl, rfl, by decide +kernel, fun heq => ?_⟩
  have hexecId : (Sending.message {} 2 ⟨.reply (.newReject (text "MISSING") (text "UNKNOWN")
      (text "?") (text "0") "required FIX tag 40 is missing"),
      ⟨[], 2, [], by decide, by decide⟩, text "CLIENT"⟩).get 17 = some (text "2") := by
    decide +kernel
  have hone := (@exec_ids_unique {} _ _ r₁₂ (by decide +kernel)).1 0 1 _ _ 1 1 _ _ _ rfl rfl rfl rfl
    hexecId (heq.symm.trans hexecId)
  cases hone.1

end ExchangeLab

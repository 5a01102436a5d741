import ExchangeLab.Server.Concurrent
import ExchangeLab.Server.Responses

/-!
# ExchangeLab.Server.Serial

Runs of the server in which no thread starts on a frame while another has still something to send.
Every send is a step of its own, and connections, disconnections and the kill switch come in between.

* `journaled_serial`: with a journal every run is one of these.
* `serial_feed`: they send what handling frames one after the other sends, in the same order and with
  the same numbers; only who is connected when something is sent to all may differ.
-/

namespace ExchangeLab

open Wire Protocol Container ExchangeServer Transition

/-- A message without the connections it went to. -/
def Sent.frame (sent : Sent) : Nat × Emission × Bytes :=
  (sent.sequenceNumber, sent.emission, sent.message)

namespace ExchangeServer

/-- The numbers come from the counter, and the rest from the emissions. -/
theorem emit_frame (emission : Emission) {server server' : ExchangeServer}
    (h : server'.nextSequenceNumber = server.nextSequenceNumber) :
    (emit emission server').2.map Sent.frame = (emit emission server).2.map Sent.frame ∧
      (emit emission server').1 =
        server'.withSequence (emit emission server).1.nextSequenceNumber := by
  unfold emit
  split
  · exact ⟨rfl, by rw [← h]; rfl⟩
  · rw [h]
    exact ⟨rfl, rfl⟩

theorem emitAll_frames (emissions : List Emission) {server server' : ExchangeServer}
    (h : server'.nextSequenceNumber = server.nextSequenceNumber) :
    (emitAll emissions server').2.map Sent.frame = (emitAll emissions server).2.map Sent.frame ∧
      (emitAll emissions server').1 =
        server'.withSequence (emitAll emissions server).1.nextSequenceNumber := by
  induction emissions generalizing server server' with
  | nil =>
    refine ⟨rfl, ?_⟩
    simp only [emitAll]
    rw [← h]
    rfl
  | cons emission emissions ih =>
    obtain ⟨hsent, hstate⟩ := emit_frame emission h
    have hcounter : (emit emission server').1.nextSequenceNumber =
        (emit emission server).1.nextSequenceNumber := by
      rw [hstate]
      rfl
    obtain ⟨hrest, hlast⟩ := ih hcounter
    refine ⟨?_, ?_⟩
    · rw [emitAll_cons, emitAll_cons, List.map_append, List.map_append, hsent, hrest]
    · rw [emitAll_cons, emitAll_cons, hlast, hstate]
      rfl

end ExchangeServer

namespace Concurrent

/-- No other thread has anything to send when one starts on a frame. -/
def Alone (c : Concurrent) : Label → Prop
  | .handle .. => ∀ other, c.sending other = []
  | _ => True

def SerialStep (c : Concurrent) (label : Label) (c' : Concurrent) : Prop :=
  Step c label c' ∧ c.Alone label

def Label.sent : Label → List Sent
  | .send _ sent => sent
  | _ => []

/-- All that was sent, in order. -/
def feed (labels : List Label) : List Sent := labels.flatMap Label.sent

variable {limits : RiskLimits} {server₀ : ExchangeServer} {labels : List Label} {label : Label}
  {c c' : Concurrent} {socket : Socket}

theorem journaled {file : Option Bytes} (hstart : start limits (some file) = some server₀)
    (h : Run Step ⟨server₀, fun _ => []⟩ labels c) : c.server.journal.isSome = true := by
  obtain ⟨log, n, hrun⟩ := sequential h
  obtain ⟨journal, hjournal⟩ := journaled_run hstart hrun
  rw [withSequence_journal] at hjournal
  exact Option.isSome_iff_exists.mpr ⟨journal, hjournal⟩

theorem journaled_serial {file : Option Bytes} (hstart : start limits (some file) = some server₀)
    (h : Run Step ⟨server₀, fun _ => []⟩ labels c) :
    Run SerialStep ⟨server₀, fun _ => []⟩ labels c := by
  induction h with
  | nil => exact .nil _
  | snoc hrun hstep ih =>
    refine ih.snoc ⟨hstep, ?_⟩
    cases hstep with
    | handle order hopen hready hhandled => exact hready.2 (journaled hstart hrun)
    | _ => trivial

theorem feed_snoc (labels : List Label) (label : Label) :
    feed (labels ++ [label]) = feed labels ++ label.sent := by
  rw [feed, List.flatMap_append, List.flatMap_singleton, feed]

/-- At most one thread has something to send, and once it has sent that, all is as if it had been
sent at once. -/
structure Behind (server₀ : ExchangeServer) (labels : List Label) (c : Concurrent)
    (busy : Socket) (log : List Event) : Prop where
  alone : ∀ other, other ≠ busy → c.sending other = []
  run : Run ExchangeServer.Step server₀ log (emitAll (c.sending busy) c.server).1
  sent : (feed labels ++ (emitAll (c.sending busy) c.server).2).map Sent.frame =
    (log.flatMap Event.sent).map Sent.frame

/-- A step of the accepting thread, of a session that leaves, or of an administrator is as well taken
after everything is sent. -/
theorem Behind.later {busy : Socket} {log : List Event} (h : Behind server₀ labels c busy log)
    {action : Action} {change : ExchangeServer → ExchangeServer} (hquiet : label.sent = [])
    (hcounter : (change c.server).nextSequenceNumber = c.server.nextSequenceNumber)
    (hcommutes : ∀ n server, change (server.withSequence n) = (change server).withSequence n)
    (hstep : ∀ n, ExchangeServer.Step (c.server.withSequence n) ⟨action, []⟩
      (change (c.server.withSequence n))) :
    Behind server₀ (labels ++ [label]) ⟨change c.server, c.sending⟩ busy
      (log ++ [⟨action, []⟩]) where
  alone := h.alone
  run := by
    obtain ⟨n, -, hstate⟩ := emitAll_state (c.sending busy) c.server
    have hrun := h.run
    rw [hstate] at hrun
    have hnext := hrun.snoc (hstep n)
    rw [(emitAll_frames (c.sending busy) hcounter).2, hstate]
    rwa [hcommutes] at hnext
  sent := by
    rw [feed_snoc, hquiet, List.append_nil, List.map_append,
      (emitAll_frames (c.sending busy) hcounter).1, ← List.map_append, h.sent, List.flatMap_append,
      List.flatMap_singleton, List.append_nil]

theorem Behind.step {busy : Socket} {log : List Event} (h : Behind server₀ labels c busy log)
    (hstep : SerialStep c label c') :
    ∃ busy' log', Behind server₀ (labels ++ [label]) c' busy' log' := by
  obtain ⟨hstep, halone⟩ := hstep
  cases hstep with
  | connect hvalid hfree =>
    exact ⟨busy, _, h.later rfl rfl (fun _ _ => rfl) fun _ => .connect hvalid hfree⟩
  | disconnect hopen hidle =>
    exact ⟨busy, _, h.later rfl rfl (fun _ _ => rfl) fun _ => .disconnect hopen⟩
  | setGlobalKillSwitch enabled =>
    exact ⟨busy, _, h.later rfl rfl (fun _ _ => rfl) fun _ => .setGlobalKillSwitch enabled⟩
  | @handle socket frame server₁ emissions order hopen hready hhandled =>
    have hrun := h.run
    have hsent := h.sent
    rw [halone busy] at hrun hsent
    rw [emitAll, List.append_nil] at hsent
    refine ⟨socket, log ++ [⟨.frame socket frame, (emitAll emissions server₁).2⟩],
      fun other hother => ?_, ?_, ?_⟩
    · exact (Function.update_of_ne hother _ _).trans (halone other)
    · dsimp only
      rw [Function.update_self]
      exact hrun.snoc (.frame order hopen hhandled)
    · dsimp only
      rw [Function.update_self, feed_snoc, show Label.sent (.handle socket frame emissions) = [] from rfl,
        List.append_nil, List.map_append, hsent, List.flatMap_append, List.flatMap_singleton,
        List.map_append]
  | @send socket emission rest hnext =>
    -- the thread that sends is the one that has something to send
    obtain rfl : socket = busy := by
      by_contra hne
      rw [h.alone socket hne] at hnext
      cases hnext
    have hrun := h.run
    have hsent := h.sent
    rw [hnext, emitAll_cons] at hrun hsent
    refine ⟨socket, log, fun other hother => ?_, ?_, ?_⟩
    · exact (Function.update_of_ne hother _ _).trans (h.alone other hother)
    · dsimp only
      rw [Function.update_self]
      exact hrun
    · dsimp only
      rw [Function.update_self, feed_snoc, List.append_assoc]
      exact hsent

/-- When all is sent, a run of these is one that sends everything at once. -/
theorem serial_feed (h : Run SerialStep ⟨server₀, fun _ => []⟩ labels c)
    (hfinished : ∀ socket, c.sending socket = []) :
    ∃ log, Run ExchangeServer.Step server₀ log c.server ∧
      (feed labels).map Sent.frame = (log.flatMap Event.sent).map Sent.frame := by
  obtain ⟨busy, log, hbehind⟩ : ∃ busy log, Behind server₀ labels c busy log := by
    refine h.history (P := fun labels c => ∃ busy log, Behind server₀ labels c busy log)
      ⟨0, [], fun _ _ => rfl, .nil _, rfl⟩ ?_
    rintro labels c label c' - ⟨busy, log, hbehind⟩ hstep
    exact hbehind.step hstep
  have hrun := hbehind.run
  have hsent := hbehind.sent
  rw [hfinished busy] at hrun hsent
  rw [emitAll, List.append_nil] at hsent
  exact ⟨log, hrun, hsent⟩

/-- A thread sends all it has. -/
theorem flush {emissions : List Emission} (h : c.sending socket = emissions) :
    ∃ labels, Run SerialStep c labels
        ⟨(emitAll emissions c.server).1, Function.update c.sending socket []⟩ ∧
      feed labels = (emitAll emissions c.server).2 := by
  induction emissions generalizing c with
  | nil =>
    have hsame : Function.update c.sending socket [] = c.sending := by
      rw [← h, Function.update_eq_self]
    exact ⟨[], by rw [hsame]; exact .nil c, rfl⟩
  | cons emission rest ih =>
    obtain ⟨labels, hrun, hfeed⟩ := ih (c := ⟨(emit emission c.server).1,
      Function.update c.sending socket rest⟩) (Function.update_self ..)
    rw [Function.update_idem] at hrun
    refine ⟨_, .cons ⟨.send h, trivial⟩ hrun, ?_⟩
    rw [emitAll_cons, ← hfeed]
    rfl

end Concurrent

end ExchangeLab

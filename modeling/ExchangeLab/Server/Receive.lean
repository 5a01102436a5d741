import ExchangeLab.Server.Handling
import ExchangeLab.Protocol.Codecs

/-!
# ExchangeLab.Server.Receive

How a connection turns the bytes it receives into frames: `handle_client` and
`process_receive_buffer`. Handling a frame is left out here; what counts is which frames are handled.

* `nextMessage`: one turn of the loop.
* `nextMessage_eq_message`, `nextMessage_eq_discarded`: what each turn has found.
* `Parses`: the complete frames at the front of a stream, and a rest that starts with none.
* `segmentation_free_iff`: when the frames handled do not depend on how the stream is cut.
-/

namespace ExchangeLab

open Wire Protocol ExchangeServer

/-! ## The receive loop -/

inductive NextMessage where
  | incomplete
  | discarded
  | message (frame : Frame) (rest : Bytes)

/-- One turn of `process_receive_buffer`. -/
def nextMessage (buffer : Bytes) : NextMessage :=
  if buffer.length < headerSize then .incomplete
  else
    match h : decodeHeader (buffer.take headerSize) with
    | none => .discarded
    | some header =>
      if hlarge : header.bodySize.toNat > maximumBodySize then .discarded
      else
        let fullMessageSize := headerSize + header.bodySize.toNat
        if hshort : buffer.length < fullMessageSize then .incomplete
        else
          .message
            { header := header
              body := (buffer.drop headerSize).take header.bodySize.toNat
              magic := (decodeHeader_valid h).1
              version := (decodeHeader_valid h).2
              size := by rw [List.length_take, List.length_drop]; omega
              bounded := by rw [List.length_take, List.length_drop]; omega }
            (buffer.drop fullMessageSize)

/-- The frames that `process_receive_buffer` handles, in order, and what it leaves in the buffer. A
header that is invalid or announces too large a body clears the buffer. -/
def receiveLoop : Nat → Bytes → List Frame × Bytes
  | 0, buffer => ([], buffer)
  | fuel + 1, buffer =>
    match nextMessage buffer with
    | .incomplete => ([], buffer)
    | .discarded => ([], [])
    | .message frame rest =>
      let (frames, rest) := receiveLoop fuel rest
      (frame :: frames, rest)

/-- Every message is at least a header long, so the length of the buffer is fuel enough. -/
def processReceiveBuffer (buffer : Bytes) : List Frame × Bytes := receiveLoop buffer.length buffer

/-- `handle_client`: the chunks are received one after the other. -/
def receiveChunk (state : List Frame × Bytes) (chunk : Bytes) : List Frame × Bytes :=
  let (frames, rest) := processReceiveBuffer (state.2 ++ chunk)
  (state.1 ++ frames, rest)

def handleClient (chunks : List Bytes) : List Frame := (chunks.foldl receiveChunk ([], [])).1

/-! ## The front of a buffer -/

/-- There is a header, and it is invalid or announces too large a body. -/
def Malformed (buffer : Bytes) : Prop :=
  headerSize ≤ buffer.length ∧ ∀ header, decodeHeader (buffer.take headerSize) = some header →
    maximumBodySize < header.bodySize.toNat

theorem Frame.eq_of {frame frame' : Frame} (hheader : frame.header = frame'.header)
    (hbody : frame.body = frame'.body) : frame = frame' := by
  cases frame
  cases frame'
  cases hheader
  cases hbody
  rfl

section Front

variable {buffer rest : Bytes} {frame : Frame}

theorem nextMessage_eq_discarded : nextMessage buffer = .discarded ↔ Malformed buffer := by
  unfold nextMessage Malformed
  split
  · rename_i hshort
    exact ⟨fun h => (by cases h), fun h => absurd h.1 (by omega)⟩
  rename_i hlong
  split
  · rename_i hnone
    rw [hnone]
    exact ⟨fun _ => ⟨by omega, fun _ h => (by cases h)⟩, fun _ => rfl⟩
  · rename_i header hheader
    have hiff : (∀ header', decodeHeader (buffer.take headerSize) = some header' →
        maximumBodySize < header'.bodySize.toNat) ↔ maximumBodySize < header.bodySize.toNat := by
      refine ⟨fun h => h header hheader, fun h header' heq => ?_⟩
      rw [hheader] at heq
      cases heq
      exact h
    rw [and_iff_right (by omega), hiff]
    split
    · rename_i hlarge
      exact ⟨fun _ => hlarge, fun _ => rfl⟩
    · rename_i hlarge
      refine ⟨fun h => ?_, fun h => absurd h (by omega)⟩
      simp only at h
      split at h <;> cases h

/-- A turn finds a message exactly when the buffer begins with its bytes. -/
theorem nextMessage_eq_message : nextMessage buffer = .message frame rest ↔
    buffer = frame.record ++ rest := by
  constructor
  · intro h
    unfold nextMessage at h
    split at h
    · cases h
    split at h
    · cases h
    rename_i header hheader
    split at h
    · cases h
    simp only at h
    split at h
    · cases h
    · injection h with hframe hrest
      subst hframe hrest
      rw [Frame.record, header_exact.canonical _ _ hheader, List.append_assoc, ← List.drop_drop,
        List.take_append_drop, List.take_append_drop]
  · rintro rfl
    have hlen : (encodeHeader frame.header).length = headerSize := length_encodeHeader _
    have htake : (frame.record ++ rest).take headerSize = encodeHeader frame.header := by
      rw [Frame.record, List.append_assoc, List.take_left' hlen]
    have hdecode : decodeHeader ((frame.record ++ rest).take headerSize) = some frame.header := by
      rw [htake, decodeHeader_encodeHeader frame.magic frame.version]
    have hsize := frame.size
    have hbounded := frame.bounded
    have hlength : (frame.record ++ rest).length = headerSize + frame.header.bodySize.toNat + rest.length := by
      rw [List.length_append, frame.record_length, hsize]
    unfold nextMessage
    rw [if_neg (by omega)]
    split
    · rename_i hnone
      rw [hdecode] at hnone
      cases hnone
    rename_i header hheader
    obtain rfl : frame.header = header := Option.some.inj (hdecode.symm.trans hheader)
    rw [dif_neg (by omega)]
    simp only
    rw [dif_neg (by omega)]
    have hbody : ((frame.record ++ rest).drop headerSize).take frame.header.bodySize.toNat =
        frame.body := by
      rw [Frame.record, List.append_assoc, List.drop_left' hlen, List.take_left' hsize]
    have hrest : (frame.record ++ rest).drop (headerSize + frame.header.bodySize.toNat) = rest := by
      rw [List.drop_left' (by rw [frame.record_length, hsize])]
    congr 1
    exact Frame.eq_of rfl hbody

theorem not_malformed_message : ¬ Malformed (frame.record ++ rest) := by
  rw [← nextMessage_eq_discarded, nextMessage_eq_message.mpr rfl]
  intro h
  cases h

/-- Only the header counts. -/
theorem Malformed.append_iff (h : headerSize ≤ buffer.length) :
    Malformed (buffer ++ rest) ↔ Malformed buffer := by
  rw [Malformed, Malformed, List.take_append_of_le_length h, List.length_append]
  exact and_congr_left fun _ => ⟨fun _ => h, fun _ => by omega⟩

theorem Malformed.append (h : Malformed buffer) (rest : Bytes) : Malformed (buffer ++ rest) :=
  (Malformed.append_iff h.1).mpr h

end Front

/-! ## Parsing -/

/-- The stream is the frames and then a rest that does not begin with a complete frame. -/
structure Parses (stream : Bytes) (frames : List Frame) (rest : Bytes) : Prop where
  eq : stream = frames.flatMap Frame.record ++ rest
  stops : ∀ (frame : Frame) (after : Bytes), rest ≠ frame.record ++ after

namespace Parses

variable {stream more rest rest' : Bytes} {frames frames' : List Frame} {frame : Frame}

theorem of_malformed (h : Malformed stream) : Parses stream [] stream :=
  ⟨rfl, fun _ _ he => not_malformed_message (he ▸ h)⟩

theorem cons (h : Parses stream frames rest) :
    Parses (frame.record ++ stream) (frame :: frames) rest :=
  ⟨by rw [h.eq, List.flatMap_cons, List.append_assoc], h.stops⟩

/-- Parsing goes on where it stopped. -/
theorem append (h : Parses stream frames rest) (h' : Parses (rest ++ more) frames' rest') :
    Parses (stream ++ more) (frames ++ frames') rest' :=
  ⟨by rw [h.eq, List.append_assoc, h'.eq, List.flatMap_append, List.append_assoc], h'.stops⟩

theorem unique (h : Parses stream frames rest) (h' : Parses stream frames' rest') :
    frames = frames' ∧ rest = rest' := by
  induction frames generalizing stream frames' with
  | nil =>
    cases frames' with
    | nil => exact ⟨rfl, by simpa [h.eq] using h'.eq⟩
    | cons frame' frames' =>
      have hrest : rest = stream := by simpa using h.eq.symm
      exact absurd (hrest.trans (h'.eq.trans (by rw [List.flatMap_cons, List.append_assoc])))
        (h.stops frame' _)
  | cons frame frames ih =>
    cases frames' with
    | nil =>
      have hrest : rest' = stream := by simpa using h'.eq.symm
      exact absurd (hrest.trans (h.eq.trans (by rw [List.flatMap_cons, List.append_assoc])))
        (h'.stops frame _)
    | cons frame' frames' =>
      have hfront := h.eq
      have hfront' := h'.eq
      rw [List.flatMap_cons, List.append_assoc] at hfront hfront'
      have hnext := nextMessage_eq_message.mpr hfront
      rw [nextMessage_eq_message.mpr hfront'] at hnext
      injection hnext with hframe hstream
      obtain ⟨hframes, hrest⟩ := ih ⟨rfl, h.stops⟩ ⟨hstream.symm, h'.stops⟩
      exact ⟨by rw [hframe, hframes], hrest⟩

end Parses

/-- What `process_receive_buffer` leaves of a rest. -/
def leftover (rest : Bytes) : Bytes :=
  match nextMessage rest with
  | .discarded => []
  | _ => rest

theorem leftover_malformed {rest : Bytes} (h : Malformed rest) : leftover rest = [] := by
  rw [leftover, nextMessage_eq_discarded.mpr h]

theorem leftover_of_not_malformed {rest : Bytes} (h : ¬ Malformed rest) : leftover rest = rest := by
  unfold leftover
  split
  · rename_i hdiscarded
    exact absurd (nextMessage_eq_discarded.mp hdiscarded) h
  · rfl

theorem processReceiveBuffer_parses (buffer : Bytes) :
    ∃ frames rest, Parses buffer frames rest ∧
      processReceiveBuffer buffer = (frames, leftover rest) := by
  suffices ∀ fuel (buffer : Bytes), buffer.length ≤ fuel → ∃ frames rest,
      Parses buffer frames rest ∧ receiveLoop fuel buffer = (frames, leftover rest) from
    this buffer.length buffer (Nat.le_refl _)
  intro fuel
  induction fuel with
  | zero =>
    intro buffer hlen
    obtain rfl : buffer = [] := List.eq_nil_of_length_eq_zero (by omega)
    refine ⟨[], [], ⟨rfl, fun frame after h => ?_⟩, rfl⟩
    have hlen' := congrArg List.length h
    rw [List.length_append, frame.record_length, List.length_nil, headerSize] at hlen'
    omega
  | succ fuel ih =>
    intro buffer hlen
    cases hnext : nextMessage buffer with
    | incomplete =>
      refine ⟨[], buffer, ⟨rfl, fun frame after h => ?_⟩, ?_⟩
      · rw [nextMessage_eq_message.mpr h] at hnext
        cases hnext
      · simp only [receiveLoop, hnext, leftover]
    | discarded =>
      have hmalformed := nextMessage_eq_discarded.mp hnext
      exact ⟨[], buffer, .of_malformed hmalformed,
        by simp only [receiveLoop, hnext, leftover_malformed hmalformed]⟩
    | message frame rest =>
      have hbuffer := nextMessage_eq_message.mp hnext
      have hshort : rest.length ≤ fuel := by
        rw [hbuffer, List.length_append, frame.record_length, headerSize] at hlen
        omega
      obtain ⟨frames, rest', hparses, hloop⟩ := ih rest hshort
      exact ⟨frame :: frames, rest', hbuffer ▸ hparses.cons,
        by simp only [receiveLoop, hnext, hloop]⟩

/-! ## Chunks -/

/-- A way of cutting a stream into the chunks that are received; an empty one would end the
connection. -/
structure Cut (stream : Bytes) (chunks : List Bytes) : Prop where
  flatten : chunks.flatten = stream
  nonempty : ∀ chunk ∈ chunks, chunk ≠ []

/-- Behind a malformed header at the end of the parse there is no complete frame. -/
def NothingBehind (stream : Bytes) : Prop :=
  ∀ frames rest, Parses stream frames rest → Malformed rest →
    ∀ (skipped : Bytes) (frame : Frame) (after : Bytes), headerSize ≤ skipped.length →
      rest ≠ skipped ++ (frame.record ++ after)

/-- What is handled and buffered after a prefix of the stream: the parse of the prefix, and either
its rest or, once a header was discarded, a part of it behind that header. -/
def Received (received : Bytes) (frames : List Frame) (buffer : Bytes) : Prop :=
  ∃ rest, Parses received frames rest ∧
    (¬ Malformed rest ∧ buffer = rest ∨
      Malformed rest ∧ ∃ skipped : Bytes, headerSize ≤ skipped.length ∧ rest = skipped ++ buffer)

theorem Received.chunk {received buffer future : Bytes} {frames : List Frame}
    (h : Received received frames buffer) (chunk : Bytes)
    (hnothing : NothingBehind ((received ++ chunk) ++ future)) :
    Received (received ++ chunk) (receiveChunk (frames, buffer) chunk).1
      (receiveChunk (frames, buffer) chunk).2 := by
  obtain ⟨frames', rest', hparses', hprocess⟩ := processReceiveBuffer_parses (buffer ++ chunk)
  obtain ⟨rest, hparses, hrest⟩ := h
  simp only [receiveChunk, hprocess]
  rcases hrest with ⟨hok, rfl⟩ | ⟨hmalformed, skipped, hskipped, rfl⟩
  · refine ⟨rest', hparses.append hparses', ?_⟩
    by_cases hbad : Malformed rest'
    · exact .inr ⟨hbad, rest', hbad.1, by rw [leftover_malformed hbad, List.append_nil]⟩
    · exact .inl ⟨hbad, leftover_of_not_malformed hbad⟩
  · -- the header was discarded before: nothing is found behind it any more
    have hbad := hmalformed.append chunk
    have hnone : frames' = [] ∧ rest' = buffer ++ chunk := by
      cases frames' with
      | nil => exact ⟨rfl, by simpa using hparses'.eq.symm⟩
      | cons frame frames' =>
        have hwhole := hparses.append
          (.of_malformed (hmalformed.append (chunk ++ future)))
        rw [← List.append_assoc] at hwhole
        refine absurd ?_ (hnothing _ _ hwhole (hmalformed.append _) skipped frame
          (frames'.flatMap Frame.record ++ rest' ++ future) hskipped)
        rw [List.append_assoc, ← List.append_assoc buffer, hparses'.eq, List.flatMap_cons]
        simp only [List.append_assoc]
    obtain ⟨rfl, rfl⟩ := hnone
    rw [List.append_nil]
    have hparses'' : Parses (received ++ chunk) frames (skipped ++ buffer ++ chunk) := by
      simpa using hparses.append (.of_malformed hbad)
    refine ⟨skipped ++ buffer ++ chunk, hparses'', .inr ⟨hbad, ?_⟩⟩
    by_cases hagain : Malformed (buffer ++ chunk)
    · refine ⟨skipped ++ (buffer ++ chunk), ?_, by rw [leftover_malformed hagain]; simp⟩
      rw [List.length_append]
      omega
    · exact ⟨skipped, hskipped, by rw [leftover_of_not_malformed hagain, List.append_assoc]⟩

theorem received_chunks (chunks : List Bytes) (future : Bytes)
    (hnothing : NothingBehind (chunks.flatten ++ future)) :
    Received chunks.flatten (chunks.foldl receiveChunk ([], [])).1
      (chunks.foldl receiveChunk ([], [])).2 := by
  induction chunks using List.reverseRecOn generalizing future with
  | nil =>
    refine ⟨[], ⟨rfl, fun frame after h => ?_⟩, .inl ⟨fun h => ?_, rfl⟩⟩
    · have hlen := congrArg List.length h
      rw [List.length_append, frame.record_length, List.length_nil, headerSize] at hlen
      omega
    · exact absurd h.1 (by decide)
  | append_singleton chunks chunk ih =>
    rw [List.flatten_concat] at hnothing ⊢
    rw [List.foldl_append, List.foldl_cons, List.foldl_nil]
    refine Received.chunk (ih (chunk ++ future) ?_) chunk hnothing
    rwa [← List.append_assoc]

theorem frames_of_nothingBehind {stream : Bytes} {chunks : List Bytes} (hcut : Cut stream chunks)
    (hnothing : NothingBehind stream) : ∃ rest, Parses stream (handleClient chunks) rest := by
  rw [← hcut.flatten] at hnothing ⊢
  obtain ⟨rest, hparses, -⟩ := received_chunks chunks [] (by rwa [List.append_nil])
  exact ⟨rest, hparses⟩

/-- A frame behind a malformed header is lost or found, as the chunks have it. -/
theorem cuts_differ {stream rest skipped after : Bytes} {frames : List Frame} {frame : Frame}
    (hparses : Parses stream frames rest) (hmalformed : Malformed rest)
    (hskipped : headerSize ≤ skipped.length) (hrest : rest = skipped ++ (frame.record ++ after)) :
    ∃ chunks chunks', Cut stream chunks ∧ Cut stream chunks' ∧
      handleClient chunks ≠ handleClient chunks' := by
  have hbad : Malformed skipped := (Malformed.append_iff hskipped).mp (hrest ▸ hmalformed)
  have hheader : 0 < headerSize := by decide
  let front := frames.flatMap Frame.record ++ skipped
  let back := frame.record ++ after
  have hfront : front ≠ [] := by
    intro h
    rw [List.append_eq_nil_iff] at h
    rw [h.2, List.length_nil] at hskipped
    omega
  have hback : back ≠ [] := by
    intro h
    have hlen := frame.record_length
    rw [(List.append_eq_nil_iff.mp h).1, List.length_nil] at hlen
    omega
  have hstream : stream = front ++ back := by rw [hparses.eq, hrest, List.append_assoc]
  have hwhole : handleClient [stream] = frames := by
    obtain ⟨frames', rest', hparses', hprocess⟩ := processReceiveBuffer_parses stream
    rw [handleClient, List.foldl_cons, List.foldl_nil, receiveChunk, List.nil_append, hprocess]
    exact (hparses'.unique hparses).1
  have hcut : handleClient [front, back] = frames ++ (processReceiveBuffer back).1 := by
    obtain ⟨frames', rest', hparses', hprocess⟩ := processReceiveBuffer_parses front
    obtain ⟨rfl, rfl⟩ := hparses'.unique
      ⟨rfl, (Parses.of_malformed hbad).stops⟩
    simp only [handleClient, List.foldl_cons, List.foldl_nil, receiveChunk, List.nil_append,
      hprocess, leftover_malformed hbad]
  obtain ⟨frames', rest', hparses', hprocess⟩ := processReceiveBuffer_parses back
  refine ⟨[stream], [front, back], ⟨List.flatten_singleton, ?_⟩, ⟨by simp [hstream], ?_⟩, ?_⟩
  · simp [hstream, hfront]
  · simp [hfront, hback]
  · rw [hwhole, hcut, hprocess, ne_eq, List.self_eq_append_right]
    rintro rfl
    exact hparses'.stops frame after (by simpa using hparses'.eq.symm)

/-- What is handled does not depend on the chunks exactly when nothing stands behind a malformed
header. -/
theorem segmentation_free_iff (stream : Bytes) :
    (∀ chunks chunks', Cut stream chunks → Cut stream chunks' →
      handleClient chunks = handleClient chunks') ↔ NothingBehind stream := by
  constructor
  · intro h frames rest hparses hmalformed skipped frame after hskipped hrest
    obtain ⟨chunks, chunks', hcut, hcut', hne⟩ := cuts_differ hparses hmalformed hskipped hrest
    exact hne (h chunks chunks' hcut hcut')
  · intro hnothing chunks chunks' hcut hcut'
    obtain ⟨rest, hparses⟩ := frames_of_nothingBehind hcut hnothing
    obtain ⟨rest', hparses'⟩ := frames_of_nothingBehind hcut' hnothing
    exact (hparses.unique hparses').1

/-- A cancel of order 7. -/
def cancelBytes : Bytes :=
  encodeHeader ⟨protocolMagic, protocolVersion, .cancelOrder, 24, 1⟩ ++
    encodeCancelOrder ⟨7, 1, defaultSymbol⟩

/-- Twenty bytes that are no header and then a cancel: in one chunk the cancel is dropped, in two it
is handled. -/
theorem segmentation_differs :
    let noise : Bytes := List.replicate 20 0
    Cut (noise ++ cancelBytes) [noise ++ cancelBytes] ∧
      Cut (noise ++ cancelBytes) [noise, cancelBytes] ∧
      handleClient [noise ++ cancelBytes] ≠ handleClient [noise, cancelBytes] := by
  refine ⟨⟨by simp, by decide⟩, ⟨by simp, by decide⟩, fun h => ?_⟩
  have hlen := congrArg List.length h
  revert hlen
  decide

end ExchangeLab

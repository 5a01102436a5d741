import ExchangeLab.Lib.Stream

/-!
# ExchangeLab.Lib.Segmentation

What a reader in a loop finds, over all the ways to cut a stream into chunks of at most `limit`
bytes.

`feed buffer chunks` is what the loop finds from a buffer on: the messages, and whether it has given
up. It has an equation for each thing the reader can say of the next chunk, so nothing else about the
loop is needed.

* `Resumable`: a reader that has waited goes on as if it still had all the bytes it has seen.
* `Arrives`: what can be in the buffer when a chunk has arrived.
* `Settled`: a stream of which the reader says the same for every cut; `Settled.cutFree`.
* `feed_message`, `feed_ne_refused`: how a cut goes on behind a message, and how it can not.
-/

namespace Wire

variable {E : Type} (extract : Bytes → Extract E × Bytes)

def Waits (bytes : Bytes) : Prop := (extract bytes).1 = .needMoreData

def Refuses (bytes : Bytes) : Prop := ∃ error, (extract bytes).1 = .invalidData error

structure Resumable : Prop where
  empty : extract [] = (.needMoreData, [])
  shrinks : ∀ bytes message rest, extract bytes = (.messageReady message, rest) →
    rest.length < bytes.length
  resumes : ∀ bytes buffer, extract bytes = (.needMoreData, buffer) →
    ∀ more, extract (buffer ++ more) = extract (bytes ++ more)

/-- The stream in chunks, none of them empty. -/
structure Cuts (limit : Nat) (stream : Bytes) (chunks : List Bytes) : Prop where
  flatten : chunks.flatten = stream
  sizes : ∀ chunk ∈ chunks, chunk ≠ [] ∧ chunk.length ≤ limit

/-! ## The loop -/

def Received.outcome (received : Received E) : List Bytes × Bool :=
  (received.messages, received.error.isSome)

def feed (buffer : Bytes) (chunks : List Bytes) : List Bytes × Bool :=
  (chunks.foldl (receive extract) ⟨[], buffer, none⟩).outcome

/-- With messages found before. -/
def Received.behind (done : List Bytes) (received : Received E) : Received E :=
  { received with messages := done ++ received.messages }

section Loop

variable {extract} {done : List Bytes} {buffer chunk : Bytes} {chunks : List Bytes}

theorem drain_behind (fuel : Nat) (received : Received E) :
    drain extract fuel (received.behind done) = (drain extract fuel received).behind done := by
  induction fuel generalizing received with
  | zero => rfl
  | succ fuel ih =>
    have hbuffer : (received.behind done).buffer = received.buffer := rfl
    rw [drain, drain, hbuffer]
    split
    · rfl
    · rfl
    · rw [← ih, Received.behind, Received.behind, List.append_assoc]

theorem receive_behind (received : Received E) :
    receive extract (received.behind done) chunk = (receive extract received chunk).behind done := by
  obtain ⟨messages, buffer, error⟩ := received
  cases error with
  | none => exact drain_behind _ ⟨messages, buffer ++ chunk, none⟩
  | some error => rfl

theorem receiveAll_behind (received : Received E) :
    chunks.foldl (receive extract) (received.behind done) =
      (chunks.foldl (receive extract) received).behind done := by
  induction chunks generalizing received with
  | nil => rfl
  | cons chunk chunks ih => rw [List.foldl_cons, List.foldl_cons, receive_behind, ih]

/-- A loop that has given up stays so. -/
theorem receiveAll_error {received : Received E} (h : received.error.isSome = true) :
    chunks.foldl (receive extract) received = received := by
  induction chunks with
  | nil => rfl
  | cons chunk chunks ih =>
    obtain ⟨error, herror⟩ := Option.isSome_iff_exists.mp h
    rw [List.foldl_cons, receive, herror]
    exact ih

/-- Once there is a turn for each byte, more turns change nothing. -/
theorem drain_fuel (h : Resumable extract) {fuel fuel' : Nat} (hfuel : buffer.length ≤ fuel)
    (hfuel' : buffer.length ≤ fuel') :
    drain extract fuel ⟨done, buffer, none⟩ = drain extract fuel' ⟨done, buffer, none⟩ := by
  induction fuel generalizing done buffer fuel' with
  | zero =>
    obtain rfl : buffer = [] := List.length_eq_zero_iff.mp (by omega)
    cases fuel' with
    | zero => rfl
    | succ fuel' => simp only [drain, h.empty]
  | succ fuel ih =>
    cases fuel' with
    | zero =>
      obtain rfl : buffer = [] := List.length_eq_zero_iff.mp (by omega)
      simp only [drain, h.empty]
    | succ fuel' =>
      simp only [drain]
      split
      · rfl
      · rfl
      · rename_i message rest hready
        have hshrinks := h.shrinks buffer message rest hready
        exact ih (by omega) (by omega)

theorem feed_waits (h : Resumable extract) {buffer' : Bytes}
    (hwaits : extract (buffer ++ chunk) = (.needMoreData, buffer')) :
    feed extract buffer (chunk :: chunks) = feed extract buffer' chunks := by
  have hreceive : receive extract ⟨[], buffer, none⟩ chunk = ⟨[], buffer', none⟩ := by
    simp only [receive]
    rw [drain_fuel h (Nat.le_refl _) (Nat.le_succ _), drain]
    simp only [hwaits]
  rw [feed, feed, List.foldl_cons, hreceive]

theorem feed_refuses (h : Resumable extract) {error : E} {buffer' : Bytes}
    (hrefuses : extract (buffer ++ chunk) = (.invalidData error, buffer')) :
    feed extract buffer (chunk :: chunks) = ([], true) := by
  have hreceive : receive extract ⟨[], buffer, none⟩ chunk = ⟨[], buffer', some error⟩ := by
    simp only [receive]
    rw [drain_fuel h (Nat.le_refl _) (Nat.le_succ _), drain]
    simp only [hrefuses]
  rw [feed, List.foldl_cons, hreceive, receiveAll_error rfl]
  rfl

/-- Behind a message, what is left of the chunk is as good as a chunk of its own. -/
theorem feed_ready (h : Resumable extract) {message rest : Bytes}
    (hready : extract (buffer ++ chunk) = (.messageReady message, rest)) :
    feed extract buffer (chunk :: chunks) =
      (message :: (feed extract [] (rest :: chunks)).1, (feed extract [] (rest :: chunks)).2) := by
  have hshrinks := h.shrinks _ _ _ hready
  have hreceive : receive extract ⟨[], buffer, none⟩ chunk =
      (receive extract ⟨[], [], none⟩ rest).behind [message] := by
    simp only [receive, List.nil_append]
    rw [drain_fuel h (Nat.le_refl _) (Nat.le_succ _), drain]
    simp only [hready, List.nil_append]
    rw [drain_fuel h (Nat.le_of_lt hshrinks) (Nat.le_refl _), ← drain_behind]
    rfl
  rw [feed, feed, List.foldl_cons, List.foldl_cons, hreceive, receiveAll_behind]
  rfl

theorem feed_congr (h : Resumable extract) {buffer' : Bytes}
    (hsame : ∀ more, extract (buffer ++ more) = extract (buffer' ++ more)) :
    feed extract buffer chunks = feed extract buffer' chunks := by
  cases chunks with
  | nil => rfl
  | cons chunk chunks =>
    have hchunk := hsame chunk
    rcases hfound : extract (buffer' ++ chunk) with ⟨found, rest⟩
    rw [hfound] at hchunk
    cases found with
    | needMoreData => rw [feed_waits h hchunk, feed_waits h hfound]
    | invalidData error => rw [feed_refuses h hchunk, feed_refuses h hfound]
    | messageReady message => rw [feed_ready h hchunk, feed_ready h hfound]

/-- A reader that waits has the bytes, however little of them is kept. -/
theorem feed_kept (h : Resumable extract) (hwaits : Waits extract (buffer ++ chunk)) :
    feed extract buffer (chunk :: chunks) = feed extract (buffer ++ chunk) chunks := by
  rcases hfound : extract (buffer ++ chunk) with ⟨found, buffer'⟩
  rw [Waits, hfound] at hwaits
  subst hwaits
  rw [feed_waits h hfound]
  exact feed_congr h (h.resumes _ _ hfound)

theorem feed_nil_chunk (h : Resumable extract) :
    feed extract [] ([] :: chunks) = feed extract [] chunks :=
  feed_waits h h.empty

end Loop

/-! ## Streams that are read in one way -/

/-- The bytes since the last message, as they can be when a chunk has arrived. -/
inductive Arrives (limit : Nat) (stream : Bytes) : Bytes → Prop
  | start : Arrives limit stream []
  | chunk {bytes chunk : Bytes} (h : Arrives limit stream bytes) (hwaits : Waits extract bytes)
      (hlimit : chunk.length ≤ limit) (hbegins : bytes ++ chunk <+: stream) :
      Arrives limit stream (bytes ++ chunk)

/-- The messages in the stream, and whether the reader gives up, when neither depends on the cut. -/
inductive Settled (limit : Nat) : Bytes → List Bytes → Bool → Prop
  | waits {stream : Bytes}
      (h : ∀ bytes, Arrives extract limit stream bytes → Waits extract bytes) :
      Settled limit stream [] false
  | refused {stream : Bytes}
      (h : ∀ bytes, Arrives extract limit stream bytes → Waits extract bytes ∨ Refuses extract bytes)
      (hend : Arrives extract limit stream stream → ¬Waits extract stream) :
      Settled limit stream [] true
  | found {stream message : Bytes} {messages : List Bytes} {refused : Bool} (n : Nat)
      (h : ∀ bytes, Arrives extract limit stream bytes →
        (Waits extract bytes ∧ bytes.length < n) ∨
          (n ≤ bytes.length ∧ extract bytes = (.messageReady message, bytes.drop n)))
      (hn : n ≤ stream.length) (hrest : Settled limit (stream.drop n) messages refused) :
      Settled limit stream (message :: messages) refused

section Settled

variable {extract} {limit : Nat} {stream : Bytes} {messages : List Bytes} {refused : Bool}

theorem Arrives.begins {bytes : Bytes} (h : Arrives extract limit stream bytes) :
    bytes <+: stream := by
  cases h with
  | start => exact List.nil_prefix
  | chunk h hwaits hlimit hbegins => exact hbegins

theorem Settled.feed (hresumable : Resumable extract)
    (h : Settled extract limit stream messages refused) {buffer : Bytes} {chunks : List Bytes} (harrives : Arrives extract limit stream buffer)
    (hwaits : Waits extract buffer) (hcut : buffer ++ chunks.flatten = stream)
    (hsizes : ∀ chunk ∈ chunks, chunk.length ≤ limit) :
    Wire.feed extract buffer chunks = (messages, refused) := by
  induction h generalizing buffer chunks with
  | @waits stream h =>
    induction chunks generalizing buffer with
    | nil => rfl
    | cons chunk chunks ih =>
      rw [List.flatten_cons, ← List.append_assoc] at hcut
      have hnext : Arrives extract limit stream (buffer ++ chunk) :=
        .chunk harrives hwaits (hsizes chunk (.head _)) (hcut ▸ List.prefix_append _ _)
      rw [feed_kept hresumable (h _ hnext)]
      exact ih hnext (h _ hnext) hcut fun other hother => hsizes other (.tail _ hother)
  | @refused stream h hend =>
    induction chunks generalizing buffer with
    | nil =>
      rw [List.flatten_nil, List.append_nil] at hcut
      rw [hcut] at harrives hwaits
      exact absurd hwaits (hend harrives)
    | cons chunk chunks ih =>
      rw [List.flatten_cons, ← List.append_assoc] at hcut
      have hnext : Arrives extract limit stream (buffer ++ chunk) :=
        .chunk harrives hwaits (hsizes chunk (.head _)) (hcut ▸ List.prefix_append _ _)
      rcases h _ hnext with hgoes | ⟨error, hrefuses⟩
      · rw [feed_kept hresumable hgoes]
        exact ih hnext hgoes hcut fun other hother => hsizes other (.tail _ hother)
      · rcases hfound : extract (buffer ++ chunk) with ⟨found, rest⟩
        rw [hfound] at hrefuses
        subst hrefuses
        exact feed_refuses hresumable hfound
  | @found stream message messages refused n h hn hrest ihrest =>
    -- a buffer that waits ends within the message
    have hshort : ∀ bytes, Arrives extract limit stream bytes → Waits extract bytes →
        bytes.length < n := by
      intro bytes hbytes hgoes
      rcases h bytes hbytes with ⟨-, hlt⟩ | ⟨-, hready⟩
      · exact hlt
      · rw [Waits, hready] at hgoes
        cases hgoes
    induction chunks generalizing buffer with
    | nil =>
      rw [List.flatten_nil, List.append_nil] at hcut
      have := hshort buffer harrives hwaits
      rw [hcut] at this
      omega
    | cons chunk chunks ih =>
      rw [List.flatten_cons, ← List.append_assoc] at hcut
      have hlt := hshort buffer harrives hwaits
      have hlimit := hsizes chunk (.head _)
      have hsizes' : ∀ other ∈ chunks, other.length ≤ limit := fun other hother =>
        hsizes other (.tail _ hother)
      have hnext : Arrives extract limit stream (buffer ++ chunk) :=
        .chunk harrives hwaits hlimit (hcut ▸ List.prefix_append _ _)
      rcases h _ hnext with ⟨hgoes, -⟩ | ⟨hle, hready⟩
      · rw [feed_kept hresumable hgoes]
        exact ih hnext hgoes hcut hsizes'
      · have hflatten : [] ++ ((buffer ++ chunk).drop n :: chunks).flatten = stream.drop n := by
          rw [List.nil_append, List.flatten_cons, ← hcut, List.drop_append_of_le_length hle]
        have hempty : Waits extract [] := congrArg Prod.fst hresumable.empty
        rw [feed_ready hresumable hready, ihrest .start hempty hflatten]
        intro other hother
        rcases List.mem_cons.mp hother with rfl | hother
        · rw [List.length_drop, List.length_append]
          omega
        · exact hsizes' other hother

/-- What the loop finds in the stream does not depend on the cut. -/
def CutFree (extract : Bytes → Extract E × Bytes) (limit : Nat) (stream : Bytes) : Prop :=
  ∀ chunks chunks', Cuts limit stream chunks → Cuts limit stream chunks' →
    (receiveAll extract chunks).outcome = (receiveAll extract chunks').outcome

theorem Settled.receiveAll (hresumable : Resumable extract)
    (h : Settled extract limit stream messages refused) {chunks : List Bytes}
    (hcut : Cuts limit stream chunks) :
    (Wire.receiveAll extract chunks).outcome = (messages, refused) :=
  h.feed hresumable .start (congrArg Prod.fst hresumable.empty) hcut.flatten
    fun chunk hchunk => (hcut.sizes chunk hchunk).2

theorem Settled.cutFree (hresumable : Resumable extract)
    (h : Settled extract limit stream messages refused) : CutFree extract limit stream := by
  intro chunks chunks' hcut hcut'
  rw [h.receiveAll hresumable hcut, h.receiveAll hresumable hcut']

end Settled

/-! ## Cuts of which the end is known -/

section Cuts

variable {extract} {limit : Nat} {stream message : Bytes} {chunks more : List Bytes}

/-- Chunks that bring one message and nothing else. -/
theorem feed_message (h : Resumable extract) {bytes buffer : Bytes}
    (hwaits : ∀ front, front <+: bytes → front.length < bytes.length → Waits extract front)
    (hready : extract bytes = (.messageReady message, []))
    (hcut : buffer ++ chunks.flatten = bytes) (hshort : buffer.length < bytes.length)
    (hsizes : ∀ chunk ∈ chunks, chunk ≠ []) :
    feed extract buffer (chunks ++ more) =
      (message :: (feed extract [] more).1, (feed extract [] more).2) := by
  induction chunks generalizing buffer with
  | nil =>
    rw [List.flatten_nil, List.append_nil] at hcut
    rw [hcut] at hshort
    exact absurd hshort (Nat.lt_irrefl _)
  | cons chunk chunks ih =>
    rw [List.flatten_cons, ← List.append_assoc] at hcut
    have hbegins : buffer ++ chunk <+: bytes := hcut ▸ List.prefix_append _ _
    have hsizes' : ∀ other ∈ chunks, other ≠ [] := fun other hother => hsizes other (.tail _ hother)
    rw [List.cons_append]
    rcases Nat.lt_or_ge (buffer ++ chunk).length bytes.length with hlt | hge
    · rw [feed_kept h (hwaits _ hbegins hlt)]
      exact ih hcut hlt hsizes'
    · obtain rfl : buffer ++ chunk = bytes := hbegins.eq_of_length_le hge
      have hnone : chunks = [] := by
        cases chunks with
        | nil => rfl
        | cons other chunks =>
          rw [List.append_right_eq_self, List.flatten_cons, List.append_eq_nil_iff] at hcut
          exact absurd hcut.1 (hsizes' other (.head _))
      rw [feed_ready h hready, hnone, List.nil_append, feed_nil_chunk h]

/-- Where no more bytes are refused, the loop does not give up at once. -/
theorem feed_ne_refused (h : Resumable extract) {buffer : Bytes}
    (hstream : ∀ bytes, buffer <+: bytes → bytes <+: stream → ¬Refuses extract bytes)
    (hcut : buffer ++ chunks.flatten = stream) : feed extract buffer chunks ≠ ([], true) := by
  induction chunks generalizing buffer with
  | nil =>
    intro heq
    cases heq
  | cons chunk chunks ih =>
    rw [List.flatten_cons, ← List.append_assoc] at hcut
    have hlonger : buffer <+: buffer ++ chunk := List.prefix_append _ _
    have hnot := hstream (buffer ++ chunk) hlonger (hcut ▸ List.prefix_append _ _)
    rcases hfound : extract (buffer ++ chunk) with ⟨found, rest⟩
    rw [Refuses, hfound] at hnot
    cases found with
    | needMoreData =>
      rw [feed_kept h (congrArg Prod.fst hfound)]
      exact ih (fun bytes hbytes => hstream bytes (hlonger.trans hbytes)) hcut
    | invalidData error => exact absurd ⟨error, rfl⟩ hnot
    | messageReady message =>
      rw [feed_ready h hfound]
      intro heq
      cases heq

/-- The stream one byte at a time. -/
theorem cuts_bytes (hlimit : 1 ≤ limit) (stream : Bytes) :
    Cuts limit stream (stream.map fun byte => [byte]) := by
  refine ⟨?_, fun chunk hchunk => ?_⟩
  · rw [← List.flatMap_def]
    simp
  · obtain ⟨byte, -, rfl⟩ := List.mem_map.mp hchunk
    exact ⟨List.cons_ne_nil _ _, hlimit⟩

theorem Cuts.append {front rest : Bytes} (h : Cuts limit front chunks) (h' : Cuts limit rest more) :
    Cuts limit (front ++ rest) (chunks ++ more) := by
  refine ⟨by rw [List.flatten_append, h.flatten, h'.flatten], fun chunk hchunk => ?_⟩
  rcases List.mem_append.mp hchunk with hchunk | hchunk
  · exact h.sizes chunk hchunk
  · exact h'.sizes chunk hchunk

theorem Cuts.cons {chunk rest : Bytes} (hne : chunk ≠ []) (hlimit : chunk.length ≤ limit)
    (h : Cuts limit rest more) : Cuts limit (chunk ++ rest) (chunk :: more) := by
  refine ⟨by rw [List.flatten_cons, h.flatten], fun other hother => ?_⟩
  rcases List.mem_cons.mp hother with rfl | hother
  · exact ⟨hne, hlimit⟩
  · exact h.sizes other hother

/-- A first chunk of `n` bytes. -/
theorem Cuts.take {n : Nat} (hpos : 0 < n) (hlimit : n ≤ limit) (hlong : n ≤ stream.length)
    (h : Cuts limit (stream.drop n) more) : Cuts limit stream (stream.take n :: more) := by
  have hlength : (stream.take n).length = n := List.length_take_of_le hlong
  have hne : stream.take n ≠ [] := List.ne_nil_of_length_pos (by omega)
  have hcut := Cuts.cons hne (by omega) h
  rwa [List.take_append_drop] at hcut

end Cuts

end Wire

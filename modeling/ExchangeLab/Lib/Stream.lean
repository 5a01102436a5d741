import ExchangeLab.Lib.Bytes

/-!
# ExchangeLab.Lib.Stream

A byte stream received in chunks, and a reader that takes one message at a time off the front of what
has arrived: bytes by position, and the loop around such a reader.

* `find_append`, `substr_append`: searching and cutting where the string is known to be composed.
* `Delimits`: a reader that knows where each message ends, and waits for the rest of it.
* `Delimits.receiveAll`: such a reader finds the same messages however the stream is cut.
* `Delimits.receiveMany`: so do calls of it, one for each message, as far as the stream has arrived.
-/

namespace Wire

/-! ## Positions -/

/-- The position of the first such byte, from `start` on. -/
def find (byte : UInt8) (start : Nat) (bytes : Bytes) : Option Nat :=
  ((bytes.drop start).findIdx? (· = byte)).map (start + ·)

def substr (start count : Nat) (bytes : Bytes) : Bytes := (bytes.drop start).take count

section Positions

variable {byte : UInt8} {before chunk rest bytes whole : Bytes}

theorem findIdx?_append (h : byte ∉ chunk) :
    (chunk ++ byte :: rest).findIdx? (· = byte) = some chunk.length := by
  induction chunk with
  | nil => simp [List.findIdx?_cons]
  | cons b chunk ih =>
    rw [List.mem_cons, not_or] at h
    rw [List.cons_append, List.findIdx?_cons, ih h.2, if_neg (by simpa using Ne.symm h.1)]
    rfl

/-- The first such byte divides a string in one way. -/
theorem append_byte_inj {chunk' rest' : Bytes} (h : byte ∉ chunk) (h' : byte ∉ chunk')
    (heq : chunk ++ byte :: rest = chunk' ++ byte :: rest') : chunk = chunk' ∧ rest = rest' := by
  have hlength := @findIdx?_append byte chunk rest h
  rw [heq, findIdx?_append h', Option.some_inj] at hlength
  obtain ⟨hchunk, hrest⟩ := List.append_inj heq hlength.symm
  exact ⟨hchunk, (List.cons.inj hrest).2⟩

theorem find_append (h : byte ∉ chunk) :
    find byte before.length (before ++ (chunk ++ byte :: rest)) =
      some (before.length + chunk.length) := by
  rw [find, List.drop_left, findIdx?_append h, Option.map_some]

/-- Where a byte is found, it stands behind others that it is not among. -/
theorem find_eq_some {start i : Nat} (h : find byte start bytes = some i) :
    ∃ chunk rest, bytes.drop start = chunk ++ byte :: rest ∧ byte ∉ chunk ∧
      i = start + chunk.length := by
  obtain ⟨j, hj, rfl⟩ := Option.map_eq_some_iff.mp h
  have hmem : byte ∈ bytes.drop start := by
    obtain ⟨hlt, hbyte, -⟩ := List.findIdx?_eq_some_iff_getElem.mp hj
    rw [← of_decide_eq_true hbyte]
    exact List.getElem_mem hlt
  obtain ⟨chunk, rest, heq, hchunk⟩ := List.eq_append_cons_of_mem hmem
  refine ⟨chunk, rest, heq, hchunk, ?_⟩
  rw [heq, findIdx?_append hchunk] at hj
  rw [Option.some.inj hj]

theorem find_bounds {start i : Nat} (h : find byte start bytes = some i) :
    start ≤ i ∧ i < bytes.length := by
  obtain ⟨chunk, rest, hdrop, -, rfl⟩ := find_eq_some h
  have hlength := congrArg List.length hdrop
  rw [List.length_drop, List.length_append, List.length_cons] at hlength
  omega

theorem find_of_not_mem {start : Nat} (h : byte ∉ bytes.drop start) : find byte start bytes = none := by
  rw [find, Option.map_eq_none_iff, List.findIdx?_eq_none_iff]
  intro b hb
  exact decide_eq_false fun heq => h (heq ▸ hb)

theorem find_eq_none (h : byte ∉ chunk) : find byte before.length (before ++ chunk) = none :=
  find_of_not_mem (by rwa [List.drop_left])

theorem substr_append : substr before.length chunk.length (before ++ (chunk ++ rest)) = chunk := by
  rw [substr, List.drop_left, List.take_left]

/-- The front of a string that is composed of two. -/
theorem prefix_append_cases (h : bytes <+: chunk ++ rest) :
    (bytes <+: chunk ∧ bytes.length < chunk.length) ∨
      ∃ left, bytes = chunk ++ left ∧ left <+: rest := by
  rcases Nat.lt_or_ge bytes.length chunk.length with hlt | hge
  · exact .inl ⟨List.prefix_of_prefix_length_le h (List.prefix_append _ _) (Nat.le_of_lt hlt), hlt⟩
  · obtain ⟨left, rfl⟩ := List.prefix_of_prefix_length_le (List.prefix_append _ _) h hge
    exact .inr ⟨left, rfl, (List.prefix_append_right_inj _).mp h⟩

/-- What does not have the byte in it ends before the first such byte. -/
theorem length_le_of_begins (h : byte ∉ bytes) (hbegins : bytes <+: chunk ++ byte :: rest) :
    bytes.length ≤ chunk.length := by
  rcases prefix_append_cases hbegins with ⟨-, hlt⟩ | ⟨left, rfl, hleft⟩
  · exact Nat.le_of_lt hlt
  · cases left with
    | nil => rw [List.append_nil]
    | cons b left =>
      obtain ⟨rfl, -⟩ := List.cons_prefix_cons.mp hleft
      exact absurd (List.mem_append_right _ (.head _)) h

end Positions

/-! ## A reader in a loop -/

/-- What a reader finds at the front of the bytes it is given. -/
inductive Extract (E : Type) where
  | needMoreData
  | messageReady (message : Bytes)
  | invalidData (error : E)
  deriving DecidableEq, Repr

structure Received (E : Type) where
  messages : List Bytes := []
  buffer : Bytes := []
  /-- Why the stream was given up. -/
  error : Option E := none
  deriving DecidableEq, Repr

variable {E : Type}

/-- The reader is called until it needs more data or gives up. -/
def drain (extract : Bytes → Extract E × Bytes) : Nat → Received E → Received E
  | 0, received => received
  | fuel + 1, received =>
    match extract received.buffer with
    | (.needMoreData, buffer) => { received with buffer := buffer }
    | (.invalidData error, buffer) => { received with buffer := buffer, error := some error }
    | (.messageReady message, buffer) =>
      drain extract fuel
        { received with messages := received.messages ++ [message], buffer := buffer }

/-- A chunk arrives. No message is empty, so there are no more turns than bytes. -/
def receive (extract : Bytes → Extract E × Bytes) (received : Received E) (chunk : Bytes) :
    Received E :=
  match received.error with
  | some _ => received
  | none =>
    drain extract (received.buffer ++ chunk).length
      { received with buffer := received.buffer ++ chunk }

def receiveAll (extract : Bytes → Extract E × Bytes) (chunks : List Bytes) : Received E :=
  chunks.foldl (receive extract) {}

structure Delimits (extract : Bytes → Extract E × Bytes) (message : Bytes → Prop) : Prop where
  nonempty : ∀ bytes, message bytes → 0 < bytes.length
  empty : extract [] = (.needMoreData, [])
  incomplete : ∀ bytes front, message bytes → front <+: bytes → front.length < bytes.length →
    extract front = (.needMoreData, front)
  complete : ∀ bytes rest, message bytes → extract (bytes ++ rest) = (.messageReady bytes, rest)

namespace Delimits

variable {extract : Bytes → Extract E × Bytes} {message : Bytes → Prop}

/-- A loop over a buffer finds the messages that have arrived in full. -/
theorem drain (h : Delimits extract message) {later : Bytes} {fuel : Nat} {done todo : List Bytes}
    {buffer : Bytes} (hok : ∀ bytes ∈ todo, message bytes)
    (hcut : buffer ++ later = todo.flatten) (hfuel : buffer.length ≤ fuel) :
    ∃ found rest buffer', todo = found ++ rest ∧
      Wire.drain extract fuel ⟨done, buffer, none⟩ = ⟨done ++ found, buffer', none⟩ ∧
      buffer' ++ later = rest.flatten ∧ (later = [] → rest = []) := by
  induction fuel generalizing done todo buffer with
  | zero =>
    obtain rfl : buffer = [] := List.length_eq_zero_iff.mp (by omega)
    refine ⟨[], todo, [], rfl, ?_, hcut, fun hlater => ?_⟩
    · rw [Wire.drain, List.append_nil]
    · cases todo with
      | nil => rfl
      | cons first todo =>
        have hlength := congrArg List.length hcut
        have hpos := h.nonempty first (hok first (.head _))
        simp only [hlater, List.flatten_cons, List.length_append, List.length_nil] at hlength
        omega
  | succ fuel ih =>
    cases todo with
    | nil =>
      obtain ⟨rfl, rfl⟩ := List.append_eq_nil_iff.mp hcut
      refine ⟨[], [], [], rfl, ?_, rfl, fun _ => rfl⟩
      simp only [Wire.drain, h.empty, List.append_nil]
    | cons first todo =>
      have hfirst := hok first (.head _)
      have hpos := h.nonempty first hfirst
      rw [List.flatten_cons] at hcut
      rcases prefix_append_cases (hcut ▸ List.prefix_append buffer later) with
        ⟨hbegins, hshort⟩ | ⟨left, rfl, -⟩
      · refine ⟨[], first :: todo, buffer, rfl, ?_, hcut, fun hlater => ?_⟩
        · simp only [Wire.drain, h.incomplete first buffer hfirst hbegins hshort, List.append_nil]
        · have hlength := congrArg List.length hcut
          simp only [hlater, List.length_append, List.length_nil] at hlength
          omega
      · rw [List.append_assoc, List.append_cancel_left_eq] at hcut
        rw [List.length_append] at hfuel
        obtain ⟨found, rest, buffer', rfl, hdrain, hrest, hend⟩ := @ih (done ++ [first]) _ _
          (fun bytes hbytes => hok bytes (.tail _ hbytes)) hcut (by omega)
        refine ⟨first :: found, rest, buffer', rfl, ?_, hrest, hend⟩
        simp only [Wire.drain, h.complete first left hfirst]
        rw [hdrain, List.append_assoc, List.singleton_append]

theorem receive (h : Delimits extract message) {chunks : List Bytes} {done todo : List Bytes}
    {buffer : Bytes} (hok : ∀ bytes ∈ todo, message bytes)
    (hcut : buffer ++ chunks.flatten = todo.flatten) (hend : chunks = [] → todo = []) :
    chunks.foldl (Wire.receive extract) ⟨done, buffer, none⟩ = ⟨done ++ todo, [], none⟩ := by
  induction chunks generalizing done todo buffer with
  | nil =>
    rw [hend rfl] at hcut ⊢
    obtain ⟨rfl, -⟩ := List.append_eq_nil_iff.mp hcut
    rw [List.foldl_nil, List.append_nil]
  | cons chunk chunks ih =>
    rw [List.flatten_cons, ← List.append_assoc] at hcut
    obtain ⟨found, rest, buffer', rfl, hdrain, hrest, hlast⟩ :=
      @drain _ _ _ h _ _ done _ _ hok hcut (Nat.le_refl _)
    rw [List.foldl_cons, Wire.receive, hdrain, ih (fun bytes hbytes =>
      hok bytes (List.mem_append_right _ hbytes)) hrest fun hnil => hlast (by rw [hnil]; rfl),
      List.append_assoc]

/-- However the stream is cut, the messages in it are found in order, and nothing is left. -/
theorem receiveAll (h : Delimits extract message) {chunks todo : List Bytes}
    (hok : ∀ bytes ∈ todo, message bytes) (hcut : chunks.flatten = todo.flatten) :
    Wire.receiveAll extract chunks = ⟨todo, [], none⟩ := by
  refine h.receive hok hcut fun hnil => ?_
  cases todo with
  | nil => rfl
  | cons first todo =>
    have hpos := h.nonempty first (hok first (.head _))
    have hlength := congrArg List.length hcut
    simp only [hnil, List.flatten_nil, List.flatten_cons, List.length_append,
      List.length_nil] at hlength
    omega

end Delimits

/-! ## A reader that is called for each message -/

/-- The reader is given one chunk after the other, until there is a message. -/
def receiveOne (extract : Bytes → Extract E × Bytes) :
    List Bytes → Bytes → Option (Bytes × Bytes × List Bytes)
  | [], buffer =>
    match extract buffer with
    | (.messageReady message, buffer) => some (message, buffer, [])
    | _ => none
  | chunk :: chunks, buffer =>
    match extract buffer with
    | (.messageReady message, buffer) => some (message, buffer, chunk :: chunks)
    | (.invalidData _, _) => none
    | (.needMoreData, buffer) => receiveOne extract chunks (buffer ++ chunk)

/-- What so many calls return, up to the first that fails. -/
def receiveMany (extract : Bytes → Extract E × Bytes) : Nat → List Bytes → Bytes → List Bytes
  | 0, _, _ => []
  | calls + 1, chunks, buffer =>
    match receiveOne extract chunks buffer with
    | none => []
    | some (message, buffer, chunks) => message :: receiveMany extract calls chunks buffer

/-- The messages that have arrived in full when so many bytes of them have. -/
def arrived : Nat → List Bytes → List Bytes
  | _, [] => []
  | size, message :: messages =>
    if message.length ≤ size then message :: arrived (size - message.length) messages else []

/-- A message that is cut off does not count. -/
theorem arrived_append {size : Nat} {messages : List Bytes} {next : Bytes}
    (h : size < messages.flatten.length + next.length) :
    arrived size (messages ++ [next]) = arrived size messages := by
  induction messages generalizing size with
  | nil =>
    rw [List.flatten_nil, List.length_nil] at h
    exact if_neg (by omega)
  | cons message messages ih =>
    rw [List.flatten_cons, List.length_append] at h
    rw [List.cons_append, arrived, arrived]
    split
    · rw [ih (by omega)]
    · rfl

namespace Delimits

variable {extract : Bytes → Extract E × Bytes} {message : Bytes → Prop}

theorem receiveOne_none {chunks : List Bytes} {buffer : Bytes}
    (hwait : ∀ front, front <+: buffer ++ chunks.flatten → extract front = (.needMoreData, front)) :
    Wire.receiveOne extract chunks buffer = none := by
  induction chunks generalizing buffer with
  | nil =>
    rw [Wire.receiveOne, hwait buffer (List.prefix_append _ _)]
  | cons chunk chunks ih =>
    rw [List.flatten_cons, ← List.append_assoc] at hwait
    rw [Wire.receiveOne, hwait buffer (by rw [List.append_assoc]; exact List.prefix_append _ _)]
    exact ih hwait

theorem receiveOne (h : Delimits extract message) {chunks : List Bytes} {buffer first : Bytes}
    (hfirst : message first) (hcut : first <+: buffer ++ chunks.flatten) :
    ∃ buffer' chunks', Wire.receiveOne extract chunks buffer = some (first, buffer', chunks') ∧
      first ++ (buffer' ++ chunks'.flatten) = buffer ++ chunks.flatten := by
  have hready : ∀ {chunks : List Bytes} {buffer : Bytes}, first <+: buffer → ∃ buffer' chunks',
      Wire.receiveOne extract chunks buffer = some (first, buffer', chunks') ∧
        first ++ (buffer' ++ chunks'.flatten) = buffer ++ chunks.flatten := by
    rintro chunks _ ⟨left, rfl⟩
    refine ⟨left, chunks, ?_, (List.append_assoc _ _ _).symm⟩
    cases chunks with
    | nil => rw [Wire.receiveOne, h.complete first left hfirst]
    | cons chunk chunks => rw [Wire.receiveOne, h.complete first left hfirst]
  induction chunks generalizing buffer with
  | nil => exact hready (by rwa [List.flatten_nil, List.append_nil] at hcut)
  | cons chunk chunks ih =>
    rcases Nat.lt_or_ge buffer.length first.length with hshort | hlong
    · have hbegins : buffer <+: first :=
        List.prefix_of_prefix_length_le (List.prefix_append _ _) hcut (Nat.le_of_lt hshort)
      rw [List.flatten_cons, ← List.append_assoc] at hcut ⊢
      rw [Wire.receiveOne, h.incomplete first buffer hfirst hbegins hshort]
      exact ih hcut
    · exact hready (List.prefix_of_prefix_length_le hcut (List.prefix_append _ _) hlong)

/-- However the stream is cut, and wherever it ends, the calls return the messages that have arrived
in full, in order. -/
theorem receiveMany (h : Delimits extract message) {calls : Nat} {chunks : List Bytes}
    {buffer : Bytes} {todo : List Bytes} (hok : ∀ bytes ∈ todo, message bytes)
    (hcut : buffer ++ chunks.flatten <+: todo.flatten) :
    Wire.receiveMany extract calls chunks buffer =
      (arrived (buffer ++ chunks.flatten).length todo).take calls := by
  induction calls generalizing chunks buffer todo with
  | zero => rw [Wire.receiveMany, List.take_zero]
  | succ calls ih =>
    cases todo with
    | nil =>
      rw [List.flatten_nil, List.prefix_nil] at hcut
      have hnone : Wire.receiveOne extract chunks buffer = none := by
        refine receiveOne_none fun front hfront => ?_
        rw [hcut, List.prefix_nil] at hfront
        rw [hfront, h.empty]
      rw [Wire.receiveMany, hnone, arrived, List.take_nil]
    | cons first todo =>
      have hfirst := hok first (.head _)
      rw [List.flatten_cons] at hcut
      rcases prefix_append_cases hcut with ⟨hbegins, hshort⟩ | ⟨left, heq, hleft⟩
      · have hnone : Wire.receiveOne extract chunks buffer = none := by
          refine receiveOne_none fun front hfront => ?_
          have hle := hfront.length_le
          exact h.incomplete first front hfirst (hfront.trans hbegins) (by omega)
        rw [Wire.receiveMany, hnone, arrived, if_neg (by omega), List.take_nil]
      · obtain ⟨buffer', chunks', hone, hrest⟩ :=
          h.receiveOne hfirst (heq ▸ List.prefix_append first left)
        rw [heq, List.append_cancel_left_eq] at hrest
        rw [Wire.receiveMany, hone, heq, arrived, List.length_append, if_pos (by omega),
          List.take_succ_cons, Nat.add_sub_cancel_left, ← hrest]
        exact congrArg (first :: ·) (ih (fun bytes hbytes => hok bytes (.tail _ hbytes))
          (hrest ▸ hleft))

end Delimits

end Wire

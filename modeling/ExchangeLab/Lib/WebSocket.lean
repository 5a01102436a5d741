import ExchangeLab.Lib.Bytes

/-!
# ExchangeLab.Lib.WebSocket

WebSocket base framing as RFC 6455 defines it, for a receiver of frames that are not masked.

* `encodeBig`, `decodeBig`: integers in network byte order.
* `readLength`: a payload length in 7, 16 or 64 bits, in as few of them as it needs.
* `readFrame`: the frame at the front of the bytes, if a valid one is there in full.
* `receiveFrames_flatMap`: frames that are each read back are read back in order from one stream.
* `receiveFrames_prefix`: and the first of them from a part of it.
-/

namespace Wire

/-! ## Network byte order -/

/-- The `size` low bytes of `n`, most significant first. -/
def encodeBig (size n : Nat) : Bytes := (encode size n).reverse

def decodeBig (bytes : Bytes) : Nat := decode bytes.reverse

@[simp] theorem length_encodeBig (size n : Nat) : (encodeBig size n).length = size := by
  rw [encodeBig, List.length_reverse, length_encode]

theorem decodeBig_encodeBig {size n : Nat} (h : n < 256 ^ size) :
    decodeBig (encodeBig size n) = n := by
  rw [decodeBig, encodeBig, List.reverse_reverse, decode_encode h]

theorem encode_succ (size n : Nat) :
    encode (size + 1) n = encode size n ++ [UInt8.ofNat (n / 256 ^ size % 256)] := by
  induction size generalizing n with
  | zero => rw [Nat.pow_zero, Nat.div_one]; rfl
  | succ size ih =>
    rw [encode, ih (n / 256), encode, List.cons_append, Nat.div_div_eq_div_mul, ← Nat.pow_succ']

/-- The most significant byte comes first. -/
theorem encodeBig_succ (size n : Nat) :
    encodeBig (size + 1) n = UInt8.ofNat (n / 256 ^ size % 256) :: encodeBig size n := by
  rw [encodeBig, encode_succ, List.reverse_append, List.reverse_singleton, List.singleton_append]
  rfl

/-! ## Frames -/

inductive Opcode where
  | continuation
  | text
  | binary
  | close
  | ping
  | pong
  deriving DecidableEq, Repr

/-- The other opcodes are reserved. -/
def Opcode.ofByte (byte : UInt8) : Option Opcode :=
  match byte.toNat with
  | 0 => some .continuation
  | 1 => some .text
  | 2 => some .binary
  | 8 => some .close
  | 9 => some .ping
  | 10 => some .pong
  | _ => none

def Opcode.isControl : Opcode → Bool
  | .close | .ping | .pong => true
  | _ => false

structure Frame where
  final : Bool
  opcode : Opcode
  payload : Bytes
  deriving DecidableEq, Repr

/-- The mask bit and the payload length. A masked frame is refused, and so is a length that would have
fitted a shorter form, or has the top one of its 64 bits set. -/
def readLength : Bytes → Option (Nat × Bytes)
  | [] => none
  | first :: rest =>
    if first < 126 then some (first.toNat, rest)
    else if first = 126 then
      (takeExactly 2 rest).bind fun (chunk, rest) =>
        if 126 ≤ decodeBig chunk then some (decodeBig chunk, rest) else none
    else if first = 127 then
      (takeExactly 8 rest).bind fun (chunk, rest) =>
        if 65536 ≤ decodeBig chunk ∧ decodeBig chunk < 2 ^ 63 then some (decodeBig chunk, rest)
        else none
    else none

/-- The reserved bits have to be zero; a control frame is final and has a short payload. -/
def readFrame : Bytes → Option (Frame × Bytes)
  | [] => none
  | first :: rest =>
    if first &&& 0x70 ≠ 0 then none
    else
      (Opcode.ofByte (first &&& 0x0F)).bind fun opcode =>
        (readLength rest).bind fun (length, rest) =>
          if opcode.isControl = true ∧ (first &&& 0x80 = 0 ∨ length > 125) then none
          else
            (takeExactly length rest).map fun (payload, rest) =>
              (⟨decide (first &&& 0x80 ≠ 0), opcode, payload⟩, rest)

/-- The frames at the front of the bytes, `turns` of them at most, and what is left. -/
def readFrames : Nat → Bytes → List Frame × Bytes
  | 0, input => ([], input)
  | turns + 1, input =>
    match readFrame input with
    | none => ([], input)
    | some (frame, rest) => (frame :: (readFrames turns rest).1, (readFrames turns rest).2)

/-- A frame is not empty, so there are no more turns than bytes. -/
def receiveFrames (input : Bytes) : List Frame × Bytes := readFrames input.length input

/-! ## Reading back -/

section ReadBack

variable {length : Nat} {payload rest : Bytes}

theorem readLength_short (h : length ≤ 125) :
    readLength (UInt8.ofNat length :: rest) = some (length, rest) := by
  have htoNat : (UInt8.ofNat length).toNat = length := UInt8.toNat_ofNat_of_lt' (by
    rw [UInt8.size]
    omega)
  have hlt : UInt8.ofNat length < 126 := by
    rw [UInt8.lt_iff_toNat_lt, htoNat]
    exact Nat.lt_succ_of_le h
  rw [readLength, if_pos hlt, htoNat]

theorem readLength_medium (hlong : 126 ≤ length) (h : length ≤ 65535) :
    readLength (126 :: (encodeBig 2 length ++ rest)) = some (length, rest) := by
  have hdecode : decodeBig (encodeBig 2 length) = length :=
    decodeBig_encodeBig (Nat.lt_succ_of_le h)
  rw [readLength, if_neg (by decide), if_pos rfl, takeExactly_append rest (length_encodeBig _ _),
    Option.bind_some]
  dsimp only
  rw [hdecode, if_pos hlong]

theorem readLength_long (hlong : 65536 ≤ length) (h : length < 2 ^ 63) :
    readLength (127 :: (encodeBig 8 length ++ rest)) = some (length, rest) := by
  have hdecode : decodeBig (encodeBig 8 length) = length :=
    decodeBig_encodeBig (Nat.lt_trans h (by decide))
  rw [readLength, if_neg (by decide), if_neg (by decide), if_pos rfl,
    takeExactly_append rest (length_encodeBig _ _), Option.bind_some]
  dsimp only
  rw [hdecode, if_pos ⟨hlong, h⟩]

/-- A final text frame, whichever form its length has. -/
theorem readFrame_text {header : Bytes}
    (h : readLength (header ++ (payload ++ rest)) = some (payload.length, payload ++ rest)) :
    readFrame (0x81 :: (header ++ (payload ++ rest))) = some (⟨true, .text, payload⟩, rest) := by
  have hopcode : Opcode.ofByte (0x81 &&& 0x0F) = some .text := by decide
  rw [readFrame, if_neg (by decide), hopcode, Option.bind_some, h, Option.bind_some]
  dsimp only
  rw [if_neg (fun hcontrol => absurd hcontrol.1 (by decide)), takeExactly_append rest rfl]
  rfl

end ReadBack

/-! ## More bytes -/

section More

variable {length : Nat} {input rest : Bytes} {frame : Frame} (more : Bytes)

theorem takeExactly_more {size : Nat} {chunk : Bytes} (h : takeExactly size input = some (chunk, rest)) :
    takeExactly size (input ++ more) = some (chunk, rest ++ more) := by
  obtain ⟨rfl, hsize⟩ := takeExactly_exact h
  rw [List.append_assoc]
  exact takeExactly_append _ hsize

theorem readLength_append (h : readLength input = some (length, rest)) :
    readLength (input ++ more) = some (length, rest ++ more) := by
  cases input with
  | nil => cases h
  | cons first input =>
    rw [readLength] at h
    rw [List.cons_append, readLength]
    split at h
    · rename_i hshort
      cases h
      rw [if_pos hshort]
    rename_i hshort
    rw [if_neg hshort]
    split at h
    · rename_i hmedium
      obtain ⟨⟨chunk, rest⟩, htake, h⟩ := Option.bind_eq_some_iff.mp h
      rw [if_pos hmedium, takeExactly_more more htake, Option.bind_some]
      dsimp only at h ⊢
      split at h
      · cases h
        rw [if_pos (by assumption)]
      · cases h
    rename_i hmedium
    rw [if_neg hmedium]
    split at h
    · rename_i hlong
      obtain ⟨⟨chunk, rest⟩, htake, h⟩ := Option.bind_eq_some_iff.mp h
      rw [if_pos hlong, takeExactly_more more htake, Option.bind_some]
      dsimp only at h ⊢
      split at h
      · cases h
        rw [if_pos (by assumption)]
      · cases h
    · cases h

/-- What has been read does not change when more bytes arrive. -/
theorem readFrame_append (h : readFrame input = some (frame, rest)) :
    readFrame (input ++ more) = some (frame, rest ++ more) := by
  cases input with
  | nil => cases h
  | cons first input =>
    rw [readFrame] at h
    rw [List.cons_append, readFrame]
    split at h
    · cases h
    rename_i hreserved
    obtain ⟨opcode, hopcode, h⟩ := Option.bind_eq_some_iff.mp h
    obtain ⟨⟨length, input'⟩, hlength, h⟩ := Option.bind_eq_some_iff.mp h
    rw [if_neg hreserved, hopcode, Option.bind_some, readLength_append more hlength, Option.bind_some]
    dsimp only at h ⊢
    split at h
    · cases h
    rename_i hcontrol
    obtain ⟨⟨payload, rest'⟩, htake, heq⟩ := Option.map_eq_some_iff.mp h
    cases heq
    rw [if_neg hcontrol, takeExactly_more more htake]
    rfl

end More

section Stream

variable {α : Type} {wire : α → Bytes} {frame : α → Frame}

theorem readFrames_flatMap (hpos : ∀ x, 0 < (wire x).length)
    (hread : ∀ x rest, readFrame (wire x ++ rest) = some (frame x, rest)) {turns : Nat}
    {xs : List α} (hturns : (xs.flatMap wire).length ≤ turns) :
    readFrames turns (xs.flatMap wire) = (xs.map frame, []) := by
  induction xs generalizing turns with
  | nil => cases turns <;> rfl
  | cons x xs ih =>
    have hx := hpos x
    rw [List.flatMap_cons] at hturns ⊢
    rw [List.length_append] at hturns
    obtain ⟨turns, rfl⟩ : ∃ n, turns = n + 1 := ⟨turns - 1, by omega⟩
    simp only [readFrames, hread, ih (show (xs.flatMap wire).length ≤ turns by omega),
      List.map_cons]

/-- Frames that are read back one by one do not run into each other. -/
theorem receiveFrames_flatMap (hpos : ∀ x, 0 < (wire x).length)
    (hread : ∀ x rest, readFrame (wire x ++ rest) = some (frame x, rest)) (xs : List α) :
    receiveFrames (xs.flatMap wire) = (xs.map frame, []) :=
  readFrames_flatMap hpos hread (Nat.le_refl _)

/-- A frame of which only a part has arrived is not read. -/
theorem readFrame_part (hread : ∀ x rest, readFrame (wire x ++ rest) = some (frame x, rest)) {x : α}
    {part : Bytes} (hpart : part <+: wire x) (hshort : part.length < (wire x).length) :
    readFrame part = none := by
  obtain ⟨more, heq⟩ := hpart
  cases hframe : readFrame part with
  | none => rfl
  | some found =>
    have hwhole := hread x []
    rw [List.append_nil, ← heq, readFrame_append more hframe] at hwhole
    obtain ⟨-, hmore⟩ := Prod.mk.inj (Option.some.inj hwhole)
    rw [(List.append_eq_nil_iff.mp hmore).2, List.append_nil] at heq
    rw [heq] at hshort
    exact absurd hshort (Nat.lt_irrefl _)

theorem readFrames_prefix (hread : ∀ x rest, readFrame (wire x ++ rest) = some (frame x, rest))
    {turns : Nat} {xs : List α} {received : Bytes} (h : received <+: xs.flatMap wire) :
    (readFrames turns received).1 <+: xs.map frame := by
  induction xs generalizing turns received with
  | nil =>
    rw [List.flatMap_nil, List.prefix_nil] at h
    rw [h]
    cases turns <;> exact List.nil_prefix
  | cons x xs ih =>
    cases turns with
    | zero => exact List.nil_prefix
    | succ turns =>
      rw [List.flatMap_cons] at h
      rcases Nat.lt_or_ge received.length (wire x).length with hshort | hlong
      · have hpart := List.prefix_of_prefix_length_le h (List.prefix_append _ _) (Nat.le_of_lt hshort)
        rw [readFrames, readFrame_part hread hpart hshort]
        exact List.nil_prefix
      · obtain ⟨later, rfl⟩ := List.prefix_of_prefix_length_le (List.prefix_append _ _) h hlong
        rw [readFrames, hread]
        exact (List.cons_prefix_cons).mpr ⟨rfl, ih ((List.prefix_append_right_inj _).mp h)⟩

/-- At every moment a client has read the first of the frames that are on their way to it. -/
theorem receiveFrames_prefix (hread : ∀ x rest, readFrame (wire x ++ rest) = some (frame x, rest))
    {xs : List α} {received : Bytes} (h : received <+: xs.flatMap wire) :
    (receiveFrames received).1 <+: xs.map frame := readFrames_prefix hread h

end Stream

end Wire

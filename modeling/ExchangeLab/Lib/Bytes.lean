import Mathlib.Data.UInt

/-!
# ExchangeLab.Lib.Bytes

Fixed-width little-endian integers in a byte string, and readers that consume a prefix of it.

Every reader carries both laws, and nothing else is needed to prove a codec:
* `read_encode`: what was written is read back, and exactly that much is consumed.
* `read_exact`: what is read is an encoding, so nothing else is accepted.
-/

namespace Wire

abbrev Bytes := List UInt8

/-- The `size` low bytes of `n`, least significant first. -/
def encode : Nat → Nat → Bytes
  | 0, _ => []
  | size + 1, n => UInt8.ofNat (n % 256) :: encode size (n / 256)

def decode : Bytes → Nat
  | [] => 0
  | b :: bs => b.toNat + 256 * decode bs

/-- The first `size` bytes and the rest, if there are that many. -/
def takeExactly (size : Nat) (input : Bytes) : Option (Bytes × Bytes) :=
  if input.length < size then none else some (input.take size, input.drop size)

def read (size : Nat) (input : Bytes) : Option (Nat × Bytes) :=
  (takeExactly size input).map fun (chunk, rest) => (decode chunk, rest)

@[simp] theorem length_encode (size n : Nat) : (encode size n).length = size := by
  induction size generalizing n with
  | zero => rfl
  | succ size ih => simp [encode, ih]

theorem decode_lt (bs : Bytes) : decode bs < 256 ^ bs.length := by
  induction bs with
  | nil => simp [decode]
  | cons b bs ih =>
    have hb := b.toNat_lt
    simp only [decode, List.length_cons, Nat.pow_succ]
    omega

theorem decode_encode {size n : Nat} (h : n < 256 ^ size) : decode (encode size n) = n := by
  induction size generalizing n with
  | zero => simp at h; simp [encode, decode, h]
  | succ size ih =>
    have hdiv : n / 256 < 256 ^ size := by rw [Nat.pow_succ] at h; omega
    have hmod : (UInt8.ofNat (n % 256)).toNat = n % 256 := by
      rw [UInt8.toNat_ofNat']
      omega
    rw [encode, decode, ih hdiv, hmod]
    omega

theorem encode_decode (bs : Bytes) : encode bs.length (decode bs) = bs := by
  induction bs with
  | nil => rfl
  | cons b bs ih =>
    have hb := b.toNat_lt
    have hmod : (b.toNat + 256 * decode bs) % 256 = b.toNat := by omega
    have hdiv : (b.toNat + 256 * decode bs) / 256 = decode bs := by omega
    rw [List.length_cons, decode, encode, hmod, hdiv, ih, UInt8.ofNat_toNat]

theorem takeExactly_append {size : Nat} {chunk : Bytes} (rest : Bytes) (h : chunk.length = size) :
    takeExactly size (chunk ++ rest) = some (chunk, rest) := by
  subst h
  simp [takeExactly]

theorem takeExactly_exact {size : Nat} {input chunk rest : Bytes}
    (h : takeExactly size input = some (chunk, rest)) :
    input = chunk ++ rest ∧ chunk.length = size := by
  unfold takeExactly at h
  split at h
  · cases h
  · cases h
    refine ⟨(List.take_append_drop size input).symm, ?_⟩
    rw [List.length_take]
    omega

theorem takeExactly_eq_none {size : Nat} {input : Bytes} :
    takeExactly size input = none ↔ input.length < size := by
  unfold takeExactly
  split <;> simp_all

theorem read_encode {size n : Nat} (rest : Bytes) (h : n < 256 ^ size) :
    read size (encode size n ++ rest) = some (n, rest) := by
  simp [read, takeExactly_append rest (length_encode size n), decode_encode h]

theorem read_exact {size n : Nat} {input rest : Bytes} (h : read size input = some (n, rest)) :
    input = encode size n ++ rest ∧ n < 256 ^ size := by
  obtain ⟨⟨chunk, rest'⟩, hread, heq⟩ := Option.map_eq_some_iff.mp h
  obtain ⟨rfl, hlen⟩ := takeExactly_exact hread
  cases heq
  subst hlen
  exact ⟨by rw [encode_decode], decode_lt chunk⟩

end Wire

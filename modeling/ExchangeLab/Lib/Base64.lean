import ExchangeLab.Lib.Bytes

/-!
# ExchangeLab.Lib.Base64

Base64 with padding, as RFC 4648 defines it.

* `encode`: four characters for every three bytes, the last group filled up with `pad`.
* `decode`: the bytes of a text, which has to end in the way that `encode` ends one.
* `decode_encode`: a text is read back.
* `le_of_mem_encode`: a text has no control characters and no blanks.
-/

namespace Wire

namespace Base64

def pad : UInt8 := 61

/-- The character for six bits. -/
def digit (n : Nat) : UInt8 :=
  if n < 26 then UInt8.ofNat (65 + n)
  else if n < 52 then UInt8.ofNat (97 + (n - 26))
  else if n < 62 then UInt8.ofNat (48 + (n - 52))
  else if n = 62 then 43
  else 47

/-- The six bits that a character stands for. -/
def value (character : UInt8) : Option Nat :=
  if 65 ≤ character ∧ character ≤ 90 then some (character.toNat - 65)
  else if 97 ≤ character ∧ character ≤ 122 then some (character.toNat - 97 + 26)
  else if 48 ≤ character ∧ character ≤ 57 then some (character.toNat - 48 + 52)
  else if character = 43 then some 62
  else if character = 47 then some 63
  else none

def encode : Bytes → Bytes
  | [] => []
  | [a] => [digit (a.toNat / 4), digit (a.toNat % 4 * 16), pad, pad]
  | [a, b] =>
    [digit (a.toNat / 4), digit (a.toNat % 4 * 16 + b.toNat / 16), digit (b.toNat % 16 * 4), pad]
  | a :: b :: c :: rest =>
    digit (a.toNat / 4) :: digit (a.toNat % 4 * 16 + b.toNat / 16) ::
      digit (b.toNat % 16 * 4 + c.toNat / 64) :: digit (c.toNat % 64) :: encode rest

/-- The bytes of a group without padding. -/
def bytesOf (w x y z : Nat) : Bytes :=
  [UInt8.ofNat (w * 4 + x / 16), UInt8.ofNat (x % 16 * 16 + y / 4), UInt8.ofNat (y % 4 * 64 + z)]

/-- The bits behind the last byte of a padded group are zero, and nothing follows it. -/
def decode : Bytes → Option Bytes
  | [] => some []
  | [a, b, c, d] =>
    match value a, value b, value c, value d with
    | some w, some x, some y, some z => some (bytesOf w x y z)
    | some w, some x, some y, none =>
      if d = pad ∧ y % 4 = 0 then some ((bytesOf w x y 0).take 2) else none
    | some w, some x, none, none =>
      if c = pad ∧ d = pad ∧ x % 16 = 0 then some ((bytesOf w x 0 0).take 1) else none
    | _, _, _, _ => none
  | a :: b :: c :: d :: rest =>
    match value a, value b, value c, value d with
    | some w, some x, some y, some z => (decode rest).map (bytesOf w x y z ++ ·)
    | _, _, _, _ => none
  | _ => none

theorem value_digit {n : Nat} (h : n < 64) : value (digit n) = some n := by
  revert n
  decide

theorem value_pad : value pad = none := by decide

section Group

variable (a b c : UInt8)

theorem first_lt : a.toNat / 4 < 64 := by
  have := a.toNat_lt
  omega

theorem second_lt : a.toNat % 4 * 16 + b.toNat / 16 < 64 := by
  have := b.toNat_lt
  omega

theorem third_lt : b.toNat % 16 * 4 + c.toNat / 64 < 64 := by
  have := c.toNat_lt
  omega

theorem fourth_lt : c.toNat % 64 < 64 := Nat.mod_lt _ (by decide)

theorem bytesOf_group :
    bytesOf (a.toNat / 4) (a.toNat % 4 * 16 + b.toNat / 16) (b.toNat % 16 * 4 + c.toNat / 64)
      (c.toNat % 64) = [a, b, c] := by
  have ha := a.toNat_lt
  have hb := b.toNat_lt
  have hc := c.toNat_lt
  have first : a.toNat / 4 * 4 + (a.toNat % 4 * 16 + b.toNat / 16) / 16 = a.toNat := by omega
  have second : (a.toNat % 4 * 16 + b.toNat / 16) % 16 * 16 +
      (b.toNat % 16 * 4 + c.toNat / 64) / 4 = b.toNat := by omega
  have third : (b.toNat % 16 * 4 + c.toNat / 64) % 4 * 64 + c.toNat % 64 = c.toNat := by omega
  rw [bytesOf, first, second, third, UInt8.ofNat_toNat, UInt8.ofNat_toNat, UInt8.ofNat_toNat]

end Group

theorem decode_encode (bytes : Bytes) : decode (encode bytes) = some bytes := by
  induction bytes using encode.induct with
  | case1 => rfl
  | case2 a =>
    have hfirst := value_digit (first_lt a)
    have hsecond : value (digit (a.toNat % 4 * 16)) = some (a.toNat % 4 * 16) :=
      value_digit (second_lt a 0)
    have hgroup := bytesOf_group a 0 0
    simp only [encode, decode, hfirst, hsecond, value_pad]
    rw [if_pos ⟨trivial, trivial, by omega⟩]
    exact congrArg (fun group => some (group.take 1)) hgroup
  | case3 a b =>
    have hfirst := value_digit (first_lt a)
    have hsecond := value_digit (second_lt a b)
    have hthird : value (digit (b.toNat % 16 * 4)) = some (b.toNat % 16 * 4) :=
      value_digit (third_lt b 0)
    have hgroup := bytesOf_group a b 0
    simp only [encode, decode, hfirst, hsecond, hthird, value_pad]
    rw [if_pos ⟨trivial, by omega⟩]
    exact congrArg (fun group => some (group.take 2)) hgroup
  | case4 a b c rest ih =>
    have hfirst := value_digit (first_lt a)
    have hsecond := value_digit (second_lt a b)
    have hthird := value_digit (third_lt b c)
    have hfourth := value_digit (fourth_lt c)
    have hgroup := bytesOf_group a b c
    cases hrest : encode rest with
    | nil =>
      rw [hrest] at ih
      cases ih
      simp only [encode, decode, hfirst, hsecond, hthird, hfourth, hgroup]
    | cons character characters =>
      rw [hrest] at ih
      simp only [encode, hrest, decode, hfirst, hsecond, hthird, hfourth, hgroup, ih]
      rfl

theorem le_digit {n : Nat} (h : n < 64) : 43 ≤ digit n := by
  revert n
  decide

/-- No character of a text is a control character or a blank. -/
theorem le_of_mem_encode {bytes : Bytes} {character : UInt8} (h : character ∈ encode bytes) :
    43 ≤ character := by
  have hpad : 43 ≤ pad := by decide
  induction bytes using encode.induct with
  | case1 => cases h
  | case2 a =>
    simp only [encode, List.mem_cons, List.not_mem_nil, or_false] at h
    rcases h with rfl | rfl | rfl | rfl
    · exact le_digit (first_lt a)
    · exact le_digit (second_lt a 0)
    · exact hpad
    · exact hpad
  | case3 a b =>
    simp only [encode, List.mem_cons, List.not_mem_nil, or_false] at h
    rcases h with rfl | rfl | rfl | rfl
    · exact le_digit (first_lt a)
    · exact le_digit (second_lt a b)
    · exact le_digit (third_lt b 0)
    · exact hpad
  | case4 a b c rest ih =>
    simp only [encode, List.mem_cons] at h
    rcases h with rfl | rfl | rfl | rfl | h
    · exact le_digit (first_lt a)
    · exact le_digit (second_lt a b)
    · exact le_digit (third_lt b c)
    · exact le_digit (fourth_lt c)
    · exact ih h

end Base64

end Wire

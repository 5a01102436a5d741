import ExchangeLab.Lib.Bytes
import Mathlib.Data.Nat.Digits.Defs

/-!
# ExchangeLab.Lib.Decimal

Decimal numerals: what number a text of digits denotes, leading zeros included.

* `Numeral`: the text is the digits of the number, most significant first.
* `numeral_iff`: a reader that goes over the text from the left finds the number.
* `Numeral.unique`: a text denotes one number at most.
-/

namespace Wire

def digitCharacter (digit : Nat) : UInt8 := UInt8.ofNat (48 + digit)

def Numeral (text : Bytes) (n : Nat) : Prop :=
  ∃ digits : List Nat, digits ≠ [] ∧ (∀ digit ∈ digits, digit < 10) ∧
    text = digits.map digitCharacter ∧ n = Nat.ofDigits 10 digits.reverse

theorem digitCharacter_toNat {digit : Nat} (h : digit < 10) :
    (digitCharacter digit).toNat = 48 + digit := by
  rw [digitCharacter, UInt8.toNat_ofNat']
  omega

theorem ofDigits_reverse (digits : List Nat) :
    Nat.ofDigits 10 digits.reverse = digits.foldl (fun n digit => 10 * n + digit) 0 := by
  rw [Nat.ofDigits_eq_foldr, List.foldr_reverse]
  congr 1
  funext n digit
  exact Nat.add_comm digit (10 * n)

/-- The number is built up from the left. -/
theorem numeral_iff {text : Bytes} {n : Nat} :
    Numeral text n ↔ text ≠ [] ∧ (∀ character ∈ text, 48 ≤ character ∧ character ≤ 57) ∧
      n = text.foldl (fun n character => 10 * n + (character.toNat - 48)) 0 := by
  constructor
  · rintro ⟨digits, hne, hdigits, rfl, rfl⟩
    refine ⟨by rwa [Ne, List.map_eq_nil_iff], ?_, ?_⟩
    · intro character hcharacter
      obtain ⟨digit, hdigit, rfl⟩ := List.mem_map.mp hcharacter
      have hnat := digitCharacter_toNat (hdigits digit hdigit)
      have hlt := hdigits digit hdigit
      rw [UInt8.le_iff_toNat_le, UInt8.le_iff_toNat_le, hnat]
      have hlow : (48 : UInt8).toNat = 48 := rfl
      have hhigh : (57 : UInt8).toNat = 57 := rfl
      omega
    · rw [ofDigits_reverse, List.foldl_map]
      refine List.foldl_ext _ _ 0 fun value digit hdigit => ?_
      rw [digitCharacter_toNat (hdigits digit hdigit), Nat.add_sub_cancel_left]
  · rintro ⟨hne, hdigits, rfl⟩
    have hrange : ∀ character ∈ text, 48 ≤ character.toNat ∧ character.toNat ≤ 57 := by
      intro character hcharacter
      obtain ⟨hlow, hhigh⟩ := hdigits character hcharacter
      exact ⟨UInt8.le_iff_toNat_le.mp hlow, UInt8.le_iff_toNat_le.mp hhigh⟩
    refine ⟨text.map fun character => character.toNat - 48, by rwa [Ne, List.map_eq_nil_iff],
      ?_, ?_, ?_⟩
    · intro digit hdigit
      obtain ⟨character, hcharacter, rfl⟩ := List.mem_map.mp hdigit
      have := hrange character hcharacter
      omega
    · rw [List.map_map]
      refine (List.map_id text).symm.trans (List.map_congr_left fun character hcharacter => ?_)
      have hback := hrange character hcharacter
      apply UInt8.toNat_inj.mp
      rw [Function.comp_apply, digitCharacter_toNat (by omega), id]
      omega
    · rw [ofDigits_reverse, List.foldl_map]

theorem Numeral.unique {text : Bytes} {n m : Nat} (h : Numeral text n) (h' : Numeral text m) : n = m := by
  rw [numeral_iff] at h h'
  rw [h.2.2, h'.2.2]

theorem Numeral.not_mem {text : Bytes} {n : Nat} (h : Numeral text n) {byte : UInt8}
    (hbyte : byte < 48 ∨ 57 < byte) : byte ∉ text := by
  intro hmem
  obtain ⟨hlow, hhigh⟩ := (numeral_iff.mp h).2.1 byte hmem
  rcases hbyte with hbyte | hbyte
  · exact absurd hlow (UInt8.not_le.mpr hbyte)
  · exact absurd hhigh (UInt8.not_le.mpr hbyte)

end Wire

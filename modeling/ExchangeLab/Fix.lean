import ExchangeLab.Lib.Decimal

/-!
# ExchangeLab.Fix

FIX messages as lists of fields, and the decimal numbers in their values.
-/

namespace ExchangeLab

namespace Fix

open Wire

/-- A string literal as the bytes of a `std::string`. -/
def text (s : String) : Bytes := s.toList.map fun c => c.toNat.toUInt8

structure Field where
  tag : Int32
  value : Bytes
  deriving DecidableEq

structure Message where
  fields : List Field := []
  deriving DecidableEq

def Message.add (tag : Int32) (value : Bytes) (message : Message) : Message :=
  ⟨message.fields ++ [⟨tag, value⟩]⟩

/-- The value of the first field with the tag. -/
def Message.get (tag : Int32) (message : Message) : Option Bytes :=
  (message.fields.find? fun field => field.tag = tag).map Field.value

/-! ## Numbers -/

def isDigit (character : UInt8) : Bool := character ≥ 48 && character ≤ 57

/-- `std::from_chars` in base 10 without a sign, where it reads the whole text. -/
def readDecimal (text : Bytes) : Option Nat :=
  if text = [] ∨ !text.all isDigit then none
  else some (text.foldl (fun n character => 10 * n + (character.toNat - 48)) 0)

/-- Only decimal numerals are read, and as the number they denote. -/
theorem readDecimal_iff {text : Bytes} {n : Nat} : readDecimal text = some n ↔ Numeral text n := by
  rw [numeral_iff, readDecimal]
  have hall : text.all isDigit = true ↔ ∀ character ∈ text, 48 ≤ character ∧ character ≤ 57 := by
    simp only [List.all_eq_true, isDigit, Bool.and_eq_true, decide_eq_true_eq, ge_iff_le]
  split
  · rename_i hno
    rw [Bool.not_eq_true', ← Bool.not_eq_true, hall] at hno
    refine ⟨fun h => (by cases h), ?_⟩
    rintro ⟨hne, hdigits, -⟩
    rcases hno with hnil | hnot
    · exact absurd hnil hne
    · exact absurd hdigits hnot
  · rename_i hyes
    rw [not_or, Bool.not_eq_true', Bool.not_eq_false, hall] at hyes
    rw [Option.some_inj, and_iff_right hyes.1, and_iff_right hyes.2]
    exact eq_comm

def parseU64 (text : Bytes) : Option UInt64 := do
  let n ← readDecimal text
  if n < 2 ^ 64 then some (UInt64.ofNat n) else none

/-- Only a minus sign is recognized. -/
def parseI64 (text : Bytes) : Option Int64 := do
  if text.head? = some 45 then
    let n ← readDecimal text.tail
    if n ≤ 2 ^ 63 then some (Int64.ofInt (-n)) else none
  else
    let n ← readDecimal text
    if n < 2 ^ 63 then some (Int64.ofNat n) else none

example : parseU64 (text "18446744073709551615") = some 18446744073709551615 := by decide
example : parseU64 (text "+1") = none := by decide
example : parseI64 (text "-25") = some (-25) := by decide

end Fix

end ExchangeLab

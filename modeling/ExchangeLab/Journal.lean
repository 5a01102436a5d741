import ExchangeLab.Protocol
import ExchangeLab.Types

/-!
# ExchangeLab.Journal

The journal writer. The file is its bytes; a write is taken to reach it completely or, when the
process stops in the middle, to leave a prefix of what was being written.
-/

namespace ExchangeLab

open Wire Protocol

def recordLengthSize : Nat := 4

def encodeRecordLength (length : UInt32) : Bytes := encode recordLengthSize length.toNat

namespace ExchangeJournal

/-- The file as the constructor opens it: emptied, or kept as it is to append to. -/
def openFile (file : Bytes) (truncate : Bool) : Bytes := if truncate then [] else file

def append (message : Bytes) (file : Bytes) : Except Fault Bytes :=
  if message.length > UInt32.size - 1 then .error (.lengthError "Journal message is too large")
  else .ok (file ++ encodeRecordLength (UInt32.ofNat message.length) ++ message)

theorem append_ok {message file : Bytes} (h : message.length < UInt32.size) :
    append message file = .ok (file ++ frame recordLengthSize message) := by
  have hlt : ¬ message.length > UInt32.size - 1 := by omega
  rw [append, if_neg hlt, encodeRecordLength, UInt32.toNat_ofNat_of_lt' h, List.append_assoc]
  rfl

end ExchangeJournal

end ExchangeLab

import ExchangeLab.Lib.WebSocket

/-!
# ExchangeLab.WebSocketGateway

The frames in which the dashboard gets its texts.

* `websocketTextFrame`: the function of that name, on a text no longer than a string can be.
* `websocket_texts_decodable`: what a client makes of the frames in one stream.
-/

namespace ExchangeLab

open Wire

/-- A `std::string`, whose size is limited by the range of a pointer difference. -/
structure Text where
  bytes : Bytes
  bounded : bytes.length < 2 ^ 63

namespace WebSocketGateway

/-- What the shifts leave of the length, from `8 * (count - 1)` bits down to none. -/
def lengthBytes (length : UInt64) : Nat → Bytes
  | 0 => []
  | count + 1 =>
    ((length >>> UInt64.ofNat (8 * count)) &&& 0xFF).toUInt8 :: lengthBytes length count

def websocketTextFrame (text : Text) : Bytes :=
  let length := UInt64.ofNat text.bytes.length
  let header :=
    if length ≤ 125 then [length.toUInt8]
    else if length ≤ 65535 then 126 :: lengthBytes length 2
    else 127 :: lengthBytes length 8
  0x81 :: (header ++ text.bytes)

theorem lengthBytes_eq (length : UInt64) {count : Nat} (h : count ≤ 8) :
    lengthBytes length count = encodeBig count length.toNat := by
  induction count with
  | zero => rfl
  | succ count ih =>
    have hshift : (UInt64.ofNat (8 * count)).toNat % 64 = 8 * count := by
      rw [UInt64.toNat_ofNat_of_lt' (by rw [UInt64.size]; omega)]
      omega
    have hbyte : ((length >>> UInt64.ofNat (8 * count)) &&& 0xFF).toUInt8 =
        UInt8.ofNat (length.toNat / 256 ^ count % 256) := by
      rw [← UInt8.toNat_inj, UInt64.toNat_toUInt8, UInt64.toNat_and, UInt64.toNat_shiftRight, hshift,
        show (0xFF : UInt64).toNat = 2 ^ 8 - 1 from rfl, Nat.and_two_pow_sub_one_eq_mod,
        Nat.shiftRight_eq_div_pow, Nat.pow_mul, UInt8.toNat_ofNat']
    rw [lengthBytes, hbyte, ih (by omega), encodeBig_succ]

theorem websocketTextFrame_pos (text : Text) : 0 < (websocketTextFrame text).length := by
  rw [websocketTextFrame, List.length_cons]
  exact Nat.succ_pos _

theorem readFrame_websocketTextFrame (text : Text) (rest : Bytes) :
    readFrame (websocketTextFrame text ++ rest) = some (⟨true, .text, text.bytes⟩, rest) := by
  have htoNat : (UInt64.ofNat text.bytes.length).toNat = text.bytes.length :=
    UInt64.toNat_ofNat_of_lt' (Nat.lt_trans text.bounded (by decide))
  rw [websocketTextFrame, List.cons_append, List.append_assoc]
  refine readFrame_text ?_
  split
  · rename_i hshort
    rw [UInt64.le_iff_toNat_le, htoNat] at hshort
    have hbyte : (UInt64.ofNat text.bytes.length).toUInt8 = UInt8.ofNat text.bytes.length := by
      rw [← UInt8.toNat_inj, UInt64.toNat_toUInt8, htoNat, UInt8.toNat_ofNat']
    rw [hbyte]
    exact readLength_short hshort
  · rename_i hlong
    rw [UInt64.le_iff_toNat_le, htoNat, Nat.not_le] at hlong
    split
    · rename_i hmedium
      rw [UInt64.le_iff_toNat_le, htoNat] at hmedium
      rw [lengthBytes_eq _ (by decide), htoNat]
      exact readLength_medium hlong hmedium
    · rename_i hlong
      rw [UInt64.le_iff_toNat_le, htoNat, Nat.not_le] at hlong
      rw [lengthBytes_eq _ (by decide), htoNat]
      exact readLength_long hlong text.bounded

/-- A client recovers the texts, one final text frame for each, and nothing is left over. -/
theorem websocket_texts_decodable (texts : List Text) :
    receiveFrames (texts.flatMap websocketTextFrame) =
      (texts.map fun text => ⟨true, .text, text.bytes⟩, []) :=
  receiveFrames_flatMap websocketTextFrame_pos readFrame_websocketTextFrame texts

end WebSocketGateway

end ExchangeLab

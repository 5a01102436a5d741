import ExchangeLab.Fix
import ExchangeLab.Lib.Stream

/-!
# ExchangeLab.FixCodec

FIX.4.4 messages on the wire: `encode`, `parse`, and `extract_one` over a receive buffer.

Positions in a string are natural numbers. A test that the source makes so that a sum does not exceed
a `size_t` is made here as well.
-/

namespace ExchangeLab

namespace Fix

open Wire

def soh : UInt8 := 1

def equalsSign : UInt8 := 61

/-- `8=FIX.4.4`, ended. -/
def beginString : Bytes := text "8=FIX.4.4" ++ [soh]

/-! ## Numbers -/

/-- The digits of a number that is not negative. -/
def decimal (n : Nat) : Bytes := text (toString n)

/-- `std::to_string` of an `int`. -/
def tagText (tag : Int32) : Bytes :=
  if tag < 0 then 45 :: decimal tag.toInt.natAbs else decimal tag.toInt.natAbs

/-- `std::from_chars` of a `size_t`, where it reads the whole text. -/
def parseSize (text : Bytes) : Option Nat := do
  let n ← readDecimal text
  if n < 2 ^ 64 then some n else none

/-- `std::from_chars` of an `int`. A text with a minus sign is no tag, whatever follows the sign. -/
def parseTag (text : Bytes) : Option Int32 := do
  let n ← readDecimal text
  if 0 < n ∧ n < 2 ^ 31 then some (Int32.ofNat n) else none

def checksumBefore (wire : Bytes) (checksumOffset : Nat) : UInt32 :=
  (wire.take checksumOffset).foldl (fun sum character => sum + character.toUInt32) 0 % 256

def threeDigitChecksum (value : UInt32) : Bytes :=
  [48 + (value / 100 % 10).toUInt8, 48 + (value / 10 % 10).toUInt8, 48 + (value % 10).toUInt8]

/-! ## `encode` -/

def encodeField (field : Field) : Bytes := tagText field.tag ++ [equalsSign] ++ field.value ++ [soh]

/-- The fields that the codec generates itself are left out. -/
def encodeBody (message : Message) : Bytes :=
  (message.fields.filter fun field => field.tag ≠ 8 ∧ field.tag ≠ 9 ∧ field.tag ≠ 10).flatMap
    encodeField

/-- Up to the checksum. -/
def encodeUnsummed (message : Message) : Bytes :=
  let body := encodeBody message
  beginString ++ text "9=" ++ decimal body.length ++ [soh] ++ body

def encode (message : Message) : Bytes :=
  let wire := encodeUnsummed message
  wire ++ text "10=" ++ threeDigitChecksum (checksumBefore wire wire.length) ++ [soh]

/-! ## `parse` -/

/-- The loop over the fields between `cursor` and the checksum. Every field takes at least one byte,
so the body length is fuel enough. -/
def parseFields (wire : Bytes) (checksumOffset : Nat) :
    Nat → Nat → Message → Except String Message
  | 0, _, parsed => .ok parsed
  | fuel + 1, cursor, parsed =>
    if cursor < checksumOffset then
      match find soh cursor wire with
      | none => .error "truncated FIX field"
      | some fieldEnd =>
        if fieldEnd ≥ checksumOffset then .error "truncated FIX field"
        else
          let field := substr cursor (fieldEnd - cursor) wire
          match find equalsSign 0 field with
          | none => .error "invalid FIX field"
          | some equals =>
            if equals = 0 then .error "invalid FIX field"
            else
              match parseTag (substr 0 equals field) with
              | none => .error "invalid FIX tag"
              | some tag =>
                parseFields wire checksumOffset fuel (fieldEnd + 1)
                  (parsed.add tag (field.drop (equals + 1)))
    else .ok parsed

/-- From the body on, with the body length read. -/
def parseBody (wire : Bytes) (bodyStart bodyLength : Nat) : Except String Message :=
  if bodyLength > wire.length - bodyStart then .error "BodyLength exceeds message size"
  else
    let checksumOffset := bodyStart + bodyLength
    if checksumOffset + 7 ≠ wire.length ∨ !(text "10=").isPrefixOf (wire.drop checksumOffset) ∨
        wire.getLast? ≠ some soh then .error "BodyLength does not end at CheckSum"
    else
      match parseSize (substr (checksumOffset + 3) 3 wire) with
      | none => .error "invalid CheckSum field"
      | some checksum =>
        if checksum > 255 ∨ wire[checksumOffset + 6]? ≠ some soh then
          .error "invalid CheckSum field"
        else if (checksumBefore wire checksumOffset).toNat ≠ checksum then
          .error "CheckSum mismatch"
        else do
          let parsed ← parseFields wire checksumOffset bodyLength bodyStart {}
          match parsed.get 35 with
          | none => .error "MsgType (35) is required"
          | some msgType =>
            if msgType = [] then .error "MsgType (35) is required" else .ok parsed

def parse (wire : Bytes) : Except String Message :=
  if !beginString.isPrefixOf wire then .error "BeginString must be FIX.4.4"
  else
    match find soh 0 wire with
    | none => .error "truncated BeginString"
    | some beginEnd =>
      let bodyLengthStart := beginEnd + 1
      if !(text "9=").isPrefixOf (wire.drop bodyLengthStart) then
        .error "BodyLength must be the second field"
      else
        match find soh bodyLengthStart wire with
        | none => .error "truncated BodyLength"
        | some bodyLengthEnd =>
          match parseSize
              (substr (bodyLengthStart + 2) (bodyLengthEnd - (bodyLengthStart + 2)) wire) with
          | none => .error "invalid BodyLength"
          | some bodyLength => parseBody wire (bodyLengthEnd + 1) bodyLength

/-! ## `extract_one` -/

/-- `std::string::find` of a string. -/
def findString (pattern : Bytes) : Bytes → Option Nat
  | [] => if pattern = [] then some 0 else none
  | character :: rest =>
    if pattern.isPrefixOf (character :: rest) then some 0
    else (findString pattern rest).map (· + 1)

/-- With the buffer at a BeginString. What comes second is left in the buffer. -/
def extractAligned (buffer : Bytes) : Extract String × Bytes :=
  match find soh 0 buffer with
  | none => (.needMoreData, buffer)
  | some beginEnd =>
    let bodyLengthStart := beginEnd + 1
    if buffer.length < bodyLengthStart + 2 then (.needMoreData, buffer)
    else if substr bodyLengthStart 2 buffer ≠ text "9=" then
      (.invalidData "BodyLength must be the second field", buffer)
    else
      match find soh bodyLengthStart buffer with
      | none => (.needMoreData, buffer)
      | some bodyLengthEnd =>
        match parseSize
            (substr (bodyLengthStart + 2) (bodyLengthEnd - (bodyLengthStart + 2)) buffer) with
        | none => (.invalidData "invalid BodyLength", buffer)
        | some bodyLength =>
          let bodyStart := bodyLengthEnd + 1
          if bodyLength > 2 ^ 64 - 1 - bodyStart - 7 then
            (.invalidData "BodyLength overflow", buffer)
          else
            let totalSize := bodyStart + bodyLength + 7
            if buffer.length < totalSize then (.needMoreData, buffer)
            else if substr (bodyStart + bodyLength) 3 buffer ≠ text "10=" then
              (.invalidData "BodyLength does not point to CheckSum", buffer)
            else (.messageReady (substr 0 totalSize buffer), buffer.drop totalSize)

/-- What stands before the first BeginString is thrown away. -/
def extractOne (buffer : Bytes) : Extract String × Bytes :=
  if buffer = [] then (.needMoreData, buffer)
  else if beginString.isPrefixOf buffer then extractAligned buffer
  else
    match findString beginString buffer with
    | none =>
      if buffer.length > beginString.length then
        (.invalidData "stream does not begin with FIX.4.4", buffer)
      else (.needMoreData, buffer)
    | some next => extractAligned (buffer.drop next)

example : parse (encode ⟨[⟨35, text "0"⟩, ⟨58, text "a=10=b"⟩]⟩) =
    .ok ⟨[⟨35, text "0"⟩, ⟨58, text "a=10=b"⟩]⟩ := by decide +kernel

end Fix

end ExchangeLab

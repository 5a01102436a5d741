import ExchangeLab.Fix.Grammar

/-!
# ExchangeLab.Fix.RoundTrip

What `encode` writes is found again, in whatever pieces it arrives, and is read back as it was.

* `readDecimal_decimal`: numbers.
* `grammatical_encode`: what `encode` writes is of the grammar, so `parse` reads it.
* `delimits_encode`: a whole message, and a message that is not yet complete.
* `wire_round_trip`: a stream of messages.
-/

namespace ExchangeLab

namespace Fix

open Wire

/-! ## Numbers -/

theorem decimal_eq (n : Nat) :
    decimal n = (Nat.toDigits 10 n).map fun character => character.toNat.toUInt8 := by
  rw [decimal, text, Nat.toString_eq_ofList_toDigits, String.toList_ofList]

theorem digit_toNat {n : Nat} {character : Char} (h : character ∈ Nat.toDigits 10 n) :
    character.toNat.toUInt8.toNat = character.toNat ∧ 48 ≤ character.toNat ∧
      character.toNat ≤ 57 := by
  have hdigit : 48 ≤ character.toNat ∧ character.toNat ≤ 57 :=
    Char.isDigit_iff_toNat.mp (Nat.isDigit_of_mem_toDigits (by decide) (by decide) h)
  refine ⟨?_, hdigit⟩
  rw [Nat.toUInt8_eq, UInt8.toNat_ofNat']
  omega

theorem isDigit_decimal (n : Nat) : ∀ character ∈ decimal n, isDigit character = true := by
  rw [decimal_eq]
  intro byte hbyte
  obtain ⟨character, hcharacter, rfl⟩ := List.mem_map.mp hbyte
  obtain ⟨hnat, hlow, hhigh⟩ := digit_toNat hcharacter
  simp only [isDigit, Bool.and_eq_true, decide_eq_true_eq, ge_iff_le, UInt8.le_iff_toNat_le, hnat]
  exact ⟨hlow, hhigh⟩

theorem decimal_ne_nil (n : Nat) : decimal n ≠ [] := by
  rw [decimal_eq, Ne, List.map_eq_nil_iff]
  exact Nat.toDigits_ne_nil

theorem readDecimal_decimal (n : Nat) : readDecimal (decimal n) = some n := by
  have hdigits : (decimal n).all isDigit = true := List.all_eq_true.mpr (isDigit_decimal n)
  rw [readDecimal, if_neg (by simp [decimal_ne_nil, hdigits]), decimal_eq, List.foldl_map]
  congr 1
  calc
    _ = Nat.ofDigitChars 10 (Nat.toDigits 10 n) 0 := by
      rw [Nat.ofDigitChars_eq_foldl]
      refine List.foldl_ext _ _ 0 fun value character hcharacter => ?_
      rw [(digit_toNat hcharacter).1]
      rfl
    _ = n := Nat.ofDigitChars_ten_toDigits

theorem not_mem_decimal {byte : UInt8} (n : Nat) (h : isDigit byte = false) : byte ∉ decimal n := by
  intro hmem
  rw [isDigit_decimal n byte hmem] at h
  cases h

theorem parseSize_decimal {n : Nat} (h : n < 2 ^ 64) : parseSize (decimal n) = some n := by
  rw [parseSize, readDecimal_decimal]
  exact if_pos h

theorem tagText_eq {tag : Int32} (h : 0 < tag) : tagText tag = decimal tag.toInt.natAbs := by
  rw [tagText, if_neg (Int32.not_lt.mpr (Int32.le_of_lt h))]

theorem numeral_decimal (n : Nat) : Numeral (decimal n) n :=
  readDecimal_iff.mp (readDecimal_decimal n)

theorem checksumBefore_lt (wire : Bytes) (checksumOffset : Nat) :
    checksumBefore wire checksumOffset < 256 := by
  rw [checksumBefore, UInt32.lt_iff_toNat_lt, UInt32.toNat_mod]
  exact Nat.mod_lt _ (by decide)

theorem parseSize_threeDigitChecksum {value : UInt32} (h : value < 256) :
    parseSize (threeDigitChecksum value) = some value.toNat := by
  have hlt : value.toNat < 256 := UInt32.lt_iff_toNat_lt.mp h
  have hdigit : ∀ digit : UInt32, digit.toNat < 10 →
      (48 + digit.toUInt8).toNat = 48 + digit.toNat := by
    intro digit hdigit
    rw [UInt8.toNat_add, UInt32.toNat_toUInt8]
    have : (48 : UInt8).toNat = 48 := rfl
    omega
  have hmod : ∀ part : UInt32, (part % 10).toNat = part.toNat % 10 := fun part =>
    UInt32.toNat_mod part 10
  have hhundreds : (value / 100).toNat = value.toNat / 100 := UInt32.toNat_div value 100
  have htens : (value / 10).toNat = value.toNat / 10 := UInt32.toNat_div value 10
  have hisDigit : ∀ part : UInt32, isDigit (48 + (part % 10).toUInt8) = true := by
    intro part
    have hpart := hmod part
    simp only [isDigit, ge_iff_le, UInt8.le_iff_toNat_le, Bool.and_eq_true, decide_eq_true_eq,
      hdigit _ (show (part % 10).toNat < 10 by omega)]
    have hlow : (48 : UInt8).toNat = 48 := rfl
    have hhigh : (57 : UInt8).toNat = 57 := rfl
    omega
  have hread : readDecimal (threeDigitChecksum value) = some value.toNat := by
    rw [readDecimal, if_neg (by simp [threeDigitChecksum, hisDigit])]
    simp only [threeDigitChecksum, List.foldl_cons, List.foldl_nil]
    rw [hdigit _ (by rw [hmod]; omega), hdigit _ (by rw [hmod]; omega),
      hdigit _ (by rw [hmod]; omega), hmod, hmod, hmod, hhundreds, htens]
    congr 1
    omega
  rw [parseSize, hread]
  exact if_pos (by omega)

/-! ## Fields -/

/-- A field that the codec takes as it is. -/
def Plain (field : Field) : Prop := 0 < field.tag ∧ soh ∉ field.value

theorem Plain.fieldText {field : Field} (h : Plain field) : FieldText field (encodeField field) := by
  have hpos : 0 < field.tag.toInt := Int32.lt_iff_toInt_lt.mp h.1
  have hlt := field.tag.toInt_lt
  rw [encodeField, tagText_eq h.1]
  exact .intro (numeral_decimal _) (by omega) (by omega) h.2

theorem bodyText_encode {fields : List Field} (h : ∀ field ∈ fields, Plain field) :
    BodyText fields (fields.flatMap encodeField) := by
  induction fields with
  | nil => exact .nil
  | cons field fields ih =>
    exact .cons (h field (.head _)).fieldText (ih fun other hother => h other (.tail _ hother))

/-! ## Whole messages -/

/-- What a message has to be for the codec to carry it unchanged. -/
structure Encodable (message : Message) : Prop where
  tags : ∀ field ∈ message.fields, 0 < field.tag ∧ field.tag ≠ 8 ∧ field.tag ≠ 9 ∧ field.tag ≠ 10
  values : ∀ field ∈ message.fields, soh ∉ field.value
  msgType : ∃ value, message.get 35 = some value ∧ value ≠ []
  /-- A `std::string` holds less than 2^63 characters. -/
  fits : (encode message).length < 2 ^ 63

/-- The front of a message with a body of the given length, up to the body. -/
def header (bodyLength : Nat) : Bytes := beginString ++ (text "9=" ++ (decimal bodyLength ++ [soh]))

def trailer (message : Message) : Bytes :=
  text "10=" ++
    (threeDigitChecksum (checksumBefore (encodeUnsummed message) (encodeUnsummed message).length) ++
      [soh])

theorem header_eq (n : Nat) : header n = headerWith (decimal n) := rfl

theorem soh_not_mem_decimal (n : Nat) : soh ∉ decimal n := not_mem_decimal n (by decide)

theorem header_append {n : Nat} {rest : Bytes} : header n ++ rest =
    beginString ++ ((text "9=" ++ decimal n) ++ soh :: rest) := headerWith_append

section Message

variable {message : Message}

theorem Encodable.plain (h : Encodable message) : ∀ field ∈ message.fields, Plain field :=
  fun field hfield => ⟨(h.tags field hfield).1, h.values field hfield⟩

theorem Encodable.body (h : Encodable message) :
    encodeBody message = message.fields.flatMap encodeField := by
  rw [encodeBody, List.filter_eq_self.mpr]
  intro field hfield
  exact decide_eq_true (h.tags field hfield).2

theorem encodeUnsummed_eq (message : Message) :
    encodeUnsummed message = header (encodeBody message).length ++ encodeBody message := by
  simp [encodeUnsummed, header]

theorem encode_eq (message : Message) : encode message =
    header (encodeBody message).length ++ (encodeBody message ++ trailer message) := by
  rw [← List.append_assoc, ← encodeUnsummed_eq]
  simp [encode, trailer]

theorem length_trailer (message : Message) : (trailer message).length = 7 := rfl

theorem length_encode_eq (message : Message) : (encode message).length =
    (header (encodeBody message).length).length + (encodeBody message).length + 7 := by
  rw [encode_eq, List.length_append, List.length_append, length_trailer, Nat.add_assoc]

theorem Encodable.body_lt (h : Encodable message) : (encodeBody message).length < 2 ^ 64 := by
  have hfits := h.fits
  rw [length_encode_eq] at hfits
  omega

theorem grammatical_encode (h : Encodable message) : Grammatical (encode message) message := by
  generalize hwire : encodeUnsummed message = wire
  have hsum := parseSize_threeDigitChecksum (checksumBefore_lt wire wire.length)
  rw [checksumBefore_toNat, List.take_length, ← hwire] at hsum
  have hlt : byteSum (encodeUnsummed message) % 256 < 256 := Nat.mod_lt _ (by decide)
  rw [encode, hwire]
  rw [encodeUnsummed] at hwire hsum hlt
  subst hwire
  refine .intro (numeral_decimal _) h.body_lt ?_ h.msgType rfl
    ⟨_, (parseSize_iff.mp hsum).1, by omega, rfl⟩
  rw [h.body]
  exact bodyText_encode h.plain

theorem parse_encode (h : Encodable message) : parse (encode message) = .ok message :=
  (parse_iff _ _).mpr (grammatical_encode h)

end Message

/-! ## A receive buffer -/

section Buffer

variable {n : Nat} {rest front : Bytes} {message : Message}

/-- With the whole header there, the reader knows the size of the message. -/
theorem extractAligned_header (hfits : (header n).length + n + 7 < 2 ^ 64) :
    extractAligned (header n ++ rest) =
      if (header n ++ rest).length < (header n).length + n + 7 then
        (.needMoreData, header n ++ rest)
      else if substr ((header n).length + n) 3 (header n ++ rest) ≠ text "10=" then
        (.invalidData "BodyLength does not point to CheckSum", header n ++ rest)
      else (.messageReady (substr 0 ((header n).length + n + 7) (header n ++ rest)),
        (header n ++ rest).drop ((header n).length + n + 7)) := by
  rw [header_eq] at hfits ⊢
  rw [extractAligned_headerWith (soh_not_mem_decimal n), parseSize_decimal (by omega)]
  exact if_neg (by omega)

theorem findString_eq_none {pattern bytes : Bytes} (h : bytes.length < pattern.length) :
    findString pattern bytes = none := by
  induction bytes with
  | nil =>
    rw [findString, if_neg]
    rintro rfl
    exact absurd h (Nat.not_lt_zero _)
  | cons byte bytes ih =>
    have hno : ¬pattern.isPrefixOf (byte :: bytes) = true := by
      rw [List.isPrefixOf_iff_prefix]
      intro hbegins
      have hle := hbegins.length_le
      omega
    rw [List.length_cons] at h
    rw [findString, if_neg hno, ih (by omega), Option.map_none]

/-- The BeginString is not there yet. -/
theorem extractOne_short (hshort : front.length < beginString.length) :
    extractOne front = (.needMoreData, front) := by
  have hno : ¬beginString.isPrefixOf front = true := by
    rw [List.isPrefixOf_iff_prefix]
    intro hbegins
    have hle := hbegins.length_le
    omega
  rw [extractOne]
  split
  · rfl
  · rw [findString_eq_none hshort]
    exact if_neg (by omega)

/-- The body length is not there yet. -/
theorem extractAligned_short (hbegins : front <+: text "9=" ++ decimal n) :
    extractAligned (beginString ++ front) = (.needMoreData, beginString ++ front) := by
  rcases prefix_append_cases hbegins with ⟨-, hshort⟩ | ⟨number, rfl, hnumber⟩
  · exact extractAligned_begun hshort
  · exact extractAligned_open fun hmem => soh_not_mem_decimal n (hnumber.subset hmem)

theorem Encodable.header_lt (h : Encodable message) :
    (header (encodeBody message).length).length + (encodeBody message).length + 7 < 2 ^ 64 := by
  have hfits := h.fits
  rw [length_encode_eq] at hfits
  omega

/-- Where a message is cut off: in the BeginString, in the body length, or after it. -/
theorem Encodable.incomplete (h : Encodable message) (hbegins : front <+: encode message)
    (hshort : front.length < (encode message).length) :
    extractOne front = (.needMoreData, front) := by
  have hlength := length_encode_eq message
  rw [encode_eq, header_append] at hbegins
  rcases prefix_append_cases hbegins with ⟨-, hlt⟩ | ⟨begun, rfl, hbegun⟩
  · exact extractOne_short hlt
  rw [extractOne_begin]
  rcases prefix_append_cases hbegun with ⟨hdigits, -⟩ | ⟨left, rfl, hleft⟩
  · exact extractAligned_short hdigits
  cases left with
  | nil =>
    rw [List.append_nil]
    exact extractAligned_short (List.prefix_rfl)
  | cons byte left =>
    obtain ⟨rfl, -⟩ := List.cons_prefix_cons.mp hleft
    rw [← header_append] at hshort ⊢
    rw [extractAligned_header h.header_lt, if_pos (by omega)]

theorem Encodable.complete (h : Encodable message) (rest : Bytes) :
    extractOne (encode message ++ rest) = (.messageReady (encode message), rest) := by
  have hlength := length_encode_eq message
  have hshape : encode message ++ rest = header (encodeBody message).length ++
      (encodeBody message ++ (trailer message ++ rest)) := by
    rw [encode_eq, List.append_assoc, List.append_assoc]
  have hlong : ¬(encode message ++ rest).length <
      (header (encodeBody message).length).length + (encodeBody message).length + 7 := by
    rw [List.length_append]
    omega
  have hchecksum : substr ((header (encodeBody message).length).length +
      (encodeBody message).length) 3 (encode message ++ rest) = text "10=" := by
    rw [hshape, substr, ← List.drop_drop, List.drop_left, List.drop_left]
    rfl
  have hwire : substr 0 (encode message).length (encode message ++ rest) = encode message := by
    rw [substr, List.drop_zero, List.take_left]
  have hbegin := extractOne_begin ((text "9=" ++ decimal (encodeBody message).length) ++
    soh :: (encodeBody message ++ (trailer message ++ rest)))
  rw [← header_append, extractAligned_header h.header_lt, ← hshape, if_neg hlong,
    if_neg (not_not.mpr hchecksum), ← hlength, hwire, List.drop_left] at hbegin
  exact hbegin

theorem delimits_encode :
    Delimits extractOne fun wire => ∃ message, Encodable message ∧ wire = encode message where
  nonempty := by
    rintro _ ⟨message, -, rfl⟩
    rw [length_encode_eq]
    omega
  empty := rfl
  incomplete := by
    rintro _ front ⟨message, hencodable, rfl⟩ hbegins hshort
    exact hencodable.incomplete hbegins hshort
  complete := by
    rintro _ rest ⟨message, hencodable, rfl⟩
    exact hencodable.complete rest

end Buffer

theorem wire_round_trip {messages : List Message} {chunks : List Bytes}
    (hencodable : ∀ message ∈ messages, Encodable message)
    (hcut : chunks.flatten = (messages.map encode).flatten) :
    receiveAll extractOne chunks = ⟨messages.map encode, [], none⟩ ∧
      (messages.map encode).map parse = messages.map .ok := by
  constructor
  · refine delimits_encode.receiveAll ?_ hcut
    intro wire hwire
    obtain ⟨message, hmessage, rfl⟩ := List.mem_map.mp hwire
    exact ⟨message, hencodable message hmessage, rfl⟩
  · rw [List.map_map]
    refine List.map_congr_left fun message hmessage => ?_
    rw [Function.comp_apply, parse_encode (hencodable message hmessage)]

/-- Two messages, the second with text that looks like a checksum, cut inside the BeginString, inside
a body length and inside a field. -/
theorem wire_round_trip_cut :
    let messages : List Message :=
      [⟨[⟨35, text "0"⟩]⟩, ⟨[⟨35, text "B"⟩, ⟨58, text "10=001 8=FIX.4.4"⟩]⟩]
    let wire := (messages.map encode).flatten
    receiveAll extractOne [wire.take 5, (wire.drop 5).take 9, (wire.drop 14).take 40, wire.drop 54] =
      ⟨messages.map encode, [], none⟩ := by
  intro messages wire
  have hencodable : ∀ message ∈ messages, Encodable message := by
    intro message hmessage
    rcases List.mem_pair.mp hmessage with rfl | rfl
    · exact ⟨by decide, by decide, ⟨text "0", by decide, by decide⟩, by decide⟩
    · exact ⟨by decide, by decide, ⟨text "B", by decide, by decide⟩, by decide⟩
  exact (wire_round_trip hencodable (by decide)).1

end Fix

end ExchangeLab

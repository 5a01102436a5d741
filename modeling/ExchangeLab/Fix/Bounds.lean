import ExchangeLab.Fix.Grammar
import ExchangeLab.Types

/-!
# ExchangeLab.Fix.Bounds

`parse` with every index, substring and difference of positions checked.

* `parseChecked`: the function as it stands in the source, each such operation with its range.
* `parseChecked_eq`: no operation is out of range.
* `grammar_exact`: so the parser always returns, and accepts exactly its grammar.
-/

namespace ExchangeLab

namespace Fix

open Wire

/-! ## Operations with a range -/

def substrAt (start count : Nat) (bytes : Bytes) : Except Fault Bytes :=
  if start ≤ bytes.length then .ok (substr start count bytes) else .error (.outOfRange "substr")

/-- `substr` up to the end. -/
def suffixAt (start : Nat) (bytes : Bytes) : Except Fault Bytes :=
  if start ≤ bytes.length then .ok (bytes.drop start) else .error (.outOfRange "substr")

def byteAt (index : Nat) (bytes : Bytes) : Except Fault UInt8 :=
  match bytes[index]? with
  | none => .error (.outOfRange "operator[]")
  | some byte => .ok byte

def back (bytes : Bytes) : Except Fault UInt8 :=
  match bytes.getLast? with
  | none => .error (.outOfRange "back")
  | some byte => .ok byte

/-- A difference of a `size_t`, which must not go around below zero. -/
def difference (left right : Nat) : Except Fault Nat :=
  if right ≤ left then .ok (left - right) else .error (.outOfRange "size_t")

/-! ## The parser -/

def checksumLoop (wire : Bytes) : Nat → Nat → UInt32 → Except Fault UInt32
  | 0, _, sum => .ok (sum % 256)
  | count + 1, index, sum => do
    let character ← byteAt index wire
    checksumLoop wire count (index + 1) (sum + character.toUInt32)

def parseFieldsChecked (wire : Bytes) (checksumOffset : Nat) :
    Nat → Nat → Message → Except Fault (Except String Message)
  | 0, _, parsed => .ok (.ok parsed)
  | fuel + 1, cursor, parsed =>
    if cursor < checksumOffset then
      match find soh cursor wire with
      | none => .ok (.error "truncated FIX field")
      | some fieldEnd =>
        if fieldEnd ≥ checksumOffset then .ok (.error "truncated FIX field")
        else do
          let size ← difference fieldEnd cursor
          let field ← substrAt cursor size wire
          match find equalsSign 0 field with
          | none => .ok (.error "invalid FIX field")
          | some equals =>
            if equals = 0 then .ok (.error "invalid FIX field")
            else do
              let tagText ← substrAt 0 equals field
              match parseTag tagText with
              | none => .ok (.error "invalid FIX tag")
              | some tag => do
                let value ← suffixAt (equals + 1) field
                parseFieldsChecked wire checksumOffset fuel (fieldEnd + 1) (parsed.add tag value)
    else .ok (.ok parsed)

/-- With the checksum field in its place. -/
def parseTrailerChecked (wire : Bytes) (bodyStart bodyLength checksumOffset : Nat) :
    Except Fault (Except String Message) := do
  let checksumText ← substrAt (checksumOffset + 3) 3 wire
  match parseSize checksumText with
  | none => .ok (.error "invalid CheckSum field")
  | some checksum =>
    if checksum > 255 then .ok (.error "invalid CheckSum field")
    else do
      let last ← byteAt (checksumOffset + 6) wire
      if last ≠ soh then .ok (.error "invalid CheckSum field")
      else do
        let sum ← checksumLoop wire checksumOffset 0 0
        if sum.toNat ≠ checksum then .ok (.error "CheckSum mismatch")
        else do
          let outcome ← parseFieldsChecked wire checksumOffset bodyLength bodyStart {}
          match outcome with
          | .error error => .ok (.error error)
          | .ok parsed =>
            match parsed.get 35 with
            | none => .ok (.error "MsgType (35) is required")
            | some msgType =>
              if msgType = [] then .ok (.error "MsgType (35) is required") else .ok (.ok parsed)

def parseBodyChecked (wire : Bytes) (bodyStart bodyLength : Nat) :
    Except Fault (Except String Message) := do
  let available ← difference wire.length bodyStart
  if bodyLength > available then .ok (.error "BodyLength exceeds message size")
  else
    let checksumOffset := bodyStart + bodyLength
    if checksumOffset + 7 ≠ wire.length then .ok (.error "BodyLength does not end at CheckSum")
    else do
      let trailer ← suffixAt checksumOffset wire
      if !(text "10=").isPrefixOf trailer then .ok (.error "BodyLength does not end at CheckSum")
      else do
        let last ← back wire
        if last ≠ soh then .ok (.error "BodyLength does not end at CheckSum")
        else parseTrailerChecked wire bodyStart bodyLength checksumOffset

def parseChecked (wire : Bytes) : Except Fault (Except String Message) :=
  if !beginString.isPrefixOf wire then .ok (.error "BeginString must be FIX.4.4")
  else
    match find soh 0 wire with
    | none => .ok (.error "truncated BeginString")
    | some beginEnd => do
      let bodyLengthStart := beginEnd + 1
      let after ← suffixAt bodyLengthStart wire
      if !(text "9=").isPrefixOf after then .ok (.error "BodyLength must be the second field")
      else
        match find soh bodyLengthStart wire with
        | none => .ok (.error "truncated BodyLength")
        | some bodyLengthEnd => do
          let size ← difference bodyLengthEnd (bodyLengthStart + 2)
          let number ← substrAt (bodyLengthStart + 2) size wire
          match parseSize number with
          | none => .ok (.error "invalid BodyLength")
          | some bodyLength => parseBodyChecked wire (bodyLengthEnd + 1) bodyLength

/-! ## Nothing is out of range -/

section Range

variable {wire : Bytes} {bodyStart bodyLength checksumOffset : Nat}

theorem substrAt_eq {start count : Nat} {bytes : Bytes} (h : start ≤ bytes.length) :
    substrAt start count bytes = .ok (substr start count bytes) := if_pos h

theorem suffixAt_eq {start : Nat} {bytes : Bytes} (h : start ≤ bytes.length) :
    suffixAt start bytes = .ok (bytes.drop start) := if_pos h

theorem difference_eq {left right : Nat} (h : right ≤ left) :
    difference left right = .ok (left - right) := if_pos h

theorem byteAt_eq {index : Nat} {bytes : Bytes} (h : index < bytes.length) :
    byteAt index bytes = .ok bytes[index] := by
  rw [byteAt, List.getElem?_eq_getElem h]

theorem ok_bind {α β : Type} (a : α) (f : α → Except Fault β) : (Except.ok a >>= f) = f a := rfl

theorem checksumLoop_eq {before rest : Bytes} (chunk : Bytes) (sum : UInt32) :
    checksumLoop (before ++ (chunk ++ rest)) chunk.length before.length sum =
      .ok (chunk.foldl (fun sum character => sum + character.toUInt32) sum % 256) := by
  induction chunk generalizing before sum with
  | nil => rfl
  | cons byte chunk ih =>
    have hwire : before ++ (byte :: chunk ++ rest) = (before ++ [byte]) ++ (chunk ++ rest) := by simp
    have hlength : before.length + 1 = (before ++ [byte]).length := by simp
    have hbyte : byteAt before.length (before ++ (byte :: chunk ++ rest)) = .ok byte := by
      rw [byteAt, List.getElem?_append_right (Nat.le_refl _), Nat.sub_self]
      rfl
    rw [List.length_cons, checksumLoop, hbyte, ok_bind, hwire, hlength, ih, List.foldl_cons]

theorem checksumLoop_before (h : checksumOffset ≤ wire.length) :
    checksumLoop wire checksumOffset 0 0 = .ok (checksumBefore wire checksumOffset) := by
  have hloop := @checksumLoop_eq [] (wire.drop checksumOffset) (wire.take checksumOffset) 0
  rw [List.nil_append, List.take_append_drop, List.length_take, Nat.min_eq_left h] at hloop
  exact hloop

/-- What is found in the wire is in range, so the field is, and so are the parts of it. -/
theorem parseFieldsChecked_eq (fuel cursor : Nat) (parsed : Message) :
    parseFieldsChecked wire checksumOffset fuel cursor parsed =
      .ok (parseFields wire checksumOffset fuel cursor parsed) := by
  induction fuel generalizing cursor parsed with
  | zero => rfl
  | succ fuel ih =>
    rw [parseFieldsChecked, parseFields]
    split
    swap
    · rfl
    cases hfield : find soh cursor wire with
    | none => rfl
    | some fieldEnd =>
      obtain ⟨hcursor, hend⟩ := find_bounds hfield
      dsimp only
      split
      · rfl
      rw [difference_eq hcursor, ok_bind, substrAt_eq (by omega), ok_bind]
      cases hequals : find equalsSign 0 (substr cursor (fieldEnd - cursor) wire) with
      | none => rfl
      | some equals =>
        have hbound := (find_bounds hequals).2
        dsimp only
        split
        · rfl
        rw [substrAt_eq (Nat.zero_le _), ok_bind]
        cases parseTag (substr 0 equals (substr cursor (fieldEnd - cursor) wire)) with
        | none => rfl
        | some tag =>
          dsimp only
          rw [suffixAt_eq (by omega), ok_bind, ih]

/-- The checksum field is in its place. -/
theorem parseTrailerChecked_eq (hend : bodyStart + bodyLength + 7 = wire.length)
    (htag : (text "10=").isPrefixOf (wire.drop (bodyStart + bodyLength)) = true)
    (hsoh : wire.getLast? = some soh) :
    parseTrailerChecked wire bodyStart bodyLength (bodyStart + bodyLength) =
      .ok (parseBody wire bodyStart bodyLength) := by
  rw [parseBody, if_neg (by omega), parseTrailerChecked, substrAt_eq (by omega), ok_bind]
  dsimp only
  rw [if_neg (by simp [hend, htag, hsoh])]
  cases parseSize (substr (bodyStart + bodyLength + 3) 3 wire) with
  | none => rfl
  | some checksum =>
    dsimp only
    split
    · rename_i hlarge
      rw [if_pos (.inl hlarge)]
    rename_i hsmall
    have hlast : bodyStart + bodyLength + 6 < wire.length := by omega
    rw [byteAt_eq hlast, ok_bind, List.getElem?_eq_getElem hlast]
    split
    · rename_i hne
      rw [if_pos (.inr fun heq => hne (Option.some.inj heq))]
    rename_i heq
    rw [not_not] at heq
    rw [if_neg (by simp [hsmall, heq]), checksumLoop_before (by omega), ok_bind]
    split
    · rfl
    rw [parseFieldsChecked_eq, ok_bind]
    cases parseFields wire (bodyStart + bodyLength) bodyLength bodyStart {} with
    | error error => rfl
    | ok parsed =>
      dsimp only [bind, Except.bind]
      cases parsed.get 35 with
      | none => rfl
      | some msgType =>
        dsimp only
        split <;> rfl

theorem parseBodyChecked_eq (h : bodyStart ≤ wire.length) :
    parseBodyChecked wire bodyStart bodyLength = .ok (parseBody wire bodyStart bodyLength) := by
  rw [parseBodyChecked, difference_eq h, ok_bind]
  split
  · rename_i hlarge
    rw [parseBody, if_pos hlarge]
  rename_i hfits
  dsimp only
  by_cases hseven : bodyStart + bodyLength + 7 = wire.length
  swap
  · rw [parseBody, if_neg hfits, if_pos hseven]
    exact congrArg Except.ok (if_pos (.inl hseven)).symm
  rw [if_neg (not_not.mpr hseven), suffixAt_eq (by omega), ok_bind]
  by_cases htag : (text "10=").isPrefixOf (wire.drop (bodyStart + bodyLength)) = true
  swap
  · rw [parseBody, if_neg hfits]
    rw [Bool.not_eq_true] at htag
    simp [htag]
  rw [htag, Bool.not_true, if_neg Bool.false_ne_true]
  have hne : wire ≠ [] := List.ne_nil_of_length_pos (by omega)
  have hlast := List.getLast?_eq_some_getLast hne
  rw [back, hlast]
  dsimp only
  rw [ok_bind]
  split
  · rename_i hother
    rw [parseBody, if_neg hfits]
    simp [hlast, hother]
  · rename_i hsoh
    rw [not_not] at hsoh
    exact parseTrailerChecked_eq hseven htag (hlast.trans (congrArg some hsoh))

/-- No index, no substring and no difference of positions is out of range. -/
theorem parseChecked_eq (wire : Bytes) : parseChecked wire = .ok (parse wire) := by
  rw [parseChecked, parse]
  split
  · rfl
  cases hbegin : find soh 0 wire with
  | none => rfl
  | some beginEnd =>
    have hbound := (find_bounds hbegin).2
    dsimp only
    rw [suffixAt_eq (by omega), ok_bind]
    split
    · rfl
    rename_i htag
    rw [Bool.not_eq_true', Bool.not_eq_false, List.isPrefixOf_iff_prefix] at htag
    cases hsecond : find soh (beginEnd + 1) wire with
    | none => rfl
    | some bodyLengthEnd =>
      obtain ⟨-, hend⟩ := find_bounds hsecond
      have hlong : beginEnd + 1 + 2 ≤ bodyLengthEnd := by
        obtain ⟨chunk, rest, hdrop, hchunk, rfl⟩ := find_eq_some hsecond
        rw [hdrop] at htag
        have hle : 2 ≤ chunk.length := length_le_of_begins (by decide) htag
        omega
      dsimp only
      rw [difference_eq hlong, ok_bind, substrAt_eq (by omega), ok_bind]
      cases parseSize (substr (beginEnd + 1 + 2) (bodyLengthEnd - (beginEnd + 1 + 2)) wire) with
      | none => rfl
      | some bodyLength => exact parseBodyChecked_eq (by omega)

end Range

/-- The parser returns for every string, without an operation out of range, and what it accepts is
the grammar: with the fields of the body, in order. -/
theorem grammar_exact (wire : Bytes) :
    ∃ outcome, parseChecked wire = .ok outcome ∧ outcome = parse wire ∧
      ∀ message, outcome = .ok message ↔ Grammatical wire message :=
  ⟨parse wire, parseChecked_eq wire, rfl, parse_iff wire⟩

end Fix

end ExchangeLab

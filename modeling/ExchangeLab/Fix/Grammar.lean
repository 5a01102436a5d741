import ExchangeLab.Fix.Header

/-!
# ExchangeLab.Fix.Grammar

What `parse` accepts.

* `Grammatical`: the grammar of a message, and what the fields of it are.
* `parseFields_turn`: one turn of the loop over the fields.
* `parseFields_iff`, `parseBody_iff`, `parse_iff`: sound and complete, from the inside out.
-/

namespace ExchangeLab

namespace Fix

open Wire

/-! ## The grammar -/

/-- `tag=value`, ended. -/
inductive FieldText : Field → Bytes → Prop
  | intro {field : Field} {tag : Bytes} {n : Nat} (htag : Numeral tag n)
      (hrange : 1 ≤ n ∧ n ≤ 2 ^ 31 - 1) (hfield : field.tag.toInt = n) (hvalue : soh ∉ field.value) :
      FieldText field (tag ++ [equalsSign] ++ field.value ++ [soh])

inductive BodyText : List Field → Bytes → Prop
  | nil : BodyText [] []
  | cons {field : Field} {fields : List Field} {first rest : Bytes} (hfirst : FieldText field first)
      (hrest : BodyText fields rest) : BodyText (field :: fields) (first ++ rest)

/-- The sum of the bytes as unsigned numbers. -/
def byteSum (bytes : Bytes) : Nat := (bytes.map UInt8.toNat).sum

/-- The wire has the fields of the message in its body, and the numbers around them are right. -/
inductive Grammatical : Bytes → Message → Prop
  | intro {message : Message} {number body checksum : Bytes}
      (hnumber : Numeral number body.length) (hfits : body.length < 2 ^ 64)
      (hbody : BodyText message.fields body)
      (hmsgType : ∃ value, message.get 35 = some value ∧ value ≠ [])
      (hthree : checksum.length = 3)
      (hchecksum : ∃ sum, Numeral checksum sum ∧ sum ≤ 255 ∧
        sum = byteSum (beginString ++ text "9=" ++ number ++ [soh] ++ body) % 256) :
      Grammatical (beginString ++ text "9=" ++ number ++ [soh] ++ body ++ text "10=" ++ checksum ++
        [soh]) message

/-! ## Numbers -/

theorem parseSize_iff {text : Bytes} {n : Nat} :
    parseSize text = some n ↔ Numeral text n ∧ n < 2 ^ 64 := by
  rw [parseSize, Option.bind_eq_bind, Option.bind_eq_some_iff]
  constructor
  · rintro ⟨m, hread, h⟩
    split at h
    · rename_i hlt
      cases h
      exact ⟨readDecimal_iff.mp hread, hlt⟩
    · cases h
  · rintro ⟨hnumeral, hlt⟩
    exact ⟨n, readDecimal_iff.mpr hnumeral, if_pos hlt⟩

theorem toInt_ofNat_tag {n : Nat} (h : n ≤ 2 ^ 31 - 1) : (Int32.ofNat n).toInt = n := by
  rw [Int32.toInt_ofNat_of_lt (by omega)]

theorem parseTag_iff {text : Bytes} {tag : Int32} :
    parseTag text = some tag ↔
      ∃ n, Numeral text n ∧ (1 ≤ n ∧ n ≤ 2 ^ 31 - 1) ∧ tag.toInt = n := by
  rw [parseTag, Option.bind_eq_bind, Option.bind_eq_some_iff]
  constructor
  · rintro ⟨n, hread, h⟩
    split at h
    · rename_i hrange
      cases h
      exact ⟨n, readDecimal_iff.mp hread, by omega, toInt_ofNat_tag (by omega)⟩
    · cases h
  · rintro ⟨n, hnumeral, hrange, htag⟩
    refine ⟨n, readDecimal_iff.mpr hnumeral, ?_⟩
    rw [if_pos (by omega), Option.some_inj]
    exact Int32.toInt_inj.mp ((toInt_ofNat_tag hrange.2).trans htag.symm)

theorem soh_not_mem_numeral {text : Bytes} {n : Nat} (h : Numeral text n) : soh ∉ text :=
  h.not_mem (.inl (by decide))

theorem equalsSign_not_mem_numeral {text : Bytes} {n : Nat} (h : Numeral text n) :
    equalsSign ∉ text :=
  h.not_mem (.inr (by decide))

/-- The sum that the loop builds up may go around at 2^32, which 256 divides. -/
theorem checksumBefore_toNat (wire : Bytes) (checksumOffset : Nat) :
    (checksumBefore wire checksumOffset).toNat = byteSum (wire.take checksumOffset) % 256 := by
  have hsum : ∀ (bytes : Bytes) (sum : UInt32),
      (bytes.foldl (fun sum character => sum + character.toUInt32) sum).toNat =
        (sum.toNat + byteSum bytes) % 2 ^ 32 := by
    intro bytes
    induction bytes with
    | nil =>
      intro sum
      exact (Nat.mod_eq_of_lt sum.toNat_lt).symm
    | cons byte bytes ih =>
      intro sum
      rw [List.foldl_cons, ih, UInt32.toNat_add, UInt8.toNat_toUInt32, byteSum, byteSum, List.map_cons,
        List.sum_cons, Nat.mod_add_mod, Nat.add_assoc]
  rw [checksumBefore, UInt32.toNat_mod, hsum]
  have hzero : (0 : UInt32).toNat = 0 := rfl
  have h256 : (256 : UInt32).toNat = 256 := rfl
  rw [hzero, h256, Nat.zero_add]
  omega

/-! ## Fields -/

/-- A field ends at its first SOH. -/
theorem FieldText.ends {field : Field} {bytes : Bytes} (h : FieldText field bytes) :
    ∃ chunk, bytes = chunk ++ [soh] ∧ soh ∉ chunk := by
  obtain ⟨htag, -, -, hvalue⟩ := h
  refine ⟨_, rfl, ?_⟩
  rw [List.mem_append, List.mem_append, List.mem_singleton, not_or, not_or]
  exact ⟨⟨soh_not_mem_numeral htag, by decide⟩, hvalue⟩

section Fields

variable {before chunk body tail : Bytes} {fuel : Nat} {parsed message : Message} {fields : List Field}

theorem bodyText_nil_iff : BodyText fields [] ↔ fields = [] := by
  constructor
  · intro h
    generalize hbytes : ([] : Bytes) = bytes at h
    cases h with
    | nil => rfl
    | cons hfirst _ =>
      obtain ⟨chunk, rfl, -⟩ := hfirst.ends
      simp at hbytes
  · rintro rfl
    exact .nil

theorem bodyText_cons_iff (hchunk : soh ∉ chunk) :
    BodyText fields (chunk ++ soh :: body) ↔ ∃ field rest, fields = field :: rest ∧
      FieldText field (chunk ++ [soh]) ∧ BodyText rest body := by
  constructor
  · intro h
    generalize hbytes : chunk ++ soh :: body = bytes at h
    cases h with
    | nil => simp at hbytes
    | @cons field rest first _ hfirst hrest =>
      obtain ⟨chunk', rfl, hchunk'⟩ := hfirst.ends
      rw [List.append_assoc, List.singleton_append] at hbytes
      obtain ⟨rfl, rfl⟩ := append_byte_inj hchunk hchunk' hbytes
      exact ⟨field, rest, rfl, hfirst, hrest⟩
  · rintro ⟨field, rest, rfl, hfirst, hrest⟩
    have htext : chunk ++ soh :: body = (chunk ++ [soh]) ++ body := by simp
    rw [htext]
    exact .cons hfirst hrest

theorem soh_mem_bodyText (h : BodyText fields body) (hne : body ≠ []) : soh ∈ body := by
  cases h with
  | nil => exact absurd rfl hne
  | cons hfirst _ =>
    obtain ⟨chunk, rfl, -⟩ := hfirst.ends
    simp

/-- What a turn makes of the bytes up to the next SOH. -/
def readField (chunk : Bytes) : Except String Field :=
  match find equalsSign 0 chunk with
  | none => .error "invalid FIX field"
  | some equals =>
    if equals = 0 then .error "invalid FIX field"
    else
      match parseTag (substr 0 equals chunk) with
      | none => .error "invalid FIX tag"
      | some tag => .ok ⟨tag, chunk.drop (equals + 1)⟩

theorem readField_iff {field : Field} (hchunk : soh ∉ chunk) :
    readField chunk = .ok field ↔ FieldText field (chunk ++ [soh]) := by
  constructor
  · intro h
    unfold readField at h
    split at h
    · cases h
    rename_i equals hequals
    split at h
    · cases h
    rename_i hne
    split at h
    · cases h
    rename_i tag htag
    cases h
    obtain ⟨tagText, value, hdrop, hnone, heq⟩ := find_eq_some hequals
    rw [List.drop_zero] at hdrop
    rw [Nat.zero_add] at heq
    subst hdrop heq
    have hsubstr := @substr_append [] tagText (equalsSign :: value)
    rw [List.length_nil, List.nil_append] at hsubstr
    rw [hsubstr] at htag
    obtain ⟨n, hnumeral, hrange, hn⟩ := parseTag_iff.mp htag
    have hvalue : (tagText ++ equalsSign :: value).drop (tagText.length + 1) = value := by
      rw [← List.drop_drop, List.drop_left]
      rfl
    rw [hvalue]
    have htext : tagText ++ equalsSign :: value ++ [soh] =
        tagText ++ [equalsSign] ++ value ++ [soh] := by simp
    rw [htext]
    refine .intro hnumeral hrange hn ?_
    intro hmem
    exact hchunk (List.mem_append_right _ (.tail _ hmem))
  · intro h
    generalize hbytes : chunk ++ [soh] = bytes at h
    cases h with
    | @intro tag n htag hrange hfield hvalue =>
      have hchunk' : chunk = tag ++ equalsSign :: field.value := by
        have := List.append_cancel_right hbytes
        simpa using this
      subst hchunk'
      have hfind := @find_append equalsSign [] tag field.value (equalsSign_not_mem_numeral htag)
      have hsubstr := @substr_append [] tag (equalsSign :: field.value)
      rw [List.length_nil, List.nil_append] at hsubstr hfind
      rw [Nat.zero_add] at hfind
      have hvalue' : (tag ++ equalsSign :: field.value).drop (tag.length + 1) = field.value := by
        rw [← List.drop_drop, List.drop_left]
        rfl
      have hpos : tag.length ≠ 0 := by
        rw [Ne, List.length_eq_zero_iff]
        exact (numeral_iff.mp htag).1
      rw [readField, hfind]
      simp only
      rw [if_neg hpos, hsubstr, parseTag_iff.mpr ⟨n, htag, hrange, hfield⟩]
      simp only
      rw [hvalue']

theorem parseFields_turn (hchunk : soh ∉ chunk) :
    parseFields (before ++ ((chunk ++ soh :: body) ++ tail))
        (before.length + (chunk ++ soh :: body).length) (fuel + 1) before.length parsed =
      (readField chunk).bind fun field =>
        parseFields ((before ++ (chunk ++ [soh])) ++ (body ++ tail))
          ((before ++ (chunk ++ [soh])).length + body.length) fuel
          (before ++ (chunk ++ [soh])).length (parsed.add field.tag field.value) := by
  have hwire : before ++ ((chunk ++ soh :: body) ++ tail) =
      (before ++ (chunk ++ [soh])) ++ (body ++ tail) := by simp
  have hfind : find soh before.length (before ++ ((chunk ++ soh :: body) ++ tail)) =
      some (before.length + chunk.length) := by
    rw [List.append_assoc, List.cons_append]
    exact find_append hchunk
  have hsubstr : substr before.length chunk.length (before ++ ((chunk ++ soh :: body) ++ tail)) =
      chunk := by
    rw [List.append_assoc]
    exact substr_append
  have hlength : (chunk ++ soh :: body).length = chunk.length + 1 + body.length := by
    rw [List.length_append, List.length_cons]
    omega
  have hnext : (before ++ (chunk ++ [soh])).length = before.length + chunk.length + 1 := by
    rw [List.length_append, List.length_append]
    rfl
  rw [parseFields, hfind, hlength, hnext, if_pos (by omega)]
  simp only
  rw [if_neg (by omega), Nat.add_sub_cancel_left, hsubstr, readField]
  cases find equalsSign 0 chunk with
  | none => rfl
  | some equals =>
    simp only
    split
    · rfl
    · cases parseTag (substr 0 equals chunk) with
      | none => rfl
      | some tag =>
        simp only [Except.bind]
        rw [hwire, ← Nat.add_assoc, ← Nat.add_assoc]

theorem parseFields_end (checksumOffset : Nat) (wire : Bytes) :
    parseFields wire checksumOffset fuel checksumOffset parsed = .ok parsed := by
  cases fuel with
  | zero => rfl
  | succ fuel => exact if_neg (Nat.lt_irrefl _)

/-- The last field is not ended. -/
theorem parseFields_truncated (hbody : soh ∉ body) (hne : body ≠ []) :
    parseFields (before ++ (body ++ tail)) (before.length + body.length) (fuel + 1) before.length
      parsed = .error "truncated FIX field" := by
  have hpos := List.length_pos_iff.mpr hne
  rw [parseFields, if_pos (by omega)]
  split
  · rfl
  rename_i fieldEnd hfind
  refine if_pos ?_
  obtain ⟨chunk, rest, hdrop, hchunk, rfl⟩ := find_eq_some hfind
  rw [List.drop_left] at hdrop
  have hle : body.length ≤ chunk.length :=
    length_le_of_begins hbody (hdrop ▸ List.prefix_append body tail)
  omega

theorem parseFields_empty_iff :
    parseFields (before ++ ([] ++ tail)) (before.length + ([] : Bytes).length) fuel before.length
        parsed = .ok message ↔
      ∃ fields, message.fields = parsed.fields ++ fields ∧ BodyText fields [] := by
  rw [List.length_nil, Nat.add_zero, parseFields_end]
  simp only [bodyText_nil_iff, exists_eq_right, List.append_nil, Except.ok.injEq]
  obtain ⟨fields⟩ := message
  obtain ⟨fields'⟩ := parsed
  rw [Message.mk.injEq]
  exact eq_comm

/-- The loop reads exactly the fields of the body. -/
theorem parseFields_iff (hfuel : body.length ≤ fuel) :
    parseFields (before ++ (body ++ tail)) (before.length + body.length) fuel before.length parsed =
        .ok message ↔
      ∃ fields, message.fields = parsed.fields ++ fields ∧ BodyText fields body := by
  induction fuel generalizing before body parsed with
  | zero =>
    obtain rfl : body = [] := List.length_eq_zero_iff.mp (by omega)
    exact parseFields_empty_iff
  | succ fuel ih =>
    by_cases hmem : soh ∈ body
    · obtain ⟨chunk, rest, rfl, hchunk⟩ := List.eq_append_cons_of_mem hmem
      rw [List.length_append, List.length_cons] at hfuel
      rw [parseFields_turn hchunk]
      simp only [bodyText_cons_iff hchunk, ← readField_iff hchunk]
      cases hread : readField chunk with
      | error error => simp [Except.bind]
      | ok field =>
        simp only [Except.bind]
        rw [ih (by omega)]
        constructor
        · rintro ⟨fields, hfields, hrest⟩
          refine ⟨field :: fields, ?_, field, fields, rfl, rfl, hrest⟩
          rw [hfields, Message.add, List.append_assoc, List.singleton_append]
        · rintro ⟨_, hfields, other, fields, rfl, hother, hrest⟩
          cases hother
          refine ⟨fields, ?_, hrest⟩
          rw [hfields, Message.add, List.append_assoc, List.singleton_append]
    · by_cases hne : body = []
      · subst hne
        exact parseFields_empty_iff
      · rw [parseFields_truncated hmem hne]
        refine ⟨fun h => (by cases h), ?_⟩
        rintro ⟨fields, -, hbody⟩
        exact absurd (soh_mem_bodyText hbody hne) hmem

end Fields

/-! ## Whole messages -/

section Messages

variable {front rest body checksum : Bytes} {n : Nat} {message : Message}

/-- The checks of the checksum field, where it is in its place. -/
theorem parseBody_trailer (hthree : checksum.length = 3) :
    parseBody (front ++ (body ++ (text "10=" ++ (checksum ++ [soh])))) front.length body.length =
        .ok message ↔
      (∃ sum, Numeral checksum sum ∧ sum ≤ 255 ∧ sum = byteSum (front ++ body) % 256) ∧
        BodyText message.fields body ∧ ∃ value, message.get 35 = some value ∧ value ≠ [] := by
  generalize htail : text "10=" ++ (checksum ++ [soh]) = tail
  have hseven : tail.length = 7 := by
    rw [← htail, List.length_append, List.length_append, hthree]
    rfl
  have hdrop : (front ++ (body ++ tail)).drop (front.length + body.length) = tail := by
    rw [← List.drop_drop, List.drop_left, List.drop_left]
  have hlength : (front ++ (body ++ tail)).length = front.length + body.length + 7 := by
    rw [List.length_append, List.length_append, hseven, Nat.add_assoc]
  have htag : (text "10=").isPrefixOf tail = true := by
    rw [List.isPrefixOf_iff_prefix, ← htail]
    exact List.prefix_append _ _
  have hends : (front ++ (body ++ tail)).getLast? = some soh := by
    rw [← htail, ← List.append_assoc, ← List.append_assoc, ← List.append_assoc]
    exact List.getLast?_concat ..
  have hthird : substr (front.length + body.length + 3) 3 (front ++ (body ++ tail)) = checksum := by
    rw [substr, ← List.drop_drop, hdrop, ← htail]
    have h3 : (text "10=" ++ (checksum ++ [soh])).drop 3 = checksum ++ [soh] := rfl
    rw [h3, ← hthree, List.take_left]
  have hlast : (front ++ (body ++ tail))[front.length + body.length + 6]? = some soh := by
    rw [← List.getElem?_drop, hdrop, ← htail]
    have h6 : (text "10=" ++ (checksum ++ [soh]))[6]? = (checksum ++ [soh])[3]? := rfl
    rw [h6, ← hthree, List.getElem?_concat_length]
  have hsum : (checksumBefore (front ++ (body ++ tail)) (front.length + body.length)).toNat =
      byteSum (front ++ body) % 256 := by
    rw [checksumBefore_toNat, ← List.append_assoc, ← List.length_append, List.take_left]
  have hfields := @parseFields_iff front body tail body.length {} message (Nat.le_refl _)
  simp only [List.nil_append, exists_eq_left'] at hfields
  rw [parseBody, if_neg (by omega)]
  simp only [hdrop, hlength, htag, hends, hthird, hlast, hsum, ne_eq, not_true_eq_false,
    Bool.not_true, Bool.false_eq_true, or_false, if_false]
  cases hread : parseSize checksum with
  | none =>
    refine ⟨fun h => (by cases h), ?_⟩
    rintro ⟨⟨sum, hnumeral, hsmall, -⟩, -⟩
    rw [parseSize_iff.mpr ⟨hnumeral, by omega⟩] at hread
    cases hread
  | some value =>
    have hvalue := (parseSize_iff.mp hread).1
    have hiff : (∃ sum, Numeral checksum sum ∧ sum ≤ 255 ∧ sum = byteSum (front ++ body) % 256) ↔
        value ≤ 255 ∧ byteSum (front ++ body) % 256 = value := by
      constructor
      · rintro ⟨sum, hnumeral, hsmall, rfl⟩
        obtain rfl := hnumeral.unique hvalue
        exact ⟨hsmall, rfl⟩
      · rintro ⟨hsmall, heq⟩
        exact ⟨value, hvalue, hsmall, heq.symm⟩
    rw [hiff]
    dsimp only
    split
    · rename_i hlarge
      exact ⟨fun h => (by cases h), fun h => absurd h.1.1 (by omega)⟩
    rename_i hsmall
    split
    · rename_i hne
      exact ⟨fun h => (by cases h), fun h => absurd h.1.2 hne⟩
    rename_i heq
    rw [and_iff_right ⟨by omega, not_not.mp heq⟩, ← hfields]
    cases parseFields (front ++ (body ++ tail)) (front.length + body.length) body.length
        front.length {} with
    | error error => exact ⟨fun h => (by cases h), fun h => (by cases h.1)⟩
    | ok parsed =>
      simp only [bind, Except.bind, Except.ok.injEq]
      split
      · rename_i hnone
        refine ⟨fun h => (by cases h), ?_⟩
        rintro ⟨rfl, value, hvalue, -⟩
        rw [hnone] at hvalue
        cases hvalue
      · rename_i msgType hmsgType
        split
        · rename_i hempty
          refine ⟨fun h => (by cases h), ?_⟩
          rintro ⟨rfl, value, hvalue, hne⟩
          rw [hmsgType] at hvalue
          cases hvalue
          exact absurd hempty hne
        · rename_i hne
          rw [Except.ok.injEq]
          exact ⟨fun h => ⟨h, msgType, h ▸ hmsgType, hne⟩, And.left⟩

/-- The body length leads to a checksum field of three characters at the end. -/
theorem trailer_of_parseBody (h : parseBody (front ++ rest) front.length n = .ok message) :
    ∃ body checksum, rest = body ++ (text "10=" ++ (checksum ++ [soh])) ∧ body.length = n ∧
      checksum.length = 3 := by
  unfold parseBody at h
  split at h
  · cases h
  dsimp only at h
  split at h
  · cases h
  rename_i hplace
  rw [not_or, not_or, not_not, not_not, Bool.not_eq_true', Bool.not_eq_false,
    List.isPrefixOf_iff_prefix, ← List.drop_drop, List.drop_left] at hplace
  obtain ⟨hseven, ⟨left, hleft⟩, hends⟩ := hplace
  rw [List.length_append] at hseven
  have htag : (text "10=").length = 3 := rfl
  have hfour : left.length = 4 := by
    have hlength := congrArg List.length hleft
    rw [List.length_append, List.length_drop, htag] at hlength
    omega
  have hsplit : rest = rest.take n ++ (text "10=" ++ left) := by
    rw [hleft, List.take_append_drop]
  have hne : left ≠ [] := List.ne_nil_of_length_pos (by omega)
  have hlast : left.getLast hne = soh := by
    rw [hsplit, ← List.append_assoc, ← List.append_assoc, List.getLast?_append_of_ne_nil _ hne,
      List.getLast?_eq_some_getLast hne, Option.some_inj] at hends
    exact hends
  refine ⟨rest.take n, left.dropLast, ?_, ?_, ?_⟩
  · rw [← hlast, List.dropLast_concat_getLast hne]
    exact hsplit
  · rw [List.length_take]
    omega
  · rw [List.length_dropLast]
    omega

/-- A wire is parsed exactly when it is a message of the grammar, and into its fields. -/
theorem parse_iff (wire : Bytes) (message : Message) :
    parse wire = .ok message ↔ Grammatical wire message := by
  constructor
  · intro h
    obtain ⟨number, rest, hnumber, rfl⟩ := header_of_parse h
    rw [parse_headerWith hnumber] at h
    split at h
    · cases h
    rename_i n hread
    obtain ⟨body, checksum, rfl, rfl, hthree⟩ := trailer_of_parseBody h
    obtain ⟨hnumeral, hfits⟩ := parseSize_iff.mp hread
    obtain ⟨hsum, hbody, hmsgType⟩ := (parseBody_trailer hthree).mp h
    have hwire : headerWith number ++ (body ++ (text "10=" ++ (checksum ++ [soh]))) =
        beginString ++ text "9=" ++ number ++ [soh] ++ body ++ text "10=" ++ checksum ++ [soh] := by
      simp [headerWith]
    have hfront : headerWith number = beginString ++ text "9=" ++ number ++ [soh] := by
      simp [headerWith]
    rw [hwire]
    rw [hfront] at hsum
    exact .intro hnumeral hfits hbody hmsgType hthree hsum
  · rintro ⟨hnumber, hfits, hbody, hmsgType, hthree, hsum⟩
    rename_i number body checksum
    have hwire : beginString ++ text "9=" ++ number ++ [soh] ++ body ++ text "10=" ++ checksum ++
        [soh] = headerWith number ++ (body ++ (text "10=" ++ (checksum ++ [soh]))) := by
      simp [headerWith]
    have hfront : headerWith number = beginString ++ text "9=" ++ number ++ [soh] := by
      simp [headerWith]
    rw [hwire, parse_headerWith (soh_not_mem_numeral hnumber),
      parseSize_iff.mpr ⟨hnumber, hfits⟩]
    rw [← hfront] at hsum
    exact (parseBody_trailer hthree).mpr ⟨hsum, hbody, hmsgType⟩

end Messages

end Fix

end ExchangeLab

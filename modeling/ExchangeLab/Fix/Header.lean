import ExchangeLab.FixCodec

/-!
# ExchangeLab.Fix.Header

The front of a FIX message, up to the body, with any text for the body length.

* `header_cases`: what can stand behind a BeginString.
* `parse_headerWith`, `extractAligned_headerWith`: what the two readers do once the header is there.
-/

namespace ExchangeLab

namespace Fix

open Wire

def headerWith (number : Bytes) : Bytes := beginString ++ (text "9=" ++ (number ++ [soh]))

section Header

variable {number rest after : Bytes}

theorem length_headerWith (number : Bytes) : (headerWith number).length = 13 + number.length := by
  simp only [headerWith, List.length_append, List.length_singleton]
  have hbegin : beginString.length = 10 := rfl
  have htag : (text "9=").length = 2 := rfl
  omega

theorem headerWith_append :
    headerWith number ++ rest = beginString ++ ((text "9=" ++ number) ++ soh :: rest) := by
  simp [headerWith]

theorem find_beginString (rest : Bytes) : find soh 0 (beginString ++ rest) = some 9 := by
  have hfind := @find_append soh [] (text "8=FIX.4.4") rest (by decide)
  rw [List.nil_append] at hfind
  rw [beginString, List.append_assoc]
  exact hfind

theorem not_mem_lengthField (h : soh ∉ number) : soh ∉ text "9=" ++ number := by
  rw [List.mem_append, not_or]
  exact ⟨by decide, h⟩

theorem find_headerWith (h : soh ∉ number) :
    find soh 10 (headerWith number ++ rest) = some (12 + number.length) := by
  have hfind := @find_append soh beginString _ rest (not_mem_lengthField h)
  have hlength : beginString.length + (text "9=" ++ number).length = 12 + number.length := by
    rw [List.length_append, ← Nat.add_assoc]
    rfl
  rw [headerWith_append]
  rw [hlength] at hfind
  exact hfind

theorem substr_headerWith : substr 12 number.length (headerWith number ++ rest) = number := by
  have hsubstr := @substr_append (beginString ++ text "9=") number (soh :: rest)
  rw [headerWith_append, List.append_assoc, ← List.append_assoc]
  exact hsubstr

/-- Behind a BeginString: too little to tell, another field than the body length, a body length
that goes on, or a header. -/
theorem header_cases (after : Bytes) :
    after.length < 2 ∨ (2 ≤ after.length ∧ ¬text "9=" <+: after) ∨
      (∃ number, after = text "9=" ++ number ∧ soh ∉ number) ∨
      ∃ number rest, soh ∉ number ∧ after = (text "9=" ++ number) ++ soh :: rest := by
  by_cases hshort : after.length < 2
  · exact .inl hshort
  by_cases htag : text "9=" <+: after
  · obtain ⟨left, rfl⟩ := htag
    by_cases hmem : soh ∈ left
    · obtain ⟨number, rest, rfl, hnumber⟩ := List.eq_append_cons_of_mem hmem
      exact .inr (.inr (.inr ⟨number, rest, hnumber, (List.append_assoc ..).symm⟩))
    · exact .inr (.inr (.inl ⟨left, rfl, hmem⟩))
  · exact .inr (.inl ⟨by omega, htag⟩)

end Header

/-! ## `parse` -/

section Parse

variable {number rest after : Bytes}

theorem parse_headerWith (h : soh ∉ number) :
    parse (headerWith number ++ rest) = match parseSize number with
      | none => .error "invalid BodyLength"
      | some bodyLength =>
        parseBody (headerWith number ++ rest) (headerWith number).length bodyLength := by
  have hbegin : beginString.isPrefixOf (headerWith number ++ rest) = true := by
    rw [List.isPrefixOf_iff_prefix, headerWith_append]
    exact List.prefix_append _ _
  have hfirst : find soh 0 (headerWith number ++ rest) = some 9 := by
    rw [headerWith_append]
    exact find_beginString _
  have hsecond : (text "9=").isPrefixOf ((headerWith number ++ rest).drop 10) = true := by
    have hdrop : (headerWith number ++ rest).drop 10 = (text "9=" ++ number) ++ soh :: rest := by
      rw [headerWith_append]
      rfl
    rw [List.isPrefixOf_iff_prefix, hdrop, List.append_assoc]
    exact List.prefix_append _ _
  have hnumber : 12 + number.length - 12 = number.length := by omega
  have hstart : 12 + number.length + 1 = 13 + number.length := by omega
  cases hread : parseSize number <;>
    simp only [parse, hbegin, hfirst, hsecond, find_headerWith h, hnumber, substr_headerWith, hread,
      length_headerWith, hstart, Bool.not_true, Bool.false_eq_true, if_false, Nat.reduceAdd]

/-- Nothing is parsed that does not begin with a header. -/
theorem header_of_parse {wire : Bytes} {message : Message} (h : parse wire = .ok message) :
    ∃ number rest, soh ∉ number ∧ wire = headerWith number ++ rest := by
  unfold parse at h
  split at h
  · cases h
  rename_i hbegin
  rw [Bool.not_eq_true', Bool.not_eq_false, List.isPrefixOf_iff_prefix] at hbegin
  obtain ⟨after, rfl⟩ := hbegin
  rw [find_beginString] at h
  simp only [Nat.reduceAdd] at h
  have hdrop : (beginString ++ after).drop 10 = after := rfl
  rw [hdrop] at h
  split at h
  · cases h
  rename_i htag
  rw [Bool.not_eq_true', Bool.not_eq_false, List.isPrefixOf_iff_prefix] at htag
  rcases header_cases after with hshort | ⟨-, hno⟩ | ⟨number, rfl, hnumber⟩ |
    ⟨number, rest, hnumber, rfl⟩
  · exact absurd htag.length_le (by simpa [text] using hshort)
  · exact absurd htag hno
  · have hfind := @find_eq_none soh beginString _ (not_mem_lengthField hnumber)
    rw [show beginString.length = 10 from rfl] at hfind
    rw [hfind] at h
    cases h
  · exact ⟨number, rest, hnumber, headerWith_append.symm⟩

end Parse

/-! ## `extract_one` -/

section Extract

variable {number rest after : Bytes}

theorem extractOne_begin (rest : Bytes) :
    extractOne (beginString ++ rest) = extractAligned (beginString ++ rest) := by
  have hbegin : beginString.isPrefixOf (beginString ++ rest) = true :=
    List.isPrefixOf_iff_prefix.mpr (List.prefix_append _ _)
  rw [extractOne, if_neg (by simp [beginString]), if_pos hbegin]

/-- Less than two bytes behind the BeginString. -/
theorem extractAligned_begun (h : after.length < 2) :
    extractAligned (beginString ++ after) = (.needMoreData, beginString ++ after) := by
  rw [extractAligned, find_beginString]
  simp only [Nat.reduceAdd]
  refine if_pos ?_
  rw [List.length_append, show beginString.length = 10 from rfl]
  omega

/-- Another field than the body length. -/
theorem extractAligned_other (hlong : 2 ≤ after.length) (h : ¬text "9=" <+: after) :
    extractAligned (beginString ++ after) =
      (.invalidData "BodyLength must be the second field", beginString ++ after) := by
  rw [extractAligned, find_beginString]
  simp only [Nat.reduceAdd]
  rw [if_neg, if_pos]
  · intro heq
    refine h ?_
    have htake : after.take 2 = text "9=" := heq
    rw [← htake]
    exact List.take_prefix 2 after
  · rw [List.length_append, show beginString.length = 10 from rfl]
    omega

/-- A body length that goes on. -/
theorem extractAligned_open (h : soh ∉ number) :
    extractAligned (beginString ++ (text "9=" ++ number)) =
      (.needMoreData, beginString ++ (text "9=" ++ number)) := by
  have hsecond : substr 10 2 (beginString ++ (text "9=" ++ number)) = text "9=" :=
    @substr_append beginString (text "9=") number
  have hfind := @find_eq_none soh beginString _ (not_mem_lengthField h)
  rw [show beginString.length = 10 from rfl] at hfind
  rw [extractAligned, find_beginString]
  simp only [Nat.reduceAdd]
  rw [if_neg, if_neg (not_not.mpr hsecond), hfind]
  rw [List.length_append, List.length_append, show beginString.length = 10 from rfl,
    show (text "9=").length = 2 from rfl]
  omega

/-- With the whole header there, the reader knows the size of the message. -/
theorem extractAligned_headerWith (h : soh ∉ number) :
    extractAligned (headerWith number ++ rest) = match parseSize number with
      | none => (.invalidData "invalid BodyLength", headerWith number ++ rest)
      | some bodyLength =>
        if bodyLength > 2 ^ 64 - 1 - (headerWith number).length - 7 then
          (.invalidData "BodyLength overflow", headerWith number ++ rest)
        else if (headerWith number ++ rest).length < (headerWith number).length + bodyLength + 7 then
          (.needMoreData, headerWith number ++ rest)
        else if substr ((headerWith number).length + bodyLength) 3 (headerWith number ++ rest) ≠
            text "10=" then
          (.invalidData "BodyLength does not point to CheckSum", headerWith number ++ rest)
        else
          (.messageReady (substr 0 ((headerWith number).length + bodyLength + 7)
            (headerWith number ++ rest)),
            (headerWith number ++ rest).drop ((headerWith number).length + bodyLength + 7)) := by
  have hfirst : find soh 0 (headerWith number ++ rest) = some 9 := by
    rw [headerWith_append]
    exact find_beginString _
  have hlong : ¬(headerWith number ++ rest).length < 12 := by
    rw [List.length_append, length_headerWith]
    omega
  have hsecond : substr 10 2 (headerWith number ++ rest) = text "9=" := by
    rw [headerWith_append, List.append_assoc]
    exact @substr_append beginString (text "9=") _
  have hnumber : 12 + number.length - 12 = number.length := by omega
  have hstart : 12 + number.length + 1 = (headerWith number).length := by
    rw [length_headerWith]
    omega
  cases hread : parseSize number <;>
    simp only [extractAligned, hfirst, Nat.reduceAdd, hlong, hsecond, find_headerWith h, hnumber,
      substr_headerWith, hread, hstart, ne_eq, not_true_eq_false, if_false]

end Extract

end Fix

end ExchangeLab

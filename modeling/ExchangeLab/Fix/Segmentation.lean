import ExchangeLab.Fix.Grammar
import ExchangeLab.Lib.Segmentation

/-!
# ExchangeLab.Fix.Segmentation

What the gateway's receive loop finds in a stream, over all the ways TCP can cut it.

* `Delimited`, `Refused`: what can follow a BeginString, as `extract_one` sees it; `aligned_cases`.
* `extractOne_few`, `extractOne_cases`: the first BeginString of the buffer is all that counts, if
  there is one.
* `Separable`: the streams for which the cut does not matter; `fix_segmentation_iff`.
-/

namespace ExchangeLab

namespace Fix

open Wire

/-- The longest body for which `extract_one` does not see an overflow. -/
def bodyLimit (number : Bytes) : Nat := 2 ^ 64 - 1 - (headerWith number).length - 7

/-- A complete message, as far as `extract_one` looks at it. -/
inductive Delimited : Bytes → Prop
  | intro {number body checksum : Bytes} (hnumber : Numeral number body.length)
      (hfits : body.length ≤ bodyLimit number) (hfour : checksum.length = 4) :
      Delimited (headerWith number ++ (body ++ (text "10=" ++ checksum)))

/-- What cannot stand behind a BeginString: another field than the body length, a body length that
is no number or too large, and a body that no checksum field follows. -/
inductive Refused : Bytes → Prop
  | field {after : Bytes} (hlong : 2 ≤ after.length) (hother : ¬text "9=" <+: after) : Refused after
  | number {number rest : Bytes} (hsoh : soh ∉ number)
      (hnumber : ¬∃ n, Numeral number n ∧ n ≤ bodyLimit number) :
      Refused ((text "9=" ++ number) ++ soh :: rest)
  | checksum {number body rest : Bytes} (hnumber : Numeral number body.length)
      (hfits : body.length ≤ bodyLimit number) (hseven : 7 ≤ rest.length)
      (hother : ¬text "10=" <+: rest) : Refused ((text "9=" ++ number) ++ soh :: (body ++ rest))

/-! ## With the buffer at a BeginString -/

section Aligned

variable {after more rest message number body tail : Bytes}

theorem extractAligned_unread (hsoh : soh ∉ number)
    (hnumber : ¬∃ n, Numeral number n ∧ n ≤ bodyLimit number) :
    ∃ error, extractAligned (headerWith number ++ rest) =
      (.invalidData error, headerWith number ++ rest) := by
  rw [extractAligned_headerWith hsoh]
  cases hread : parseSize number with
  | none => exact ⟨_, rfl⟩
  | some n =>
    have hlarge : ¬n ≤ bodyLimit number := fun hle => hnumber ⟨n, (parseSize_iff.mp hread).1, hle⟩
    refine ⟨_, if_pos ?_⟩
    rw [bodyLimit] at hlarge
    omega

theorem extractAligned_sized (hnumber : Numeral number body.length)
    (hfits : body.length ≤ bodyLimit number) (hseven : 7 ≤ tail.length) :
    extractAligned (headerWith number ++ (body ++ tail)) =
      if text "10=" <+: tail then
        (.messageReady (headerWith number ++ (body ++ tail.take 7)), tail.drop 7)
      else (.invalidData "BodyLength does not point to CheckSum",
        headerWith number ++ (body ++ tail)) := by
  have hlt : body.length < 2 ^ 64 := by
    rw [bodyLimit] at hfits
    omega
  have hlong : ¬(headerWith number ++ (body ++ tail)).length <
      (headerWith number).length + body.length + 7 := by
    rw [List.length_append, List.length_append]
    omega
  have hdrop : (headerWith number ++ (body ++ tail)).drop
      ((headerWith number).length + body.length) = tail := by
    rw [← List.drop_drop, List.drop_left, List.drop_left]
  have hthree : substr ((headerWith number).length + body.length) 3
      (headerWith number ++ (body ++ tail)) = tail.take 3 := by
    rw [substr, hdrop]
  have hiff : tail.take 3 = text "10=" ↔ text "10=" <+: tail := by
    constructor
    · intro heq
      rw [← heq]
      exact List.take_prefix 3 tail
    · rintro ⟨left, rfl⟩
      rfl
  rw [extractAligned_headerWith (soh_not_mem_numeral hnumber), parseSize_iff.mpr ⟨hnumber, hlt⟩]
  dsimp only
  rw [if_neg (by rw [bodyLimit] at hfits; omega), if_neg hlong, hthree]
  by_cases htag : text "10=" <+: tail
  · rw [if_neg (not_not.mpr (hiff.mpr htag)), if_pos htag, ← List.drop_drop, hdrop]
    congr 2
    rw [substr, List.drop_zero, Nat.add_assoc, List.take_length_add_append,
      List.take_length_add_append]
  · rw [if_pos (fun heq => htag (hiff.mp heq)), if_neg htag]

theorem extractAligned_awaited {n : Nat} (hnumber : Numeral number n) (hfits : n ≤ bodyLimit number)
    (hshort : rest.length < n + 7) :
    extractAligned (headerWith number ++ rest) = (.needMoreData, headerWith number ++ rest) := by
  have hlt : n < 2 ^ 64 := by
    rw [bodyLimit] at hfits
    omega
  rw [extractAligned_headerWith (soh_not_mem_numeral hnumber), parseSize_iff.mpr ⟨hnumber, hlt⟩]
  dsimp only
  rw [if_neg (by rw [bodyLimit] at hfits; omega), if_pos (by rw [List.length_append]; omega)]

/-- A complete message is taken out, whatever stands behind it. -/
theorem Delimited.extract (h : Delimited message) (rest : Bytes) :
    extractAligned (message ++ rest) = (.messageReady message, rest) := by
  obtain ⟨hnumber, hfits, hfour⟩ := h
  rename_i number body checksum
  have hlength : (text "10=" ++ checksum).length = 7 := by
    rw [List.length_append, hfour]
    rfl
  have hwire : headerWith number ++ (body ++ (text "10=" ++ checksum)) ++ rest =
      headerWith number ++ (body ++ ((text "10=" ++ checksum) ++ rest)) := by
    simp only [List.append_assoc]
  have hbegins : text "10=" <+: (text "10=" ++ checksum) ++ rest := by
    rw [List.append_assoc]
    exact List.prefix_append _ _
  rw [hwire, extractAligned_sized hnumber hfits (by rw [List.length_append]; omega), if_pos hbegins,
    List.take_left' hlength, List.drop_left' hlength]

/-- Nothing can make good for what is refused. -/
theorem Refused.extract (h : Refused after) :
    ∃ error, extractAligned (beginString ++ after) = (.invalidData error, beginString ++ after) := by
  cases h with
  | field hlong hother => exact ⟨_, extractAligned_other hlong hother⟩
  | number hsoh hnumber =>
    rw [← headerWith_append]
    exact extractAligned_unread hsoh hnumber
  | checksum hnumber hfits hseven hother =>
    rw [← headerWith_append, extractAligned_sized hnumber hfits hseven]
    exact ⟨_, if_neg hother⟩

theorem Refused.append (h : Refused after) (more : Bytes) : Refused (after ++ more) := by
  have hshort : ∀ pattern bytes : Bytes, pattern.length ≤ bytes.length → ¬pattern <+: bytes →
      ¬pattern <+: bytes ++ more := by
    intro pattern bytes hlength hnot hbegins
    exact hnot (List.prefix_of_prefix_length_le hbegins (List.prefix_append _ _) hlength)
  cases h with
  | field hlong hother =>
    refine .field (by rw [List.length_append]; omega) (hshort _ _ hlong hother)
  | number hsoh hnumber =>
    rw [List.append_assoc, List.cons_append]
    exact .number hsoh hnumber
  | @checksum number body rest hnumber hfits hseven hother =>
    have heq : (text "9=" ++ number) ++ soh :: (body ++ rest) ++ more =
        (text "9=" ++ number) ++ soh :: (body ++ (rest ++ more)) := by simp
    rw [heq]
    refine .checksum hnumber hfits (by rw [List.length_append]; omega) (hshort _ _ ?_ hother)
    exact Nat.le_trans (show 3 ≤ 7 by decide) hseven

/-- The reader waits, refuses what it sees for good, or has a complete message. -/
theorem aligned_cases (after : Bytes) :
    extractAligned (beginString ++ after) = (.needMoreData, beginString ++ after) ∨ Refused after ∨
      ∃ message rest, Delimited message ∧ beginString ++ after = message ++ rest := by
  rcases header_cases after with hshort | ⟨hlong, hother⟩ | ⟨number, rfl, hsoh⟩ |
    ⟨number, rest, hsoh, rfl⟩
  · exact .inl (extractAligned_begun hshort)
  · exact .inr (.inl (.field hlong hother))
  · exact .inl (extractAligned_open hsoh)
  by_cases hnumber : ∃ n, Numeral number n ∧ n ≤ bodyLimit number
  swap
  · exact .inr (.inl (.number hsoh hnumber))
  obtain ⟨n, hnumeral, hfits⟩ := hnumber
  rw [← headerWith_append]
  rcases Nat.lt_or_ge rest.length (n + 7) with hshort | hlong
  · exact .inl (extractAligned_awaited hnumeral hfits hshort)
  obtain ⟨body, tail, rfl, rfl⟩ : ∃ body tail, rest = body ++ tail ∧ body.length = n :=
    ⟨rest.take n, rest.drop n, (List.take_append_drop n rest).symm, List.length_take_of_le (by omega)⟩
  rw [List.length_append] at hlong
  by_cases htag : text "10=" <+: tail
  · obtain ⟨left, rfl⟩ := htag
    rw [List.length_append, show (text "10=").length = 3 from rfl] at hlong
    refine .inr (.inr ⟨headerWith number ++ (body ++ (text "10=" ++ left.take 4)), left.drop 4,
      .intro hnumeral hfits (List.length_take_of_le (by omega)), ?_⟩)
    simp only [List.append_assoc, List.take_append_drop]
  · exact .inr (.inl (.checksum hnumeral hfits (by omega) htag))

theorem not_refused_of_delimited (hmessage : Delimited message)
    (heq : beginString ++ after = message ++ rest) : ¬Refused after := by
  intro hrefused
  obtain ⟨error, hinvalid⟩ := hrefused.extract
  rw [heq, hmessage.extract] at hinvalid
  cases hinvalid

theorem Delimited.begins (h : Delimited message) : ∃ after, message = beginString ++ after := by
  obtain ⟨hnumber, hfits, hfour⟩ := h
  exact ⟨_, headerWith_append⟩

end Aligned

/-! ## The first BeginString -/

/-- No end of it is a start of it, so two of them do not overlap. -/
theorem beginString_borderless :
    ∀ i < 10, 0 < i → beginString.drop i ≠ beginString.take (10 - i) := by
  decide

section First

variable {front bytes : Bytes}

theorem infix_of_begins {after : Bytes} (hne : front ≠ [])
    (h : beginString <+: front ++ (beginString ++ after)) : beginString <:+: front := by
  rcases prefix_append_cases h with ⟨hwithin, -⟩ | ⟨left, heq, hleft⟩
  · exact hwithin.isInfix
  · cases left with
    | nil =>
      rw [List.append_nil] at heq
      rw [heq]
    | cons byte left =>
      have hlength := congrArg List.length heq
      rw [List.length_append, List.length_cons] at hlength
      have hpos := List.length_pos_iff.mpr hne
      have hten : beginString.length = 10 := rfl
      have hstart : byte :: left <+: beginString :=
        List.prefix_of_prefix_length_le hleft (List.prefix_append _ _) (by rw [List.length_cons]; omega)
      have hdrop : beginString.drop front.length = byte :: left := by
        rw [heq, List.drop_left]
      have htake : beginString.take (10 - front.length) = byte :: left := by
        rw [List.prefix_iff_eq_take.mp hstart, List.length_cons,
          show 10 - front.length = left.length + 1 by omega]
      exact absurd (hdrop.trans htake.symm) (beginString_borderless _ (by omega) hpos)

theorem findString_none (h : ¬beginString <:+: bytes) : findString beginString bytes = none := by
  induction bytes with
  | nil => rfl
  | cons byte bytes ih =>
    rw [List.infix_cons_iff, not_or] at h
    rw [findString, if_neg (by rw [List.isPrefixOf_iff_prefix]; exact h.1), ih h.2, Option.map_none]

theorem findString_first {after : Bytes} (h : ¬beginString <:+: front) :
    findString beginString (front ++ (beginString ++ after)) = some front.length := by
  induction front with
  | nil =>
    cases hwhole : [] ++ (beginString ++ after) with
    | nil => exact absurd hwhole (by simp [beginString])
    | cons byte rest =>
      rw [findString, if_pos, List.length_nil]
      rw [← hwhole, List.isPrefixOf_iff_prefix]
      exact List.prefix_append _ _
  | cons byte front ih =>
    have hnot : ¬beginString.isPrefixOf (byte :: (front ++ (beginString ++ after))) = true := by
      rw [List.isPrefixOf_iff_prefix]
      exact fun hbegins => h (infix_of_begins (List.cons_ne_nil _ _) hbegins)
    rw [List.infix_cons_iff, not_or] at h
    rw [List.cons_append, findString, if_neg hnot, ih h.2]
    rfl

/-- What stands before the end of the first BeginString has none. -/
theorem not_infix_before {after : Bytes} (h : ¬beginString <:+: front)
    (hbegins : bytes <+: front ++ (beginString ++ after)) (hshort : bytes.length < front.length + 10) :
    ¬beginString <:+: bytes := by
  rintro ⟨before, behind, rfl⟩
  have hten : beginString.length = 10 := rfl
  rw [List.length_append, List.length_append] at hshort
  have hdrop : beginString <+: front.drop before.length ++ (beginString ++ after) := by
    rw [← List.drop_append_of_le_length (by omega)]
    have hstart := List.IsPrefix.drop hbegins before.length
    rw [List.append_assoc, List.drop_left] at hstart
    exact (List.prefix_append _ _).trans hstart
  have hne : front.drop before.length ≠ [] := by
    rw [Ne, List.drop_eq_nil_iff]
    omega
  exact h ((infix_of_begins hne hdrop).trans (List.drop_suffix _ _).isInfix)

theorem first_cases (bytes : Bytes) : ¬beginString <:+: bytes ∨
    ∃ front after, ¬beginString <:+: front ∧ bytes = front ++ (beginString ++ after) := by
  by_cases h : beginString <:+: bytes
  swap
  · exact .inl h
  refine .inr ?_
  induction bytes with
  | nil => exact absurd h (by decide)
  | cons byte bytes ih =>
    rcases List.infix_cons_iff.mp h with ⟨after, heq⟩ | hinside
    · exact ⟨[], after, by decide, heq.symm⟩
    · by_cases hfirst : beginString <+: byte :: bytes
      · obtain ⟨after, heq⟩ := hfirst
        exact ⟨[], after, by decide, heq.symm⟩
      obtain ⟨front, after, hfront, rfl⟩ := ih hinside
      refine ⟨byte :: front, after, ?_, rfl⟩
      rw [List.infix_cons_iff, not_or]
      refine ⟨fun hbegins => hfirst (hbegins.trans ?_), hfront⟩
      rw [← List.cons_append]
      exact List.prefix_append _ _

end First

/-! ## `extract_one` -/

section Extract

variable {front bytes after : Bytes}

theorem extractOne_without (h : ¬beginString <:+: bytes) : extractOne bytes =
    (if bytes.length > 10 then .invalidData "stream does not begin with FIX.4.4" else .needMoreData,
      bytes) := by
  rw [extractOne]
  split
  · rename_i hnil
    rw [hnil]
    rfl
  · rw [if_neg (fun hbegins => h (List.isPrefixOf_iff_prefix.mp hbegins).isInfix),
      findString_none h]
    dsimp only
    rw [show beginString.length = 10 from rfl]
    split <;> rfl

theorem extractOne_behind (h : ¬beginString <:+: front) :
    extractOne (front ++ (beginString ++ after)) = extractAligned (beginString ++ after) := by
  cases front with
  | nil => exact extractOne_begin after
  | cons byte front =>
    have hne : ¬beginString.isPrefixOf (byte :: front ++ (beginString ++ after)) = true := by
      rw [List.isPrefixOf_iff_prefix]
      exact fun hbegins => h (infix_of_begins (List.cons_ne_nil _ _) hbegins)
    rw [extractOne, if_neg (by simp), if_neg hne, findString_first h]
    dsimp only
    rw [List.drop_left]

theorem resumable_extractOne : Resumable extractOne where
  empty := rfl
  shrinks bytes message rest hready := by
    rcases first_cases bytes with hnone | ⟨front, after, hfront, rfl⟩
    · rw [extractOne_without hnone] at hready
      split at hready <;> cases hready
    · rw [extractOne_behind hfront] at hready
      rcases aligned_cases after with hwaits | hrefused | ⟨found, left, hfound, heq⟩
      · rw [hwaits] at hready
        cases hready
      · obtain ⟨error, hinvalid⟩ := hrefused.extract
        rw [hinvalid] at hready
        cases hready
      · rw [heq, hfound.extract] at hready
        cases hready
        obtain ⟨after', rfl⟩ := hfound.begins
        have hten : beginString.length = 10 := rfl
        rw [heq, List.length_append, List.length_append, List.length_append]
        omega
  resumes bytes buffer hwaits more := by
    rcases first_cases bytes with hnone | ⟨front, after, hfront, rfl⟩
    · rw [extractOne_without hnone] at hwaits
      cases (Prod.mk.inj hwaits).2
      rfl
    · rw [extractOne_behind hfront] at hwaits
      rcases aligned_cases after with hsame | hrefused | ⟨found, left, hfound, heq⟩
      · rw [hsame] at hwaits
        cases (Prod.mk.inj hwaits).2
        rw [List.append_assoc, List.append_assoc, List.append_assoc, extractOne_behind hfront,
          extractOne_begin]
      · obtain ⟨error, hinvalid⟩ := hrefused.extract
        rw [hinvalid] at hwaits
        cases hwaits
      · rw [heq, hfound.extract] at hwaits
        cases hwaits

/-- The bytes that have arrived end within the first BeginString or behind it. -/
theorem arrived_cases (h : bytes <+: front ++ (beginString ++ after)) :
    bytes.length < front.length + 10 ∨
      ∃ more, bytes = front ++ (beginString ++ more) ∧ more <+: after := by
  rw [← List.append_assoc] at h
  rcases prefix_append_cases h with ⟨-, hshort⟩ | ⟨more, rfl, hmore⟩
  · exact .inl (by rwa [List.length_append] at hshort)
  · exact .inr ⟨more, List.append_assoc _ _ _, hmore⟩

/-- Without a BeginString there is room for ten bytes. -/
theorem extractOne_few (h : ¬beginString <:+: bytes) :
    (bytes.length ≤ 10 ∧ Waits extractOne bytes) ∨ (10 < bytes.length ∧ Refuses extractOne bytes) := by
  have heq := extractOne_without h
  rcases Nat.lt_or_ge 10 bytes.length with hlong | hle
  · rw [if_pos hlong] at heq
    exact .inr ⟨hlong, _, congrArg Prod.fst heq⟩
  · rw [if_neg (Nat.not_lt.mpr hle)] at heq
    exact .inl ⟨hle, congrArg Prod.fst heq⟩

theorem extractOne_cases (hfront : ¬beginString <:+: front) (after : Bytes) :
    (Waits extractOne (front ++ (beginString ++ after)) ∧ ¬Refused after) ∨
      (Refuses extractOne (front ++ (beginString ++ after)) ∧ Refused after) ∨
      ∃ message rest, Delimited message ∧ beginString ++ after = message ++ rest ∧
        extractOne (front ++ (beginString ++ after)) = (.messageReady message, rest) := by
  rw [Waits, Refuses, extractOne_behind hfront]
  rcases aligned_cases after with hwaits | hrefused | ⟨message, rest, hmessage, heq⟩
  · refine .inl ⟨congrArg Prod.fst hwaits, fun hrefused => ?_⟩
    obtain ⟨error, hinvalid⟩ := hrefused.extract
    rw [hwaits] at hinvalid
    cases hinvalid
  · obtain ⟨error, hinvalid⟩ := hrefused.extract
    exact .inr (.inl ⟨⟨error, congrArg Prod.fst hinvalid⟩, hrefused⟩)
  · exact .inr (.inr ⟨message, rest, hmessage, heq, by rw [heq, hmessage.extract]⟩)

end Extract

/-! ## Streams -/

/-- The messages at the front of a stream, with at most one stray byte before each of them, and what
is left. -/
inductive Extracted : Bytes → List Bytes → Bytes → Prop
  | nil {rest : Bytes} : Extracted rest [] rest
  | cons {stray wire stream rest : Bytes} {wires : List Bytes} (hstray : stray.length ≤ 1)
      (hwire : Delimited wire) (h : Extracted stream wires rest) :
      Extracted (stray ++ (wire ++ stream)) (wire :: wires) rest

/-- Wherever two or more stray bytes come before a BeginString, so few that a chunk can bring them, the
reader gives up anyway. -/
def Separable (limit : Nat) (stream : Bytes) : Prop :=
  ∀ wires garbage after, Extracted stream wires (garbage ++ (beginString ++ after)) →
    2 ≤ garbage.length → garbage.length ≤ limit → ¬beginString <:+: garbage → Refused after

section Streams

variable {limit : Nat} {stream front bytes after wire rest : Bytes}

theorem not_infix_of_short (h : front.length ≤ 1) : ¬beginString <:+: front := by
  intro hinside
  have hlength := hinside.length_le
  rw [show beginString.length = 10 from rfl] at hlength
  omega

theorem settled_without (h : ¬beginString <:+: stream) :
    ∃ refused, Settled extractOne limit stream [] refused := by
  have hcases : ∀ bytes, Arrives extractOne limit stream bytes →
      (bytes.length ≤ 10 ∧ Waits extractOne bytes) ∨
        (10 < bytes.length ∧ Refuses extractOne bytes) := fun bytes hbytes =>
    extractOne_few fun hinside => h (hinside.trans hbytes.begins.isInfix)
  rcases Nat.lt_or_ge 10 stream.length with hlong | hle
  · refine ⟨true, .refused (fun bytes hbytes => ?_) fun hall => ?_⟩
    · exact (hcases bytes hbytes).imp And.right And.right
    · rcases hcases stream hall with ⟨hle, -⟩ | ⟨-, error, hrefuses⟩
      · omega
      · rw [Waits, hrefuses]
        exact fun heq => by cases heq
  · refine ⟨false, .waits fun bytes hbytes => ?_⟩
    rcases hcases bytes hbytes with ⟨-, hwaits⟩ | ⟨hlong, -⟩
    · exact hwaits
    · have := hbytes.begins.length_le
      omega

/-- What is refused behind the first BeginString is refused however it arrives. -/
theorem settled_refused (hfront : ¬beginString <:+: front) (h : Refused after) :
    Settled extractOne limit (front ++ (beginString ++ after)) [] true := by
  refine .refused (fun bytes hbytes => ?_) fun _ hwaits => ?_
  · rcases arrived_cases hbytes.begins with hshort | ⟨more, rfl, left, rfl⟩
    · exact (extractOne_few (not_infix_before hfront hbytes.begins hshort)).imp And.right And.right
    · rcases extractOne_cases hfront more with ⟨hwaits, -⟩ | ⟨hrefuses, -⟩ |
        ⟨message, rest, hmessage, heq, -⟩
      · exact .inl hwaits
      · exact .inr hrefuses
      · have hwhole : beginString ++ (more ++ left) = message ++ (rest ++ left) := by
          rw [← List.append_assoc, heq, List.append_assoc]
        exact absurd h (not_refused_of_delimited hmessage hwhole)
  · obtain ⟨error, hinvalid⟩ := h.extract
    rw [Waits, extractOne_behind hfront, hinvalid] at hwaits
    cases hwaits

/-- A reader that waits for more has waited all the time, with at most one stray byte. -/
theorem settled_waits (hshort : front.length ≤ 1)
    (h : Waits extractOne (front ++ (beginString ++ after))) :
    Settled extractOne limit (front ++ (beginString ++ after)) [] false := by
  have hfront := not_infix_of_short hshort
  refine .waits fun bytes hbytes => ?_
  rcases arrived_cases hbytes.begins with hbefore | ⟨more, rfl, left, rfl⟩
  · rcases extractOne_few (not_infix_before hfront hbytes.begins hbefore) with
      ⟨-, hwaits⟩ | ⟨hlong, -⟩
    · exact hwaits
    · omega
  · rw [Waits, extractOne_behind hfront] at h
    rcases extractOne_cases hfront more with ⟨hwaits, -⟩ | ⟨-, hrefused⟩ |
      ⟨message, rest, hmessage, heq, -⟩
    · exact hwaits
    · obtain ⟨error, hinvalid⟩ := (hrefused.append left).extract
      rw [hinvalid] at h
      cases h
    · rw [← List.append_assoc, heq, List.append_assoc, hmessage.extract] at h
      cases h

/-- With at most one stray byte, the reader waits until a message is complete and takes it out. -/
theorem extractOne_message (hshort : front.length ≤ 1) (hwire : Delimited wire)
    (h : bytes <+: front ++ (wire ++ rest)) :
    (Waits extractOne bytes ∧ bytes.length < (front ++ wire).length) ∨
      ((front ++ wire).length ≤ bytes.length ∧
        extractOne bytes = (.messageReady wire, bytes.drop (front ++ wire).length)) := by
  have hfront := not_infix_of_short hshort
  have hten : beginString.length = 10 := rfl
  obtain ⟨body, rfl⟩ := hwire.begins
  rw [List.append_assoc] at h
  rcases arrived_cases h with hbefore | ⟨more, rfl, left, hleft⟩
  · rcases extractOne_few (not_infix_before hfront h hbefore) with ⟨-, hwaits⟩ | ⟨hlong, -⟩
    · refine .inl ⟨hwaits, ?_⟩
      rw [List.length_append, List.length_append]
      omega
    · omega
  have hnot : ¬Refused more := by
    intro hrefused
    have := hrefused.append left
    rw [hleft] at this
    exact not_refused_of_delimited hwire (List.append_assoc _ _ _).symm this
  rcases extractOne_cases hfront more with ⟨hwaits, -⟩ | ⟨-, hrefused⟩ |
    ⟨message, behind, hmessage, heq, hready⟩
  · refine .inl ⟨hwaits, ?_⟩
    by_contra hlong
    have hwhole : beginString ++ body <+: beginString ++ (body ++ rest) := by
      rw [← List.append_assoc]
      exact List.prefix_append _ _
    have harrived : beginString ++ more <+: beginString ++ (body ++ rest) := by
      rw [← hleft, ← List.append_assoc]
      exact List.prefix_append _ _
    -- the message is among the bytes
    obtain ⟨behind, hbehind⟩ := List.prefix_of_prefix_length_le hwhole harrived (by
      simp only [List.length_append] at hlong ⊢
      omega)
    rw [Waits, extractOne_behind hfront, ← hbehind, hwire.extract] at hwaits
    cases hwaits
  · exact absurd hrefused hnot
  · have hsame := hwire.extract rest
    rw [List.append_assoc, ← hleft, ← List.append_assoc, heq, List.append_assoc,
      hmessage.extract] at hsame
    obtain ⟨hwhole, -⟩ := Prod.mk.inj hsame
    obtain rfl : message = beginString ++ body := Extract.messageReady.inj hwhole
    have hbytes : front ++ (beginString ++ more) = (front ++ (beginString ++ body)) ++ behind := by
      rw [heq, ← List.append_assoc]
    rw [hready, hbytes, List.drop_left]
    exact .inr ⟨(List.prefix_append _ _).length_le, rfl⟩

theorem settled_found {messages : List Bytes} {refused : Bool} (hshort : front.length ≤ 1)
    (hwire : Delimited wire) (hrest : Settled extractOne limit rest messages refused) :
    Settled extractOne limit (front ++ (wire ++ rest)) (wire :: messages) refused := by
  refine .found (front ++ wire).length
    (fun bytes hbytes => extractOne_message hshort hwire hbytes.begins) ?_ ?_
  · rw [← List.append_assoc]
    exact (List.prefix_append _ _).length_le
  · rwa [← List.append_assoc, List.drop_left]

/-- So much before the first BeginString is given up before that BeginString is there. -/
theorem settled_far (hfront : ¬beginString <:+: front) (hlong : limit < front.length) :
    Settled extractOne limit (front ++ (beginString ++ after)) [] true := by
  have hshort : ∀ bytes, Arrives extractOne limit (front ++ (beginString ++ after)) bytes →
      bytes.length < front.length + 10 := by
    intro bytes hbytes
    induction hbytes with
    | start => exact Nat.succ_pos _
    | @chunk bytes chunk hbytes hwaits hlimit hbegins ih =>
      rw [List.length_append]
      rcases extractOne_few (not_infix_before hfront hbytes.begins ih) with
        ⟨hle, -⟩ | ⟨-, error, hrefuses⟩
      · omega
      · rw [Waits, hrefuses] at hwaits
        cases hwaits
  refine .refused (fun bytes hbytes => ?_) fun hall _ => ?_
  · exact (extractOne_few (not_infix_before hfront hbytes.begins (hshort bytes hbytes))).imp
      And.right And.right
  · have := hshort _ hall
    rw [List.length_append, List.length_append, show beginString.length = 10 from rfl] at this
    omega

theorem Separable.settled (h : Separable limit stream) :
    ∃ messages refused, Settled extractOne limit stream messages refused := by
  induction hlength : stream.length using Nat.strongRecOn generalizing stream with
  | ind length ih =>
  rcases first_cases stream with hnone | ⟨front, after, hfront, rfl⟩
  · exact ⟨[], settled_without hnone⟩
  by_cases hrefused : Refused after
  · exact ⟨[], true, settled_refused hfront hrefused⟩
  rcases Nat.lt_or_ge 1 front.length with hstray | hshort
  · rcases Nat.lt_or_ge limit front.length with hfar | hnear
    · exact ⟨[], true, settled_far hfront hfar⟩
    · exact absurd (h [] front after .nil hstray hnear hfront) hrefused
  rcases extractOne_cases hfront after with ⟨hwaits, -⟩ | ⟨-, hrefused'⟩ |
    ⟨wire, rest, hwire, heq, -⟩
  · exact ⟨[], false, settled_waits hshort hwaits⟩
  · exact absurd hrefused' hrefused
  · rw [heq] at h hlength ⊢
    have hbehind : Separable limit rest := fun wires garbage behind hextracted =>
      h (wire :: wires) garbage behind (.cons hshort hwire hextracted)
    have hpos : 0 < wire.length := by
      obtain ⟨body, rfl⟩ := hwire.begins
      rw [List.length_append]
      exact Nat.lt_of_lt_of_le (by decide : 0 < beginString.length) (Nat.le_add_right _ _)
    obtain ⟨messages, refused, hsettled⟩ := ih rest.length (by
      rw [List.length_append, List.length_append] at hlength
      omega) hbehind rfl
    exact ⟨wire :: messages, refused, settled_found hshort hwire hsettled⟩

theorem feed_few {chunk : Bytes} {chunks : List Bytes} (h : ¬beginString <:+: chunk)
    (hlong : 10 < chunk.length) : feed extractOne [] (chunk :: chunks) = ([], true) := by
  have heq : extractOne ([] ++ chunk) =
      (.invalidData "stream does not begin with FIX.4.4", chunk) := by
    rw [List.nil_append, extractOne_without h, if_pos hlong]
  exact feed_refuses resumable_extractOne heq

/-- With ten bytes first and the whole of the BeginString in the next chunk. -/
theorem feed_found {garbage : Bytes} {chunks : List Bytes} (hgarbage : ¬beginString <:+: garbage)
    (htwo : 2 ≤ garbage.length) : feed extractOne []
      ((garbage ++ beginString).take 10 :: (garbage ++ beginString).drop 10 :: chunks) =
        feed extractOne (garbage ++ beginString) chunks := by
  have hten : ¬beginString <:+: (garbage ++ beginString).take 10 := by
    have hbegins : (garbage ++ beginString).take 10 <+: garbage ++ (beginString ++ []) := by
      rw [List.append_nil]
      exact List.take_prefix _ _
    refine not_infix_before hgarbage hbegins ?_
    rw [List.length_take]
    omega
  have hwaits : Waits extractOne ([] ++ (garbage ++ beginString).take 10) := by
    rcases extractOne_few hten with ⟨-, hwaits⟩ | ⟨hlong, -⟩
    · exact hwaits
    · rw [List.length_take] at hlong
      omega
  have hwaits' : Waits extractOne ((garbage ++ beginString).take 10 ++
      (garbage ++ beginString).drop 10) := by
    rw [List.take_append_drop, ← List.append_nil beginString, Waits, extractOne_behind hgarbage,
      extractAligned_begun (by decide)]
  rw [feed_kept resumable_extractOne hwaits, List.nil_append,
    feed_kept resumable_extractOne hwaits', List.take_append_drop]

theorem feed_found_ne {garbage : Bytes} {chunks : List Bytes} (hgarbage : ¬beginString <:+: garbage)
    (hnot : ¬Refused after) (hcut : chunks.flatten = after) :
    feed extractOne (garbage ++ beginString) chunks ≠ ([], true) := by
  have hwhole : garbage ++ beginString ++ chunks.flatten = garbage ++ (beginString ++ after) := by
    rw [hcut, List.append_assoc]
  refine feed_ne_refused resumable_extractOne ?_ hwhole
  rintro bytes hlong hbytes ⟨error, hrefuses⟩
  rcases arrived_cases hbytes with hshort | ⟨more, rfl, left, rfl⟩
  · have := hlong.length_le
    rw [List.length_append, show beginString.length = 10 from rfl] at this
    omega
  rcases extractOne_cases hgarbage more with ⟨hwaits, -⟩ | ⟨-, hrefused⟩ | ⟨_, _, _, _, hready⟩
  · rw [hwaits] at hrefuses
    cases hrefuses
  · exact hnot (hrefused.append left)
  · rw [hready] at hrefuses
    cases hrefuses

/-- Bytes without a BeginString are given up when eleven of them come in one chunk, and not when the
first ten come first and the whole BeginString with the others. -/
theorem Refused.of_cutFree {garbage : Bytes} (hlimit : 11 ≤ limit)
    (hfree : CutFree extractOne limit (garbage ++ (beginString ++ after)))
    (htwo : 2 ≤ garbage.length) (hnear : garbage.length ≤ limit)
    (hgarbage : ¬beginString <:+: garbage) : Refused after := by
  by_contra hnot
  have hten : beginString.length = 10 := rfl
  have hbytes := @cuts_bytes limit (by omega)
  set stream := garbage ++ (beginString ++ after) with hstream
  have hlength : stream.length = garbage.length + 10 + after.length := by
    rw [hstream, List.length_append, List.length_append, hten, Nat.add_assoc]
  have hstops : Cuts limit stream (stream.take 11 :: (stream.drop 11).map fun byte => [byte]) :=
    .take (by decide) hlimit (by omega) (hbytes _)
  have hgoes : Cuts limit stream ((garbage ++ beginString).take 10 ::
      (garbage ++ beginString).drop 10 :: after.map fun byte => [byte]) := by
    have hwhole : stream = (garbage ++ beginString).take 10 ++
        ((garbage ++ beginString).drop 10 ++ after) := by
      rw [← List.append_assoc, List.take_append_drop, hstream, List.append_assoc]
    rw [hwhole]
    have hne : ∀ bytes : Bytes, 0 < bytes.length → bytes ≠ [] := fun _ =>
      List.ne_nil_of_length_pos
    refine .cons (hne _ ?_) ?_ (.cons (hne _ ?_) ?_ (hbytes after))
    all_goals
      simp only [List.length_take, List.length_drop, List.length_append]
      omega
  have heleven : ¬beginString <:+: stream.take 11 :=
    not_infix_before hgarbage (List.take_prefix _ _) (by rw [List.length_take]; omega)
  have hsame : feed extractOne [] _ = feed extractOne [] _ := hfree _ _ hgoes hstops
  rw [feed_few heleven (by rw [List.length_take]; omega), feed_found hgarbage htwo] at hsame
  exact feed_found_ne hgarbage hnot (hbytes after).flatten hsame

/-- A complete message at the front is found by every cut. -/
theorem CutFree.behind (hlimit : 1 ≤ limit) (hshort : front.length ≤ 1) (hwire : Delimited wire)
    (h : CutFree extractOne limit (front ++ (wire ++ stream))) : CutFree extractOne limit stream := by
  have hwhole : front ++ (wire ++ stream) = (front ++ wire) ++ stream := by
    rw [List.append_assoc]
  have hcases : ∀ bytes, bytes <+: front ++ wire →
      (Waits extractOne bytes ∧ bytes.length < (front ++ wire).length) ∨
        ((front ++ wire).length ≤ bytes.length ∧
          extractOne bytes = (.messageReady wire, bytes.drop (front ++ wire).length)) := by
    intro bytes hbytes
    rw [← List.append_nil wire] at hbytes
    exact extractOne_message hshort hwire hbytes
  have hready : extractOne (front ++ wire) = (.messageReady wire, []) := by
    rcases hcases _ List.prefix_rfl with ⟨-, hlt⟩ | ⟨-, hready⟩
    · exact absurd hlt (Nat.lt_irrefl _)
    · rw [hready, List.drop_length]
  have hwaits : ∀ bytes, bytes <+: front ++ wire → bytes.length < (front ++ wire).length →
      Waits extractOne bytes := by
    intro bytes hbytes hlt
    rcases hcases bytes hbytes with ⟨hwaits, -⟩ | ⟨hle, -⟩
    · exact hwaits
    · exact absurd hlt (Nat.not_lt.mpr hle)
  have hcut := cuts_bytes hlimit (front ++ wire)
  have hpos : 0 < (front ++ wire).length := by
    obtain ⟨body, rfl⟩ := hwire.begins
    simp only [List.length_append, show beginString.length = 10 from rfl]
    omega
  intro chunks chunks' hchunks hchunks'
  rw [hwhole] at h
  have hsame : feed extractOne [] _ = feed extractOne [] _ :=
    h _ _ (hcut.append hchunks) (hcut.append hchunks')
  have hmessage := fun more => @feed_message _ extractOne wire _ more resumable_extractOne _ []
    hwaits hready hcut.flatten hpos fun chunk hchunk => (hcut.sizes chunk hchunk).1
  rw [hmessage, hmessage, Prod.mk.injEq, List.cons.injEq] at hsame
  exact Prod.ext hsame.1.2 hsame.2

theorem Separable.of_cutFree (hlimit : 11 ≤ limit) (h : CutFree extractOne limit stream) :
    Separable limit stream := by
  intro wires garbage after hextracted
  generalize hrest : garbage ++ (beginString ++ after) = rest at hextracted
  induction hextracted with
  | nil =>
    rw [← hrest] at h
    exact Refused.of_cutFree hlimit h
  | cons hstray hwire _ ih => exact ih (CutFree.behind (by omega) hstray hwire h) hrest

/-- For every bound on the chunks that lets eleven bytes through. -/
theorem cutFree_iff_separable (hlimit : 11 ≤ limit) :
    CutFree extractOne limit stream ↔ Separable limit stream := by
  refine ⟨Separable.of_cutFree hlimit, fun h => ?_⟩
  obtain ⟨messages, refused, hsettled⟩ := h.settled
  exact hsettled.cutFree resumable_extractOne

end Streams

/-! ## The receive loop of `handle_client` -/

/-- The bytes that one `recv` has room for. -/
def receiveSize : Nat := 4096

/-- The loop finds the same for every cut exactly when two or more stray bytes, as many as one chunk can
bring with the BeginString, come only before something that the reader refuses anyway. -/
theorem fix_segmentation_iff (stream : Bytes) :
    (∀ chunks chunks', Cuts receiveSize stream chunks → Cuts receiveSize stream chunks' →
      (receiveAll extractOne chunks).outcome = (receiveAll extractOne chunks').outcome) ↔
    Separable receiveSize stream :=
  cutFree_iff_separable (by decide)

/-- Two stray bytes and a Heartbeat: in one chunk it is found; when eleven bytes come first they are
given up. -/
theorem fix_segmentation_differs :
    ¬∀ (stream : Bytes) (chunks chunks' : List Bytes), Cuts receiveSize stream chunks →
      Cuts receiveSize stream chunks' →
      (receiveAll extractOne chunks).outcome = (receiveAll extractOne chunks').outcome := by
  intro h
  have hwire : encode ⟨[⟨35, text "0"⟩]⟩ = text "8=FIX.4.4\x019=5\x0135=0\x0110=163\x01" := by
    decide +kernel
  have hsame := h (text "xx" ++ encode ⟨[⟨35, text "0"⟩]⟩) [text "xx" ++ encode ⟨[⟨35, text "0"⟩]⟩]
    [text "xx8=FIX.4.4", text "\x019=5\x0135=0\x0110=163\x01"] ⟨rfl, by rw [hwire]; decide⟩
    ⟨by rw [hwire]; decide, by decide⟩
  rw [hwire] at hsame
  exact absurd hsame (by decide +kernel)

end Fix

end ExchangeLab

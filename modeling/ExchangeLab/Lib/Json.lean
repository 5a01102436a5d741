import ExchangeLab.Lib.Decimal

/-!
# ExchangeLab.Lib.Json

JSON objects whose members are strings, integers and booleans, in the part of JSON that has no blanks
and no escapes: every text of it is a JSON text and means the same there.

* `Value.Text`, `Member.Text`: the texts of a value and of a member.
* `read`: a reader of objects.
* `read_object`: it reads the members of a text, in order.
-/

namespace Wire

namespace Json

inductive Value where
  | string (text : Bytes)
  | integer (n : Int)
  | boolean (b : Bool)
  deriving DecidableEq, Repr

abbrev Member := Bytes × Value

/-- The character stands for itself within a string: it is printable ASCII, and neither the quotation
mark nor the backslash. -/
def isPlain (character : UInt8) : Bool :=
  32 ≤ character && character < 127 && character ≠ 34 && character ≠ 92

def isDigit (character : UInt8) : Bool := 48 ≤ character && character ≤ 57

def trueText : Bytes := [116, 114, 117, 101]

def falseText : Bytes := [102, 97, 108, 115, 101]

/-! ## Texts -/

/-- A number has no superfluous zeros in front. -/
structure Natural (text : Bytes) (n : Nat) : Prop where
  numeral : Numeral text n
  shortest : text.head? = some 48 → text = [48]

inductive Value.Text : Value → Bytes → Prop
  | string {text : Bytes} (hplain : ∀ character ∈ text, isPlain character = true) :
      Value.Text (.string text) (34 :: (text ++ [34]))
  | natural {text : Bytes} {n : Nat} (h : Natural text n) : Value.Text (.integer n) text
  | negative {text : Bytes} {n : Nat} (h : Natural text n) : Value.Text (.integer (-n)) (45 :: text)
  | yes : Value.Text (.boolean true) trueText
  | no : Value.Text (.boolean false) falseText

inductive Member.Text : Member → Bytes → Prop
  | intro {name text : Bytes} {value : Value} (hplain : ∀ character ∈ name, isPlain character = true)
      (h : value.Text text) : Member.Text (name, value) (34 :: (name ++ 34 :: 58 :: text))

/-! ## Reading -/

/-- A string whose opening quotation mark has been read. -/
def readString : Bytes → Option (Bytes × Bytes)
  | [] => none
  | character :: rest =>
    if character = 34 then some ([], rest)
    else if isPlain character then
      (readString rest).map fun (text, rest) => (character :: text, rest)
    else none

def readNatural (input : Bytes) : Option (Nat × Bytes) :=
  let digits := input.takeWhile isDigit
  if digits = [] ∨ (digits.head? = some 48 ∧ digits ≠ [48]) then none
  else some (digits.foldl (fun n character => 10 * n + (character.toNat - 48)) 0,
    input.dropWhile isDigit)

def readValue (input : Bytes) : Option (Value × Bytes) :=
  match input with
  | [] => none
  | first :: rest =>
    if first = 34 then (readString rest).map fun (text, rest) => (.string text, rest)
    else if first = 45 then (readNatural rest).map fun (n, rest) => (.integer (-n), rest)
    else if trueText.isPrefixOf input then some (.boolean true, input.drop 4)
    else if falseText.isPrefixOf input then some (.boolean false, input.drop 5)
    else (readNatural input).map fun (n, rest) => (.integer n, rest)

def readMember : Bytes → Option (Member × Bytes)
  | 34 :: rest =>
    match readString rest with
    | some (name, 58 :: rest) => (readValue rest).map fun (value, rest) => ((name, value), rest)
    | _ => none
  | _ => none

/-- Members with commas between them, up to the closing brace, `turns` of them at most. -/
def readMembers : Nat → Bytes → Option (List Member × Bytes)
  | 0, _ => none
  | turns + 1, input =>
    match readMember input with
    | some (member, 44 :: rest) =>
      (readMembers turns rest).map fun (members, rest) => (member :: members, rest)
    | some (member, 125 :: rest) => some ([member], rest)
    | _ => none

/-- There are no more members than bytes. -/
def read : Bytes → Option (List Member)
  | 123 :: input =>
    match readMembers input.length input with
    | some (members, []) => some members
    | _ => none
  | _ => none

/-! ## Reading back -/

section ReadBack

variable {text rest : Bytes} {n : Nat} {value : Value} {member : Member}

theorem readString_plain (h : ∀ character ∈ text, isPlain character = true) (rest : Bytes) :
    readString (text ++ 34 :: rest) = some (text, rest) := by
  induction text with
  | nil => rfl
  | cons character text ih =>
    have hplain := h character List.mem_cons_self
    have hquote : character ≠ 34 := fun heq => by
      rw [heq] at hplain
      exact absurd hplain (by decide)
    rw [List.cons_append, readString, if_neg hquote, if_pos hplain,
      ih fun character hmem => h character (List.mem_cons_of_mem _ hmem)]
    rfl

/-- What stands behind a value: a comma or a closing brace. -/
def Ends (rest : Bytes) : Prop := rest.head? = some 44 ∨ rest.head? = some 125

theorem Ends.dropWhile (h : Ends rest) : rest.takeWhile isDigit = [] ∧ rest.dropWhile isDigit = rest := by
  cases rest with
  | nil => exact ⟨rfl, rfl⟩
  | cons character rest =>
    have hno : ¬isDigit character = true := by
      rcases h with h | h
      · cases Option.some.inj h
        decide
      · cases Option.some.inj h
        decide
    exact ⟨List.takeWhile_cons_of_neg hno, List.dropWhile_cons_of_neg hno⟩

theorem Natural.digits (h : Natural text n) : ∀ character ∈ text, isDigit character = true := by
  intro character hmem
  obtain ⟨hlow, hhigh⟩ := (numeral_iff.mp h.numeral).2.1 character hmem
  simp only [isDigit, Bool.and_eq_true, decide_eq_true_eq]
  exact ⟨hlow, hhigh⟩

theorem readNatural_natural (h : Natural text n) (hends : Ends rest) :
    readNatural (text ++ rest) = some (n, rest) := by
  obtain ⟨hne, -, rfl⟩ := numeral_iff.mp h.numeral
  have htake : (text ++ rest).takeWhile isDigit = text := by
    rw [List.takeWhile_append_of_pos h.digits, hends.dropWhile.1, List.append_nil]
  have hdrop : (text ++ rest).dropWhile isDigit = rest := by
    rw [List.dropWhile_append_of_pos h.digits, hends.dropWhile.2]
  rw [readNatural, htake, hdrop, if_neg]
  rintro (hnil | ⟨hzero, hlong⟩)
  · exact hne hnil
  · exact hlong (h.shortest hzero)

theorem readValue_text (h : value.Text text) (hends : Ends rest) :
    readValue (text ++ rest) = some (value, rest) := by
  cases h with
  | @string text hplain =>
    rw [List.cons_append, List.append_assoc, readValue, if_pos rfl]
    simp only [List.singleton_append]
    rw [readString_plain hplain]
    rfl
  | natural h =>
    have hread := readNatural_natural h hends
    cases text with
    | nil => exact absurd rfl (numeral_iff.mp h.numeral).1
    | cons first text =>
      have hdigit := h.digits first List.mem_cons_self
      have hother : ∀ character, isDigit character = false → first ≠ character := fun _ hno heq => by
        rw [heq, hno] at hdigit
        cases hdigit
      have hliteral : ∀ character (literal : Bytes), isDigit character = false →
          ¬(character :: literal).isPrefixOf (first :: (text ++ rest)) = true :=
        fun character literal hno hbegins => by
          rw [List.isPrefixOf_cons_cons, Bool.and_eq_true, beq_iff_eq] at hbegins
          exact hother character hno hbegins.1.symm
      have hyes : ¬trueText.isPrefixOf (first :: (text ++ rest)) = true :=
        hliteral 116 _ (by decide)
      have hno : ¬falseText.isPrefixOf (first :: (text ++ rest)) = true :=
        hliteral 102 _ (by decide)
      rw [List.cons_append] at hread ⊢
      rw [readValue, if_neg (hother 34 (by decide)), if_neg (hother 45 (by decide)), if_neg hyes,
        if_neg hno, hread]
      rfl
  | negative h =>
    rw [List.cons_append, readValue, if_neg (by decide), if_pos rfl, readNatural_natural h hends]
    rfl
  | yes => rfl
  | no => rfl

theorem readMember_text (h : member.Text text) (hends : Ends rest) :
    readMember (text ++ rest) = some (member, rest) := by
  obtain ⟨hplain, hvalue⟩ := h
  rename_i name text value
  rw [List.cons_append, List.append_assoc, List.cons_append, List.cons_append, readMember,
    readString_plain hplain]
  simp only [readValue_text hvalue hends, Option.map_some]

/-- The texts of members with commas between them, closed by a brace. -/
def joined : List Bytes → Bytes
  | [] => [125]
  | [text] => text ++ [125]
  | text :: texts => text ++ 44 :: joined texts

theorem readMembers_joined {members : List Member} {texts : List Bytes} {turns : Nat}
    (h : List.Forall₂ Member.Text members texts) (hne : members ≠ [])
    (hturns : members.length ≤ turns) : readMembers turns (joined texts) = some (members, []) := by
  induction h generalizing turns with
  | nil => exact absurd rfl hne
  | @cons member text members texts hmember hmembers ih =>
    obtain ⟨turns, rfl⟩ : ∃ n, turns = n + 1 :=
      ⟨turns - 1, by rw [List.length_cons] at hturns; omega⟩
    cases hmembers with
    | nil =>
      rw [joined, readMembers, readMember_text hmember (.inr rfl)]
      rfl
    | @cons member' text' members texts hmember' hmembers =>
      have hrest := ih (List.cons_ne_nil _ _) (Nat.le_of_succ_le_succ hturns)
      rw [joined, readMembers, readMember_text hmember (.inl rfl)]
      · simp only [hrest, Option.map_some]
      · exact List.cons_ne_nil _ _

theorem length_le_joined {members : List Member} {texts : List Bytes}
    (h : List.Forall₂ Member.Text members texts) : members.length ≤ (joined texts).length := by
  induction h with
  | nil => exact Nat.zero_le _
  | @cons member text members texts hmember hmembers ih =>
    cases hmembers with
    | nil =>
      rw [joined, List.length_append, List.length_singleton, List.length_singleton]
      omega
    | cons =>
      rw [joined]
      · simp only [List.length_append, List.length_cons] at ih ⊢
        omega
      · exact List.cons_ne_nil _ _

/-- A reader finds the members of an object in its text. -/
theorem read_object {members : List Member} {texts : List Bytes}
    (h : List.Forall₂ Member.Text members texts) (hne : members ≠ []) :
    read (123 :: joined texts) = some members := by
  rw [read, readMembers_joined h hne (length_le_joined h)]

end ReadBack

end Json

end Wire

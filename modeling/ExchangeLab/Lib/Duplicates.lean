import Mathlib.Data.List.Basic

/-!
# ExchangeLab.Lib.Duplicates

A filter against second copies. It remembers the key of one message and how many more messages with
that key it is to ignore.

* `Memory.after`: what it remembers after a message.
* `marks`: which messages of a stream it takes.
* `marks_twice`: of a stream that has every message twice in a row it takes each first copy.
* `marks_of_prefix`: and so it does of what has come in of such a stream.
-/

namespace Duplicates

variable {κ : Type} [DecidableEq κ]

structure Memory (κ : Type) where
  last : Option κ := none
  toIgnore : Nat := 0

namespace Memory

def Ignores (key : κ) (memory : Memory κ) : Prop := memory.toIgnore > 0 ∧ memory.last = some key

instance (key : κ) (memory : Memory κ) : Decidable (memory.Ignores key) :=
  inferInstanceAs (Decidable (_ ∧ _))

def after (memory : Memory κ) (key : κ) : Memory κ :=
  if memory.Ignores key then { memory with toIgnore := memory.toIgnore - 1 } else ⟨some key, 1⟩

end Memory

/-- Each key with whether its message is taken. -/
def marks : Memory κ → List κ → List (κ × Bool)
  | _, [] => []
  | memory, key :: keys => (key, ¬memory.Ignores key) :: marks (memory.after key) keys

def twice {α : Type} (xs : List α) : List α := xs.flatMap fun x => [x, x]

/-- The first copy is taken, the second is not. -/
def firstCopies (keys : List κ) : List (κ × Bool) :=
  keys.flatMap fun key => [(key, true), (key, false)]

omit [DecidableEq κ] in
theorem firstCopies_taken (keys : List κ) :
    ((firstCopies keys).filter Prod.snd).map Prod.fst = keys := by
  induction keys with
  | nil => rfl
  | cons key keys ih => exact congrArg (key :: ·) ih

variable {memory : Memory κ}

theorem marks_keys (memory : Memory κ) (keys : List κ) :
    (marks memory keys).map Prod.fst = keys := by
  induction keys generalizing memory with
  | nil => rfl
  | cons key keys ih => rw [marks, List.map_cons, ih]

theorem marks_append (memory : Memory κ) (keys keys' : List κ) :
    marks memory (keys ++ keys') =
      marks memory keys ++ marks (keys.foldl Memory.after memory) keys' := by
  induction keys generalizing memory with
  | nil => rfl
  | cons key keys ih => rw [List.cons_append, marks, ih, marks, List.cons_append, List.foldl_cons]

theorem after_first (h : memory.toIgnore = 0) (key : κ) :
    ¬memory.Ignores key ∧ memory.after key = ⟨some key, 1⟩ := by
  have htaken : ¬memory.Ignores key := fun hignores => absurd h (Nat.ne_of_gt hignores.1)
  exact ⟨htaken, if_neg htaken⟩

theorem after_second (key : κ) :
    (Memory.mk (some key) 1).Ignores key ∧ (Memory.mk (some key) 1).after key = ⟨some key, 0⟩ := by
  have hignored : (Memory.mk (some key) 1).Ignores key := ⟨Nat.one_pos, rfl⟩
  exact ⟨hignored, if_pos hignored⟩

theorem marks_twice (h : memory.toIgnore = 0) (keys : List κ) :
    marks memory (twice keys) = firstCopies keys := by
  induction keys generalizing memory with
  | nil => rfl
  | cons key keys ih =>
    obtain ⟨htaken, hafter⟩ := after_first h key
    obtain ⟨hignored, hlater⟩ := after_second key
    have hkeys : marks ⟨some key, 0⟩ (twice keys) = firstCopies keys := ih rfl
    have hcopies : twice (key :: keys) = key :: key :: twice keys := rfl
    rw [hcopies, marks, marks, hafter, hlater, hkeys]
    simp [htaken, hignored, firstCopies]

/-- What the filter makes of a part does not depend on what is still to come. -/
theorem marks_of_prefix (h : memory.toIgnore = 0) {received rest keys : List κ}
    (hstream : received ++ rest = twice keys) :
    marks memory received = (firstCopies keys).take received.length := by
  have hlength : (marks memory received).length = received.length := by
    rw [← List.length_map Prod.fst, marks_keys]
  rw [← marks_twice h, ← hstream, marks_append, List.take_left' hlength]

theorem twice_filter {α : Type} (p : α → Bool) (xs : List α) :
    (twice xs).filter p = twice (xs.filter p) := by
  induction xs with
  | nil => rfl
  | cons x xs ih =>
    have hcopies : twice (x :: xs) = x :: x :: twice xs := rfl
    cases hx : p x with
    | true => simp only [hcopies, List.filter_cons_of_pos hx, ih]; rfl
    | false =>
      have hnot : ¬p x = true := by rw [hx]; exact Bool.false_ne_true
      rw [hcopies, List.filter_cons_of_neg hnot, List.filter_cons_of_neg hnot,
        List.filter_cons_of_neg hnot, ih]

theorem mem_twice {α : Type} {x : α} {xs : List α} : x ∈ twice xs ↔ x ∈ xs := by
  simp [twice]

theorem twice_append {α : Type} (xs ys : List α) : twice (xs ++ ys) = twice xs ++ twice ys :=
  List.flatMap_append

end Duplicates

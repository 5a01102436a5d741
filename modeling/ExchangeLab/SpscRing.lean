import Mathlib.Logic.Function.Basic

/-!
# ExchangeLab.SpscRing

The single-producer, single-consumer ring, in the pieces between two accesses of a shared position:
one side may run between any two of them.

* `Holds ring pushed`: what the ring has published is `pushed`; the slots from the read position on
  hold its values, and what a side has cached of the other's position is not ahead of it.
* `Holds.publish`, `Holds.front`, `Holds.advance`: the ring is a queue with a bound.
-/

namespace ExchangeLab

/-- A position counts the elements since `reset`, and `slots` is indexed below `capacity`. -/
structure SpscRing (α : Type) (capacity : Nat) where
  slots : Nat → α
  writePosition : Nat := 0
  cachedReadPosition : Nat := 0
  readPosition : Nat := 0
  cachedWritePosition : Nat := 0

namespace SpscRing

variable {α : Type} {capacity : Nat}

def reset (ring : SpscRing α capacity) : SpscRing α capacity :=
  { ring with
    writePosition := 0
    readPosition := 0
    cachedReadPosition := 0
    cachedWritePosition := 0 }

/-! ## `try_emplace` -/

/-- The test made before and after the cached read position is refreshed. -/
def full (ring : SpscRing α capacity) : Bool :=
  ring.writePosition - ring.cachedReadPosition ≥ capacity

def loadReadPosition (ring : SpscRing α capacity) : SpscRing α capacity :=
  { ring with cachedReadPosition := ring.readPosition }

/-- `capacity` is a power of two, so the mask of the source is the remainder. -/
def writeSlot (ring : SpscRing α capacity) (value : α) : SpscRing α capacity :=
  { ring with slots := Function.update ring.slots (ring.writePosition % capacity) value }

def storeWritePosition (ring : SpscRing α capacity) : SpscRing α capacity :=
  { ring with writePosition := ring.writePosition + 1 }

/-! ## `try_consume` -/

/-- The test made before and after the cached write position is refreshed. -/
def empty (ring : SpscRing α capacity) : Bool := ring.readPosition == ring.cachedWritePosition

def loadWritePosition (ring : SpscRing α capacity) : SpscRing α capacity :=
  { ring with cachedWritePosition := ring.writePosition }

def front (ring : SpscRing α capacity) : α := ring.slots (ring.readPosition % capacity)

def storeReadPosition (ring : SpscRing α capacity) : SpscRing α capacity :=
  { ring with readPosition := ring.readPosition + 1 }

/-- `size_approx()` is zero exactly when the two positions it loads are the same. -/
def emptyApprox (write read : Nat) : Bool := write == read

/-! ## The queue it is -/

structure Holds (ring : SpscRing α capacity) (pushed : List α) : Prop where
  cachedRead : ring.cachedReadPosition ≤ ring.readPosition
  cachedWrite : ring.readPosition ≤ ring.cachedWritePosition
  written : ring.cachedWritePosition ≤ ring.writePosition
  bounded : ring.writePosition ≤ ring.cachedReadPosition + capacity
  length : pushed.length = ring.writePosition
  slot : ∀ p, ring.readPosition ≤ p → p < ring.writePosition →
    pushed[p]? = some (ring.slots (p % capacity))

theorem holds_reset (ring : SpscRing α capacity) : ring.reset.Holds [] where
  cachedRead := Nat.le_refl 0
  cachedWrite := Nat.le_refl 0
  written := Nat.le_refl 0
  bounded := Nat.zero_le _
  length := rfl
  slot := fun p _ h => absurd h (Nat.not_lt_zero p)

/-- Two positions less than a capacity apart have different slots. -/
theorem slot_ne {p q : Nat} (hlt : p < q) (hnear : q < p + capacity) :
    p % capacity ≠ q % capacity := by
  intro h
  have hdvd : capacity ∣ q - p := Nat.dvd_of_mod_eq_zero (Nat.sub_mod_eq_zero_of_mod_eq h.symm)
  have hle := Nat.le_of_dvd (by omega) hdvd
  omega

namespace Holds

variable {ring : SpscRing α capacity} {pushed : List α}

theorem room (h : ring.Holds pushed) (hfull : ring.full = false) :
    ring.writePosition < ring.cachedReadPosition + capacity := by
  have := h.cachedRead
  have := h.cachedWrite
  have := h.written
  simp only [full, ge_iff_le, decide_eq_false_iff_not] at hfull
  omega

theorem loadReadPosition (h : ring.Holds pushed) : ring.loadReadPosition.Holds pushed where
  cachedRead := Nat.le_refl _
  cachedWrite := h.cachedWrite
  written := h.written
  bounded := by
    have := h.bounded
    have := h.cachedRead
    simp only [SpscRing.loadReadPosition]
    omega
  length := h.length
  slot := h.slot

/-- The slot written is no slot in use, as long as the ring is not full. -/
theorem writeSlot (h : ring.Holds pushed)
    (hroom : ring.writePosition < ring.cachedReadPosition + capacity) (value : α) :
    (ring.writeSlot value).Holds pushed where
  cachedRead := h.cachedRead
  cachedWrite := h.cachedWrite
  written := h.written
  bounded := h.bounded
  length := h.length
  slot := by
    intro p hread hp
    have hcached := h.cachedRead
    have hother : p % capacity ≠ ring.writePosition % capacity := by
      refine slot_ne hp ?_
      simp only [SpscRing.writeSlot] at hread
      omega
    rw [h.slot p hread hp]
    simp only [SpscRing.writeSlot, Function.update_of_ne hother]

theorem storeWritePosition (h : ring.Holds pushed)
    (hroom : ring.writePosition < ring.cachedReadPosition + capacity) {value : α}
    (hvalue : ring.slots (ring.writePosition % capacity) = value) :
    ring.storeWritePosition.Holds (pushed ++ [value]) where
  cachedRead := h.cachedRead
  cachedWrite := h.cachedWrite
  written := Nat.le_succ_of_le h.written
  bounded := by simp only [SpscRing.storeWritePosition]; omega
  length := by simp [h.length, SpscRing.storeWritePosition]
  slot := by
    intro p hread hp
    have hlength := h.length
    simp only [SpscRing.storeWritePosition] at hread hp ⊢
    rcases Nat.lt_succ_iff_lt_or_eq.mp hp with hlt | rfl
    · rw [List.getElem?_append_left (by omega)]
      exact h.slot p hread hlt
    · rw [List.getElem?_append_right (by omega), hlength, Nat.sub_self, hvalue]
      rfl

theorem loadWritePosition (h : ring.Holds pushed) : ring.loadWritePosition.Holds pushed where
  cachedRead := h.cachedRead
  cachedWrite := Nat.le_trans h.cachedWrite h.written
  written := Nat.le_refl _
  bounded := h.bounded
  length := h.length
  slot := h.slot

theorem unread (h : ring.Holds pushed) (hempty : ring.empty = false) :
    ring.readPosition < ring.cachedWritePosition := by
  have := h.cachedWrite
  simp only [empty, beq_eq_false_iff_ne] at hempty
  omega

theorem front (h : ring.Holds pushed) (hunread : ring.readPosition < ring.cachedWritePosition) :
    pushed.take ring.readPosition ++ [ring.front] = pushed.take (ring.readPosition + 1) := by
  have := h.written
  have hslot := h.slot ring.readPosition (Nat.le_refl _) (by omega)
  rw [List.take_add_one, hslot]
  rfl

theorem storeReadPosition (h : ring.Holds pushed)
    (hunread : ring.readPosition < ring.cachedWritePosition) :
    ring.storeReadPosition.Holds pushed where
  cachedRead := Nat.le_succ_of_le h.cachedRead
  cachedWrite := hunread
  written := h.written
  bounded := h.bounded
  length := h.length
  slot := fun p hread => h.slot p (by simp only [SpscRing.storeReadPosition] at hread; omega)

end Holds

end SpscRing

end ExchangeLab

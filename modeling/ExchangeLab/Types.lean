import Mathlib.Data.UInt
import Mathlib.Order.RelClasses

/-!
# ExchangeLab.Types

The value types shared by every component: identifiers and amounts at their machine widths, sides,
order types, orders and trades, and the faults a call can end with.

`better s p q` says that price `p` has priority over price `q` on side `s`. It is the comparison
object of the level map of that side (`std::greater` for bids, `std::less` for asks).
-/

namespace ExchangeLab

abbrev OrderId := UInt64
abbrev Price := Int64
abbrev Quantity := UInt32
abbrev Timestamp := UInt64

inductive Side where
  | buy
  | sell
  deriving DecidableEq, Repr

inductive OrderType where
  | limit
  | market
  deriving DecidableEq, Repr

inductive TimeInForce where
  | goodTillCancel
  | immediateOrCancel
  | fillOrKill
  deriving DecidableEq, Repr

structure Order where
  id : OrderId
  side : Side
  type : OrderType
  timeInForce : TimeInForce
  price : Price
  initialQuantity : Quantity
  remainingQuantity : Quantity
  timestamp : Timestamp
  deriving DecidableEq, Repr

def Order.isFilled (o : Order) : Bool := o.remainingQuantity = 0

structure Trade where
  buyOrderId : OrderId
  sellOrderId : OrderId
  price : Price
  quantity : Quantity
  timestamp : Timestamp
  deriving DecidableEq, Repr

theorem toUInt64_ne_zero {q : Quantity} (h : q ≠ 0) : q.toUInt64 ≠ 0 := by
  intro heq
  have hzero := congrArg UInt64.toNat heq
  rw [UInt32.toNat_toUInt64] at hzero
  exact h (UInt32.toNat_inj.mp hzero)

/-- How a call can fail: an exception with its text, or the use of a dangling list iterator, which
the source leaves undefined. -/
inductive Fault where
  | invalidArgument (what : String)
  | outOfRange (what : String)
  | logicError (what : String)
  | lengthError (what : String)
  | danglingIterator
  deriving DecidableEq, Repr

/-- A call on a mutable object of type `S`: it returns or throws, and leaves a state either way. -/
inductive Outcome (S α : Type) where
  | returned (a : α) (s : S)
  | thrown (fault : Fault) (s : S)

/-- The state a call leaves behind, whether it returned or threw. -/
def Outcome.state {S α : Type} : Outcome S α → S
  | .returned _ s => s
  | .thrown _ s => s

@[simp] theorem Outcome.state_returned {S α : Type} (a : α) (s : S) :
    (Outcome.returned a s).state = s := rfl
@[simp] theorem Outcome.state_thrown {S α : Type} (f : Fault) (s : S) :
    (Outcome.thrown f s : Outcome S α).state = s := rfl

def Side.opposite : Side → Side
  | .buy => .sell
  | .sell => .buy

@[simp] theorem Side.opposite_opposite (s : Side) : s.opposite.opposite = s := by cases s <;> rfl

@[simp] theorem Side.opposite_ne (s : Side) : s.opposite ≠ s := by cases s <;> decide

theorem Side.eq_or_eq_opposite (s t : Side) : t = s ∨ t = s.opposite := by
  cases s <;> cases t <;> decide

/-- `p` has priority over `q` on side `s`. -/
def better : Side → Price → Price → Prop
  | .buy, p, q => p > q
  | .sell, p, q => p < q

instance (s : Side) : DecidableRel (better s) := fun p q => by
  cases s <;> (unfold better; infer_instance)

theorem better_irrefl (s : Side) (p : Price) : ¬ better s p p := by
  cases s <;> simp only [better] <;> grind

theorem better_trans {s : Side} {p q r : Price} (h₁ : better s p q) (h₂ : better s q r) :
    better s p r := by
  cases s <;> simp only [better] at * <;> grind

theorem better_total (s : Side) (p q : Price) : better s p q ∨ p = q ∨ better s q p := by
  cases s <;> simp only [better] <;> grind

instance (s : Side) : IsStrictTotalOrder Price (better s) where
  trichotomous p q h₁ h₂ := ((better_total s p q).resolve_left h₁).resolve_right h₂
  irrefl := better_irrefl s
  trans _ _ _ := better_trans

end ExchangeLab

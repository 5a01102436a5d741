import ExchangeLab.Lib.FiniteMap
import Mathlib.Algebra.BigOperators.Group.Finset.Piecewise
import Mathlib.Algebra.Order.BigOperators.Group.Multiset
import Mathlib.Algebra.Order.Group.Nat
import Mathlib.Algebra.Ring.Nat

/-!
# ExchangeLab.Lib.Tally

Totals over the entries of a finite map: the sum of a quantity of each entry.

A counter kept beside a map is right when it equals a tally of the map. `tally_insert`, `tally_erase`
and `tally_update` say what each map operation does to it, `tally_changed` what any change of one
entry does. `sum_le_tally` and `tally_parts` take a total apart.
-/

namespace Container

variable {K V : Type} [DecidableEq K]

def tally (m : Finmap fun _ : K => V) (f : K → V → Nat) : Nat :=
  (m.entries.map fun e => f e.1 e.2).sum

variable {m : Finmap fun _ : K => V} {f : K → V → Nat} {k : K} {v w : V}

omit [DecidableEq K] in
@[simp] theorem tally_empty (f : K → V → Nat) : tally ∅ f = 0 := rfl

theorem tally_insert (hk : m.lookup k = none) : tally (m.insert k v) f = f k v + tally m f := by
  rw [tally, Finmap.entries_insert_of_notMem (Finmap.lookup_eq_none.mp hk), Multiset.map_cons,
    Multiset.sum_cons]
  rfl

theorem tally_erase (hk : m.lookup k = some v) : tally m f = f k v + tally (m.erase k) f := by
  conv_lhs => rw [← insert_erase hk]
  exact tally_insert (Finmap.lookup_erase k m)

/-- Replacing a value trades its share of the total for the new one. -/
theorem tally_update (hk : m.lookup k = some v) :
    tally (m.insert k w) f + f k v = tally m f + f k w := by
  rw [tally_erase hk, ← insert_of_erase, tally_insert (Finmap.lookup_erase k m)]
  omega

/-- A map that differs in one entry: the totals differ by the shares of that entry. -/
theorem tally_changed {m' : Finmap fun _ : K => V} {new : Option V}
    (h : ∀ k', m'.lookup k' = if k' = k then new else m.lookup k') :
    tally m' f + ((m.lookup k).map (f k)).getD 0 = tally m f + (new.map (f k)).getD 0 := by
  have herased : tally (m'.erase k) f = tally (m.erase k) f := by
    congr 1
    refine Finmap.ext_lookup fun k' => ?_
    rw [lookup_erase_eq, lookup_erase_eq, h]
    split <;> rfl
  have hsplit : ∀ m : Finmap fun _ : K => V,
      tally m f = ((m.lookup k).map (f k)).getD 0 + tally (m.erase k) f := by
    intro m
    cases hk : m.lookup k with
    | none => rw [erase_of_lookup_eq_none hk, Option.map_none, Option.getD_none, Nat.zero_add]
    | some v => exact tally_erase hk
  rw [hsplit m', hsplit m, herased, h, if_pos rfl]
  omega

/-- Every entry is a part of the total. -/
theorem le_tally (hk : m.lookup k = some v) : f k v ≤ tally m f := by
  rw [tally_erase hk]
  exact Nat.le_add_right _ _

theorem tally_le {g : K → V → Nat} (h : ∀ k v, m.lookup k = some v → f k v ≤ g k v) :
    tally m f ≤ tally m g :=
  Multiset.sum_map_le_sum_map _ _ fun e he => h e.1 e.2 (Finmap.mem_lookup_iff.mpr he)

/-- Entries at different keys are together a part of the total. -/
theorem sum_le_tally {ι : Type} {items : List ι} {key : ι → K} {value : ι → V}
    (hnodup : (items.map key).Nodup)
    (hlookup : ∀ item ∈ items, m.lookup (key item) = some (value item)) :
    (items.map fun item => f (key item) (value item)).sum ≤ tally m f := by
  induction items generalizing m with
  | nil => exact Nat.zero_le _
  | cons item items ih =>
    rw [List.map_cons, List.nodup_cons] at hnodup
    rw [List.map_cons, List.sum_cons, tally_erase (hlookup item List.mem_cons_self)]
    refine Nat.add_le_add_left (ih hnodup.2 fun other hother => ?_) _
    have hne : key other ≠ key item := fun heq => hnodup.1 (heq ▸ List.mem_map_of_mem hother)
    rw [lookup_erase_eq, if_neg hne]
    exact hlookup other (List.mem_cons_of_mem _ hother)

/-- The entries come in parts, and each part has its own total. -/
theorem tally_parts {C : Type} [DecidableEq C] {part : K → C} {parts : Finset C}
    (h : ∀ k v, m.lookup k = some v → part k ∈ parts) :
    tally m f = parts.sum fun c => tally m fun k v => if part k = c then f k v else 0 := by
  have hswap : (parts.sum fun c => tally m fun k v => if part k = c then f k v else 0) =
      (m.entries.map fun e => parts.sum fun c => if part e.1 = c then f e.1 e.2 else 0).sum :=
    Multiset.sum_map_sum_map _ _
  rw [hswap, tally]
  refine congrArg Multiset.sum (Multiset.map_congr rfl fun e he => ?_)
  rw [Finset.sum_ite_eq, if_pos (h e.1 e.2 (Finmap.mem_lookup_iff.mpr he))]

end Container

import Mathlib.Data.List.Sort

/-!
# ExchangeLab.Lib.Rank

Order statistics of a list.

* `kthSmallest`: the `k`-th smallest element, by sorting.
* `le_countP_iff`: how many elements are in a lower set decides whether the `k`-th smallest is.
* `kthSmallest_le`: a higher rank is no smaller.
-/

namespace Rank

variable {α : Type} [LinearOrder α] {xs : List α} {x y : α} {k l : Nat}

def sorted (xs : List α) : List α := xs.mergeSort (· ≤ ·)

/-- The ranks count from one. -/
def kthSmallest (xs : List α) : Nat → Option α
  | 0 => none
  | k + 1 => (sorted xs)[k]?

theorem sorted_perm (xs : List α) : (sorted xs).Perm xs := List.mergeSort_perm xs _

theorem pairwise_sorted (xs : List α) : (sorted xs).Pairwise (· ≤ ·) :=
  List.pairwise_mergeSort' _ xs

theorem exists_kthSmallest (hpos : 0 < k) (hk : k ≤ xs.length) : ∃ x, kthSmallest xs k = some x := by
  obtain ⟨k, rfl⟩ : ∃ j, k = j + 1 := ⟨k - 1, by omega⟩
  have hlt : k < (sorted xs).length := by
    rw [(sorted_perm xs).length_eq]
    omega
  exact ⟨_, List.getElem?_eq_getElem hlt⟩

/-- The sorted list around the element of a rank. -/
theorem kthSmallest_split (h : kthSmallest xs k = some x) :
    ∃ below above, sorted xs = below ++ x :: above ∧ below.length + 1 = k := by
  cases k with
  | zero => cases h
  | succ k =>
    obtain ⟨hlt, rfl⟩ := List.getElem?_eq_some_iff.mp h
    refine ⟨(sorted xs).take k, (sorted xs).drop (k + 1), ?_, ?_⟩
    · rw [← List.drop_eq_getElem_cons hlt, List.take_append_drop]
    · rw [List.length_take_of_le (Nat.le_of_lt hlt)]

theorem kthSmallest_mem (h : kthSmallest xs k = some x) : x ∈ xs := by
  obtain ⟨below, above, hsorted, -⟩ := kthSmallest_split h
  rw [← (sorted_perm xs).mem_iff, hsorted]
  exact List.mem_append_right _ (.head _)

/-- The elements of a lower set are the first of the sorted list. -/
theorem le_countP_iff {p : α → Prop} [DecidablePred p] (hlower : ∀ a b, a ≤ b → p b → p a)
    (h : kthSmallest xs k = some x) : k ≤ xs.countP p ↔ p x := by
  obtain ⟨below, above, hsorted, rfl⟩ := kthSmallest_split h
  have hpairwise := pairwise_sorted xs
  rw [hsorted, List.pairwise_append, List.pairwise_cons] at hpairwise
  obtain ⟨-, ⟨habove, -⟩, hbelow⟩ := hpairwise
  rw [← (sorted_perm xs).countP_eq, hsorted, List.countP_append, List.countP_cons]
  by_cases hx : p x
  · have hall : below.countP p = below.length :=
      List.countP_eq_length.mpr fun a ha =>
        decide_eq_true (hlower a x (hbelow a ha x (.head _)) hx)
    rw [if_pos (decide_eq_true hx), hall]
    exact iff_of_true (by omega) hx
  · have hnone : above.countP p = 0 :=
      List.countP_eq_zero.mpr fun b hb hp =>
        hx (hlower x b (habove b hb) (of_decide_eq_true hp))
    have hle : below.countP p ≤ below.length := List.countP_le_length
    rw [if_neg (by simpa using hx), hnone]
    exact iff_of_false (by omega) hx

theorem kthSmallest_le (hkl : k ≤ l) (h : kthSmallest xs k = some x)
    (h' : kthSmallest xs l = some y) : x ≤ y :=
  (le_countP_iff (fun _ _ => le_trans) h).mp
    (hkl.trans ((le_countP_iff (p := (· ≤ y)) (fun _ _ => le_trans) h').mpr (le_refl y)))

end Rank

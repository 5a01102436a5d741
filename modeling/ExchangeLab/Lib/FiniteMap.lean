import Mathlib.Data.Finmap

/-!
# ExchangeLab.Lib.FiniteMap

Finite maps with values of one type: lookups after an update in one equation each, and the map that
changes every value.
-/

namespace Container

variable {K V W : Type} [DecidableEq K]

theorem lookup_insert_eq (m : Finmap fun _ : K => V) (k k' : K) (v : V) :
    (m.insert k v).lookup k' = if k' = k then some v else m.lookup k' := by
  split
  · rename_i h
    rw [h, Finmap.lookup_insert]
  · rename_i h
    rw [Finmap.lookup_insert_of_ne _ h]

theorem lookup_erase_eq (m : Finmap fun _ : K => V) (k k' : K) :
    (m.erase k).lookup k' = if k' = k then none else m.lookup k' := by
  split
  · rename_i h
    rw [h, Finmap.lookup_erase]
  · rename_i h
    rw [Finmap.lookup_erase_ne h]

/-- `emplace` of the standard maps: a key that is there keeps its value. -/
def emplace (k : K) (v : V) (m : Finmap fun _ : K => V) : Finmap fun _ : K => V :=
  if k ∈ m then m else m.insert k v

theorem lookup_emplace_eq (m : Finmap fun _ : K => V) (k k' : K) (v : V) :
    (emplace k v m).lookup k' = if k' = k then some ((m.lookup k).getD v) else m.lookup k' := by
  unfold emplace
  by_cases hk : k ∈ m
  · rw [if_pos hk]
    split
    · rename_i h
      obtain ⟨w, hw⟩ := Finmap.mem_iff.mp hk
      rw [h, hw]
      rfl
    · rfl
  · rw [if_neg hk, lookup_insert_eq, Finmap.lookup_eq_none.mpr hk]
    rfl

theorem insert_erase {m : Finmap fun _ : K => V} {k : K} {v : V} (hk : m.lookup k = some v) :
    (m.erase k).insert k v = m := by
  apply Finmap.ext_lookup
  intro x
  rw [lookup_insert_eq, lookup_erase_eq]
  split
  · rename_i h
    rw [h, hk]
  · rfl

theorem insert_of_erase (m : Finmap fun _ : K => V) (k : K) (v : V) :
    (m.erase k).insert k v = m.insert k v := by
  apply Finmap.ext_lookup
  intro x
  rw [lookup_insert_eq, lookup_insert_eq, lookup_erase_eq]
  split <;> rfl

theorem erase_of_lookup_eq_none {m : Finmap fun _ : K => V} {k : K} (hk : m.lookup k = none) :
    m.erase k = m := by
  apply Finmap.ext_lookup
  intro x
  rw [lookup_erase_eq]
  split
  · rename_i h
    rw [h, hk]
  · rfl

/-- Erasing, one after the other, those keys of a list that satisfy a test. -/
theorem lookup_foldl_erase (p : K → Bool) (ks : List K) (m : Finmap fun _ : K => V) (k : K) :
    (ks.foldl (fun m k => if p k then m.erase k else m) m).lookup k =
      if k ∈ ks ∧ p k = true then none else m.lookup k := by
  induction ks generalizing m with
  | nil => simp
  | cons k' ks ih =>
    rw [List.foldl_cons, ih]
    by_cases hk : k = k'
    · subst hk
      cases hp : p k with
      | true => simp
      | false => simp
    · cases hp : p k' with
      | true => simp [hk]
      | false => simp [hk]

def mapValues (f : V → W) (m : Finmap fun _ : K => V) : Finmap fun _ : K => W where
  entries := m.entries.map fun e => ⟨e.1, f e.2⟩
  nodupKeys := by
    rw [← Multiset.nodup_keys, Multiset.keys, Multiset.map_map]
    exact Multiset.nodup_keys.mpr m.nodupKeys

theorem lookup_mapValues (f : V → W) (m : Finmap fun _ : K => V) (k : K) :
    (mapValues f m).lookup k = (m.lookup k).map f := by
  apply Option.ext
  intro w
  simp only [Option.map_eq_some_iff, Finmap.lookup_eq_some_iff, mapValues, Multiset.mem_map]
  constructor
  · rintro ⟨⟨k', v⟩, hmem, heq⟩
    cases heq
    exact ⟨v, hmem, rfl⟩
  · rintro ⟨v, hmem, rfl⟩
    exact ⟨⟨k, v⟩, hmem, rfl⟩

end Container

import Mathlib.Order.RelClasses

/-!
# ExchangeLab.Lib.OrderedMap

A finite map kept as a list of entries in the strict total order `r` of their keys: the value
semantics of an ordered container (`std::map` with a comparison object). The order of the entries is
a field, so a map that is out of order or holds a key twice cannot be written down.

* `find?`, `insert`, `erase`, `first?` and their effect on `entries`.
* `split_of_find?` / `split_of_find?_none`: a key cuts the entries in two. Every fact about an
  update is then a fact about `A ++ (k, v) :: B`, with no induction left for the caller.
-/

namespace Container

/-- Entries in the order `r` of their keys, no key twice. -/
structure OrderedMap (K V : Type) (r : K → K → Prop) where
  entries : List (K × V)
  sorted : entries.Pairwise fun a b => r a.1 b.1

namespace OrderedMap

variable {K V : Type} {r : K → K → Prop}

@[ext] theorem ext {m m' : OrderedMap K V r} (h : m.entries = m'.entries) : m = m' := by
  cases m; cases m'; cases h; rfl

def empty : OrderedMap K V r := ⟨[], .nil⟩

def isEmpty (m : OrderedMap K V r) : Bool := m.entries.isEmpty

/-- The entry an iteration from the beginning meets first. -/
def first? (m : OrderedMap K V r) : Option (K × V) := m.entries.head?

def find? [DecidableEq K] (m : OrderedMap K V r) (k : K) : Option V :=
  (m.entries.find? fun e => e.1 = k).map Prod.snd

def erase [DecidableEq K] (m : OrderedMap K V r) (k : K) : OrderedMap K V r :=
  ⟨m.entries.filter fun e => e.1 ≠ k, m.sorted.filter _⟩

/-- Put `v` at `k`, in place of the entry of `k` if there is one. -/
def insertEntry [DecidableEq K] (r : K → K → Prop) [DecidableRel r] (k : K) (v : V) :
    List (K × V) → List (K × V)
  | [] => [(k, v)]
  | e :: es =>
    if r k e.1 then (k, v) :: e :: es
    else if e.1 = k then (k, v) :: es
    else e :: insertEntry r k v es

@[simp] theorem entries_empty : (empty : OrderedMap K V r).entries = [] := rfl

theorem isEmpty_iff {m : OrderedMap K V r} : m.isEmpty = true ↔ m.entries = [] := by
  simp [isEmpty]

/-! ## Cutting the entries at a key -/

section Split

variable [IsStrictTotalOrder K r] {k : K} {v : V} {A B : List (K × V)}

theorem ne_of_before (hA : ∀ e ∈ A, r e.1 k) : ∀ e ∈ A, e.1 ≠ k :=
  fun e he h => irrefl_of r k (h ▸ hA e he)

theorem ne_of_after (hB : ∀ e ∈ B, r k e.1) : ∀ e ∈ B, e.1 ≠ k :=
  fun e he h => irrefl_of r k (h ▸ hB e he)

/-- A list in the order of its keys splits at a key it does not hold. -/
theorem exists_split {es : List (K × V)} (hs : es.Pairwise fun a b => r a.1 b.1)
    (hk : ∀ e ∈ es, e.1 ≠ k) : ∃ A B, es = A ++ B ∧ (∀ e ∈ A, r e.1 k) ∧ ∀ e ∈ B, r k e.1 := by
  induction es with
  | nil => exact ⟨[], [], rfl, by simp, by simp⟩
  | cons e es ih =>
    obtain ⟨he, hes⟩ := List.pairwise_cons.mp hs
    rcases trichotomous_of r e.1 k with h | h | h
    · obtain ⟨A, B, rfl, hA, hB⟩ := ih hes fun x hx => hk x (.tail _ hx)
      refine ⟨e :: A, B, rfl, fun x hx => ?_, hB⟩
      rcases List.mem_cons.mp hx with rfl | hx
      · exact h
      · exact hA x hx
    · exact absurd h (hk e (.head _))
    · refine ⟨[], e :: es, rfl, by simp, fun x hx => ?_⟩
      rcases List.mem_cons.mp hx with rfl | hx
      · exact h
      · exact trans_of r h (he x hx)

end Split

section Find

variable [DecidableEq K] {k : K} {v : V} {A B : List (K × V)} {m : OrderedMap K V r}

theorem find?_eq_none : m.find? k = none ↔ ∀ e ∈ m.entries, e.1 ≠ k := by
  simp [find?]

theorem mem_of_find? (h : m.find? k = some v) : (k, v) ∈ m.entries := by
  simp only [find?, Option.map_eq_some_iff] at h
  obtain ⟨e, he, rfl⟩ := h
  have hk := List.find?_some he
  simp only [decide_eq_true_eq] at hk
  have := List.mem_of_find?_eq_some he
  rwa [← hk]

theorem split_of_find? (h : m.find? k = some v) :
    ∃ A B, m.entries = A ++ (k, v) :: B ∧ (∀ e ∈ A, r e.1 k) ∧ ∀ e ∈ B, r k e.1 := by
  obtain ⟨A, B, hm⟩ := List.append_of_mem (mem_of_find? h)
  have hs := m.sorted
  rw [hm, List.pairwise_append] at hs
  exact ⟨A, B, hm, fun e he => hs.2.2 e he _ (.head _), (List.pairwise_cons.mp hs.2.1).1⟩

variable [IsStrictTotalOrder K r]

theorem split_of_find?_none (h : m.find? k = none) :
    ∃ A B, m.entries = A ++ B ∧ (∀ e ∈ A, r e.1 k) ∧ ∀ e ∈ B, r k e.1 :=
  exists_split m.sorted (find?_eq_none.mp h)

theorem find?_of_split (h : m.entries = A ++ (k, v) :: B) (hA : ∀ e ∈ A, r e.1 k) :
    m.find? k = some v := by
  have hnone : A.find? (fun e => e.1 = k) = none := by
    rw [List.find?_eq_none]
    intro e he
    simpa using ne_of_before hA e he
  simp [find?, h, List.find?_append, hnone]

theorem find?_of_mem (h : (k, v) ∈ m.entries) : m.find? k = some v := by
  obtain ⟨A, B, hm⟩ := List.append_of_mem h
  have hs := m.sorted
  rw [hm, List.pairwise_append] at hs
  exact find?_of_split hm fun e he => hs.2.2 e he _ (.head _)

theorem entries_erase (h : m.entries = A ++ (k, v) :: B) (hA : ∀ e ∈ A, r e.1 k)
    (hB : ∀ e ∈ B, r k e.1) : (m.erase k).entries = A ++ B := by
  have fA : A.filter (fun e => e.1 ≠ k) = A := by
    rw [List.filter_eq_self]; simpa using ne_of_before hA
  have fB : B.filter (fun e => e.1 ≠ k) = B := by
    rw [List.filter_eq_self]; simpa using ne_of_after hB
  simp only [erase, h, List.filter_append, List.filter_cons, fA, fB]
  simp

end Find

/-! ## Insertion -/

section Insert

variable [DecidableEq K] [DecidableRel r] {k : K} {v w : V} {A B : List (K × V)}

theorem mem_insertEntry {x : K × V} {es : List (K × V)} (h : x ∈ insertEntry r k v es) :
    x = (k, v) ∨ x ∈ es := by
  induction es with
  | nil => simpa [insertEntry] using h
  | cons e es ih =>
    simp only [insertEntry] at h
    split at h
    · simpa using h
    · split at h
      · rcases List.mem_cons.mp h with rfl | h
        · exact .inl rfl
        · exact .inr (.tail _ h)
      · rcases List.mem_cons.mp h with rfl | h
        · exact .inr (.head _)
        · exact (ih h).imp_right (.tail _)

variable [IsStrictTotalOrder K r]

theorem insertEntry_split_new (hA : ∀ e ∈ A, r e.1 k) (hB : ∀ e ∈ B, r k e.1) :
    insertEntry r k v (A ++ B) = A ++ (k, v) :: B := by
  induction A with
  | nil =>
    cases B with
    | nil => rfl
    | cons e B => simp [insertEntry, hB e (.head _)]
  | cons e A ih =>
    have he : r e.1 k := hA e (.head _)
    have hne : e.1 ≠ k := ne_of_before hA e (.head _)
    simp only [List.cons_append, insertEntry, if_neg (asymm_of r he), if_neg hne]
    rw [ih fun x hx => hA x (.tail _ hx)]

theorem insertEntry_split_old (hA : ∀ e ∈ A, r e.1 k) :
    insertEntry r k w (A ++ (k, v) :: B) = A ++ (k, w) :: B := by
  induction A with
  | nil => simp [insertEntry, irrefl_of r k]
  | cons e A ih =>
    have he : r e.1 k := hA e (.head _)
    have hne : e.1 ≠ k := ne_of_before hA e (.head _)
    simp only [List.cons_append, insertEntry, if_neg (asymm_of r he), if_neg hne]
    rw [ih fun x hx => hA x (.tail _ hx)]

theorem insertEntry_sorted (k : K) (v : V) {es : List (K × V)}
    (h : es.Pairwise fun a b => r a.1 b.1) :
    (insertEntry r k v es).Pairwise fun a b => r a.1 b.1 := by
  induction es with
  | nil => simp [insertEntry]
  | cons e es ih =>
    obtain ⟨he, hes⟩ := List.pairwise_cons.mp h
    simp only [insertEntry]
    split
    · rename_i hk
      refine .cons (fun x hx => ?_) h
      rcases List.mem_cons.mp hx with rfl | hx
      · exact hk
      · exact trans_of r hk (he x hx)
    · rename_i hk
      split
      · rename_i hek
        exact .cons (fun x hx => hek ▸ he x hx) hes
      · rename_i hek
        have hlt : r e.1 k := by
          rcases trichotomous_of r e.1 k with h' | h' | h'
          · exact h'
          · exact absurd h' hek
          · exact absurd h' hk
        refine .cons (fun x hx => ?_) (ih hes)
        rcases mem_insertEntry hx with rfl | hx
        · exact hlt
        · exact he x hx

def insert (m : OrderedMap K V r) (k : K) (v : V) : OrderedMap K V r :=
  ⟨insertEntry r k v m.entries, insertEntry_sorted k v m.sorted⟩

variable {m : OrderedMap K V r}

theorem entries_insert_old (h : m.entries = A ++ (k, v) :: B) (hA : ∀ e ∈ A, r e.1 k) :
    (m.insert k w).entries = A ++ (k, w) :: B := by
  show insertEntry r k w m.entries = _
  rw [h, insertEntry_split_old hA]

theorem entries_insert_new (h : m.entries = A ++ B) (hA : ∀ e ∈ A, r e.1 k)
    (hB : ∀ e ∈ B, r k e.1) : (m.insert k v).entries = A ++ (k, v) :: B := by
  show insertEntry r k v m.entries = _
  rw [h, insertEntry_split_new hA hB]

theorem insert_insert (m : OrderedMap K V r) (k : K) (v w : V) :
    (m.insert k v).insert k w = m.insert k w := by
  apply ext
  cases hf : m.find? k with
  | none =>
    obtain ⟨A, B, hm, hA, hB⟩ := split_of_find?_none hf
    rw [entries_insert_old (entries_insert_new hm hA hB) hA, entries_insert_new hm hA hB]
  | some u =>
    obtain ⟨A, B, hm, hA, -⟩ := split_of_find? hf
    rw [entries_insert_old (entries_insert_old hm hA) hA, entries_insert_old hm hA]

end Insert

end OrderedMap

end Container

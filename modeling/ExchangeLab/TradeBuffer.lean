import ExchangeLab.Types

/-!
# ExchangeLab.TradeBuffer

The buffer in which the engine hands out trades: the first ones in an array of fixed size, and, once
that is full or a larger capacity is asked for, all of them in a vector.

* `TradeBuffer`: the two storages, with what holds between them.
* `contents`: the list that the buffer stands for; one lemma for each operation.
* `behaves_as_list`: after any calls, everything that can be seen of the buffer is that list's.
-/

namespace ExchangeLab

/-- The vector. Memory for it is taken to be there; when it is full, it grows to twice its size. -/
structure Overflow where
  trades : List Trade := []
  capacity : Nat := 0
  deriving DecidableEq, Repr

namespace Overflow

def reserve (overflow : Overflow) (capacity : Nat) : Overflow :=
  { overflow with capacity := max overflow.capacity capacity }

def pushBack (overflow : Overflow) (trade : Trade) : Overflow where
  trades := overflow.trades ++ [trade]
  capacity :=
    if overflow.trades.length < overflow.capacity then overflow.capacity
    else overflow.trades.length + max overflow.trades.length 1

def clear (overflow : Overflow) : Overflow := { overflow with trades := [] }

@[simp] theorem trades_reserve (overflow : Overflow) (capacity : Nat) :
    (overflow.reserve capacity).trades = overflow.trades := rfl

@[simp] theorem trades_pushBack (overflow : Overflow) (trade : Trade) :
    (overflow.pushBack trade).trades = overflow.trades ++ [trade] := rfl

theorem trades_foldl_pushBack (overflow : Overflow) (trades : List Trade) :
    (trades.foldl pushBack overflow).trades = overflow.trades ++ trades := by
  induction trades generalizing overflow with
  | nil => rw [List.foldl_nil, List.append_nil]
  | cons trade trades ih =>
    rw [List.foldl_cons, ih, trades_pushBack, List.append_assoc, List.singleton_append]

end Overflow

structure TradeBuffer (inlineCapacity : Nat) where
  inlineTrades : Vector Trade inlineCapacity := Vector.replicate inlineCapacity ⟨0, 0, 0, 0, 0⟩
  inlineSize : Nat := 0
  overflow : Overflow := {}
  usingOverflow : Bool := false
  bounded : inlineSize ≤ inlineCapacity
  /-- The vector has never been used before the buffer switches to it. -/
  unused : usingOverflow = false → overflow.trades = []

namespace TradeBuffer

variable {inlineCapacity : Nat}

/-! ## The class -/

def new (inlineCapacity : Nat) : TradeBuffer inlineCapacity where
  bounded := Nat.zero_le _
  unused := fun _ => rfl

def size (buffer : TradeBuffer inlineCapacity) : Nat :=
  if buffer.usingOverflow then buffer.overflow.trades.length else buffer.inlineSize

def isEmpty (buffer : TradeBuffer inlineCapacity) : Bool := buffer.size == 0

theorem unused_clear (buffer : TradeBuffer inlineCapacity) (h : buffer.usingOverflow = false) :
    (if buffer.usingOverflow then buffer.overflow.clear else buffer.overflow).trades = [] := by
  rw [h]
  exact buffer.unused h

def clear (buffer : TradeBuffer inlineCapacity) : TradeBuffer inlineCapacity :=
  { buffer with
    inlineSize := 0
    overflow := if buffer.usingOverflow then buffer.overflow.clear else buffer.overflow
    bounded := Nat.zero_le _
    unused := buffer.unused_clear }

/-- A trade has no resources of its own, so to move it is to copy it. -/
def moveInlineToOverflow (buffer : TradeBuffer inlineCapacity) (requestedCapacity : Nat) :
    TradeBuffer inlineCapacity :=
  if buffer.usingOverflow then
    if requestedCapacity > buffer.overflow.capacity then
      { buffer with overflow := buffer.overflow.reserve requestedCapacity, unused := buffer.unused }
    else buffer
  else
    { buffer with
      overflow := (buffer.inlineTrades.toList.take buffer.inlineSize).foldl Overflow.pushBack
        (buffer.overflow.reserve requestedCapacity)
      inlineSize := 0
      usingOverflow := true
      bounded := Nat.zero_le _
      unused := nofun }

def reserve (buffer : TradeBuffer inlineCapacity) (capacity : Nat) : TradeBuffer inlineCapacity :=
  if capacity ≤ inlineCapacity then buffer else buffer.moveInlineToOverflow capacity

/-- The buffer on its vector, as `emplace_back` needs it when the array is full. -/
def spilled (buffer : TradeBuffer inlineCapacity) : TradeBuffer inlineCapacity :=
  if buffer.usingOverflow then buffer else buffer.moveInlineToOverflow (inlineCapacity * 2)

theorem usingOverflow_spilled (buffer : TradeBuffer inlineCapacity) :
    buffer.spilled.usingOverflow = true := by
  rw [spilled, moveInlineToOverflow]
  split
  · assumption
  · rfl

theorem unused_spilled (buffer : TradeBuffer inlineCapacity) (overflow : Overflow)
    (h : buffer.spilled.usingOverflow = false) : overflow.trades = [] := by
  rw [usingOverflow_spilled] at h
  cases h

def emplaceBack (buffer : TradeBuffer inlineCapacity) (trade : Trade) : TradeBuffer inlineCapacity :=
  if h : buffer.usingOverflow = false ∧ buffer.inlineSize < inlineCapacity then
    { buffer with
      inlineTrades := buffer.inlineTrades.set buffer.inlineSize trade h.2
      inlineSize := buffer.inlineSize + 1
      bounded := h.2 }
  else
    { buffer.spilled with
      overflow := buffer.spilled.overflow.pushBack trade
      unused := buffer.unused_spilled _ }

def pushBack (buffer : TradeBuffer inlineCapacity) (trade : Trade) : TradeBuffer inlineCapacity :=
  buffer.emplaceBack trade

/-- `operator[]`, which does not check the index; `none` where there is no such element. In the array
the elements from the size on are still there. -/
def subscript (buffer : TradeBuffer inlineCapacity) (index : Nat) : Option Trade :=
  if buffer.usingOverflow then buffer.overflow.trades[index]? else buffer.inlineTrades[index]?

def atIndex (buffer : TradeBuffer inlineCapacity) (index : Nat) : Option (Except Fault Trade) :=
  if index ≥ buffer.size then some (.error (.outOfRange "TradeBuffer index is out of range"))
  else (buffer.subscript index).map .ok

/-! ## Iterators -/

/-- An iterator is a position in its buffer. -/
structure ConstIterator where
  index : Nat
  deriving DecidableEq, Repr

def ConstIterator.next (position : ConstIterator) : ConstIterator := ⟨position.index + 1⟩

def first (_ : TradeBuffer inlineCapacity) : ConstIterator := ⟨0⟩

def last (buffer : TradeBuffer inlineCapacity) : ConstIterator := ⟨buffer.size⟩

variable {S : Type}

/-- The loop from an iterator on, for a number of turns at most. -/
def visit (buffer : TradeBuffer inlineCapacity) (body : S → Trade → S) :
    Nat → ConstIterator → S → Option S
  | 0, position, state => if position = buffer.last then some state else none
  | turns + 1, position, state =>
    if position = buffer.last then some state
    else (buffer.subscript position.index).bind fun trade =>
      visit buffer body turns position.next (body state trade)

/-- `for (const Trade& trade : buffer)`. -/
def forEach (buffer : TradeBuffer inlineCapacity) (body : S → Trade → S) (state : S) : Option S :=
  buffer.visit body buffer.size buffer.first state

def toVector (buffer : TradeBuffer inlineCapacity) : Option (List Trade) :=
  buffer.forEach (fun result trade => result ++ [trade]) []

/-! ## The list it stands for -/

def contents (buffer : TradeBuffer inlineCapacity) : List Trade :=
  if buffer.usingOverflow then buffer.overflow.trades
  else buffer.inlineTrades.toList.take buffer.inlineSize

section Contents

variable (buffer : TradeBuffer inlineCapacity)

theorem contents_overflow (h : buffer.usingOverflow = true) :
    buffer.contents = buffer.overflow.trades := if_pos h

theorem contents_inline (h : buffer.usingOverflow = false) :
    buffer.contents = buffer.inlineTrades.toList.take buffer.inlineSize := by
  rw [contents, if_neg (by rw [h]; exact Bool.false_ne_true)]

theorem contents_clear : buffer.clear.contents = [] := by
  cases hmode : buffer.usingOverflow with
  | true =>
    have hclear : buffer.clear.overflow = buffer.overflow.clear := if_pos hmode
    rw [contents_overflow buffer.clear hmode, hclear]
    rfl
  | false => exact contents_inline buffer.clear hmode

theorem contents_moveInlineToOverflow (requestedCapacity : Nat) :
    (buffer.moveInlineToOverflow requestedCapacity).contents = buffer.contents := by
  rw [moveInlineToOverflow]
  split
  · split <;> rfl
  · rename_i hmode
    rw [Bool.not_eq_true] at hmode
    -- the vector is empty, so it holds what the array held
    rw [contents_overflow _ rfl, Overflow.trades_foldl_pushBack, Overflow.trades_reserve,
      buffer.unused hmode, List.nil_append, buffer.contents_inline hmode]

theorem contents_reserve (capacity : Nat) : (buffer.reserve capacity).contents = buffer.contents := by
  rw [reserve]
  split
  · rfl
  · exact buffer.contents_moveInlineToOverflow capacity

theorem contents_spilled : buffer.spilled.contents = buffer.contents := by
  rw [spilled]
  split
  · rfl
  · exact buffer.contents_moveInlineToOverflow _

theorem contents_emplaceBack (trade : Trade) :
    (buffer.emplaceBack trade).contents = buffer.contents ++ [trade] := by
  rw [emplaceBack]
  split
  · rename_i hinline
    obtain ⟨hmode, hroom⟩ := hinline
    have hlength : buffer.inlineSize < buffer.inlineTrades.toList.length := by
      rwa [Vector.length_toList]
    have hnot : ¬buffer.usingOverflow = true := by
      rw [hmode]
      exact Bool.false_ne_true
    rw [contents, buffer.contents_inline hmode]
    dsimp only
    rw [if_neg hnot, Vector.toList_set,
      List.take_succ_eq_append_getElem (by rwa [List.length_set]),
      List.getElem_set_self, List.take_set_of_le (Nat.le_refl _)]
  · have hspilled := buffer.usingOverflow_spilled
    rw [← buffer.contents_spilled, contents_overflow _ hspilled]
    exact contents_overflow _ hspilled

theorem size_eq_length : buffer.size = buffer.contents.length := by
  rw [size, contents]
  split
  · rfl
  · rw [List.length_take, Vector.length_toList, Nat.min_eq_left buffer.bounded]

theorem subscript_eq_getElem? {index : Nat} (h : index < buffer.size) :
    buffer.subscript index = buffer.contents[index]? := by
  rw [subscript, contents]
  rw [size] at h
  split
  · rfl
  · rename_i hmode
    rw [if_neg hmode] at h
    rw [List.getElem?_take_of_lt h, Vector.getElem?_toList]

theorem atIndex_eq (index : Nat) : buffer.atIndex index =
    some (match buffer.contents[index]? with
      | some trade => .ok trade
      | none => .error (.outOfRange "TradeBuffer index is out of range")) := by
  rw [atIndex]
  split
  · rename_i hge
    rw [size_eq_length] at hge
    rw [List.getElem?_eq_none hge]
  · rename_i hlt
    rw [Nat.not_le] at hlt
    rw [buffer.subscript_eq_getElem? hlt]
    rw [size_eq_length] at hlt
    rw [List.getElem?_eq_getElem hlt]
    rfl

theorem visit_eq (body : S → Trade → S) {turns index : Nat} (h : index + turns = buffer.size)
    (state : S) :
    buffer.visit body turns ⟨index⟩ state = some ((buffer.contents.drop index).foldl body state) := by
  have hlength := buffer.size_eq_length
  induction turns generalizing index state with
  | zero =>
    have hlast : ConstIterator.mk index = buffer.last := congrArg ConstIterator.mk h
    rw [visit, if_pos hlast, List.drop_of_length_le (by omega), List.foldl_nil]
  | succ turns ih =>
    have hlt : index < buffer.contents.length := by omega
    have hnot : ConstIterator.mk index ≠ buffer.last := by
      intro heq
      have : index = buffer.size := congrArg ConstIterator.index heq
      omega
    have hnext : index + 1 + turns = buffer.size := by omega
    have hsubscript : buffer.subscript index = some buffer.contents[index] := by
      rw [buffer.subscript_eq_getElem? (by omega), List.getElem?_eq_getElem hlt]
    rw [visit, if_neg hnot, hsubscript, Option.bind_some, ConstIterator.next, ih hnext,
      List.drop_eq_getElem_cons hlt, List.foldl_cons]

theorem forEach_eq (body : S → Trade → S) (state : S) :
    buffer.forEach body state = some (buffer.contents.foldl body state) :=
  buffer.visit_eq body (Nat.zero_add _) state

theorem toVector_eq : buffer.toVector = some buffer.contents := by
  rw [toVector, forEach_eq, List.foldl_append_eq_append, List.nil_append, ← List.flatMap_def,
    List.flatMap_singleton']

end Contents

/-! ## Runs -/

inductive Call where
  | pushBack (trade : Trade)
  | emplaceBack (trade : Trade)
  | clear
  | reserve (capacity : Nat)
  deriving DecidableEq, Repr

def call (buffer : TradeBuffer inlineCapacity) : Call → TradeBuffer inlineCapacity
  | .pushBack trade => buffer.pushBack trade
  | .emplaceBack trade => buffer.emplaceBack trade
  | .clear => buffer.clear
  | .reserve capacity => buffer.reserve capacity

/-- The same call on a plain list. -/
def callList (list : List Trade) : Call → List Trade
  | .pushBack trade => list ++ [trade]
  | .emplaceBack trade => list ++ [trade]
  | .clear => []
  | .reserve _ => list

theorem contents_call (buffer : TradeBuffer inlineCapacity) (request : Call) :
    (buffer.call request).contents = callList buffer.contents request := by
  cases request with
  | pushBack trade => exact buffer.contents_emplaceBack trade
  | emplaceBack trade => exact buffer.contents_emplaceBack trade
  | clear => exact buffer.contents_clear
  | reserve capacity => exact buffer.contents_reserve capacity

theorem contents_calls (buffer : TradeBuffer inlineCapacity) (calls : List Call) :
    (calls.foldl call buffer).contents = calls.foldl callList buffer.contents := by
  induction calls generalizing buffer with
  | nil => rfl
  | cons request calls ih => rw [List.foldl_cons, List.foldl_cons, ih, contents_call]

/-- Whatever is called on a buffer and on a list, the two cannot be told apart. -/
theorem behaves_as_list (inlineCapacity : Nat) (calls : List Call) :
    let buffer := calls.foldl call (new inlineCapacity)
    let list := calls.foldl callList []
    buffer.size = list.length ∧ buffer.isEmpty = list.isEmpty ∧
    (∀ index (h : index < list.length), buffer.subscript index = some list[index]) ∧
    (∀ index (h : index < list.length), buffer.atIndex index = some (.ok list[index])) ∧
    (∀ index, (∃ fault, buffer.atIndex index = some (.error fault)) ↔ index ≥ buffer.size) ∧
    (∀ (S : Type) (body : S → Trade → S) (state : S),
      buffer.forEach body state = some (list.foldl body state)) ∧
    buffer.toVector = some list := by
  intro buffer list
  have hcontents : buffer.contents = list := (contents_calls (new inlineCapacity) calls).trans rfl
  have hsize : buffer.size = list.length := by rw [size_eq_length, hcontents]
  refine ⟨hsize, ?_, fun index h => ?_, fun index h => ?_, fun index => ?_, fun S body state => ?_, ?_⟩
  · rw [isEmpty, hsize]
    cases list <;> rfl
  · rw [buffer.subscript_eq_getElem? (hsize ▸ h), hcontents, List.getElem?_eq_getElem h]
  · rw [atIndex_eq, hcontents, List.getElem?_eq_getElem h]
  · rw [atIndex_eq, hcontents, hsize]
    constructor
    · rintro ⟨fault, hfault⟩
      by_contra hlt
      rw [List.getElem?_eq_getElem (Nat.not_le.mp hlt)] at hfault
      cases hfault
    · intro hge
      rw [List.getElem?_eq_none hge]
      exact ⟨_, rfl⟩
  · rw [forEach_eq, hcontents]
  · rw [toVector_eq, hcontents]

end TradeBuffer

end ExchangeLab

import ExchangeLab.LockFreeRing
import ExchangeLab.SpscRing
import Mathlib.Data.Nat.ModEq

/-!
# ExchangeLab.Ring.Fifo

The ring on its machine words is the ring whose positions count all elements there ever were.

A word position is a common start plus a count, modulo 2^64. Two counts that matter to one decision
are never more than a capacity apart, so a difference of words is the difference of the counts, and
masking a word takes the count modulo the capacity, wherever it starts.

* `Represents`: the words of a ring and the counts behind them.
* `Fifo.step`, `fifo_run`: every interleaving keeps a represented ring, and it holds what was pushed.
* `lossless`: what is popped is what was pushed, in order; a call fails only on a full or an empty ring.
-/

namespace ExchangeLab

namespace RingCapacity

/-- The number of slots, of which the class asserts that it is a power of two. -/
theorem exists_exponent (capacity : RingCapacity) :
    ∃ k, k ≤ 63 ∧ capacity.value.toNat = 2 ^ k := by
  obtain ⟨value, htwo, hpower⟩ := capacity
  have htwo' : 2 ≤ value.toNat := UInt64.le_iff_toNat_le.mp htwo
  have hland : value.toNat &&& (value.toNat - 1) = 0 := by
    have hsub : (value - 1).toNat = value.toNat - 1 :=
      UInt64.toNat_sub_of_le _ _ (UInt64.le_iff_toNat_le.mpr (by simp; omega))
    have h := congrArg UInt64.toNat hpower
    rwa [UInt64.toNat_and, hsub] at h
  obtain ⟨k, hk⟩ := (Nat.and_sub_one_eq_zero_iff_isPowerOfTwo (by omega)).mp hland
  refine ⟨k, ?_, hk⟩
  have hlt := value.toNat_lt
  rw [hk] at hlt
  exact Nat.lt_succ_iff.mp ((Nat.pow_lt_pow_iff_right (by decide)).mp hlt)

variable (capacity : RingCapacity)

theorem lt_size : capacity.value.toNat < 2 ^ 64 := capacity.value.toNat_lt

theorem dvd_size : capacity.value.toNat ∣ 2 ^ 64 := by
  obtain ⟨k, hle, hk⟩ := capacity.exists_exponent
  rw [hk]
  exact Nat.pow_dvd_pow 2 (by omega)

/-- The mask takes the remainder. -/
theorem and_mask (position : UInt64) :
    (position &&& capacity.mask).toNat = position.toNat % capacity.value.toNat := by
  obtain ⟨k, -, hk⟩ := capacity.exists_exponent
  have hmask : capacity.mask.toNat = 2 ^ k - 1 := by
    rw [mask, UInt64.toNat_sub_of_le _ _ ?_, hk]
    · rfl
    · exact UInt64.le_trans (by decide) capacity.atLeastTwo
  rw [UInt64.toNat_and, hmask, hk, Nat.and_two_pow_sub_one_eq_mod]

end RingCapacity

namespace LockFreeRing

open Transition

variable {α : Type}

/-! ## Words and counts -/

section Words

variable {capacity : RingCapacity} {base : UInt64}

/-- The word that a count has become. -/
def word (base : UInt64) (count : Nat) : UInt64 := base + UInt64.ofNat count

theorem word_succ (base : UInt64) (count : Nat) : word base (count + 1) = word base count + 1 := by
  rw [word, word, UInt64.ofNat_add, UInt64.add_assoc]
  rfl

theorem word_sub (base : UInt64) {p q : Nat} (hle : p ≤ q) (hnear : q - p < 2 ^ 64) :
    (word base q - word base p).toNat = q - p := by
  have hdiff : word base q - word base p = UInt64.ofNat (q - p) := by
    rw [UInt64.ofNat_sub hle, word, word]
    grind
  rw [hdiff, UInt64.toNat_ofNat_of_lt' hnear]

theorem word_eq {p q : Nat} (hle : p ≤ q) (hnear : q - p < 2 ^ 64) :
    word base p = word base q ↔ p = q := by
  constructor
  · intro h
    have hsub := word_sub base hle hnear
    rw [h, UInt64.sub_self] at hsub
    have : (0 : UInt64).toNat = 0 := rfl
    omega
  · rintro rfl
    rfl

theorem word_slot (count : Nat) : (word base count &&& capacity.mask).toNat =
    (base.toNat + count) % capacity.value.toNat := by
  rw [capacity.and_mask, word, UInt64.toNat_add, UInt64.toNat_ofNat',
    Nat.mod_mod_of_dvd _ capacity.dvd_size, Nat.add_mod,
    Nat.mod_mod_of_dvd _ capacity.dvd_size, ← Nat.add_mod]

/-- Two counts have one slot exactly if they have one remainder. -/
theorem slot_eq {p q : Nat} : word base p &&& capacity.mask = word base q &&& capacity.mask ↔
    p % capacity.value.toNat = q % capacity.value.toNat := by
  rw [← UInt64.toNat_inj, word_slot, word_slot]
  exact ⟨fun h => Nat.ModEq.add_left_cancel' base.toNat h, fun h => Nat.ModEq.add_left base.toNat h⟩

end Words

/-! ## The ring of counts -/

/-- The words of a ring and the counts behind them. -/
structure Represents (capacity : RingCapacity) (base : UInt64) (ring : LockFreeRing α)
    (counted : SpscRing α capacity.value.toNat) : Prop where
  writePosition : ring.writePosition = word base counted.writePosition
  cachedReadPosition : ring.cachedReadPosition = word base counted.cachedReadPosition
  readPosition : ring.readPosition = word base counted.readPosition
  cachedWritePosition : ring.cachedWritePosition = word base counted.cachedWritePosition
  slots : ∀ p, ring.slots (word base p &&& capacity.mask) =
    counted.slots (p % capacity.value.toNat)

namespace Represents

variable {capacity : RingCapacity} {base : UInt64} {ring : LockFreeRing α}
variable {counted : SpscRing α capacity.value.toNat} {pushed : List α}

theorem full (h : Represents capacity base ring counted) (hholds : counted.Holds pushed) :
    ring.writePosition - ring.cachedReadPosition ≥ capacity.value ↔ counted.full = true := by
  have hbounded := hholds.bounded
  have hsize := capacity.lt_size
  have hread := hholds.cachedRead
  have hwrite := hholds.cachedWrite
  have hwritten := hholds.written
  have hdiff := word_sub base
    (show counted.cachedReadPosition ≤ counted.writePosition by omega) (by omega)
  rw [h.writePosition, h.cachedReadPosition, ge_iff_le, UInt64.le_iff_toNat_le, hdiff,
    SpscRing.full, decide_eq_true_iff]

theorem empty (h : Represents capacity base ring counted) (hholds : counted.Holds pushed) :
    ring.readPosition = ring.cachedWritePosition ↔ counted.empty = true := by
  have hbounded := hholds.bounded
  have hsize := capacity.lt_size
  have hread := hholds.cachedRead
  have hwritten := hholds.written
  rw [h.readPosition, h.cachedWritePosition, word_eq hholds.cachedWrite (by omega), SpscRing.empty,
    beq_iff_eq]

theorem loadReadPosition (h : Represents capacity base ring counted) (producing : Producing α) :
    Represents capacity base { ring with cachedReadPosition := ring.readPosition, producing }
      counted.loadReadPosition :=
  ⟨h.writePosition, h.readPosition, h.readPosition, h.cachedWritePosition, h.slots⟩

theorem loadWritePosition (h : Represents capacity base ring counted) (consuming : Consuming α) :
    Represents capacity base { ring with cachedWritePosition := ring.writePosition, consuming }
      counted.loadWritePosition :=
  ⟨h.writePosition, h.cachedReadPosition, h.readPosition, h.writePosition, h.slots⟩

theorem storeWritePosition (h : Represents capacity base ring counted) (producing : Producing α) :
    Represents capacity base { ring with writePosition := ring.writePosition + 1, producing }
      counted.storeWritePosition where
  writePosition := by
    rw [SpscRing.storeWritePosition, word_succ, ← h.writePosition]
  cachedReadPosition := h.cachedReadPosition
  readPosition := h.readPosition
  cachedWritePosition := h.cachedWritePosition
  slots := h.slots

theorem storeReadPosition (h : Represents capacity base ring counted) (consuming : Consuming α) :
    Represents capacity base { ring with readPosition := ring.readPosition + 1, consuming }
      counted.storeReadPosition where
  writePosition := h.writePosition
  cachedReadPosition := h.cachedReadPosition
  readPosition := by
    rw [SpscRing.storeReadPosition, word_succ, ← h.readPosition]
  cachedWritePosition := h.cachedWritePosition
  slots := h.slots

theorem writeSlot (h : Represents capacity base ring counted) (producing : Producing α)
    (value : α) :
    Represents capacity base
      { ring with
        slots := Function.update ring.slots (ring.writePosition &&& capacity.mask) value
        producing }
      (counted.writeSlot value) where
  writePosition := h.writePosition
  cachedReadPosition := h.cachedReadPosition
  readPosition := h.readPosition
  cachedWritePosition := h.cachedWritePosition
  slots := by
    intro p
    simp only [SpscRing.writeSlot, h.writePosition]
    by_cases hp : p % capacity.value.toNat = counted.writePosition % capacity.value.toNat
    · rw [slot_eq.mpr hp, hp, Function.update_self, Function.update_self]
    · rw [Function.update_of_ne hp, Function.update_of_ne (fun heq => hp (slot_eq.mp heq)),
        h.slots p]

/-- Where the two sides are does not matter to the words. -/
theorem move (h : Represents capacity base ring counted) (producing : Producing α)
    (consuming : Consuming α) :
    Represents capacity base { ring with producing, consuming } counted :=
  ⟨h.writePosition, h.cachedReadPosition, h.readPosition, h.cachedWritePosition, h.slots⟩

theorem front (h : Represents capacity base ring counted) :
    ring.slots (ring.readPosition &&& capacity.mask) = counted.front := by
  rw [h.readPosition, h.slots, SpscRing.front]

end Represents

/-! ## What has been pushed and popped -/

def Event.pushed? : Event α → Option α
  | .pushed value => some value
  | _ => none

def Event.popped? : Event α → Option α
  | .popped value => some value
  | _ => none

/-- The values that `try_emplace` has returned true for, in order. -/
def pushed (events : List (Event α)) : List α := events.filterMap Event.pushed?

/-- The values that `try_consume` has returned true for, in order. -/
def popped (events : List (Event α)) : List α := events.filterMap Event.popped?

@[simp] theorem pushed_snoc (events : List (Event α)) (event : Event α) :
    pushed (events ++ [event]) = pushed events ++ event.pushed?.toList := by
  rw [pushed, List.filterMap_append, pushed]
  cases event <;> rfl

@[simp] theorem popped_snoc (events : List (Event α)) (event : Event α) :
    popped (events ++ [event]) = popped events ++ event.popped?.toList := by
  rw [popped, List.filterMap_append, popped]
  cases event <;> rfl

/-! ## One step -/

section Fifo

variable {capacity : RingCapacity}

/-- What the producer relies on between two of its steps. -/
def ProducerFits (ring : LockFreeRing α) (counted : SpscRing α capacity.value.toNat) :
    Producing α → Prop
  | .idle => True
  | .loadingRead write _ => write = ring.writePosition
  | .writing write _ => write = ring.writePosition ∧
    counted.writePosition < counted.cachedReadPosition + capacity.value.toNat
  | .storing write value => write = ring.writePosition ∧
    counted.writePosition < counted.cachedReadPosition + capacity.value.toNat ∧
    counted.slots (counted.writePosition % capacity.value.toNat) = value

/-- What the consumer relies on between two of its steps. -/
def ConsumerFits (ring : LockFreeRing α) (counted : SpscRing α capacity.value.toNat) :
    Consuming α → Prop
  | .idle => True
  | .loadingWrite read => read = ring.readPosition
  | .reading read => read = ring.readPosition ∧
    counted.readPosition < counted.cachedWritePosition
  | .storing read value => read = ring.readPosition ∧
    counted.readPosition < counted.cachedWritePosition ∧ counted.front = value

structure Fifo (capacity : RingCapacity) (base : UInt64) (events : List (Event α))
    (ring : LockFreeRing α) (counted : SpscRing α capacity.value.toNat) : Prop where
  represents : Represents capacity base ring counted
  holds : counted.Holds (pushed events)
  popped : popped events = (pushed events).take counted.readPosition
  producing : ProducerFits ring counted ring.producing
  consuming : ConsumerFits ring counted ring.consuming

variable {base : UInt64} {events : List (Event α)} {event : Event α} {ring ring' : LockFreeRing α}
variable {counted : SpscRing α capacity.value.toNat}

theorem fifo_start (capacity : RingCapacity) (slots : UInt64 → α) (position : UInt64) :
    ∃ counted, Fifo capacity position [] (start slots position) counted := by
  let counted : SpscRing α capacity.value.toNat :=
    { slots := fun p => slots (word position p &&& capacity.mask) }
  have hzero : position = word position 0 := (UInt64.add_zero position).symm
  refine ⟨counted.reset, ⟨hzero, hzero, hzero, hzero, fun p => ?_⟩, SpscRing.holds_reset counted,
    rfl, trivial, trivial⟩
  have hslot : word position p &&& capacity.mask =
      word position (p % capacity.value.toNat) &&& capacity.mask :=
    slot_eq.mpr (Nat.mod_mod p _).symm
  rw [hslot]
  rfl

/-- A test of the producer that finds room in what it has cached. -/
theorem Fifo.room (h : Fifo capacity base events ring counted)
    (hroom : ¬ring.writePosition - ring.cachedReadPosition ≥ capacity.value) :
    counted.writePosition < counted.cachedReadPosition + capacity.value.toNat :=
  h.holds.room (Bool.eq_false_iff.mpr fun hfull =>
    hroom ((h.represents.full h.holds).mpr hfull))

theorem Fifo.unread (h : Fifo capacity base events ring counted)
    (hunread : ring.readPosition ≠ ring.cachedWritePosition) :
    counted.readPosition < counted.cachedWritePosition :=
  h.holds.unread (Bool.eq_false_iff.mpr fun hempty =>
    hunread ((h.represents.empty h.holds).mpr hempty))

/-- A step on which neither call returns true. -/
theorem Fifo.quiet {counted' : SpscRing α capacity.value.toNat}
    (h : Fifo capacity base events ring counted) (hpushed : event.pushed? = none)
    (hpopped : event.popped? = none) (hrepresents : Represents capacity base ring' counted')
    (hholds : counted'.Holds (pushed events))
    (hread : counted'.readPosition = counted.readPosition)
    (hproducing : ProducerFits ring' counted' ring'.producing)
    (hconsuming : ConsumerFits ring' counted' ring'.consuming) :
    Fifo capacity base (events ++ [event]) ring' counted' where
  represents := hrepresents
  holds := by
    rw [pushed_snoc, hpushed, Option.toList_none, List.append_nil]
    exact hholds
  popped := by
    rw [pushed_snoc, popped_snoc, hpushed, hpopped, Option.toList_none, List.append_nil,
      List.append_nil, hread, h.popped]
  producing := hproducing
  consuming := hconsuming

theorem Fifo.pushCall {value : α} (h : Fifo capacity base events ring counted)
    (hcall : ring.pushCall capacity value = some (event, ring')) :
    ∃ counted', Fifo capacity base (events ++ [event]) ring' counted' := by
  simp only [LockFreeRing.pushCall] at hcall
  split at hcall
  · refine ⟨counted, ?_⟩
    split at hcall <;> cases hcall
    · exact h.quiet rfl rfl (h.represents.move _ _) h.holds rfl rfl h.consuming
    · rename_i hroom
      exact h.quiet rfl rfl (h.represents.move _ _) h.holds rfl ⟨rfl, h.room hroom⟩ h.consuming
  · cases hcall

theorem Fifo.popCall (h : Fifo capacity base events ring counted)
    (hcall : ring.popCall = some (event, ring')) :
    ∃ counted', Fifo capacity base (events ++ [event]) ring' counted' := by
  simp only [LockFreeRing.popCall] at hcall
  split at hcall
  · refine ⟨counted, ?_⟩
    split at hcall <;> cases hcall
    · exact h.quiet rfl rfl (h.represents.move _ _) h.holds rfl h.producing rfl
    · rename_i hunread
      exact h.quiet rfl rfl (h.represents.move _ _) h.holds rfl h.producing
        ⟨rfl, h.unread hunread⟩
  · cases hcall

/-- The slot the consumer has not let go of is not the one the producer writes. -/
theorem Fifo.slots_apart (h : Fifo capacity base events ring counted)
    (hroom : counted.writePosition < counted.cachedReadPosition + capacity.value.toNat)
    (hunread : counted.readPosition < counted.cachedWritePosition) :
    counted.readPosition % capacity.value.toNat ≠
      counted.writePosition % capacity.value.toNat := by
  have hcached := h.holds.cachedRead
  have hwritten := h.holds.written
  exact SpscRing.slot_ne (by omega) (by omega)

theorem ConsumerFits.writeSlot {value : α} {consuming : Consuming α} {slots : UInt64 → α}
    {producing : Producing α} (h : ConsumerFits ring counted consuming)
    (happart : counted.readPosition < counted.cachedWritePosition →
      counted.readPosition % capacity.value.toNat ≠
        counted.writePosition % capacity.value.toNat) :
    ConsumerFits { ring with slots, producing } (counted.writeSlot value) consuming := by
  cases consuming with
  | idle | loadingWrite read | reading read => exact h
  | storing read given =>
    obtain ⟨hread, hunread, hfront⟩ := h
    refine ⟨hread, hunread, ?_⟩
    simp only [SpscRing.front, SpscRing.writeSlot, Function.update_of_ne (happart hunread)]
    exact hfront

theorem Fifo.push (h : Fifo capacity base events ring counted)
    (hstep : ring.pushStep capacity = some (event, ring')) :
    ∃ counted', Fifo capacity base (events ++ [event]) ring' counted' := by
  have hproducing := h.producing
  cases hat : ring.producing with
  | idle => simp [LockFreeRing.pushStep, hat] at hstep
  | loadingRead write value =>
    rw [hat] at hproducing
    cases hproducing
    simp only [LockFreeRing.pushStep, hat] at hstep
    have hloaded : ∀ event : Event α, event.pushed? = none → event.popped? = none →
        Fifo capacity base (events ++ [event])
          { ring with cachedReadPosition := ring.readPosition, producing := .idle }
          counted.loadReadPosition := fun event hpushed hpopped =>
      h.quiet hpushed hpopped (h.represents.loadReadPosition .idle) h.holds.loadReadPosition rfl
        trivial h.consuming
    refine ⟨counted.loadReadPosition, ?_⟩
    split at hstep <;> cases hstep
    · exact hloaded .pushFailed rfl rfl
    · rename_i hroom
      exact h.quiet rfl rfl (h.represents.loadReadPosition _) h.holds.loadReadPosition rfl
        ⟨rfl, (hloaded .silent rfl rfl).room hroom⟩ h.consuming
  | writing write value =>
    rw [hat] at hproducing
    obtain ⟨rfl, hroom⟩ := hproducing
    simp only [LockFreeRing.pushStep, hat] at hstep
    cases hstep
    refine ⟨counted.writeSlot value, h.quiet rfl rfl (h.represents.writeSlot _ value)
      (h.holds.writeSlot hroom value) rfl ⟨rfl, hroom, Function.update_self ..⟩ ?_⟩
    exact h.consuming.writeSlot (h.slots_apart hroom)
  | storing write value =>
    rw [hat] at hproducing
    obtain ⟨rfl, hroom, hvalue⟩ := hproducing
    simp only [LockFreeRing.pushStep, hat] at hstep
    cases hstep
    have hwrite := h.holds.cachedWrite
    have hwritten := h.holds.written
    have hlength := h.holds.length
    refine ⟨counted.storeWritePosition, h.represents.storeWritePosition .idle, ?_, ?_, trivial,
      h.consuming⟩
    · rw [pushed_snoc]
      exact h.holds.storeWritePosition hroom hvalue
    · rw [pushed_snoc, popped_snoc]
      simp only [Event.pushed?, Event.popped?, Option.toList_none, List.append_nil]
      rw [h.popped, List.take_append_of_le_length]
      · rfl
      · rw [hlength]
        exact Nat.le_trans hwrite hwritten

theorem Fifo.pop (h : Fifo capacity base events ring counted)
    (hstep : ring.popStep capacity = some (event, ring')) :
    ∃ counted', Fifo capacity base (events ++ [event]) ring' counted' := by
  have hconsuming := h.consuming
  cases hat : ring.consuming with
  | idle => simp [LockFreeRing.popStep, hat] at hstep
  | loadingWrite read =>
    rw [hat] at hconsuming
    cases hconsuming
    simp only [LockFreeRing.popStep, hat] at hstep
    have hloaded : ∀ event : Event α, event.pushed? = none → event.popped? = none →
        Fifo capacity base (events ++ [event])
          { ring with cachedWritePosition := ring.writePosition, consuming := .idle }
          counted.loadWritePosition := fun event hpushed hpopped =>
      h.quiet hpushed hpopped (h.represents.loadWritePosition .idle) h.holds.loadWritePosition rfl
        h.producing trivial
    refine ⟨counted.loadWritePosition, ?_⟩
    split at hstep <;> cases hstep
    · exact hloaded .popFailed rfl rfl
    · rename_i hunread
      exact h.quiet rfl rfl (h.represents.loadWritePosition _) h.holds.loadWritePosition rfl
        h.producing ⟨rfl, (hloaded .silent rfl rfl).unread hunread⟩
  | reading read =>
    rw [hat] at hconsuming
    obtain ⟨rfl, hunread⟩ := hconsuming
    simp only [LockFreeRing.popStep, hat] at hstep
    cases hstep
    exact ⟨counted, h.quiet rfl rfl (h.represents.move _ _) h.holds rfl h.producing
      ⟨rfl, hunread, h.represents.front.symm⟩⟩
  | storing read value =>
    rw [hat] at hconsuming
    obtain ⟨rfl, hunread, hfront⟩ := hconsuming
    simp only [LockFreeRing.popStep, hat] at hstep
    cases hstep
    refine ⟨counted.storeReadPosition, h.represents.storeReadPosition .idle, ?_, ?_, h.producing,
      trivial⟩
    · rw [pushed_snoc]
      simpa [Event.pushed?] using h.holds.storeReadPosition hunread
    · rw [pushed_snoc, popped_snoc]
      simp only [Event.pushed?, Event.popped?, Option.toList_none, List.append_nil,
        Option.toList_some]
      rw [h.popped, ← hfront]
      exact h.holds.front hunread

theorem Fifo.step (h : Fifo capacity base events ring counted)
    (hstep : Step capacity ring event ring') :
    ∃ counted', Fifo capacity base (events ++ [event]) ring' counted' := by
  cases hstep with
  | pushCall value hcall => exact h.pushCall hcall
  | push hpush => exact h.push hpush
  | popCall hcall => exact h.popCall hcall
  | pop hpop => exact h.pop hpop

theorem fifo_run {slots : UInt64 → α}
    (h : Run (Step capacity) (start slots base) events ring) :
    ∃ counted, Fifo capacity base events ring counted :=
  h.history (P := fun events ring => ∃ counted, Fifo capacity base events ring counted)
    (fifo_start capacity slots base) fun _ _ _ _ _ ⟨_, hfifo⟩ hstep => hfifo.step hstep

/-! ## A queue with a bound -/

structure Lossless (capacity : RingCapacity) (events : List (Event α)) (ring : LockFreeRing α) :
    Prop where
  order : popped events <+: pushed events
  /-- What a call of `try_consume` under way has read is the next value. -/
  reading : ∀ read value, ring.consuming = .storing read value →
    popped events ++ [value] <+: pushed events
  apart : ∀ slot, ring.producerSlot? capacity = some slot → ring.consumerSlot? capacity ≠ some slot
  pushFails : ∀ ring', Step capacity ring .pushFailed ring' →
    (pushed events).length = (popped events).length + capacity.value.toNat
  popFails : ∀ ring', Step capacity ring .popFailed ring' →
    (pushed events).length = (popped events).length

theorem Fifo.lengths (h : Fifo capacity base events ring counted) :
    (LockFreeRing.pushed events).length = counted.writePosition ∧
      (LockFreeRing.popped events).length = counted.readPosition := by
  have hwrite := h.holds.cachedWrite
  have hwritten := h.holds.written
  refine ⟨h.holds.length, ?_⟩
  rw [h.popped, List.length_take, h.holds.length]
  omega

theorem Fifo.apart (h : Fifo capacity base events ring counted) {slot : UInt64}
    (hproducer : ring.producerSlot? capacity = some slot) :
    ring.consumerSlot? capacity ≠ some slot := by
  intro hconsumer
  have hproducing := h.producing
  have hconsuming := h.consuming
  rw [producerSlot?] at hproducer
  rw [consumerSlot?] at hconsumer
  split at hproducer
  · rename_i write value hwriting
    split at hconsumer
    · rename_i read hreading
      cases hproducer
      rw [hwriting] at hproducing
      rw [hreading] at hconsuming
      obtain ⟨rfl, hroom⟩ := hproducing
      obtain ⟨rfl, hunread⟩ := hconsuming
      have hslot : word base counted.readPosition &&& capacity.mask =
          word base counted.writePosition &&& capacity.mask := by
        rw [← h.represents.readPosition, ← h.represents.writePosition]
        exact Option.some.inj hconsumer
      exact h.slots_apart hroom hunread (slot_eq.mp hslot)
    · cases hconsumer
  · cases hproducer

/-- A push that fails has just loaded the read position. -/
theorem Fifo.pushFails (h : Fifo capacity base events ring counted)
    (hstep : Step capacity ring .pushFailed ring') : counted.loadReadPosition.full = true := by
  have hproducing := h.producing
  cases hstep with
  | pushCall value hcall =>
    simp only [LockFreeRing.pushCall] at hcall
    split at hcall
    · split at hcall <;> cases hcall
    · cases hcall
  | push hpush =>
    simp only [LockFreeRing.pushStep] at hpush
    split at hpush
    · cases hpush
    · rename_i write value hloading
      split at hpush <;> cases hpush
      rename_i hfull
      rw [hloading] at hproducing
      cases hproducing
      exact ((h.represents.loadReadPosition .idle).full h.holds.loadReadPosition).mp hfull
    · cases hpush
    · cases hpush
  | popCall hcall =>
    simp only [LockFreeRing.popCall] at hcall
    split at hcall
    · split at hcall <;> cases hcall
    · cases hcall
  | pop hpop =>
    simp only [LockFreeRing.popStep] at hpop
    split at hpop
    · cases hpop
    · split at hpop <;> cases hpop
    · cases hpop
    · cases hpop

/-- A pop that fails has just loaded the write position. -/
theorem Fifo.popFails (h : Fifo capacity base events ring counted)
    (hstep : Step capacity ring .popFailed ring') : counted.loadWritePosition.empty = true := by
  have hconsuming := h.consuming
  cases hstep with
  | pushCall value hcall =>
    simp only [LockFreeRing.pushCall] at hcall
    split at hcall
    · split at hcall <;> cases hcall
    · cases hcall
  | push hpush =>
    simp only [LockFreeRing.pushStep] at hpush
    split at hpush
    · cases hpush
    · split at hpush <;> cases hpush
    · cases hpush
    · cases hpush
  | popCall hcall =>
    simp only [LockFreeRing.popCall] at hcall
    split at hcall
    · split at hcall <;> cases hcall
    · cases hcall
  | pop hpop =>
    simp only [LockFreeRing.popStep] at hpop
    split at hpop
    · cases hpop
    · rename_i read hloading
      split at hpop <;> cases hpop
      rename_i hempty
      rw [hloading] at hconsuming
      cases hconsuming
      exact ((h.represents.loadWritePosition .idle).empty h.holds.loadWritePosition).mp hempty
    · cases hpop
    · cases hpop

theorem lossless {slots : UInt64 → α} (h : Run (Step capacity) (start slots base) events ring) :
    Lossless capacity events ring := by
  obtain ⟨counted, hfifo⟩ := fifo_run h
  obtain ⟨hpushed, hpopped⟩ := hfifo.lengths
  have hcachedRead := hfifo.holds.cachedRead
  have hcachedWrite := hfifo.holds.cachedWrite
  have hwritten := hfifo.holds.written
  have hbounded := hfifo.holds.bounded
  constructor
  · rw [hfifo.popped]
    exact List.take_prefix _ _
  · intro read value hstoring
    have hconsuming := hfifo.consuming
    rw [hstoring] at hconsuming
    obtain ⟨-, hunread, hfront⟩ := hconsuming
    rw [hfifo.popped, ← hfront, hfifo.holds.front hunread]
    exact List.take_prefix _ _
  · exact fun slot => hfifo.apart
  · intro ring' hstep
    have hfull := hfifo.pushFails hstep
    simp only [SpscRing.full, SpscRing.loadReadPosition, ge_iff_le, decide_eq_true_eq] at hfull
    omega
  · intro ring' hstep
    have hempty := hfifo.popFails hstep
    simp only [SpscRing.empty, SpscRing.loadWritePosition, beq_iff_eq] at hempty
    omega

/-- Two slots, with the positions about to wrap. -/
theorem lossless_wrap : ∃ events ring,
    Run (Step ⟨2, by decide, by decide⟩) (start (fun _ => 0) 18446744073709551615) events ring ∧
      pushed events = [7, 8] ∧ popped events = [7] ∧
      Lossless ⟨2, by decide, by decide⟩ events ring := by
  let capacity : RingCapacity := ⟨2, by decide, by decide⟩
  have hrun : Run (Step capacity) (start (fun _ => 0) 18446744073709551615) _ _ :=
    (((((((((Run.nil (start (fun _ => 0) 18446744073709551615)).snoc (.pushCall 7 rfl)).snoc
      (.push rfl)).snoc (.push rfl)).snoc (.pushCall 8 rfl)).snoc (.popCall rfl)).snoc
      (.pop rfl)).snoc (.push rfl)).snoc (.pop rfl)).snoc (.push rfl) |>.snoc (.pop rfl)
  exact ⟨_, _, hrun, rfl, by decide, lossless hrun⟩

end Fifo

end LockFreeRing

end ExchangeLab

import ExchangeLab.Lib.Bytes

/-!
# ExchangeLab.Lib.Framing

An append-only log of length-prefixed records: each record stands behind its own length, `width`
bytes wide.

`Splits width ok log records stray`: the log is the framed records and then a stray tail too short
for another length. `ok` says which lengths a reader accepts.

* `Splits.unique`: a log splits in one way.
* `Splits.append`: a log with no stray tail can be appended to.
* `Splits.uncons`: the record at the front.
* `Splits.whole_of_cut`: a log whose last record is cut short does not split.
-/

namespace Wire

def frame (width : Nat) (record : Bytes) : Bytes := encode width record.length ++ record

def frames (width : Nat) (records : List Bytes) : Bytes := records.flatMap (frame width)

structure Splits (width : Nat) (ok : Nat → Prop) (log : Bytes) (records : List Bytes)
    (stray : Bytes) : Prop where
  eq : log = frames width records ++ stray
  accepted : ∀ record ∈ records, ok record.length ∧ record.length < 256 ^ width
  short : stray.length < width

@[simp] theorem frames_nil (width : Nat) : frames width [] = [] := rfl
@[simp] theorem frames_cons (width : Nat) (r : Bytes) (rs : List Bytes) :
    frames width (r :: rs) = frame width r ++ frames width rs := rfl
@[simp] theorem frames_append (width : Nat) (rs rs' : List Bytes) :
    frames width (rs ++ rs') = frames width rs ++ frames width rs' := by simp [frames]
@[simp] theorem length_frame (width : Nat) (r : Bytes) : (frame width r).length = width + r.length := by
  simp [frame]

/-- A frame at the front of a log, cut off again. -/
theorem read_frame {width : Nat} {r : Bytes} (rest : Bytes) (h : r.length < 256 ^ width) :
    read width (frame width r ++ rest) = some (r.length, r ++ rest) := by
  rw [frame, List.append_assoc, read_encode _ h]

namespace Splits

variable {width : Nat} {ok : Nat → Prop} {log log' : Bytes} {records records' : List Bytes}
  {stray stray' : Bytes}

theorem of_short (h : log.length < width) : Splits width ok log [] log := ⟨rfl, by simp, h⟩

theorem of_frames (hw : 0 < width) (h : ∀ r ∈ records, ok r.length ∧ r.length < 256 ^ width) :
    Splits width ok (frames width records) records [] := ⟨by simp, h, hw⟩

theorem cons {r : Bytes} (hok : ok r.length) (hlt : r.length < 256 ^ width)
    (h : Splits width ok log records stray) :
    Splits width ok (frame width r ++ log) (r :: records) stray :=
  ⟨by rw [h.eq, frames_cons, List.append_assoc], by simpa using ⟨⟨hok, hlt⟩, h.accepted⟩, h.short⟩

theorem append (h : Splits width ok log records []) (h' : Splits width ok log' records' stray) :
    Splits width ok (log ++ log') (records ++ records') stray := by
  refine ⟨by simp [h.eq, h'.eq], fun r hr => ?_, h'.short⟩
  rcases List.mem_append.mp hr with hr | hr
  · exact h.accepted r hr
  · exact h'.accepted r hr

/-- A log that splits is too short for a length, or starts with a record. -/
theorem uncons (h : Splits width ok log records stray) :
    (records = [] ∧ stray = log ∧ log.length < width) ∨
      ∃ r rs rest, records = r :: rs ∧ log = frame width r ++ rest ∧ ok r.length ∧
        r.length < 256 ^ width ∧ Splits width ok rest rs stray := by
  cases records with
  | nil =>
    have := h.eq
    simp only [frames_nil, List.nil_append] at this
    subst this
    exact .inl ⟨rfl, rfl, h.short⟩
  | cons r rs =>
    have hr := h.accepted r (.head _)
    refine .inr ⟨r, rs, frames width rs ++ stray, rfl, ?_, hr.1, hr.2, rfl,
      fun r hr => h.accepted r (.tail _ hr), h.short⟩
    rw [h.eq, frames_cons, List.append_assoc]

theorem unique (h : Splits width ok log records stray) (h' : Splits width ok log records' stray') :
    records = records' ∧ stray = stray' := by
  induction records generalizing log records' with
  | nil =>
    rcases h.uncons with ⟨-, rfl, hlt⟩ | ⟨_, _, _, hnil, _⟩
    · rcases h'.uncons with ⟨rfl, rfl, -⟩ | ⟨r, _, _, -, rfl, -⟩
      · exact ⟨rfl, rfl⟩
      · simp at hlt; omega
    · cases hnil
  | cons r rs ih =>
    rcases h.uncons with ⟨hnil, -⟩ | ⟨r, rs, rest, heq, rfl, -, hlt, hrest⟩
    · cases hnil
    cases heq
    rcases h'.uncons with ⟨-, -, hshort⟩ | ⟨r', rs', rest', rfl, hlog, -, hlt', hrest'⟩
    · simp at hshort; omega
    · have hread := read_frame rest hlt
      rw [hlog, read_frame _ hlt'] at hread
      obtain ⟨hlen, htail⟩ := Prod.mk.inj (Option.some.inj hread)
      obtain ⟨rfl, rfl⟩ := List.append_inj htail hlen
      obtain ⟨rfl, rfl⟩ := ih hrest hrest'
      exact ⟨rfl, rfl⟩

/-- A log that splits, cut behind records it starts with. -/
theorem drop_frames {rest : Bytes} (hrecords : ∀ r ∈ records, r.length < 256 ^ width)
    (h : Splits width ok (frames width records ++ rest) records' stray) :
    ∃ records'', Splits width ok rest records'' stray := by
  induction records generalizing records' with
  | nil => exact ⟨records', by simpa using h⟩
  | cons r records ih =>
    have hr := hrecords r (.head _)
    rw [frames_cons, List.append_assoc] at h
    rcases h.uncons with ⟨-, -, hlt⟩ | ⟨r', rs, rest', -, heq, -, hlt', hrest⟩
    · rw [List.length_append, length_frame] at hlt
      omega
    · have hread := read_frame (frames width records ++ rest) hr
      rw [heq, read_frame _ hlt'] at hread
      obtain ⟨hlen, htail⟩ := Prod.mk.inj (Option.some.inj hread)
      obtain ⟨-, rfl⟩ := List.append_inj htail hlen
      exact ih (fun x hx => hrecords x (.tail _ hx)) hrest

/-- A cut behind the length of the last record, and before its end, leaves a log that does not
split. -/
theorem whole_of_cut {r piece : Bytes} (hrecords : ∀ r ∈ records, r.length < 256 ^ width)
    (hr : r.length < 256 ^ width) (hpiece : piece <+: frame width r) (hlong : width ≤ piece.length)
    (h : Splits width ok (frames width records ++ piece) records' stray) :
    piece = frame width r := by
  obtain ⟨records'', h''⟩ := h.drop_frames hrecords
  obtain ⟨missing, hmissing⟩ := hpiece
  rcases h''.uncons with ⟨-, -, hlt⟩ | ⟨r', rs, rest, -, rfl, -, hr', -⟩
  · omega
  · have hread := read_frame [] hr
    rw [List.append_nil, ← hmissing, List.append_assoc, read_frame _ hr'] at hread
    obtain ⟨hlen, -⟩ := Prod.mk.inj (Option.some.inj hread)
    have hlength := congrArg List.length hmissing
    simp only [List.length_append, length_frame] at hlength
    have hnil : missing = [] := List.length_eq_zero_iff.mp (by omega)
    rw [← hmissing, hnil, List.append_nil]

end Splits

end Wire

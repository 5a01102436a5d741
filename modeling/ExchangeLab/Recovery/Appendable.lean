import ExchangeLab.Replay

/-!
# ExchangeLab.Recovery.Appendable

Which accepted journals can be appended to.

Replay accepts a file of complete records followed by at most three stray bytes: a length prefix cut
short by a crash. The writer appends behind whatever is there, so those bytes become the front of the
next length and every later record is misread.

* `replay_cases`: replay accepts a file exactly when it splits into records and a stray tail.
* `stray_misread`: no record can be appended behind a stray tail.
* `replay_append_iff`: an accepted journal stays appendable if and only if it ends with a record.
-/

namespace ExchangeLab

open Wire Protocol ExchangeReplayer

/-- A record size the replay goes on with. -/
def replayableSize (size : Nat) : Prop := headerSize ≤ size ∧ size ≤ maximumRecordSize

/-- The file is these complete records and then a tail too short for another length. -/
abbrev JournalSplits : Bytes → List Bytes → Bytes → Prop := Splits recordLengthSize replayableSize

/-- The state after applying records in order, with the count of symbols brought up to date. -/
def applyRecords (records : List Bytes) (replayer : ExchangeReplayer) : ExchangeReplayer :=
  (records.foldl (fun replayer record => applyRecord record replayer) replayer).finish

theorem replayable_lt {size : Nat} (h : replayableSize size) : size < 256 ^ recordLengthSize :=
  Nat.lt_of_le_of_lt h.2 (by decide)

/-! ## The record loop -/

/-- A length that was read, and the file it was read from. -/
theorem decodeRecordLength_eq {input lengthBytes rest : Bytes}
    (h : takeExactly recordLengthSize input = some (lengthBytes, rest)) :
    input = encode recordLengthSize (decodeRecordLength lengthBytes).toNat ++ rest := by
  obtain ⟨rfl, hlen⟩ := takeExactly_exact h
  have hlt := decode_lt lengthBytes
  rw [hlen] at hlt
  rw [decodeRecordLength, UInt32.toNat_ofNat_of_lt' hlt, ← hlen, encode_decode]

/-- The loop on fuel above the length of what is left of the file. -/
theorem replayLoop_cases {fuel : Nat} {input : Bytes} (hfuel : input.length < fuel)
    (replayer : ExchangeReplayer) :
    (∃ records stray, JournalSplits input records stray ∧
        replayLoop fuel input replayer = (true, applyRecords records replayer)) ∨
      ((∀ records stray, ¬ JournalSplits input records stray) ∧
        (replayLoop fuel input replayer).1 = false) := by
  induction fuel generalizing input replayer with
  | zero => omega
  | succ fuel ih =>
    cases hread : takeExactly recordLengthSize input with
    | none =>
      have hshort := takeExactly_eq_none.mp hread
      exact .inl ⟨[], input, .of_short hshort, by simp only [replayLoop, hread]; rfl⟩
    | some p =>
      obtain ⟨lengthBytes, rest⟩ := p
      have heq := decodeRecordLength_eq hread
      -- whatever record the file starts with has the length that was read
      have hfront : ∀ r rs rest' stray, input = frame recordLengthSize r ++ rest' →
          replayableSize r.length → Splits recordLengthSize replayableSize rest' rs stray →
          r.length = (decodeRecordLength lengthBytes).toNat ∧ r ++ rest' = rest := by
        intro r rs rest' stray hinput hok _
        have h₁ := read_frame rest' (replayable_lt hok)
        rw [← hinput, heq, read_encode _ (UInt32.toNat_lt _)] at h₁
        obtain ⟨hlen, hrest⟩ := Prod.mk.inj (Option.some.inj h₁)
        exact ⟨hlen.symm, hrest.symm⟩
      by_cases hsize : (decodeRecordLength lengthBytes).toNat < headerSize ∨
          (decodeRecordLength lengthBytes).toNat > maximumRecordSize
      · refine .inr ⟨fun records stray h => ?_, by simp only [replayLoop, hread, if_pos hsize]⟩
        rcases h.uncons with ⟨-, -, hshort⟩ | ⟨r, rs, rest', -, hinput, hok, -, hrest⟩
        · rw [takeExactly_eq_none.mpr hshort] at hread
          cases hread
        · have := (hfront r rs rest' stray hinput hok hrest).1
          unfold replayableSize at hok
          omega
      have hok : replayableSize (decodeRecordLength lengthBytes).toNat := by
        unfold replayableSize
        omega
      cases hrec : takeExactly (decodeRecordLength lengthBytes).toNat rest with
      | none =>
        have hshort := takeExactly_eq_none.mp hrec
        refine .inr ⟨fun records stray h => ?_, by simp only [replayLoop, hread, if_neg hsize, hrec]⟩
        rcases h.uncons with ⟨-, -, hshort'⟩ | ⟨r, rs, rest', -, hinput, hok, -, hrest⟩
        · rw [takeExactly_eq_none.mpr hshort'] at hread
          cases hread
        · obtain ⟨hlen, hsuffix⟩ := hfront r rs rest' stray hinput hok hrest
          rw [← hsuffix, ← hlen, List.length_append] at hshort
          omega
      | some q =>
        obtain ⟨record, rest'⟩ := q
        obtain ⟨rfl, hlen⟩ := takeExactly_exact hrec
        have hframe : input = frame recordLengthSize record ++ rest' := by
          rw [heq, frame, hlen, List.append_assoc]
        have hlt : rest'.length < fuel := by
          rw [hframe] at hfuel
          simp only [List.length_append, length_frame, recordLengthSize] at hfuel
          omega
        have hloop : replayLoop (fuel + 1) input replayer =
            replayLoop fuel rest' (applyRecord record replayer) := by
          simp only [replayLoop, hread, if_neg hsize, hrec]
        rcases ih hlt (applyRecord record replayer) with ⟨rs, stray, hs, hrun⟩ | ⟨hno, hfalse⟩
        · refine .inl ⟨record :: rs, stray, ?_, by rw [hloop, hrun]; rfl⟩
          rw [hframe]
          exact hs.cons (hlen ▸ hok) (hlen ▸ replayable_lt hok)
        · refine .inr ⟨fun records stray h => ?_, by rw [hloop, hfalse]⟩
          rcases h.uncons with ⟨-, -, hshort⟩ | ⟨r, rs, rest'', -, hinput, hok', -, hrest⟩
          · rw [takeExactly_eq_none.mpr hshort] at hread
            cases hread
          · obtain ⟨hlen', hsuffix⟩ := hfront r rs rest'' stray hinput hok' hrest
            obtain ⟨-, rfl⟩ := List.append_inj hsuffix (hlen'.trans hlen.symm)
            exact hno rs stray hrest

/-- Replay accepts exactly the files that split, and applies their records in order. -/
theorem replay_cases (file : Bytes) :
    (∃ records stray, JournalSplits file records stray ∧
        replay (some file) = (true, applyRecords records .new)) ∨
      ((∀ records stray, ¬ JournalSplits file records stray) ∧ (replay (some file)).1 = false) :=
  replayLoop_cases (Nat.lt_succ_self _) .new

theorem replay_of_splits {file stray : Bytes} {records : List Bytes}
    (h : JournalSplits file records stray) :
    replay (some file) = (true, applyRecords records .new) := by
  rcases replay_cases file with ⟨rs, stray', h', hrun⟩ | ⟨hno, -⟩
  · rw [hrun, (h.unique h').1]
  · exact absurd h (hno records stray)

theorem splits_of_replay {file : Bytes} (h : (replay (some file)).1 = true) :
    ∃ records stray, JournalSplits file records stray ∧
      replay (some file) = (true, applyRecords records .new) := by
  rcases replay_cases file with h' | ⟨-, hfalse⟩
  · exact h'
  · rw [hfalse] at h
    cases h

/-! ## Applying records does not look at the count of symbols -/

/-- The replayer with another count of symbols. -/
def ExchangeReplayer.withSymbols (replayer : ExchangeReplayer) (symbols : UInt64) :
    ExchangeReplayer :=
  { replayer with summary := { replayer.summary with symbols := symbols } }

theorem applyRecord_withSymbols (record : Bytes) (replayer : ExchangeReplayer) (k : UInt64) :
    applyRecord record (replayer.withSymbols k) = (applyRecord record replayer).withSymbols k := by
  have hnew : ∀ body (r : ExchangeReplayer),
      applyNewOrder body (r.withSymbols k) = (applyNewOrder body r).withSymbols k := by
    intro body r
    simp only [applyNewOrder, show ∀ s, (r.withSymbols k).bookFor s = r.bookFor s from fun _ => rfl]
    (repeat' split) <;> rfl
  have hcancel : ∀ body (r : ExchangeReplayer),
      applyCancelOrder body (r.withSymbols k) = (applyCancelOrder body r).withSymbols k := by
    intro body r
    simp only [applyCancelOrder, show (r.withSymbols k).books = r.books from rfl]
    (repeat' split) <;> rfl
  have hreplace : ∀ body (r : ExchangeReplayer),
      applyReplaceOrder body (r.withSymbols k) = (applyReplaceOrder body r).withSymbols k := by
    intro body r
    simp only [applyReplaceOrder, show (r.withSymbols k).books = r.books from rfl]
    (repeat' split) <;> rfl
  simp only [applyRecord, show (replayer.withSymbols k).countRecord =
    replayer.countRecord.withSymbols k from rfl, hnew, hcancel, hreplace]
  (repeat' split) <;> rfl

theorem applyRecords_finish (records : List Bytes) (replayer : ExchangeReplayer) :
    applyRecords records replayer.finish = applyRecords records replayer := by
  have hfold : ∀ (r : ExchangeReplayer) k,
      records.foldl (fun r record => applyRecord record r) (r.withSymbols k) =
        (records.foldl (fun r record => applyRecord record r) r).withSymbols k := by
    induction records with
    | nil => intros; rfl
    | cons record records ih =>
      intro r k
      rw [List.foldl_cons, applyRecord_withSymbols, ih, List.foldl_cons]
  have h := congrArg finish (hfold replayer (UInt64.ofNat replayer.books.keys.card))
  exact h

theorem applyRecords_append (rs rs' : List Bytes) (replayer : ExchangeReplayer) :
    applyRecords (rs ++ rs') replayer = applyRecords rs' (applyRecords rs replayer) := by
  rw [applyRecords, List.foldl_append]
  exact (applyRecords_finish rs' _).symm

/-! ## Appending -/

/-- A well-formed command record: a header of the protocol and a body of its size that decodes. -/
structure CommandRecord where
  header : MessageHeader
  body : Bytes
  magic : header.magic = protocolMagic
  version : header.version = protocolVersion
  bodySize : header.bodySize.toNat = body.length
  command : header.type = .newOrder ∧ (decodeNewOrder body).isSome ∨
    header.type = .cancelOrder ∧ (decodeCancelOrder body).isSome ∨
    header.type = .replaceOrder ∧ (decodeReplaceOrder body).isSome

def CommandRecord.bytes (record : CommandRecord) : Bytes :=
  encodeHeader record.header ++ record.body

/-- Append records one after the other to a file opened for appending. -/
def appendRecords (records : List Bytes) (file : Bytes) : Except Fault Bytes :=
  records.foldlM (fun file record => ExchangeJournal.append record file)
    (ExchangeJournal.openFile file false)

/-- The file ends where a record ends. -/
def EndsWithRecord (file : Bytes) : Prop :=
  ∃ records : List Bytes, (∀ record ∈ records, replayableSize record.length) ∧
    file = frames recordLengthSize records

theorem CommandRecord.body_length (record : CommandRecord) :
    record.body.length = newOrderBodySize ∨ record.body.length = cancelOrderBodySize ∨
      record.body.length = replaceOrderBodySize := by
  refine record.command.imp ?_ (Or.imp ?_ ?_)
  · rintro ⟨-, h⟩
    by_contra hne
    simp [decodeNewOrder, hne] at h
  · rintro ⟨-, h⟩
    by_contra hne
    simp [decodeCancelOrder, hne] at h
  · rintro ⟨-, h⟩
    by_contra hne
    simp [decodeReplaceOrder, hne] at h

theorem CommandRecord.length (record : CommandRecord) :
    44 ≤ record.bytes.length ∧ record.bytes.length ≤ 63 := by
  have hbody := record.body_length
  simp only [bytes, List.length_append, length_encodeHeader, headerSize, newOrderBodySize,
    cancelOrderBodySize, replaceOrderBodySize] at *
  omega

theorem CommandRecord.replayable (record : CommandRecord) : replayableSize record.bytes.length := by
  have := record.length
  simp only [replayableSize, headerSize, maximumRecordSize]
  omega

theorem appendRecords_ok {records : List Bytes} (h : ∀ r ∈ records, replayableSize r.length)
    (file : Bytes) :
    appendRecords records file = .ok (file ++ frames recordLengthSize records) := by
  rw [appendRecords, ExchangeJournal.openFile, if_neg Bool.false_ne_true]
  induction records generalizing file with
  | nil => simp [pure, Except.pure]
  | cons r rs ih =>
    have hr : r.length < UInt32.size := replayable_lt (h r (.head _))
    rw [List.foldlM_cons, ExchangeJournal.append_ok hr]
    simp only [bind, Except.bind, ih (fun x hx => h x (.tail _ hx)), frames_cons, List.append_assoc]

/-- Behind stray bytes a record is read with its length shifted up, beyond the end of the file. -/
theorem stray_misread {stray record : Bytes} (hne : stray ≠ []) (hshort : stray.length < 4)
    (hlow : 44 ≤ record.length) (hhigh : record.length ≤ 63) (rs : List Bytes) (stray' : Bytes) :
    ¬ JournalSplits (stray ++ frame recordLengthSize record) rs stray' := by
  intro h
  have hlength : ∃ low : UInt8, frame recordLengthSize record = low :: 0 :: 0 :: 0 :: record ∧
      low.toNat = record.length := by
    refine ⟨UInt8.ofNat (record.length % 256), ?_, ?_⟩
    · have h₁ : record.length / 256 = 0 := by omega
      simp [frame, recordLengthSize, encode, h₁]
    · rw [UInt8.toNat_ofNat']
      omega
  obtain ⟨low, hframe, hlow'⟩ := hlength
  rcases h.uncons with ⟨-, -, hlt⟩ | ⟨r, rs', rest, -, heq, -, hr, -⟩
  · simp [recordLengthSize] at hlt
    omega
  have hread := read_frame rest hr
  rw [← heq, hframe, recordLengthSize] at hread
  have hall : r.length ≤ stray.length + record.length := by
    have := congrArg List.length heq
    simp [recordLengthSize] at this
    omega
  rcases stray with - | ⟨a, - | ⟨b, - | ⟨c, - | ⟨d, stray⟩⟩⟩⟩
  · exact hne rfl
  · simp [Wire.read, takeExactly, decode] at hread
    omega
  · simp [Wire.read, takeExactly, decode] at hread
    omega
  · simp [Wire.read, takeExactly, decode] at hread
    omega
  · simp only [List.length_cons] at hshort
    omega

/-- A journal that splits, cut behind records it starts with. -/
theorem JournalSplits.drop_frames {rs rs' : List Bytes} {rest stray : Bytes}
    (hrs : ∀ r ∈ rs, replayableSize r.length)
    (h : JournalSplits (frames recordLengthSize rs ++ rest) rs' stray) :
    ∃ rs'', JournalSplits rest rs'' stray :=
  Splits.drop_frames (fun r hr => replayable_lt (hrs r hr)) h

/-- A new order for one unit, as the server journals it. -/
def sampleRecord : CommandRecord where
  header := ⟨protocolMagic, protocolVersion, .newOrder, 43, 1⟩
  body := encodeNewOrder ⟨1, 1, 100, 1, .buy, .limit, .goodTillCancel, defaultSymbol⟩
  magic := rfl
  version := rfl
  bodySize := by decide
  command := .inl ⟨rfl, by decide⟩

/-- An accepted journal can be appended to, whatever the commands, exactly when it ends with a
record. -/
theorem replay_append_iff (journal : Bytes) (haccepted : (replay (some journal)).1 = true) :
    (∀ records : List CommandRecord,
        ∃ file, appendRecords (records.map CommandRecord.bytes) journal = .ok file ∧
          replay (some file) =
            (true, applyRecords (records.map CommandRecord.bytes) (replay (some journal)).2)) ↔
      EndsWithRecord journal := by
  obtain ⟨rs, stray, hsplit, hrun⟩ := splits_of_replay haccepted
  have hrs : ∀ r ∈ rs, replayableSize r.length := fun r hr => (hsplit.accepted r hr).1
  have hbytes : ∀ records : List CommandRecord, ∀ r ∈ records.map CommandRecord.bytes,
      replayableSize r.length := by
    intro records r hr
    obtain ⟨c, -, rfl⟩ := List.mem_map.mp hr
    exact c.replayable
  constructor
  · intro h
    by_cases hstray : stray = []
    · exact ⟨rs, hrs, by rw [hsplit.eq, hstray, List.append_nil]⟩
    obtain ⟨file, happend, hreplay⟩ := h [sampleRecord]
    rw [appendRecords_ok (hbytes [sampleRecord])] at happend
    cases happend
    obtain ⟨rs', stray', hsplit', -⟩ := splits_of_replay (congrArg Prod.fst hreplay)
    rw [hsplit.eq, List.append_assoc] at hsplit'
    obtain ⟨rs'', h''⟩ := JournalSplits.drop_frames hrs hsplit'
    simp only [List.map_cons, List.map_nil, frames_cons, frames_nil, List.append_nil] at h''
    exact absurd h'' (stray_misread hstray hsplit.short sampleRecord.length.1
      sampleRecord.length.2 rs'' stray')
  · rintro ⟨rs₀, hrs₀, rfl⟩ records
    have hwhole : ∀ rs : List Bytes, (∀ r ∈ rs, replayableSize r.length) →
        JournalSplits (frames recordLengthSize rs) rs [] := fun rs h =>
      .of_frames (by decide) fun r hr => ⟨h r hr, replayable_lt (h r hr)⟩
    refine ⟨_, appendRecords_ok (hbytes records) _, ?_⟩
    rw [replay_of_splits ((hwhole rs₀ hrs₀).append (hwhole _ (hbytes records))),
      replay_of_splits (hwhole rs₀ hrs₀), applyRecords_append]

/-- A sell of three units at the price of `sampleRecord`. -/
def sampleSell : CommandRecord where
  header := ⟨protocolMagic, protocolVersion, .newOrder, 43, 2⟩
  body := encodeNewOrder ⟨2, 2, 100, 3, .sell, .limit, .goodTillCancel, defaultSymbol⟩
  magic := rfl
  version := rfl
  bodySize := by decide
  command := .inl ⟨rfl, by decide⟩

def sampleReplace : CommandRecord where
  header := ⟨protocolMagic, protocolVersion, .replaceOrder, 40, 3⟩
  body := encodeReplaceOrder ⟨2, 3, 110, 5, defaultSymbol⟩
  magic := rfl
  version := rfl
  bodySize := by decide
  command := .inr (.inr ⟨rfl, by decide⟩)

/-- In the journal order 1 rests. What is appended behind it fills that order and replaces what is
left of order 2, and so it does when the file is replayed. -/
theorem replay_append_iff_resting :
    let journal := frames recordLengthSize [sampleRecord.bytes]
    let book := fun (replayer : ExchangeReplayer) => replayer.bookFor (symbolToString defaultSymbol)
    ((book (replay (some journal)).2).findOrder 1).map Order.remainingQuantity = some 1 ∧
    ∃ file, appendRecords [sampleSell.bytes, sampleReplace.bytes] journal = .ok file ∧
      replay (some file) = (true, applyRecords [sampleSell.bytes, sampleReplace.bytes]
        (replay (some journal)).2) ∧
      ((book (replay (some file)).2).findOrder 1) = none ∧
      ((book (replay (some file)).2).findOrder 2).map (fun o => (o.price, o.remainingQuantity)) =
        some (110, 5) := by
  intro journal book
  obtain ⟨file, happend, hreplay⟩ := (replay_append_iff journal (by decide +kernel)).mpr
    ⟨[sampleRecord.bytes], fun r hr => List.mem_singleton.mp hr ▸ sampleRecord.replayable, rfl⟩
    [sampleSell, sampleReplace]
  refine ⟨by decide +kernel, file, happend, hreplay, ?_, ?_⟩
  · rw [hreplay]
    decide +kernel
  · rw [hreplay]
    decide +kernel

/-- A crash after the first byte of a length prefix: the journal is accepted, one command is appended
behind it, and the next replay fails. -/
theorem replay_append_torn :
    ¬ ∀ journal : Bytes, (replay (some journal)).1 = true → ∀ records : List CommandRecord,
        ∃ file, appendRecords (records.map CommandRecord.bytes) journal = .ok file ∧
          replay (some file) =
            (true, applyRecords (records.map CommandRecord.bytes) (replay (some journal)).2) := by
  intro h
  obtain ⟨file, happend, hreplay⟩ := h [63] (by decide) [sampleRecord]
  have hfile : appendRecords ([sampleRecord].map CommandRecord.bytes) [63] =
      .ok ([63] ++ frame recordLengthSize sampleRecord.bytes) := by decide
  rw [hfile] at happend
  cases happend
  exact absurd (congrArg Prod.fst hreplay) (by decide)

end ExchangeLab

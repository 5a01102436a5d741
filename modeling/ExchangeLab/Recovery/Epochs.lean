import ExchangeLab.Recovery.Agreement

/-!
# ExchangeLab.Recovery.Epochs

A server that is stopped and started again, any number of times, on one journal file.

Each epoch begins with the replay of the file that the one before it left. The replay gives it the
books, and the journal it appends to is the one that was replayed.

* `Epochs`: the states of the servers of one file, across every restart.
* `restart_cut`: what a start makes of a file whose last record was cut short.
* `epochs_recover`: every restart has the books of the server before it, and a crash while a record
  is written loses that record or is noticed.
-/

namespace ExchangeLab

open Wire Protocol OrderBook MatchingEngine Container ExchangeReplayer ExchangeServer Transition

/-! ## Starting from a file -/

section Start

variable {limits : RiskLimits} {file stray : Bytes} {records : List Bytes}

/-- The server that a start makes of these records. -/
def recovered (limits : RiskLimits) (records : List Bytes) (file : Bytes) : ExchangeServer :=
  { riskEngine := { limits := limits }
    instruments := mapValues (fun book => { book := book }) (applyRecords records .new).books
    journal := some file }

theorem start_of_splits (h : JournalSplits file records stray) :
    start limits (some (some file)) = some (recovered limits records file) := by
  cases file with
  | nil =>
    obtain ⟨rfl, rfl⟩ := h.unique (.of_short (by decide))
    rfl
  | cons byte file =>
    simp only [start, recoverFromJournal, replay_of_splits h]
    rfl

theorem start_of_not_splits (h : ∀ records stray, ¬ JournalSplits file records stray) :
    start limits (some (some file)) = none := by
  cases file with
  | nil => exact absurd (.of_short (by decide)) (h [] [])
  | cons byte file =>
    rcases replay_cases (byte :: file) with ⟨records, stray, hsplits, -⟩ | ⟨-, hfalse⟩
    · exact absurd hsplits (h records stray)
    · cases hrun : replay (some (byte :: file)) with
      | mk accepted replayer =>
        rw [hrun] at hfalse
        cases hfalse
        simp only [start, recoverFromJournal, hrun]
        rfl

/-- The server started from some records has the books that their replay has. -/
theorem recovered_book (symbol : Bytes) :
    ((recovered limits records file).instrumentFor symbol).book =
      (applyRecords records .new).bookFor symbol := by
  rw [instrumentFor, findInstrument, recovered, lookup_mapValues, bookFor]
  cases (applyRecords records .new).books.lookup symbol <;> rfl

theorem recovered_agrees (h : ∀ record ∈ records, replayableSize record.length) :
    Agrees (recovered limits records (frames recordLengthSize records)) records :=
  ⟨rfl, h, fun symbol => (recovered_book symbol).symm⟩

end Start

/-! ## Epochs -/

/-- The states of the servers on one journal file. A restart may come in any state and with any
limits; the sessions and the risk state are gone, the file is there. -/
inductive Epochs (file : Option Bytes) : ExchangeServer → Prop
  | started {limits : RiskLimits} {server : ExchangeServer}
      (h : start limits (some file) = some server) : Epochs file server
  | step {server server' : ExchangeServer} {event : Event} (h : Epochs file server)
      (hstep : Step server event server') : Epochs file server'
  | restarted {limits : RiskLimits} {server server' : ExchangeServer} (h : Epochs file server)
      (hstart : start limits (some server.journal) = some server') : Epochs file server'

section Epochs

variable {server server' : ExchangeServer} {records records' : List Bytes} {file : Option Bytes}

/-- The file tells its records apart. -/
theorem frames_injective (h : ∀ record ∈ records, record.length < 256 ^ recordLengthSize)
    (h' : ∀ record ∈ records', record.length < 256 ^ recordLengthSize)
    (heq : frames recordLengthSize records = frames recordLengthSize records') :
    records = records' := by
  have hsplits : Splits recordLengthSize (fun _ => True) (frames recordLengthSize records) records [] :=
    .of_frames (by decide) fun record hrecord => ⟨trivial, h record hrecord⟩
  rw [heq] at hsplits
  exact (hsplits.unique (.of_frames (by decide) fun record hrecord =>
    ⟨trivial, h' record hrecord⟩)).1

theorem ExchangeServer.Handled.journal {order : SetOrder} {socket : Socket} {frame : Frame}
    {emissions : List Emission} (h : Handled order socket frame server server' emissions) :
    server'.journal = server.journal ∨ server'.journal = journaled frame server.journal := by
  cases h with
  | ignored | rejected | turnedAway => exact .inl rfl
  | placed | cancelled | replaced => exact .inr rfl

theorem Frame.record_lt (frame : Frame) : frame.record.length < 256 ^ recordLengthSize := by
  rw [frame.record_length]
  exact Nat.lt_of_le_of_lt (Nat.add_le_add_left frame.bounded _) (by decide)

/-- A step leaves the journal alone or writes one record to it. -/
theorem ExchangeServer.Step.journal {event : Event} (hbooks : server.BooksConsistent)
    (hstep : Step server event server') :
    server'.journal = server.journal ∨
      ∃ frame : Frame, server'.journal = journaled frame server.journal := by
  cases hstep with
  | connect | disconnect | setGlobalKillSwitch => exact .inl rfl
  | @frame server₁ _ frame emissions order _ hrun =>
    obtain ⟨n, -, heq⟩ := emitAll_state emissions server₁
    rw [heq, withSequence_journal]
    exact (handleMessage_cases hbooks hrun).journal.imp_right fun h => ⟨frame, h⟩

theorem Agrees.lt (h : Agrees server records) :
    ∀ record ∈ records, record.length < 256 ^ recordLengthSize :=
  fun record hrecord => replayable_lt (h.replayable record hrecord)

/-- The records after a step are those before it, and at most one more. -/
theorem Agrees.step_records (h : Agrees server records) (hbooks : server.BooksConsistent)
    {event : Event} (hstep : Step server event server') :
    ∃ records', Agrees server' records' ∧
      (records' = records ∨ ∃ record, records' = records ++ [record]) := by
  obtain ⟨records', h'⟩ := h.step hbooks hstep
  refine ⟨records', h', ?_⟩
  rcases hstep.journal hbooks with hsame | ⟨frame, hmore⟩
  · rw [h.journal, h'.journal] at hsame
    exact .inl (frames_injective h'.lt h.lt (Option.some.inj hsame))
  · rw [h.journal, h'.journal, journaled, Option.map_some] at hmore
    refine .inr ⟨frame.record, frames_injective h'.lt ?_ ?_⟩
    · intro record hrecord
      rcases List.mem_append.mp hrecord with hrecord | hrecord
      · exact h.lt record hrecord
      · rw [List.mem_singleton.mp hrecord]
        exact frame.record_lt
    · rw [Option.some.inj hmore, frames_append, frames_cons, frames_nil, List.append_nil]

/-- In every epoch the journal is a list of records, and their replay has the books. -/
theorem Epochs.agrees (hfile : EndsWithRecord (file.getD [])) (h : Epochs file server) :
    server.BooksConsistent ∧ ∃ records, Agrees server records := by
  induction h with
  | @started limits server hstart =>
    refine ⟨start_booksConsistent hstart, ?_⟩
    obtain ⟨records, hrecords, heq⟩ := hfile
    have hsame : start limits (some file) = start limits (some (some (file.getD []))) := by
      cases file <;> rfl
    rw [hsame, heq, start_of_splits (.of_frames (by decide) fun record hrecord =>
      ⟨hrecords record hrecord, replayable_lt (hrecords record hrecord)⟩)] at hstart
    cases hstart
    exact ⟨records, recovered_agrees hrecords⟩
  | step _ hstep ih =>
    obtain ⟨hbooks, records, h⟩ := ih
    exact ⟨hstep.booksConsistent hbooks, h.step hbooks hstep⟩
  | restarted _ hstart ih =>
    obtain ⟨-, records, h⟩ := ih
    refine ⟨start_booksConsistent hstart, records, ?_⟩
    rw [h.journal, start_of_splits (.of_frames (by decide) fun record hrecord =>
      ⟨h.replayable record hrecord, h.lt record hrecord⟩)] at hstart
    cases hstart
    exact recovered_agrees h.replayable

/-- What a start makes of a file that holds some records and a piece of one more: of the whole record
the books after it, of a length that is cut short the books before it, and nothing of a record that
is cut short. -/
theorem restart_cut {limits : RiskLimits} {left record : Bytes} (h : Agrees server records)
    (h' : Agrees server' (records ++ [record]))
    (hold : frames recordLengthSize records <+: left)
    (hnew : left <+: frames recordLengthSize (records ++ [record])) :
    if left ≠ frames recordLengthSize (records ++ [record]) ∧
        (frames recordLengthSize records).length + recordLengthSize ≤ left.length then
      start limits (some (some left)) = none
    else
      ∃ restarted, start limits (some (some left)) = some restarted ∧
        ∀ symbol, (restarted.instrumentFor symbol).book =
          ((if left = frames recordLengthSize (records ++ [record]) then server' else
            server).instrumentFor symbol).book := by
  obtain ⟨piece, rfl⟩ := hold
  have hframe : frames recordLengthSize (records ++ [record]) =
      frames recordLengthSize records ++ frame recordLengthSize record := by
    rw [frames_append, frames_cons, frames_nil, List.append_nil]
  have hpiece : piece <+: frame recordLengthSize record := by
    rw [hframe] at hnew
    exact (List.prefix_append_right_inj _).mp hnew
  have hrecord : record.length < 256 ^ recordLengthSize :=
    h'.lt record (List.mem_append_right _ List.mem_cons_self)
  split
  case isTrue hcut =>
    refine start_of_not_splits fun rs stray hsplits => hcut.1 ?_
    have hlong : recordLengthSize ≤ piece.length := by
      have := hcut.2
      rw [List.length_append] at this
      omega
    rw [hframe, hsplits.whole_of_cut h.lt hrecord hpiece hlong]
  case isFalse hkeep =>
    by_cases hwhole : frames recordLengthSize records ++ piece =
        frames recordLengthSize (records ++ [record])
    · rw [if_pos hwhole, hwhole]
      refine ⟨_, start_of_splits (.of_frames (by decide) fun r hr =>
        ⟨h'.replayable r hr, h'.lt r hr⟩), fun symbol => ?_⟩
      rw [recovered_book, h'.books]
    · rw [if_neg hwhole]
      have hshort : piece.length < recordLengthSize := by
        by_contra hlong
        refine hkeep ⟨hwhole, ?_⟩
        rw [List.length_append]
        omega
      have hsplits : JournalSplits (frames recordLengthSize records ++ piece) records piece :=
        ⟨rfl, fun r hr => ⟨h.replayable r hr, h.lt r hr⟩, hshort⟩
      exact ⟨_, start_of_splits hsplits, fun symbol => by rw [recovered_book, h.books]⟩

end Epochs

/-- A crash in any step of any epoch leaves a file between the journals on either side of the step. A
start from it has the books of one side, the later ones if the record is whole, unless the record is
cut short behind its length: then no server starts. -/
theorem epochs_recover {file : Option Bytes} (hfile : EndsWithRecord (file.getD []))
    {server server' : ExchangeServer} {event : Event} (h : Epochs file server)
    (hstep : Step server event server') :
    ∃ journal journal', server.journal = some journal ∧ server'.journal = some journal' ∧
      journal <+: journal' ∧
      ∀ left, journal <+: left → left <+: journal' → ∀ limits,
        if left ≠ journal' ∧ journal.length + recordLengthSize ≤ left.length then
          start limits (some (some left)) = none
        else
          ∃ restarted, start limits (some (some left)) = some restarted ∧
            ∀ symbol, (restarted.instrumentFor symbol).book =
              ((if left = journal' then server' else server).instrumentFor symbol).book := by
  obtain ⟨hbooks, records, hagrees⟩ := h.agrees hfile
  obtain ⟨records', hagrees', hrecords⟩ := hagrees.step_records hbooks hstep
  refine ⟨_, _, hagrees.journal, hagrees'.journal, ?_⟩
  rcases hrecords with rfl | ⟨record, rfl⟩
  · refine ⟨List.prefix_refl _, fun left hold hnew limits => ?_⟩
    have hleft : left = frames recordLengthSize records' :=
      hnew.eq_of_length (Nat.le_antisymm hnew.length_le hold.length_le)
    rw [if_neg fun hcut => hcut.1 hleft, if_pos hleft, hleft]
    refine ⟨_, start_of_splits (.of_frames (by decide) fun r hr =>
      ⟨hagrees'.replayable r hr, hagrees'.lt r hr⟩), fun symbol => ?_⟩
    rw [recovered_book, hagrees'.books]
  · refine ⟨?_, fun left hold hnew limits => restart_cut hagrees hagrees' hold hnew⟩
    rw [frames_append]
    exact List.prefix_append _ _

/-- A session buys 5 at 100. Started from the whole journal the server has the order; it does not
start when the last byte is missing. -/
theorem epochs_recover_order :
    ∃ server server' event journal', Epochs none server ∧ Step server event server' ∧
      server'.journal = some journal' ∧
      (∃ restarted, start {} (some (some journal')) = some restarted ∧
        (restarted.instrumentFor [84, 69, 83, 84]).book.queueAt .buy 100 =
          [⟨7, .buy, .limit, .goodTillCancel, 100, 5, 5, 1⟩]) ∧
      start {} (some (some journal'.dropLast)) = none := by
  obtain ⟨⟨server, emissions⟩, hrun, hqueue, hjournal⟩ : ∃ result,
      handleMessage .dedup 4
        (newOrderFrame ⟨7, 1, 100, 5, .buy, .limit, .goodTillCancel, defaultSymbol⟩)
        (registerClient 4 { riskEngine := { limits := {} }, journal := some [] }) = .ok result ∧
      (result.1.instrumentFor [84, 69, 83, 84]).book.queueAt .buy 100 =
        [⟨7, .buy, .limit, .goodTillCancel, 100, 5, 5, 1⟩] ∧
      result.1.journal.map List.length = some 67 := ⟨_, by rfl, by decide, by decide⟩
  have hstart : start {} (some none) =
      some { riskEngine := { limits := {} }, journal := some [] } := rfl
  have hepochs : Epochs none
      (registerClient 4 { riskEngine := { limits := {} }, journal := some [] }) :=
    .step (.started hstart) (.connect (by decide) (by decide))
  have hempty : EndsWithRecord ((none : Option Bytes).getD []) := ⟨[], by simp, rfl⟩
  have hstep := Step.frame .dedup (by decide) hrun
  obtain ⟨journal, journal', hbefore, hafter, hprefix, hleft⟩ :=
    epochs_recover hempty hepochs hstep
  obtain ⟨n, -, hstate⟩ := emitAll_state emissions server
  cases hbefore
  have hlength : journal'.length = 67 := by
    rw [hstate, withSequence_journal] at hafter
    rw [hafter] at hjournal
    exact Option.some.inj hjournal
  refine ⟨_, _, _, journal', hepochs, hstep, hafter, ?_, ?_⟩
  · have hwhole := hleft journal' hprefix (List.prefix_refl _) {}
    rw [if_neg fun hcut => hcut.1 rfl, if_pos rfl] at hwhole
    obtain ⟨restarted, hstart, hbooks⟩ := hwhole
    refine ⟨restarted, hstart, ?_⟩
    rw [hbooks, hstate]
    exact hqueue
  · have hcut := hleft journal'.dropLast (List.nil_prefix) (List.dropLast_prefix _) {}
    have hshort : journal'.dropLast.length = 66 := by rw [List.length_dropLast, hlength]
    have hne : journal'.dropLast ≠ journal' := by
      intro heq
      rw [heq, hlength] at hshort
      cases hshort
    rw [if_pos ⟨hne, by rw [hshort]; decide⟩] at hcut
    exact hcut

end ExchangeLab

import ExchangeLab.Server.Books

/-!
# ExchangeLab.Recovery.Agreement

Recovery agrees with live execution. The handlers of the server and the loop of the replay interpret
commands separately; on what the server journals they come to the same books.

* `applyRecord_record`: the replay reads a journaled frame as the header and body it was.
* `Agrees`: the journal is a list of records whose replay has the books of the server.
* `replay_agrees`: that holds in every state of every run from an empty journal.
-/

namespace ExchangeLab

open Wire Protocol OrderBook MatchingEngine Container ExchangeReplayer ExchangeServer Transition

/-! ## The two readings of a request -/

theorem orderOf_eq {request : NewOrderRequest} (h : request.Valid) :
    ExchangeReplayer.orderOf request = ExchangeServer.orderOf request := by
  have hside : ExchangeReplayer.convertSide request.side =
      ExchangeServer.convertSide request.side := by
    rcases h.side with h | h <;> rw [h] <;> decide
  have htype : ExchangeReplayer.convertOrderType request.orderType =
      ExchangeServer.convertOrderType request.orderType := by
    rcases h.orderType with h | h <;> rw [h] <;> decide
  have htif : ExchangeReplayer.convertTimeInForce request.timeInForce =
      ExchangeServer.convertTimeInForce request.timeInForce := rfl
  rw [ExchangeReplayer.orderOf, ExchangeServer.orderOf, hside, htype, htif]

/-- The record of a frame gives the replay the header and the body of the frame. -/
theorem applyRecord_record (frame : Frame) (replayer : ExchangeReplayer) :
    applyRecord frame.record replayer =
      if frame.header.type = .newOrder then applyNewOrder frame.body replayer.countRecord
      else if frame.header.type = .cancelOrder then applyCancelOrder frame.body replayer.countRecord
      else if frame.header.type = .replaceOrder then applyReplaceOrder frame.body replayer.countRecord
      else replayer.countRecord.countUnsupported := by
  have hhead : frame.record.take headerSize = encodeHeader frame.header :=
    List.take_left' (length_encodeHeader _)
  have hbody : frame.record.drop headerSize = frame.body :=
    List.drop_left' (length_encodeHeader _)
  have hlen : frame.record.length = headerSize + frame.header.bodySize.toNat := by
    rw [frame.record_length, frame.size]
  simp only [applyRecord, hhead, hbody, hlen, decodeHeader_encodeHeader frame.magic frame.version,
    ne_eq, not_true_eq_false, if_false]

/-! ## Agreement -/

/-- The journal of the server is these records, and their replay has its books. -/
structure Agrees (server : ExchangeServer) (records : List Bytes) : Prop where
  journal : server.journal = some (frames recordLengthSize records)
  replayable : ∀ record ∈ records, replayableSize record.length
  books : ∀ symbol, (applyRecords records .new).bookFor symbol = (server.instrumentFor symbol).book

section Steps

variable {server server' : ExchangeServer} {records : List Bytes} {socket : Socket} {frame : Frame}

theorem bookFor_store (replayer : ExchangeReplayer) (symbol symbol' : Bytes) (book : OrderBook) :
    (replayer.store symbol book).bookFor symbol' =
      if symbol' = symbol then book else replayer.bookFor symbol' := by
  rw [bookFor, store, lookup_insert_eq]
  split <;> rfl

theorem instrumentFor_committed (server : ExchangeServer) (frame : Frame) (symbol : Symbol)
    (instrument : InstrumentState) (risk : RiskEngine) (symbol' : Bytes) :
    (server.committed frame symbol instrument risk).instrumentFor symbol' =
      if symbol' = symbolToString symbol then instrument else server.instrumentFor symbol' := by
  rw [instrumentFor, findInstrument, committed, lookup_insert_eq]
  split <;> rfl

theorem applyRecords_singleton (record : Bytes) (replayer : ExchangeReplayer) :
    (applyRecords [record] replayer).books = (applyRecord record replayer).books := rfl

/-- A command that the server and the replay leave the same book for. -/
theorem Agrees.commit (h : Agrees server records) {symbol : Symbol} {instrument : InstrumentState}
    {risk : RiskEngine} {book : OrderBook} (hsize : replayableSize frame.record.length)
    (hstore : (applyRecord frame.record (applyRecords records .new)).books =
      (applyRecords records .new).books.insert (symbolToString symbol) book)
    (hbook : instrument.book = book) :
    Agrees (server.committed frame symbol instrument risk) (records ++ [frame.record]) where
  journal := by
    show journaled frame server.journal = _
    rw [h.journal, frames_append, frames_cons, frames_nil, List.append_nil]
    rfl
  replayable := by
    intro record hrecord
    rcases List.mem_append.mp hrecord with hrecord | hrecord
    · exact h.replayable record hrecord
    · rw [List.mem_singleton.mp hrecord]
      exact hsize
  books symbol' := by
    have hbooks : (applyRecords (records ++ [frame.record]) .new).books =
        ((applyRecords records .new).store (symbolToString symbol) book).books := by
      rw [applyRecords_append, applyRecords_singleton, hstore, store]
    rw [bookFor, hbooks, ← bookFor, bookFor_store, instrumentFor_committed, h.books]
    split
    · exact hbook.symm
    · rfl

theorem Agrees.placed (h : Agrees server records) {order : SetOrder} {request : NewOrderRequest}
    {trades : List Trade} {book : OrderBook} {snapshot : BookSnapshot}
    (hp : Placed socket frame server request trades book snapshot) :
    Agrees (server.committed frame request.symbol
      (server.placedSettled order socket request trades book).instrument
      (server.placedSettled order socket request trades book).riskEngine)
      (records ++ [frame.record]) := by
  let record : CommandRecord := ⟨frame.header, frame.body, frame.magic, frame.version, frame.size.symm,
    .inl ⟨hp.type, by rw [hp.decoded]; rfl⟩⟩
  refine h.commit record.replayable ?_ (settle_book ..)
  have hengine : processOrderInto (ExchangeReplayer.orderOf request)
      ((applyRecords records .new).countRecord.bookFor (symbolToString request.symbol)) =
        .returned trades book := by
    rw [orderOf_eq (decodeNewOrder_valid hp.decoded)]
    show processOrderInto _ ((applyRecords records .new).bookFor _) = _
    rw [h.books]
    exact hp.engine
  have hquantity : ¬ request.quantity > maximumQuantity := UInt64.not_lt.mpr hp.quantity
  rw [applyRecord_record, if_pos hp.type]
  simp only [applyNewOrder, hp.decoded, hquantity, hp.symbol, hengine, if_false]
  rfl

/-- The replay has a book for a symbol whose live book has orders. -/
theorem Agrees.lookup (h : Agrees server records) {symbol : Bytes} {instrument : InstrumentState}
    {orderId : OrderId} (hfound : server.findInstrument symbol = some instrument)
    (howned : server.ownsResting socket instrument orderId = true) :
    (applyRecords records .new).books.lookup symbol = some instrument.book := by
  have hbook := h.books symbol
  rw [bookFor, instrumentFor, hfound, Option.getD_some] at hbook
  cases hl : (applyRecords records .new).books.lookup symbol with
  | some book =>
    rw [hl] at hbook
    exact congrArg some hbook
  | none =>
    rw [hl] at hbook
    rw [ownsResting, ← hbook] at howned
    simp [OrderBook.findOrder, OrderBook.new] at howned

theorem Agrees.cancelled (h : Agrees server records) {request : CancelOrderRequest}
    {instrument : InstrumentState} {book : OrderBook} {snapshot : BookSnapshot} {risk : RiskEngine}
    {orderOwners : Finmap fun _ : OrderId => OrderOwner}
    (hp : Cancelled socket frame server request instrument book snapshot) :
    Agrees (server.committed frame request.symbol ⟨book, orderOwners⟩ risk)
      (records ++ [frame.record]) := by
  let record : CommandRecord := ⟨frame.header, frame.body, frame.magic, frame.version, frame.size.symm,
    .inr (.inl ⟨hp.type, by rw [hp.decoded]; rfl⟩)⟩
  refine h.commit record.replayable ?_ rfl
  have hsymbol := symbolToString_ne_nil (decodeCancelOrder_valid hp.decoded)
  have hlookup : (applyRecords records .new).countRecord.books.lookup
      (symbolToString request.symbol) = some instrument.book := h.lookup hp.found hp.owned
  have htype : frame.header.type ≠ .newOrder := by rw [hp.type]; decide
  rw [applyRecord_record, if_neg htype, if_pos hp.type]
  simp only [applyCancelOrder, hp.decoded, hsymbol, hlookup, hp.engine, if_false, Bool.not_true,
    Bool.false_eq_true]
  rfl

theorem Agrees.replaced (h : Agrees server records) {request : ReplaceOrderRequest}
    {instrument instrument' : InstrumentState} {trades : List Trade} {book : OrderBook}
    {snapshot : BookSnapshot} {risk : RiskEngine} (hbook : instrument'.book = book)
    (hp : Replaced socket frame server request instrument trades book snapshot) :
    Agrees (server.committed frame request.symbol instrument' risk) (records ++ [frame.record]) := by
  let record : CommandRecord := ⟨frame.header, frame.body, frame.magic, frame.version, frame.size.symm,
    .inr (.inr ⟨hp.type, by rw [hp.decoded]; rfl⟩)⟩
  refine h.commit record.replayable ?_ hbook
  have hsymbol := symbolToString_ne_nil (decodeReplaceOrder_valid hp.decoded).2
  have hlookup : (applyRecords records .new).countRecord.books.lookup
      (symbolToString request.symbol) = some instrument.book := h.lookup hp.found hp.owned
  have hquantity : ¬ request.newQuantity > maximumQuantity := UInt64.not_lt.mpr hp.quantity
  have hnew : frame.header.type ≠ .newOrder := by rw [hp.type]; decide
  have hcancel : frame.header.type ≠ .cancelOrder := by rw [hp.type]; decide
  rw [applyRecord_record, if_neg hnew, if_neg hcancel, if_pos hp.type]
  simp only [applyReplaceOrder, hp.decoded, hquantity, hsymbol, hlookup, replaceOrder, hp.engine,
    if_false, Bool.not_true, Bool.false_eq_true]
  rfl

/-- A handler appends one record that replays as it acted, or leaves journal and books alone. -/
theorem Agrees.handled (h : Agrees server records) {order : SetOrder} {emissions : List Emission}
    (hcase : Handled order socket frame server server' emissions) :
    ∃ records', Agrees server' records' := by
  cases hcase with
  | ignored => exact ⟨records, h⟩
  | rejected => exact ⟨records, h⟩
  | @turnedAway _ symbol =>
    refine ⟨records, h.journal, h.replayable, fun symbol' => ?_⟩
    rw [h.books, instrumentFor_made]
  | placed hp => exact ⟨_, h.placed hp⟩
  | cancelled hp => exact ⟨_, h.cancelled hp⟩
  | replaced hp =>
    refine ⟨_, h.replaced ?_ hp⟩
    rw [dropUnrested_book, replacedSettled, settle_book]

theorem Agrees.step (h : Agrees server records) (hbooks : server.BooksConsistent) {event : Event}
    (hstep : Step server event server') : ∃ records', Agrees server' records' := by
  cases hstep with
  | connect => exact ⟨records, h.journal, h.replayable, h.books⟩
  | disconnect => exact ⟨records, h.journal, h.replayable, h.books⟩
  | setGlobalKillSwitch => exact ⟨records, h.journal, h.replayable, h.books⟩
  | @frame server₁ _ _ emissions order _ hrun =>
    obtain ⟨records', h'⟩ := h.handled (handleMessage_cases hbooks hrun)
    obtain ⟨n, -, heq⟩ := emitAll_state emissions server₁
    rw [heq]
    exact ⟨records', h'.journal, h'.replayable, h'.books⟩

end Steps

/-- In every state of a run that started with an empty journal, replaying the journal succeeds and
gives each symbol the book the server has for it. -/
theorem replay_agrees (limits : RiskLimits) (file : Option Bytes) (hempty : file.getD [] = [])
    {started server : ExchangeServer} {log : List Event}
    (hstart : start limits (some file) = some started) (hrun : Run Step started log server) :
    ∃ journal replayer, server.journal = some journal ∧ replay (some journal) = (true, replayer) ∧
      ∀ symbol, replayer.bookFor symbol = (server.instrumentFor symbol).book := by
  have hagrees : ∃ records, Agrees started records := by
    refine ⟨[], ?_⟩
    have hrecover : recoverFromJournal file = some ∅ := by
      cases file with
      | none => rfl
      | some bytes =>
        rw [Option.getD_some] at hempty
        rw [hempty]
        rfl
    simp only [start, hrecover, hempty, Option.bind_eq_bind, Option.bind_some] at hstart
    cases hstart
    exact ⟨rfl, by simp, fun symbol => by
      simp [instrumentFor, findInstrument, lookup_mapValues]; rfl⟩
  have hinv : server.BooksConsistent ∧ ∃ records, Agrees server records := by
    refine hrun.invariant (P := fun server => server.BooksConsistent ∧ ∃ records, Agrees server records)
      ⟨start_booksConsistent hstart, hagrees⟩ ?_
    rintro server₁ event server₂ ⟨hbooks, records, h⟩ hstep
    exact ⟨hstep.booksConsistent hbooks, h.step hbooks hstep⟩
  obtain ⟨-, records, h⟩ := hinv
  have hsplits : JournalSplits (frames recordLengthSize records) records [] :=
    .of_frames (by decide) fun record hrecord =>
      ⟨h.replayable record hrecord, replayable_lt (h.replayable record hrecord)⟩
  exact ⟨_, _, h.journal, replay_of_splits hsplits, h.books⟩

/-- A session connects to a server with an empty journal and buys 5 at 100; the replay finds it. -/
theorem replay_agrees_order :
    ∃ server log journal replayer,
      Run Step { riskEngine := { limits := {} }, journal := some [] } log server ∧
      server.journal = some journal ∧ replay (some journal) = (true, replayer) ∧
      (replayer.bookFor [84, 69, 83, 84]).queueAt .buy 100 =
        [⟨7, .buy, .limit, .goodTillCancel, 100, 5, 5, 1⟩] := by
  obtain ⟨⟨server, emissions⟩, hrun, hqueue⟩ : ∃ result,
      handleMessage .dedup 4
        (newOrderFrame ⟨7, 1, 100, 5, .buy, .limit, .goodTillCancel, defaultSymbol⟩)
        (registerClient 4 { riskEngine := { limits := {} }, journal := some [] }) = .ok result ∧
      (result.1.instrumentFor [84, 69, 83, 84]).book.queueAt .buy 100 =
        [⟨7, .buy, .limit, .goodTillCancel, 100, 5, 5, 1⟩] := ⟨_, by rfl, by decide⟩
  have run := Run.snoc (.snoc (.nil _) (Step.connect (by decide) (by decide)))
    (Step.frame .dedup (by decide) hrun)
  obtain ⟨journal, replayer, hjournal, hreplay, hbooks⟩ := replay_agrees {} none rfl rfl run
  refine ⟨_, _, journal, replayer, run, hjournal, hreplay, ?_⟩
  obtain ⟨n, -, hstate⟩ := emitAll_state emissions server
  rw [hbooks, hstate]
  exact hqueue

end ExchangeLab

import ExchangeLab.Server.Handling
import ExchangeLab.Recovery.Appendable

/-!
# ExchangeLab.Server.Books

The books of a server are consistent in every state of every run, whether it started empty or from
a journal.

* `applyRecord_consistent`: replay keeps its books consistent, whatever the record holds.
* `Handled.booksConsistent`: so does every handler.
* `booksConsistent_run`: the two together, for runs from any start.
-/

namespace ExchangeLab

open Wire Protocol OrderBook MatchingEngine Container ExchangeReplayer ExchangeServer Transition

/-! ## Replayed books -/

def Books.AllConsistent (books : Books) : Prop :=
  ∀ symbol book, books.lookup symbol = some book → Consistent book

theorem Books.AllConsistent.getD {books : Books} (h : books.AllConsistent) (symbol : Bytes) :
    Consistent ((books.lookup symbol).getD .new) := by
  cases hl : books.lookup symbol with
  | none => exact consistent_new
  | some book => exact h symbol book hl

theorem Books.AllConsistent.insert {books : Books} (h : books.AllConsistent) (symbol : Bytes)
    {book : OrderBook} (hc : Consistent book) : Books.AllConsistent (books.insert symbol book) := by
  intro symbol' book' hl
  rw [lookup_insert_eq] at hl
  split at hl
  · cases hl
    exact hc
  · exact h symbol' book' hl

section Replay

variable {replayer : ExchangeReplayer}

theorem state_of_returned {S α : Type} {out : Outcome S α} {a : α} {s : S} {P : S → Prop}
    (h : out = .returned a s) (hp : P out.state) : P s := by rw [h] at hp; exact hp

theorem state_of_thrown {S α : Type} {out : Outcome S α} {fault : Fault} {s : S} {P : S → Prop}
    (h : out = .thrown fault s) (hp : P out.state) : P s := by rw [h] at hp; exact hp

theorem applyNewOrder_consistent (h : replayer.books.AllConsistent) (body : Bytes) :
    (applyNewOrder body replayer).books.AllConsistent := by
  unfold applyNewOrder
  split
  · exact h
  rename_i request _
  split
  · exact h
  simp only
  split
  · exact h
  have hc := processOrderInto_consistent (h.getD (symbolToString request.symbol))
    (ExchangeReplayer.orderOf request)
  split
  · rename_i hrun
    exact h.insert _ (state_of_thrown hrun hc)
  · rename_i hrun
    exact h.insert _ (state_of_returned hrun hc)

theorem applyCancelOrder_consistent (h : replayer.books.AllConsistent) (body : Bytes) :
    (applyCancelOrder body replayer).books.AllConsistent := by
  unfold applyCancelOrder
  split
  · exact h
  rename_i request _
  simp only
  split
  · exact h
  split
  · exact h
  rename_i book hbook
  have hc := EngineCall.consistent (h _ _ hbook) (.cancelOrder request.orderId)
  split
  · rename_i hrun
    exact h.insert _ (state_of_thrown hrun hc)
  · rename_i hrun
    split <;> exact h.insert _ (state_of_returned hrun hc)

theorem applyReplaceOrder_consistent (h : replayer.books.AllConsistent) (body : Bytes) :
    (applyReplaceOrder body replayer).books.AllConsistent := by
  unfold applyReplaceOrder
  split
  · exact h
  rename_i request _
  split
  · exact h
  simp only
  split
  · exact h
  split
  · exact h
  rename_i book hbook
  have hc := EngineCall.consistent (h _ _ hbook) (.replaceOrder request.orderId request.newPrice
    request.newQuantity.toUInt32 request.timestamp)
  split
  · rename_i hrun
    exact h.insert _ (state_of_thrown hrun hc)
  · rename_i hrun
    split <;> exact h.insert _ (state_of_returned hrun hc)

theorem applyRecord_consistent (h : replayer.books.AllConsistent) (record : Bytes) :
    (applyRecord record replayer).books.AllConsistent := by
  have h' : replayer.countRecord.books.AllConsistent := h
  simp only [applyRecord]
  split
  · exact h
  split
  · exact h
  split
  · exact applyNewOrder_consistent h' _
  split
  · exact applyCancelOrder_consistent h' _
  split
  · exact applyReplaceOrder_consistent h' _
  · exact h

theorem applyRecords_consistent (h : replayer.books.AllConsistent) (records : List Bytes) :
    (applyRecords records replayer).books.AllConsistent := by
  show (records.foldl _ replayer).books.AllConsistent
  induction records generalizing replayer with
  | nil => exact h
  | cons record records ih => exact ih (applyRecord_consistent h record)

theorem recoverFromJournal_consistent {file : Option Bytes} {books : Books}
    (h : recoverFromJournal file = some books) : books.AllConsistent := by
  unfold recoverFromJournal at h
  split at h
  · cases h
    intro symbol book hl
    simp at hl
  · cases h
    intro symbol book hl
    simp at hl
  · split at h
    · cases h
    · rename_i replayer hreplay
      obtain ⟨records, _, _, heq⟩ := splits_of_replay (by rw [hreplay])
      rw [hreplay] at heq
      cases h
      rw [releaseOrderBooks, (Prod.mk.inj heq).2]
      exact applyRecords_consistent (fun symbol book hl => by simp [ExchangeReplayer.new] at hl) records

end Replay

/-! ## The books of a run -/

namespace ExchangeServer

variable {server server' : ExchangeServer}

theorem instrumentFor_insert {x : Bytes} {instrument : InstrumentState}
    (h : server'.instruments = server.instruments.insert x instrument) (y : Bytes) :
    server'.instrumentFor y = if y = x then instrument else server.instrumentFor y := by
  rw [instrumentFor, findInstrument, h, lookup_insert_eq]
  split <;> rfl

/-- To make the instrument of a symbol changes no symbol's. -/
theorem instrumentFor_made (server : ExchangeServer) (x y : Bytes) :
    (server.storeInstrument x (server.instrumentFor x)).instrumentFor y = server.instrumentFor y := by
  rw [instrumentFor_insert rfl]
  split
  · rename_i hy
    rw [hy]
  · rfl

theorem BooksConsistent.instrumentFor (h : server.BooksConsistent) (symbol : Bytes) :
    Consistent (server.instrumentFor symbol).book := by
  unfold ExchangeServer.instrumentFor findInstrument
  cases hl : server.instruments.lookup symbol with
  | none => exact consistent_new
  | some instrument => exact h symbol instrument hl

theorem BooksConsistent.insert (h : server.BooksConsistent) {symbol : Bytes}
    {instrument : InstrumentState} (hc : Consistent instrument.book)
    (hinsert : server'.instruments = server.instruments.insert symbol instrument) :
    server'.BooksConsistent := by
  intro symbol' instrument' hl
  rw [hinsert, lookup_insert_eq] at hl
  split at hl
  · cases hl
    exact hc
  · exact h symbol' instrument' hl

theorem Handled.booksConsistent {order : SetOrder} {socket : Socket} {frame : Frame}
    {emissions : List Emission} (hbooks : server.BooksConsistent)
    (h : Handled order socket frame server server' emissions) : server'.BooksConsistent := by
  cases h with
  | ignored => exact hbooks
  | rejected => exact hbooks
  | turnedAway => exact hbooks.insert (hbooks.instrumentFor _) rfl
  | placed h =>
    refine hbooks.insert ?_ rfl
    rw [placedSettled, settle_book]
    exact state_of_returned h.engine (processOrderInto_consistent (hbooks.instrumentFor _) _)
  | cancelled h =>
    refine hbooks.insert ?_ rfl
    exact state_of_returned h.engine
      (EngineCall.consistent (hbooks _ _ h.found) (.cancelOrder _))
  | replaced h =>
    refine hbooks.insert ?_ rfl
    rw [dropUnrested_book, replacedSettled, settle_book]
    exact state_of_returned h.engine
      (EngineCall.consistent (hbooks _ _ h.found) (.replaceOrder _ _ _ _))

theorem Step.booksConsistent {event : Event} (hbooks : server.BooksConsistent)
    (h : Step server event server') : server'.BooksConsistent := by
  cases h with
  | connect => exact hbooks
  | disconnect => exact hbooks
  | setGlobalKillSwitch => exact hbooks
  | @frame server₁ _ _ emissions order _ hrun =>
    have hcases := (handleMessage_cases hbooks hrun).booksConsistent hbooks
    obtain ⟨n, -, heq⟩ := emitAll_state emissions server₁
    rw [heq]
    exact hcases

theorem start_booksConsistent {limits : RiskLimits} {file : Option (Option Bytes)}
    (h : start limits file = some server) : server.BooksConsistent := by
  unfold start at h
  split at h
  · cases h
    intro symbol instrument hl
    simp at hl
  · obtain ⟨books, hrecover, heq⟩ := Option.bind_eq_some_iff.mp h
    cases heq
    intro symbol instrument hl
    simp only [lookup_mapValues, Option.map_eq_some_iff] at hl
    obtain ⟨book, hbook, rfl⟩ := hl
    exact recoverFromJournal_consistent hrecover symbol book hbook

theorem booksConsistent_run {limits : RiskLimits} {file : Option (Option Bytes)}
    {log : List Event} (hstart : start limits file = some server) (h : Run Step server log server') :
    server'.BooksConsistent :=
  h.invariant (start_booksConsistent hstart) fun _ _ _ hbooks hstep => hstep.booksConsistent hbooks

end ExchangeServer

end ExchangeLab

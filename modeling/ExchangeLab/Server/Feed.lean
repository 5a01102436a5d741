import ExchangeLab.Server.Sequence

/-!
# ExchangeLab.Server.Feed

The market data that the sessions' threads publish, against the books. What a handler publishes is
computed under `engine_mutex_` and numbered after it is released, so a thread may number the book as
it was after a thread that came to the book later has numbered its own.

* `Handled.published`, `Handled.unpublished`: what an engine section publishes is its book as it
  leaves it; the books it publishes nothing of are as they were.
* `InLine`: publications of one symbol come in the order of the engine sections they are from.
* `published_in_order`: where no send overtakes an earlier engine section on its symbol, the last
  book update shows the book, and nothing takes an order before it is added.
* `published_out_of_order`: a run in which one does.
-/

namespace ExchangeLab

open Wire Protocol OrderBook MatchingEngine Container ExchangeServer Transition

/-- The symbol that market data is about. -/
def Emission.marketSymbol : Emission → Option Bytes
  | .orderResponse .. | .tradeExecution .. => none
  | .bookUpdate snapshot => some (symbolToString snapshot.symbol)
  | .level3AddOrder event => some (symbolToString event.symbol)
  | .level3OrderExecuted event => some (symbolToString event.symbol)
  | .level3OrderDeleted event => some (symbolToString event.symbol)

/-- An execution or the deletion of an order that was added. -/
def Emission.Takes (added : Level3AddOrder) : Emission → Prop
  | .level3OrderExecuted event =>
    symbolToString event.symbol = symbolToString added.symbol ∧
      (event.buyOrderId = added.orderId ∨ event.sellOrderId = added.orderId)
  | .level3OrderDeleted event =>
    symbolToString event.symbol = symbolToString added.symbol ∧ event.orderId = added.orderId
  | _ => False

def ExchangeServer.bookOf (server : ExchangeServer) (symbol : Bytes) : OrderBook :=
  (server.instrumentFor symbol).book

structure Publication where
  /-- How many engine sections came before the one it is from. -/
  command : Nat
  sent : Sent

/-- `Concurrent` with the order of the engine sections and of what is sent. -/
structure Feed where
  concurrent : Concurrent
  commands : Nat := 0
  /-- The engine section that the thread of a session sends for. -/
  command : Socket → Nat := fun _ => 0
  published : List Publication := []

namespace Feed

def after (f : Feed) (label : Concurrent.Label) (c : Concurrent) : Feed :=
  match label with
  | .handle socket _ _ =>
    { f with
      concurrent := c
      commands := f.commands + 1
      command := Function.update f.command socket f.commands }
  | .send socket sent =>
    { f with
      concurrent := c
      published := f.published ++ sent.map fun message => ⟨f.command socket, message⟩ }
  | _ => { f with concurrent := c }

inductive Step : Feed → Concurrent.Label → Feed → Prop
  | mk {f : Feed} {label : Concurrent.Label} {c : Concurrent}
      (hstep : Concurrent.Step f.concurrent label c) : Step f label (f.after label c)

/-- Every thread has sent what it had to send. -/
def Finished (f : Feed) : Prop := ∀ socket, f.concurrent.sending socket = []

structure FollowsBooks (f : Feed) : Prop where
  /-- The book update with the highest number shows the book. -/
  current : ∀ p ∈ f.published, ∀ snapshot, p.sent.emission = .bookUpdate snapshot →
    (∀ q ∈ f.published, ∀ other, q.sent.emission = .bookUpdate other →
      symbolToString other.symbol = symbolToString snapshot.symbol →
      q.sent.sequenceNumber ≤ p.sent.sequenceNumber) →
    captureBookSnapshot snapshot.symbol
      (f.concurrent.server.bookOf (symbolToString snapshot.symbol)) = .ok snapshot
  /-- A book without one is as it was made. -/
  untouched : ∀ symbol, (∀ p ∈ f.published, ∀ snapshot, p.sent.emission = .bookUpdate snapshot →
    symbolToString snapshot.symbol ≠ symbol) → f.concurrent.server.bookOf symbol = .new
  /-- What a later engine section takes has been added before. -/
  added : ∀ p ∈ f.published, ∀ event, p.sent.emission = .level3AddOrder event →
    ∀ q ∈ f.published, q.sent.emission.Takes event → p.command < q.command →
    p.sent.sequenceNumber < q.sent.sequenceNumber

/-- The thread is about to send market data of a symbol, of which another has still some from an
earlier engine section. -/
def Overtakes (f : Feed) (socket : Socket) : Prop :=
  ∃ emission rest symbol, f.concurrent.sending socket = emission :: rest ∧
    emission.marketSymbol = some symbol ∧
    ∃ other, ∃ waiting ∈ f.concurrent.sending other, waiting.marketSymbol = some symbol ∧
      f.command other < f.command socket

def InOrder (f : Feed) : Concurrent.Label → Prop
  | .send socket _ => ¬f.Overtakes socket
  | _ => True

def OrderlyStep (f : Feed) (label : Concurrent.Label) (f' : Feed) : Prop :=
  Step f label f' ∧ f.InOrder label

end Feed

/-! ## What an engine section publishes -/

namespace ExchangeServer

section Published

variable {order : SetOrder} {socket : Socket} {frame : Frame} {server server' : ExchangeServer}
  {emissions : List Emission} {snapshot : BookSnapshot}

theorem snapshot_symbol {symbol : Symbol} {book : OrderBook}
    (h : captureBookSnapshot symbol book = .ok snapshot) : snapshot.symbol = symbol := by
  simp only [captureBookSnapshot, bind_eq_ok, pure_eq_ok] at h
  obtain ⟨-, -, -, -, rfl⟩ := h
  rfl

theorem storeInstrument_bookOf (symbol other : Bytes) (server : ExchangeServer) :
    (server.storeInstrument symbol (server.instrumentFor symbol)).bookOf other =
      server.bookOf other := by
  by_cases h : other = symbol
  · subst h
    simp [bookOf, storeInstrument, instrumentFor, findInstrument]
  · simp [bookOf, storeInstrument, instrumentFor, findInstrument, Finmap.lookup_insert_of_ne _ h]

theorem committed_bookOf (frame : Frame) (symbol : Symbol) (instrument : InstrumentState)
    (risk : RiskEngine) (server : ExchangeServer) (other : Bytes) :
    (server.committed frame symbol instrument risk).bookOf other =
      if other = symbolToString symbol then instrument.book else server.bookOf other := by
  split
  · rename_i h
    subst h
    simp [bookOf, committed, instrumentFor, findInstrument]
  · rename_i h
    simp [bookOf, committed, instrumentFor, findInstrument, Finmap.lookup_insert_of_ne _ h]

/-- A book is published as it is left, and one that is not is left as it was. -/
structure Publishes (server : ExchangeServer) (emissions : List Emission)
    (server' : ExchangeServer) : Prop where
  published : ∀ snapshot, .bookUpdate snapshot ∈ emissions →
    captureBookSnapshot snapshot.symbol (server'.bookOf (symbolToString snapshot.symbol)) =
      .ok snapshot
  unpublished : ∀ symbol, (∀ snapshot, .bookUpdate snapshot ∈ emissions →
    symbolToString snapshot.symbol ≠ symbol) → server'.bookOf symbol = server.bookOf symbol

theorem Publishes.nothing (hmem : ∀ snapshot, .bookUpdate snapshot ∉ emissions)
    (hbooks : ∀ symbol, server'.bookOf symbol = server.bookOf symbol) :
    Publishes server emissions server' :=
  ⟨fun snapshot h => absurd h (hmem snapshot), fun symbol _ => hbooks symbol⟩

theorem committed_publishes {symbol : Symbol} {instrument : InstrumentState} {risk : RiskEngine}
    (hcaptured : captureBookSnapshot symbol instrument.book = .ok snapshot)
    (hmem : ∀ other, .bookUpdate other ∈ emissions ↔ other = snapshot) :
    Publishes server emissions (server.committed frame symbol instrument risk) where
  published := by
    intro other hother
    rw [(hmem other).mp hother, snapshot_symbol hcaptured, committed_bookOf, if_pos rfl]
    exact hcaptured
  unpublished := by
    intro other hother
    have hne := hother snapshot ((hmem snapshot).mpr rfl)
    rw [snapshot_symbol hcaptured] at hne
    rw [committed_bookOf, if_neg (Ne.symm hne)]

theorem Handled.publishes (h : Handled order socket frame server server' emissions) :
    Publishes server emissions server' := by
  cases h with
  | ignored => exact .nothing (fun _ => List.not_mem_nil) fun _ => rfl
  | rejected => exact .nothing (by simp) fun _ => rfl
  | turnedAway orderId hsymbol =>
    exact .nothing (by simp) fun other => storeInstrument_bookOf _ other server
  | @placed request trades book snapshot h =>
    have hcaptured : captureBookSnapshot request.symbol
        (server.placedSettled order socket request trades book).instrument.book = .ok snapshot := by
      rw [placedSettled, settle_book]
      exact h.captured
    exact committed_publishes hcaptured fun other => by
      simp [newOrderEmissions, executionDeliveries]
  | cancelled h => exact committed_publishes h.captured fun other => by simp
  | @replaced request instrument trades book snapshot h =>
    have hcaptured : captureBookSnapshot request.symbol (dropUnrested request.orderId
        (server.replacedSettled order socket request instrument trades book)).book =
          .ok snapshot := by
      rw [dropUnrested_book, replacedSettled, settle_book]
      exact h.captured
    exact committed_publishes hcaptured fun other => by
      simp [replaceOrderEmissions, executionDeliveries]

end Published

end ExchangeServer

namespace Feed

variable {limits : RiskLimits} {server₀ : ExchangeServer} {labels : List Concurrent.Label}
  {label : Concurrent.Label} {f f' : Feed} {socket : Socket} {c : Concurrent}

/-- Published, or still to be. -/
def Produced (f : Feed) (command : Nat) (emission : Emission) : Prop :=
  (∃ p ∈ f.published, p.command = command ∧ p.sent.emission = emission) ∨
    ∃ socket, emission ∈ f.concurrent.sending socket ∧ f.command socket = command

structure InLine (f : Feed) : Prop where
  numbered : f.published.Pairwise fun p q => p.sent.sequenceNumber < q.sent.sequenceNumber
  below : ∀ p ∈ f.published, p.sent.sequenceNumber < f.concurrent.server.nextSequenceNumber
  begun : ∀ command emission, f.Produced command emission → command < f.commands
  lined : f.published.Pairwise fun p q => ∀ symbol, p.sent.emission.marketSymbol = some symbol →
    q.sent.emission.marketSymbol = some symbol → p.command ≤ q.command
  waiting : ∀ p ∈ f.published, ∀ socket, ∀ emission ∈ f.concurrent.sending socket, ∀ symbol,
    p.sent.emission.marketSymbol = some symbol → emission.marketSymbol = some symbol →
    p.command ≤ f.command socket
  /-- The last book update that was produced shows the book. -/
  latest : ∀ command snapshot, f.Produced command (.bookUpdate snapshot) →
    (∀ command' other, f.Produced command' (.bookUpdate other) →
      symbolToString other.symbol = symbolToString snapshot.symbol → command' ≤ command) →
    captureBookSnapshot snapshot.symbol
      (f.concurrent.server.bookOf (symbolToString snapshot.symbol)) = .ok snapshot
  untouched : ∀ symbol, (∀ command snapshot, f.Produced command (.bookUpdate snapshot) →
    symbolToString snapshot.symbol ≠ symbol) → f.concurrent.server.bookOf symbol = .new

/-! ## The order of the publications -/

theorem inLine_start (hstart : start limits none = some server₀) :
    InLine { concurrent := ⟨server₀, fun _ => []⟩ } := by
  have hnone : ∀ {command emission},
      ¬Produced { concurrent := ⟨server₀, fun _ => []⟩ } command emission := by
    rintro command emission (⟨p, hp, -⟩ | ⟨socket, hmem, -⟩)
    · exact List.not_mem_nil hp
    · exact List.not_mem_nil hmem
  cases hstart
  exact ⟨.nil, fun _ hp => absurd hp List.not_mem_nil, fun _ _ h => absurd h hnone, .nil,
    fun _ hp => absurd hp List.not_mem_nil, fun _ _ h => absurd h hnone, fun _ _ => rfl⟩

/-- A step of the accepting thread, or of a session that leaves. -/
theorem InLine.quiet (h : InLine f) (hsending : c.sending = f.concurrent.sending)
    (hcounter : c.server.nextSequenceNumber = f.concurrent.server.nextSequenceNumber)
    (hbooks : ∀ symbol, c.server.bookOf symbol = f.concurrent.server.bookOf symbol) :
    InLine { f with concurrent := c } := by
  have hproduced : ∀ {command emission}, Produced { f with concurrent := c } command emission ↔
      f.Produced command emission := by
    intro command emission
    simp only [Produced, hsending]
  refine ⟨h.numbered, ?_, ?_, h.lined, ?_, ?_, ?_⟩
  · exact fun p hp => hcounter ▸ h.below p hp
  · exact fun command emission hmade => h.begun command emission (hproduced.mp hmade)
  · exact fun p hp socket emission hmem => h.waiting p hp socket emission (hsending ▸ hmem)
  · intro command snapshot hmade hlast
    rw [hbooks]
    exact h.latest command snapshot (hproduced.mp hmade) fun command' other hother =>
      hlast command' other (hproduced.mpr hother)
  · intro symbol hnone
    rw [hbooks]
    exact h.untouched symbol fun command snapshot hmade =>
      hnone command snapshot (hproduced.mpr hmade)

section Handle

variable {order : SetOrder} {frame : Frame} {server₁ : ExchangeServer} {emissions : List Emission}

/-- After an engine section. -/
def handled (socket : Socket) (frame : Frame) (server₁ : ExchangeServer)
    (emissions : List Emission) (f : Feed) : Feed :=
  f.after (.handle socket frame emissions)
    ⟨server₁, Function.update f.concurrent.sending socket emissions⟩

theorem handled_self :
    (f.handled socket frame server₁ emissions).concurrent.sending socket = emissions ∧
      (f.handled socket frame server₁ emissions).command socket = f.commands :=
  ⟨Function.update_self .., Function.update_self ..⟩

theorem handled_other {other : Socket} (h : other ≠ socket) :
    (f.handled socket frame server₁ emissions).concurrent.sending other =
      f.concurrent.sending other ∧
    (f.handled socket frame server₁ emissions).command other = f.command other :=
  ⟨Function.update_of_ne h .., Function.update_of_ne h ..⟩

theorem produced_handled (hidle : f.concurrent.sending socket = []) {command : Nat}
    {emission : Emission} :
    (f.handled socket frame server₁ emissions).Produced command emission ↔
      f.Produced command emission ∨ emission ∈ emissions ∧ command = f.commands := by
  constructor
  · rintro (hpublished | ⟨other, hmem, hcommand⟩)
    · exact .inl (.inl hpublished)
    · by_cases hother : other = socket
      · rw [hother, handled_self.1] at hmem
        rw [hother, handled_self.2] at hcommand
        exact .inr ⟨hmem, hcommand.symm⟩
      · rw [(handled_other hother).1] at hmem
        rw [(handled_other hother).2] at hcommand
        exact .inl (.inr ⟨other, hmem, hcommand⟩)
  · rintro ((hpublished | ⟨other, hmem, hcommand⟩) | ⟨hmem, hcommand⟩)
    · exact .inl hpublished
    · have hother : other ≠ socket := by
        rintro rfl
        rw [hidle] at hmem
        cases hmem
      refine .inr ⟨other, ?_, ?_⟩
      · rw [(handled_other hother).1]
        exact hmem
      · rw [(handled_other hother).2, hcommand]
    · refine .inr ⟨socket, ?_, ?_⟩
      · rw [handled_self.1]
        exact hmem
      · rw [handled_self.2, hcommand]

/-- What an engine section produces comes after all that was. -/
theorem InLine.handle (h : InLine f) (hidle : f.concurrent.sending socket = [])
    (hcounter : server₁.nextSequenceNumber = f.concurrent.server.nextSequenceNumber)
    (hpublishes : Publishes f.concurrent.server emissions server₁) :
    InLine (f.handled socket frame server₁ emissions) where
  numbered := h.numbered
  below := fun p hp => (h.below p hp).trans_eq hcounter.symm
  begun := by
    intro command emission hmade
    rcases (produced_handled hidle).mp hmade with hold | ⟨-, rfl⟩
    · exact Nat.lt_succ_of_lt (h.begun command emission hold)
    · exact Nat.lt_succ_self _
  lined := h.lined
  waiting := by
    intro p hp other emission hmem symbol hsymbol hsymbol'
    by_cases hother : other = socket
    · rw [hother, handled_self.2]
      exact Nat.le_of_lt (h.begun _ _ (.inl ⟨p, hp, rfl, rfl⟩))
    · rw [(handled_other hother).1] at hmem
      rw [(handled_other hother).2]
      exact h.waiting p hp other emission hmem symbol hsymbol hsymbol'
  latest := by
    intro command snapshot hmade hlast
    by_cases hnew : .bookUpdate snapshot ∈ emissions
    · exact hpublishes.published snapshot hnew
    · have hold := ((produced_handled hidle).mp hmade).resolve_right fun h => hnew h.1
      -- a newer one of its symbol would be later
      have hkept : ∀ other, .bookUpdate other ∈ emissions →
          symbolToString other.symbol ≠ symbolToString snapshot.symbol := by
        intro other hother hsymbol
        have hmade' : (f.handled socket frame server₁ emissions).Produced f.commands
            (.bookUpdate other) := (produced_handled hidle).mpr (.inr ⟨hother, rfl⟩)
        exact Nat.not_lt.mpr (hlast f.commands other hmade' hsymbol) (h.begun command _ hold)
      refine (congrArg _ (hpublishes.unpublished _ hkept)).trans ?_
      exact h.latest command snapshot hold fun command' other hother =>
        hlast command' other ((produced_handled hidle).mpr (.inl hother))
  untouched := by
    intro symbol hnone
    refine (hpublishes.unpublished symbol fun snapshot hmem => ?_).trans ?_
    · exact hnone _ snapshot ((produced_handled hidle).mpr (.inr ⟨hmem, rfl⟩))
    · exact h.untouched symbol fun command snapshot hold =>
        hnone command snapshot ((produced_handled hidle).mpr (.inl hold))

end Handle

section Send

variable {emission : Emission} {rest : List Emission}

/-- After a send. -/
def sentNext (socket : Socket) (emission : Emission) (rest : List Emission) (f : Feed) : Feed :=
  f.after (.send socket (emit emission f.concurrent.server).2)
    ⟨(emit emission f.concurrent.server).1, Function.update f.concurrent.sending socket rest⟩

theorem sentNext_bookOf (symbol : Bytes) :
    (f.sentNext socket emission rest).concurrent.server.bookOf symbol =
      f.concurrent.server.bookOf symbol := by
  obtain ⟨n, -, heq⟩ := emit_state emission f.concurrent.server
  exact (congrArg (fun server : ExchangeServer => server.bookOf symbol) heq).trans rfl

/-- A message that is sent gets the next number; one without an address is dropped. -/
theorem sentNext_published :
    emission.unaddressed = true ∧
      (f.sentNext socket emission rest).published = f.published ∧
      (f.sentNext socket emission rest).concurrent.server = f.concurrent.server ∨
    emission.unaddressed = false ∧ ∃ message : Sent,
      message.sequenceNumber = f.concurrent.server.nextSequenceNumber ∧
      message.emission = emission ∧
      (f.sentNext socket emission rest).published =
        f.published ++ [⟨f.command socket, message⟩] ∧
      (f.sentNext socket emission rest).concurrent.server.nextSequenceNumber =
        f.concurrent.server.nextSequenceNumber + 1 := by
  cases hunaddressed : emission.unaddressed with
  | true =>
    refine .inl ⟨rfl, ?_, ?_⟩
    · simp [sentNext, after, emit, hunaddressed]
    · simp [sentNext, after, emit, hunaddressed]
  | false =>
    let number := f.concurrent.server.nextSequenceNumber
    let message : Sent := ⟨number, emission, f.concurrent.server.recipients emission,
      emission.message (UInt64.ofNat number)⟩
    refine .inr ⟨rfl, message, rfl, rfl, ?_, ?_⟩
    · simp [sentNext, after, emit, hunaddressed, message, number]
    · simp [sentNext, after, emit, hunaddressed]

theorem sentNext_sending {other : Socket} {waiting : Emission}
    (hnext : f.concurrent.sending socket = emission :: rest)
    (h : waiting ∈ (f.sentNext socket emission rest).concurrent.sending other) :
    waiting ∈ f.concurrent.sending other := by
  by_cases hother : other = socket
  · subst hother
    rw [hnext]
    refine List.mem_cons_of_mem _ ?_
    rwa [show (f.sentNext other emission rest).concurrent.sending other = rest from
      Function.update_self ..] at h
  · rwa [show (f.sentNext socket emission rest).concurrent.sending other =
      f.concurrent.sending other from Function.update_of_ne hother ..] at h

theorem of_produced_sentNext {command : Nat} {made : Emission}
    (hnext : f.concurrent.sending socket = emission :: rest)
    (h : (f.sentNext socket emission rest).Produced command made) : f.Produced command made := by
  rcases h with ⟨p, hp, hcommand, hmade⟩ | ⟨other, hmem, hcommand⟩
  · rcases sentNext_published with ⟨-, hsame, -⟩ | ⟨-, message, -, hemission, hpublished, -⟩
    · rw [hsame] at hp
      exact .inl ⟨p, hp, hcommand, hmade⟩
    · rw [hpublished] at hp
      rcases List.mem_append.mp hp with hp | hp
      · exact .inl ⟨p, hp, hcommand, hmade⟩
      · rw [List.mem_singleton.mp hp] at hcommand hmade
        refine .inr ⟨socket, ?_, hcommand⟩
        rw [hnext, ← hmade, hemission]
        exact List.mem_cons_self
  · exact .inr ⟨other, sentNext_sending hnext hmem, hcommand⟩

theorem produced_sentNext {command : Nat} {made : Emission}
    (hnext : f.concurrent.sending socket = emission :: rest) (hmade : made.unaddressed = false)
    (h : f.Produced command made) : (f.sentNext socket emission rest).Produced command made := by
  rcases h with ⟨p, hp, hcommand, heq⟩ | ⟨other, hmem, hcommand⟩
  · exact .inl ⟨p, List.mem_append_left _ hp, hcommand, heq⟩
  · by_cases hother : other = socket
    · subst hother
      rw [hnext] at hmem
      rcases List.mem_cons.mp hmem with rfl | hrest
      · rcases sentNext_published with ⟨hdropped, -⟩ | ⟨-, message, -, hemission, hpublished, -⟩
        · rw [hmade] at hdropped
          cases hdropped
        · refine .inl ⟨⟨f.command other, message⟩, ?_, hcommand, hemission⟩
          rw [hpublished]
          exact List.mem_append_right _ (List.mem_singleton_self _)
      · refine .inr ⟨other, ?_, hcommand⟩
        rwa [show (f.sentNext other emission rest).concurrent.sending other = rest from
          Function.update_self ..]
    · refine .inr ⟨other, ?_, hcommand⟩
      rwa [show (f.sentNext socket emission rest).concurrent.sending other =
        f.concurrent.sending other from Function.update_of_ne hother ..]

/-- A message that does not overtake one from an earlier engine section comes after those. -/
theorem InLine.send (h : InLine f) (hnext : f.concurrent.sending socket = emission :: rest)
    (horder : ¬f.Overtakes socket) : InLine (f.sentNext socket emission rest) where
  numbered := by
    rcases sentNext_published with ⟨-, hsame, -⟩ | ⟨-, message, hnumber, -, hpublished, -⟩
    · rw [hsame]
      exact h.numbered
    · rw [hpublished, List.pairwise_append]
      refine ⟨h.numbered, List.pairwise_singleton _ _, fun p hp q hq => ?_⟩
      rw [List.mem_singleton.mp hq, hnumber]
      exact h.below p hp
  below := by
    intro p hp
    rcases sentNext_published with
      ⟨-, hsame, hserver⟩ | ⟨-, message, hnumber, -, hpublished, hcounter⟩
    · rw [hsame] at hp
      rw [hserver]
      exact h.below p hp
    · rw [hpublished] at hp
      rw [hcounter]
      rcases List.mem_append.mp hp with hp | hp
      · exact Nat.lt_succ_of_lt (h.below p hp)
      · rw [List.mem_singleton.mp hp, hnumber]
        exact Nat.lt_succ_self _
  begun := fun command made hmade => h.begun command made (of_produced_sentNext hnext hmade)
  lined := by
    rcases sentNext_published with ⟨-, hsame, -⟩ | ⟨-, message, -, hemission, hpublished, -⟩
    · rw [hsame]
      exact h.lined
    · rw [hpublished, List.pairwise_append]
      refine ⟨h.lined, List.pairwise_singleton _ _, fun p hp q hq symbol hsymbol hsymbol' => ?_⟩
      rw [List.mem_singleton.mp hq] at hsymbol' ⊢
      rw [hemission] at hsymbol'
      exact h.waiting p hp socket emission (hnext ▸ List.mem_cons_self) symbol hsymbol hsymbol'
  waiting := by
    intro p hp other waiting hmem symbol hsymbol hsymbol'
    have hmem' := sentNext_sending hnext hmem
    rcases sentNext_published with ⟨-, hsame, -⟩ | ⟨-, message, -, hemission, hpublished, -⟩
    · rw [hsame] at hp
      exact h.waiting p hp other waiting hmem' symbol hsymbol hsymbol'
    · rw [hpublished] at hp
      rcases List.mem_append.mp hp with hp | hp
      · exact h.waiting p hp other waiting hmem' symbol hsymbol hsymbol'
      · rw [List.mem_singleton.mp hp] at hsymbol ⊢
        rw [hemission] at hsymbol
        exact Nat.not_lt.mp fun hlt => horder
          ⟨emission, rest, symbol, hnext, hsymbol, other, waiting, hmem', hsymbol', hlt⟩
  latest := by
    intro command snapshot hmade hlast
    rw [sentNext_bookOf]
    exact h.latest command snapshot (of_produced_sentNext hnext hmade) fun command' other hother =>
      hlast command' other (produced_sentNext hnext rfl hother)
  untouched := by
    intro symbol hnone
    rw [sentNext_bookOf]
    exact h.untouched symbol fun command snapshot hmade =>
      hnone command snapshot (produced_sentNext hnext rfl hmade)

end Send

theorem after_concurrent (label : Concurrent.Label) (c : Concurrent) :
    (f.after label c).concurrent = c := by
  cases label <;> rfl

theorem concurrent_run (h : Run Step { concurrent := ⟨server₀, fun _ => []⟩ } labels f) :
    Run Concurrent.Step ⟨server₀, fun _ => []⟩ labels f.concurrent := by
  induction h with
  | nil => exact .nil _
  | snoc hrun hstep ih =>
    obtain ⟨hstep⟩ := hstep
    rw [after_concurrent]
    exact ih.snoc hstep

theorem InLine.step (h : InLine f) (hbooks : f.concurrent.server.BooksConsistent)
    (hstep : OrderlyStep f label f') : InLine f' := by
  obtain ⟨⟨hstep⟩, horder⟩ := hstep
  cases hstep with
  | connect | disconnect | setGlobalKillSwitch => exact h.quiet rfl rfl fun _ => rfl
  | handle order hopen hready hrun =>
    exact h.handle hready.1 (Sequenced.handleMessage_counter hrun)
      (handleMessage_cases hbooks hrun).publishes
  | send hnext => exact h.send hnext horder

theorem inLine_run (hstart : start limits none = some server₀)
    (h : Run OrderlyStep { concurrent := ⟨server₀, fun _ => []⟩ } labels f) : InLine f := by
  refine h.history (P := fun _ => InLine) (inLine_start hstart) ?_
  intro labels f label f' hrun hinline hstep
  obtain ⟨log, hown⟩ := Concurrent.ownership hstart
    (concurrent_run (hrun.mono fun _ _ _ hstep => hstep.1))
  exact hinline.step hown.books hstep

/-- Of two publications, the one with the smaller number came first. -/
theorem InLine.command_le (h : InLine f) {p q : Publication} (hp : p ∈ f.published)
    (hq : q ∈ f.published) (hle : p.sent.sequenceNumber ≤ q.sent.sequenceNumber) {symbol : Bytes}
    (hsymbol : p.sent.emission.marketSymbol = some symbol)
    (hsymbol' : q.sent.emission.marketSymbol = some symbol) : p.command ≤ q.command := by
  obtain ⟨i, hi, rfl⟩ := List.getElem_of_mem hp
  obtain ⟨j, hj, rfl⟩ := List.getElem_of_mem hq
  rcases Nat.lt_trichotomy i j with hlt | rfl | hgt
  · exact List.pairwise_iff_getElem.mp h.lined i j hi hj hlt symbol hsymbol hsymbol'
  · exact Nat.le_refl _
  · have hnumber := List.pairwise_iff_getElem.mp h.numbered j i hj hi hgt
    exact absurd hle (Nat.not_le.mpr hnumber)

/-- Once every thread has sent what it had to, what is published shows the books, in every run in
which no market data overtakes that of an earlier engine section on its symbol. -/
theorem published_in_order (hstart : start limits none = some server₀)
    (h : Run OrderlyStep { concurrent := ⟨server₀, fun _ => []⟩ } labels f)
    (hfinished : f.Finished) : FollowsBooks f := by
  have hinline := inLine_run hstart h
  have hmade : ∀ {command emission}, f.Produced command emission →
      ∃ p ∈ f.published, p.command = command ∧ p.sent.emission = emission := by
    rintro command emission (hpublished | ⟨socket, hmem, -⟩)
    · exact hpublished
    · rw [hfinished socket] at hmem
      cases hmem
  constructor
  · intro p hp snapshot hemission hlast
    refine hinline.latest p.command snapshot (.inl ⟨p, hp, rfl, hemission⟩) ?_
    intro command other hproduced hsymbol
    obtain ⟨q, hq, rfl, hother⟩ := hmade hproduced
    have hsymbol' : q.sent.emission.marketSymbol = some (symbolToString snapshot.symbol) := by
      rw [hother, ← hsymbol]
      rfl
    have hsnapshot : p.sent.emission.marketSymbol = some (symbolToString snapshot.symbol) := by
      rw [hemission]
      rfl
    exact hinline.command_le hq hp (hlast q hq other hother hsymbol) hsymbol' hsnapshot
  · intro symbol hnone
    refine hinline.untouched symbol fun command snapshot hproduced => ?_
    obtain ⟨p, hp, -, hemission⟩ := hmade hproduced
    exact hnone p hp snapshot hemission
  · intro p hp event hemission q hq htakes hlater
    by_contra hnot
    have hsymbol : q.sent.emission.marketSymbol = some (symbolToString event.symbol) := by
      cases htaken : q.sent.emission <;> rw [htaken] at htakes
      case level3OrderExecuted | level3OrderDeleted => exact congrArg some htakes.1
      all_goals exact htakes.elim
    have hle := hinline.command_le hq hp (Nat.not_lt.mp hnot) hsymbol (by rw [hemission]; rfl)
    exact Nat.not_lt.mpr hle hlater

/-! ## Computed runs -/

theorem step_next {emission : Emission} {rest : List Emission}
    (hnext : f.concurrent.sending socket = emission :: rest) :
    Step f (.send socket (emit emission f.concurrent.server).2)
      (f.sentNext socket emission rest) :=
  .mk (.send hnext)

/-- A thread sends all it has, with nobody in between. -/
def flushed (socket : Socket) (emissions : List Emission) (f : Feed) : Feed :=
  { f with
    concurrent := ⟨(emitAll emissions f.concurrent.server).1,
      Function.update f.concurrent.sending socket []⟩
    published := f.published ++
      (emitAll emissions f.concurrent.server).2.map fun message => ⟨f.command socket, message⟩ }

/-- A send of the thread, while the others wait. -/
def Flushing (socket : Socket) (f₀ f : Feed) (label : Concurrent.Label) (f' : Feed) : Prop :=
  Step f label f' ∧ (∃ sent, label = .send socket sent) ∧ f.command = f₀.command ∧
    ∀ other, other ≠ socket → f.concurrent.sending other = f₀.concurrent.sending other

theorem flush {emissions : List Emission} (h : f.concurrent.sending socket = emissions) :
    ∃ labels, Run (Flushing socket f) f labels (f.flushed socket emissions) := by
  induction emissions generalizing f with
  | nil =>
    have hsending : Function.update f.concurrent.sending socket [] = f.concurrent.sending := by
      rw [← h, Function.update_eq_self]
    have hsame : f.flushed socket [] = f := by simp [flushed, hsending, emitAll]
    exact ⟨[], by rw [hsame]; exact .nil f⟩
  | cons emission rest ih =>
    obtain ⟨labels, hrun⟩ := ih (f := f.sentNext socket emission rest) (Function.update_self ..)
    have hsame : (f.sentNext socket emission rest).flushed socket rest =
        f.flushed socket (emission :: rest) := by
      simp [flushed, sentNext, after, emitAll_cons, List.append_assoc]
    rw [hsame] at hrun
    have hfirst : Flushing socket f f (.send socket (emit emission f.concurrent.server).2) _ :=
      ⟨step_next h, ⟨_, rfl⟩, rfl, fun _ _ => rfl⟩
    refine ⟨_, .cons hfirst (hrun.mono ?_)⟩
    rintro f₁ label f₂ ⟨hstep, hlabel, hcommand, hothers⟩
    exact ⟨hstep, hlabel, hcommand, fun other hother =>
      (hothers other hother).trans (Function.update_of_ne hother _ _)⟩

/-- A thread overtakes nobody that has nothing to send or has it from a later engine section. -/
theorem not_overtakes (h : ∀ other, other ≠ socket →
    f.concurrent.sending other = [] ∨ f.command socket ≤ f.command other) :
    ¬f.Overtakes socket := by
  rintro ⟨emission, rest, symbol, -, -, other, waiting, hmem, -, hlt⟩
  have hother : other ≠ socket := by
    rintro rfl
    exact Nat.lt_irrefl _ hlt
  rcases h other hother with hidle | hle
  · rw [hidle] at hmem
    cases hmem
  · exact absurd hlt (Nat.not_lt.mpr hle)

/-- What goes to one session overtakes nothing. -/
theorem private_not_overtakes {emission : Emission} {rest : List Emission}
    (hnext : f.concurrent.sending socket = emission :: rest) (hprivate : emission.marketSymbol = none) :
    ¬f.Overtakes socket := by
  rintro ⟨sending, rest', symbol, hsending, hsymbol, -⟩
  rw [hnext] at hsending
  cases hsending
  rw [hprivate] at hsymbol
  cases hsymbol

theorem flush_inOrder {emissions : List Emission} (h : f.concurrent.sending socket = emissions)
    (hfirst : ∀ other, other ≠ socket →
      f.concurrent.sending other = [] ∨ f.command socket ≤ f.command other) :
    ∃ labels, Run OrderlyStep f labels (f.flushed socket emissions) := by
  obtain ⟨labels, hrun⟩ := flush h
  refine ⟨labels, hrun.mono ?_⟩
  rintro f₁ label f₂ ⟨hstep, ⟨sent, rfl⟩, hcommand, hothers⟩
  refine ⟨hstep, not_overtakes fun other hother => ?_⟩
  rw [hothers other hother, hcommand]
  exact hfirst other hother

/-- Session 5 takes an order of session 4 and sends what goes to the two of them; then session 4
publishes its order, and session 5 what it took of it. -/
theorem published_in_order_taken : ∃ labels f added executed,
    Run OrderlyStep { concurrent := ⟨{ riskEngine := { limits := {} } }, fun _ => []⟩ } labels f ∧
      f.published.map (fun p => (p.command, p.sent.sequenceNumber)) =
        [(0, 1), (1, 2), (1, 3), (1, 4), (0, 5), (0, 6), (1, 7), (1, 8)] ∧
      added ∈ f.published ∧ executed ∈ f.published ∧ added.command < executed.command ∧
      (∃ event, added.sent.emission = .level3AddOrder event ∧
        executed.sent.emission.Takes event) ∧
      FollowsBooks f := by
  have hstart : start {} none = some { riskEngine := { limits := {} } } := rfl
  obtain ⟨server₁, server₂, snapshot, event, symbol, taken, left, executed, hplaced, htaken, hfree,
      hsocket, hcounter, hcounter', htakes⟩ :
      ∃ server₁ server₂ snapshot event symbol taken left executed,
      handleMessage .dedup 4
        (newOrderFrame ⟨7, 1, 100, 5, .sell, .limit, .goodTillCancel, defaultSymbol⟩)
        (registerClient 5 (registerClient 4 { riskEngine := { limits := {} } })) =
          .ok (server₁, [.orderResponse 4 7 true .orderAccepted, .bookUpdate snapshot,
            .level3AddOrder event]) ∧
      handleMessage .dedup 5
        (newOrderFrame ⟨8, 2, 100, 2, .buy, .limit, .goodTillCancel, defaultSymbol⟩)
        (emit (.orderResponse 4 7 true .orderAccepted) server₁).1 =
          .ok (server₂, [.orderResponse 5 8 true .orderAccepted, .tradeExecution 5 symbol taken,
            .tradeExecution 4 symbol taken, .bookUpdate left, .level3OrderExecuted executed]) ∧
      (emit (.orderResponse 4 7 true .orderAccepted) server₁).1.journal = none ∧
      5 ∈ (emit (.orderResponse 4 7 true .orderAccepted) server₁).1.clientSockets ∧
      server₁.nextSequenceNumber = 1 ∧ server₂.nextSequenceNumber = 2 ∧
      (Emission.level3OrderExecuted executed).Takes event :=
    ⟨_, _, _, _, _, _, _, _, by rfl, by rfl, by rfl, by decide, by rfl, by rfl,
      by exact ⟨rfl, .inr rfl⟩⟩
  have hunjournaled : (emit (.orderResponse 4 7 true .orderAccepted) server₁).1.journal.isSome =
      true → False := by simp [hfree]
  have connected : Run OrderlyStep
      { concurrent := ⟨{ riskEngine := { limits := {} } }, fun _ => []⟩ } _ _ :=
    ((Run.nil _).snoc ⟨.mk (@Concurrent.Step.connect _ 4 (by decide) (by decide)), trivial⟩).snoc
      ⟨.mk (@Concurrent.Step.connect _ 5 (by decide) (by decide)), trivial⟩
  have placed := connected.snoc
    ⟨.mk (.handle .dedup (by decide) ⟨rfl, fun h => nomatch h⟩ hplaced), trivial⟩
  have answered := placed.snoc ⟨@step_next _ 4 _ _ rfl, private_not_overtakes rfl rfl⟩
  have crossed := answered.snoc
    ⟨.mk (.handle .dedup hsocket ⟨rfl, fun h => (hunjournaled h).elim⟩ htaken), trivial⟩
  have reported := ((crossed.snoc ⟨@step_next _ 5 _ _ rfl, private_not_overtakes rfl rfl⟩).snoc
    ⟨@step_next _ 5 _ _ rfl, private_not_overtakes rfl rfl⟩).snoc
    ⟨@step_next _ 5 _ _ rfl, private_not_overtakes rfl rfl⟩
  let adding := [Emission.bookUpdate snapshot, .level3AddOrder event]
  let taking := [Emission.bookUpdate left, .level3OrderExecuted executed]
  let shown (p : Publication) : Nat × Nat × Emission :=
    (p.command, p.sent.sequenceNumber, p.sent.emission)
  obtain ⟨labels, f, hrun, hsending, hcommand₄, hcommand₅, hpublished, hnext⟩ : ∃ labels f,
      Run OrderlyStep { concurrent := ⟨{ riskEngine := { limits := {} } }, fun _ => []⟩ } labels f ∧
      f.concurrent.sending = Function.update (Function.update (fun _ => []) 4 adding) 5 taking ∧
      f.command 4 = 0 ∧ f.command 5 = 1 ∧
      f.published.map shown = [(0, 1, .orderResponse 4 7 true .orderAccepted),
        (1, 2, .orderResponse 5 8 true .orderAccepted), (1, 3, .tradeExecution 5 symbol taken),
        (1, 4, .tradeExecution 4 symbol taken)] ∧
      f.concurrent.server.nextSequenceNumber = 5 := by
    refine ⟨_, _, reported, ?_, rfl, rfl, ?_, ?_⟩
    · simp [sentNext, after, adding, taking]
    · simp [sentNext, after, emit, Emission.unaddressed, hcounter, hcounter', shown]
    · simp [sentNext, after, emit, Emission.unaddressed, hcounter']
  obtain ⟨labels₄, hrun₄⟩ := @flush_inOrder f 4 adding (by rw [hsending]; rfl) fun _ _ =>
    .inr (hcommand₄ ▸ Nat.zero_le _)
  obtain ⟨labels₅, hrun₅⟩ := @flush_inOrder (f.flushed 4 adding) 5 taking
    (by simp [flushed, hsending]) fun other hother => .inl (by
      by_cases h₄ : other = 4 <;> simp [flushed, hsending, h₄, hother])
  have run := (hrun.append hrun₄).append hrun₅
  have hlast : ((f.flushed 4 adding).flushed 5 taking).published.map shown =
      f.published.map shown ++ [(0, 5, .bookUpdate snapshot), (0, 6, .level3AddOrder event),
        (1, 7, .bookUpdate left), (1, 8, .level3OrderExecuted executed)] := by
    simp [flushed, hcommand₄, hcommand₅, hnext, adding, taking, emitAll, emit, Emission.unaddressed,
      shown]
  have hadded : (0, 6, Emission.level3AddOrder event) ∈
      ((f.flushed 4 adding).flushed 5 taking).published.map shown := by
    rw [hlast]
    simp
  have hexecuted : (1, 8, Emission.level3OrderExecuted executed) ∈
      ((f.flushed 4 adding).flushed 5 taking).published.map shown := by
    rw [hlast]
    simp
  obtain ⟨p, hp, heqp⟩ := List.mem_map.mp hadded
  obtain ⟨q, hq, heqq⟩ := List.mem_map.mp hexecuted
  obtain ⟨hcommand, -, hemission⟩ : p.command = 0 ∧ p.sent.sequenceNumber = 6 ∧
      p.sent.emission = .level3AddOrder event := by simpa [shown] using heqp
  obtain ⟨hcommand', -, hemission'⟩ : q.command = 1 ∧ q.sent.sequenceNumber = 8 ∧
      q.sent.emission = .level3OrderExecuted executed := by simpa [shown] using heqq
  have hnumbers := congrArg (List.map fun shown : Nat × Nat × Emission => (shown.1, shown.2.1)) hlast
  rw [hpublished, List.map_map] at hnumbers
  refine ⟨_, _, p, q, run, hnumbers, hp, hq, ?_, ⟨event, hemission, ?_⟩,
    published_in_order hstart run fun socket => ?_⟩
  · rw [hcommand, hcommand']
    exact Nat.one_pos
  · rw [hemission']
    exact htakes
  · by_cases h₄ : socket = 4
    · simp [flushed, h₄]
    · by_cases h₅ : socket = 5 <;> simp [flushed, hsending, h₄, h₅]

/-- The thread of session 4 has rested an order and sent nothing yet when session 5 takes the order
and publishes that; the order is added, and the book shown with it, afterwards. -/
theorem published_out_of_order :
    ¬ ∀ (limits : RiskLimits) (server₀ : ExchangeServer) (labels : List Concurrent.Label)
      (f : Feed), start limits none = some server₀ →
      Run Step { concurrent := ⟨server₀, fun _ => []⟩ } labels f → f.Finished →
      FollowsBooks f := by
  intro h
  have hstart : start {} none = some { riskEngine := { limits := {} } } := rfl
  obtain ⟨server₁, server₂, resting, taking, symbol, taken, snapshot, left, event, executed,
      deleted, hplaced, htaken, hresting, htaking, hfree, hsocket, htakes⟩ :
      ∃ server₁ server₂ resting taking symbol taken snapshot left event executed deleted,
      handleMessage .dedup 4
        (newOrderFrame ⟨7, 1, 100, 5, .sell, .limit, .goodTillCancel, defaultSymbol⟩)
        (registerClient 5 (registerClient 4 { riskEngine := { limits := {} } })) =
          .ok (server₁, resting) ∧
      handleMessage .dedup 5
        (newOrderFrame ⟨8, 2, 100, 5, .buy, .limit, .goodTillCancel, defaultSymbol⟩) server₁ =
          .ok (server₂, taking) ∧
      resting = [.orderResponse 4 7 true .orderAccepted, .bookUpdate snapshot,
        .level3AddOrder event] ∧
      taking = [.orderResponse 5 8 true .orderAccepted, .tradeExecution 5 symbol taken,
        .tradeExecution 4 symbol taken, .bookUpdate left, .level3OrderExecuted executed,
        .level3OrderDeleted deleted] ∧
      server₁.journal = none ∧ 5 ∈ server₁.clientSockets ∧
      (Emission.level3OrderDeleted deleted).Takes event :=
    ⟨_, _, _, _, _, _, _, _, _, _, _, by rfl, by rfl, by rfl, by rfl, by rfl, by decide,
      by exact ⟨rfl, rfl⟩⟩
  have hunjournaled : server₁.journal.isSome = true → False := by simp [hfree]
  have connect₄ : Step { concurrent := ⟨{ riskEngine := { limits := {} } }, fun _ => []⟩ }
      (.connect 4) _ := .mk (.connect (by decide) (by decide))
  have placed := (((Run.nil _).snoc connect₄).snoc
    (.mk (@Concurrent.Step.connect _ 5 (by decide) (by decide)))).snoc
    (.mk (.handle .dedup (by decide) ⟨rfl, fun h => nomatch h⟩ hplaced))
  have crossed := placed.snoc
    (.mk (.handle .dedup hsocket ⟨rfl, fun h => (hunjournaled h).elim⟩ htaken))
  obtain ⟨labels, f, hrun, hsending, hcommand₅, hcommand₄, hpublished⟩ : ∃ labels f,
      Run Step { concurrent := ⟨{ riskEngine := { limits := {} } }, fun _ => []⟩ } labels f ∧
      f.concurrent.sending = Function.update (Function.update (fun _ => []) 4 resting) 5 taking ∧
      f.command 5 = 1 ∧ f.command 4 = 0 ∧ f.published = [] :=
    ⟨_, _, crossed, rfl, rfl, rfl, rfl⟩
  -- session 5 sends all it has before session 4 does
  obtain ⟨labels₅, hrun₅⟩ := @flush f 5 taking (by rw [hsending]; rfl)
  obtain ⟨labels₄, hrun₄⟩ := @flush (f.flushed 5 taking) 4 resting (by simp [flushed, hsending])
  have hall := (hrun.append (hrun₅.mono fun _ _ _ hstep => hstep.1)).append
    (hrun₄.mono fun _ _ _ hstep => hstep.1)
  have hfollows := h {} _ _ _ hstart hall fun socket => by
    by_cases h₄ : socket = 4
    · simp [flushed, h₄]
    · by_cases h₅ : socket = 5 <;> simp [flushed, hsending, h₄, h₅]
  let n := f.concurrent.server.nextSequenceNumber
  let shown (p : Publication) : Nat × Nat × Emission :=
    (p.command, p.sent.sequenceNumber - n, p.sent.emission)
  have hnumbers : ((f.flushed 5 taking).flushed 4 resting).published.map shown =
      taking.mapIdx (fun i emission => (1, i, emission)) ++
        resting.mapIdx fun i emission => (0, i + 6, emission) := by
    simp [flushed, hpublished, hcommand₅, hcommand₄, hresting, htaking, emitAll, emit,
      Emission.unaddressed, Nat.add_assoc, shown, n]
  have hadded : (0, 8, .level3AddOrder event) ∈
      ((f.flushed 5 taking).flushed 4 resting).published.map shown := by
    rw [hnumbers, hresting]
    simp
  have hdeleted : (1, 5, .level3OrderDeleted deleted) ∈
      ((f.flushed 5 taking).flushed 4 resting).published.map shown := by
    rw [hnumbers, htaking]
    simp
  obtain ⟨p, hp, heqp⟩ := List.mem_map.mp hadded
  obtain ⟨q, hq, heqq⟩ := List.mem_map.mp hdeleted
  obtain ⟨hcommand, hnumber, hemission⟩ : p.command = 0 ∧ p.sent.sequenceNumber - n = 8 ∧
      p.sent.emission = .level3AddOrder event := by simpa [shown] using heqp
  obtain ⟨hcommand', hnumber', hemission'⟩ : q.command = 1 ∧ q.sent.sequenceNumber - n = 5 ∧
      q.sent.emission = .level3OrderDeleted deleted := by simpa [shown] using heqq
  have hlt := hfollows.added p hp event hemission q hq (by rw [hemission']; exact htakes)
    (by rw [hcommand, hcommand']; exact Nat.one_pos)
  omega

end Feed

end ExchangeLab

import ExchangeLab.Gateway.Copies
import ExchangeLab.Server.Concurrent

/-!
# ExchangeLab.Server.Tracking

An order is what its owner last asked for, less what has been executed of it since. Whoever sees the
accepted commands and the executions knows every order without looking into a book.

* `Order.afterTrades`: what is left of an order when a quantity of it has been traded.
* `Trading.resting_eq`, `Trading.incoming_eq`: matching, in these terms.
* `track`: what one handled frame makes of an order, read off the frame and the messages it caused.
* `orders_tracked`: every book, in every state that is reached under any interleaving, is the fold of
  `track` over the labels of the run.
-/

namespace ExchangeLab

open Wire Protocol OrderBook MatchingEngine Container ExchangeServer Transition

/-! ## What is left of an order -/

/-- What is left of an order when `q` of it has been traded. -/
def Order.afterTrades (o : Order) (q : Nat) : Option Order :=
  if q < o.remainingQuantity.toNat then
    some { o with remainingQuantity := o.remainingQuantity - UInt32.ofNat q }
  else none

section AfterTrades

variable {o r : Order} {m n : Nat} {q : Quantity}

theorem Order.afterTrades_zero (h : 0 < o.remainingQuantity) : o.afterTrades 0 = some o := by
  have hpos := UInt32.lt_iff_toNat_lt.mp h
  rw [UInt32.toNat_zero] at hpos
  rw [afterTrades, if_pos hpos]
  simp

theorem toNat_sub_ofNat {a : Quantity} (h : m < a.toNat) :
    (a - UInt32.ofNat m).toNat = a.toNat - m := by
  have hm : (UInt32.ofNat m).toNat = m :=
    UInt32.toNat_ofNat_of_lt' (Nat.lt_trans h a.toNat_lt)
  rw [UInt32.toNat_sub_of_le _ _ (UInt32.le_iff_toNat_le.mpr (by omega)), hm]

/-- Traded twice is traded once. -/
theorem Order.afterTrades_bind (o : Order) (m n : Nat) :
    (o.afterTrades m).bind (·.afterTrades n) = o.afterTrades (m + n) := by
  by_cases hm : m < o.remainingQuantity.toNat
  · rw [afterTrades, if_pos hm, Option.bind_some, afterTrades, afterTrades, toNat_sub_ofNat hm]
    by_cases hn : m + n < o.remainingQuantity.toNat
    · rw [if_pos (by omega), if_pos hn, UInt32.ofNat_add]
      simp only [Option.some.injEq, Order.mk.injEq, true_and, and_true]
      rw [UInt32.sub_eq_add_neg, UInt32.sub_eq_add_neg, UInt32.sub_eq_add_neg, UInt32.neg_add,
        UInt32.add_assoc, UInt32.sub_eq_add_neg]
    · rw [if_neg (by omega), if_neg hn]
  · rw [afterTrades, if_neg hm, Option.bind_none, afterTrades, if_neg (by omega)]

theorem Order.reduced_eq (h : q ≤ r.remainingQuantity) : r.reduced q = r.afterTrades q.toNat := by
  have hle := UInt32.le_iff_toNat_le.mp h
  rw [reduced, afterTrades, UInt32.ofNat_toNat]
  by_cases hq : q = r.remainingQuantity
  · rw [if_pos hq, if_neg (by rw [hq]; omega)]
  · have hne : q.toNat ≠ r.remainingQuantity.toNat := fun heq => hq (UInt32.toNat_inj.mp heq)
    rw [if_neg hq, if_pos (by omega)]
    rfl

theorem Order.afterTrades_positive (h : r.afterTrades m = some o) : 0 < o.remainingQuantity := by
  rw [afterTrades] at h
  split at h
  · cases h
    rw [UInt32.lt_iff_toNat_lt, toNat_sub_ofNat ‹_›]
    simp only [UInt32.toNat_zero]
    omega
  · cases h

theorem Order.afterTrades_id (h : r.afterTrades m = some o) : o.id = r.id := by
  rw [afterTrades] at h
  split at h
  · cases h
    rfl
  · cases h

end AfterTrades

/-- What rests of an incoming order when `q` of it has been traded on arrival. -/
def Order.arrived (o : Order) (q : Nat) : Option Order :=
  if mayRest o = true then o.afterTrades q else none

namespace Trading

variable {s : Side} {o o' : Order} {R R' : Resting} {ts : List Trade}

theorem eq_remaining (h : Trading s o R ts o' R') :
    o' = { o with remainingQuantity := o'.remainingQuantity } := by
  induction h with
  | stop => rfl
  | step _ _ _ _ _ _ ih => exact ih

/-- What is left of the incoming order. -/
theorem incoming_eq (h : Trading s o R ts o' R') :
    (if 0 < o'.remainingQuantity then some o' else none) = o.afterTrades (tradedWith o.id ts) := by
  have hsum := h.conserves
  rw [Order.afterTrades]
  by_cases hleft : 0 < o'.remainingQuantity
  · have hpos := UInt32.lt_iff_toNat_lt.mp hleft
    rw [UInt32.toNat_zero] at hpos
    have hlt : tradedWith o.id ts < o.remainingQuantity.toNat := by omega
    rw [if_pos hleft, if_pos hlt]
    have hremaining : o'.remainingQuantity =
        o.remainingQuantity - UInt32.ofNat (tradedWith o.id ts) := by
      apply UInt32.toNat_inj.mp
      rw [toNat_sub_ofNat hlt]
      omega
    rw [← hremaining, ← h.eq_remaining]
  · have hzero : o'.remainingQuantity.toNat = 0 := by
      rw [UInt32.lt_iff_toNat_lt, UInt32.toNat_zero] at hleft
      omega
    rw [if_neg hleft, if_neg (by omega)]

/-- What is left of the resting orders. -/
theorem resting_eq (h : Trading s o R ts o' R')
    (hR : ∀ id r, R id = some r → r.id = id ∧ 0 < r.remainingQuantity) {id : OrderId}
    (hid : id ≠ o.id) : R' id = (R id).bind (·.afterTrades (tradedWith id ts)) := by
  induction h with
  | @stop o R =>
    cases hr : R id with
    | none => rfl
    | some r => exact (Order.afterTrades_zero (hR id r hr).2).symm
  | @step o o' r R R' q ts hr hside hpos hin hres rest ih =>
    have hR' : ∀ id x, Function.update R r.id (r.reduced q) id = some x →
        x.id = id ∧ 0 < x.remainingQuantity := by
      intro id x hx
      by_cases he : id = r.id
      · subst he
        rw [Function.update_self, Order.reduced_eq hres] at hx
        exact ⟨Order.afterTrades_id hx, Order.afterTrades_positive hx⟩
      · rw [Function.update_of_ne he] at hx
        exact hR id x hx
    rw [ih hR' hid, tradedWith_cons, tradeWith_names]
    by_cases he : id = r.id
    · subst he
      rw [Function.update_self, hr, Order.reduced_eq hres, Order.afterTrades_bind, Option.bind_some,
        if_pos (by simp)]
      rfl
    · rw [Function.update_of_ne he, if_neg (by simp [Ne.symm hid, Ne.symm he]), Nat.zero_add]

end Trading

/-! ## Reading a label -/

/-- The quantity of the order that the executions among some messages name. -/
def tradedOf (x : Bytes) (id : OrderId) (emissions : List Emission) : Nat :=
  tradedWith id (((executionsOf emissions).filter fun execution =>
    symbolToString execution.symbol = x).map Execution.trade)

/-- The command of a frame was accepted, and it names the order. -/
def Command.acceptedFor (x : Bytes) (id : OrderId) (types : List MessageType) : Command → Bool
  | .newOrder request =>
    request.orderId = id && symbolToString request.symbol = x && types.contains .orderAccepted
  | .cancelOrder request =>
    request.orderId = id && symbolToString request.symbol = x && types.contains .orderCancelled
  | .replaceOrder request =>
    request.orderId = id && symbolToString request.symbol = x && types.contains .orderReplaced

/-- What a command that was accepted for an order makes of it when `q` is traded on arrival. -/
def Command.makes (q : Nat) (rested : Option Order) : Command → Option Order
  | .newOrder request => (normalizeIncoming (orderOf request)).arrived q
  | .cancelOrder _ => none
  | .replaceOrder request => rested.bind fun o =>
    (normalizeIncoming (replacement o request.newPrice request.newQuantity.toUInt32
      request.timestamp)).arrived q

/-- What a handled frame makes of an order: its command, if it was accepted for this order, or else
the executions. -/
def trackFrame (x : Bytes) (id : OrderId) (frame : Frame) (emissions : List Emission)
    (rested : Option Order) : Option Order :=
  let q := tradedOf x id emissions
  match (commandOf frame.header.type frame.body).filter
      (·.acceptedFor x id (emissions.map Emission.type)) with
  | some command => command.makes q rested
  | none => rested.bind (·.afterTrades q)

def track (x : Bytes) (id : OrderId) (rested : Option Order) : Concurrent.Label → Option Order
  | .handle _ frame emissions => trackFrame x id frame emissions rested
  | _ => rested

/-! ## Handled frames -/

theorem Consistent.resting {b : OrderBook} (hc : Consistent b) {id : OrderId} {r : Order}
    (h : b.findOrder id = some r) : r.id = id ∧ 0 < r.remainingQuantity := by
  obtain ⟨n, hn, hid, rfl⟩ := hc.findOrder_eq_some.mp h
  exact ⟨hid, (hc.nodes_rests (hc.mem_nodes_side hn)).positive⟩

/-- An order that is not traded stays as it is. -/
theorem Consistent.untraded {b : OrderBook} (hc : Consistent b) (id : OrderId) :
    (b.findOrder id).bind (·.afterTrades 0) = b.findOrder id := by
  cases h : b.findOrder id with
  | none => rfl
  | some r => exact Order.afterTrades_zero (hc.resting h).2

section Reading

variable {x : Bytes} {id : OrderId} {emissions : List Emission} {frame : Frame}
  {rested : Option Order} {incoming : Incoming} {ts : List Trade}

theorem NoTrades.tradedOf (h : NoTrades emissions) : tradedOf x id emissions = 0 := by
  rw [ExchangeLab.tradedOf, h.executionsOf]
  rfl

/-- All the executions of a command are of its symbol. -/
theorem tradedOf_deliveries {instrument : InstrumentState}
    (h : CopiesOf emissions ((ts.map (deliveryOf incoming instrument)).map
      ExecutionDelivery.execution)) :
    tradedOf x id emissions = if x = symbolToString incoming.symbol then tradedWith id ts else 0 := by
  have htrades : ((ts.map (deliveryOf incoming instrument)).map ExecutionDelivery.execution).map
      Execution.trade = ts := by
    rw [List.map_map, List.map_map]
    exact List.map_id' ts
  have hsymbol : ∀ execution ∈ (ts.map (deliveryOf incoming instrument)).map
      ExecutionDelivery.execution, execution.symbol = incoming.symbol := by
    intro execution hmem
    obtain ⟨delivery, hdelivery, rfl⟩ := List.mem_map.mp hmem
    obtain ⟨t, -, rfl⟩ := List.mem_map.mp hdelivery
    rfl
  rw [tradedOf, h.1]
  by_cases hx : x = symbolToString incoming.symbol
  · rw [if_pos hx, List.filter_eq_self.mpr fun execution hmem => by
      rw [hsymbol execution hmem, hx]
      exact decide_eq_true rfl, htrades]
  · rw [if_neg hx, List.filter_eq_nil_iff.mpr fun execution hmem => by
      rw [hsymbol execution hmem, decide_eq_true_eq]
      exact Ne.symm hx]
    rfl

/-- Only an accepted command is more than its executions. -/
theorem trackFrame_unaccepted
    (h : ∀ command, commandOf frame.header.type frame.body = some command →
      command.acceptedFor x id (emissions.map Emission.type) = false) :
    trackFrame x id frame emissions rested = rested.bind (·.afterTrades (tradedOf x id emissions)) := by
  have hnone : (commandOf frame.header.type frame.body).filter
      (·.acceptedFor x id (emissions.map Emission.type)) = none :=
    Option.filter_eq_none_iff.mpr fun command hcommand => by simp [h command hcommand]
  rw [trackFrame, hnone]

theorem trackFrame_rejected {socket : Socket} {orderId : UInt64} {successType : MessageType} :
    trackFrame x id frame [.orderResponse socket orderId false successType] rested =
      rested.bind (·.afterTrades 0) := by
  have hquiet : NoTrades [.orderResponse socket orderId false successType] := .cons rfl noTrades_nil
  have hrejected : ∀ type ∈ [MessageType.orderAccepted, .orderCancelled, .orderReplaced],
      type ≠ .orderRejected := by decide
  rw [trackFrame_unaccepted, hquiet.tradedOf]
  intro command _
  cases command <;> simp [Command.acceptedFor, Emission.type, hrejected]

/-- The frame of an accepted command, for the order that it names and for the others. -/
theorem trackFrame_command {command : Command}
    (hcommand : commandOf frame.header.type frame.body = some command) :
    trackFrame x id frame emissions rested =
      if command.acceptedFor x id (emissions.map Emission.type) = true then
        command.makes (tradedOf x id emissions) rested
      else rested.bind (·.afterTrades (tradedOf x id emissions)) := by
  rw [trackFrame, hcommand]
  by_cases haccepted : command.acceptedFor x id (emissions.map Emission.type) = true
  · rw [Option.filter_some_pos haccepted, if_pos haccepted]
  · rw [Option.filter_some_neg (Bool.eq_false_iff.mpr haccepted), if_neg haccepted]

end Reading

namespace ExchangeServer

/-- What settling a matched command leaves of an order. -/
theorem Settling.findOrder_eq {incoming : Incoming} {o o' : Order} {b b' : OrderBook}
    {ts : List Trade} {orderOwners : Finmap fun _ : OrderId => OrderOwner}
    (h : Settling incoming o b ts o' b' orderOwners) (id : OrderId) :
    b'.findOrder id =
      if id = incoming.orderId then o.arrived (tradedWith id ts)
      else (b.findOrder id).bind (·.afterTrades (tradedWith id ts)) := by
  by_cases hid : id = incoming.orderId
  · rw [if_pos hid, hid, ← h.id_eq, h.processed.findOrder_incoming h.absent h.consistent,
      Order.arrived, ← h.trading.incoming_eq, h.processed.sweeps.mayRest_eq]
    by_cases hrest : mayRest o = true
    · simp [hrest]
    · simp [hrest]
  · have hid' : id ≠ o.id := fun heq => hid (heq.trans h.id_eq)
    have hleft := h.trading.resting_eq (fun _ _ hr => h.consistent.resting hr) hid'
    rw [Function.update_of_ne hid'] at hleft
    rw [if_neg hid, hleft]

section Handled

variable {order : SetOrder} {socket : Socket} {frame : Frame} {server server' : ExchangeServer}
  {emissions : List Emission} {x : Bytes} {id : OrderId}

/-- A matched command: the order that it names arrives, the others are left with what was not traded
of them. -/
theorem Settling.tracked {incoming : Incoming} {o o' : Order} {b b' : OrderBook} {ts : List Trade}
    {orderOwners : Finmap fun _ : OrderId => OrderOwner} {command : Command}
    {instrument instrument' : InstrumentState}
    (h : Settling incoming o b ts o' b' orderOwners) (hbooks : server.BooksConsistent)
    (hcommand : commandOf frame.header.type frame.body = some command)
    (haccepted : command.acceptedFor x id (emissions.map Emission.type) = true ↔
      id = incoming.orderId ∧ x = symbolToString incoming.symbol)
    (hmakes : ∀ q, command.makes q ((server.instrumentFor (symbolToString incoming.symbol)).book.findOrder
      incoming.orderId) = o.arrived q)
    (hothers : id ≠ incoming.orderId → b.findOrder id =
      (server.instrumentFor (symbolToString incoming.symbol)).book.findOrder id)
    (hinsert : server'.instruments =
      server.instruments.insert (symbolToString incoming.symbol) instrument')
    (hbook : instrument'.book = b')
    (hcopies : CopiesOf emissions ((ts.map (deliveryOf incoming instrument)).map
      ExecutionDelivery.execution)) :
    (server'.instrumentFor x).book.findOrder id =
      trackFrame x id frame emissions ((server.instrumentFor x).book.findOrder id) := by
  rw [trackFrame_command hcommand, tradedOf_deliveries hcopies, instrumentFor_insert hinsert]
  by_cases hx : x = symbolToString incoming.symbol
  · subst hx
    rw [if_pos rfl, if_pos rfl, hbook, h.findOrder_eq]
    by_cases hid : id = incoming.orderId
    · rw [if_pos hid, if_pos (haccepted.mpr ⟨hid, rfl⟩), ← hmakes, hid]
    · rw [if_neg hid, if_neg fun hacc => hid (haccepted.mp hacc).1, hothers hid]
  · rw [if_neg hx, if_neg hx, if_neg fun hacc => hx (haccepted.mp hacc).2,
      (hbooks.instrumentFor x).untraded]

theorem Handled.tracked (h : Handled order socket frame server server' emissions)
    {log : List Event} (hown : Ownership log server) (hopen : socket ∈ server.clientSockets)
    (x : Bytes) (id : OrderId) :
    (server'.instrumentFor x).book.findOrder id =
      trackFrame x id frame emissions ((server.instrumentFor x).book.findOrder id) := by
  have huntraded := (hown.books.instrumentFor x).untraded id
  cases h with
  | ignored htype =>
    rw [trackFrame_unaccepted, noTrades_nil.tradedOf, huntraded]
    intro command hcommand
    rw [commandOf_ignored htype] at hcommand
    cases hcommand
  | rejected => rw [trackFrame_rejected, huntraded]
  | @turnedAway orderId symbol =>
    rw [trackFrame_rejected, huntraded, instrumentFor_made]
  | @placed request trades book snapshot h =>
    obtain ⟨o', hsettling⟩ := h.settling hown.sessions hopen hown.books (hown.owned _)
    have hcopies := newOrderEmissions_copies socket request.orderId
      (server.placedSettled order socket request trades book) snapshot
    rw [placedSettled, settle_deliveries] at hcopies
    refine hsettling.tracked hown.books h.command ?_ (fun _ => rfl) (fun _ => rfl) rfl
      (settle_book ..) hcopies
    have hanswered : ((newOrderEmissions socket request.orderId
        (server.placedSettled order socket request trades book) snapshot).map
          Emission.type).contains .orderAccepted = true :=
      List.contains_iff_mem.mpr List.mem_cons_self
    rw [Command.acceptedFor, hanswered, Bool.and_true, Bool.and_eq_true, decide_eq_true_eq,
      decide_eq_true_eq, eq_comm, @eq_comm _ _ x]
    rfl
  | @cancelled request instrument book snapshot h =>
    have hquiet : NoTrades [.orderResponse socket request.orderId true .orderCancelled,
        .bookUpdate snapshot, .level3OrderDeleted ⟨request.orderId, 0, request.symbol⟩] :=
      .cons rfl (.cons rfl (.cons rfl noTrades_nil))
    rw [trackFrame_command h.command, hquiet.tradedOf, huntraded, instrumentFor_insert rfl]
    have haccepted : (Command.cancelOrder request).acceptedFor x id
        ([.orderResponse socket request.orderId true .orderCancelled, .bookUpdate snapshot,
          .level3OrderDeleted ⟨request.orderId, 0, request.symbol⟩].map Emission.type) = true ↔
        request.orderId = id ∧ symbolToString request.symbol = x := by
      simp [Command.acceptedFor, Emission.type]
    by_cases hx : x = symbolToString request.symbol
    · rw [if_pos hx, h.findOrder hown.books, hx, instrumentFor_of_found h.found]
      by_cases hid : id = request.orderId
      · rw [if_pos (hx ▸ haccepted.mpr ⟨hid.symm, hx.symm⟩), hid, Function.update_self]
        rfl
      · rw [if_neg (hx ▸ fun hacc => hid (haccepted.mp hacc).1.symm), Function.update_of_ne hid]
    · rw [if_neg hx, if_neg fun hacc => hx (haccepted.mp hacc).2.symm]
  | @replaced request instrument trades book snapshot h =>
    have hfound := instrumentFor_of_found h.found
    have hx := hown.owned (symbolToString request.symbol)
    rw [hfound] at hx
    obtain ⟨s, n, hn, hid, b₁, o', -, -, -, hfind, hsettling⟩ :=
      h.settling hown.sessions hopen hown.books hx
    have hexisting : instrument.book.findOrder request.orderId = some n.order :=
      (hown.books _ _ h.found).findOrder_eq_some.mpr ⟨n, mem_allNodes_of hn, hid, rfl⟩
    have hcopies := replaceOrderEmissions_copies socket request.orderId request.symbol
      (server.replacedSettled order socket request instrument trades book) snapshot
    rw [replacedSettled, settle_deliveries] at hcopies
    refine hsettling.tracked hown.books h.command ?_ (fun q => ?_) (fun hne => ?_) rfl ?_ hcopies
    · have hanswered : ((replaceOrderEmissions socket request.orderId request.symbol
          (server.replacedSettled order socket request instrument trades book) snapshot).map
            Emission.type).contains .orderReplaced = true :=
        List.contains_iff_mem.mpr List.mem_cons_self
      rw [Command.acceptedFor, hanswered, Bool.and_true, Bool.and_eq_true, decide_eq_true_eq,
        decide_eq_true_eq, eq_comm, @eq_comm _ _ x]
      rfl
    · have hrested : (server.instrumentFor (symbolToString request.symbol)).book.findOrder
          request.orderId = some n.order := by rw [hfound, hexisting]
      show Option.bind ((server.instrumentFor (symbolToString request.symbol)).book.findOrder
        request.orderId) _ = _
      rw [hrested]
      rfl
    · have hne : id ≠ request.orderId := hne
      rw [hfind, Function.update_of_ne hne]
      exact (congrArg (fun i => i.book.findOrder id) hfound).symm
    · rw [dropUnrested_book, replacedSettled, settle_book]

end Handled

end ExchangeServer

/-! ## Runs -/

theorem Concurrent.Step.tracked {c c' : Concurrent} {label : Concurrent.Label}
    (h : Concurrent.Step c label c') {log : List Event} (hown : Ownership log c.server) (x : Bytes)
    (id : OrderId) :
    (c'.server.instrumentFor x).book.findOrder id =
      track x id ((c.server.instrumentFor x).book.findOrder id) label := by
  cases h with
  | connect | disconnect | setGlobalKillSwitch => rfl
  | send =>
    rename_i socket emission rest hnext
    obtain ⟨n, -, hstate⟩ := emit_state emission c.server
    rw [hstate]
    rfl
  | handle order hopen hready hrun =>
    exact (handleMessage_cases hown.books hrun).tracked hown hopen x id

/-- In every state of every run, each order of each book is what the accepted commands that name it
and the executions that name it have made of it, and nothing else. -/
theorem orders_tracked {limits : RiskLimits} {file : Option (Option Bytes)}
    {server₀ : ExchangeServer} {labels : List Concurrent.Label} {c : Concurrent}
    (hstart : start limits file = some server₀)
    (hrun : Run Concurrent.Step ⟨server₀, fun _ => []⟩ labels c) (x : Bytes) (id : OrderId) :
    (c.server.instrumentFor x).book.findOrder id =
      labels.foldl (track x id) ((server₀.instrumentFor x).book.findOrder id) := by
  refine hrun.history (P := fun labels c => (c.server.instrumentFor x).book.findOrder id =
    labels.foldl (track x id) ((server₀.instrumentFor x).book.findOrder id)) rfl ?_
  intro labels c₁ label c₂ hprefix htracked hstep
  obtain ⟨log, hown⟩ := Concurrent.ownership hstart hprefix
  rw [hstep.tracked hown, htracked, List.foldl_append]
  rfl

/-- Session 4 bids for 5, session 5 sells it 2: the labels of the run leave 3 of the order. -/
theorem orders_tracked_fill :
    ∃ labels c, Run Concurrent.Step ⟨{ riskEngine := { limits := {} } }, fun _ => []⟩ labels c ∧
      (c.server.instrumentFor [84, 69, 83, 84]).book.findOrder 7 =
        labels.foldl (track [84, 69, 83, 84] 7) none ∧
      labels.foldl (track [84, 69, 83, 84] 7) none =
        some ⟨7, .buy, .limit, .goodTillCancel, 100, 5, 3, 1⟩ := by
  obtain ⟨⟨server₁, emissions₁⟩, hrun₁, hopen, hjournal, ⟨server₂, emissions₂⟩, hrun₂, htracked⟩ :
      ∃ r₁, handleMessage .dedup 4
        (newOrderFrame ⟨7, 1, 100, 5, .buy, .limit, .goodTillCancel, defaultSymbol⟩)
        (registerClient 5 (registerClient 4 { riskEngine := { limits := {} } })) = .ok r₁ ∧
      5 ∈ r₁.1.clientSockets ∧ r₁.1.journal.isSome = false ∧ ∃ r₂,
      handleMessage .dedup 5
        (newOrderFrame ⟨8, 2, 100, 2, .sell, .limit, .goodTillCancel, defaultSymbol⟩) r₁.1 = .ok r₂ ∧
      trackFrame [84, 69, 83, 84] 7
        (newOrderFrame ⟨8, 2, 100, 2, .sell, .limit, .goodTillCancel, defaultSymbol⟩) r₂.2
        (trackFrame [84, 69, 83, 84] 7
          (newOrderFrame ⟨7, 1, 100, 5, .buy, .limit, .goodTillCancel, defaultSymbol⟩) r₁.2 none) =
        some ⟨7, .buy, .limit, .goodTillCancel, 100, 5, 3, 1⟩ :=
    ⟨_, by rfl, by decide, rfl, _, by rfl, by decide⟩
  have connect : Concurrent.Step ⟨{ riskEngine := { limits := {} } }, fun _ => []⟩ (.connect 4) _ :=
    .connect (by decide) (by decide)
  have connect' : Concurrent.Step ⟨registerClient 4 { riskEngine := { limits := {} } }, fun _ => []⟩
      (.connect 5) _ := .connect (by decide) (by decide)
  have placed : Concurrent.Step
      ⟨registerClient 5 (registerClient 4 { riskEngine := { limits := {} } }), fun _ => []⟩
      (.handle 4 _ emissions₁) _ := .handle .dedup (by decide) ⟨rfl, fun _ _ => rfl⟩ hrun₁
  have hready : Concurrent.Ready ⟨server₁, Function.update (fun _ => []) 4 emissions₁⟩ 5 := by
    refine ⟨rfl, fun h => ?_⟩
    rw [hjournal] at h
    cases h
  have filled := Concurrent.Step.handle .dedup hopen hready hrun₂
  have run := ((((Run.nil _).snoc connect).snoc connect').snoc placed).snoc filled
  have hstart : start {} none = some { riskEngine := { limits := {} } } := rfl
  exact ⟨_, _, run, orders_tracked hstart run _ _, htracked⟩

end ExchangeLab

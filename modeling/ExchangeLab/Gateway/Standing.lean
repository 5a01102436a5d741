import ExchangeLab.Gateway.Drained

/-!
# ExchangeLab.Gateway.Standing

What of an order the core's messages change, whatever its names and prices are.

* `Standing`: an order's symbol and quantities; what responses, copies of trades and book updates make
  of it.
* `absorb_executions`: a session takes each trade from its orders once, also one between two of them.
* `absorb_handled`, `absorbAll_section`: so for all that a handler sends.
-/

namespace ExchangeLab

open Wire Protocol OrderBook MatchingEngine Container ExchangeServer ExchangeLab.Fix FixGateway
  FixBridge Duplicates

/-! ## Standings -/

/-- An order without its names, its prices and its status. -/
structure Standing where
  symbol : Symbol
  /-- What is left of it rests. -/
  rests : Bool
  leaves : Nat
  cumulative : Nat

namespace Standing

def close (standing : Standing) : Standing := { standing with leaves := 0 }

def fill (quantity : Nat) (standing : Standing) : Standing :=
  { standing with
    leaves := standing.leaves - quantity
    cumulative := standing.cumulative + min standing.leaves quantity }

def reach (symbol : Symbol) (standing : Standing) : Standing :=
  if standing.symbol = symbol then standing.close else standing

/-- After a response to the entry that was taken out. -/
def answer (pending : PendingRequest) (success : Bool) (standing : Standing) : Option Standing :=
  match pending.kind, success with
  | .new, false => none
  | .cancel, true => some standing.close
  | .replace, true => some { standing with leaves := pending.replacementWorkingQuantity }
  | .new, true | .cancel, false | .replace, false => some standing

theorem fill_zero (standing : Standing) : standing.fill 0 = standing := by
  rw [fill, Nat.min_zero]
  rfl

theorem fill_fill (m n : Nat) (standing : Standing) :
    (standing.fill m).fill n = standing.fill (m + n) := by
  have hleaves : standing.leaves - m - n = standing.leaves - (m + n) := Nat.sub_sub ..
  have hcumulative : standing.cumulative + min standing.leaves m + min (standing.leaves - m) n =
      standing.cumulative + min standing.leaves (m + n) := by omega
  simp only [fill, hleaves, hcumulative]

end Standing

def OrderState.standing (order : OrderState) : Standing where
  symbol := order.symbol
  rests := order.orderType ≠ .market ∧ order.timeInForce = .goodTillCancel
  leaves := order.leavesQuantity
  cumulative := order.cumulativeQuantity

theorem OrderState.standing_rests (order : OrderState) :
    order.standing.rests = false ↔ order.NonResting := by
  simp [standing, NonResting, ← or_iff_not_imp_left]

theorem OrderState.standing_reach (symbol : Symbol) (order : OrderState) :
    (order.reach symbol).standing = order.standing.reach symbol := by
  unfold OrderState.reach Standing.reach
  have hsymbol : order.standing.symbol = order.symbol := rfl
  rw [hsymbol]
  by_cases h : order.symbol = symbol
  · by_cases hleaves : 0 < order.leavesQuantity
    · rw [if_pos ⟨h, hleaves⟩, if_pos h]
      rfl
    · have hzero : order.leavesQuantity = 0 := Nat.eq_zero_of_not_pos hleaves
      rw [if_neg (not_and_of_not_right _ hleaves), if_pos h, Standing.close, standing, hzero]
  · rw [if_neg (not_and_of_not_left _ h), if_neg h]

theorem standing_fillOrder (execution : TradeExecution) (order : OrderState) :
    (fillOrder execution order).standing = order.standing.fill execution.quantity.toNat := by
  have hleaves : order.leavesQuantity - min order.leavesQuantity execution.quantity.toNat =
      order.leavesQuantity - execution.quantity.toNat := by omega
  simp only [fillOrder, OrderState.standing, Standing.fill, hleaves]

namespace Ledger

variable {l : Ledger} {id : OrderId}

def standing (id : OrderId) (l : Ledger) : Option Standing := (l.orders id).map OrderState.standing

theorem standing_ne_none : l.standing id ≠ none ↔ (l.orders id).isSome = true := by
  rw [standing, ne_eq, Option.map_eq_none_iff, Option.isSome_iff_ne_none]

theorem standing_update {orders : OrderId → Option OrderState} {i : OrderId} (order : Option OrderState) :
    (Function.update orders id order i).map OrderState.standing =
      if i = id then order.map OrderState.standing else (orders i).map OrderState.standing := by
  rw [Function.update_apply]
  split <;> rfl

theorem standing_fillAt (execution : TradeExecution) (i : OrderId) :
    (l.fillAt id execution).standing i =
      (l.standing i).map (Standing.fill (if id = i then execution.quantity.toNat else 0)) := by
  rw [standing, fillAt, standing_update]
  by_cases h : i = id
  · subst h
    rw [if_pos rfl, if_pos rfl, standing, Option.map_map, Option.map_map]
    exact Option.map_congr fun order _ => standing_fillOrder execution order
  · rw [if_neg h, if_neg (Ne.symm h), standing]
    cases l.orders i with
    | none => rfl
    | some order => exact congrArg some (Standing.fill_zero _).symm

/-- A trade takes from each of its orders what is the order's. -/
theorem standing_fill (execution : TradeExecution) (i : OrderId) :
    (l.fill execution).standing i =
      (l.standing i).map (Standing.fill ((selfTradeKey execution).share i)) := by
  rw [fill, standing_fillAt, standing_fillAt, Option.map_map]
  exact Option.map_congr fun standing _ => Standing.fill_fill _ _ standing

theorem standing_boundary_awaited (symbol : Symbol) (h : id ∈ l.awaiting) :
    (l.boundary symbol).standing id = (l.standing id).map (Standing.reach symbol) := by
  rw [standing, boundary_awaited symbol h, standing, Option.map_map, Option.map_map]
  exact Option.map_congr fun order _ => order.standing_reach symbol

theorem standing_boundary_unawaited (symbol : Symbol) (h : id ∉ l.awaiting) :
    (l.boundary symbol).standing id = l.standing id := by
  rw [standing, boundary_unawaited symbol h, standing]

/-- A book update concerns waiting orders only. -/
theorem boundary_of_empty (symbol : Symbol) (h : l.awaiting = ∅) : l.boundary symbol = l := by
  have hnone : ∀ i, i ∉ l.awaiting := fun i hi => by
    rw [h] at hi
    exact hi
  refine Ledger.ext (funext fun i => boundary_unawaited symbol (hnone i)) rfl ?_ rfl rfl
  exact (Set.eq_empty_of_forall_notMem fun i hi => hnone i hi.1).trans h.symm

theorem standing_answer {pending : PendingRequest} {success : Bool} {order : OrderState}
    (horder : l.orders id = some order) (i : OrderId) :
    (l.answer id pending success order).standing i =
      if i = id then order.standing.answer pending success else l.standing i := by
  have hset : ∀ order', (l.setOrder id order').standing i =
      if i = id then some order'.standing else l.standing i := fun order' => standing_update _
  have hsame : l.standing i = if i = id then some order.standing else l.standing i := by
    split
    · rename_i hi
      rw [hi, standing, horder]
      rfl
    · rfl
  unfold answer Standing.answer
  cases pending.kind <;> cases success
  case new.true => exact hset _
  case new.false => exact standing_update _
  case cancel.true => exact hset _
  case replace.true => exact hset _
  case cancel.false => exact hsame
  case replace.false => exact hsame

theorem answer_awaiting {pending : PendingRequest} {success : Bool} {order : OrderState}
    (hempty : l.awaiting = ∅) (hkey : order.numericOrderId = id) (i : OrderId) :
    i ∈ (l.answer id pending success order).awaiting ↔
      i = id ∧ pending.kind = .new ∧ success = true ∧ order.NonResting := by
  have hnone : i ∉ l.awaiting := fun hi => by
    rw [hempty] at hi
    exact hi
  unfold answer
  cases hkind : pending.kind <;> cases success
  case new.true =>
    constructor
    · rintro (hi | ⟨hrests, hi⟩)
      · exact absurd hi hnone
      · exact ⟨hi.trans hkey, rfl, rfl, hrests⟩
    · rintro ⟨hi, -, -, hrests⟩
      exact .inr ⟨hrests, hi.trans hkey.symm⟩
  all_goals exact ⟨fun hi => absurd hi hnone, by simp⟩

section Respond

variable {pending : PendingRequest} {rest : List PendingRequest} {success : Bool}

theorem respond_duplicates (id : OrderId) (success : Bool) (l : Ledger) :
    (l.respond id success).duplicatesToIgnore = l.duplicatesToIgnore := by
  unfold respond
  split
  · rfl
  split
  · rfl
  · unfold answer
    split <;> rfl

theorem respond_standing (hpending : l.pending id = pending :: rest) (i : OrderId) :
    (l.respond id success).standing i =
      if i = id then (l.standing id).bind (Standing.answer pending success) else l.standing i := by
  rw [respond, hpending]
  dsimp only
  cases horder : l.orders id with
  | none =>
    dsimp only
    have hnone : l.standing id = none := by rw [standing, horder]; rfl
    rw [hnone]
    split
    · rename_i hi
      rw [hi]
      exact hnone
    · rfl
  | some order =>
    have hsome : l.standing id = some order.standing := by rw [standing, horder]; rfl
    dsimp only
    rw [hsome]
    exact standing_answer (l := l.setPending id rest) horder i

theorem respond_awaiting (hpending : l.pending id = pending :: rest) (hempty : l.awaiting = ∅)
    (hkeyed : l.Keyed) (i : OrderId) :
    i ∈ (l.respond id success).awaiting ↔ i = id ∧ pending.kind = .new ∧ success = true ∧
      ∃ standing, l.standing id = some standing ∧ standing.rests = false := by
  rw [respond, hpending]
  dsimp only
  cases horder : l.orders id with
  | none =>
    have hnone : i ∉ l.awaiting := fun hi => by
      rw [hempty] at hi
      exact hi
    refine ⟨fun hi => absurd hi hnone, ?_⟩
    rintro ⟨-, -, -, standing, hsome, -⟩
    rw [Ledger.standing, horder] at hsome
    cases hsome
  | some order =>
    dsimp only
    rw [answer_awaiting (l := l.setPending id rest) hempty (hkeyed id order horder) i]
    refine and_congr_right fun _ => and_congr_right fun _ => and_congr_right fun _ => ?_
    rw [← order.standing_rests, Ledger.standing, horder]
    refine ⟨fun h => ⟨_, rfl, h⟩, ?_⟩
    rintro ⟨_, hsome, hrests⟩
    cases hsome
    exact hrests

end Respond

end Ledger

/-! ## Copies -/

/-- What the gateway reads of a copy. -/
def Execution.report (execution : Execution) : TradeExecution where
  buyOrderId := execution.trade.buyOrderId
  sellOrderId := execution.trade.sellOrderId
  price := execution.trade.price
  quantity := execution.trade.quantity.toUInt64
  sequenceNumber := 0
  symbol := execution.symbol

/-- A session with some orders gets a copy of each of its orders' trades, and two of one between
them. -/
structure Execution.Copied (socket : Socket) (owned : OrderId → Prop) (execution : Execution) :
    Prop where
  symbol : isValidSymbol execution.symbol = true
  quantity : 0 < execution.trade.quantity
  both : owned execution.trade.buyOrderId → owned execution.trade.sellOrderId →
    execution.buyerSocket = socket ∧ execution.sellerSocket = socket
  one : ¬(owned execution.trade.buyOrderId ∧ owned execution.trade.sellOrderId) →
    owned execution.trade.buyOrderId ∨ owned execution.trade.sellOrderId →
      (execution.buyerSocket = socket ↔ execution.sellerSocket ≠ socket)

namespace Ledger

/-- Each of the trades is taken from the orders of the session that it names, once. -/
structure Takes (l : Ledger) (executions : List Execution) (l' : Ledger) : Prop where
  standing : ∀ id, l'.standing id =
    (l.standing id).map (Standing.fill (shares id (executions.map Execution.key)))
  pending : l'.pending = l.pending
  awaiting : l'.awaiting = l.awaiting
  duplicates : l'.duplicatesToIgnore = l.duplicatesToIgnore

variable {l l' l'' : Ledger} {execution : Execution} {executions executions' : List Execution}
  {socket : Socket}

theorem Takes.refl (l : Ledger) : l.Takes [] l where
  standing id := by
    cases l.standing id with
    | none => rfl
    | some standing => exact congrArg some (Standing.fill_zero standing).symm
  pending := rfl
  awaiting := rfl
  duplicates := rfl

theorem Takes.trans (h : l.Takes executions l') (h' : l'.Takes executions' l'') :
    l.Takes (executions ++ executions') l'' where
  standing id := by
    rw [h'.standing, h.standing, Option.map_map, List.map_append, shares_append]
    exact Option.map_congr fun standing _ => Standing.fill_fill _ _ standing
  pending := h'.pending.trans h.pending
  awaiting := h'.awaiting.trans h.awaiting
  duplicates := h'.duplicates.trans h.duplicates

theorem Takes.owned (h : l.Takes executions l') (id : OrderId) :
    l'.standing id ≠ none ↔ l.standing id ≠ none := by
  rw [h.standing, ne_eq, Option.map_eq_none_iff]

theorem takes_one (execution : Execution) (id : OrderId) :
    shares id ([execution].map Execution.key) = (selfTradeKey execution.report).share id :=
  List.sum_singleton

theorem takes_fill (l : Ledger) (execution : Execution) :
    l.Takes [execution] (l.fill execution.report) where
  standing id := by rw [standing_fill, takes_one]
  pending := rfl
  awaiting := rfl
  duplicates := rfl

/-- The trade is of other sessions' orders. -/
theorem trade_foreign {execution : TradeExecution} (hbuy : l.orders execution.buyOrderId = none)
    (hsell : l.orders execution.sellOrderId = none) : l.trade execution = l := by
  have hboth : ¬l.OwnsBoth execution := fun h => by
    have hsome := h.1
    rw [hbuy] at hsome
    cases hsome
  rw [trade, if_neg hboth, fill, fillAt_absent execution hbuy]
  exact fillAt_absent execution hsell

/-- The first of two copies is taken, and the second is not. -/
theorem takes_twice (hboth : l.OwnsBoth execution.report) (hnone : l.duplicatesToIgnore = 0) :
    l.Takes [execution] ((l.trade execution.report).trade execution.report) := by
  have hfirst : ¬(l.duplicatesToIgnore > 0 ∧
      l.lastSelfTradeKey = some (selfTradeKey execution.report)) := fun h => by
    rw [hnone] at h
    exact absurd h.1 (Nat.lt_irrefl 0)
  have htaken : l.trade execution.report = { l.fill execution.report with
      lastSelfTradeKey := some (selfTradeKey execution.report)
      duplicatesToIgnore := 1 } := by
    rw [trade, if_pos hboth, if_neg hfirst]
  have hagain : (l.trade execution.report).OwnsBoth execution.report := by
    rw [htaken]
    exact ⟨(isSome_fillAt _ _ _ _).trans ((isSome_fillAt _ _ _ _).trans hboth.1),
      (isSome_fillAt _ _ _ _).trans ((isSome_fillAt _ _ _ _).trans hboth.2)⟩
  have hdropped : (l.trade execution.report).trade execution.report =
      { l.trade execution.report with duplicatesToIgnore := 0 } := by
    rw [trade, if_pos hagain, htaken]
    exact if_pos ⟨Nat.one_pos, rfl⟩
  have hfill := takes_fill l execution
  rw [hdropped, htaken]
  exact ⟨hfill.standing, hfill.pending, hfill.awaiting, hnone.symm⟩

theorem absorb_copies (hsocket : 0 ≤ socket)
    (h : execution.Copied socket fun id => l.standing id ≠ none) (hnone : l.duplicatesToIgnore = 0) :
    l.Takes [execution] (l.absorbAll (coming socket execution.copies)) := by
  have hcopy : ∀ (address : Socket) (l : Ledger),
      l.absorb ((Emission.tradeExecution address execution.symbol execution.trade).coreMessage 0) =
        l.trade execution.report := fun address l => absorb_copy 0 address h.symbol h.quantity l
  have hreaches : ∀ address : Socket,
      (Emission.tradeExecution address execution.symbol execution.trade).reaches socket =
        decide (address = socket) := by
    intro address
    rw [Emission.reaches]
    by_cases heq : address = socket
    · simp [heq, hsocket]
    · simp [heq]
  have hcoming : l.absorbAll (coming socket execution.copies) =
      if execution.sellerSocket = socket then
        (if execution.buyerSocket = socket then l.trade execution.report else l).trade execution.report
      else if execution.buyerSocket = socket then l.trade execution.report else l := by
    rw [coming, Execution.copies, List.filter_cons, List.filter_cons, hreaches, hreaches]
    by_cases hbuyer : execution.buyerSocket = socket <;>
      by_cases hseller : execution.sellerSocket = socket <;>
      simp [hbuyer, hseller, absorbAll, hcopy]
  have howned : l.OwnsBoth execution.report ↔ l.standing execution.trade.buyOrderId ≠ none ∧
      l.standing execution.trade.sellOrderId ≠ none := by
    rw [standing_ne_none, standing_ne_none]
    rfl
  rw [hcoming]
  by_cases hboth : l.OwnsBoth execution.report
  · obtain ⟨hbuyer, hseller⟩ := h.both (howned.mp hboth).1 (howned.mp hboth).2
    rw [if_pos hseller, if_pos hbuyer]
    exact takes_twice hboth hnone
  have hfill : l.trade execution.report = l.fill execution.report := if_neg hboth
  by_cases hany : l.standing execution.trade.buyOrderId ≠ none ∨
      l.standing execution.trade.sellOrderId ≠ none
  · have hone := h.one (howned.not.mp hboth) hany
    have htakes := takes_fill l execution
    by_cases hseller : execution.sellerSocket = socket
    · rw [if_pos hseller, if_neg fun hbuyer => hone.mp hbuyer hseller, hfill]
      exact htakes
    · rw [if_neg hseller, if_pos (hone.mpr hseller), hfill]
      exact htakes
  · have habsent : ∀ id, ¬l.standing id ≠ none → l.orders id = none := fun id hid =>
      Option.not_isSome_iff_eq_none.mp (standing_ne_none.not.mp hid)
    obtain ⟨hbuy, hsell⟩ := not_or.mp hany
    have hforeign : l.trade execution.report = l := trade_foreign (habsent _ hbuy) (habsent _ hsell)
    have htakes := takes_fill l execution
    rw [← hfill, hforeign] at htakes
    rw [hforeign]
    simp only [hforeign, ite_self]
    exact htakes

theorem absorb_executions (hsocket : 0 ≤ socket)
    (h : ∀ execution ∈ executions, execution.Copied socket fun id => l.standing id ≠ none)
    (hnone : l.duplicatesToIgnore = 0) :
    l.Takes executions (l.absorbAll (coming socket (executions.flatMap Execution.copies))) := by
  induction executions generalizing l with
  | nil => exact .refl l
  | cons execution executions ih =>
    rw [List.flatMap_cons, coming_append, absorbAll_append]
    have hfirst := absorb_copies hsocket (h execution (.head _)) hnone
    have howned : (fun id => (l.absorbAll (coming socket execution.copies)).standing id ≠ none) =
        fun id => l.standing id ≠ none := funext fun id => propext (hfirst.owned id)
    refine hfirst.trans (ih (fun other hother => ?_) (hfirst.duplicates.trans hnone))
    rw [howned]
    exact h other (.tail _ hother)

end Ledger

/-! ## Sections -/

namespace Ledger

variable {l : Ledger} {socket : Socket} {emissions : List Emission} {executions : List Execution}

/-- While nothing waits for a book update, the rest of what a handler sends changes nothing. -/
theorem absorb_untraded {emission : Emission} (htrade : emission.trade = none)
    (hresponse : emission.isResponse = false) (hempty : l.awaiting = ∅) :
    l.absorb (emission.coreMessage 0) = l := by
  cases emission with
  | orderResponse => cases hresponse
  | tradeExecution => cases htrade
  | bookUpdate snapshot =>
    rw [absorb_of_bookUpdate rfl]
    cases decodeBookUpdate ((Emission.bookUpdate snapshot).coreMessage 0).body with
    | none => rfl
    | some update => exact boundary_of_empty update.symbol hempty
  | level3AddOrder => exact absorb_level3 0 (.inl rfl) l
  | level3OrderExecuted => exact absorb_level3 0 (.inr (.inl rfl)) l
  | level3OrderDeleted => exact absorb_level3 0 (.inr (.inr rfl)) l

theorem absorbAll_awaiting {messages : List CoreMessage}
    (hanswers : ∀ message ∈ messages, message.answer = none) :
    (l.absorbAll messages).awaiting ⊆ l.awaiting := by
  induction messages generalizing l with
  | nil => exact Set.Subset.refl _
  | cons message messages ih =>
    have hrest := ih (l := l.absorb message) fun other hother => hanswers other (.tail _ hother)
    exact hrest.trans (absorb_of_no_answer (hanswers message (.head _))).2.2

/-- A session without orders takes nothing but responses. -/
theorem absorbAll_vacant {messages : List CoreMessage} (horders : ∀ id, l.orders id = none)
    (hempty : l.awaiting = ∅) (hanswers : ∀ message ∈ messages, message.answer = none) :
    l.absorbAll messages = l := by
  induction messages with
  | nil => rfl
  | cons message messages ih =>
    have hone : l.absorb message = l := by
      unfold absorb
      split
      · rename_i hresponse
        have hanswer := hanswers message (.head _)
        rw [CoreMessage.answer, if_pos hresponse, Option.map_eq_none_iff] at hanswer
        rw [hanswer]
      split
      · cases decodeTradeExecution message.body with
        | none => rfl
        | some execution => exact trade_foreign (horders _) (horders _)
      split
      · cases decodeBookUpdate message.body with
        | none => rfl
        | some update => exact boundary_of_empty update.symbol hempty
      · rfl
    show (l.absorb message).absorbAll messages = l
    rw [hone]
    exact ih fun other hother => hanswers other (.tail _ hother)

theorem absorbAll_trades (hresponses : ∀ emission ∈ emissions, emission.isResponse = true →
      emission.reaches socket = false) (hempty : l.awaiting = ∅) :
    l.absorbAll (coming socket emissions) =
      l.absorbAll (coming socket (emissions.filter fun emission => emission.trade.isSome)) := by
  induction emissions generalizing l with
  | nil => rfl
  | cons emission emissions ih =>
    have hrest : ∀ other ∈ emissions, other.isResponse = true → other.reaches socket = false :=
      fun other hother => hresponses other (.tail _ hother)
    have hhead : coming socket (emission :: emissions) =
        coming socket [emission] ++ coming socket emissions := coming_append socket [emission] emissions
    rw [hhead, absorbAll_append]
    cases htrade : emission.trade with
    | none =>
      have hsame : l.absorbAll (coming socket [emission]) = l := by
        cases hreaches : emission.reaches socket with
        | false => simp [coming, hreaches, absorbAll]
        | true =>
          have hresponse : emission.isResponse = false := by
            by_contra hyes
            rw [hresponses emission (.head _) (eq_true_of_ne_false hyes)] at hreaches
            cases hreaches
          simp [coming, hreaches, absorbAll, absorb_untraded htrade hresponse hempty]
      rw [hsame, ih hrest hempty, List.filter_cons_of_neg (by rw [htrade]; exact Bool.false_ne_true)]
    | some trade =>
      have hresponse : emission.isResponse = false := by
        cases emission <;> first | rfl | cases htrade
      have hkept : (l.absorbAll (coming socket [emission])).awaiting = ∅ := by
        cases hreaches : emission.reaches socket with
        | false => simpa [coming, hreaches, absorbAll] using hempty
        | true =>
          have hsubset := (absorb_of_no_answer (l := l) (answer_of_not_response 0 hresponse)).2.2
          rw [hempty] at hsubset
          simpa [coming, hreaches, absorbAll] using Set.subset_empty_iff.mp hsubset
      have htrades : (emission :: emissions).filter (fun emission => emission.trade.isSome) =
          [emission] ++ emissions.filter fun emission => emission.trade.isSome :=
        List.filter_cons_of_pos (by rw [htrade]; rfl)
      rw [ih hrest hkept, htrades, coming_append, absorbAll_append]

/-- Then a handler's messages to a session are the copies of its trades. -/
theorem absorb_handled (hsocket : 0 ≤ socket) (hcopies : CopiesOf emissions executions)
    (hresponses : ∀ emission ∈ emissions, emission.isResponse = true →
      emission.reaches socket = false) (hempty : l.awaiting = ∅) (hnone : l.duplicatesToIgnore = 0)
    (h : ∀ execution ∈ executions, execution.Copied socket fun id => l.standing id ≠ none) :
    l.Takes executions (l.absorbAll (coming socket emissions)) := by
  rw [absorbAll_trades hresponses hempty, hcopies.2]
  exact absorb_executions hsocket h hnone

theorem absorbAll_level3 (h : ∀ emission ∈ emissions, emission.type = .level3AddOrder ∨
      emission.type = .level3OrderExecuted ∨ emission.type = .level3OrderDeleted) :
    l.absorbAll (coming socket emissions) = l := by
  induction emissions with
  | nil => rfl
  | cons emission emissions ih =>
    have hhead : coming socket (emission :: emissions) =
        coming socket [emission] ++ coming socket emissions := coming_append socket [emission] emissions
    have hsame : l.absorbAll (coming socket [emission]) = l := by
      cases hreaches : emission.reaches socket with
      | false => simp [coming, hreaches, absorbAll]
      | true => simp [coming, hreaches, absorbAll, absorb_level3 0 (h emission (.head _)) l]
    rw [hhead, absorbAll_append, hsame]
    exact ih fun other hother => h other (.tail _ hother)

/-- A new order's trades, the book update that ends them, and Level-3 events. -/
theorem absorbAll_section {deliveries : List ExecutionDelivery} {snapshot : BookSnapshot}
    {level3 : List Emission} (hsymbol : isValidSymbol snapshot.symbol = true)
    (hlevel3 : ∀ emission ∈ level3, emission.type = .level3AddOrder ∨
      emission.type = .level3OrderExecuted ∨ emission.type = .level3OrderDeleted) :
    l.absorbAll (coming socket (executionDeliveries deliveries ++ .bookUpdate snapshot :: level3)) =
      (l.absorbAll (coming socket
        ((deliveries.map ExecutionDelivery.execution).flatMap Execution.copies))).boundary
          snapshot.symbol := by
  have hcopies : executionDeliveries deliveries =
      (deliveries.map ExecutionDelivery.execution).flatMap Execution.copies := by
    rw [List.flatMap_map]
    rfl
  have hupdate : coming socket (.bookUpdate snapshot :: level3) =
      (Emission.bookUpdate snapshot).coreMessage 0 :: coming socket level3 := rfl
  rw [coming_append, absorbAll_append, hcopies, hupdate]
  show (Ledger.absorb _ _).absorbAll _ = _
  rw [absorb_snapshot 0 hsymbol, absorbAll_level3 hlevel3]

end Ledger
end ExchangeLab

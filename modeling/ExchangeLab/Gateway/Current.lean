import ExchangeLab.Gateway.Standing
import ExchangeLab.Gateway.Depletion
import ExchangeLab.Server.Feed

/-!
# ExchangeLab.Gateway.Current

A ledger that has caught up with the core.

* `Standing.Agrees`: the quantities of an order are those of the book and of the trades.
* `Ledger.Current`: so for every order whose request the core has handled, while the others are as
  they were sent.
* `Current.turn`: what is kept of that when a frame is handled.
* `Current.own`, `Current.other`: it is kept when a frame of the session or of another is handled,
  `Current.client` when the client sends a message.
-/

namespace ExchangeLab

open Wire Protocol OrderBook MatchingEngine Container ExchangeServer FixGateway FixBridge

def CoreRequest.symbol : CoreRequest → Symbol
  | .newOrder request => request.symbol
  | .cancelOrder request => request.symbol
  | .replaceOrder request => request.symbol

theorem CoreRequest.command_injective {core core' : CoreRequest} (h : core.command = core'.command) :
    core = core' := by
  cases core <;> cases core' <;> cases h <;> rfl

theorem CoreRequest.eq_newOrder {core : CoreRequest} {id : OrderId} (h : core.placedId = some id) :
    ∃ new, core = .newOrder new ∧ new.orderId = id := by
  cases core with
  | newOrder new => exact ⟨new, rfl, Option.some.inj h⟩
  | cancelOrder | replaceOrder => cases h

theorem traded_append (id : OrderId) (executions executions' : List Execution) :
    traded id (executions ++ executions') =
      traded id executions + shares id (executions'.map Execution.key) := by
  rw [traded, List.map_append, shares_append, traded]

theorem CopiesOf.tail {emission : Emission} {emissions : List Emission}
    {executions : List Execution} (htrade : emission.trade = none)
    (h : CopiesOf (emission :: emissions) executions) : CopiesOf emissions executions := by
  obtain ⟨hexecutions, hcopies⟩ := h
  rw [executionsOf_cons htrade] at hexecutions
  rw [List.filter_cons_of_neg (by rw [htrade]; exact Bool.false_ne_true)] at hcopies
  exact ⟨hexecutions, hcopies⟩

theorem ExchangeServer.remaining_eq_zero {server : ExchangeServer} {x : Bytes} {id : OrderId}
    (h : ¬server.Rests x id) : server.remaining x id = 0 := by
  rw [remaining, not_not.mp h]
  rfl

variable {server server' : ExchangeServer} {executions executions' : List Execution} {x : Bytes}
  {named : Option OrderId}

/-! ## One order -/

namespace Standing

/-- The quantities are what is left of the order in the book of its symbol and what was traded of it.
It rests in no other book. -/
structure Agrees (server : ExchangeServer) (executions : List Execution) (id : OrderId)
    (standing : Standing) : Prop where
  leaves : standing.leaves = server.remaining (symbolToString standing.symbol) id
  cumulative : standing.cumulative = traded id executions
  lodged : ∀ x, server.Rests x id → x = symbolToString standing.symbol

/-- A new order before the core has handled it. -/
def ofRequest (request : NewOrderRequest) : Standing where
  symbol := request.symbol
  rests := mayRest (orderOf request)
  leaves := request.quantity.toNat
  cumulative := 0

/-- An order that the command does not name loses what the trades name it for. -/
theorem Agrees.turn {standing : Standing} {id : OrderId}
    (h : standing.Agrees server executions id)
    (hdepletes : Depletes x named server server' executions') (hid : named ≠ some id) :
    (standing.fill (shares id (executions'.map Execution.key))).Agrees server'
      (executions ++ executions') id := by
  have hleft := hdepletes.others id hid
  have hleaves := h.leaves
  have hsame : ∀ y, y ≠ x → (server'.Rests y id ↔ server.Rests y id) ∧
      server'.remaining y id = server.remaining y id := by
    intro y hy
    have hfound := hdepletes.elsewhere y hy id
    exact ⟨by rw [ExchangeServer.Rests, hfound]; rfl, congrArg left hfound⟩
  have hshares : shares id (executions'.map Execution.key) ≤ standing.leaves ∧
      standing.leaves - shares id (executions'.map Execution.key) =
        server'.remaining (symbolToString standing.symbol) id := by
    by_cases hx : x = symbolToString standing.symbol
    · rw [← hx] at hleaves ⊢
      omega
    · have hzero := remaining_eq_zero fun hrests => hx (h.lodged x hrests)
      rw [(hsame _ (Ne.symm hx)).2]
      omega
  refine ⟨hshares.2, ?_, fun y hrests => ?_⟩
  · rw [traded_append, ← h.cumulative, Standing.fill]
    exact congrArg (standing.cumulative + ·) (Nat.min_eq_right hshares.1)
  · by_cases hy : y = x
    · subst hy
      exact h.lodged y (hdepletes.rests id hid hrests)
    · exact h.lodged y ((hsame y hy).1.mp hrests)

end Standing

/-! ## One session -/

namespace Ledger

/-- The core has handled all but some requests of the session, and nothing is on the way to it. -/
structure Current (waiting : List Request) (server : ExchangeServer) (executions : List Execution)
    (l : Ledger) : Prop where
  empty : l.awaiting = ∅
  even : l.duplicatesToIgnore = 0
  symbols : ∀ request ∈ waiting, ∀ standing, l.standing request.orderId = some standing →
    request.core.symbol = standing.symbol
  sized : ∀ request ∈ waiting, ∀ replacement, request.core = .replaceOrder replacement →
    request.pending.replacementWorkingQuantity = replacement.newQuantity.toNat
  unhandled : ∀ request ∈ waiting, ∀ new, request.core = .newOrder new →
    l.standing new.orderId = some (.ofRequest new)
  handled : ∀ id standing, l.standing id = some standing →
    (∀ request ∈ waiting, request.core.placedId ≠ some id) → standing.Agrees server executions id

variable {waiting waiting' : List Request} {l l' l₂ : Ledger} {request : Request}

theorem Current.congr (h : l.Current waiting server executions)
    (hsame : ∀ x, server'.instrumentFor x = server.instrumentFor x) :
    l.Current waiting server' executions where
  empty := h.empty
  even := h.even
  symbols := h.symbols
  sized := h.sized
  unhandled := h.unhandled
  handled id standing hstanding hplacers := by
    have hagrees := h.handled id standing hstanding hplacers
    refine ⟨?_, hagrees.cumulative, fun x hrests => hagrees.lodged x ?_⟩
    · rw [ExchangeServer.remaining, hsame]
      exact hagrees.leaves
    · rwa [ExchangeServer.Rests, hsame] at hrests

theorem standing_keeps (h : KeepsOrders l.orders l'.orders) {id : OrderId} {standing' : Standing}
    (hstanding : l'.standing id = some standing') :
    ∃ standing, l.standing id = some standing ∧ standing'.symbol = standing.symbol := by
  obtain ⟨order', horder', rfl⟩ := Option.map_eq_some_iff.mp hstanding
  obtain ⟨order, horder, hsymbol, -⟩ := h id order' horder'
  exact ⟨order.standing, by rw [standing, horder]; rfl, hsymbol⟩

/-- A frame was handled, and its messages have arrived. But for one of them, the orders are those that
lose what the trades name them for. -/
theorem Current.turn (h : l.Current waiting server executions)
    (hdepletes : Depletes x named server server' executions')
    (hunknown : ∀ request ∈ waiting, ∀ id, request.core.placedId = some id →
      ∀ y, ¬server.Rests y id)
    (hkeeps : KeepsOrders l.orders l'.orders) (hempty : l'.awaiting = ∅)
    (heven : l'.duplicatesToIgnore = 0) (hsubset : waiting' ⊆ waiting) (own : Option OrderId)
    (hothers : ∀ id, own ≠ some id → l.standing id ≠ none → named ≠ some id ∧
      l'.standing id =
        (l.standing id).map (Standing.fill (shares id (executions'.map Execution.key))) ∧
      ∀ request ∈ waiting, request.core.placedId = some id → request ∈ waiting')
    (hown : ∀ id, own = some id → (∀ request ∈ waiting', request.core.placedId ≠ some id) ∧
      ∀ standing, l'.standing id = some standing →
        standing.Agrees server' (executions ++ executions') id) :
    l'.Current waiting' server' (executions ++ executions') where
  empty := hempty
  even := heven
  symbols request hmem standing' hstanding' := by
    obtain ⟨standing, hstanding, hsymbol⟩ := standing_keeps hkeeps hstanding'
    rw [hsymbol]
    exact h.symbols request (hsubset hmem) standing hstanding
  sized request hmem := h.sized request (hsubset hmem)
  unhandled request hmem new hnew := by
    have hplaced : request.core.placedId = some new.orderId := by rw [hnew]; rfl
    have hstanding := h.unhandled request (hsubset hmem) new hnew
    have hother : own ≠ some new.orderId := fun heq => (hown _ heq).1 request hmem hplaced
    obtain ⟨hnamed, hfill, -⟩ := hothers _ hother (by rw [hstanding]; exact Option.some_ne_none _)
    have hleft := hdepletes.others _ hnamed
    rw [remaining_eq_zero (hunknown request (hsubset hmem) _ hplaced x)] at hleft
    rw [hfill, hstanding, (Nat.add_eq_zero_iff.mp hleft).2, Option.map_some, Standing.fill_zero]
  handled id standing' hstanding' hplacers := by
    by_cases hid : own = some id
    · exact (hown id hid).2 standing' hstanding'
    · obtain ⟨standing, hstanding, -⟩ := standing_keeps hkeeps hstanding'
      obtain ⟨hnamed, hfill, hkept⟩ := hothers id hid (by rw [hstanding]; exact Option.some_ne_none _)
      rw [hfill, hstanding] at hstanding'
      cases hstanding'
      exact (h.handled id standing hstanding fun request hmem hplaced =>
        hplacers request (hkept request hmem hplaced) hplaced).turn hdepletes hnamed

/-- The frame was another session's. -/
theorem Current.other (h : l.Current waiting server executions)
    (hdepletes : Depletes x named server server' executions')
    (hunknown : ∀ request ∈ waiting, ∀ id, request.core.placedId = some id →
      ∀ y, ¬server.Rests y id)
    (hkeeps : KeepsOrders l.orders l'.orders) (htakes : l.Takes executions' l')
    (hnamed : ∀ id, named = some id → l.standing id = none) :
    l'.Current waiting server' (executions ++ executions') := by
  refine h.turn hdepletes hunknown hkeeps (htakes.awaiting.trans h.empty)
    (htakes.duplicates.trans h.even) (List.Subset.refl _) none (fun id _ hsome => ?_)
    fun id hown => by cases hown
  exact ⟨fun heq => hsome (hnamed id heq), htakes.standing id, fun _ hmem _ => hmem⟩

/-! ## Answers -/

/-- The request is the next to be answered. The core does not know the orders that it and those behind
it place, each of which is placed once. -/
structure Fronts (server : ExchangeServer) (request : Request) (waiting : List Request) (l : Ledger) :
    Prop where
  pending : ∃ rest, l.pending request.orderId = request.pending :: rest
  kind : request.pending.kind = request.core.kind
  keyed : l.Keyed
  unknown : ∀ other ∈ request :: waiting, ∀ id, other.core.placedId = some id →
    ∀ y, ¬server.Rests y id
  once : ∀ other ∈ waiting, ∀ id, request.core.placedId = some id → other.core.placedId ≠ some id

section Answers

/-- Every order takes part in no trade. -/
theorem standing_untraded (id : OrderId) (standing : Option Standing) :
    standing = standing.map (Standing.fill (shares id (([] : List Execution).map Execution.key))) := by
  cases standing with
  | none => rfl
  | some standing => exact congrArg some (Standing.fill_zero standing).symm

theorem Fronts.awaiting (h : Fronts server request waiting l) (hempty : l.awaiting = ∅)
    {success : Bool} (hanswer : request.core.kind ≠ .new ∨ success = false) :
    (l.respond request.orderId success).awaiting = ∅ := by
  obtain ⟨rest, hpending⟩ := h.pending
  refine Set.eq_empty_of_forall_notMem fun i hi => ?_
  obtain ⟨-, hkind, hsuccess, -⟩ := (respond_awaiting hpending hempty h.keyed i).mp hi
  rcases hanswer with hanswer | hanswer
  · exact hanswer (h.kind.symm.trans hkind)
  · rw [hanswer] at hsuccess
    cases hsuccess

/-- Other orders are not what the response is about. -/
theorem Fronts.standing_other (h : Fronts server request waiting l) {success : Bool} {id : OrderId}
    (hid : id ≠ request.orderId) :
    (l.respond request.orderId success).standing id = l.standing id := by
  obtain ⟨rest, hpending⟩ := h.pending
  rw [respond_standing hpending, if_neg hid]

theorem Fronts.standing_own (h : Fronts server request waiting l) {success : Bool} :
    (l.respond request.orderId success).standing request.orderId =
      (l.standing request.orderId).bind (Standing.answer request.pending success) := by
  obtain ⟨rest, hpending⟩ := h.pending
  rw [respond_standing hpending, if_pos rfl]

/-- Requests that place other orders are behind it. -/
theorem mem_behind {id : OrderId} (hid : some request.orderId ≠ some id) {other : Request}
    (hmem : other ∈ request :: waiting) (hother : other.core.placedId = some id) : other ∈ waiting := by
  rcases List.mem_cons.mp hmem with rfl | hmem
  · obtain ⟨new, hnew, rfl⟩ := CoreRequest.eq_newOrder hother
    exact absurd (by rw [Request.orderId, hnew]; rfl) hid
  · exact hmem

/-- A request that is rejected changes nothing but that a new order is no more there. -/
theorem Current.rejected (h : l.Current (request :: waiting) server executions)
    (hfronts : Fronts server request waiting l)
    (hsame : ∀ y, server'.instrumentFor y = server.instrumentFor y) :
    (l.respond request.orderId false).Current waiting server' executions := by
  have hdepletes := depletes_of_same hsame []
  have hkeeps := l.respond_keepsOrders request.orderId false
  have hempty : (l.respond request.orderId false).awaiting = ∅ := hfronts.awaiting h.empty (.inr rfl)
  have heven := (respond_duplicates request.orderId false l).trans h.even
  have hkind := hfronts.kind
  rw [← List.append_nil executions]
  cases hplaced : request.core.placedId with
  | some id =>
    obtain ⟨new, hcore, rfl⟩ := CoreRequest.eq_newOrder hplaced
    have hid : request.orderId = new.orderId := by rw [Request.orderId, hcore]; rfl
    rw [hcore] at hkind
    refine h.turn hdepletes hfronts.unknown hkeeps hempty heven (List.subset_cons_self _ _)
      (some request.orderId) (fun i hi _ => ⟨nofun, ?_, fun _ => mem_behind hi⟩) fun i hi => ?_
    · rw [hfronts.standing_other fun heq => hi (congrArg some heq.symm)]
      exact standing_untraded i _
    · cases hi
      rw [hid]
      refine ⟨fun other hmem => hfronts.once other hmem _ hplaced, fun standing hsome => ?_⟩
      rw [← hid, hfronts.standing_own] at hsome
      obtain ⟨_, -, hnone⟩ := Option.bind_eq_some_iff.mp hsome
      unfold Standing.answer at hnone
      rw [hkind] at hnone
      cases hnone
  | none =>
    refine h.turn hdepletes hfronts.unknown hkeeps hempty heven (List.subset_cons_self _ _) none
      (fun i _ _ => ⟨nofun, ?_, fun other hmem hother => ?_⟩) nofun
    · refine Eq.trans ?_ (standing_untraded i _)
      by_cases hi : i = request.orderId
      · have hanswer : ∀ standing, Standing.answer request.pending false standing = some standing := by
          intro standing
          unfold Standing.answer
          rw [hkind]
          cases hcore : request.core with
          | newOrder => rw [hcore] at hplaced; cases hplaced
          | cancelOrder | replaceOrder => rfl
        rw [hi, hfronts.standing_own, funext hanswer]
        exact Option.bind_fun_some _
      · exact hfronts.standing_other hi
    · rcases List.mem_cons.mp hmem with rfl | hmem
      · rw [hplaced] at hother
        cases hother
      · exact hmem

/-- The book update behind the trades of a new order, which has lost what was traded of it, closes it
if it does not rest. -/
theorem Current.reached {new : NewOrderRequest} (h : l.Current (request :: waiting) server executions)
    (hcore : request.core = .newOrder new) (hfronts : Fronts server request waiting l)
    (htakes : (l.respond new.orderId true).Takes executions' l₂) :
    (l₂.boundary new.symbol).awaiting = ∅ ∧
      (∀ i, i ≠ new.orderId → (l₂.boundary new.symbol).standing i = l₂.standing i) ∧
      (l₂.boundary new.symbol).standing new.orderId = some
        { (Standing.ofRequest new).fill (shares new.orderId (executions'.map Execution.key)) with
          leaves := if mayRest (orderOf new) = true then
            new.quantity.toNat - shares new.orderId (executions'.map Execution.key) else 0 } := by
  have hid : request.orderId = new.orderId := by rw [Request.orderId, hcore]; rfl
  have hkind : request.pending.kind = .new := by rw [hfronts.kind, hcore]; rfl
  have hsent := h.unhandled request (.head _) new hcore
  obtain ⟨rest, hpending⟩ := hfronts.pending
  have hstanding : l₂.standing new.orderId = some
      ((Standing.ofRequest new).fill (shares new.orderId (executions'.map Execution.key))) := by
    have hown : (l.respond request.orderId true).standing request.orderId = _ := hfronts.standing_own
    rw [hid] at hown
    rw [htakes.standing, hown, hsent, Option.bind_some]
    unfold Standing.answer
    rw [hkind]
    rfl
  have hawaiting : ∀ i, i ∈ l₂.awaiting ↔ i = new.orderId ∧ mayRest (orderOf new) = false := by
    intro i
    have hrespond : i ∈ (l.respond request.orderId true).awaiting ↔ _ :=
      respond_awaiting hpending h.empty hfronts.keyed i
    rw [hid] at hrespond
    rw [htakes.awaiting, hrespond, hkind, hsent]
    refine and_congr_right fun _ => ⟨?_, fun hrests => ⟨rfl, rfl, _, rfl, hrests⟩⟩
    rintro ⟨-, -, _, ⟨⟩, hrests⟩
    exact hrests
  refine ⟨Set.eq_empty_of_forall_notMem fun i hi => ?_, fun i hi => ?_, ?_⟩
  · obtain ⟨hi, order, horder, hsymbol⟩ := hi
    obtain ⟨rfl, -⟩ := (hawaiting i).mp hi
    rw [standing, horder] at hstanding
    exact hsymbol (congrArg Standing.symbol (Option.some.inj hstanding))
  · exact standing_boundary_unawaited _ fun hmem => hi ((hawaiting i).mp hmem).1
  · cases hrests : mayRest (orderOf new) with
    | true =>
      have hunawaited : new.orderId ∉ l₂.awaiting := fun hmem => by
        rw [((hawaiting _).mp hmem).2] at hrests
        cases hrests
      rw [standing_boundary_unawaited _ hunawaited, hstanding]
      rfl
    | false =>
      rw [standing_boundary_awaited _ ((hawaiting _).mpr ⟨rfl, hrests⟩), hstanding]
      exact congrArg some (if_pos rfl)

/-- A new order that is accepted: it loses what is traded of it on arrival, and at the book update
what is left if that does not rest. -/
theorem Current.placed {new : NewOrderRequest} (h : l.Current (request :: waiting) server executions)
    (hcore : request.core = .newOrder new) (hfronts : Fronts server request waiting l)
    (huntraded : traded new.orderId executions = 0)
    (hdepletes : Depletes (symbolToString new.symbol) (some new.orderId) server server' executions')
    (hmost : shares new.orderId (executions'.map Execution.key) ≤ new.quantity.toNat)
    (hremaining : server'.remaining (symbolToString new.symbol) new.orderId =
      if mayRest (orderOf new) = true then
        new.quantity.toNat - shares new.orderId (executions'.map Execution.key) else 0)
    (htakes : (l.respond new.orderId true).Takes executions' l₂)
    (hkeeps : KeepsOrders l.orders (l₂.boundary new.symbol).orders) :
    (l₂.boundary new.symbol).Current waiting server' (executions ++ executions') := by
  have hid : request.orderId = new.orderId := by rw [Request.orderId, hcore]; rfl
  have hplaced : request.core.placedId = some new.orderId := by rw [hcore]; rfl
  obtain ⟨hempty, hothers, hown⟩ := h.reached hcore hfronts htakes
  have heven : (l₂.boundary new.symbol).duplicatesToIgnore = 0 :=
    htakes.duplicates.trans ((respond_duplicates new.orderId true l).trans h.even)
  refine h.turn hdepletes hfronts.unknown hkeeps hempty heven (List.subset_cons_self _ _)
    (some new.orderId) (fun i hi _ => ⟨hi, ?_, fun _ => mem_behind (by rwa [hid])⟩) fun i hi => ?_
  · have hne : i ≠ new.orderId := fun heq => hi (congrArg some heq.symm)
    rw [hothers i hne, htakes.standing, ← hid, hfronts.standing_other (by rwa [hid])]
  · cases hi
    refine ⟨fun other hmem => hfronts.once other hmem _ hplaced, fun standing' hsome => ?_⟩
    cases hown.symm.trans hsome
    refine ⟨hremaining.symm, ?_, fun y hrests => ?_⟩
    · rw [traded_append, huntraded, Nat.zero_add]
      exact (Nat.zero_add _).trans (Nat.min_eq_right hmost)
    · by_contra hne
      rw [ExchangeServer.Rests, hdepletes.elsewhere y hne] at hrests
      exact hfronts.unknown request (.head _) _ hplaced y hrests

/-- A request that is accepted for an order that rests: `q` of it is left, which loses what is traded of
it. -/
theorem Current.renewed {q : Nat} {id : OrderId} {symbol : Symbol}
    (h : l.Current (request :: waiting) server executions) (hfronts : Fronts server request waiting l)
    (hid : request.orderId = id) (hsymbol : request.core.symbol = symbol)
    (hkind : request.core.kind ≠ .new)
    (hanswer : ∀ standing, Standing.answer request.pending true standing =
      some { standing with leaves := q })
    (hrests : server.Rests (symbolToString symbol) id)
    (hdepletes : Depletes (symbolToString symbol) (some id) server server' executions')
    (hmost : shares id (executions'.map Execution.key) ≤ q)
    (hremaining : server'.remaining (symbolToString symbol) id =
      q - shares id (executions'.map Execution.key))
    (htakes : (l.respond id true).Takes executions' l₂) (hkeeps : KeepsOrders l.orders l₂.orders) :
    l₂.Current waiting server' (executions ++ executions') := by
  subst hid hsymbol
  have hknown : ∀ other ∈ request :: waiting, other.core.placedId ≠ some request.orderId :=
    fun other hmem hplaced => hfronts.unknown other hmem _ hplaced _ hrests
  have hempty : l₂.awaiting = ∅ := htakes.awaiting.trans (hfronts.awaiting h.empty (.inl hkind))
  have heven : l₂.duplicatesToIgnore = 0 :=
    htakes.duplicates.trans ((respond_duplicates request.orderId true l).trans h.even)
  refine h.turn hdepletes hfronts.unknown hkeeps hempty heven (List.subset_cons_self _ _)
    (some request.orderId) (fun i hi _ => ⟨hi, ?_, fun _ => mem_behind hi⟩) fun i hi => ?_
  · rw [htakes.standing, hfronts.standing_other fun heq => hi (congrArg some heq.symm)]
  · cases hi
    refine ⟨fun other hmem => hknown other (.tail _ hmem), fun standing' hsome => ?_⟩
    rw [htakes.standing, hfronts.standing_own] at hsome
    obtain ⟨renewed, hrenewed, rfl⟩ := Option.map_eq_some_iff.mp hsome
    obtain ⟨standing, hstanding, heq⟩ := Option.bind_eq_some_iff.mp hrenewed
    rw [hanswer] at heq
    cases heq
    have hagrees := h.handled _ standing hstanding hknown
    have hsymbol := h.symbols request (.head _) standing hstanding
    rw [hsymbol] at hremaining hdepletes
    refine ⟨hremaining.symm, ?_, fun y hy => ?_⟩
    · rw [traded_append, ← hagrees.cumulative]
      exact congrArg (standing.cumulative + ·) (Nat.min_eq_right hmost)
    · by_contra hne
      rw [ExchangeServer.Rests, hdepletes.elsewhere y hne] at hy
      exact hne (hagrees.lodged y hy)

end Answers

/-! ## Handled frames -/

section Handled

variable {order : SetOrder} {socket : Socket} {emissions : List Emission} {log : List Event}

theorem answer_true (pending : PendingRequest) (standing : Standing) :
    ∃ standing', standing.answer pending true = some standing' := by
  unfold Standing.answer
  cases pending.kind
  · exact ⟨_, rfl⟩
  · exact ⟨_, rfl⟩
  · exact ⟨_, rfl⟩

/-- An acceptance makes no order absent. -/
theorem Fronts.owned (h : Fronts server request waiting l) (id : OrderId) :
    (l.respond request.orderId true).standing id ≠ none ↔ l.standing id ≠ none := by
  by_cases hid : id = request.orderId
  · rw [hid, h.standing_own]
    cases l.standing request.orderId with
    | none => exact Iff.rfl
    | some standing =>
      obtain ⟨standing', hanswer⟩ := answer_true request.pending standing
      rw [Option.bind_some, hanswer]
      exact iff_of_true (Option.some_ne_none _) (Option.some_ne_none _)
  · rw [h.standing_other hid]

/-- The response comes first. -/
theorem absorbAll_response {id : OrderId} {success : Bool} {type : MessageType}
    (htype : type = .orderAccepted ∨ type = .orderCancelled ∨ type = .orderReplaced)
    (emissions : List Emission) (l : Ledger) :
    l.absorbAll (coming socket (.orderResponse socket id success type :: emissions)) =
      (l.respond id success).absorbAll (coming socket emissions) := by
  have hfirst : coming socket (.orderResponse socket id success type :: emissions) =
      (Emission.orderResponse socket id success type).coreMessage 0 :: coming socket emissions := by
    simp [coming, Emission.reaches]
  rw [hfirst, ← absorb_of_answer (l := l) (orderResponse_answer 0 socket id success htype)]
  rfl

/-- A rejection. -/
theorem Current.refused (h : l.Current (request :: waiting) server executions)
    (hfronts : Fronts server request waiting l) {orderId : OrderId} {type : MessageType}
    (hresponds : RespondsTo socket request.orderId [.orderResponse socket orderId false type])
    (hsame : ∀ y, server'.instrumentFor y = server.instrumentFor y) :
    (l.absorbAll (coming socket [.orderResponse socket orderId false type])).Current waiting server'
      executions := by
  obtain ⟨success, type', hfilter, htype⟩ := hresponds
  cases hfilter
  rw [absorbAll_response htype]
  exact h.rejected hfronts hsame

theorem level3_types (settled : Settled) (emission : Emission)
    (h : emission ∈ settled.executions.map Emission.level3OrderExecuted ++
      (settled.deletions.map .level3OrderDeleted ++ settled.added.toList.map .level3AddOrder)) :
    emission.type = .level3AddOrder ∨ emission.type = .level3OrderExecuted ∨
      emission.type = .level3OrderDeleted := by
  simp only [List.mem_append, List.mem_map] at h
  rcases h with ⟨_, -, rfl⟩ | ⟨_, -, rfl⟩ | ⟨_, -, rfl⟩
  · exact .inr (.inl rfl)
  · exact .inr (.inr rfl)
  · exact .inl rfl

theorem Current.accepted_new {frame : Frame} {new : NewOrderRequest} {trades : List Trade}
    {book : OrderBook} {snapshot : BookSnapshot}
    (h : l.Current (request :: waiting) server executions) (hcore : request.core = .newOrder new)
    (hfronts : Fronts server request waiting l)
    (hplaced : Placed socket frame server new trades book snapshot) (hownership : Ownership log server)
    (hopen : socket ∈ server.clientSockets) (hsocket : 0 ≤ socket)
    (huntraded : traded new.orderId executions = 0)
    (hinsert : server'.instruments = server.instruments.insert (symbolToString new.symbol)
      (server.placedSettled order socket new trades book).instrument)
    (hemissions : emissions = newOrderEmissions socket new.orderId
      (server.placedSettled order socket new trades book) snapshot)
    (hcopied : ∀ execution ∈ executionsOf emissions, execution.Copied socket
      fun id => (l.respond request.orderId true).standing id ≠ none) :
    (l.absorbAll (coming socket emissions)).Current waiting server'
      (executions ++ executionsOf emissions) := by
  have hid : request.orderId = new.orderId := by rw [Request.orderId, hcore]; rfl
  have hsymbol := snapshot_symbol hplaced.captured
  have hvalid : isValidSymbol snapshot.symbol = true := by
    rw [hsymbol]
    exact (decodeNewOrder_valid hplaced.decoded).symbol
  obtain ⟨hdepletes, hmost, hremaining⟩ := hplaced.depletes order hownership hopen hinsert hemissions
  have hexecutions : executionsOf emissions = (server.placedSettled order socket new trades
      book).deliveries.map ExecutionDelivery.execution := by
    rw [hemissions]
    exact (newOrderEmissions_copies ..).1
  have hsplit : emissions = .orderResponse socket new.orderId true .orderAccepted ::
      (executionDeliveries (server.placedSettled order socket new trades book).deliveries ++
        .bookUpdate snapshot :: ((server.placedSettled order socket new trades
          book).executions.map .level3OrderExecuted ++
          ((server.placedSettled order socket new trades book).deletions.map .level3OrderDeleted ++
            (server.placedSettled order socket new trades book).added.toList.map .level3AddOrder))) := by
    rw [hemissions]
    simp [newOrderEmissions]
  have habsorbed : l.absorbAll (coming socket emissions) = ((l.respond new.orderId true).absorbAll
      (coming socket ((executionsOf emissions).flatMap Execution.copies))).boundary new.symbol := by
    rw [hexecutions, hsplit, absorbAll_response (.inl rfl),
      absorbAll_section hvalid (level3_types _), hsymbol]
  have hkeeps := absorbAll_keepsOrders (coming socket emissions) l
  rw [hid] at hcopied
  rw [habsorbed] at hkeeps ⊢
  exact h.placed hcore hfronts huntraded hdepletes hmost hremaining
    (absorb_executions hsocket hcopied ((respond_duplicates _ _ l).trans h.even)) hkeeps

theorem Current.accepted_cancel {frame : Frame} {cancel : CancelOrderRequest}
    {instrument : InstrumentState} {book : OrderBook} {snapshot : BookSnapshot}
    (h : l.Current (request :: waiting) server executions) (hcore : request.core = .cancelOrder cancel)
    (hfronts : Fronts server request waiting l)
    (hcancelled : Cancelled socket frame server cancel instrument book snapshot)
    (hbooks : server.BooksConsistent) {instrument' : InstrumentState}
    (hinsert : server'.instruments =
      server.instruments.insert (symbolToString cancel.symbol) instrument')
    (hbook : instrument'.book = book) :
    (l.absorbAll (coming socket [.orderResponse socket cancel.orderId true .orderCancelled,
      .bookUpdate snapshot, .level3OrderDeleted ⟨cancel.orderId, 0, cancel.symbol⟩])).Current waiting
        server' executions := by
  have hid : request.orderId = cancel.orderId := by rw [Request.orderId, hcore]; rfl
  have hkind : request.core.kind ≠ .new := by rw [hcore]; nofun
  obtain ⟨hdepletes, hremaining⟩ := hcancelled.depletes hbooks hinsert hbook
  have hrests : server.Rests (symbolToString cancel.symbol) cancel.orderId := by
    have howned := hcancelled.owned
    rw [ownsResting, Bool.and_eq_true, Option.isSome_iff_ne_none] at howned
    rw [ExchangeServer.Rests, instrumentFor_of_found hcancelled.found]
    exact howned.2
  have hempty : (l.respond request.orderId true).awaiting = ∅ := hfronts.awaiting h.empty (.inl hkind)
  rw [hid] at hempty
  have hquiet : (l.respond cancel.orderId true).absorbAll (coming socket
      [.bookUpdate snapshot, .level3OrderDeleted ⟨cancel.orderId, 0, cancel.symbol⟩]) = _ :=
    absorbAll_trades (by simp [Emission.isResponse]) hempty
  have hkeeps := l.respond_keepsOrders cancel.orderId true
  rw [absorbAll_response (.inr (.inl rfl)), hquiet]
  have hanswer : ∀ standing, Standing.answer request.pending true standing =
      some { standing with leaves := 0 } := by
    intro standing
    unfold Standing.answer
    rw [hfronts.kind, hcore]
    rfl
  rw [← List.append_nil executions]
  exact h.renewed hfronts hid (by rw [hcore]; rfl) hkind hanswer hrests hdepletes (Nat.le_refl 0)
    hremaining (.refl _) hkeeps

theorem Current.accepted_replace {frame : Frame} {replacement : ReplaceOrderRequest}
    {instrument : InstrumentState} {trades : List Trade} {book : OrderBook} {snapshot : BookSnapshot}
    (h : l.Current (request :: waiting) server executions)
    (hcore : request.core = .replaceOrder replacement) (hfronts : Fronts server request waiting l)
    (hreplaced : Replaced socket frame server replacement instrument trades book snapshot)
    (hownership : Ownership log server) (hopen : socket ∈ server.clientSockets) (hsocket : 0 ≤ socket)
    (hrestable : ∀ y, server.Restable y request.orderId)
    (hinsert : server'.instruments = server.instruments.insert (symbolToString replacement.symbol)
      (dropUnrested replacement.orderId
        (server.replacedSettled order socket replacement instrument trades book)))
    (hemissions : emissions = replaceOrderEmissions socket replacement.orderId replacement.symbol
      (server.replacedSettled order socket replacement instrument trades book) snapshot)
    (hcopied : ∀ execution ∈ executionsOf emissions, execution.Copied socket
      fun id => (l.respond request.orderId true).standing id ≠ none) :
    (l.absorbAll (coming socket emissions)).Current waiting server'
      (executions ++ executionsOf emissions) := by
  have hid : request.orderId = replacement.orderId := by rw [Request.orderId, hcore]; rfl
  have hkind : request.core.kind ≠ .new := by rw [hcore]; nofun
  obtain ⟨hdepletes, hleft⟩ := hreplaced.depletes order hownership hopen hinsert hemissions
  obtain ⟨hmost, hremaining⟩ := hleft (by rw [← hid]; exact hrestable _)
  have hrests : server.Rests (symbolToString replacement.symbol) replacement.orderId := by
    have howned := hreplaced.owned
    rw [ownsResting, Bool.and_eq_true, Option.isSome_iff_ne_none] at howned
    rw [ExchangeServer.Rests, instrumentFor_of_found hreplaced.found]
    exact howned.2
  obtain ⟨tail, hsplit⟩ : ∃ tail,
      emissions = .orderResponse socket replacement.orderId true .orderReplaced :: tail :=
    ⟨_, hemissions⟩
  have hresponse := replaceOrderEmissions_response socket replacement.orderId replacement.symbol
    (server.replacedSettled order socket replacement instrument trades book) snapshot
  have hcopies := replaceOrderEmissions_copies socket replacement.orderId replacement.symbol
    (server.replacedSettled order socket replacement instrument trades book) snapshot
  rw [← hemissions, hsplit] at hresponse hcopies
  rw [← hcopies.1] at hcopies
  have hnone := List.filter_eq_nil_iff.mp (List.cons.inj hresponse).2
  have hkeeps := absorbAll_keepsOrders (coming socket emissions) l
  rw [hid, hsplit] at hcopied
  have hempty : (l.respond request.orderId true).awaiting = ∅ := hfronts.awaiting h.empty (.inl hkind)
  rw [hid] at hempty
  have htakes := absorb_handled hsocket (CopiesOf.tail rfl hcopies)
    (fun emission hmem hyes => absurd hyes (hnone emission hmem)) hempty
    ((respond_duplicates _ _ l).trans h.even) hcopied
  have hanswer : ∀ standing, Standing.answer request.pending true standing =
      some { standing with leaves := replacement.newQuantity.toNat } := by
    intro standing
    unfold Standing.answer
    rw [hfronts.kind, hcore, ← h.sized request (.head _) replacement hcore]
    rfl
  rw [hsplit, absorbAll_response (.inr (.inr rfl))] at hkeeps ⊢
  rw [hsplit] at hdepletes hmost hremaining
  exact h.renewed hfronts hid (by rw [hcore]; rfl) hkind hanswer hrests hdepletes hmost hremaining
    htakes hkeeps

/-- The frame was the session's own. -/
theorem Current.own {frame : Frame} (h : l.Current (request :: waiting) server executions)
    (hfronts : Fronts server request waiting l)
    (hcommand : commandOf frame.header.type frame.body = some request.core.command)
    (hhandled : Handled order socket frame server server' emissions)
    (hresponds : RespondsTo socket request.orderId emissions) (hownership : Ownership log server)
    (hopen : socket ∈ server.clientSockets) (hsocket : 0 ≤ socket)
    (hrestable : ∀ y, server.Restable y request.orderId)
    (huntraded : ∀ id, request.core.placedId = some id → traded id executions = 0)
    (hcopied : ∀ execution ∈ executionsOf emissions,
      execution.Copied socket fun id => l.standing id ≠ none) :
    (l.absorbAll (coming socket emissions)).Current waiting server'
      (executions ++ executionsOf emissions) := by
  have hcopied' : ∀ execution ∈ executionsOf emissions, execution.Copied socket
      fun id => (l.respond request.orderId true).standing id ≠ none := by
    simp only [hfronts.owned]
    exact hcopied
  have hsame : ∀ {core : CoreRequest}, commandOf frame.header.type frame.body = some core.command →
      request.core = core := fun hcore =>
    CoreRequest.command_injective (Option.some.inj (hcommand.symm.trans hcore))
  cases hhandled with
  | ignored htype =>
    rw [commandOf_ignored htype] at hcommand
    cases hcommand
  | rejected =>
    rw [show executionsOf _ = [] from rfl, List.append_nil]
    exact h.refused hfronts hresponds fun _ => rfl
  | @turnedAway _ symbol =>
    rw [show executionsOf _ = [] from rfl, List.append_nil]
    exact h.refused hfronts hresponds (instrumentFor_made server symbol)
  | @placed new trades book snapshot hplaced =>
    have hcore : request.core = .newOrder new := hsame hplaced.command
    exact h.accepted_new hcore hfronts hplaced hownership hopen hsocket
      (huntraded _ (by rw [hcore]; rfl)) rfl rfl hcopied'
  | @cancelled cancel instrument book snapshot hcancelled =>
    have hcore : request.core = .cancelOrder cancel := hsame hcancelled.command
    rw [show executionsOf _ = [] from rfl, List.append_nil]
    exact h.accepted_cancel hcore hfronts hcancelled hownership.books rfl rfl
  | @replaced replacement instrument trades book snapshot hreplaced =>
    have hcore : request.core = .replaceOrder replacement := hsame hreplaced.command
    exact h.accepted_replace hcore hfronts hreplaced hownership hopen hsocket hrestable rfl rfl hcopied'

end Handled

/-! ## Messages of the client -/

/-- A request is sent. No order but one that it places changes. -/
theorem Current.add (h : l.Current waiting server executions) (request : Request)
    (hempty : l'.awaiting = l.awaiting) (heven : l'.duplicatesToIgnore = l.duplicatesToIgnore)
    (hsame : ∀ id, request.core.placedId ≠ some id → l'.standing id = l.standing id)
    (hdistinct : ∀ other ∈ waiting, request.core.placedId ≠ some other.orderId)
    (hsymbol : ∀ standing, l'.standing request.orderId = some standing →
      request.core.symbol = standing.symbol)
    (hsized : ∀ replacement, request.core = .replaceOrder replacement →
      request.pending.replacementWorkingQuantity = replacement.newQuantity.toNat)
    (hnew : ∀ new, request.core = .newOrder new →
      l'.standing new.orderId = some (.ofRequest new)) :
    l'.Current (waiting ++ [request]) server executions := by
  refine ⟨hempty.trans h.empty, heven.trans h.even, fun other hmem standing hstanding => ?_,
    fun other hmem => ?_, fun other hmem new hother => ?_, fun id standing hstanding hplacers => ?_⟩
  · rcases List.mem_append.mp hmem with hmem | hmem
    · rw [hsame _ (hdistinct other hmem)] at hstanding
      exact h.symbols other hmem standing hstanding
    · rw [List.mem_singleton.mp hmem] at hstanding ⊢
      exact hsymbol standing hstanding
  · rcases List.mem_append.mp hmem with hmem | hmem
    · exact h.sized other hmem
    · rw [List.mem_singleton.mp hmem]
      exact hsized
  · rcases List.mem_append.mp hmem with hmem | hmem
    · have hid : other.orderId = new.orderId := by rw [Request.orderId, hother]; rfl
      rw [← hid, hsame _ (hdistinct other hmem), hid]
      exact h.unhandled other hmem new hother
    · rw [List.mem_singleton.mp hmem] at hother
      exact hnew new hother
  · rw [hsame id (hplacers request (List.mem_append_right _ (.head _)))] at hstanding
    exact h.handled id standing hstanding fun other hmem =>
      hplacers other (List.mem_append_left _ hmem)

theorem order_standing {message : Fix.Message} {id timestamp : UInt64} {translated : NewOrderTranslation}
    (h : Translates message id timestamp translated) :
    translated.order.standing = .ofRequest translated.request := by
  have hrests : translated.order.standing.rests = mayRest (orderOf translated.request) := by
    have horderType : (translated.request.orderType ≠ .market) ↔
        convertOrderType translated.request.orderType = .limit := by
      rcases h.orderType with ⟨htype, -⟩ | ⟨htype, -⟩
      · rw [htype]
        exact iff_of_true (by decide) rfl
      · rw [htype]
        exact iff_of_false (fun hne => hne rfl) (by decide)
    have htimeInForce : translated.request.timeInForce = .goodTillCancel ↔
        convertTimeInForce translated.request.timeInForce = .goodTillCancel := by
      rcases h.timeInForce with htime | htime | htime
      · rw [htime]
        exact iff_of_true rfl rfl
      · rw [htime]
        exact iff_of_false (by decide) (by decide)
      · rw [htime]
        exact iff_of_false (by decide) (by decide)
    rw [Bool.eq_iff_iff, mayRest, Bool.and_eq_true, decide_eq_true_eq, decide_eq_true_eq]
    exact decide_eq_true_iff.trans (and_congr horderType htimeInForce)
  rw [Standing.ofRequest, ← hrests]
  rfl

/-- A new order is sent, under an id that no request names. -/
theorem Current.place (h : l.Current waiting server executions) {message : Fix.Message}
    {id timestamp : UInt64} {translated : NewOrderTranslation}
    (htranslated : Translates message id timestamp translated) (pending : PendingRequest)
    (sequenceNumber : UInt64) (hfresh : ∀ other ∈ waiting, other.orderId ≠ id) :
    ((l.push id pending).setOrder id translated.order).Current
      (waiting ++ [⟨.newOrder translated.request, sequenceNumber, pending⟩]) server executions := by
  have hid := htranslated.orderId
  have hstanding : ∀ i, ((l.push id pending).setOrder id translated.order).standing i =
      if i = id then some translated.order.standing else l.standing i := fun i => standing_update _
  rw [order_standing htranslated] at hstanding
  have hown := (hstanding translated.request.orderId).trans (if_pos hid)
  refine h.add _ rfl rfl (fun i hi => ?_) (fun other hmem heq => ?_) (fun standing hsome => ?_)
    nofun fun new hnew => ?_
  · rw [hstanding, if_neg fun heq => hi (by rw [heq, ← hid]; rfl)]
  · exact hfresh other hmem ((Option.some.inj heq).symm.trans hid)
  · cases hown.symm.trans hsome
    rfl
  · cases hnew
    exact hown

/-- A message of the client comes to a session while the core's are on the way to it. -/
theorem Current.client {link : Link} {messages : List CoreMessage} {next : Nat}
    {surroundings : Surroundings} {message : Fix.Message} {effects : Effects}
    (h : (link.session.ledger.absorbAll messages).Current link.unhandled server executions)
    (hanswers : Answers messages link.session.ledger) (hplacing : link.Placing next)
    (hcounter : next < 2 ^ 64)
    (hnames : effects.nextNumericOrderId = next + 1 →
      ∀ message ∈ messages, ¬message.Names (UInt64.ofNat next))
    (hawaiting : UInt64.ofNat next ∉ link.session.ledger.awaiting)
    (heffect : ClientEffect surroundings next message link.session effects) :
    (effects.session.ledger.absorbAll messages).Current (link.unhandled ++ effects.request.toList)
      server executions := by
  have hundrawn := hplacing.undrawn hcounter
  have habsent : link.session.ledger.orders (UInt64.ofNat next) = none := by
    by_contra hsome
    obtain ⟨order, horder⟩ := Option.ne_none_iff_exists'.mp hsome
    exact hundrawn (hplacing.orders _ order horder).1
  -- the symbol of an order is the same when all has arrived
  have hsymbol : ∀ id order, link.session.ledger.orders id = some order → ∀ standing,
      (link.session.ledger.absorbAll messages).standing id = some standing →
        order.symbol = standing.symbol := by
    intro id order horder standing' hstanding'
    obtain ⟨standing, hstanding, heq⟩ := standing_keeps (absorbAll_keepsOrders messages _) hstanding'
    rw [Ledger.standing, horder] at hstanding
    cases hstanding
    exact heq.symm
  cases heffect with
  | kept hledger =>
    rw [hledger, Option.toList_none, List.append_nil]
    exact h
  | unsent _ hledger =>
    have hsame : link.session.ledger.eraseOrder (UInt64.ofNat next) = link.session.ledger := by
      rw [eraseOrder, ← habsent, Function.update_eq_self]
    rw [hledger, hsame, Option.toList_none, List.append_nil]
    exact h
  | @placed session' translated htranslated _ _ hledger =>
    have hspec := translateNewOrderSingle_ok htranslated
    rw [hledger, hspec.orderId, absorbAll_place _ _ hanswers (hnames rfl)
      (fun id order horder => (hplacing.orders id order horder).2) ⟨habsent, hawaiting⟩]
    refine h.place hspec _ _ fun other hmem heq => hundrawn (heq ▸ hplacing.requests other ?_)
    exact List.mem_of_mem_drop hmem
  | @cancelled session' clOrdId origClOrdId id order hfound _ _ _ hledger =>
    rw [hledger, (absorbAll_push _ _ hanswers).1]
    refine h.add _ rfl rfl (fun _ _ => rfl) (fun _ _ heq => ?_) ?_ ?_ ?_
    · cases heq
    · exact hsymbol id order hfound
    · intro _ heq
      cases heq
    · intro _ heq
      cases heq
  | @replaced session' clOrdId origClOrdId id order total price hfound _ _ _ _ _ _ _ hledger =>
    rw [hledger, (absorbAll_push _ _ hanswers).1]
    refine h.add _ rfl rfl (fun _ _ => rfl) (fun _ _ heq => ?_) ?_ ?_ ?_
    · cases heq
    · exact hsymbol _ order (by rw [(hplacing.orders id order hfound).2]; exact hfound)
    · rintro _ ⟨⟩
      exact (UInt64.toNat_ofNat_of_lt'
        (Nat.lt_of_le_of_lt (Nat.sub_le _ _) total.toNat_lt)).symm
    · intro _ heq
      cases heq

end Ledger

end ExchangeLab

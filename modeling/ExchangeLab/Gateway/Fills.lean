import ExchangeLab.Gateway.Accounting

/-!
# ExchangeLab.Gateway.Fills

What the trades of an order add up to, in the core and in the reports of its session, over every run
of the gateway and the core.

* `Fills`: the gateway and the core with whether a session has cut a trade, for want of leaves.
* `fills_reported`: while every copy finds enough left of the orders it names, the LastQty of an order
  add up to what the core has traded; `fills_lost` is a run in which a copy comes too late.
* `no_fill_lost_iff`: once no message is on the way, they do so for every order of a session if and
  only if every copy has found enough left.
-/

namespace ExchangeLab

open Wire Protocol OrderBook MatchingEngine Container ExchangeServer ExchangeLab.Fix FixGateway
  FixBridge Transition Duplicates

namespace Bridge

/-- A copy that a session processes finds enough left of the orders it names. -/
def FillsWhole (s : Bridge) : Label → Prop
  | .deliver socket message =>
    ∀ link, s.links socket = some link → link.session.ledger.FillsWhole message
  | _ => True

/-- The ids of the gateway's are used by its sessions only, and so are the numbers of its connections;
each copy of a trade finds the orders that it names with enough left. -/
def Undisturbed (last : Nat) (s : Bridge) (label : Label) : Prop :=
  s.UnusedIds last label ∧ s.ConnectsUnrecorded label ∧ s.FillsWhole label

end Bridge

/-- The bridge with what became of the trades of each session. -/
structure Fills where
  bridge : Bridge
  /-- Every copy that the session has processed found enough left of the orders it names. -/
  whole : Socket → Prop := fun _ => True

namespace Fills

variable {config : FixGatewayConfig} {limits : RiskLimits} {file : Option (Option Bytes)}
  {server₀ : ExchangeServer} {labels : List Bridge.Label} {label : Bridge.Label} {s : Bridge}
  {f : Fills} {last : Nat}

def starting (server : ExchangeServer) : Fills := { bridge := .starting server }

def after (f : Fills) (label : Bridge.Label) (s : Bridge) : Fills :=
  match label with
  | .accept socket => ⟨s, Function.update f.whole socket True⟩
  | .deliver socket _ =>
    ⟨s, Function.update f.whole socket (f.whole socket ∧ f.bridge.FillsWhole label)⟩
  | _ => { f with bridge := s }

inductive Step (config : FixGatewayConfig) : Fills → Bridge.Label → Fills → Prop
  | mk {f : Fills} {label : Bridge.Label} {s : Bridge} (hstep : Bridge.Step config f.bridge label s) :
      Step config f label (f.after label s)

theorem after_bridge (f : Fills) (label : Bridge.Label) (s : Bridge) :
    (f.after label s).bridge = s := by
  cases label <;> rfl

/-- The sessions account for the trades that they have processed. -/
def Accounts (f : Fills) : Prop :=
  ∀ socket link, f.bridge.links socket = some link → link.Accounts (f.whole socket)

theorem Accounts.after (h : f.Accounts) (hsole : f.bridge.Sole last labels)
    (hplacing : f.bridge.Placing) (hmatched : f.bridge.Matched labels) (hfiltered : f.bridge.Filtered)
    (hstep : Bridge.Step config f.bridge label s) (hlast : s.nextNumericOrderId ≤ last) :
    (f.after label s).Accounts := by
  have hnames : ∀ {socket link}, f.bridge.links socket = some link →
      ∀ key ∈ link.processed, f.bridge.Names key := fun hlink key hmem =>
    .inr (.inr ⟨_, _, hlink, List.mem_append_left _ hmem⟩)
  intro socket link' hlink'
  rw [after_bridge] at hlink'
  have hbridge := hstep
  cases hstep with
  | core _ hlinks =>
    obtain ⟨link, hlink, hsame⟩ := hlinks.sameSession hlink'
    refine (h socket link hlink).congr hsame.2.2 (fun key _ => ?_) ?_ fun id hid hnew => ?_
    · rw [Link.owns_congr hsame.placed]
    · rw [hsame.placed]
      exact List.Subset.refl _
    · exact absurd (hsame.placed ▸ hid) hnew
  | @accept other =>
    show link'.Accounts (Function.update f.whole other True socket)
    rcases Bridge.setLink_cases hlink' with ⟨rfl, rfl⟩ | ⟨hne, hlink⟩
    · rw [Function.update_self]
      exact .start _
    · rw [Function.update_of_ne hne]
      exact h socket link' hlink
  | @client other link surroundings message hlink =>
    rcases Bridge.setLink_cases hlink' with ⟨rfl, rfl⟩ | ⟨hne, hlink⟩
    · have hplaced : link.placed ⊆ (link.forward (processFixMessage config surroundings
          f.bridge.nextNumericOrderId message link.session)).placed := by
        rw [Link.placed_forward]
        exact List.subset_append_left _ _
      exact (h socket link hlink).congr rfl
        (fun key hmem =>
          hsole.owns_same hplacing hbridge hlast hlink hlink' hplaced (hnames hlink key hmem))
        hplaced fun id hid hnew key hmem =>
          hsole.share_eq_zero hplacing hbridge hlast hlink hlink' hid hnew (hnames hlink key hmem)
    · exact h socket link' hlink
  | @deliver other link message rest iteration hlink hnext =>
    show link'.Accounts (Function.update f.whole other
      (f.whole other ∧ f.bridge.FillsWhole (.deliver other message)) socket)
    rcases Bridge.setLink_cases hlink' with ⟨rfl, rfl⟩ | ⟨hne, hlink⟩
    · have hwhole : f.bridge.FillsWhole (.deliver socket message) =
          link.session.ledger.FillsWhole message := by
        refine propext ⟨fun hwhole => hwhole link hlink, fun hwhole link₁ hlink₁ => ?_⟩
        rw [hlink] at hlink₁
        cases hlink₁
        exact hwhole
      rw [Function.update_self, hwhole]
      exact (h socket link hlink).deliver (hfiltered socket link hlink)
        (hplacing.links socket link hlink) fun execution hexecution id hnamed =>
          hsole.named hplacing hmatched hlink hnext hexecution hnamed
    · rw [Function.update_of_ne hne]
      exact h socket link' hlink

theorem bridge_run (h : Run (fun f label f' => Step config f label f' ∧ f.bridge.Unshared last label)
      (starting server₀) labels f) :
    Run (fun s label s' => Bridge.Step config s label s' ∧ s.Unshared last label)
      (.starting server₀) labels f.bridge := by
  induction h with
  | nil => exact .nil _
  | snoc hrun hstep ih =>
    obtain ⟨⟨hstep⟩, hunshared⟩ := hstep
    rw [after_bridge]
    exact ih.snoc ⟨hstep, hunshared⟩

theorem accounts_run (hstart : start limits file = some server₀)
    (hfresh : ∀ x id, server₀.Rests x id → ¬Bridge.GatewayId last id)
    (hrun : Run (fun f label f' => Step config f label f' ∧ f.bridge.Unshared last label)
      (starting server₀) labels f) (hlast : f.bridge.nextNumericOrderId ≤ last) : f.Accounts := by
  induction hrun with
  | nil => exact fun _ _ hlink => by cases hlink
  | snoc hrun hstep ih =>
    have hbefore := bridge_run hrun
    have hsteps := hbefore.mono fun _ _ _ hstep => hstep.1
    obtain ⟨⟨hstep⟩, -⟩ := hstep
    rw [after_bridge] at hlast
    have hfewer := hstep.nextNumericOrderId_le.trans hlast
    have hbooked := (Bridge.accounted_run hstart hfresh hbefore hfewer).booked
    exact (ih hfewer).after hbooked.sole (Bridge.placing_run hstart hsteps)
      (Bridge.matched_run hstart hsteps) hbooked.filtered hstep hlast

/-- A run in which nothing is cut. -/
theorem of_undisturbed
    (h : Run (fun s label s' => Bridge.Step config s label s' ∧ s.Undisturbed last label)
      (.starting server₀) labels s) :
    Run (fun f label f' => Step config f label f' ∧ f.bridge.Unshared last label)
      (starting server₀) labels ⟨s, fun _ => True⟩ := by
  induction h with
  | nil => exact .nil _
  | @snoc s s' labels label hrun hstep ih =>
    obtain ⟨hstep, hunused, hconnects, hwhole⟩ := hstep
    have hsame : after ⟨s, fun _ => True⟩ label s' = ⟨s', fun _ => True⟩ := by
      cases label with
      | core | client => rfl
      | accept socket =>
        exact congrArg (Fills.mk s') (Function.update_eq_self socket fun _ => True)
      | deliver socket message =>
        have htrue : (True ∧ s.FillsWhole (.deliver socket message)) = True :=
          eq_true ⟨trivial, hwhole⟩
        rw [after]
        simp only [htrue]
        exact congrArg (Fills.mk s') (Function.update_eq_self socket fun _ => True)
    have hnext : Step config ⟨s, fun _ => True⟩ label _ := .mk hstep
    rw [hsame] at hnext
    exact ih.snoc ⟨hnext, hunused, hconnects⟩

end Fills

/-- While every copy of a trade finds enough left of the orders that it names, a session never reports
more of an order than the core has traded of it, and just that when no message for the session is on
the way. -/
theorem fills_reported {config : FixGatewayConfig} {limits : RiskLimits}
    {file : Option (Option Bytes)} {server₀ : ExchangeServer} {labels : List Bridge.Label} {s : Bridge}
    (hstart : start limits file = some server₀)
    (hfresh : ∀ x id, server₀.Rests x id → ¬Bridge.GatewayId s.nextNumericOrderId id)
    (hrun : Run (fun s₁ label s₂ => Bridge.Step config s₁ label s₂ ∧
      s₁.Undisturbed s.nextNumericOrderId label) (.starting server₀) labels s)
    {socket : Socket} {link : Link} (hlink : s.links socket = some link) {id : OrderId}
    (hid : id ∈ link.placed) :
    reported id link.replies ≤ traded id s.executions ∧
      (s.Settled socket link → reported id link.replies = traded id s.executions) := by
  have hfills := Fills.of_undisturbed hrun
  have haccounts := Fills.accounts_run hstart hfresh hfills (Nat.le_refl _) socket link hlink
  have haccounted := Bridge.accounted_run hstart hfresh (Fills.bridge_run hfills) (Nat.le_refl _)
  rw [haccounts.exactly.mp trivial id, Link.owed, if_pos hid]
  exact haccounted.taken hlink hid

/-- Once no message for a session is on the way, the LastQty of each of its orders add up to what the
core has traded of it if and only if every copy of a trade has found enough left of the orders that it
names. -/
theorem no_fill_lost_iff {config : FixGatewayConfig} {limits : RiskLimits}
    {file : Option (Option Bytes)} {server₀ : ExchangeServer} {labels : List Bridge.Label} {f : Fills}
    (hstart : start limits file = some server₀)
    (hfresh : ∀ x id, server₀.Rests x id → ¬Bridge.GatewayId f.bridge.nextNumericOrderId id)
    (hrun : Run (fun f₁ label f₂ => Fills.Step config f₁ label f₂ ∧
      f₁.bridge.Unshared f.bridge.nextNumericOrderId label) (.starting server₀) labels f)
    {socket : Socket} {link : Link} (hlink : f.bridge.links socket = some link)
    (hsettled : f.bridge.Settled socket link) :
    (∀ id ∈ link.placed, reported id link.replies = traded id f.bridge.executions) ↔
      f.whole socket := by
  have haccounts := Fills.accounts_run hstart hfresh hrun (Nat.le_refl _) socket link hlink
  have haccounted := Bridge.accounted_run hstart hfresh (Fills.bridge_run hrun) (Nat.le_refl _)
  have howed : ∀ id ∈ link.placed, link.owed id = traded id f.bridge.executions := by
    intro id hid
    rw [Link.owed, if_pos hid]
    exact (haccounted.taken hlink hid).2 hsettled
  rw [haccounts.exactly]
  constructor
  · intro h id
    by_cases hid : id ∈ link.placed
    · exact (h id hid).trans (howed id hid).symm
    · have hatMost := haccounts.atMost id
      rw [Link.owed, if_neg hid] at hatMost ⊢
      exact Nat.le_zero.mp hatMost
  · exact fun h id hid => (h id).trans (howed id hid)

/-! ## Runs that are computed -/

/-- What `FillsWhole` asks of a message, for the two orders that it may name. -/
def Ledger.hasRoom (message : CoreMessage) (l : Ledger) : Bool :=
  message.execution.all fun execution => decide (l.IsDuplicate execution) ||
    [execution.buyOrderId, execution.sellOrderId].all fun id => (l.orders id).all fun order =>
      decide ((selfTradeKey execution).share id ≤ order.leavesQuantity)

theorem Ledger.fillsWhole_of_hasRoom {message : CoreMessage} {l : Ledger}
    (h : l.hasRoom message = true) : l.FillsWhole message := by
  intro execution hexecution hdropped id order horder
  rw [hasRoom, hexecution, Option.all_some, decide_eq_false hdropped, Bool.false_or,
    List.all_eq_true] at h
  by_cases hnamed : id = (selfTradeKey execution).buyOrderId ∨ id = (selfTradeKey execution).sellOrderId
  · have hroom := h id (List.mem_pair.mpr hnamed)
    rw [horder] at hroom
    exact of_decide_eq_true hroom
  · rw [SelfTradeKey.share_of_ne hnamed]
    exact Nat.zero_le _

namespace Bridge

variable {config : FixGatewayConfig} {limits : RiskLimits} {file : Option (Option Bytes)}
  {server₀ : ExchangeServer} {labels : List Label} {label : Label} {s : Bridge} {last : Nat}

/-- Sessions connect before there is an instrument, and what is delivered finds enough left. -/
def undisturbed (move : Move) (s : Bridge) : Bool :=
  match move with
  | .connect _ => decide (s.core.server.instruments.keys = ∅)
  | .deliver socket => (s.links socket).all fun link =>
    link.toGateway.head?.all link.session.ledger.hasRoom
  | _ => true

theorem undisturbed_of_yields {move : Move} (h : undisturbed move s = true)
    (hyields : move.Yields s label) (hunused : s.UnusedIds last label) :
    s.Undisturbed last label := by
  refine ⟨hunused, ?_, ?_⟩
  · cases label with
    | core core =>
      cases core with
      | connect socket =>
        intro _ _ x id owner howner
        rw [hyields.connect socket rfl] at h
        have hnone : s.core.server.instruments.lookup x = none := by
          rw [Finmap.lookup_eq_none, ← Finmap.mem_keys, of_decide_eq_true h]
          exact Finset.notMem_empty x
        rw [recordedOwner, instrumentFor, findInstrument, hnone] at howner
        cases howner
      | disconnect | handle | send | setGlobalKillSwitch => trivial
    | accept | client | deliver => trivial
  · cases label with
    | deliver socket message =>
      intro link hlink
      obtain ⟨rfl, other, rest, hother, hnext⟩ := hyields.deliver socket message rfl
      rw [hlink] at hother
      cases hother
      rw [undisturbed, hlink, Option.all_some, hnext] at h
      exact Ledger.fillsWhole_of_hasRoom h
    | accept | client | core => trivial

/-- Only a connected session has a thread, so these are all there are to look at. -/
def isSettled (link : Link) (s : Bridge) : Bool :=
  link.toGateway.isEmpty && s.core.server.clientSockets.all fun sender =>
    (s.core.sending sender).isEmpty

theorem settled_of_isSettled {socket : Socket} {link : Link}
    (hstart : start limits file = some server₀)
    (hrun : Run (Step config) (starting server₀) labels s) (h : s.isSettled link = true) :
    s.Settled socket link := by
  rw [isSettled, Bool.and_eq_true, List.isEmpty_iff, List.all_eq_true] at h
  refine ⟨h.1, fun sender emission hmem => ?_⟩
  by_cases hopen : sender ∈ s.core.server.clientSockets
  · rw [List.isEmpty_iff.mp (h.2 sender hopen)] at hmem
    cases hmem
  · rw [silent_run hstart hrun sender hopen] at hmem
    cases hmem

/-- A session sells to another one and to itself. The other's copies come before those of its own
trade, which its handler sends while the other's is at it. -/
def sharedMoves : List Move :=
  [.accept 4, .client 4 .reachable .logon, .connect 4, .connect 5,
    .client 4 .reachable (.newOrderSingle "2" "a" "2" "10" "10" "1"),
    .request 4, .send 4, .send 4, .send 4,
    .command 5 (newOrderFrame ⟨1, 1, 10, 3, .buy, .limit, .goodTillCancel, defaultSymbol⟩),
    .client 4 .reachable (.newOrderSingle "3" "b" "1" "2" "10" "1"),
    .send 5, .send 5, .send 5, .request 4, .send 4, .send 4, .send 5, .send 5,
    .send 4, .send 4, .send 4] ++ List.replicate 11 (.deliver 4)

/-- An order of another session comes between the response to the session's order and its trade. -/
def overtakenMoves : List Move :=
  [.accept 4, .client 4 .reachable .logon, .connect 4, .connect 5,
    .command 5 (newOrderFrame ⟨1, 1, 10, 2, .sell, .limit, .goodTillCancel, defaultSymbol⟩),
    .send 5, .send 5, .send 5, .client 4 .reachable (.newOrderSingle "2" "a" "1" "2" "10" "3"),
    .request 4, .send 4,
    .command 5 (newOrderFrame ⟨2, 1, 20, 1, .sell, .limit, .goodTillCancel, defaultSymbol⟩),
    .send 5, .send 5, .send 5] ++ List.replicate 5 (.send 4) ++ List.replicate 9 (.deliver 4)

end Bridge

/-- Everything has arrived at the end of `sharedMoves`. -/
theorem shared_run :
    ∃ (labels : List Bridge.Label) (s : Bridge) (link : Link),
      Run (fun s₁ label s₂ => Bridge.Step {} s₁ label s₂ ∧ s₁.Undisturbed s.nextNumericOrderId label)
        (.starting { riskEngine := { limits := {} } }) labels s ∧ s.links 4 = some link ∧
      s.Settled 4 link ∧ link.placed = [2 ^ 62, 2 ^ 62 + 1] ∧ traded (2 ^ 62) s.executions = 5 ∧
      traded (2 ^ 62 + 1) s.executions = 2 := by
  have hshared : ((Bridge.performChecked {} Bridge.undisturbed Bridge.sharedMoves
      (.starting { riskEngine := { limits := {} } })).any fun s => (s.links 4).any fun link =>
        decide (s.nextNumericOrderId = 2 ^ 62 + 2) && s.isSettled link &&
          decide (link.placed = [2 ^ 62, 2 ^ 62 + 1] ∧ traded (2 ^ 62) s.executions = 5 ∧
            traded (2 ^ 62 + 1) s.executions = 2)) = true := by
    decide +kernel
  have hstart : start {} none = some { riskEngine := { limits := {} } } := rfl
  -- the only frame of another session
  have hmoves : ∀ socket frame, .command socket frame ∈ Bridge.sharedMoves → frame =
      newOrderFrame ⟨1, 1, 10, 3, .buy, .limit, .goodTillCancel, defaultSymbol⟩ := by
    simp [Bridge.sharedMoves]
  have hunused := Bridge.unusedIds_of_moves (2 ^ 62 + 2) hmoves
    ⟨.inl rfl, .inl rfl, .inl rfl, by decide, by decide⟩ (by decide)
  obtain ⟨s, hperform, hfinal⟩ := (Option.any_eq_true _ _).mp hshared
  obtain ⟨link, hlink, hfinal⟩ := (Option.any_eq_true _ _).mp hfinal
  simp only [Bool.and_eq_true, decide_eq_true_eq] at hfinal
  obtain ⟨⟨hnext, hsettled⟩, hplaced, htraded, htraded'⟩ := hfinal
  have hallowed : ∀ move ∈ Bridge.sharedMoves, ∀ s label, Bridge.undisturbed move s = true →
      move.Yields s label → s.Undisturbed (2 ^ 62 + 2) label := fun move hmem s label hcheck hyields =>
    Bridge.undisturbed_of_yields hcheck hyields (hunused move hmem s label hyields)
  obtain ⟨labels, hrun⟩ := Bridge.performChecked_run hstart hallowed hperform
  have hsettled' : s.Settled 4 link :=
    Bridge.settled_of_isSettled hstart (hrun.mono fun _ _ _ hstep => hstep.1) hsettled
  rw [← hnext] at hrun
  exact ⟨labels, s, link, hrun, hlink, hsettled', hplaced, htraded, htraded'⟩

theorem fills_reported_shared :
    ∃ (labels : List Bridge.Label) (s : Bridge) (link : Link),
      Run (fun s₁ label s₂ => Bridge.Step {} s₁ label s₂ ∧ s₁.Undisturbed s.nextNumericOrderId label)
        (.starting { riskEngine := { limits := {} } }) labels s ∧ s.links 4 = some link ∧
      reported (2 ^ 62) link.replies = 5 := by
  obtain ⟨labels, s, link, hrun, hlink, hsettled, hplaced, htraded, -⟩ := shared_run
  have hstart : start {} none = some { riskEngine := { limits := {} } } := rfl
  have hfresh : ∀ x id, ExchangeServer.Rests { riskEngine := { limits := {} } } x id →
      ¬Bridge.GatewayId s.nextNumericOrderId id := fun _ _ hrests => absurd rfl hrests
  have hid : 2 ^ 62 ∈ link.placed := by
    rw [hplaced]
    exact List.mem_cons_self
  obtain ⟨-, hexact⟩ := fills_reported hstart hfresh hrun hlink hid
  exact ⟨labels, s, link, hrun, hlink, (hexact hsettled).trans htraded⟩

/-- An order is sold to another session and to one of the session's own. -/
theorem no_fill_lost_shared :
    ∃ (labels : List Bridge.Label) (f : Fills) (link : Link),
      Run (fun f₁ label f₂ => Fills.Step {} f₁ label f₂ ∧
          f₁.bridge.Unshared f.bridge.nextNumericOrderId label)
        (.starting { riskEngine := { limits := {} } }) labels f ∧
      f.bridge.links 4 = some link ∧ f.bridge.Settled 4 link ∧ f.whole 4 ∧
      link.placed = [2 ^ 62, 2 ^ 62 + 1] ∧ reported (2 ^ 62) link.replies = 5 ∧
      reported (2 ^ 62 + 1) link.replies = 2 := by
  obtain ⟨labels, s, link, hrun, hlink, hsettled, hplaced, htraded, htraded'⟩ := shared_run
  have hstart : start {} none = some { riskEngine := { limits := {} } } := rfl
  have hfresh : ∀ x id, ExchangeServer.Rests { riskEngine := { limits := {} } } x id →
      ¬Bridge.GatewayId s.nextNumericOrderId id := fun _ _ hrests => absurd rfl hrests
  let f : Fills := ⟨s, fun _ => True⟩
  have hfills := Fills.of_undisturbed hrun
  have hall := (@no_fill_lost_iff _ _ _ _ _ f hstart hfresh hfills _ _ hlink hsettled).mpr trivial
  rw [hplaced] at hall
  exact ⟨labels, f, link, hfills, hlink, hsettled, trivial, hplaced,
    (hall _ List.mem_cons_self).trans htraded,
    (hall _ (List.mem_cons_of_mem _ List.mem_cons_self)).trans htraded'⟩

/-- The book update of another session's order has closed the session's order when the copy of its
trade comes, so the trade is reported with nothing. -/
theorem fills_lost :
    ∃ (labels : List Bridge.Label) (s : Bridge) (link : Link),
      Run (Bridge.Step {}) (.starting { riskEngine := { limits := {} } }) labels s ∧
      s.links 4 = some link ∧ s.Settled 4 link ∧ 2 ^ 62 ∈ link.placed ∧
      traded (2 ^ 62) s.executions = 2 ∧ reported (2 ^ 62) link.replies = 0 := by
  have hovertaken : ((Bridge.performAll {} Bridge.overtakenMoves
      (.starting { riskEngine := { limits := {} } })).any fun s => (s.links 4).any fun link =>
        s.isSettled link && decide (2 ^ 62 ∈ link.placed ∧ traded (2 ^ 62) s.executions = 2 ∧
          reported (2 ^ 62) link.replies = 0)) = true := by
    decide +kernel
  have hstart : start {} none = some { riskEngine := { limits := {} } } := rfl
  obtain ⟨labels, s, hrun, hfinal⟩ := Bridge.performAll_any hstart hovertaken
  obtain ⟨link, hlink, hfinal⟩ := (Option.any_eq_true _ _).mp hfinal
  rw [Bool.and_eq_true, decide_eq_true_eq] at hfinal
  exact ⟨labels, s, link, hrun, hlink, Bridge.settled_of_isSettled hstart hrun hfinal.1, hfinal.2⟩

theorem no_fill_lost_overtaken :
    ¬ ∀ (config : FixGatewayConfig) (limits : RiskLimits) (server₀ : ExchangeServer)
        (labels : List Bridge.Label) (s : Bridge) (socket : Socket) (link : Link),
        start limits none = some server₀ → Run (Bridge.Step config) (.starting server₀) labels s →
        s.links socket = some link → s.Settled socket link →
        ∀ id ∈ link.placed, reported id link.replies = traded id s.executions := by
  intro h
  obtain ⟨labels, s, link, hrun, hlink, hsettled, hid, htraded, hreported⟩ := fills_lost
  have heq := h {} {} _ labels s 4 link rfl hrun hlink hsettled _ hid
  rw [htraded, hreported] at heq
  cases heq

end ExchangeLab

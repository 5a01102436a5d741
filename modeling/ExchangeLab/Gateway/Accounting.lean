import ExchangeLab.Gateway.Reports
import ExchangeLab.Gateway.SelfTrades

/-!
# ExchangeLab.Gateway.Accounting

Where the copies of the trades of a session's orders are, over every run of the gateway and the core.

* `Bridge.Own`: while a connection gets no number that is still recorded with an order, what is
  recorded with the number of a session are orders of the session.
* `Bridge.Counted`: the trades of a session's order with an order that is not its own have one copy
  each, that the session has received, that is on the way or that some thread has still to send.
* `Bridge.Accounted.taken`: the trades that a session took of an order are of those of the core, and
  all of them when no message for the session is on the way.
-/

namespace ExchangeLab

open Wire Protocol OrderBook MatchingEngine Container ExchangeServer ExchangeLab.Fix FixGateway
  FixBridge Transition Duplicates

/-! ## Sums over the threads -/

section Sums

variable {ι α : Type} [DecidableEq ι] {threads : List ι} {i : ι}

theorem sum_erase (hmem : i ∈ threads) (f : ι → Nat) :
    (threads.map f).sum = f i + ((threads.erase i).map f).sum :=
  ((List.perm_cons_erase hmem).map f).sum_eq

/-- One queue changes. -/
theorem sum_update (hnodup : threads.Nodup) (hmem : i ∈ threads) (f : α → Nat) (queues : ι → α)
    (queue : α) :
    (threads.map fun j => f (Function.update queues i queue j)).sum + f (queues i) =
      (threads.map fun j => f (queues j)).sum + f queue := by
  have hrest : (threads.erase i).map (fun j => f (Function.update queues i queue j)) =
      (threads.erase i).map fun j => f (queues j) := by
    refine List.map_congr_left fun j hj => ?_
    rw [Function.update_of_ne (hnodup.mem_erase_iff.mp hj).1]
  rw [sum_erase hmem, sum_erase hmem fun j => f (queues j), hrest, Function.update_self]
  omega

end Sums

/-- The trade of a copy that goes to the session and is not between two orders of its own. -/
def Link.awaits (socket : Socket) (link : Link) : Emission → Option SelfTradeKey
  | .tradeExecution address _ trade =>
    if address = socket ∧ ¬link.owns (keyOf trade) = true then some (keyOf trade) else none
  | _ => none

namespace Bridge

variable {config : FixGatewayConfig} {limits : RiskLimits} {file : Option (Option Bytes)}
  {server₀ : ExchangeServer} {labels : List Label} {label : Label} {s s' : Bridge} {last : Nat}

/-- The connection of a session gets no number that is still recorded with an order. -/
def ConnectsUnrecorded (s : Bridge) : Label → Prop
  | .core (.connect socket) => ∀ link, s.links socket = some link → ∀ x id owner,
    s.core.server.recordedOwner x id = some owner → owner.socket ≠ socket
  | _ => True

def Own (s : Bridge) : Prop :=
  ∀ socket link, s.links socket = some link → socket ∈ s.core.server.clientSockets →
    ∀ x id owner, s.core.server.recordedOwner x id = some owner → owner.socket = socket →
      id ∈ link.placed

/-- Frames are handled for sessions that have a descriptor. -/
def Heard (labels : List Label) : Prop := ∀ socket, handledBy socket labels ≠ [] → 0 ≤ socket

/-- The copies that the threads have still to send to a session. -/
def inFlight (socket : Socket) (link : Link) (id : OrderId) (s : Bridge) : Nat :=
  (s.core.server.clientSockets.map fun sender =>
    shares id ((s.core.sending sender).filterMap (link.awaits socket))).sum

def Counted (s : Bridge) : Prop :=
  ∀ socket link, s.links socket = some link → ∀ id ∈ link.placed,
    shares id ((s.executions.map Execution.key).filter fun key => !link.owns key) =
      shares id (link.arrived.filter fun key => !link.owns key) + s.inFlight socket link id

/-! ## The number of a session -/

/-- A connected session was connected before, or the step connects it. -/
theorem Step.open_cases (hbooks : s.core.server.BooksConsistent) (hstep : Step config s label s')
    {socket : Socket} (hopen : socket ∈ s'.core.server.clientSockets) :
    socket ∈ s.core.server.clientSockets ∨ label = .core (.connect socket) := by
  cases hstep with
  | accept | client | deliver => exact .inl hopen
  | core hcore _ =>
    cases hcore with
    | connect =>
      rcases List.mem_append.mp hopen with hopen | hopen
      · exact .inl hopen
      · rw [List.mem_singleton.mp hopen]
        exact .inr rfl
    | disconnect => exact .inl (List.mem_of_mem_erase hopen)
    | handle order _ _ hrun =>
      have hsockets := (handleMessage_cases hbooks hrun).sameSessions.sockets
      exact .inl (hsockets ▸ hopen)
    | @send sender emission rest hnext =>
      obtain ⟨n, -, heq⟩ := emit_state emission s.core.server
      rw [heq] at hopen
      exact .inl hopen
    | setGlobalKillSwitch => exact .inl hopen

/-- A session whose connection is there keeps its orders. -/
theorem Step.placed_mono (hstep : Step config s label s') {socket : Socket}
    (hopen : socket ∈ s.core.server.clientSockets ∨ label = .core (.connect socket)) {link' : Link}
    (hlink' : s'.links socket = some link') :
    ∃ link, s.links socket = some link ∧ link.placed ⊆ link'.placed := by
  rcases hstep.link_cases hlink' with ⟨link, hlink, hsame, -⟩ | ⟨hlabel, rfl⟩ |
    ⟨link, surroundings, message, hlink, -, -, -, rfl⟩ |
    ⟨link, message, rest, iteration, hlink, hnext, -, rfl⟩
  · exact ⟨link, hlink, by rw [hsame.placed]; exact List.Subset.refl _⟩
  · exfalso
    subst hlabel
    cases hstep with
    | accept hfree =>
      rcases hopen with hopen | hconnect
      · exact hfree hopen
      · cases hconnect
  · refine ⟨link, hlink, ?_⟩
    rw [Link.placed_forward]
    exact List.subset_append_left _ _
  · exact ⟨link, hlink, List.Subset.refl _⟩

/-- An order that a session's handler lets trade is the session's. -/
theorem Own.worksFor (h : s.Own) (hmatched : s.Matched labels) {sender : Socket} {frame : Frame}
    {emissions : List Emission} (hstep : Step config s (.core (.handle sender frame emissions)) s')
    (hopen : sender ∈ s.core.server.clientSockets) {link : Link}
    (hlink : s.links sender = some link) {id : OrderId}
    (hworks : s.core.server.WorksFor sender frame emissions id) : id ∈ link.placed := by
  rcases hworks with ⟨haccepted, request, hcommand, rfl⟩ | ⟨x, owner, howner, hsocket⟩
  · exact (hmatched.accepts hstep hlink hcommand haccepted).placed
  · exact h sender link hlink hopen x id owner howner hsocket

theorem Step.own (h : s.Own) (hsole : s.Sole last labels) (hmatched : s.Matched labels)
    {log : List Event} (hown : Ownership log s.core.server) (hstep : Step config s label s')
    (hconnects : s.ConnectsUnrecorded label) : s'.Own := by
  intro socket link' hlink' hopen' x id owner howner hsocket
  have hopen := hstep.open_cases hown.books hopen'
  obtain ⟨link, hlink, hplaced⟩ := hstep.placed_mono hopen hlink'
  refine hplaced ?_
  rcases (hstep.change hsole hown).recorded x id owner howner with
    hold | ⟨frame, emissions, rfl, hworks⟩
  · rcases hopen with hopen | rfl
    · exact h socket link hlink hopen x id owner hold hsocket
    · exact absurd hsocket (hconnects link hlink x id owner hold)
  · subst hsocket
    rcases hopen with hopen | hconnect
    · exact h.worksFor hmatched hstep hopen hlink hworks
    · cases hconnect

theorem Step.heard (h : Heard labels) (hconnected : s.Connected) (hstep : Step config s label s') :
    Heard (labels ++ [label]) := by
  intro socket hsome
  rw [handledBy_snoc] at hsome
  cases hstep with
  | client | deliver => exact h socket hsome
  | @accept other =>
    by_cases heq : other = socket
    · exact absurd (if_pos heq) hsome
    · exact h socket ((if_neg heq).symm.trans_ne hsome)
  | core hcore _ =>
    cases hcore with
    | connect | disconnect | send | setGlobalKillSwitch => exact h socket hsome
    | @handle other frame server₁ emissions order hopen =>
      by_cases heq : other = socket
      · exact heq ▸ hconnected other hopen
      · exact h socket ((if_neg heq).symm.trans_ne hsome)

/-! ## The copies on the way -/

theorem Sole.share_eq_zero (h : s.Sole last labels) (hplacing : s.Placing)
    (hstep : Step config s label s') (hlast : s'.nextNumericOrderId ≤ last) {socket : Socket}
    {link link' : Link} (hlink : s.links socket = some link) (hlink' : s'.links socket = some link')
    {id : OrderId} (hid : id ∈ link'.placed) (hnew : id ∉ link.placed) {key : SelfTradeKey}
    (hnames : s.Names key) : key.share id = 0 := by
  refine SelfTradeKey.share_of_ne fun hnamed => hnew ?_
  obtain ⟨other, _, hother, hmem, -⟩ := hplacing.placed_before hstep hlast hlink' hid
    fun huntaken => h.fresh id huntaken (.inr ⟨key, hnames, hnamed⟩)
  rw [hlink] at hother
  cases hother
  exact hmem

theorem awaits_some {socket : Socket} {link : Link} {emission : Emission} {key : SelfTradeKey}
    (h : link.awaits socket emission = some key) :
    ∃ symbol trade, emission = .tradeExecution socket symbol trade ∧ keyOf trade = key ∧
      ¬link.owns key = true := by
  cases emission with
  | tradeExecution address symbol trade =>
    obtain ⟨⟨rfl, hforeign⟩, heq⟩ := Option.ite_none_right_eq_some.mp h
    cases heq
    exact ⟨symbol, trade, rfl, rfl, hforeign⟩
  | orderResponse | bookUpdate | level3AddOrder | level3OrderExecuted | level3OrderDeleted => cases h

/-- A step that neither handles a frame nor sends brings in no thread with something to send, and
ends none. -/
theorem Step.quiet_threads (hstep : Step config s label s') (hquiet : label.isQuiet = true)
    (hsilent : s.Silent) {f : Socket → Nat} (hf : ∀ x, s.core.sending x = [] → f x = 0) :
    (s'.core.server.clientSockets.map f).sum = (s.core.server.clientSockets.map f).sum := by
  cases hstep with
  | accept | client | deliver => rfl
  | core hcore _ =>
    cases hcore with
    | @connect socket _ hfree =>
      have happend : (registerClient socket s.core.server).clientSockets =
          s.core.server.clientSockets ++ [socket] := rfl
      rw [happend, List.map_append, List.sum_append, List.map_singleton, List.sum_singleton,
        hf socket (hsilent socket hfree)]
      rfl
    | @disconnect socket hopen hidle =>
      have herase : (unregisterClient socket s.core.server).clientSockets =
          s.core.server.clientSockets.erase socket := rfl
      rw [herase, sum_erase hopen f, hf socket hidle, Nat.zero_add]
    | setGlobalKillSwitch => rfl
    | handle | send => cases hquiet

theorem Step.counted_quiet (h : s.Counted) (hsole : s.Sole last labels) (hplacing : s.Placing)
    (hsilent : s.Silent) (hstep : Step config s label s') (hlast : s'.nextNumericOrderId ≤ last)
    (hquiet : label.isQuiet = true) : s'.Counted := by
  obtain ⟨-, hsending, hexecutions⟩ := hstep.quiet_core hquiet
  intro socket link' hlink' id hid
  rcases hstep.arrived hquiet hlink' with ⟨link, hlink, harrived, hplaced⟩ | ⟨-, hnew⟩
  · have hthreads : s'.inFlight socket link' id = (s.core.server.clientSockets.map fun sender =>
        shares id ((s.core.sending sender).filterMap (link'.awaits socket))).sum := by
      rw [inFlight, hsending]
      refine hstep.quiet_threads hquiet hsilent fun x hidle => ?_
      rw [hidle]
      rfl
    have hexecuted : ∀ key ∈ s.executions.map Execution.key, s.Names key := by
      intro key hmem
      obtain ⟨execution, hexecution, rfl⟩ := List.mem_map.mp hmem
      exact .inl ⟨execution, hexecution, rfl⟩
    have hcame : ∀ key ∈ link.arrived, s.Names key := fun key hmem =>
      .inr (.inr ⟨socket, link, hlink, hmem⟩)
    rw [hexecutions, harrived, hthreads]
    by_cases hold : id ∈ link.placed
    · have howns : ∀ key, s.Names key → (!link'.owns key) = !link.owns key := fun key hnames => by
        rw [hsole.owns_same hplacing hstep hlast hlink hlink' hplaced hnames]
      have hwaits : ∀ sender, (s.core.sending sender).filterMap (link'.awaits socket) =
          (s.core.sending sender).filterMap (link.awaits socket) := by
        intro sender
        refine List.filterMap_congr fun emission hmem => ?_
        cases emission with
        | tradeExecution address symbol trade =>
          have hnames : s.Names (keyOf trade) := .inr (.inl ⟨sender, _, hmem, rfl⟩)
          simp only [Link.awaits,
            hsole.owns_same hplacing hstep hlast hlink hlink' hplaced hnames]
        | orderResponse | bookUpdate | level3AddOrder | level3OrderExecuted
        | level3OrderDeleted => rfl
      rw [List.filter_congr fun key hmem => howns key (hexecuted key hmem),
        List.filter_congr fun key hmem => howns key (hcame key hmem)]
      simp only [hwaits]
      exact h socket link hlink id hold
    · -- no copy names an order that was placed just now
      have hzero : ∀ key, s.Names key → key.share id = 0 := fun key =>
        hsole.share_eq_zero hplacing hstep hlast hlink hlink' hid hold
      rw [shares_eq_zero fun key hmem => hzero key (hexecuted key (List.mem_of_mem_filter hmem)),
        shares_eq_zero fun key hmem => hzero key (hcame key (List.mem_of_mem_filter hmem)),
        Nat.zero_add, eq_comm, List.sum_eq_zero_iff]
      intro share hmem
      obtain ⟨sender, -, rfl⟩ := List.mem_map.mp hmem
      refine shares_eq_zero fun key hkey => hzero key ?_
      obtain ⟨emission, hemission, heq⟩ := List.mem_filterMap.mp hkey
      obtain ⟨symbol, trade, rfl, rfl, -⟩ := awaits_some heq
      exact .inr (.inl ⟨sender, _, hemission, rfl⟩)
  · have hnone : link'.placed = [] := by rw [Link.placed, hnew]; rfl
    rw [hnone] at hid
    cases hid

/-- A session with an order that was traded has a descriptor. -/
theorem Sole.socket_nonneg (h : s.Sole last labels) (hheard : Heard labels) {socket : Socket}
    {link : Link} (hlink : s.links socket = some link) {id : OrderId} (hid : id ∈ link.placed)
    {key : SelfTradeKey} (hnames : s.Names key) (hshare : key.share id ≠ 0) : 0 ≤ socket := by
  have hnamed : id = key.buyOrderId ∨ id = key.sellOrderId := by
    by_contra hnot
    exact hshare (SelfTradeKey.share_of_ne hnot)
  obtain ⟨i, _, _, -, -, hhandled, -⟩ :=
    h.accepted socket link hlink id hid (.inr ⟨key, hnames, hnamed⟩)
  refine hheard socket fun hnone => ?_
  rw [hnone] at hhandled
  cases hhandled

/-- The copies that a session waits for, and that are of one of its orders, reach it. -/
theorem Sole.awaited (h : s.Sole last labels) (hheard : Heard labels) {sender : Socket}
    {emission : Emission} (hmem : emission ∈ s.core.sending sender) {socket : Socket} {link : Link}
    (hlink : s.links socket = some link) {id : OrderId} (hid : id ∈ link.placed) :
    shares id ((if emission.unaddressed = false ∧ socket ∈ s.core.server.recipients emission then
      emission.key.toList else []).filter fun key => !link.owns key) =
        shares id (link.awaits socket emission).toList := by
  cases emission with
  | tradeExecution address symbol trade =>
    have hnames : s.Names (keyOf trade) := .inr (.inl ⟨sender, _, hmem, rfl⟩)
    have hrecipients : socket ∈ s.core.server.recipients (.tradeExecution address symbol trade) ↔
        socket = address := List.mem_singleton
    have haddressed : (Emission.tradeExecution address symbol trade).unaddressed = false ↔
        0 ≤ address := decide_eq_false_iff_not.trans Int.not_lt
    have hsent : (if (Emission.tradeExecution address symbol trade).unaddressed = false ∧
        socket ∈ s.core.server.recipients (.tradeExecution address symbol trade) then
          (Emission.tradeExecution address symbol trade).key.toList else []) =
        if 0 ≤ address ∧ socket = address then [keyOf trade] else [] :=
      if_congr (and_congr haddressed hrecipients) rfl rfl
    rw [hsent]
    by_cases hshare : (keyOf trade).share id = 0
    · rw [shares_eq_zero, shares_eq_zero]
      · intro key hkey
        obtain ⟨_, _, heq, rfl, -⟩ := awaits_some (Option.mem_toList.mp hkey)
        cases heq
        exact hshare
      · intro key hkey
        have hkey := List.mem_of_mem_filter hkey
        split at hkey
        · rw [List.mem_singleton.mp hkey]
          exact hshare
        · cases hkey
    · have hnonneg := h.socket_nonneg hheard hlink hid hnames hshare
      by_cases haddress : address = socket
      · subst haddress
        rw [if_pos ⟨hnonneg, rfl⟩]
        cases howned : link.owns (keyOf trade) <;> simp [Link.awaits, howned]
      · rw [if_neg fun hboth => haddress hboth.2.symm, Link.awaits,
          if_neg fun hboth => haddress hboth.1]
        rfl
  | orderResponse | bookUpdate | level3AddOrder | level3OrderExecuted | level3OrderDeleted =>
    have hnone : ∀ p : Prop, ∀ _ : Decidable p,
        (if p then (none : Option SelfTradeKey).toList else []) = [] := fun p _ => ite_self _
    exact congrArg (shares id) (congrArg (List.filter _) (hnone _ _))

theorem counted_send (h : s.Counted) (hsole : s.Sole last labels) (hsilent : s.Silent)
    (hheard : Heard labels) (hnodup : s.core.server.clientSockets.Nodup) {sender : Socket}
    {emission : Emission} {rest : List Emission}
    (hnext : s.core.sending sender = emission :: rest) {socket : Socket} {link' : Link}
    (hlink' : (emit emission s.core.server).2.foldl deliverSent s.links socket = some link')
    {id : OrderId} (hid : id ∈ link'.placed) :
    shares id ((s.executions.map Execution.key).filter fun key => !link'.owns key) =
      shares id (link'.arrived.filter fun key => !link'.owns key) +
        (s.core.server.clientSockets.map fun thread => shares id
          ((Function.update s.core.sending sender rest thread).filterMap
            (link'.awaits socket))).sum := by
  have hhead : emission ∈ s.core.sending sender := by
    rw [hnext]
    exact .head _
  have hopen : sender ∈ s.core.server.clientSockets := by
    by_contra hclosed
    rw [hsilent sender hclosed] at hnext
    cases hnext
  obtain ⟨link, hlink, hsame, harrived⟩ := emit_arrived (hsole.key_eq hhead) hlink'
  have howns := Link.owns_congr hsame.placed
  have hwaits : link'.awaits socket = link.awaits socket := by
    funext other
    cases other with
    | tradeExecution => simp only [Link.awaits, howns]
    | orderResponse | bookUpdate | level3AddOrder | level3OrderExecuted | level3OrderDeleted => rfl
  rw [hsame.placed] at hid
  have hcounted := h socket link hlink id hid
  have hsum := sum_update hnodup hopen (fun queue : List Emission =>
    shares id (queue.filterMap (link.awaits socket))) s.core.sending rest
  have hqueue : shares id ((emission :: rest).filterMap (link.awaits socket)) =
      shares id (link.awaits socket emission).toList +
        shares id (rest.filterMap (link.awaits socket)) := by
    rw [List.filterMap_cons]
    cases link.awaits socket emission with
    | none => exact (Nat.zero_add _).symm
    | some key => rfl
  have hnew := hsole.awaited hheard hhead hlink hid
  rw [hnext, hqueue] at hsum
  rw [howns, hwaits, harrived, List.filter_append, shares_append, hnew, hcounted, inFlight]
  omega

/-- Of a trade between an order of the session and one that is not its own, one copy goes to the
session. -/
theorem Sole.one_copy (h : s.Sole last labels) (hplacing : s.Placing) (hmatched : s.Matched labels)
    (hconnected : s.Connected) (hownIds : s.Own) {log : List Event}
    (hown : Ownership log s.core.server) (hlast : s.nextNumericOrderId ≤ last) {sender : Socket}
    {frame : Frame} {emissions : List Emission}
    (hstep : Step config s (.core (.handle sender frame emissions)) s')
    (hunused : s.UnusedIds last (.core (.handle sender frame emissions)))
    (hopen : sender ∈ s.core.server.clientSockets) {incoming : OrderId} {execution : Execution}
    (hworks : s.core.server.WorksFor sender frame emissions incoming)
    (hcrossing : s.core.server.Crossing sender incoming execution) {socket : Socket} {link : Link}
    (hlink : s.links socket = some link) (hforeign : ¬link.owns execution.key = true) {id : OrderId}
    (hid : id ∈ link.placed) (hnamed : id = execution.key.buyOrderId ∨ id = execution.key.sellOrderId) :
    execution.buyerSocket = socket ↔ execution.sellerSocket ≠ socket := by
  obtain ⟨-, -, x, resting, -, hrests, horders⟩ := hcrossing
  have hkey : execution.key = keyOf execution.trade := rfl
  have hbothOrders : ¬(incoming ∈ link.placed ∧ resting ∈ link.placed) := by
    rintro ⟨hincoming, hresting⟩
    refine hforeign (Link.owns_iff.mpr ?_)
    rcases horders with ⟨hids, -⟩ | ⟨hids, -⟩
    · cases hids
      exact ⟨hincoming, hresting⟩
    · cases hids
      exact ⟨hresting, hincoming⟩
  have hone : id = incoming ∨ id = resting := by
    rw [hkey] at hnamed
    rcases horders with ⟨hids, -⟩ | ⟨hids, -⟩
    · cases hids
      exact hnamed
    · cases hids
      exact hnamed.symm
  -- of the two addresses, the one of the session's order is the session and the other is not
  have haddresses : sender = socket ↔
      ((s.core.server.recordedOwner x resting).getD {}).socket ≠ socket := by
    rcases hone with rfl | rfl
    · obtain ⟨rfl, -⟩ := (h.worksFor hplacing hmatched hown hlast hstep hunused hworks).2
        socket link hlink hid
      refine iff_of_true rfl fun hsame => ?_
      cases howner : s.core.server.recordedOwner x resting with
      | none =>
        rw [howner] at hsame
        have hnonneg := hconnected _ hopen
        rw [← hsame] at hnonneg
        exact absurd hnonneg (by decide)
      | some owner =>
        rw [howner] at hsame
        exact hbothOrders ⟨hid, hownIds _ link hlink hopen x resting owner howner hsame⟩
    · obtain ⟨owner, howner⟩ := Option.ne_none_iff_exists'.mp
        (h.recorded x id (hplacing.gatewayId hlast hlink hid).1 hrests)
      have hsocket := h.owners socket link hlink id hid x owner howner
      rw [howner]
      refine iff_of_false (fun hsame => ?_) fun hne => hne hsocket
      subst hsame
      exact hbothOrders ⟨hownIds.worksFor hmatched hstep hopen hlink hworks, hid⟩
  rcases horders with ⟨-, hbuyer, hseller⟩ | ⟨-, hbuyer, hseller⟩
  · rw [hbuyer, hseller]
    exact haddresses
  · rw [hbuyer, hseller]
    exact ⟨fun hsame hne => haddresses.mp hne hsame, fun hne => by
      by_contra hother
      exact hne (haddresses.mpr hother)⟩

/-- So the copies that the session waits for have one share of it. -/
theorem shares_copies {execution : Execution} {socket : Socket} {link : Link} {id : OrderId}
    (hone : ¬link.owns execution.key = true →
      id = execution.key.buyOrderId ∨ id = execution.key.sellOrderId →
        (execution.buyerSocket = socket ↔ execution.sellerSocket ≠ socket)) :
    shares id (execution.copies.filterMap (link.awaits socket)) =
      shares id ([execution.key].filter fun key => !link.owns key) := by
  have hkey : execution.key = keyOf execution.trade := rfl
  cases howned : link.owns execution.key with
  | true =>
    rw [hkey] at howned
    simp [Execution.copies, Link.awaits, hkey, howned]
  | false =>
    by_cases hnamed : id = execution.key.buyOrderId ∨ id = execution.key.sellOrderId
    · have hbuyer := hone (by rw [howned]; exact Bool.false_ne_true) hnamed
      rw [hkey] at howned
      by_cases hseller : execution.sellerSocket = socket
      · have hother : execution.buyerSocket ≠ socket := fun hsame => hbuyer.mp hsame hseller
        simp [Execution.copies, Link.awaits, hkey, howned, hseller, hother]
      · have hsame : execution.buyerSocket = socket := hbuyer.mpr hseller
        simp [Execution.copies, Link.awaits, hkey, howned, hseller, hsame]
    · have hshare : execution.key.share id = 0 := SelfTradeKey.share_of_ne hnamed
      rw [shares_eq_zero, shares_eq_zero]
      · intro key hmem
        rw [List.mem_singleton.mp (List.mem_of_mem_filter hmem)]
        exact hshare
      · intro key hmem
        obtain ⟨emission, hemission, hawaits⟩ := List.mem_filterMap.mp hmem
        obtain ⟨symbol, trade, rfl, rfl, -⟩ := awaits_some hawaits
        rcases List.mem_pair.mp hemission with heq | heq
        · cases heq
          exact hshare
        · cases heq
          exact hshare

theorem shares_flatMap {executions : List Execution} {socket : Socket} {link : Link} {id : OrderId}
    (h : ∀ execution ∈ executions,
      shares id (execution.copies.filterMap (link.awaits socket)) =
        shares id ([execution.key].filter fun key => !link.owns key)) :
    shares id (executions.flatMap fun execution => execution.copies.filterMap (link.awaits socket)) =
      shares id ((executions.map Execution.key).filter fun key => !link.owns key) := by
  induction executions with
  | nil => rfl
  | cons execution executions ih =>
    have hsplit : (execution :: executions).map Execution.key =
        [execution.key] ++ executions.map Execution.key := rfl
    rw [List.flatMap_cons, shares_append, h execution (.head _),
      ih fun other hother => h other (.tail _ hother), hsplit, List.filter_append, shares_append]

theorem counted_handle (h : s.Counted) {sender : Socket} {emissions : List Emission}
    (hcopies : CopiesOf emissions (executionsOf emissions))
    (hnodup : s.core.server.clientSockets.Nodup) (hopen : sender ∈ s.core.server.clientSockets)
    (hidle : s.core.sending sender = []) {socket : Socket} {link link' : Link}
    (hlink : s.links socket = some link) (hsame : link'.SameSession link)
    (harrived : link'.arrived = link.arrived) {id : OrderId} (hid : id ∈ link.placed)
    (hone : ∀ execution ∈ executionsOf emissions, ¬link.owns execution.key = true →
      id = execution.key.buyOrderId ∨ id = execution.key.sellOrderId →
        (execution.buyerSocket = socket ↔ execution.sellerSocket ≠ socket)) :
    shares id (((s.executions ++ executionsOf emissions).map Execution.key).filter
        fun key => !link'.owns key) =
      shares id (link'.arrived.filter fun key => !link'.owns key) +
        (s.core.server.clientSockets.map fun thread => shares id
          ((Function.update s.core.sending sender emissions thread).filterMap
            (link'.awaits socket))).sum := by
  have howns := Link.owns_congr hsame.placed
  have hwaits : link'.awaits socket = link.awaits socket := by
    funext other
    cases other with
    | tradeExecution => simp only [Link.awaits, howns]
    | orderResponse | bookUpdate | level3AddOrder | level3OrderExecuted | level3OrderDeleted => rfl
  have hcounted := h socket link hlink id hid
  have hsum := sum_update hnodup hopen (fun queue : List Emission =>
    shares id (queue.filterMap (link.awaits socket))) s.core.sending emissions
  have hnone : ∀ emission : Emission, emission.trade = none → link.awaits socket emission = none := by
    intro emission htrade
    cases emission with
    | tradeExecution => cases htrade
    | orderResponse | bookUpdate | level3AddOrder | level3OrderExecuted | level3OrderDeleted => rfl
  have hnew := @shares_flatMap _ socket link id fun execution hmem => shares_copies (hone execution hmem)
  rw [hidle, List.filterMap_nil, hcopies.filterMap hnone, hnew] at hsum
  have hempty : shares id [] = 0 := rfl
  rw [howns, hwaits, harrived, List.map_append, List.filter_append, shares_append, hcounted, inFlight]
  omega

theorem Step.counted (h : s.Counted) (hsole : s.Sole last labels) (hplacing : s.Placing)
    (hmatched : s.Matched labels) (hconnected : s.Connected) (hheard : Heard labels)
    (hownIds : s.Own) {log : List Event} (hown : Ownership log s.core.server)
    (hstep : Step config s label s') (hlast : s'.nextNumericOrderId ≤ last)
    (hunused : s.UnusedIds last label) : s'.Counted := by
  have hquiet := hstep.counted_quiet h hsole hplacing hmatched.silent hlast
  have hunchanged := hstep
  cases hstep with
  | accept | client | deliver => exact hquiet rfl
  | core hcore hlinks =>
    cases hcore with
    | connect | disconnect | setGlobalKillSwitch => exact hquiet rfl
    | @handle sender frame server₁ emissions order hopen hready hrun =>
      intro socket link' hlink' id hid
      obtain ⟨link, hlink, hsame, harrived⟩ :=
        arrived_of_follows hlinks (fun _ _ heq => by cases heq) hlink'
      rw [hsame.placed] at hid
      have hhandled := handleMessage_cases hown.books hrun
      have hturnover := hhandled.turnover hown hopen
      have hcounted := counted_handle h hturnover.copies hown.sessions.nodup hopen hready.1 hlink hsame
        harrived hid fun execution hmem hforeign hnamed => by
          obtain ⟨incoming, hworks, hcrossing⟩ := hturnover.crossings execution hmem
          exact hsole.one_copy hplacing hmatched hconnected hownIds hown hlast hunchanged hunused hopen
            hworks hcrossing hlink hforeign hid hnamed
      rw [inFlight, hhandled.sameSessions.sockets]
      exact hcounted
    | @send sender emission rest hnext =>
      cases hlinks
      intro socket link' hlink' id hid
      have hcounted := counted_send h hsole hmatched.silent hheard hown.sessions.nodup hnext hlink' hid
      obtain ⟨n, -, heq⟩ := emit_state emission s.core.server
      have hsockets : (emit emission s.core.server).1.clientSockets =
          s.core.server.clientSockets := by
        rw [heq]
        rfl
      have hnone : executedBy (.send sender (emit emission s.core.server).2) = [] := rfl
      rw [inFlight, hsockets, hnone, List.append_nil]
      exact hcounted

/-! ## Runs -/

/-- The ids of the gateway's are used by its sessions only, and so are the numbers of its
connections. -/
def Unshared (last : Nat) (s : Bridge) (label : Label) : Prop :=
  s.UnusedIds last label ∧ s.ConnectsUnrecorded label

structure Accounted (last : Nat) (labels : List Label) (s : Bridge) : Prop where
  booked : s.Booked last labels
  own : s.Own
  heard : Heard labels
  counted : s.Counted

theorem accounted_run (hstart : start limits file = some server₀)
    (hfresh : ∀ x id, server₀.Rests x id → ¬GatewayId last id)
    (hrun : Run (fun s label s' => Step config s label s' ∧ s.Unshared last label)
      (starting server₀) labels s) (hlast : s.nextNumericOrderId ≤ last) :
    s.Accounted last labels := by
  induction hrun with
  | nil =>
    exact ⟨@booked_run config _ _ _ _ _ _ hstart hfresh (.nil _) hlast,
      fun _ _ hlink => (by cases hlink), fun _ hsome => absurd rfl hsome,
      fun _ _ hlink => by cases hlink⟩
  | snoc hrun hstep ih =>
    have hbefore := hrun.mono fun _ _ _ hstep => hstep.1
    have hplacing := placing_run hstart hbefore
    have hmatched := matched_run hstart hbefore
    obtain ⟨log, hown⟩ := ownership hstart hbefore
    have hbooked := booked_run hstart hfresh
      ((hrun.snoc hstep).mono fun _ _ _ hstep => ⟨hstep.1, hstep.2.1⟩) hlast
    obtain ⟨hstep, hunused, hconnects⟩ := hstep
    have h := ih (hstep.nextNumericOrderId_le.trans hlast)
    have hsole := h.booked.sole
    exact ⟨hbooked, hstep.own h.own hsole hmatched hown hconnects,
      hstep.heard h.heard h.booked.connected,
      hstep.counted h.counted hsole hplacing hmatched h.booked.connected h.heard h.own hown hlast
        hunused⟩

/-- No message for the session is on the way. -/
def Settled (s : Bridge) (socket : Socket) (link : Link) : Prop :=
  link.toGateway = [] ∧ ∀ sender, ∀ emission ∈ s.core.sending sender,
    socket ∉ s.core.server.recipients emission

theorem Settled.inFlight {socket : Socket} {link : Link} (h : s.Settled socket link) (id : OrderId) :
    s.inFlight socket link id = 0 := by
  rw [Bridge.inFlight, List.sum_eq_zero_iff]
  intro share hmem
  obtain ⟨sender, -, rfl⟩ := List.mem_map.mp hmem
  refine shares_eq_zero fun key hkey => ?_
  obtain ⟨emission, hemission, hawaits⟩ := List.mem_filterMap.mp hkey
  obtain ⟨symbol, trade, rfl, -, -⟩ := awaits_some hawaits
  exact absurd (List.mem_singleton.mpr rfl) (h.2 sender _ hemission)

/-- The trades that a session took are of those of the core, and all of them when no message is on the
way. -/
theorem Accounted.taken (h : s.Accounted last labels) {socket : Socket} {link : Link}
    (hlink : s.links socket = some link) {id : OrderId} (hid : id ∈ link.placed) :
    shares id link.taken ≤ traded id s.executions ∧
      (s.Settled socket link → shares id link.taken = traded id s.executions) := by
  have hcounted := h.counted socket link hlink id hid
  have hstream := h.booked.streamed socket link hlink
  have hsplit := @shares_filter id link.owns (s.executions.map Execution.key)
  rw [← Link.selfTrades] at hsplit
  rw [traded, ← hsplit, Link.taken, shares_append, Nat.add_comm (shares id (link.selfTrades _)),
    hcounted]
  refine ⟨Nat.add_le_add ?_ ?_, fun hsettled => ?_⟩
  · rw [Link.arrived, List.filter_append, shares_append]
    omega
  · rw [Link.arrived, List.append_assoc, List.filter_append] at hstream
    rw [ marks_of_prefix rfl hstream]
    have hsublist := (((List.take_sublist (link.processed.filter link.owns).length
      (firstCopies (link.selfTrades s.executions))).filter Prod.snd).map Prod.fst).map
        (SelfTradeKey.share id)
    rw [firstCopies_taken] at hsublist
    exact hsublist.sum_le_sum fun _ _ => Nat.zero_le _
  · have harrived : link.arrived = link.processed := by
      rw [Link.arrived, hsettled.1, List.filterMap_nil, List.append_nil]
    have hsending : ((s.core.sending socket).filterMap Emission.key).filter link.owns = [] := by
      refine List.filter_eq_nil_iff.mpr fun key hmem howns => ?_
      obtain ⟨emission, hemission, hkey⟩ := List.mem_filterMap.mp hmem
      obtain ⟨address, symbol, trade, rfl, rfl⟩ := key_some hkey
      obtain ⟨-, rfl⟩ := (h.booked.sole.sending socket address symbol trade hemission).2.2
        socket link hlink howns
      exact hsettled.2 _ _ hemission (List.mem_singleton.mpr rfl)
    rw [harrived, List.filter_append, hsending, List.append_nil] at hstream
    rw [hsettled.inFlight id, Nat.add_zero, harrived, hstream, marks_twice rfl, firstCopies_taken]

end Bridge

end ExchangeLab

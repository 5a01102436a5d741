import ExchangeLab.Fix.RoundTrip
import ExchangeLab.FixGateway

/-!
# ExchangeLab.Gateway.Messages

What the gateway writes to a client: a reply as a FIX message.

The clock's text and an average price, which the source computes in floating point, come with the
message: a `Stamp`.

* `buildSessionMessage`: the header of every message, and then the fields of its body.
* `Reply.fields`: the body of each kind of reply.
* `Outgoing.encodable`: where no text has a SOH in it, the codec carries the message.
-/

namespace ExchangeLab

open Wire Protocol ExchangeLab.Fix

/-! ## Texts -/

def ordTypeText (type : Protocol.OrderType) : Bytes := if type = .limit then text "2" else text "1"

def tifText (timeInForce : Protocol.TimeInForce) : Bytes :=
  if timeInForce = .goodTillCancel then text "1"
  else if timeInForce = .immediateOrCancel then text "3"
  else if timeInForce = .fillOrKill then text "4"
  else text "1"

def OrdStatus.text : OrdStatus → Bytes
  | .new => Fix.text "0"
  | .partiallyFilled => Fix.text "1"
  | .filled => Fix.text "2"
  | .canceled => Fix.text "4"
  | .rejected => Fix.text "8"

def ExecType.text : ExecType → Bytes
  | .new => Fix.text "0"
  | .canceled => Fix.text "4"
  | .replaced => Fix.text "5"
  | .rejected => Fix.text "8"
  | .trade => Fix.text "F"

/-- `std::to_string` of a price. -/
def priceText (price : Price) : Bytes :=
  if price < 0 then 45 :: decimal price.toInt.natAbs else decimal price.toInt.natAbs

/-- A field that is sent if there is a value for it. -/
def optionalField (tag : Int32) (value : Option Bytes) : List Field :=
  value.toList.map fun value => ⟨tag, value⟩

/-! ## Messages -/

/-- What a message gets when it is built: the time, the execution id that is drawn for it, and the
average price where something was executed. -/
structure Stamp where
  timestamp : Bytes
  execId : UInt64
  averagePrice : Bytes
  timestamp_clean : soh ∉ timestamp
  averagePrice_clean : soh ∉ averagePrice
  deriving DecidableEq

def averagePriceText (stamp : Stamp) (cumulativeQuantity : Nat) : Bytes :=
  if cumulativeQuantity = 0 then text "0" else stamp.averagePrice

/-- The fields of `send_execution_report`. -/
def ExecutionReport.fields (stamp : Stamp) (report : ExecutionReport) : List Field :=
  [⟨37, decimal report.orderId.toNat⟩, ⟨11, report.clOrdId⟩] ++
    optionalField 41 report.origClOrdId ++
    [⟨17, decimal stamp.execId.toNat⟩, ⟨150, report.execType.text⟩, ⟨39, report.ordStatus.text⟩,
      ⟨55, report.symbol⟩, ⟨54, FixGateway.sideText report.side⟩, ⟨38, decimal report.orderQty⟩,
      ⟨40, ordTypeText report.ordType⟩] ++
    optionalField 44 (report.price.map priceText) ++
    [⟨59, tifText report.timeInForce⟩, ⟨14, decimal report.cumQty⟩, ⟨151, decimal report.leavesQty⟩,
      ⟨6, averagePriceText stamp report.cumQty⟩] ++
    optionalField 32 (report.lastQty.map decimal) ++
    optionalField 31 (report.lastPx.map priceText) ++ optionalField 58 (report.reason.map text)

def Reply.msgType : Reply → Bytes
  | .executionReport _ | .newReject .. => text "8"
  | .cancelReject .. => text "9"
  | .sessionReject .. => text "3"
  | .logon _ => text "A"
  | .heartbeat _ => text "0"
  | .logout _ => text "5"

def Reply.fields (stamp : Stamp) : Reply → List Field
  | .executionReport report => report.fields stamp
  | .newReject clOrdId symbol side quantity reason =>
    [⟨37, text "NONE"⟩, ⟨11, clOrdId⟩, ⟨17, decimal stamp.execId.toNat⟩, ⟨150, text "8"⟩,
      ⟨39, text "8"⟩, ⟨55, symbol⟩, ⟨54, side⟩, ⟨38, quantity⟩, ⟨14, text "0"⟩, ⟨151, text "0"⟩,
      ⟨6, text "0"⟩, ⟨58, text reason⟩]
  | .cancelReject order clOrdId origClOrdId kind reason =>
    [⟨37, order.elim (text "NONE") fun order => decimal order.1.toNat⟩, ⟨11, clOrdId⟩,
      ⟨41, origClOrdId⟩, ⟨39, order.elim (text "8") fun order => order.2.text⟩,
      ⟨434, if kind = .cancel then text "1" else text "2"⟩, ⟨102, text "99"⟩, ⟨58, text reason⟩]
  | .sessionReject referenceSequence reason referenceMessageType =>
    [⟨45, decimal referenceSequence.toNat⟩, ⟨373, text "99"⟩, ⟨58, text reason⟩] ++
      optionalField 372 referenceMessageType
  | .logon heartbeatSeconds =>
    [⟨98, text "0"⟩, ⟨108, decimal heartbeatSeconds.toNat⟩, ⟨141, text "N"⟩]
  | .heartbeat testRequestId => [⟨112, testRequestId⟩]
  | .logout reason => optionalField 58 (reason.map text)

/-- A reply of a handler, or the heartbeat that is due when nothing was sent for a while. -/
inductive Outgoing where
  | reply (reply : Reply)
  | heartbeat
  deriving DecidableEq

namespace Outgoing

def msgType : Outgoing → Bytes
  | .reply sent => sent.msgType
  | .heartbeat => text "0"

def fields (stamp : Stamp) : Outgoing → List Field
  | .reply sent => sent.fields stamp
  | .heartbeat => []

/-- An execution id is drawn for the message. -/
def drawsExecId : Outgoing → Bool
  | .reply (.executionReport _) | .reply (.newReject ..) => true
  | _ => false

end Outgoing

def buildSessionMessage (config : FixGatewayConfig) (clientCompId timestamp : Bytes)
    (sequenceNumber : UInt64) (messageType : Bytes) (fields : List Field) : Message :=
  let message := ({} : Message).add 35 messageType
  let message := message.add 34 (decimal sequenceNumber.toNat)
  let message := message.add 49 config.senderCompId
  let message := message.add 56 (if clientCompId = [] then text "UNKNOWN" else clientCompId)
  let message := message.add 52 timestamp
  fields.foldl (fun message field => message.add field.tag field.value) message

theorem foldl_add (fields : List Field) (message : Message) :
    (fields.foldl (fun message field => message.add field.tag field.value) message).fields =
      message.fields ++ fields := by
  induction fields generalizing message with
  | nil => exact (List.append_nil _).symm
  | cons field fields ih =>
    rw [List.foldl_cons, ih, Message.add, List.append_assoc]
    rfl

theorem buildSessionMessage_fields (config : FixGatewayConfig) (clientCompId timestamp : Bytes)
    (sequenceNumber : UInt64) (messageType : Bytes) (fields : List Field) :
    (buildSessionMessage config clientCompId timestamp sequenceNumber messageType fields).fields =
      [⟨35, messageType⟩, ⟨34, decimal sequenceNumber.toNat⟩, ⟨49, config.senderCompId⟩,
        ⟨56, if clientCompId = [] then text "UNKNOWN" else clientCompId⟩, ⟨52, timestamp⟩] ++
        fields :=
  foldl_add fields _

/-! ## Texts without a SOH -/

theorem text_append (s t : String) : text (s ++ t) = text s ++ text t := by
  simp only [text, String.toList_append, List.map_append]

theorem soh_not_mem_priceText (price : Price) : soh ∉ priceText price := by
  rw [priceText]
  split
  · exact List.not_mem_cons_of_ne_of_not_mem (by decide) (soh_not_mem_decimal _)
  · exact soh_not_mem_decimal _

theorem soh_not_mem_ordTypeText (type : Protocol.OrderType) : soh ∉ ordTypeText type := by
  rw [ordTypeText]
  split <;> decide

theorem soh_not_mem_tifText (timeInForce : Protocol.TimeInForce) : soh ∉ tifText timeInForce := by
  rw [tifText]
  repeat' split
  all_goals decide

theorem soh_not_mem_sideText (side : Protocol.Side) : soh ∉ FixGateway.sideText side := by
  rw [FixGateway.sideText]
  split <;> decide

theorem soh_not_mem_ordStatus (status : OrdStatus) : soh ∉ status.text := by
  cases status <;> decide

theorem soh_not_mem_execType (type : ExecType) : soh ∉ type.text := by
  cases type <;> decide

theorem soh_not_mem_averagePriceText (stamp : Stamp) (cumulativeQuantity : Nat) :
    soh ∉ averagePriceText stamp cumulativeQuantity := by
  rw [averagePriceText]
  split
  · decide
  · exact stamp.averagePrice_clean

/-- An invalid symbol has no text, and a valid one has only characters that a symbol may have. -/
theorem soh_not_mem_symbolToString (symbol : Symbol) : soh ∉ symbolToString symbol := by
  have hloop : ∀ (chars : Bytes) (sawCharacter sawTerminator : Bool),
      isValidSymbolLoop sawCharacter sawTerminator chars = true → soh ∉ chars := by
    intro chars
    induction chars with
    | nil => exact fun _ _ _ => List.not_mem_nil
    | cons character chars ih =>
      intro sawCharacter sawTerminator hvalid
      rw [isValidSymbolLoop] at hvalid
      split at hvalid
      · rename_i hzero
        exact List.not_mem_cons_of_ne_of_not_mem (by rw [hzero]; decide) (ih _ _ hvalid)
      split at hvalid
      · cases hvalid
      split at hvalid
      · cases hvalid
      · rename_i hcharacter
        refine List.not_mem_cons_of_ne_of_not_mem ?_ (ih _ _ hvalid)
        rintro rfl
        exact hcharacter rfl
  rw [symbolToString]
  split
  · exact List.not_mem_nil
  · rename_i hvalid
    intro hmem
    rw [Bool.not_eq_true, Bool.not_eq_false'] at hvalid
    exact hloop _ _ _ hvalid (List.takeWhile_subset _ hmem)

theorem forall_mem_optionalField {P : Field → Prop} (tag : Int32) (value : Option Bytes) :
    (∀ field ∈ optionalField tag value, P field) ↔ ∀ bytes ∈ value, P ⟨tag, bytes⟩ := by
  cases value with
  | none => simp [optionalField]
  | some bytes => simp [optionalField]

/-! ## What the codec carries -/

/-- No field of it can end too early. -/
def Reply.Clean (reply : Reply) : Prop :=
  ∀ stamp : Stamp, ∀ field ∈ reply.fields stamp, soh ∉ field.value

def Outgoing.Clean : Outgoing → Prop
  | .reply sent => sent.Clean
  | .heartbeat => True

section Replies

/-- The codec generates none of the tags itself. -/
theorem Reply.tags (stamp : Stamp) (reply : Reply) : ∀ field ∈ reply.fields stamp,
    0 < field.tag ∧ field.tag ≠ 8 ∧ field.tag ≠ 9 ∧ field.tag ≠ 10 := by
  cases reply with
  | executionReport | newReject | cancelReject | sessionReject | logon | heartbeat | logout =>
    simp only [Reply.fields, ExecutionReport.fields, List.forall_mem_append, List.forall_mem_cons,
      forall_mem_optionalField]
    simp

attribute [local simp] soh_not_mem_decimal soh_not_mem_priceText soh_not_mem_ordTypeText
  soh_not_mem_tifText soh_not_mem_sideText soh_not_mem_ordStatus soh_not_mem_execType
  soh_not_mem_averagePriceText soh_not_mem_symbolToString

variable {clOrdId origClOrdId : Bytes} {reason : String}

theorem clean_executionReport (order : OrderState) (execType : ExecType) (ordStatus : OrdStatus)
    {origClOrdId : Option Bytes} (lastQuantity : Option Nat) (lastPrice : Option Price)
    {reason : Option String} (hclOrdId : soh ∉ clOrdId)
    (horigClOrdId : ∀ bytes ∈ origClOrdId, soh ∉ bytes) (hreason : ∀ s ∈ reason, soh ∉ text s) :
    (executionReport order clOrdId execType ordStatus origClOrdId lastQuantity lastPrice
      reason).Clean := by
  intro stamp
  rw [executionReport, Reply.fields, ExecutionReport.fields]
  simp only [List.forall_mem_append, List.forall_mem_cons, forall_mem_optionalField]
  simp_all

theorem clean_newReject {symbol side quantity : Bytes} (hclOrdId : soh ∉ clOrdId)
    (hsymbol : soh ∉ symbol) (hside : soh ∉ side) (hquantity : soh ∉ quantity)
    (hreason : soh ∉ text reason) :
    (Reply.newReject clOrdId symbol side quantity reason).Clean := by
  intro stamp
  have hnone : soh ∉ text "NONE" := by decide
  have hrejected : soh ∉ text "8" := by decide
  have hzero : soh ∉ text "0" := by decide
  simp only [Reply.fields, List.forall_mem_cons]
  simp [*]

theorem clean_cancelReject (order : Option OrderState) (kind : PendingKind)
    (hclOrdId : soh ∉ clOrdId) (horigClOrdId : soh ∉ origClOrdId) (hreason : soh ∉ text reason) :
    (cancelReject order clOrdId origClOrdId kind reason).Clean := by
  intro stamp
  have hrejected : soh ∉ text "99" := by decide
  have hkind : soh ∉ if kind = .cancel then text "1" else text "2" := by
    split <;> decide
  have hid : soh ∉ (order.map fun order => (order.numericOrderId, order.ordStatus)).elim
      (text "NONE") fun order => decimal order.1.toNat := by
    cases order with
    | none => decide
    | some order => exact soh_not_mem_decimal _
  have hstatus : soh ∉ (order.map fun order => (order.numericOrderId, order.ordStatus)).elim
      (text "8") fun order => order.2.text := by
    cases order with
    | none => decide
    | some order => exact soh_not_mem_ordStatus _
  simp only [cancelReject, Reply.fields, List.forall_mem_cons]
  exact ⟨hid, hclOrdId, horigClOrdId, hstatus, hkind, hrejected, hreason, List.forall_mem_nil _⟩

theorem clean_sessionReject (referenceSequence : UInt64) {referenceMessageType : Option Bytes}
    (hreason : soh ∉ text reason) (htype : ∀ bytes ∈ referenceMessageType, soh ∉ bytes) :
    (Reply.sessionReject referenceSequence reason referenceMessageType).Clean := by
  intro stamp
  have hother : soh ∉ text "99" := by decide
  simp only [Reply.fields, List.forall_mem_append, List.forall_mem_cons, forall_mem_optionalField]
  exact ⟨⟨soh_not_mem_decimal _, hother, hreason, List.forall_mem_nil _⟩, htype⟩

theorem clean_logon (heartbeatSeconds : UInt32) : (Reply.logon heartbeatSeconds).Clean := by
  intro stamp
  have hzero : soh ∉ text "0" := by decide
  have hno : soh ∉ text "N" := by decide
  simp only [Reply.fields, List.forall_mem_cons]
  exact ⟨hzero, soh_not_mem_decimal _, hno, List.forall_mem_nil _⟩

theorem clean_heartbeat {testRequestId : Bytes} (h : soh ∉ testRequestId) :
    (Reply.heartbeat testRequestId).Clean := by
  intro stamp
  exact List.forall_mem_singleton.mpr h

theorem clean_logout {reason : Option String} (h : ∀ s ∈ reason, soh ∉ text s) :
    (Reply.logout reason).Clean := by
  intro stamp
  rw [Reply.fields, forall_mem_optionalField]
  simpa using h

end Replies

theorem Outgoing.msgType_mem (outgoing : Outgoing) :
    outgoing.msgType ∈ ["0", "3", "5", "8", "9", "A"].map text := by
  cases outgoing with
  | reply sent => cases sent <;> simp [msgType, Reply.msgType]
  | heartbeat => exact .head _

/-- A message of the gateway goes through the codec as it is. -/
theorem Outgoing.encodable {config : FixGatewayConfig} {clientCompId : Bytes} {outgoing : Outgoing}
    (stamp : Stamp) (sequenceNumber : UInt64) (h : outgoing.Clean)
    (hsender : soh ∉ config.senderCompId) (hclient : soh ∉ clientCompId)
    (hfits : (encode (buildSessionMessage config clientCompId stamp.timestamp sequenceNumber
      outgoing.msgType (outgoing.fields stamp))).length < 2 ^ 63) :
    Encodable (buildSessionMessage config clientCompId stamp.timestamp sequenceNumber
      outgoing.msgType (outgoing.fields stamp)) := by
  have htypes : ∀ type ∈ ["0", "3", "5", "8", "9", "A"].map text, type ≠ [] ∧ soh ∉ type := by
    decide
  have htype := htypes _ outgoing.msgType_mem
  have hfields : ∀ field ∈ outgoing.fields stamp,
      (0 < field.tag ∧ field.tag ≠ 8 ∧ field.tag ≠ 9 ∧ field.tag ≠ 10) ∧ soh ∉ field.value := by
    cases outgoing with
    | reply sent => exact fun field hfield => ⟨sent.tags stamp field hfield, h stamp field hfield⟩
    | heartbeat => exact List.forall_mem_nil _
  have htarget : soh ∉ if clientCompId = [] then text "UNKNOWN" else clientCompId := by
    split
    · decide
    · exact hclient
  refine ⟨?_, ?_, ⟨outgoing.msgType, ?_, htype.1⟩, hfits⟩
  · rw [buildSessionMessage_fields]
    simp only [List.forall_mem_append, List.forall_mem_cons]
    refine ⟨by simp, fun field hfield => (hfields field hfield).1⟩
  · rw [buildSessionMessage_fields]
    simp only [List.forall_mem_append, List.forall_mem_cons]
    exact ⟨⟨htype.2, soh_not_mem_decimal _, hsender, htarget, stamp.timestamp_clean,
      List.forall_mem_nil _⟩, fun field hfield => (hfields field hfield).2⟩
  · rw [Message.get, buildSessionMessage_fields]
    rfl

end ExchangeLab

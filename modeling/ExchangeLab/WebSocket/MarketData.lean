import ExchangeLab.Dashboard
import ExchangeLab.Fix.RoundTrip
import ExchangeLab.Lib.Json
import ExchangeLab.Protocol.Codecs

/-!
# ExchangeLab.WebSocket.MarketData

The texts that the gateway makes of market data, and what the dashboard reads in them.

* `marketDataToJson`: the function of that name. An empty text stands for none.
* `messageOf`: the message that the dashboard takes a text for.
-/

namespace ExchangeLab

open Wire ExchangeLab.Fix Protocol Json

namespace WebSocketGateway

/-! ## The texts -/

def booleanText (b : Bool) : Bytes := if b then text "true" else text "false"

/-- An integer as a stream writes it. -/
def integerText (n : Int) : Bytes := if n < 0 then 45 :: decimal n.natAbs else decimal n.natAbs

def bookJson (update : BookUpdate) : Bytes :=
  [text "\x7b\"type\":\"book\",", text "\"symbol\":\"", symbolToString update.symbol, text "\",",
    text "\"sequence\":", decimal update.sequenceNumber.toNat,
    text ",\"hasBid\":", booleanText (update.hasBid ≠ 0),
    text ",\"bestBid\":", integerText update.bestBid.toInt,
    text ",\"bidQuantity\":", decimal update.bidQuantity.toNat,
    text ",\"hasAsk\":", booleanText (update.hasAsk ≠ 0),
    text ",\"bestAsk\":", integerText update.bestAsk.toInt,
    text ",\"askQuantity\":", decimal update.askQuantity.toNat, text "\x7d"].flatten

def addJson (event : Level3AddOrder) : Bytes :=
  [text "\x7b\"type\":\"add\",", text "\"symbol\":\"", symbolToString event.symbol, text "\",",
    text "\"sequence\":", decimal event.sequenceNumber.toNat,
    text ",\"orderId\":", decimal event.orderId.toNat,
    text ",\"timestamp\":", decimal event.timestamp.toNat,
    text ",\"price\":", integerText event.price.toInt,
    text ",\"quantity\":", decimal event.quantity.toNat,
    text ",\"side\":\"", if event.side = .buy then text "BUY" else text "SELL",
    text "\"\x7d"].flatten

def executeJson (event : Level3OrderExecuted) : Bytes :=
  [text "\x7b\"type\":\"execute\",", text "\"symbol\":\"", symbolToString event.symbol, text "\",",
    text "\"sequence\":", decimal event.sequenceNumber.toNat,
    text ",\"buyOrderId\":", decimal event.buyOrderId.toNat,
    text ",\"sellOrderId\":", decimal event.sellOrderId.toNat,
    text ",\"price\":", integerText event.price.toInt,
    text ",\"quantity\":", decimal event.quantity.toNat, text "\x7d"].flatten

def deleteJson (event : Level3OrderDeleted) : Bytes :=
  [text "\x7b\"type\":\"delete\",", text "\"symbol\":\"", symbolToString event.symbol, text "\",",
    text "\"sequence\":", decimal event.sequenceNumber.toNat,
    text ",\"orderId\":", decimal event.orderId.toNat, text "\x7d"].flatten

def bodyToJson (type : MessageType) (body : Bytes) : Bytes :=
  if type = .bookUpdate then ((decodeBookUpdate body).map bookJson).getD []
  else if type = .level3AddOrder then ((decodeLevel3AddOrder body).map addJson).getD []
  else if type = .level3OrderExecuted then ((decodeLevel3OrderExecuted body).map executeJson).getD []
  else if type = .level3OrderDeleted then ((decodeLevel3OrderDeleted body).map deleteJson).getD []
  else []

def marketDataToJson (datagram : Bytes) : Bytes :=
  if datagram.length < headerSize then []
  else
    match decodeHeader (datagram.take headerSize) with
    | none => []
    | some header =>
      if datagram.length ≠ headerSize + header.bodySize.toNat then []
      else bodyToJson header.type (datagram.drop headerSize)

end WebSocketGateway

namespace Dashboard

open WebSocketGateway

/-! ## Reading a text -/

def field (members : List Member) (name : Bytes) : Option Value :=
  (members.find? fun member => member.1 = name).map Prod.snd

def stringField (members : List Member) (name : Bytes) : Option Bytes :=
  match field members name with
  | some (.string value) => some value
  | _ => none

def integerField (members : List Member) (name : Bytes) : Option Int :=
  match field members name with
  | some (.integer n) => some n
  | _ => none

def booleanField (members : List Member) (name : Bytes) : Option Bool :=
  match field members name with
  | some (.boolean b) => some b
  | _ => none

/-- The message with these members. Telemetry is none. -/
def messageOfMembers (members : List Member) : Option MarketMessage := do
  let type ← stringField members (text "type")
  let symbol ← stringField members (text "symbol")
  let sequence ← integerField members (text "sequence")
  if type = text "book" then
    let hasBid ← booleanField members (text "hasBid")
    let bestBid ← integerField members (text "bestBid")
    let bidQuantity ← integerField members (text "bidQuantity")
    let hasAsk ← booleanField members (text "hasAsk")
    let bestAsk ← integerField members (text "bestAsk")
    let askQuantity ← integerField members (text "askQuantity")
    return .book symbol sequence.toNat hasBid (.ofInt bestBid) bidQuantity hasAsk (.ofInt bestAsk)
      askQuantity
  else if type = text "add" then
    let orderId ← integerField members (text "orderId")
    let timestamp ← integerField members (text "timestamp")
    let price ← integerField members (text "price")
    let quantity ← integerField members (text "quantity")
    let side ← stringField members (text "side")
    return .add symbol sequence.toNat (.ofNat orderId.toNat) (.ofNat timestamp.toNat) (.ofInt price)
      quantity (if side = text "BUY" then .buy else .sell)
  else if type = text "execute" then
    let buyOrderId ← integerField members (text "buyOrderId")
    let sellOrderId ← integerField members (text "sellOrderId")
    let price ← integerField members (text "price")
    let quantity ← integerField members (text "quantity")
    return .execute symbol sequence.toNat (.ofNat buyOrderId.toNat) (.ofNat sellOrderId.toNat)
      (.ofInt price) quantity
  else if type = text "delete" then
    let orderId ← integerField members (text "orderId")
    return .delete symbol sequence.toNat (.ofNat orderId.toNat)
  else none

def messageOf (text : Bytes) : Option MarketMessage := (read text).bind messageOfMembers

end Dashboard

namespace WebSocketGateway

/-! ## Members -/

theorem head_toDigits {n : Nat} (h : (Nat.toDigits 10 n).head? = some '0') : n = 0 := by
  induction n using Nat.strongRecOn with
  | ind n ih =>
    rw [Nat.toDigits_eq_if (by decide)] at h
    split at h
    · rename_i hsmall
      have hdigit : ∀ n < 10, n.digitChar = '0' → n = 0 := by decide
      rw [List.head?_cons, Option.some_inj] at h
      exact hdigit n hsmall h
    · rename_i hlarge
      rw [List.head?_append_of_ne_nil _ Nat.toDigits_ne_nil] at h
      have hzero := ih (n / 10) (by omega) h
      omega

theorem natural_decimal (n : Nat) : Natural (decimal n) n := by
  refine ⟨numeral_decimal n, fun hhead => ?_⟩
  have hzero : n = 0 := by
    rw [decimal_eq, List.head?_map, Option.map_eq_some_iff] at hhead
    obtain ⟨character, hcharacter, hbyte⟩ := hhead
    have hmem := List.mem_of_mem_head? hcharacter
    have hnat := (digit_toNat hmem).1
    rw [hbyte] at hnat
    have hzero : character = '0' := Char.toNat_inj.mp hnat.symm
    exact head_toDigits (hzero ▸ hcharacter)
  rw [hzero]
  decide

theorem integerText_text (n : Int) : (Value.integer n).Text (integerText n) := by
  rw [integerText]
  split
  · rename_i hnegative
    have hn : n = -(n.natAbs : Int) := by omega
    rw [hn, Int.natAbs_neg, Int.natAbs_natCast]
    exact .negative (natural_decimal _)
  · rename_i hnonnegative
    have hn : n = (n.natAbs : Int) := by omega
    rw [hn, Int.natAbs_natCast]
    exact .natural (natural_decimal _)

theorem booleanText_text (b : Bool) : (Value.boolean b).Text (booleanText b) := by
  cases b
  · exact .no
  · exact .yes

theorem isPlain_of_symbol {character : UInt8} (h : isValidSymbolCharacter character = true) :
    isPlain character = true := by
  have hrange : 45 ≤ character.toNat ∧ character.toNat ≤ 90 ∧ character.toNat ≠ 92 := by
    simp only [isValidSymbolCharacter, Bool.or_eq_true, Bool.and_eq_true, decide_eq_true_eq,
      UInt8.le_iff_toNat_le, ge_iff_le, ← UInt8.toNat_inj, UInt8.reduceToNat] at h
    omega
  simp only [isPlain, Bool.and_eq_true, decide_eq_true_eq, UInt8.le_iff_toNat_le,
    UInt8.lt_iff_toNat_lt, ne_eq, ← UInt8.toNat_inj, UInt8.reduceToNat]
  omega

/-- The text of a symbol needs no escapes. -/
theorem symbolToString_plain (symbol : Symbol) :
    ∀ character ∈ symbolToString symbol, isPlain character = true := by
  have hloop : ∀ (characters : Bytes) (sawCharacter : Bool),
      isValidSymbolLoop sawCharacter false characters = true →
      ∀ character ∈ characters.takeWhile (· ≠ 0), isPlain character = true := by
    intro characters
    induction characters with
    | nil => intro _ _ character hmem; cases hmem
    | cons first rest ih =>
      intro sawCharacter hvalid character hmem
      rw [List.takeWhile_cons] at hmem
      split at hmem
      · rename_i hne
        have hfirst : first ≠ 0 := of_decide_eq_true hne
        rw [isValidSymbolLoop, if_neg hfirst, if_neg Bool.false_ne_true] at hvalid
        split at hvalid
        · cases hvalid
        · rename_i hcharacter
          rw [Bool.not_eq_true', Bool.not_eq_false] at hcharacter
          rcases List.mem_cons.mp hmem with rfl | hmem
          · exact isPlain_of_symbol hcharacter
          · exact ih true hvalid character hmem
      · cases hmem
  intro character hmem
  rw [symbolToString] at hmem
  split at hmem
  · cases hmem
  · rename_i hvalid
    rw [Bool.not_eq_true', Bool.not_eq_false] at hvalid
    exact hloop _ _ hvalid character hmem

def memberText (name value : Bytes) : Bytes := 34 :: (name ++ 34 :: 58 :: value)

def quoted (value : Bytes) : Bytes := 34 :: (value ++ [34])

theorem bookJson_eq (update : BookUpdate) : bookJson update = 123 :: joined
    [memberText (text "type") (quoted (text "book")),
      memberText (text "symbol") (quoted (symbolToString update.symbol)),
      memberText (text "sequence") (decimal update.sequenceNumber.toNat),
      memberText (text "hasBid") (booleanText (update.hasBid ≠ 0)),
      memberText (text "bestBid") (integerText update.bestBid.toInt),
      memberText (text "bidQuantity") (decimal update.bidQuantity.toNat),
      memberText (text "hasAsk") (booleanText (update.hasAsk ≠ 0)),
      memberText (text "bestAsk") (integerText update.bestAsk.toInt),
      memberText (text "askQuantity") (decimal update.askQuantity.toNat)] := by
  simp only [bookJson, joined, memberText, quoted, List.flatten_cons, List.flatten_nil,
    List.append_assoc, List.cons_append, List.nil_append]
  rfl

theorem addJson_eq (event : Level3AddOrder) : addJson event = 123 :: joined
    [memberText (text "type") (quoted (text "add")),
      memberText (text "symbol") (quoted (symbolToString event.symbol)),
      memberText (text "sequence") (decimal event.sequenceNumber.toNat),
      memberText (text "orderId") (decimal event.orderId.toNat),
      memberText (text "timestamp") (decimal event.timestamp.toNat),
      memberText (text "price") (integerText event.price.toInt),
      memberText (text "quantity") (decimal event.quantity.toNat),
      memberText (text "side") (quoted (if event.side = .buy then text "BUY" else text "SELL"))] := by
  simp only [addJson, joined, memberText, quoted, List.flatten_cons, List.flatten_nil,
    List.append_assoc, List.cons_append, List.nil_append]
  rfl

theorem executeJson_eq (event : Level3OrderExecuted) : executeJson event = 123 :: joined
    [memberText (text "type") (quoted (text "execute")),
      memberText (text "symbol") (quoted (symbolToString event.symbol)),
      memberText (text "sequence") (decimal event.sequenceNumber.toNat),
      memberText (text "buyOrderId") (decimal event.buyOrderId.toNat),
      memberText (text "sellOrderId") (decimal event.sellOrderId.toNat),
      memberText (text "price") (integerText event.price.toInt),
      memberText (text "quantity") (decimal event.quantity.toNat)] := by
  simp only [executeJson, joined, memberText, quoted, List.flatten_cons, List.flatten_nil,
    List.append_assoc, List.cons_append, List.nil_append]
  rfl

theorem deleteJson_eq (event : Level3OrderDeleted) : deleteJson event = 123 :: joined
    [memberText (text "type") (quoted (text "delete")),
      memberText (text "symbol") (quoted (symbolToString event.symbol)),
      memberText (text "sequence") (decimal event.sequenceNumber.toNat),
      memberText (text "orderId") (decimal event.orderId.toNat)] := by
  simp only [deleteJson, joined, memberText, quoted, List.flatten_cons, List.flatten_nil,
    List.append_assoc, List.cons_append, List.nil_append]
  rfl

end WebSocketGateway

namespace Dashboard

open WebSocketGateway

/-! ## The messages -/

def bookMessage (update : BookUpdate) : MarketMessage :=
  .book (symbolToString update.symbol) update.sequenceNumber.toNat (update.hasBid ≠ 0) update.bestBid
    update.bidQuantity.toNat (update.hasAsk ≠ 0) update.bestAsk update.askQuantity.toNat

theorem messageOf_bookJson (update : BookUpdate) :
    messageOf (bookJson update) = some (bookMessage update) := by
  have hread : read (bookJson update) = some
      [(text "type", .string (text "book")), (text "symbol", .string (symbolToString update.symbol)),
        (text "sequence", .integer update.sequenceNumber.toNat),
        (text "hasBid", .boolean (update.hasBid ≠ 0)),
        (text "bestBid", .integer update.bestBid.toInt),
        (text "bidQuantity", .integer update.bidQuantity.toNat),
        (text "hasAsk", .boolean (update.hasAsk ≠ 0)),
        (text "bestAsk", .integer update.bestAsk.toInt),
        (text "askQuantity", .integer update.askQuantity.toNat)] := by
    rw [bookJson_eq]
    refine read_object ?_ (List.cons_ne_nil _ _)
    exact .cons (.intro (List.all_eq_true.mp rfl) (.string (List.all_eq_true.mp rfl)))
      (.cons (.intro (List.all_eq_true.mp rfl) (.string (symbolToString_plain _)))
      (.cons (.intro (List.all_eq_true.mp rfl) (.natural (natural_decimal _)))
      (.cons (.intro (List.all_eq_true.mp rfl) (booleanText_text _))
      (.cons (.intro (List.all_eq_true.mp rfl) (integerText_text _))
      (.cons (.intro (List.all_eq_true.mp rfl) (.natural (natural_decimal _)))
      (.cons (.intro (List.all_eq_true.mp rfl) (booleanText_text _))
      (.cons (.intro (List.all_eq_true.mp rfl) (integerText_text _))
      (.cons (.intro (List.all_eq_true.mp rfl) (.natural (natural_decimal _))) .nil))))))))
  have hbid : Int64.ofInt update.bestBid.toInt = update.bestBid := Int64.ofInt_toInt _
  have hask : Int64.ofInt update.bestAsk.toInt = update.bestAsk := Int64.ofInt_toInt _
  rw [messageOf, hread, bookMessage]
  nth_rw 2 [← hbid, ← hask]
  rfl

def addMessage (event : Level3AddOrder) : MarketMessage :=
  .add (symbolToString event.symbol) event.sequenceNumber.toNat event.orderId event.timestamp
    event.price event.quantity.toNat (if event.side = .buy then .buy else .sell)

theorem messageOf_addJson (event : Level3AddOrder) :
    messageOf (addJson event) = some (addMessage event) := by
  have hside : ∀ character ∈ if event.side = .buy then text "BUY" else text "SELL",
      isPlain character = true := by
    split <;> exact List.all_eq_true.mp rfl
  have hread : read (addJson event) = some
      [(text "type", .string (text "add")), (text "symbol", .string (symbolToString event.symbol)),
        (text "sequence", .integer event.sequenceNumber.toNat),
        (text "orderId", .integer event.orderId.toNat),
        (text "timestamp", .integer event.timestamp.toNat),
        (text "price", .integer event.price.toInt), (text "quantity", .integer event.quantity.toNat),
        (text "side", .string (if event.side = .buy then text "BUY" else text "SELL"))] := by
    rw [addJson_eq]
    refine read_object ?_ (List.cons_ne_nil _ _)
    exact .cons (.intro (List.all_eq_true.mp rfl) (.string (List.all_eq_true.mp rfl)))
      (.cons (.intro (List.all_eq_true.mp rfl) (.string (symbolToString_plain _)))
      (.cons (.intro (List.all_eq_true.mp rfl) (.natural (natural_decimal _)))
      (.cons (.intro (List.all_eq_true.mp rfl) (.natural (natural_decimal _)))
      (.cons (.intro (List.all_eq_true.mp rfl) (.natural (natural_decimal _)))
      (.cons (.intro (List.all_eq_true.mp rfl) (integerText_text _))
      (.cons (.intro (List.all_eq_true.mp rfl) (.natural (natural_decimal _)))
      (.cons (.intro (List.all_eq_true.mp rfl) (.string hside)) .nil)))))))
  have horder : UInt64.ofNat event.orderId.toNat = event.orderId := UInt64.ofNat_toNat
  have htime : UInt64.ofNat event.timestamp.toNat = event.timestamp := UInt64.ofNat_toNat
  have hprice : Int64.ofInt event.price.toInt = event.price := Int64.ofInt_toInt _
  rw [messageOf, hread, addMessage]
  nth_rw 2 [← horder, ← htime, ← hprice]
  split <;> rfl

def executeMessage (event : Level3OrderExecuted) : MarketMessage :=
  .execute (symbolToString event.symbol) event.sequenceNumber.toNat event.buyOrderId
    event.sellOrderId event.price event.quantity.toNat

theorem messageOf_executeJson (event : Level3OrderExecuted) :
    messageOf (executeJson event) = some (executeMessage event) := by
  have hread : read (executeJson event) = some
      [(text "type", .string (text "execute")),
        (text "symbol", .string (symbolToString event.symbol)),
        (text "sequence", .integer event.sequenceNumber.toNat),
        (text "buyOrderId", .integer event.buyOrderId.toNat),
        (text "sellOrderId", .integer event.sellOrderId.toNat),
        (text "price", .integer event.price.toInt),
        (text "quantity", .integer event.quantity.toNat)] := by
    rw [executeJson_eq]
    refine read_object ?_ (List.cons_ne_nil _ _)
    exact .cons (.intro (List.all_eq_true.mp rfl) (.string (List.all_eq_true.mp rfl)))
      (.cons (.intro (List.all_eq_true.mp rfl) (.string (symbolToString_plain _)))
      (.cons (.intro (List.all_eq_true.mp rfl) (.natural (natural_decimal _)))
      (.cons (.intro (List.all_eq_true.mp rfl) (.natural (natural_decimal _)))
      (.cons (.intro (List.all_eq_true.mp rfl) (.natural (natural_decimal _)))
      (.cons (.intro (List.all_eq_true.mp rfl) (integerText_text _))
      (.cons (.intro (List.all_eq_true.mp rfl) (.natural (natural_decimal _))) .nil))))))
  have hbuy : UInt64.ofNat event.buyOrderId.toNat = event.buyOrderId := UInt64.ofNat_toNat
  have hsell : UInt64.ofNat event.sellOrderId.toNat = event.sellOrderId := UInt64.ofNat_toNat
  have hprice : Int64.ofInt event.price.toInt = event.price := Int64.ofInt_toInt _
  rw [messageOf, hread, executeMessage]
  nth_rw 2 [← hbuy, ← hsell, ← hprice]
  rfl

def deleteMessage (event : Level3OrderDeleted) : MarketMessage :=
  .delete (symbolToString event.symbol) event.sequenceNumber.toNat event.orderId

theorem messageOf_deleteJson (event : Level3OrderDeleted) :
    messageOf (deleteJson event) = some (deleteMessage event) := by
  have hread : read (deleteJson event) = some
      [(text "type", .string (text "delete")),
        (text "symbol", .string (symbolToString event.symbol)),
        (text "sequence", .integer event.sequenceNumber.toNat),
        (text "orderId", .integer event.orderId.toNat)] := by
    rw [deleteJson_eq]
    refine read_object ?_ (List.cons_ne_nil _ _)
    exact .cons (.intro (List.all_eq_true.mp rfl) (.string (List.all_eq_true.mp rfl)))
      (.cons (.intro (List.all_eq_true.mp rfl) (.string (symbolToString_plain _)))
      (.cons (.intro (List.all_eq_true.mp rfl) (.natural (natural_decimal _)))
      (.cons (.intro (List.all_eq_true.mp rfl) (.natural (natural_decimal _))) .nil)))
  have horder : UInt64.ofNat event.orderId.toNat = event.orderId := UInt64.ofNat_toNat
  rw [messageOf, hread, deleteMessage]
  nth_rw 2 [← horder]
  rfl

/-! ## What a text says of its datagram -/

section Body

variable {type : MessageType} {body : Bytes} {message : MarketMessage}

/-- The broadcast in a body. -/
def messageOfBody (type : MessageType) (body : Bytes) : Option MarketMessage :=
  if type = .bookUpdate then (decodeBookUpdate body).map bookMessage
  else if type = .level3AddOrder then (decodeLevel3AddOrder body).map addMessage
  else if type = .level3OrderExecuted then (decodeLevel3OrderExecuted body).map executeMessage
  else if type = .level3OrderDeleted then (decodeLevel3OrderDeleted body).map deleteMessage
  else none

theorem messageOf_bodyToJson (type : MessageType) (body : Bytes) :
    messageOf (bodyToJson type body) = messageOfBody type body := by
  have hnone : messageOf [] = none := rfl
  have hmap : ∀ {α : Type} (decoded : Option α) (json : α → Bytes) (message : α → MarketMessage),
      (∀ x, messageOf (json x) = some (message x)) →
      messageOf ((decoded.map json).getD []) = decoded.map message := by
    intro α decoded json message h
    cases decoded with
    | none => exact hnone
    | some x => exact h x
  rw [bodyToJson, messageOfBody]
  split
  · exact hmap _ _ _ messageOf_bookJson
  split
  · exact hmap _ _ _ messageOf_addJson
  split
  · exact hmap _ _ _ messageOf_executeJson
  split
  · exact hmap _ _ _ messageOf_deleteJson
  · exact hnone

end Body

section Datagram

variable {datagram : Bytes} {message : MarketMessage}

/-- The broadcast in a datagram that is as long as its header says. -/
def broadcastIn (datagram : Bytes) : Option MarketMessage := do
  let header ← decodeHeader (datagram.take headerSize)
  if datagram.length = headerSize + header.bodySize.toNat then
    messageOfBody header.type (datagram.drop headerSize)
  else none

/-- A datagram that is too short for a header has none. -/
theorem decodeHeader_short (h : datagram.length < headerSize) :
    decodeHeader (datagram.take headerSize) = none := by
  rw [decodeHeader, if_pos]
  rw [List.length_take]
  omega

theorem messageOf_marketDataToJson (datagram : Bytes) :
    messageOf (marketDataToJson datagram) = broadcastIn datagram := by
  rw [marketDataToJson, broadcastIn]
  split
  · rename_i hshort
    rw [decodeHeader_short hshort]
    rfl
  cases decodeHeader (datagram.take headerSize) with
  | none => rfl
  | some header =>
    simp only [Option.bind_eq_bind, Option.bind_some, ne_eq, ite_not]
    split
    · exact messageOf_bodyToJson _ _
    · rfl

end Datagram

end Dashboard

open Dashboard WebSocketGateway

end ExchangeLab

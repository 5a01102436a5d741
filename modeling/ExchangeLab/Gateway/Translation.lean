import ExchangeLab.Gateway.Clients

/-!
# ExchangeLab.Gateway.Translation

The order that a NewOrderSingle stands for, and the one the core makes of its translation.

* `FirstValue`: the value of the first field with a tag; `get_eq_some_iff`.
* `DenotesSide`, `DenotesOrderType`, `DenotesTimeInForce`: the FIX values of the enumerations.
* `StandsFor`: the order and the symbol a message means, field by field.
* `translation_stands_for`: the translated request passes the checks of the core and becomes that order.
-/

namespace ExchangeLab

open Wire Protocol ExchangeLab.Fix FixGateway FixBridge ExchangeServer

/-! ## What a message means -/

def FirstValue (message : Message) (tag : Int32) (value : Bytes) : Prop :=
  ∃ before after, message.fields = before ++ ⟨tag, value⟩ :: after ∧
    ∀ field ∈ before, field.tag ≠ tag

def Absent (message : Message) (tag : Int32) : Prop := ∀ field ∈ message.fields, field.tag ≠ tag

inductive DenotesSide : Bytes → Side → Prop
  | buy : DenotesSide (text "1") .buy
  | sell : DenotesSide (text "2") .sell

inductive DenotesOrderType : Bytes → OrderType → Prop
  | market : DenotesOrderType (text "1") .market
  | limit : DenotesOrderType (text "2") .limit

inductive DenotesTimeInForce : Bytes → TimeInForce → Prop
  | goodTillCancel : DenotesTimeInForce (text "1") .goodTillCancel
  | immediateOrCancel : DenotesTimeInForce (text "3") .immediateOrCancel
  | fillOrKill : DenotesTimeInForce (text "4") .fillOrKill

/-- The time in force that a message asks for, with its default for each type of order. -/
inductive GivenTimeInForce (message : Message) : OrderType → TimeInForce → Prop
  | denoted {orderType : OrderType} {value : Bytes} {timeInForce : TimeInForce}
      (hvalue : FirstValue message 59 value) (hdenotes : DenotesTimeInForce value timeInForce) :
      GivenTimeInForce message orderType timeInForce
  | limit (habsent : Absent message 59) : GivenTimeInForce message .limit .goodTillCancel
  | market (habsent : Absent message 59) : GivenTimeInForce message .market .immediateOrCancel

structure StandsFor (message : Message) (id timestamp : UInt64) (order : Order) (symbol : Bytes) :
    Prop where
  id : order.id = id
  timestamp : order.timestamp = timestamp
  side : ∃ value, FirstValue message 54 value ∧ DenotesSide value order.side
  type : ∃ value, FirstValue message 40 value ∧ DenotesOrderType value order.type
  quantity : ∃ value, FirstValue message 38 value ∧ Numeral value order.initialQuantity.toNat
  positive : 0 < order.initialQuantity
  whole : order.remainingQuantity = order.initialQuantity
  price : order.type = .limit → 0 < order.price.toInt ∧
    ∃ value, FirstValue message 44 value ∧ Numeral value order.price.toInt.toNat
  symbol : FirstValue message 55 symbol
  timeInForce : ∃ given, GivenTimeInForce message order.type given ∧
    order.timeInForce = if order.type = .market ∧ given = .goodTillCancel then .immediateOrCancel
      else given
  market : order.type = .market → order.timeInForce ≠ .goodTillCancel

/-! ## The first field with a tag -/

section Fields

variable {message : Message} {tag : Int32} {value : Bytes}

theorem get_eq_some_iff : message.get tag = some value ↔ FirstValue message tag value := by
  rw [Message.get, Option.map_eq_some_iff, FirstValue]
  constructor
  · rintro ⟨field, hfound, rfl⟩
    obtain ⟨htag, before, after, hfields, hbefore⟩ := List.find?_eq_some_iff_append.mp hfound
    obtain rfl := of_decide_eq_true htag
    exact ⟨before, after, hfields, fun other hother => by simpa using hbefore other hother⟩
  · rintro ⟨before, after, hfields, hbefore⟩
    refine ⟨⟨tag, value⟩, List.find?_eq_some_iff_append.mpr ⟨decide_eq_true rfl, before, after,
      hfields, fun other hother => ?_⟩, rfl⟩
    simpa using hbefore other hother

theorem get_eq_none_iff : message.get tag = none ↔ Absent message tag := by
  rw [Message.get, Option.map_eq_none_iff, List.find?_eq_none, Absent]
  simp only [decide_eq_true_eq]

end Fields

/-! ## Enumerations, numbers and symbols -/

section Values

variable {value : Bytes}

theorem denotesSide {side : Protocol.Side} (h : translateSide value = some side) :
    DenotesSide value (convertSide side) := by
  unfold translateSide at h
  split at h
  · rename_i heq
    cases h
    rw [heq]
    exact .buy
  split at h
  · rename_i heq
    cases h
    rw [heq]
    exact .sell
  · cases h

theorem denotesOrderType {orderType : Protocol.OrderType}
    (h : translateOrderType value = some orderType) :
    DenotesOrderType value (convertOrderType orderType) := by
  unfold translateOrderType at h
  split at h
  · rename_i heq
    cases h
    rw [heq]
    exact .market
  split at h
  · rename_i heq
    cases h
    rw [heq]
    exact .limit
  · cases h

theorem denotesTimeInForce {timeInForce : Protocol.TimeInForce}
    (h : translateTimeInForce value = some timeInForce) :
    DenotesTimeInForce value (convertTimeInForce timeInForce) := by
  unfold translateTimeInForce at h
  split at h
  · rename_i heq
    cases h
    rw [heq]
    exact .goodTillCancel
  split at h
  · rename_i heq
    cases h
    rw [heq]
    exact .immediateOrCancel
  split at h
  · rename_i heq
    cases h
    rw [heq]
    exact .fillOrKill
  · cases h

theorem numeral_of_parseU64 {n : UInt64} (h : parseU64 value = some n) : Numeral value n.toNat := by
  obtain ⟨m, hm, h⟩ := Option.bind_eq_some_iff.mp h
  split at h
  · rename_i hlt
    cases h
    rw [UInt64.toNat_ofNat_of_lt' hlt]
    exact readDecimal_iff.mp hm
  · cases h

theorem numeral_of_parsePrice {price : Price} (h : parsePrice value = some price) :
    0 < price.toInt ∧ Numeral value price.toInt.toNat := by
  obtain ⟨hparse, hpos⟩ := Option.filter_eq_some_iff.mp h
  rw [decide_eq_true_eq, Int64.lt_iff_toInt_lt, Int64.toInt_zero] at hpos
  refine ⟨hpos, ?_⟩
  unfold parseI64 at hparse
  split at hparse
  · -- what follows a minus sign is no price
    obtain ⟨n, -, hn⟩ := Option.bind_eq_some_iff.mp hparse
    split at hn
    · rename_i hle
      cases hn
      rw [Int64.toInt_ofInt, show Int64.size = 2 ^ 64 from rfl,
        Int.bmod_eq_of_le (by omega) (by omega)] at hpos
      omega
    · cases hn
  · obtain ⟨n, hread, hn⟩ := Option.bind_eq_some_iff.mp hparse
    split at hn
    · rename_i hlt
      cases hn
      rw [Int64.toInt_ofNat_of_lt hlt, Int.toNat_natCast]
      exact readDecimal_iff.mp hread
    · cases hn

/-- A text that makes a valid symbol is the text of that symbol. -/
theorem symbolToString_makeSymbol (h : isValidSymbol (makeSymbol value) = true) :
    symbolToString (makeSymbol value) = value := by
  have hempty : isValidSymbol ⟨List.replicate symbolSize 0, size_replicate⟩ = false := by decide
  rw [symbolToString, if_neg (by rw [h]; decide)]
  unfold makeSymbol at h ⊢
  split at h
  · rw [hempty] at h
    cases h
  split at h
  · rw [hempty] at h
    cases h
  rename_i hsize hchars
  rw [dif_neg hsize, if_neg hchars]
  have hvalid : ∀ character ∈ value, isValidSymbolCharacter character = true := by
    simpa using hchars
  rw [List.takeWhile_append_of_pos, List.takeWhile_replicate]
  · simp
  · intro character hcharacter
    have hne : character ≠ 0 := by
      rintro rfl
      exact absurd (hvalid 0 hcharacter) (by decide)
    simpa using hne

end Values

/-! ## The translated request in the core -/

section Core

variable {message : Message} {id timestamp : UInt64} {translated : NewOrderTranslation}

theorem givenTimeInForce_of_choose {orderType : Protocol.OrderType}
    {timeInForce : Protocol.TimeInForce} (htype : orderType = .market ∨ orderType = .limit)
    (h : chooseTimeInForce orderType message = .ok timeInForce) :
    ∃ given, GivenTimeInForce message (convertOrderType orderType) given ∧
      convertTimeInForce timeInForce =
        if convertOrderType orderType = .market ∧ given = .goodTillCancel then .immediateOrCancel
        else given := by
  obtain ⟨given, hgiven, hknown, rfl⟩ := chooseTimeInForce_ok h
  refine ⟨convertTimeInForce given, ?_, ?_⟩
  · rcases hgiven with ⟨habsent, rfl⟩ | ⟨value, hget, hvalue⟩
    · rcases htype with rfl | rfl
      · exact .market (get_eq_none_iff.mp habsent)
      · exact .limit (get_eq_none_iff.mp habsent)
    · exact .denoted (get_eq_some_iff.mp hget) (denotesTimeInForce hvalue)
  · rcases htype with rfl | rfl <;> rcases hknown with rfl | rfl | rfl <;> decide

theorem standsFor_of_readFrom (h : ReadFrom message id timestamp translated)
    (hok : Translates message id timestamp translated) :
    StandsFor message id timestamp (ExchangeServer.orderOf translated.request)
      (symbolToString translated.request.symbol) := by
  obtain ⟨-, horderId, htimestamp, ⟨symbolText, hsymbolText, hsymbol, hvalid⟩, ⟨sideText, hsideText,
    hside⟩, ⟨quantityText, hquantityText, hquantity⟩, ⟨typeText, htypeText, htype⟩, hprice, htif⟩ := h
  have hkind := translateOrderType_some htype
  obtain ⟨given, hgiven, hchosen⟩ := givenTimeInForce_of_choose hkind htif
  obtain ⟨hparse, -⟩ := Option.filter_eq_some_iff.mp hquantity
  have hnarrow : translated.request.quantity.toUInt32.toNat = translated.request.quantity.toNat :=
    toUInt32_toNat_of_le hok.quantity.2
  refine ⟨horderId, htimestamp, ⟨sideText, get_eq_some_iff.mp hsideText, denotesSide hside⟩,
    ⟨typeText, get_eq_some_iff.mp htypeText, denotesOrderType htype⟩,
    ⟨quantityText, get_eq_some_iff.mp hquantityText, ?_⟩, ?_, rfl, fun hlimit => ?_, ?_,
    ⟨given, hgiven, hchosen⟩, fun hmarket => ?_⟩
  · rw [ExchangeServer.orderOf, hnarrow]
    exact numeral_of_parseU64 hparse
  · rw [UInt32.lt_iff_toNat_lt, ExchangeServer.orderOf, hnarrow]
    exact Nat.pos_of_ne_zero fun hzero => hok.quantity.1 (UInt64.toNat_inj.mp hzero)
  · rcases hkind with heq | heq
    · rw [ExchangeServer.orderOf, heq] at hlimit
      cases hlimit
    · rw [heq] at hprice
      obtain ⟨priceText, hpriceText, hprice⟩ := ok_of_bind hprice
      obtain ⟨hpos, hnumeral⟩ := numeral_of_parsePrice (orError_ok hprice)
      exact ⟨hpos, priceText, get_eq_some_iff.mp (requiredField_ok hpriceText).1, hnumeral⟩
  · rw [hsymbol, symbolToString_makeSymbol hvalid]
    exact get_eq_some_iff.mp hsymbolText
  · have hchosen' : (ExchangeServer.orderOf translated.request).timeInForce = _ := hchosen
    have hmarket' : convertOrderType translated.request.orderType = .market := hmarket
    rw [hchosen']
    split
    · decide
    · rename_i hnot
      exact fun heq => hnot ⟨hmarket', heq⟩

/-- What the gateway sends for a message passes every check of the format that the core makes, and is
the order the message stands for. -/
theorem translation_stands_for (message : Message) (id timestamp : UInt64)
    (translated : NewOrderTranslation)
    (h : translateNewOrderSingle message id timestamp = .ok translated) :
    (encodeNewOrder translated.request).length = newOrderBodySize ∧
    ∃ request, decodeNewOrder (encodeNewOrder translated.request) = some request ∧
      ¬request.quantity > maximumQuantity ∧ symbolToString request.symbol ≠ [] ∧
      StandsFor message id timestamp (ExchangeServer.orderOf request)
        (symbolToString request.symbol) := by
  have hok := translateNewOrderSingle_ok h
  have htype : translated.request.orderType = .limit ∨ translated.request.orderType = .market :=
    hok.orderType.imp And.left And.left
  have hvalid : translated.request.Valid :=
    ⟨hok.side, htype, hok.timeInForce, hok.quantity.1, hok.symbol⟩
  refine ⟨length_encodeNewOrder _, translated.request, newOrder_exact.accepts _ hvalid, ?_,
    symbolToString_ne_nil hok.symbol,
    standsFor_of_readFrom (translateNewOrderSingle_readFrom h) hok⟩
  exact UInt64.not_lt.mpr hok.quantity.2

/-- A market order that asks to be good till cancelled, with two sides of which the first counts. -/
theorem translation_stands_for_market :
    let message : Message := ⟨[⟨35, text "D"⟩, ⟨11, text "A"⟩, ⟨55, text "TEST"⟩, ⟨54, text "1"⟩,
      ⟨54, text "2"⟩, ⟨38, text "0100"⟩, ⟨40, text "1"⟩, ⟨59, text "1"⟩]⟩
    let translated : NewOrderTranslation :=
      ⟨⟨7, 5, 0, 100, .buy, .market, .immediateOrCancel, defaultSymbol⟩, text "A"⟩
    (encodeNewOrder translated.request).length = newOrderBodySize ∧
    ∃ request, decodeNewOrder (encodeNewOrder translated.request) = some request ∧
      ¬request.quantity > maximumQuantity ∧ symbolToString request.symbol ≠ [] ∧
      StandsFor message 7 5 (ExchangeServer.orderOf request) (symbolToString request.symbol) :=
  translation_stands_for _ 7 5 _ rfl

end Core

end ExchangeLab

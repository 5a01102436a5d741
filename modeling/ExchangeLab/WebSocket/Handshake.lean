import ExchangeLab.FixCodec
import ExchangeLab.Lib.Base64
import ExchangeLab.Lib.Segmentation
import ExchangeLab.Lib.WebSocket

/-!
# ExchangeLab.WebSocket.Handshake

How a WebSocket client is let in: its request is read until the blank line, and answered with a hash
of the key in it.

* `sha1`, `base64Encode`, `headerValue`, `websocketAcceptKey`, `performHandshake`: the functions of
  these names.
* `base64Encode_eq`: the shifts and masks make Base64.
* `handshake_cut_free`: who is let in, and what the answer holds, does not depend on how the request
  is cut into chunks.
-/

namespace ExchangeLab

open Wire ExchangeLab.Fix

namespace WebSocketGateway

/-! ## The hash -/

def rotateLeft (value amount : UInt32) : UInt32 := (value <<< amount) ||| (value >>> (32 - amount))

/-- The zeros behind the first byte of the padding; no more than `turns` of them are ever needed. -/
def padZeros : Nat → Bytes → Bytes
  | 0, message => message
  | turns + 1, message =>
    if message.length % 64 ≠ 56 then padZeros turns (message ++ [0]) else message

def padded (input : Bytes) : Bytes :=
  let bitLength := UInt64.ofNat input.length * 8
  padZeros 63 (input ++ [0x80]) ++ encodeBig 8 bitLength.toNat

def word (message : Bytes) (offset : Nat) : UInt32 :=
  ((message.getD offset 0).toUInt32 <<< 24) ||| ((message.getD (offset + 1) 0).toUInt32 <<< 16) |||
    ((message.getD (offset + 2) 0).toUInt32 <<< 8) ||| (message.getD (offset + 3) 0).toUInt32

/-- The words of a chunk, `count` of them behind those that are read from it. -/
def schedule (first : List UInt32) : Nat → List UInt32
  | 0 => first
  | count + 1 =>
    let words := schedule first count
    let index := words.length
    words ++ [rotateLeft (words.getD (index - 3) 0 ^^^ words.getD (index - 8) 0 ^^^
      words.getD (index - 14) 0 ^^^ words.getD (index - 16) 0) 1]

structure Registers where
  a : UInt32
  b : UInt32
  c : UInt32
  d : UInt32
  e : UInt32

def Registers.round (index : Nat) (word : UInt32) (registers : Registers) : Registers :=
  let ⟨a, b, c, d, e⟩ := registers
  let (function, constant) :=
    if index < 20 then ((b &&& c) ||| (~~~b &&& d), 0x5A827999)
    else if index < 40 then (b ^^^ c ^^^ d, 0x6ED9EBA1)
    else if index < 60 then ((b &&& c) ||| (b &&& d) ||| (c &&& d), 0x8F1BBCDC)
    else (b ^^^ c ^^^ d, 0xCA62C1D6)
  ⟨rotateLeft a 5 + function + e + constant + word, a, rotateLeft b 30, c, d⟩

def Registers.chunk (message : Bytes) (registers : Registers) (chunk : Nat) : Registers :=
  let words := schedule ((List.range 16).map fun index => word message (chunk + index * 4)) 64
  let final := words.zipIdx.foldl (fun registers (word, index) => registers.round index word) registers
  ⟨registers.a + final.a, registers.b + final.b, registers.c + final.c, registers.d + final.d,
    registers.e + final.e⟩

def sha1 (input : Bytes) : Bytes :=
  let message := padded input
  let start : Registers := ⟨0x67452301, 0xEFCDAB89, 0x98BADCFE, 0x10325476, 0xC3D2E1F0⟩
  let ⟨h0, h1, h2, h3, h4⟩ :=
    ((List.range (message.length / 64)).map (· * 64)).foldl (Registers.chunk message) start
  [h0, h1, h2, h3, h4].flatMap fun hash => encodeBig 4 hash.toNat

/-! ## The text of the hash -/

def alphabet : Bytes := text "ABCDEFGHIJKLMNOPQRSTUVWXYZabcdefghijklmnopqrstuvwxyz0123456789+/"

def base64Group (first : UInt8) (second third : Option UInt8) : Bytes :=
  let combined := (first.toUInt32 <<< 16) ||| ((second.getD 0).toUInt32 <<< 8) |||
    (third.getD 0).toUInt32
  let character (bits : UInt32) := alphabet.getD (bits &&& 0x3F).toNat 0
  [character (combined >>> 18), character (combined >>> 12),
    if second.isSome then character (combined >>> 6) else 61,
    if third.isSome then character combined else 61]

def base64Encode : Bytes → Bytes
  | [] => []
  | [first] => base64Group first none none
  | [first, second] => base64Group first (some second) none
  | first :: second :: third :: rest =>
    base64Group first (some second) (some third) ++ base64Encode rest

theorem alphabet_digit {n : Nat} (h : n < 64) : alphabet.getD n 0 = Base64.digit n := by
  revert n
  decide

/-- The bytes of a group lie behind each other in the 24 bits. -/
theorem combined_toNat (a b c : UInt8) :
    ((a.toUInt32 <<< 16) ||| (b.toUInt32 <<< 8) ||| c.toUInt32).toNat =
      a.toNat * 65536 + b.toNat * 256 + c.toNat := by
  have ha := a.toNat_lt
  have hb := b.toNat_lt
  have hc := c.toNat_lt
  have hhigh : (a.toUInt32 <<< 16).toNat = 2 ^ 16 * a.toNat := by
    rw [UInt32.toNat_shiftLeft, UInt8.toNat_toUInt32, Nat.shiftLeft_eq, Nat.mod_eq_of_lt]
    · exact Nat.mul_comm _ _
    · exact (Nat.mul_lt_mul_of_pos_right ha (by decide)).trans (by decide)
  have hmiddle : (b.toUInt32 <<< 8).toNat = b.toNat * 256 := by
    rw [UInt32.toNat_shiftLeft, UInt8.toNat_toUInt32, Nat.shiftLeft_eq, Nat.mod_eq_of_lt]
    · rfl
    · exact (Nat.mul_lt_mul_of_pos_right hb (by decide)).trans (by decide)
  have hfirst : 2 ^ 16 * a.toNat + b.toNat * 256 = 2 ^ 16 * a.toNat ||| b.toNat * 256 :=
    Nat.two_pow_add_eq_or_of_lt (by omega) _
  have hsecond : 2 ^ 8 * (256 * a.toNat + b.toNat) + c.toNat =
      2 ^ 8 * (256 * a.toNat + b.toNat) ||| c.toNat := Nat.two_pow_add_eq_or_of_lt hc _
  have hupper : 2 ^ 16 * a.toNat + b.toNat * 256 = 2 ^ 8 * (256 * a.toNat + b.toNat) := by omega
  rw [UInt32.toNat_or, UInt32.toNat_or, hhigh, hmiddle, UInt8.toNat_toUInt32,
    ← hfirst, hupper, ← hsecond]
  omega

theorem base64Group_eq (a : UInt8) (b c : Option UInt8) :
    base64Group a b c =
      [Base64.digit (a.toNat / 4), Base64.digit (a.toNat % 4 * 16 + (b.getD 0).toNat / 16),
        if b.isSome then Base64.digit ((b.getD 0).toNat % 16 * 4 + (c.getD 0).toNat / 64) else 61,
        if c.isSome then Base64.digit ((c.getD 0).toNat % 64) else 61] := by
  have ha := a.toNat_lt
  have hb := (b.getD 0).toNat_lt
  have hc := (c.getD 0).toNat_lt
  have hcharacter : ∀ bits : UInt32,
      alphabet.getD (bits &&& 0x3F).toNat 0 = Base64.digit (bits.toNat % 64) := fun bits => by
    have hmask : (bits &&& 0x3F).toNat = bits.toNat % 64 := by
      rw [UInt32.toNat_and]
      exact Nat.and_two_pow_sub_one_eq_mod bits.toNat 6
    rw [hmask, alphabet_digit (Nat.mod_lt _ (by decide))]
  have hshift : ∀ (bits : UInt32) (n : UInt32), n.toNat < 32 →
      (bits >>> n).toNat = bits.toNat / 2 ^ n.toNat := fun bits n hn => by
    rw [UInt32.toNat_shiftRight, Nat.mod_eq_of_lt hn, Nat.shiftRight_eq_div_pow]
  simp only [base64Group, hcharacter, hshift _ 18 (by decide), hshift _ 12 (by decide),
    hshift _ 6 (by decide), combined_toNat]
  have first : (a.toNat * 65536 + (b.getD 0).toNat * 256 + (c.getD 0).toNat) /
      2 ^ (18 : UInt32).toNat % 64 = a.toNat / 4 := by
    rw [show (18 : UInt32).toNat = 18 from rfl]
    omega
  have second : (a.toNat * 65536 + (b.getD 0).toNat * 256 + (c.getD 0).toNat) /
      2 ^ (12 : UInt32).toNat % 64 = a.toNat % 4 * 16 + (b.getD 0).toNat / 16 := by
    rw [show (12 : UInt32).toNat = 12 from rfl]
    omega
  have third : (a.toNat * 65536 + (b.getD 0).toNat * 256 + (c.getD 0).toNat) /
      2 ^ (6 : UInt32).toNat % 64 = (b.getD 0).toNat % 16 * 4 + (c.getD 0).toNat / 64 := by
    rw [show (6 : UInt32).toNat = 6 from rfl]
    omega
  have fourth : (a.toNat * 65536 + (b.getD 0).toNat * 256 + (c.getD 0).toNat) % 64 =
      (c.getD 0).toNat % 64 := by omega
  rw [first, second, third, fourth]

theorem base64Encode_eq (input : Bytes) : base64Encode input = Base64.encode input := by
  induction input using base64Encode.induct with
  | case1 => rfl
  | case2 first => exact base64Group_eq first none none
  | case3 first second => exact base64Group_eq first (some second) none
  | case4 first second third rest ih =>
    rw [base64Encode, base64Group_eq, ih]
    rfl

def websocketGuid : Bytes := text "258EAFA5-E914-47DA-95CA-C5AB0DC85B11"

def websocketAcceptKey (clientKey : Bytes) : Bytes := base64Encode (sha1 (clientKey ++ websocketGuid))

example : websocketAcceptKey (text "dGhlIHNhbXBsZSBub25jZQ==") = text "s3pPLMBiTxaQ9kYGzzhZRbK+xOo=" := by
  decide +kernel

/-! ## The request -/

/-- What `std::getline` yields, one line after the other. -/
def getLines : Bytes → List Bytes
  | [] => []
  | byte :: rest =>
    if byte = 10 then [] :: getLines rest
    else
      match getLines rest with
      | [] => [[byte]]
      | line :: lines => (byte :: line) :: lines

/-- The value in a line, if the line is about the header. -/
def headerLine (headerName line : Bytes) : Option Bytes :=
  let line := if line.getLast? = some 13 then line.dropLast else line
  match find 58 0 line with
  | none => none
  | some colon =>
    if line.take colon ≠ headerName then none
    else some ((line.drop (colon + 1)).dropWhile fun character => character = 32 || character = 9)

def headerValue (request headerName : Bytes) : Option Bytes :=
  (getLines request).findSome? (headerLine headerName)

def blankLine : Bytes := text "\r\n\r\n"

def receiveLimit : Nat := 1024

def requestLimit : Nat := 16 * 1024

/-- The request that has been received when the blank line is in it. The client is turned away when
the chunks end before that, or the request is too long. -/
def receiveRequest (request : Bytes) : List Bytes → Option Bytes
  | [] => if (findString blankLine request).isSome then some request else none
  | chunk :: chunks =>
    if (findString blankLine request).isSome then some request
    else if (request ++ chunk).length > requestLimit then none
    else receiveRequest (request ++ chunk) chunks

def handshakeResponse (key : Bytes) : Bytes :=
  text "HTTP/1.1 101 Switching Protocols\r\nUpgrade: websocket\r\nConnection: Upgrade\r\n" ++
    (text "Sec-WebSocket-Accept: " ++ websocketAcceptKey key ++ blankLine)

/-- What a client is answered whose bytes are received in these chunks. -/
def performHandshake (chunks : List Bytes) : Option Bytes :=
  (receiveRequest [] chunks).bind fun request =>
    (headerValue request (text "Sec-WebSocket-Key")).map handshakeResponse

section Find

variable {pattern bytes more : Bytes} {n : Nat}

theorem findString_begins (h : findString pattern bytes = some n) : pattern <+: bytes.drop n := by
  induction bytes generalizing n with
  | nil =>
    rw [findString] at h
    split at h
    · rename_i hnil
      exact hnil ▸ List.nil_prefix
    · cases h
  | cons byte bytes ih =>
    rw [findString] at h
    split at h
    · rename_i hbegins
      cases h
      exact List.isPrefixOf_iff_prefix.mp hbegins
    · obtain ⟨m, hfound, rfl⟩ := Option.map_eq_some_iff.mp h
      exact ih hfound

theorem findString_within (h : findString pattern bytes = some n) :
    n + pattern.length ≤ bytes.length := by
  have hn : n ≤ bytes.length := by
    induction bytes generalizing n with
    | nil =>
      rw [findString] at h
      split at h
      · cases h
        exact Nat.le_refl _
      · cases h
    | cons byte bytes ih =>
      rw [findString] at h
      split at h
      · cases h
        exact Nat.zero_le _
      · obtain ⟨m, hfound, rfl⟩ := Option.map_eq_some_iff.mp h
        exact Nat.succ_le_succ (ih hfound)
  have hlength := (findString_begins h).length_le
  rw [List.length_drop] at hlength
  omega

/-- More bytes do not change what has been found. -/
theorem findString_append (h : findString pattern bytes = some n) (more : Bytes) :
    findString pattern (bytes ++ more) = some n := by
  induction bytes generalizing n with
  | nil =>
    rw [findString] at h
    split at h
    · rename_i hnil
      cases h
      subst hnil
      cases more <;> rfl
    · cases h
  | cons byte bytes ih =>
    have hwithin := findString_within h
    rw [findString] at h
    rw [List.cons_append, findString]
    split at h
    · rename_i hbegins
      rw [if_pos]
      · exact h
      · rw [List.isPrefixOf_iff_prefix] at hbegins ⊢
        exact hbegins.trans (List.prefix_append (byte :: bytes) more)
    · rename_i hnot
      obtain ⟨m, hfound, rfl⟩ := Option.map_eq_some_iff.mp h
      rw [if_neg, ih hfound]
      · rfl
      · rw [List.isPrefixOf_iff_prefix] at hnot ⊢
        exact fun hbegins => hnot
          (List.prefix_of_prefix_length_le hbegins (List.prefix_append (byte :: bytes) more) (by omega))

/-- What is found is found as soon as all of it is there. -/
theorem findString_of_append (h : findString pattern (bytes ++ more) = some n)
    (hfits : n + pattern.length ≤ bytes.length) : findString pattern bytes = some n := by
  induction bytes generalizing n with
  | nil =>
    have hzero : n = 0 ∧ pattern = [] :=
      ⟨by simp only [List.length_nil] at hfits; omega,
        List.length_eq_zero_iff.mp (by simp only [List.length_nil] at hfits; omega)⟩
    rw [hzero.1, hzero.2]
    rfl
  | cons byte bytes ih =>
    rw [List.cons_append, findString] at h
    rw [findString]
    split at h
    · rename_i hbegins
      cases h
      rw [if_pos]
      rw [List.isPrefixOf_iff_prefix] at hbegins ⊢
      exact List.prefix_of_prefix_length_le hbegins (List.prefix_append (byte :: bytes) more)
        (by omega)
    · rename_i hnot
      obtain ⟨m, hfound, rfl⟩ := Option.map_eq_some_iff.mp h
      rw [if_neg, ih hfound (by rw [List.length_cons] at hfits; omega)]
      · rfl
      · rw [List.isPrefixOf_iff_prefix] at hnot ⊢
        exact fun hbegins => hnot (hbegins.trans (List.prefix_append (byte :: bytes) more))

theorem isSome_findString (h : findString pattern (bytes ++ more) = some n) :
    (findString pattern bytes).isSome = true ↔ n + pattern.length ≤ bytes.length := by
  constructor
  · intro hsome
    obtain ⟨m, hfound⟩ := Option.isSome_iff_exists.mp hsome
    cases h.symm.trans (findString_append hfound more)
    exact findString_within hfound
  · intro hfits
    rw [findString_of_append h hfits]
    rfl

end Find

theorem getLines_ne_nil (byte : UInt8) (rest : Bytes) : getLines (byte :: rest) ≠ [] := by
  rw [getLines]
  split
  · exact List.cons_ne_nil _ _
  · split <;> exact List.cons_ne_nil _ _

/-- A line that has ended stays as it is. -/
theorem getLines_append (before rest : Bytes) :
    getLines (before ++ 10 :: rest) = getLines (before ++ [10]) ++ getLines rest := by
  induction before with
  | nil => rfl
  | cons byte before ih =>
    rw [List.cons_append, List.cons_append, getLines, getLines, ih]
    split
    · rfl
    · cases hlines : getLines (before ++ [10]) with
      | nil => cases before <;> exact absurd hlines (getLines_ne_nil _ _)
      | cons line lines => rfl

theorem getLines_line {line : Bytes} (h : 10 ∉ line) (rest : Bytes) :
    getLines (line ++ 10 :: rest) = line :: getLines rest := by
  induction line with
  | nil => rfl
  | cons byte line ih =>
    rw [List.mem_cons, not_or] at h
    rw [List.cons_append, getLines, if_neg (Ne.symm h.1), ih h.2]

theorem headerValue_append {request : Bytes} {headerName value : Bytes}
    (h : headerValue (request ++ [10]) headerName = some value) (rest : Bytes) :
    headerValue (request ++ 10 :: rest) headerName = some value := by
  rw [headerValue] at h
  rw [headerValue, getLines_append, List.findSome?_append, h]
  rfl

theorem headerLine_named {headerName value : Bytes} (hname : 58 ∉ headerName)
    (hvalue : ∀ character ∈ value, 43 ≤ character) :
    headerLine headerName (headerName ++ 58 :: 32 :: (value ++ [13])) = some value := by
  have hreturn : headerName ++ 58 :: 32 :: (value ++ [13]) =
      (headerName ++ 58 :: 32 :: value) ++ [13] := by
    rw [List.append_assoc, List.cons_append, List.cons_append]
  have hcolon : find 58 0 (headerName ++ 58 :: 32 :: value) = some headerName.length := by
    rw [find, List.drop_zero, findIdx?_append hname, Option.map_some, Nat.zero_add]
  have hblank : ((32 :: value).dropWhile fun character => character = 32 || character = 9) = value := by
    rw [List.dropWhile_cons_of_pos (by decide)]
    cases value with
    | nil => rfl
    | cons character rest =>
      have hge := hvalue character List.mem_cons_self
      rw [List.dropWhile_cons_of_neg]
      simp only [Bool.or_eq_true, decide_eq_true_eq, not_or]
      exact ⟨fun h => absurd (h ▸ hge) (by decide), fun h => absurd (h ▸ hge) (by decide)⟩
  rw [headerLine, hreturn, List.getLast?_concat, if_pos rfl, List.dropLast_concat, hcolon]
  simp only
  rw [List.take_left, if_neg (fun hne => hne rfl), ← List.drop_drop, List.drop_left]
  exact congrArg some hblank

/-! ## The answer -/

/-- A client finds the hash of its key in the answer. -/
theorem headerValue_response (key : Bytes) :
    headerValue (handshakeResponse key) (text "Sec-WebSocket-Accept") =
      some (websocketAcceptKey key) := by
  have hmem : ∀ character ∈ websocketAcceptKey key, 43 ≤ character := by
    rw [websocketAcceptKey, base64Encode_eq]
    exact fun character h => Base64.le_of_mem_encode h
  have hname : (58 : UInt8) ∉ text "Sec-WebSocket-Accept" := by decide
  have hline : (10 : UInt8) ∉
      text "Sec-WebSocket-Accept" ++ 58 :: 32 :: (websocketAcceptKey key ++ [13]) := by
    simp only [List.mem_append, List.mem_cons, not_or]
    exact ⟨by decide, by decide, by decide, fun h => absurd (hmem 10 h) (by decide), by decide⟩
  have hstart : text "HTTP/1.1 101 Switching Protocols\r\nUpgrade: websocket\r\nConnection: Upgrade\r\n" =
      text "HTTP/1.1 101 Switching Protocols\r\nUpgrade: websocket\r\nConnection: Upgrade\r" ++ [10] := by
    decide
  have hothers : headerValue (text "HTTP/1.1 101 Switching Protocols\r\nUpgrade: websocket\r\nConnection: Upgrade\r" ++
      [10]) (text "Sec-WebSocket-Accept") = none := by decide
  have hrest : text "Sec-WebSocket-Accept: " ++ websocketAcceptKey key ++ blankLine =
      (text "Sec-WebSocket-Accept" ++ 58 :: 32 :: (websocketAcceptKey key ++ [13])) ++
        10 :: [13, 10] := by
    simp only [List.append_assoc, List.cons_append]
    rfl
  rw [headerValue] at hothers
  rw [headerValue, handshakeResponse, hstart, List.append_assoc, List.singleton_append,
    getLines_append, List.findSome?_append, hothers, hrest, getLines_line hline,
    List.findSome?_cons, headerLine_named hname hmem]
  rfl

section Request

variable {stream request : Bytes} {chunks : List Bytes} {n : Nat}

theorem receiveRequest_complete (h : findString blankLine stream = some n)
    (hfits : n + blankLine.length + (receiveLimit - 1) ≤ requestLimit)
    (hsizes : ∀ chunk ∈ chunks, chunk.length ≤ receiveLimit)
    (hcut : request ++ chunks.flatten = stream) :
    ∃ behind, receiveRequest request chunks = some (stream.take (n + blankLine.length) ++ behind) := by
  induction chunks generalizing request with
  | nil =>
    rw [List.flatten_nil, List.append_nil] at hcut
    rw [receiveRequest, hcut, h, Option.isSome_some, if_pos rfl]
    exact ⟨stream.drop (n + blankLine.length), by rw [List.take_append_drop]⟩
  | cons chunk chunks ih =>
    rw [List.flatten_cons] at hcut
    have hsize := hsizes chunk List.mem_cons_self
    have hfound := isSome_findString (hcut ▸ h)
    rw [receiveRequest]
    split
    · rename_i hsome
      have hlength := hfound.mp hsome
      refine ⟨request.drop (n + blankLine.length), ?_⟩
      rw [← hcut, List.take_append_of_le_length hlength, List.take_append_drop]
    · rename_i hnone
      have hlength := mt hfound.mpr hnone
      rw [if_neg]
      · exact ih (fun chunk hmem => hsizes chunk (List.mem_cons_of_mem _ hmem))
          (by rw [List.append_assoc, hcut])
      · rw [List.length_append]
        omega

theorem receiveRequest_refused
    (h : ∀ n, findString blankLine stream = some n → requestLimit < n + blankLine.length)
    (hshort : request.length ≤ requestLimit) (hcut : request ++ chunks.flatten = stream) :
    receiveRequest request chunks = none := by
  induction chunks generalizing request with
  | nil =>
    rw [List.flatten_nil, List.append_nil] at hcut
    rw [receiveRequest, if_neg]
    intro hsome
    obtain ⟨n, hfound⟩ := Option.isSome_iff_exists.mp hsome
    have hlong := h n (hcut ▸ hfound)
    have hwithin := findString_within hfound
    omega
  | cons chunk chunks ih =>
    rw [List.flatten_cons] at hcut
    rw [receiveRequest, if_neg]
    · split
      · rfl
      · rename_i hlength
        exact ih (Nat.not_lt.mp hlength) (by rw [List.append_assoc, hcut])
    · intro hsome
      obtain ⟨n, hfound⟩ := Option.isSome_iff_exists.mp hsome
      have hlong := h n (hcut ▸ findString_append hfound _)
      have hwithin := findString_within hfound
      omega

end Request

/-- However the client's bytes are cut into chunks: a client is let in whose key stands before a blank
line that comes early enough, and finds the hash of its key in the answer; a client whose blank line
comes too late, or not at all, is turned away. -/
theorem handshake_cut_free {stream : Bytes} {chunks : List Bytes}
    (hcut : Cuts receiveLimit stream chunks) :
    (∀ n key, findString blankLine stream = some n →
      n + blankLine.length + (receiveLimit - 1) ≤ requestLimit →
      headerValue (stream.take (n + blankLine.length)) (text "Sec-WebSocket-Key") = some key →
      ∃ answer accept, performHandshake chunks = some answer ∧
        headerValue answer (text "Sec-WebSocket-Accept") = some accept ∧
        Base64.decode accept = some (sha1 (key ++ websocketGuid))) ∧
    ((∀ n, findString blankLine stream = some n → requestLimit < n + blankLine.length) →
      performHandshake chunks = none) := by
  have hwhole : [] ++ chunks.flatten = stream := hcut.flatten
  refine ⟨fun n key hfound hfits hkey => ?_, fun hlate => ?_⟩
  · have hbegins := findString_begins hfound
    have hhead : stream.take (n + blankLine.length) = stream.take n ++ [13, 10, 13] ++ [10] := by
      rw [List.take_add, List.prefix_iff_eq_take.mp hbegins |>.symm, List.append_assoc]
      rfl
    obtain ⟨behind, hrequest⟩ := receiveRequest_complete hfound hfits
      (fun chunk hmem => (hcut.sizes chunk hmem).2) hwhole
    rw [hhead] at hkey hrequest
    rw [List.append_assoc _ [10], List.singleton_append] at hrequest
    refine ⟨handshakeResponse key, websocketAcceptKey key, ?_, headerValue_response key, ?_⟩
    · rw [performHandshake, hrequest, Option.bind_some, headerValue_append hkey behind]
      rfl
    · rw [websocketAcceptKey, base64Encode_eq, Base64.decode_encode]
  · rw [performHandshake, receiveRequest_refused hlate (Nat.zero_le _) hwhole]
    rfl

/-- A request that is cut within the name of the header. -/
theorem handshake_cut_free_halves :
    ∃ answer accept, performHandshake [text "GET / HTTP/1.1\r\nSec-Web",
        text "Socket-Key: dGhlIHNhbXBsZSBub25jZQ==\r\n\r\n"] = some answer ∧
      headerValue answer (text "Sec-WebSocket-Accept") = some accept ∧
      Base64.decode accept = some (sha1 (text "dGhlIHNhbXBsZSBub25jZQ==" ++ websocketGuid)) := by
  have hcut : Cuts receiveLimit
      (text "GET / HTTP/1.1\r\nSec-WebSocket-Key: dGhlIHNhbXBsZSBub25jZQ==\r\n\r\n")
      [text "GET / HTTP/1.1\r\nSec-Web", text "Socket-Key: dGhlIHNhbXBsZSBub25jZQ==\r\n\r\n"] :=
    ⟨by decide, by decide⟩
  exact (handshake_cut_free hcut).1 59 _ (by decide) (by decide) (by decide)

end WebSocketGateway

end ExchangeLab

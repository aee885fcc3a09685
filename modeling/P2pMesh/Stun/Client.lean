import P2pMesh.Foundation.NetAddr
import P2pMesh.Foundation.Slice

/-! # Responses of STUN servers

`parseBindingResponse`, `parseXORMappedAddress` and `parseMappedAddress` of
`internal/stun/client.go`. Every slice expression has its bounds, and the loop runs on fuel,
so that an access out of range and a loop that does not end are outcomes of their own.

No datagram that fits the buffer of `Binding` has such an outcome, and of the attributes of
a success response the first XOR-MAPPED-ADDRESS that decodes is returned, or else the last
MAPPED-ADDRESS that does (`P2pMesh.Stun.parseBindingResponse_correct`). An IPv6 address is
not taken from under the transaction ID: it is read back exactly when the transaction ID is
zero (`P2pMesh.Stun.parseBindingResponse_v6_iff`).
-/

namespace P2pMesh.Stun

open Foundation
open NetAddr (v4InV6Prefix)

/-- The magic cookie. -/
def stunMagicCookie : UInt32 := 0x2112A442

/-- The type of a MAPPED-ADDRESS. -/
def attrMappedAddress : UInt16 := 0x0001

/-- The type of an XOR-MAPPED-ADDRESS. -/
def attrXORMappedAddress : UInt16 := 0x0020

/-- The 12 random bytes of a request. -/
abbrev TransactionID := { id : Bytes // id.length = 12 }

/-- `net.UDPAddr` without a zone. -/
structure UDPAddr where
  ip : Bytes
  port : Nat
deriving DecidableEq, Repr

/-- `net.IPv4`. -/
def ipv4 (a b c d : UInt8) : Bytes :=
  v4InV6Prefix ++ [a, b, c, d]

/-- The errors of the two address decoders. -/
inductive AddressError where
  | xorTooShort
  | xorV4TooShort
  | xorV6TooShort
  | mappedTooShort
  | mappedV6TooShort
  | unknownFamily (family : UInt8)
deriving DecidableEq, Repr

/-- The texts of the errors. -/
def AddressError.text : AddressError → String
  | .xorTooShort => "xor-mapped-address too short"
  | .xorV4TooShort => "xor-mapped-address v4 too short"
  | .xorV6TooShort => "xor-mapped-address v6 too short"
  | .mappedTooShort => "mapped-address too short"
  | .mappedV6TooShort => "mapped-address v6 too short"
  | .unknownFamily family => "unknown address family " ++ toString family.toNat

/-- The errors of `parseBindingResponse`. -/
inductive ResponseError where
  | tooShort
  | errorResponse
  | unexpectedType (msgType : UInt16)
  | cookieMismatch
  | transactionMismatch
  | truncatedBody
  | noMappedAddress
deriving DecidableEq, Repr

/-- The text of an error, given that of a number in four hexadecimal digits. -/
def ResponseError.text (hex4 : UInt16 → String) : ResponseError → String
  | .tooShort => "response too short"
  | .errorResponse => "stun error response"
  | .unexpectedType msgType => "unexpected message type 0x" ++ hex4 msgType
  | .cookieMismatch => "magic cookie mismatch"
  | .transactionMismatch => "transaction ID mismatch"
  | .truncatedBody => "truncated body"
  | .noMappedAddress => "no mapped address attribute in response"

/-- `parseXORMappedAddress`. -/
def parseXORMappedAddress (val : Bytes) : Option (Except AddressError UDPAddr) :=
  if val.length < 8 then some (.error .xorTooShort)
  else do
    let family ← val[1]?
    let xPort ← readUint16 (← slice val 2 4)
    let port := xPort ^^^ (stunMagicCookie >>> 16).toUInt16
    if family = 0x01 then
      if val.length < 8 then some (.error .xorV4TooShort)
      else
        let xIP ← readUint32 (← slice val 4 8)
        let ip := xIP ^^^ stunMagicCookie
        some (.ok ⟨ipv4 (ip >>> 24).toUInt8 (ip >>> 16).toUInt8 (ip >>> 8).toUInt8 ip.toUInt8,
          port.toNat⟩)
    else if family = 0x02 then
      if val.length < 20 then some (.error .xorV6TooShort)
      else
        let xIP ← readUint32 (← slice val 4 8)
        -- The source copies these twelve bytes as they are.
        let rest ← slice val 8 20
        some (.ok ⟨putUint32 (xIP ^^^ stunMagicCookie) ++ rest, port.toNat⟩)
    else some (.error (.unknownFamily family))

/-- `parseMappedAddress`. -/
def parseMappedAddress (val : Bytes) : Option (Except AddressError UDPAddr) :=
  if val.length < 8 then some (.error .mappedTooShort)
  else do
    let family ← val[1]?
    let port ← readUint16 (← slice val 2 4)
    if family = 0x01 then
      some (.ok ⟨ipv4 (← val[4]?) (← val[5]?) (← val[6]?) (← val[7]?), port.toNat⟩)
    else if family = 0x02 then
      if val.length < 20 then some (.error .mappedV6TooShort)
      else some (.ok ⟨← slice val 4 20, port.toNat⟩)
    else some (.error (.unknownFamily family))

/-- How an iteration of the loop over the attributes ends. -/
inductive Turn where
  | leaves (mapped : Option UDPAddr)
  | found (addr : UDPAddr)
  | advances (off : Nat) (mapped : Option UDPAddr)

/-- The body of the loop, with the address found so far. -/
def turn (body : Bytes) (off : Nat) (mapped : Option UDPAddr) : Option Turn :=
  if off + 4 ≤ body.length then do
    let attrType ← readUint16 (← sliceFrom body off)
    let attrLen := (← readUint16 (← sliceFrom body (off + 2))).toNat
    let valStart := off + 4
    let valEnd := valStart + attrLen
    if body.length < valEnd then some (.leaves mapped)
    else
      let val ← slice body valStart valEnd
      let next := valEnd + (4 - attrLen % 4) % 4
      if attrType = attrXORMappedAddress then
        match ← parseXORMappedAddress val with
        | .ok addr => some (.found addr)
        | .error _ => some (.advances next mapped)
      else if attrType = attrMappedAddress then
        match ← parseMappedAddress val with
        | .ok addr => some (.advances next (some addr))
        | .error _ => some (.advances next mapped)
      else some (.advances next mapped)
  else some (.leaves mapped)

/-- What a call does. -/
inductive Outcome where
  | returned (result : Except ResponseError UDPAddr)
  /-- An index or a slice was out of range. -/
  | panicked
  /-- The loop has used up its fuel. -/
  | running
deriving DecidableEq

/-- What is returned after the loop. -/
def fallback : Option UDPAddr → Except ResponseError UDPAddr
  | some addr => .ok addr
  | none => .error .noMappedAddress

/-- The loop over the attributes. -/
def walk (body : Bytes) : Nat → Nat → Option UDPAddr → Outcome
  | 0, _, _ => .running
  | fuel + 1, off, mapped =>
      match turn body off mapped with
      | none => .panicked
      | some (.leaves mapped) => .returned (fallback mapped)
      | some (.found addr) => .returned (.ok addr)
      | some (.advances off mapped) => walk body fuel off mapped

/-- The checks of the header, and the loop over the body. -/
def parseHeader (fuel : Nat) (msg : Bytes) (expectedTxID : TransactionID) : Option Outcome := do
  let msgType ← readUint16 (← slice msg 0 2)
  if msgType ≠ 0x0101 then
    if msgType = 0x0111 then some (.returned (.error .errorResponse))
    else some (.returned (.error (.unexpectedType msgType)))
  else
    let cookie ← readUint32 (← slice msg 4 8)
    if cookie ≠ stunMagicCookie then some (.returned (.error .cookieMismatch))
    else
      let txID ← slice msg 8 20
      if txID ≠ expectedTxID.1 then some (.returned (.error .transactionMismatch))
      else
        let bodyLen ← readUint16 (← slice msg 2 4)
        if msg.length < 20 + bodyLen.toNat then some (.returned (.error .truncatedBody))
        else
          -- The upper bound of the slice is a sum of sixteen bits.
          let body ← slice msg 20 ((20 : UInt16) + bodyLen).toNat
          some (walk body fuel 0 none)

/-- `parseBindingResponse`. -/
def parseBindingResponse (fuel : Nat) (msg : Bytes) (expectedTxID : TransactionID) : Outcome :=
  if msg.length < 20 then .returned (.error .tooShort)
  else (parseHeader fuel msg expectedTxID).getD .panicked

section Attributes

/-- An attribute of a message. The bytes of its padding may have any value. -/
structure Attribute where
  kind : UInt16
  value : Bytes
  padding : Bytes
  short : value.length < 2 ^ 16
  aligned : padding.length = (4 - value.length % 4) % 4

/-- The bytes of an attribute. -/
def Attribute.bytes (a : Attribute) : Bytes :=
  putUint16 a.kind ++ putUint16 (UInt16.ofNat a.value.length) ++ a.value ++ a.padding

/-- The address of a XOR-MAPPED-ADDRESS that decodes. -/
def Attribute.xorMapped (a : Attribute) : Option UDPAddr :=
  if a.kind = attrXORMappedAddress then (parseXORMappedAddress a.value).bind Except.toOption
  else none

/-- The address of a MAPPED-ADDRESS that decodes. -/
def Attribute.mapped (a : Attribute) : Option UDPAddr :=
  if a.kind = attrMappedAddress then (parseMappedAddress a.value).bind Except.toOption
  else none

/-- The first XOR-MAPPED-ADDRESS that decodes, or else the last MAPPED-ADDRESS. -/
def selected (attrs : List Attribute) : Option UDPAddr :=
  (attrs.findSome? Attribute.xorMapped).or (attrs.filterMap Attribute.mapped).getLast?

/-- A success response with its attributes. -/
def successResponse (txID : TransactionID) (attrs : List Attribute) : Bytes :=
  putUint16 0x0101 ++ putUint16 (UInt16.ofNat (attrs.flatMap Attribute.bytes).length) ++
    putUint32 stunMagicCookie ++ txID.1 ++ attrs.flatMap Attribute.bytes

/-- The value of a XOR-MAPPED-ADDRESS by RFC 5389, for an address of four or sixteen bytes:
the port and the address are each under the cookie followed by the transaction ID. -/
def xorMappedValue (txID : TransactionID) (family : UInt8) (ip : Bytes) (port : UInt16) : Bytes :=
  [0, family] ++ xorBytes (putUint16 port) (putUint32 stunMagicCookie ++ txID.1) ++
    xorBytes ip (putUint32 stunMagicCookie ++ txID.1)

/-- The value of a MAPPED-ADDRESS. -/
def mappedValue (family : UInt8) (ip : Bytes) (port : UInt16) : Bytes :=
  [0, family] ++ putUint16 port ++ ip

end Attributes

section Bounds

/-- The parser of the attribute panics on no value. -/
theorem parseXORMappedAddress_returns (val : Bytes) :
    ∃ result, parseXORMappedAddress val = some result := by
  unfold parseXORMappedAddress
  split
  · exact ⟨_, rfl⟩
  next long =>
    have family : val[1]? = some val[1] := List.getElem?_eq_getElem (by omega)
    obtain ⟨port, portRead⟩ : ∃ word, (slice val 2 4).bind readUint16 = some word :=
      readUint16_slice (Nat.le_refl _) (by omega)
    obtain ⟨xIP, ipRead⟩ : ∃ word, (slice val 4 8).bind readUint32 = some word :=
      readUint32_slice (Nat.le_refl _) (by omega)
    simp only [family, Option.bind_eq_bind, Option.bind_some, ← Option.bind_assoc, portRead, ipRead]
    split
    · exact ⟨_, rfl⟩
    · split
      · split
        · exact ⟨_, rfl⟩
        next enough =>
          rw [slice_eq_some (by decide) (by omega)]
          exact ⟨_, rfl⟩
      · exact ⟨_, rfl⟩

/-- The parser of the attribute panics on no value. -/
theorem parseMappedAddress_returns (val : Bytes) :
    ∃ result, parseMappedAddress val = some result := by
  unfold parseMappedAddress
  split
  · exact ⟨_, rfl⟩
  next long =>
    have byte {i : Nat} (inside : i < 8) : ∃ b, val[i]? = some b :=
      ⟨_, List.getElem?_eq_getElem (by omega)⟩
    obtain ⟨family, familyRead⟩ := byte (show 1 < 8 by decide)
    obtain ⟨a, aRead⟩ := byte (show 4 < 8 by decide)
    obtain ⟨b, bRead⟩ := byte (show 5 < 8 by decide)
    obtain ⟨c, cRead⟩ := byte (show 6 < 8 by decide)
    obtain ⟨d, dRead⟩ := byte (show 7 < 8 by decide)
    obtain ⟨port, portRead⟩ : ∃ word, (slice val 2 4).bind readUint16 = some word :=
      readUint16_slice (Nat.le_refl _) (by omega)
    simp only [familyRead, aRead, bRead, cRead, dRead, Option.bind_eq_bind, Option.bind_some,
      ← Option.bind_assoc, portRead]
    split
    · exact ⟨_, rfl⟩
    · split
      · split
        · exact ⟨_, rfl⟩
        next enough =>
          rw [slice_eq_some (by decide) (by omega)]
          exact ⟨_, rfl⟩
      · exact ⟨_, rfl⟩

/-- An iteration has no access out of range, and if it goes on, it has moved by four bytes
that the body has. -/
theorem turn_cases (body : Bytes) (off : Nat) (mapped : Option UDPAddr) :
    (∃ last, turn body off mapped = some (.leaves last)) ∨
      (∃ addr, turn body off mapped = some (.found addr)) ∨
        ∃ next later, turn body off mapped = some (.advances next later) ∧
          off + 4 ≤ next ∧ off + 4 ≤ body.length := by
  unfold turn
  split
  next inside =>
    obtain ⟨attrType, typeRead⟩ : ∃ word, (sliceFrom body off).bind readUint16 = some word :=
      readUint16_slice (by omega) (Nat.le_refl _)
    obtain ⟨attrLen, lengthRead⟩ :
        ∃ word, (sliceFrom body (off + 2)).bind readUint16 = some word :=
      readUint16_slice (by omega) (Nat.le_refl _)
    simp only [Option.bind_eq_bind, ← Option.bind_assoc, typeRead, Option.bind_some, lengthRead]
    split
    · exact Or.inl ⟨_, rfl⟩
    next fits =>
      rw [slice_eq_some (by omega) (by omega), Option.bind_some]
      split
      · obtain ⟨result, decoded⟩ := parseXORMappedAddress_returns
          ((body.take (off + 4 + attrLen.toNat)).drop (off + 4))
        rw [decoded, Option.bind_some]
        cases result with
        | ok addr => exact Or.inr (Or.inl ⟨_, rfl⟩)
        | error err => exact Or.inr (Or.inr ⟨_, _, rfl, by omega, inside⟩)
      · split
        · obtain ⟨result, decoded⟩ := parseMappedAddress_returns
            ((body.take (off + 4 + attrLen.toNat)).drop (off + 4))
          rw [decoded, Option.bind_some]
          cases result with
          | ok addr => exact Or.inr (Or.inr ⟨_, _, rfl, by omega, inside⟩)
          | error err => exact Or.inr (Or.inr ⟨_, _, rfl, by omega, inside⟩)
        · exact Or.inr (Or.inr ⟨_, _, rfl, by omega, inside⟩)
  · exact Or.inl ⟨_, rfl⟩

/-- The loop ends without an access out of range when it may run once for every four bytes
that are left of the body, and once more. -/
theorem walk_returns (body : Bytes) {fuel off : Nat} (mapped : Option UDPAddr)
    (enough : body.length < off + 4 * (fuel + 1)) :
    ∃ result, walk body (fuel + 1) off mapped = .returned result := by
  induction fuel generalizing off mapped with
  | zero =>
      rcases turn_cases body off mapped with ⟨_, left⟩ | ⟨_, found⟩ | ⟨_, _, _, _, inside⟩
      · exact ⟨_, by rw [walk, left]⟩
      · exact ⟨_, by rw [walk, found]⟩
      · omega
  | succ fuel ih =>
      rcases turn_cases body off mapped with ⟨_, left⟩ | ⟨_, found⟩ | ⟨next, later, moved, far, _⟩
      · exact ⟨_, by rw [walk, left]⟩
      · exact ⟨_, by rw [walk, found]⟩
      · rw [walk, moved]
        apply ih
        omega

/-- The sum of sixteen bits is exact for a body inside a short datagram. -/
theorem toNat_bodyEnd {bodyLen : UInt16} (short : 20 + bodyLen.toNat < 2 ^ 16) :
    ((20 : UInt16) + bodyLen).toNat = 20 + bodyLen.toNat := by
  rw [UInt16.toNat_add]
  exact Nat.mod_eq_of_lt short

/-- The header and the attributes are parsed without a panic, in the fuel that the length gives. -/
theorem parseHeader_returns {fuel : Nat} {msg : Bytes} (txID : TransactionID)
    (long : 20 ≤ msg.length) (short : msg.length < 2 ^ 16) (enough : msg.length ≤ 4 * fuel) :
    ∃ result, parseHeader fuel msg txID = some (.returned result) := by
  obtain ⟨msgType, typeRead⟩ : ∃ word, (slice msg 0 2).bind readUint16 = some word :=
    readUint16_slice (Nat.le_refl _) (by omega)
  obtain ⟨cookie, cookieRead⟩ : ∃ word, (slice msg 4 8).bind readUint32 = some word :=
    readUint32_slice (Nat.le_refl _) (by omega)
  obtain ⟨bodyLen, lengthRead⟩ : ∃ word, (slice msg 2 4).bind readUint16 = some word :=
    readUint16_slice (Nat.le_refl _) (by omega)
  simp only [parseHeader, Option.bind_eq_bind, ← Option.bind_assoc, typeRead, cookieRead,
    lengthRead, Option.bind_some]
  split
  · split
    · exact ⟨_, rfl⟩
    · exact ⟨_, rfl⟩
  · split
    · exact ⟨_, rfl⟩
    · rw [slice_eq_some (by decide) long, Option.bind_some]
      split
      · exact ⟨_, rfl⟩
      · split
        · exact ⟨_, rfl⟩
        next whole =>
          obtain ⟨fuel, rfl⟩ : ∃ n, fuel = n + 1 := ⟨fuel - 1, by omega⟩
          rw [toNat_bodyEnd (by omega), slice_eq_some (by omega) (by omega), Option.bind_some]
          have room : ((msg.take (20 + bodyLen.toNat)).drop 20).length < 0 + 4 * (fuel + 1) := by
            rw [List.length_drop, List.length_take]
            omega
          obtain ⟨result, walked⟩ := walk_returns _ none room
          exact ⟨result, by rw [walked]⟩

/-- Every datagram is parsed without a panic, in the fuel that the length gives. -/
theorem parseBindingResponse_returns {fuel : Nat} {msg : Bytes} (txID : TransactionID)
    (short : msg.length < 2 ^ 16) (enough : msg.length ≤ 4 * fuel) :
    ∃ result, parseBindingResponse fuel msg txID = .returned result := by
  unfold parseBindingResponse
  split
  · exact ⟨_, rfl⟩
  next long =>
    obtain ⟨result, parsed⟩ := parseHeader_returns txID (Nat.le_of_not_lt long) short enough
    rw [parsed]
    exact ⟨result, rfl⟩

end Bounds

section Responses

/-- An attribute is padded to a multiple of four bytes. -/
theorem Attribute.length_bytes (a : Attribute) :
    a.bytes.length = 4 + a.value.length + (4 - a.value.length % 4) % 4 := by
  simp only [Attribute.bytes, List.length_append, length_putUint16, a.aligned]

/-- An iteration at the start of an attribute. -/
theorem turn_attribute (before rest : Bytes) (a : Attribute) (mapped : Option UDPAddr) :
    turn (before ++ a.bytes ++ rest) before.length mapped =
      some (match a.xorMapped with
        | some addr => .found addr
        | none => .advances (before ++ a.bytes).length (a.mapped.or mapped)) := by
  have size : (before ++ a.bytes ++ rest).length =
      before.length + a.bytes.length + rest.length := by
    rw [List.length_append, List.length_append]
  have long := a.length_bytes
  -- The type, the length and the value are read where the attribute has them.
  have typeRead : (sliceFrom (before ++ a.bytes ++ rest) before.length).bind readUint16 =
      some a.kind := by
    rw [List.append_assoc, sliceFrom_append _ _ rfl, Option.bind_some, Attribute.bytes,
      List.append_assoc, List.append_assoc, List.append_assoc, readUint16_append]
  have lengthRead : (sliceFrom (before ++ a.bytes ++ rest) (before.length + 2)).bind readUint16 =
      some (UInt16.ofNat a.value.length) := by
    have parts : before ++ a.bytes ++ rest = (before ++ putUint16 a.kind) ++
        (putUint16 (UInt16.ofNat a.value.length) ++ (a.value ++ a.padding ++ rest)) := by
      simp only [Attribute.bytes, List.append_assoc]
    rw [parts, sliceFrom_append _ _ (by simp), Option.bind_some, readUint16_append]
  have word : (UInt16.ofNat a.value.length).toNat = a.value.length :=
    UInt16.toNat_ofNat_of_lt a.short
  have value : slice (before ++ a.bytes ++ rest) (before.length + 4)
      (before.length + 4 + a.value.length) = some a.value := by
    have parts : before ++ a.bytes ++ rest =
        (before ++ putUint16 a.kind ++ putUint16 (UInt16.ofNat a.value.length)) ++
          (a.value ++ (a.padding ++ rest)) := by
      simp only [Attribute.bytes, List.append_assoc]
    rw [parts]
    apply slice_append
    · simp
    · simp
  have moved : before.length + 4 + a.value.length + (4 - a.value.length % 4) % 4 =
      (before ++ a.bytes).length := by
    rw [List.length_append]
    omega
  have inside : before.length + 4 ≤ (before ++ a.bytes ++ rest).length := by omega
  have fits : ¬ (before ++ a.bytes ++ rest).length < before.length + 4 + a.value.length := by omega
  simp only [turn, inside, ↓reduceIte, Option.bind_eq_bind, ← Option.bind_assoc, typeRead,
    lengthRead, Option.bind_some, word, fits, value, moved, Attribute.xorMapped, Attribute.mapped]
  -- XOR-MAPPED-ADDRESS ends the loop if it can be parsed; MAPPED-ADDRESS is only remembered.
  by_cases xor : a.kind = attrXORMappedAddress
  · have other : ¬ attrXORMappedAddress = attrMappedAddress := by decide
    obtain ⟨result, decoded⟩ := parseXORMappedAddress_returns a.value
    cases result with
    | ok addr => simp [xor, decoded, Except.toOption]
    | error err => simp [xor, decoded, Except.toOption, other]
  · by_cases legacy : a.kind = attrMappedAddress
    · obtain ⟨result, decoded⟩ := parseMappedAddress_returns a.value
      have other : ¬ attrMappedAddress = attrXORMappedAddress := by decide
      cases result with
      | ok addr => simp [legacy, decoded, Except.toOption, other]
      | error err => simp [legacy, decoded, Except.toOption, other]
    · simp [xor, legacy]

/-- The loop over attributes. -/
theorem walk_attributes (attrs : List Attribute) (before : Bytes) (mapped : Option UDPAddr)
    {fuel : Nat} (enough : attrs.length < fuel) :
    walk (before ++ attrs.flatMap Attribute.bytes) fuel before.length mapped =
      .returned (match attrs.findSome? Attribute.xorMapped with
        | some addr => .ok addr
        | none => fallback ((attrs.filterMap Attribute.mapped).getLast?.or mapped)) := by
  obtain ⟨fuel, rfl⟩ : ∃ n, fuel = n + 1 := ⟨fuel - 1, by omega⟩
  induction attrs generalizing before mapped fuel with
  | nil =>
      have outside : ¬ before.length + 4 ≤ (before ++ []).length := by simp
      simp only [List.flatMap_nil, walk, turn, outside, ↓reduceIte]
      rfl
  | cons a attrs ih =>
      have step := turn_attribute before (attrs.flatMap Attribute.bytes) a mapped
      rw [List.flatMap_cons, ← List.append_assoc, walk, step, List.findSome?_cons]
      cases own : a.xorMapped with
      | some addr => rfl
      | none =>
          obtain ⟨fuel, rfl⟩ : ∃ n, fuel = n + 1 := by
            rw [List.length_cons] at enough
            exact ⟨fuel - 1, by omega⟩
          have later := ih (before ++ a.bytes) (a.mapped.or mapped) fuel (by simpa using enough)
          simp only [later]
          cases legacy : a.mapped with
          | none => simp only [List.filterMap_cons_none legacy, Option.none_or]
          | some addr =>
              rw [List.filterMap_cons_some legacy, List.getLast?_cons]
              cases (attrs.filterMap Attribute.mapped).getLast? with
              | none => rfl
              | some last => rfl

/-- Every attribute takes four bytes at least. -/
theorem length_le_flatMap_bytes (attrs : List Attribute) :
    4 * attrs.length ≤ (attrs.flatMap Attribute.bytes).length := by
  induction attrs with
  | nil => exact Nat.le_refl _
  | cons a attrs ih =>
      have own := a.length_bytes
      rw [List.flatMap_cons, List.length_append, List.length_cons]
      omega

/-- A response is as long as its header and its attributes. -/
theorem length_successResponse (txID : TransactionID) (attrs : List Attribute) :
    (successResponse txID attrs).length = 20 + (attrs.flatMap Attribute.bytes).length := by
  simp only [successResponse, List.length_append, length_putUint16, length_putUint32, txID.2]

/-- The fields of a header and the body behind it. -/
theorem slice_header {msgType bodyLen cookie txID : Bytes} (body : Bytes)
    (two : msgType.length = 2) (two' : bodyLen.length = 2) (four : cookie.length = 4)
    (twelve : txID.length = 12) :
    let msg := msgType ++ (bodyLen ++ (cookie ++ (txID ++ body)))
    slice msg 0 2 = some msgType ∧ slice msg 2 4 = some bodyLen ∧ slice msg 4 8 = some cookie ∧
      slice msg 8 20 = some txID ∧ slice msg 20 (20 + body.length) = some body := by
  intro msg
  have third : msg = (msgType ++ bodyLen) ++ (cookie ++ (txID ++ body)) := by
    simp only [msg, List.append_assoc]
  have fourth : msg = (msgType ++ bodyLen ++ cookie) ++ (txID ++ body) := by
    simp only [msg, List.append_assoc]
  have last : msg = (msgType ++ bodyLen ++ cookie ++ txID) ++ (body ++ []) := by
    simp only [msg, List.append_assoc, List.append_nil]
  refine ⟨?_, ?_, ?_, ?_, ?_⟩
  · exact slice_append [] msgType _ rfl (by simp [two])
  · exact slice_append msgType bodyLen _ two (by omega)
  · rw [third]
    apply slice_append <;> simp [two, two', four]
  · rw [fourth]
    apply slice_append <;> simp [two, two', four, twelve]
  · rw [last]
    apply slice_append <;> simp [two, two', four, twelve]

/-- The header of a response passes the checks. -/
theorem parseHeader_successResponse (fuel : Nat) (txID : TransactionID) (attrs : List Attribute)
    (short : (successResponse txID attrs).length < 2 ^ 16) :
    parseHeader fuel (successResponse txID attrs) txID =
      some (walk (attrs.flatMap Attribute.bytes) fuel 0 none) := by
  have size := length_successResponse txID attrs
  have word : (UInt16.ofNat (attrs.flatMap Attribute.bytes).length).toNat =
      (attrs.flatMap Attribute.bytes).length :=
    UInt16.toNat_ofNat_of_lt (show _ < 2 ^ 16 by omega)
  obtain ⟨msgType, bodyLen, cookie, ownID, body⟩ :=
    slice_header (attrs.flatMap Attribute.bytes) (length_putUint16 0x0101)
      (length_putUint16 (UInt16.ofNat (attrs.flatMap Attribute.bytes).length))
      (length_putUint32 stunMagicCookie) txID.2
  have readHalf (half : UInt16) : readUint16 (putUint16 half) = some half := by
    simpa using readUint16_append half []
  have readCookie : readUint32 (putUint32 stunMagicCookie) = some stunMagicCookie := by decide
  have complete : ¬ (successResponse txID attrs).length <
      20 + (attrs.flatMap Attribute.bytes).length := by omega
  simp only [successResponse, List.append_assoc] at complete ⊢
  simp only [parseHeader, msgType, bodyLen, cookie, ownID, Option.bind_eq_bind, Option.bind_some,
    readHalf, readCookie, ne_eq, not_true_eq_false, ↓reduceIte, word, complete]
  rw [toNat_bodyEnd (by omega), word, body, Option.bind_some]

/-- A response to a request is read by its attributes. -/
theorem parseBindingResponse_successResponse {fuel : Nat} (txID : TransactionID)
    (attrs : List Attribute) (short : (successResponse txID attrs).length < 2 ^ 16)
    (enough : (successResponse txID attrs).length ≤ 4 * fuel) :
    parseBindingResponse fuel (successResponse txID attrs) txID =
      .returned (fallback (selected attrs)) := by
  have size := length_successResponse txID attrs
  have count := length_le_flatMap_bytes attrs
  have long : ¬ (successResponse txID attrs).length < 20 := by omega
  have walked := walk_attributes attrs [] none (show attrs.length < fuel by omega)
  rw [parseBindingResponse, if_neg long, parseHeader_successResponse fuel txID attrs short,
    Option.getD_some]
  rw [List.nil_append, List.length_nil] at walked
  rw [walked, selected, Option.or_none]
  cases attrs.findSome? Attribute.xorMapped with
  | none => rfl
  | some addr => rfl

end Responses

section Endpoints

/-- The octets of a word are its big-endian bytes. -/
theorem octets_eq_putUint32 (ip : UInt32) :
    [(ip >>> 24).toUInt8, (ip >>> 16).toUInt8, (ip >>> 8).toUInt8, ip.toUInt8] = putUint32 ip := by
  have octet (shift : UInt32) :
      (ip >>> shift).toUInt8 = UInt8.ofNat (ip.toNat / 2 ^ (shift.toNat % 32)) := by
    apply UInt8.toNat_inj.mp
    rw [UInt32.toNat_toUInt8, UInt32.toNat_shiftRight, Nat.shiftRight_eq_div_pow,
      UInt8.toNat_ofNat']
  rw [octet, octet, octet]
  simp only [putUint32, beBytes, List.nil_append, List.cons_append, Nat.div_div_eq_div_mul]
  rfl

section Layout

variable {port high low : Bytes} (family : UInt8) (two : port.length = 2) (four : high.length = 4)
include two

theorem slice_port (ip : Bytes) : slice ([0, family] ++ port ++ ip) 2 4 = some port := by
  rw [List.append_assoc]
  exact slice_append [0, family] port ip rfl (by simp [two])

include four

theorem slice_high : slice ([0, family] ++ port ++ (high ++ low)) 4 8 = some high :=
  slice_append ([0, family] ++ port) high low (by simp [two]) (by simp [two, four])

theorem slice_low : slice ([0, family] ++ port ++ (high ++ low)) 8 (8 + low.length) = some low := by
  have parts : [0, family] ++ port ++ (high ++ low) =
      ([0, family] ++ port ++ high) ++ (low ++ []) := by
    simp only [List.append_assoc, List.append_nil]
  rw [parts]
  apply slice_append <;> simp [two, four]

/-- A XOR-MAPPED-ADDRESS of the IPv4 family. -/
theorem parseXORMappedAddress_of_v4 :
    parseXORMappedAddress ([0, 0x01] ++ port ++ (high ++ low)) =
      some (.ok ⟨v4InV6Prefix ++ putUint32 (uint32 high ^^^ stunMagicCookie),
        (uint16 port ^^^ 0x2112).toNat⟩) := by
  have long : ¬ ([0, 0x01] ++ port ++ (high ++ low)).length < 8 := by
    simp only [List.length_append, two, four, List.length_cons, List.length_nil]
    omega
  have family : ([0, 0x01] ++ port ++ (high ++ low))[1]? = some 0x01 := rfl
  have cookie : (stunMagicCookie >>> 16).toUInt16 = 0x2112 := by decide
  simp only [parseXORMappedAddress, long, ↓reduceIte, family, slice_port 0x01 two,
    slice_high 0x01 two four, Option.bind_eq_bind, Option.bind_some, readUint16_eq_some two.ge,
    readUint32_eq_some four.ge, cookie, ipv4, octets_eq_putUint32]
  rw [List.take_of_length_le two.le, List.take_of_length_le four.le]

/-- A XOR-MAPPED-ADDRESS of the IPv6 family. -/
theorem parseXORMappedAddress_of_v6 (twelve : low.length = 12) :
    parseXORMappedAddress ([0, 0x02] ++ port ++ (high ++ low)) =
      some (.ok ⟨putUint32 (uint32 high ^^^ stunMagicCookie) ++ low,
        (uint16 port ^^^ 0x2112).toNat⟩) := by
  have size : ([0, 0x02] ++ port ++ (high ++ low)).length = 20 := by
    simp only [List.length_append, two, four, twelve, List.length_cons, List.length_nil]
  have family : ([0, 0x02] ++ port ++ (high ++ low))[1]? = some 0x02 := rfl
  have other : ¬ (0x02 : UInt8) = 0x01 := by decide
  have cookie : (stunMagicCookie >>> 16).toUInt16 = 0x2112 := by decide
  have rest : slice ([0, 0x02] ++ port ++ (high ++ low)) 8 20 = some low := by
    have whole : slice _ 8 (8 + low.length) = some low := slice_low 0x02 two four
    rwa [twelve] at whole
  simp only [parseXORMappedAddress, size, family, other, ↓reduceIte, slice_port 0x02 two,
    slice_high 0x02 two four, rest, Option.bind_eq_bind, Option.bind_some,
    readUint16_eq_some two.ge, readUint32_eq_some four.ge, cookie, Nat.reduceLT, lt_self_iff_false]
  rw [List.take_of_length_le two.le, List.take_of_length_le four.le]

end Layout

variable (txID : TransactionID)

/-- The parts of a value under the mask. -/
theorem xorMappedValue_eq (family : UInt8) {high : Bytes} (four : high.length = 4) (low : Bytes)
    (port : UInt16) :
    xorMappedValue txID family (high ++ low) port =
      [0, family] ++ xorBytes (putUint16 port) [0x21, 0x12] ++
        (xorBytes high (putUint32 stunMagicCookie) ++ xorBytes low txID.1) := by
  have portMask : xorBytes (putUint16 port) (putUint32 stunMagicCookie ++ txID.1) =
      xorBytes (putUint16 port) [0x21, 0x12] := by
    rw [xorBytes_take, length_putUint16]
    rfl
  rw [xorMappedValue, portMask, xorBytes_append (by rw [four, length_putUint32])]

/-- The mask of the port undoes itself. -/
theorem uint16_masked_port (port : UInt16) :
    uint16 (xorBytes (putUint16 port) [0x21, 0x12]) ^^^ 0x2112 = port := by
  have mask : uint16 [0x21, 0x12] = 0x2112 := by decide
  rw [uint16_xorBytes (by rw [length_putUint16]; rfl), uint16_putUint16, mask, UInt16.xor_assoc,
    UInt16.xor_self, UInt16.xor_zero]

/-- The mask of an address undoes itself. -/
theorem putUint32_unmasked {high : Bytes} (four : high.length = 4) :
    putUint32 (uint32 (xorBytes high (putUint32 stunMagicCookie)) ^^^ stunMagicCookie) = high := by
  rw [uint32_xorBytes (by rw [four, length_putUint32]), uint32_putUint32, UInt32.xor_assoc,
    UInt32.xor_self, UInt32.xor_zero, putUint32_uint32 high four]

/-- An IPv4 endpoint is read back. -/
theorem parseXORMappedAddress_v4 (a b c d : UInt8) (port : UInt16) :
    parseXORMappedAddress (xorMappedValue txID 0x01 [a, b, c, d] port) =
      some (.ok ⟨ipv4 a b c d, port.toNat⟩) := by
  have value := xorMappedValue_eq txID 0x01 (show [a, b, c, d].length = 4 from rfl) [] port
  rw [List.append_nil] at value
  rw [value, parseXORMappedAddress_of_v4 _ _, uint16_masked_port, putUint32_unmasked rfl]
  · rfl
  · rfl
  · rfl

/-- A MAPPED-ADDRESS of IPv4 is read back. -/
theorem parseMappedAddress_v4 (a b c d : UInt8) (port : UInt16) :
    parseMappedAddress (mappedValue 0x01 [a, b, c, d] port) =
      some (.ok ⟨ipv4 a b c d, port.toNat⟩) := by
  have portRead : slice (mappedValue 0x01 [a, b, c, d] port) 2 4 = some (putUint16 port) :=
    slice_port 0x01 (length_putUint16 port) [a, b, c, d]
  have long : ¬ (mappedValue 0x01 [a, b, c, d] port).length < 8 := by
    simp only [mappedValue, List.length_append, length_putUint16, List.length_cons, List.length_nil]
    decide
  have byte : (mappedValue 0x01 [a, b, c, d] port)[1]? = some 0x01 ∧
      (mappedValue 0x01 [a, b, c, d] port)[4]? = some a ∧
      (mappedValue 0x01 [a, b, c, d] port)[5]? = some b ∧
      (mappedValue 0x01 [a, b, c, d] port)[6]? = some c ∧
      (mappedValue 0x01 [a, b, c, d] port)[7]? = some d := ⟨rfl, rfl, rfl, rfl, rfl⟩
  have word : readUint16 (putUint16 port) = some port := readUint16_append port []
  simp only [parseMappedAddress, long, ↓reduceIte, byte, portRead, word, Option.bind_eq_bind,
    Option.bind_some]

/-- Of an IPv6 endpoint the last twelve bytes of the address stay under the transaction ID. -/
theorem parseXORMappedAddress_v6 {ip : Bytes} (sixteen : ip.length = 16) (port : UInt16) :
    parseXORMappedAddress (xorMappedValue txID 0x02 ip port) =
      some (.ok ⟨ip.take 4 ++ xorBytes (ip.drop 4) txID.1, port.toNat⟩) := by
  have four : (ip.take 4).length = 4 := by rw [List.length_take, sixteen]; rfl
  have twelve : (xorBytes (ip.drop 4) txID.1).length = 12 := by
    rw [length_xorBytes, List.length_drop, sixteen, txID.2]
    rfl
  have value := xorMappedValue_eq txID 0x02 four (ip.drop 4) port
  rw [List.take_append_drop] at value
  rw [value, parseXORMappedAddress_of_v6 _ _ twelve, uint16_masked_port, putUint32_unmasked four]
  · rfl
  · rw [length_xorBytes, four, length_putUint32]
    rfl

end Endpoints

section Results

/-- Every datagram that fits the buffer of `Binding` is parsed within 375 iterations and
without an access out of range. Of the attributes of a success response the first
XOR-MAPPED-ADDRESS that decodes is returned, or else the last MAPPED-ADDRESS that does, and
an IPv4 endpoint decodes to itself. -/
theorem parseBindingResponse_correct (txID : TransactionID) :
    (∀ msg : Bytes, msg.length ≤ 1500 → ∀ fuel ≥ 375,
      ∃ result, parseBindingResponse fuel msg txID = .returned result) ∧
    (∀ attrs : List Attribute, (successResponse txID attrs).length ≤ 1500 → ∀ fuel ≥ 375,
      parseBindingResponse fuel (successResponse txID attrs) txID =
        .returned (fallback (selected attrs))) ∧
    ∀ (a b c d : UInt8) (port : UInt16),
      parseXORMappedAddress (xorMappedValue txID 0x01 [a, b, c, d] port) =
          some (.ok ⟨ipv4 a b c d, port.toNat⟩) ∧
        parseMappedAddress (mappedValue 0x01 [a, b, c, d] port) =
          some (.ok ⟨ipv4 a b c d, port.toNat⟩) := by
  refine ⟨?_, ?_, ?_⟩
  · intro msg short fuel enough
    apply parseBindingResponse_returns
    · omega
    · omega
  · intro attrs short fuel enough
    apply parseBindingResponse_successResponse
    · omega
    · omega
  · intro a b c d port
    exact ⟨parseXORMappedAddress_v4 txID a b c d port, parseMappedAddress_v4 a b c d port⟩

theorem length_xorMappedValue_v6 (txID : TransactionID) {ip : Bytes} (sixteen : ip.length = 16)
    (port : UInt16) : (xorMappedValue txID 0x02 ip port).length = 20 := by
  simp only [xorMappedValue, List.length_append, length_xorBytes, length_putUint16,
    length_putUint32, txID.2, sixteen]
  rfl

/-- The XOR-MAPPED-ADDRESS of an IPv6 endpoint. -/
def xorMappedAttribute6 (txID : TransactionID) (ip : { ip : Bytes // ip.length = 16 })
    (port : UInt16) : Attribute where
  kind := attrXORMappedAddress
  value := xorMappedValue txID 0x02 ip.1 port
  padding := []
  short := by rw [length_xorMappedValue_v6 txID ip.2]; decide
  aligned := by rw [length_xorMappedValue_v6 txID ip.2]; rfl

/-- An IPv6 address comes back with its last twelve bytes masked by the transaction ID. -/
theorem xorMapped_xorMappedAttribute6 (txID : TransactionID)
    (ip : { ip : Bytes // ip.length = 16 }) (port : UInt16) :
    (xorMappedAttribute6 txID ip port).xorMapped =
      some ⟨ip.1.take 4 ++ xorBytes (ip.1.drop 4) txID.1, port.toNat⟩ := by
  have decoded : (xorMappedAttribute6 txID ip port).xorMapped =
      (parseXORMappedAddress (xorMappedValue txID 0x02 ip.1 port)).bind Except.toOption := rfl
  rw [decoded, parseXORMappedAddress_v6 txID ip.2]
  rfl

/-- A response whose XOR-MAPPED-ADDRESS is that of an IPv6 endpoint is read as the endpoint
exactly when the transaction ID is zero. -/
theorem parseBindingResponse_v6_iff {txID : TransactionID} {ip : { ip : Bytes // ip.length = 16 }}
    {port : UInt16} {before after : List Attribute} {fuel : Nat}
    (only : ∀ a ∈ before, a.kind ≠ attrXORMappedAddress)
    (short : (successResponse txID
      (before ++ xorMappedAttribute6 txID ip port :: after)).length < 2 ^ 16)
    (enough : (successResponse txID
      (before ++ xorMappedAttribute6 txID ip port :: after)).length ≤ 4 * fuel) :
    parseBindingResponse fuel
        (successResponse txID (before ++ xorMappedAttribute6 txID ip port :: after)) txID =
      .returned (.ok ⟨ip.1, port.toNat⟩) ↔ txID.1 = List.replicate 12 0 := by
  have none : before.findSome? Attribute.xorMapped = none := by
    rw [List.findSome?_eq_none_iff]
    intro a member
    exact if_neg (only a member)
  have chosen : selected (before ++ xorMappedAttribute6 txID ip port :: after) =
      some ⟨ip.1.take 4 ++ xorBytes (ip.1.drop 4) txID.1, port.toNat⟩ := by
    rw [selected, List.findSome?_append, none, Option.none_or, List.findSome?_cons,
      xorMapped_xorMappedAttribute6]
    rfl
  have same : (ip.1.drop 4).length = txID.1.length := by rw [List.length_drop, ip.2, txID.2]
  have kept : ip.1.take 4 ++ xorBytes (ip.1.drop 4) txID.1 = ip.1 ↔
      xorBytes (ip.1.drop 4) txID.1 = ip.1.drop 4 := by
    nth_rewrite 3 [← List.take_append_drop 4 ip.1]
    exact List.append_right_inj _
  have zero : txID.1 = List.replicate 12 0 ↔ txID.1 = List.replicate txID.1.length 0 := by
    rw [txID.2]
  rw [parseBindingResponse_successResponse txID _ short enough, chosen, zero,
    ← xorBytes_eq_self_iff same, ← kept]
  simp only [fallback, Outcome.returned.injEq, Except.ok.injEq, UDPAddr.mk.injEq, and_true]

section Samples

/-- The transaction ID of the samples. -/
def sampleID : TransactionID := ⟨[1, 2, 3, 4, 5, 6, 7, 8, 9, 10, 11, 12], rfl⟩

/-- The attribute with the name of the software of a server. -/
def softwareAttribute : Attribute :=
  ⟨0x8022, ascii "stund", [0, 0, 0], by decide, rfl⟩

/-- A SOFTWARE attribute with three bytes of padding, a MAPPED-ADDRESS, and a
XOR-MAPPED-ADDRESS of another endpoint. -/
def sampleAttributes : List Attribute :=
  [softwareAttribute,
    ⟨attrMappedAddress, mappedValue 0x01 [192, 0, 2, 1] 5000, [], by decide, rfl⟩,
    ⟨attrXORMappedAddress, xorMappedValue sampleID 0x01 [203, 0, 113, 7] 40000, [], by decide, rfl⟩]

/-- The address is found behind two other attributes. -/
theorem parseBindingResponse_sample :
    parseBindingResponse 375 (successResponse sampleID sampleAttributes) sampleID =
      .returned (.ok ⟨ipv4 203 0 113 7, 40000⟩) :=
  (parseBindingResponse_correct sampleID).2.1 sampleAttributes (by decide) 375 (Nat.le_refl _)

/-- The address `2001:db8::1`. -/
def sampleIPv6 : { ip : Bytes // ip.length = 16 } :=
  ⟨[0x20, 0x01, 0x0d, 0xb8, 0, 0, 0, 0, 0, 0, 0, 0, 0, 0, 0, 1], rfl⟩

/-- A transaction ID of zeros. -/
def zeroID : TransactionID := ⟨List.replicate 12 0, rfl⟩

/-- An IPv6 address is read back under a transaction ID of zeros. -/
theorem parseBindingResponse_v6_zero :
    parseBindingResponse 11 (successResponse zeroID [xorMappedAttribute6 zeroID sampleIPv6 40000])
        zeroID = .returned (.ok ⟨sampleIPv6.1, 40000⟩) := by
  have only : ∀ a ∈ ([] : List Attribute), a.kind ≠ attrXORMappedAddress := List.forall_mem_nil _
  exact (parseBindingResponse_v6_iff only (by decide) (by decide)).mpr rfl

/-- The address is read as `2001:db8:102:304:506:708:90a:b0d`. -/
theorem parseBindingResponse_v6_masked : ∃ ip, ip ≠ sampleIPv6.1 ∧
    parseBindingResponse 11
        (successResponse sampleID [xorMappedAttribute6 sampleID sampleIPv6 40000]) sampleID =
      .returned (.ok ⟨ip, 40000⟩) :=
  ⟨[0x20, 0x01, 0x0d, 0xb8, 1, 2, 3, 4, 5, 6, 7, 8, 9, 10, 11, 13], by decide, by decide⟩

end Samples

end Results

end P2pMesh.Stun

import P2pMesh.Foundation.BigEndian
import P2pMesh.Foundation.Descent
import Mathlib.Order.Interval.Finset.Nat

/-! # Names in a DNS packet

`decodeName` of `internal/dns/msg.go` follows labels and compression pointers without
counting them, so it runs on fuel here, one unit for each turn of its loop and each
call of itself. The offsets are those of an index into the packet, never negative. A
call comes to an end exactly when the labels and pointers that can be followed from its
offset lead into no cycle (`P2pMesh.Dns.decodeName_returns`).
-/

namespace P2pMesh.Dns

open Foundation Relation

/-- The errors of `decodeName`. -/
inductive NameError where
  | runsPastEnd
  | truncatedPointer
  | unsupportedLabel
  | labelRunsPastEnd
deriving DecidableEq, Repr

/-- The texts of the errors. -/
def NameError.text : NameError → String
  | .runsPastEnd => "dns: name runs past end"
  | .truncatedPointer => "dns: truncated pointer"
  | .unsupportedLabel => "dns: unsupported label type"
  | .labelRunsPastEnd => "dns: label runs past end"

/-- What stands at an offset of a name: its end, a pointer, or a label with the offset
just past it. -/
inductive NamePart where
  | root
  | pointer (target : Nat)
  | label (text : Bytes) (past : Nat)
deriving DecidableEq, Repr

/-- One turn of the loop of `decodeName`. -/
def namePart (pkt : Bytes) (off : Nat) : Except NameError NamePart :=
  match pkt[off]? with
  | none => .error .runsPastEnd
  | some l =>
      if l = 0 then .ok .root
      else if l &&& 0xC0 = 0xC0 then
        match pkt[off + 1]? with
        | none => .error .truncatedPointer
        | some low => .ok (.pointer (uint16 [l, low] &&& 0x3FFF).toNat)
      else if l &&& 0xC0 ≠ 0 then .error .unsupportedLabel
      else if pkt.length < off + 1 + l.toNat then .error .labelRunsPastEnd
      else .ok (.label ((pkt.drop (off + 1)).take l.toNat) (off + 1 + l.toNat))

/-- `strings.Join(labels, ".")`. -/
def join (labels : List Bytes) : Bytes :=
  [dot].intercalate labels

/-- `decodeName`, with the labels its loop has read so far. -/
def decodeName (pkt : Bytes) : Nat → Nat → List Bytes → Option (Except NameError (Bytes × Nat))
  | 0, _, _ => none
  | fuel + 1, off, labels =>
      match namePart pkt off with
      | .error err => some (.error err)
      | .ok .root => some (.ok (join labels, off + 1))
      | .ok (.pointer target) =>
          -- The target may stand anywhere, also where this name began.
          match decodeName pkt fuel target [] with
          | none => none
          | some (.error err) => some (.error err)
          | some (.ok (tail, _)) => some (.ok (join (labels ++ [tail]), off + 2))
      | .ok (.label text past) => decodeName pkt fuel past (labels ++ [text])

/-- `decodeName` reads on at `past` after what it finds at `off`. -/
inductive Follows (pkt : Bytes) (off past : Nat) : Prop where
  | pointer : namePart pkt off = .ok (.pointer past) → Follows pkt off past
  | label (text : Bytes) : namePart pkt off = .ok (.label text past) → Follows pkt off past

/-- A pointer has fourteen bits, and a label has between one and 63 bytes and ends within
a packet of `size` bytes. -/
def NamePart.Within (size : Nat) : NamePart → Prop
  | .root => True
  | .pointer target => target < 2 ^ 14
  | .label text past => 0 < text.length ∧ text.length < 64 ∧ past ≤ size

/-- A byte without its two high bits set is below 64. -/
theorem toNat_lt_of_and_eq_zero {l : UInt8} (low : l &&& 0xC0 = 0) : l.toNat < 64 := by
  have every : ∀ n : Fin 256, UInt8.ofNat n &&& 0xC0 = 0 → n < 64 := by decide +kernel
  apply every ⟨l.toNat, l.toNat_lt⟩
  rwa [UInt8.ofNat_toNat]

/-- What is found at an offset is within the packet, or points to an offset of fourteen bits. -/
theorem namePart_within {pkt : Bytes} {off : Nat} {part : NamePart}
    (found : namePart pkt off = .ok part) : part.Within pkt.length := by
  revert found
  fun_cases namePart pkt off with
  | case1 | case3 | case5 | case6 => nofun
  | case2 =>
      intro found
      cases found
      trivial
  | case4 l _ _ _ low =>
      intro found
      cases found
      simp only [NamePart.Within, UInt16.toNat_and]
      exact Nat.and_lt_two_pow _ (by decide)
  | case7 l _ nonzero _ short inside =>
      intro found
      cases found
      have small : l.toNat < 64 := toNat_lt_of_and_eq_zero (not_not.mp short)
      have positive : 0 < l.toNat :=
        Nat.pos_of_ne_zero fun zero => nonzero (UInt8.toNat_inj.mp zero)
      simp only [NamePart.Within, List.length_take, List.length_drop]
      omega

/-- What is read next stands at a pointer's fourteen bits or not past the packet's end. -/
theorem Follows.bounded {pkt : Bytes} {off past : Nat} (follows : Follows pkt off past) :
    past ≤ 2 ^ 14 + pkt.length := by
  cases follows with
  | pointer found =>
      have within : past < 2 ^ 14 := namePart_within found
      omega
  | label text found =>
      obtain ⟨_, _, within⟩ := namePart_within found
      omega

/-- From an offset the decoder can come to finitely many others. -/
theorem finite_follows (pkt : Bytes) (off : Nat) :
    {past | ReflTransGen (Follows pkt) off past}.Finite := by
  refine (Set.finite_Iic (off + (2 ^ 14 + pkt.length))).subset ?_
  intro past reached
  rw [Set.mem_Iic]
  rcases ReflTransGen.cases_tail reached with same | ⟨_, _, follows⟩
  · omega
  · have bounded := follows.bounded
    omega

/-- A call that ends reads no chain without an end. -/
theorem acc_of_decodeName {pkt : Bytes} {fuel off : Nat} {labels : List Bytes}
    (returns : (decodeName pkt fuel off labels).isSome) : Acc (flip (Follows pkt)) off := by
  induction fuel generalizing off labels with
  | zero => cases returns
  | succ fuel ih =>
      constructor
      rintro past (found | ⟨text, found⟩)
      · simp only [decodeName, found] at returns
        apply @ih past []
        cases called : decodeName pkt fuel past [] with
        | none => simp [called] at returns
        | some _ => rfl
      · simp only [decodeName, found] at returns
        exact ih returns

/-- Along a chain with an end the call ends, whatever it has read before. -/
theorem decodeName_of_acc {pkt : Bytes} {off : Nat} (ends : Acc (flip (Follows pkt)) off) :
    ∃ fuel, ∀ labels, (decodeName pkt fuel off labels).isSome := by
  -- The labels of the loop change along the chain, so the fuel is for all of them.
  induction ends with
  | intro off _ ih =>
      cases found : namePart pkt off with
      | error err => exact ⟨1, fun labels => by simp only [decodeName, found, Option.isSome_some]⟩
      | ok part =>
          cases part with
          | root => exact ⟨1, fun labels => by simp only [decodeName, found, Option.isSome_some]⟩
          | pointer target =>
              obtain ⟨fuel, returns⟩ := ih target (.pointer found)
              refine ⟨fuel + 1, fun labels => ?_⟩
              obtain ⟨outcome, called⟩ := Option.isSome_iff_exists.mp (returns [])
              cases outcome <;> simp only [decodeName, found, called, Option.isSome_some]
          | label text past =>
              obtain ⟨fuel, returns⟩ := ih past (.label text found)
              refine ⟨fuel + 1, fun labels => ?_⟩
              simp only [decodeName, found]
              exact returns _

/-- The names that `decodeName` returns, given the labels that its loop has read before. -/
inductive Decodes (pkt : Bytes) : Nat → List Bytes → Bytes → Nat → Prop where
  | root {off : Nat} {labels : List Bytes} : namePart pkt off = .ok .root →
      Decodes pkt off labels (join labels) (off + 1)
  | pointer {off target last : Nat} {labels : List Bytes} {tail : Bytes} :
      namePart pkt off = .ok (.pointer target) → Decodes pkt target [] tail last →
      Decodes pkt off labels (join (labels ++ [tail])) (off + 2)
  | label {off next past : Nat} {labels : List Bytes} {text name : Bytes} :
      namePart pkt off = .ok (.label text next) → Decodes pkt next (labels ++ [text]) name past →
      Decodes pkt off labels name past

/-- A name that `decodeName` returns is one that the packet spells. -/
theorem decodes_of_decodeName {pkt : Bytes} {fuel off past : Nat} {labels : List Bytes}
    {name : Bytes} (decoded : decodeName pkt fuel off labels = some (.ok (name, past))) :
    Decodes pkt off labels name past := by
  induction fuel generalizing off past labels name with
  | zero => cases decoded
  | succ fuel ih =>
      simp only [decodeName] at decoded
      split at decoded
      · cases decoded
      next found =>
        cases decoded
        exact .root found
      next target found =>
        split at decoded
        · cases decoded
        · cases decoded
        next called =>
          cases decoded
          exact .pointer found (ih called)
      next found => exact .label found (ih decoded)

/-- `decodeName` ends exactly where the labels and pointers that it follows lead into no
cycle. -/
theorem decodeName_returns (pkt : Bytes) (off : Nat) (labels : List Bytes) :
    (∃ fuel, (decodeName pkt fuel off labels).isSome) ↔ AcyclicFrom (Follows pkt) off := by
  rw [← acc_iff_acyclicFrom (finite_follows pkt off)]
  constructor
  · rintro ⟨_, returns⟩
    exact acc_of_decodeName returns
  · intro ends
    obtain ⟨fuel, returns⟩ := decodeName_of_acc ends
    exact ⟨fuel, returns labels⟩

/-- `Query`. -/
structure Query where
  id : UInt16
  qName : Bytes
  qType : UInt16
  qClass : UInt16
  wantRec : Bool
deriving DecidableEq, Repr

/-- The errors of `ParseQuery`. -/
inductive QueryError where
  | shorterThanHeader
  | questionCount
  | name (cause : NameError)
  | truncatedQuestion
deriving DecidableEq, Repr

/-- The texts of the errors. -/
def QueryError.text : QueryError → String
  | .shorterThanHeader => "dns: packet shorter than header"
  | .questionCount => "dns: proxy requires exactly one question"
  | .name cause => cause.text
  | .truncatedQuestion => "dns: truncated question"

/-- The sixteen bits at an offset, as `binary.BigEndian.Uint16` reads them. -/
def wordAt (pkt : Bytes) (off : Nat) : UInt16 :=
  uint16 ((pkt.drop off).take 2)

/-- `ParseQuery`, on fuel for `decodeName`. -/
def parseQuery (fuel : Nat) (pkt : Bytes) : Option (Except QueryError Query) :=
  if pkt.length < 12 then some (.error .shorterThanHeader)
  else if wordAt pkt 4 ≠ 1 then some (.error .questionCount)
  else
    match decodeName pkt fuel 12 [] with
    | none => none
    | some (.error cause) => some (.error (.name cause))
    | some (.ok (name, off)) =>
        if pkt.length < off + 4 then some (.error .truncatedQuestion)
        else some (.ok ⟨wordAt pkt 0, name, wordAt pkt off, wordAt pkt (off + 2),
          wordAt pkt 2 &&& 0x0100 ≠ 0⟩)

/-- `ParseQuery` returns when it reads no name or when `decodeName` returns. -/
theorem parseQuery_isSome (fuel : Nat) (pkt : Bytes) :
    (parseQuery fuel pkt).isSome ↔
      pkt.length < 12 ∨ wordAt pkt 4 ≠ 1 ∨ (decodeName pkt fuel 12 []).isSome := by
  unfold parseQuery
  by_cases short : pkt.length < 12
  · simp only [short, ↓reduceIte, Option.isSome_some, true_or]
  by_cases count : wordAt pkt 4 = 1
  · simp only [short, count, ne_eq, not_true_eq_false, ↓reduceIte, false_or]
    split
    · next called => simp only [called, Option.isSome_none]
    · next called => simp only [called, Option.isSome_some]
    · next called =>
        simp only [called, Option.isSome_some, iff_true]
        split <;> rfl
  · simp only [short, count, ne_eq, not_false_eq_true, ↓reduceIte, Option.isSome_some, true_or,
      or_true]

/-- What `ParseQuery` accepts, and what it makes of it. -/
theorem parseQuery_eq_ok_iff {fuel : Nat} {pkt : Bytes} {q : Query} :
    parseQuery fuel pkt = some (.ok q) ↔
      12 ≤ pkt.length ∧ wordAt pkt 4 = 1 ∧ ∃ off,
        decodeName pkt fuel 12 [] = some (.ok (q.qName, off)) ∧ off + 4 ≤ pkt.length ∧
          q = ⟨wordAt pkt 0, q.qName, wordAt pkt off, wordAt pkt (off + 2),
            wordAt pkt 2 &&& 0x0100 ≠ 0⟩ := by
  constructor
  · intro accepted
    unfold parseQuery at accepted
    split at accepted
    · cases accepted
    next long =>
      split at accepted
      · cases accepted
      next one =>
        split at accepted
        · cases accepted
        · cases accepted
        next decoded =>
          split at accepted
          · cases accepted
          next whole =>
            cases accepted
            exact ⟨not_lt.mp long, not_not.mp one, _, decoded, not_lt.mp whole, rfl⟩
  · rintro ⟨long, one, off, decoded, whole, same⟩
    simp only [parseQuery, not_lt.mpr long, one, decoded, not_lt.mpr whole, ne_eq,
      not_true_eq_false, ↓reduceIte]
    rw [same]

/-- A name is decoded to its end or to an error exactly where its labels and pointers lead
into no cycle, and a packet is parsed exactly when it is refused by its header or its
name, at offset 12, is such a name. -/
theorem parsing_returns_iff (pkt : Bytes) :
    (∀ off, (∃ fuel, (decodeName pkt fuel off []).isSome) ↔ AcyclicFrom (Follows pkt) off) ∧
      ((∃ fuel, (parseQuery fuel pkt).isSome) ↔
        pkt.length < 12 ∨ wordAt pkt 4 ≠ 1 ∨ AcyclicFrom (Follows pkt) 12) := by
  refine ⟨fun off => decodeName_returns pkt off [], ?_⟩
  simp only [parseQuery_isSome, exists_or, exists_const, decodeName_returns]

/-- A query whose name is a pointer to itself. -/
def loopingQuery : Bytes :=
  [0x12, 0x34, 0x01, 0x00, 0, 1, 0, 0, 0, 0, 0, 0, 0xC0, 0x0C, 0, 1, 0, 1]

/-- A pointer to itself is followed for ever. -/
theorem loopingQuery_never_returns :
    (¬ ∃ fuel, (decodeName loopingQuery fuel 12 []).isSome) ∧
      ¬ ∃ fuel, (parseQuery fuel loopingQuery).isSome := by
  have itself : Follows loopingQuery 12 12 := .pointer (by decide)
  have unending : ¬ ∃ fuel, (decodeName loopingQuery fuel 12 []).isSome := by
    rw [decodeName_returns]
    intro acyclic
    exact acyclic 12 .refl (.single itself)
  refine ⟨unending, ?_⟩
  rintro ⟨fuel, returns⟩
  rcases (parseQuery_isSome fuel loopingQuery).mp returns with short | count | returned
  · exact absurd short (by decide)
  · exact absurd count (by decide)
  · exact unending ⟨fuel, returned⟩

end P2pMesh.Dns

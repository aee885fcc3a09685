import P2pMesh.Foundation.Hex
import P2pMesh.Foundation.LeadingBits
import P2pMesh.Foundation.Slice
import Mathlib.Data.List.GetD
import Mathlib.Order.RelIso.Basic

/-! # Keys of the routing table

`internal/dht/key.go`. `Less` compares keys as numbers (`P2pMesh.Dht.less_iff`), of which the
distance is the exclusive or (`P2pMesh.Dht.toNat_distance`). How many of their 160 bits two
keys share is a matter of how large their distance is
(`P2pMesh.Dht.le_commonPrefixLen_iff`): the order of the buckets is that of the distances
(`P2pMesh.Dht.commonPrefixLen_agrees_with_distance`). SHA-256 is a parameter. The texts of
keys are read back in either case (`P2pMesh.Dht.parseKey_accepts`).
-/

namespace P2pMesh.Dht

open Foundation

/-- `KeySizeBits`. -/
def keySizeBits : Nat := 160

/-- `Key`. -/
abbrev Key := { bytes : Bytes // bytes.length = 20 }

/-- A digest of SHA-256. -/
abbrev Digest := { bytes : Bytes // bytes.length = 32 }

/-- `KeyForNodeID`. -/
def keyForNodeID (sha256 : Bytes → Digest) (id : Bytes) : Key :=
  ⟨(sha256 id).val.take 20, by rw [List.length_take, (sha256 id).property]; rfl⟩

/-- `Key.Xor`. -/
def Key.xor (k o : Key) : Key :=
  ⟨xorBytes k.val o.val, by
    rw [length_xorBytes, k.property, o.property]; rfl⟩

/-- `Key.Bit`: the first bit is the most significant one. -/
def Key.bit (k : Key) (i : Nat) : Bool :=
  k.val.getD (i / 8) 0 &&& (1 <<< UInt8.ofNat (7 - i % 8)) != 0

/-- `Key.CommonPrefixLen`. -/
def Key.commonPrefixLen (k o : Key) : Nat :=
  ((List.range keySizeBits).takeWhile fun i => !(k.xor o).bit i).length

/-- The comparison of bytes from the first one on. -/
def lessBytes : Bytes → Bytes → Bool
  | a :: as, b :: bs => if a ≠ b then a < b else lessBytes as bs
  | _, _ => false

/-- `Key.Less`. -/
def Key.less (k o : Key) : Bool :=
  lessBytes k.val o.val

/-- `Distance`. -/
def distance (a b : Key) : Key :=
  a.xor b

/-- A key as a number. -/
def Key.toNat (k : Key) : Nat :=
  beNat k.val

/-- `lessBytes` compares texts of one length as numbers. -/
theorem lessBytes_iff {a b : Bytes} (same : a.length = b.length) :
    lessBytes a b = true ↔ beNat a < beNat b := by
  induction a generalizing b with
  | nil =>
      cases b with
      | nil => decide
      | cons => cases same
  | cons x xs ih =>
      cases b with
      | nil => cases same
      | cons y ys =>
          have tails : xs.length = ys.length := Nat.succ.inj same
          have left := beNat_lt xs
          have right := beNat_lt ys
          rw [beNat_cons, beNat_cons, lessBytes, tails]
          rw [tails] at left
          by_cases equal : x = y
          · rw [if_neg (not_not.mpr equal), ih tails, equal]
            omega
          · rw [if_pos equal, decide_eq_true_iff, UInt8.lt_iff_toNat_lt]
            have differs : x.toNat ≠ y.toNat := fun eq => equal (UInt8.toNat_inj.mp eq)
            constructor
            · intro below
              have scaled := Nat.mul_le_mul_right (256 ^ ys.length) (Nat.succ_le_of_lt below)
              rw [Nat.succ_mul] at scaled
              omega
            · intro below
              by_contra above
              have scaled := Nat.mul_le_mul_right (256 ^ ys.length)
                (Nat.succ_le_of_lt (Nat.lt_of_le_of_ne (Nat.not_lt.mp above) differs.symm))
              rw [Nat.succ_mul] at scaled
              omega

/-- `Less` compares keys as numbers. -/
theorem less_iff (k o : Key) : k.less o = true ↔ k.toNat < o.toNat :=
  lessBytes_iff (k.property.trans o.property.symm)

/-- A key is determined by its number. -/
theorem toNat_injective {k o : Key} (same : k.toNat = o.toNat) : k = o := by
  apply Subtype.ext
  rw [← beBytes_beNat k.val, ← beBytes_beNat o.val, k.property, o.property]
  exact congrArg (beBytes 20) same

/-- The distance of two keys is the exclusive or of their numbers. -/
theorem toNat_distance (a b : Key) : (distance a b).toNat = a.toNat ^^^ b.toNat :=
  beNat_xorBytes (a.property.trans b.property.symm)

/-- Keys at one distance from a target are equal. -/
theorem distance_injective (target : Key) {k o : Key}
    (same : distance target k = distance target o) : k = o := by
  have numbers := congrArg Key.toNat same
  rw [toNat_distance, toNat_distance, Nat.xor_right_inj] at numbers
  exact toNat_injective numbers

section Prefixes

variable (k o : Key)

theorem bit_eq_bitAt (i : Nat) : k.bit i = bitAt k.val i :=
  and_shiftLeft_bne_zero (k.val.getD (i / 8) 0) (by omega)

/-- Two keys share at most all of their bits. -/
theorem commonPrefixLen_le : k.commonPrefixLen o ≤ keySizeBits := by
  have bound := (List.takeWhile_prefix (fun i => !(k.xor o).bit i)
    (l := List.range keySizeBits)).length_le
  rwa [List.length_range] at bound

/-- Two keys share their first bits exactly when their distance is below the power of two
that the other bits leave room for. -/
theorem le_commonPrefixLen_iff {n : Nat} (fits : n ≤ keySizeBits) :
    n ≤ k.commonPrefixLen o ↔ (distance k o).toNat < 2 ^ (keySizeBits - n) := by
  have width : 8 * (distance k o).val.length = keySizeBits := by
    rw [(distance k o).property]
    rfl
  have leading := beNat_lt_two_pow_iff (distance k o).val (n := n) (width ▸ fits)
  rw [width] at leading
  rw [Key.toNat, leading, Key.commonPrefixLen, le_length_takeWhile_range_iff fits]
  simp only [bit_eq_bitAt, Bool.not_eq_true', distance]

/-- Two keys share all their bits exactly when they are equal. -/
theorem commonPrefixLen_eq_iff : k.commonPrefixLen o = keySizeBits ↔ k = o := by
  have all := le_commonPrefixLen_iff k o (Nat.le_refl keySizeBits)
  rw [Nat.sub_self, Nat.pow_zero, Nat.lt_one_iff, toNat_distance, Nat.xor_eq_zero_iff] at all
  refine ⟨fun shared => toNat_injective (all.mp shared.ge), fun same => ?_⟩
  exact Nat.le_antisymm (commonPrefixLen_le k o) (all.mpr (congrArg Key.toNat same))

/-- A key that belongs to a bucket is not the local one. -/
theorem ne_of_commonPrefixLen_eq {k o : Key} {i : Fin keySizeBits}
    (place : k.commonPrefixLen o = i) : o ≠ k := by
  intro same
  rw [(commonPrefixLen_eq_iff k o).mpr same.symm] at place
  exact absurd i.isLt (place ▸ Nat.lt_irrefl _)

/-- A key that shares more bits is nearer. -/
theorem less_distance_of_commonPrefixLen_lt {a b c : Key}
    (longer : a.commonPrefixLen c < a.commonPrefixLen b) :
    (distance a b).less (distance a c) = true := by
  have inside : a.commonPrefixLen c + 1 ≤ keySizeBits :=
    Nat.lt_of_lt_of_le longer (commonPrefixLen_le a b)
  -- The first bit in which `c` differs from `a` parts the two distances.
  have near := (le_commonPrefixLen_iff a b inside).mp longer
  have far : ¬ (distance a c).toNat < 2 ^ (keySizeBits - (a.commonPrefixLen c + 1)) :=
    fun small => Nat.not_succ_le_self _ ((le_commonPrefixLen_iff a c inside).mpr small)
  rw [less_iff]
  exact Nat.lt_of_lt_of_le near (Nat.not_lt.mp far)

end Prefixes

/-- The order of keys is that of their numbers. -/
def toNatEmbedding : (fun k o : Key => k.less o = true) ↪r fun m n : Nat => m < n where
  toFun := Key.toNat
  inj' := fun _ _ => toNat_injective
  map_rel_iff' := (less_iff _ _).symm

/-- The index of a bucket and the order of distances agree: a key that shares more bits is at
a smaller distance. The order is a strict total one, all bits are shared with the key itself
only, and keys are told apart by their distances from any target. -/
theorem commonPrefixLen_agrees_with_distance :
    (∀ a b c : Key, a.commonPrefixLen c < a.commonPrefixLen b →
      (distance a b).less (distance a c) = true) ∧
    IsStrictTotalOrder Key (fun k o => k.less o = true) ∧
    (∀ a b : Key, a.commonPrefixLen b = 160 ↔ a = b) ∧
    ∀ target : Key, Function.Injective (distance target) := by
  refine ⟨fun _ _ _ => less_distance_of_commonPrefixLen_lt, toNatEmbedding.isStrictTotalOrder,
    commonPrefixLen_eq_iff, ?_⟩
  intro target k o
  exact distance_injective target

/-- A key that begins with a byte and is zero behind it. -/
def firstByteKey (byte : UInt8) : Key :=
  ⟨byte :: List.replicate 19 0, rfl⟩

/-- The key with first byte `0xFF` shares one bit with that of `0x80` and none with that of
`0x7F`. -/
theorem firstByteKey_nearer :
    (distance (firstByteKey 0xFF) (firstByteKey 0x80)).less
      (distance (firstByteKey 0xFF) (firstByteKey 0x7F)) = true :=
  commonPrefixLen_agrees_with_distance.1 _ _ _ (by decide)

/-- `Key.String`. -/
def Key.string (k : Key) : Bytes :=
  Hex.encode k.val

/-- What the text of a key is refused for. -/
inductive KeyTextError where
  | length (given : Nat)
  | hexChar (c : UInt8)
deriving DecidableEq

/-- The texts of the errors, given the quoting of `%q`. -/
def KeyTextError.text (quote : Char → String) : KeyTextError → String
  | .length given => "dht: key string must be 40 hex chars, got " ++ toString given
  | .hexChar c => "dht: invalid hex char " ++ quote (Char.ofNat c.toNat)

/-- `ParseKey`. -/
def parseKey (s : Bytes) : Except KeyTextError Key :=
  if size : s.length = 40 then
    match read : Hex.decode s with
    | .error c => .error (.hexChar c)
    | .ok bytes => .ok ⟨bytes, by
        have twice := Hex.length_of_decode (size ▸ by decide) read
        omega⟩
  else .error (.length s.length)

/-- A key is written with forty digits. -/
theorem length_string (k : Key) : k.string.length = 40 := by
  rw [Key.string, Hex.length_encode, k.property]

/-- A text of forty bytes is parsed as its hexadecimal decoding, with the same error. -/
theorem parseKey_eq {s : Bytes} (size : s.length = 40) :
    (∀ k, parseKey s = .ok k ↔ Hex.decode s = .ok k.val) ∧
      ∀ c, parseKey s = .error (.hexChar c) ↔ Hex.decode s = .error c := by
  unfold parseKey
  simp only [size, ↓reduceDIte]
  split
  next c read => simp [read]
  next bytes read => simp [read, Subtype.ext_iff]

/-- `ParseKey` accepts the texts of keys, in either case, and nothing else. Of a text that it
refuses it reports the length, or the first character that is no digit. -/
theorem parseKey_accepts (s : Bytes) :
    (∀ k : Key, parseKey s = .ok k ↔ s.map Hex.lower = k.string) ∧
    (∀ n, parseKey s = .error (.length n) ↔ s.length ≠ 40 ∧ n = s.length) ∧
    (∀ c, parseKey s = .error (.hexChar c) ↔
      s.length = 40 ∧ s.find? (fun d => Hex.value d = none) = some c) ∧
    ∀ k : Key, parseKey k.string = .ok k := by
  have accepted (s : Bytes) (k : Key) : parseKey s = .ok k ↔ s.map Hex.lower = k.string := by
    by_cases size : s.length = 40
    · rw [(parseKey_eq size).1, Hex.decode_eq_ok_iff (size ▸ by decide)]
      rfl
    · have refused : parseKey s = .error (.length s.length) := dif_neg size
      rw [refused]
      refine ⟨nofun, fun same => absurd ?_ size⟩
      rw [← length_string k, ← same, List.length_map]
  refine ⟨accepted s, ?_, ?_, fun k => (accepted _ k).mpr (Hex.map_lower_encode k.val)⟩
  · intro n
    by_cases size : s.length = 40
    · obtain ⟨oks, errors⟩ := parseKey_eq size
      cases outcome : Hex.decode s with
      | error c => simp [(errors c).mpr outcome, size]
      | ok bytes =>
          have twice := Hex.length_of_decode (size ▸ by decide) outcome
          simp [(oks ⟨bytes, by omega⟩).mpr outcome, size]
    · have refused : parseKey s = .error (.length s.length) := dif_neg size
      simp [refused, size, eq_comm]
  · intro c
    by_cases size : s.length = 40
    · rw [(parseKey_eq size).2, Hex.decode_eq_error_iff (size ▸ by decide)]
      simp [size]
    · have refused : parseKey s = .error (.length s.length) := dif_neg size
      simp [refused, size]

end P2pMesh.Dht

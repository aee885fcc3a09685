import P2pMesh.Foundation.BigEndian

/-! # Hexadecimal digits

A byte is written as two lower-case digits. The reader takes two characters at a time and
accepts digits of either case, so it reads a text of even length exactly when the text in lower
case is what is written (`Foundation.Hex.decode_eq_ok_iff`), and otherwise gives the first
character that is no digit (`Foundation.Hex.decode_eq_error_iff`).
-/

namespace Foundation.Hex

/-- The digit of a number below sixteen. -/
def digit (n : UInt8) : UInt8 :=
  if n < 10 then 48 + n else 87 + n

/-- The number of a digit. -/
def value (c : UInt8) : Option UInt8 :=
  if 48 ≤ c ∧ c ≤ 57 then some (c - 48)
  else if 97 ≤ c ∧ c ≤ 102 then some (c - 97 + 10)
  else if 65 ≤ c ∧ c ≤ 70 then some (c - 65 + 10)
  else none

/-- A digit in lower case. -/
def lower (c : UInt8) : UInt8 :=
  if 65 ≤ c ∧ c ≤ 70 then c + 32 else c

/-- Two digits for each byte. -/
def encode (bytes : Bytes) : Bytes :=
  bytes.flatMap fun (byte : UInt8) => [digit (byte >>> 4), digit (byte &&& 15)]

/-- The byte of two digits, or the first of the two characters that is none. -/
def pair (hi lo : UInt8) : Except UInt8 UInt8 :=
  match value hi with
  | none => .error hi
  | some high =>
      match value lo with
      | none => .error lo
      | some low => .ok (high <<< 4 ||| low)

/-- The bytes of a text, or its first character that is no digit. -/
def decode : Bytes → Except UInt8 Bytes
  | hi :: lo :: rest =>
      match pair hi lo with
      | .error c => .error c
      | .ok byte =>
          match decode rest with
          | .error c => .error c
          | .ok bytes => .ok (byte :: bytes)
  | _ => .ok []

theorem encode_cons (byte : UInt8) (bytes : Bytes) :
    encode (byte :: bytes) = digit (byte >>> 4) :: digit (byte &&& 15) :: encode bytes :=
  rfl

/-- A byte has two digits. -/
theorem length_encode (bytes : Bytes) : (encode bytes).length = 2 * bytes.length := by
  induction bytes with
  | nil => rfl
  | cons byte rest ih =>
      rw [encode_cons, List.length_cons, List.length_cons, List.length_cons, ih]
      omega

/-- A digit that was written is read back. -/
theorem value_digit {n : UInt8} (small : n.toNat < 16) : value (digit n) = some n :=
  forall_byte_lt (p := fun n => value (digit n) = some n) (by decide) small

/-- What every character is read as, by going through all of them. -/
theorem value_cases (c : UInt8) : value (lower c) = value c ∧
    (value c).all (fun n => n.toNat < 16 && digit n = lower c) = true :=
  forall_byte_lt (p := fun c => value (lower c) = value c ∧
    (value c).all (fun n => n.toNat < 16 && digit n = lower c) = true)
    (by decide +kernel) c.toNat_lt

/-- Digits are read in either case. -/
theorem value_lower (c : UInt8) : value (lower c) = value c :=
  (value_cases c).1

/-- A digit that is read is written in lower case. -/
theorem digit_of_value {c n : UInt8} (read : value c = some n) :
    n.toNat < 16 ∧ digit n = lower c := by
  have digits := (value_cases c).2
  rw [read, Option.all_some, Bool.and_eq_true, decide_eq_true_eq, decide_eq_true_eq] at digits
  exact digits

/-- A character is read as a number just when it is the digit of the number, in either case. -/
theorem value_eq_some_iff (c n : UInt8) :
    value c = some n ↔ n.toNat < 16 ∧ digit n = lower c := by
  refine ⟨digit_of_value, ?_⟩
  intro ⟨small, same⟩
  rw [← value_lower, ← same]
  exact value_digit small

theorem toNat_high (byte : UInt8) : (byte >>> 4).toNat = byte.toNat / 16 := by
  have four : (4 : UInt8).toNat % 8 = 4 := rfl
  rw [UInt8.toNat_shiftRight, four, Nat.shiftRight_eq_div_pow]

theorem toNat_low (byte : UInt8) : (byte &&& 15).toNat = byte.toNat % 16 := by
  rw [UInt8.toNat_and]
  exact Nat.and_two_pow_sub_one_eq_mod byte.toNat 4

/-- Two halves make a byte. -/
theorem toNat_or_halves {high low : UInt8} (highSmall : high.toNat < 16)
    (lowSmall : low.toNat < 16) :
    (high <<< 4 ||| low).toNat = 16 * high.toNat + low.toNat := by
  have four : (4 : UInt8).toNat % 8 = 4 := rfl
  have shifted : (high <<< 4).toNat = high.toNat <<< 4 := by
    rw [UInt8.toNat_shiftLeft, four, Nat.shiftLeft_eq]
    exact Nat.mod_eq_of_lt (by omega)
  rw [UInt8.toNat_or, shifted, ← Nat.shiftLeft_add_eq_or_of_lt lowSmall, Nat.shiftLeft_eq]
  omega

/-- The halves of a byte. -/
theorem halves (byte : UInt8) :
    (byte >>> 4).toNat < 16 ∧ (byte &&& 15).toNat < 16 ∧
      (byte >>> 4) <<< 4 ||| (byte &&& 15) = byte := by
  have high := toNat_high byte
  have low := toNat_low byte
  have bound := byte.toNat_lt
  have highSmall : (byte >>> 4).toNat < 16 := by omega
  have lowSmall : (byte &&& 15).toNat < 16 := by omega
  refine ⟨highSmall, lowSmall, UInt8.toNat_inj.mp ?_⟩
  rw [toNat_or_halves highSmall lowSmall]
  omega

/-- The byte with the given halves. -/
theorem halves_or {high low : UInt8} (highSmall : high.toNat < 16) (lowSmall : low.toNat < 16) :
    (high <<< 4 ||| low) >>> 4 = high ∧ (high <<< 4 ||| low) &&& 15 = low := by
  have whole := toNat_or_halves highSmall lowSmall
  refine ⟨UInt8.toNat_inj.mp ?_, UInt8.toNat_inj.mp ?_⟩
  · rw [toNat_high, whole]
    omega
  · rw [toNat_low, whole]
    omega

/-- Two digits are read as the byte that is written with them, up to their case. -/
theorem pair_eq_ok_iff (hi lo byte : UInt8) :
    pair hi lo = .ok byte ↔ digit (byte >>> 4) = lower hi ∧ digit (byte &&& 15) = lower lo := by
  obtain ⟨highSmall, lowSmall, whole⟩ := halves byte
  unfold pair
  refine ⟨fun read => ?_, ?_⟩
  · split at read
    · cases read
    next high readHigh =>
      split at read
      · cases read
      next low readLow =>
        cases read
        obtain ⟨small, same⟩ := digit_of_value readHigh
        obtain ⟨small', same'⟩ := digit_of_value readLow
        obtain ⟨left, right⟩ := halves_or small small'
        rw [left, right]
        exact ⟨same, same'⟩
  · intro ⟨same, same'⟩
    rw [(value_eq_some_iff hi _).mpr ⟨highSmall, same⟩,
      (value_eq_some_iff lo _).mpr ⟨lowSmall, same'⟩]
    simp only [whole]

/-- The error of a pair names the first byte that is no digit. -/
theorem pair_eq_error_iff (hi lo c : UInt8) :
    pair hi lo = .error c ↔ [hi, lo].find? (fun d => value d = none) = some c := by
  unfold pair
  cases readHigh : value hi with
  | none => simp [readHigh]
  | some high =>
      cases readLow : value lo with
      | none => simp [readHigh, readLow]
      | some low => simp [readHigh, readLow]

/-- A text is decoded pair by pair. -/
theorem decode_pair_eq_ok_iff (hi lo : UInt8) (rest bytes : Bytes) :
    decode (hi :: lo :: rest) = .ok bytes ↔
      ∃ byte more, bytes = byte :: more ∧ pair hi lo = .ok byte ∧ decode rest = .ok more := by
  rw [decode]
  cases pair hi lo with
  | error c => simp
  | ok byte =>
      cases decode rest with
      | error c => simp
      | ok more => simp [eq_comm]

/-- The error of a text is that of its first pair that fails. -/
theorem decode_pair_eq_error_iff (hi lo : UInt8) (rest : Bytes) (c : UInt8) :
    decode (hi :: lo :: rest) = .error c ↔
      pair hi lo = .error c ∨ (∃ byte, pair hi lo = .ok byte) ∧ decode rest = .error c := by
  rw [decode]
  cases pair hi lo with
  | error d => simp
  | ok byte =>
      cases decode rest with
      | error d => simp
      | ok more => simp

/-- A text of even length is read just when it is the digits of the bytes, in either case. -/
theorem decode_eq_ok_iff : ∀ {text : Bytes}, 2 ∣ text.length → ∀ bytes : Bytes,
    (decode text = .ok bytes ↔ text.map lower = encode bytes)
  | [], _, bytes => by
      cases bytes with
      | nil => simp [decode, encode]
      | cons byte more => simp [decode, encode_cons]
  | [_], odd, _ => absurd odd (by simp)
  | hi :: lo :: rest, even, bytes => by
      have evenRest : 2 ∣ rest.length := by
        rw [List.length_cons, List.length_cons] at even
        omega
      rw [decode_pair_eq_ok_iff, List.map_cons, List.map_cons]
      cases bytes with
      | nil => simp [encode]
      | cons byte more =>
          rw [encode_cons]
          simp only [List.cons.injEq, pair_eq_ok_iff, ← decode_eq_ok_iff evenRest]
          refine ⟨?_, ?_⟩
          · intro ⟨_, _, ⟨rfl, rfl⟩, ⟨high, low⟩, read⟩
            exact ⟨high.symm, low.symm, read⟩
          · intro ⟨high, low, read⟩
            exact ⟨byte, more, ⟨rfl, rfl⟩, ⟨high.symm, low.symm⟩, read⟩

/-- A text has two digits for each byte. -/
theorem length_of_decode {text bytes : Bytes} (even : 2 ∣ text.length)
    (read : decode text = .ok bytes) : 2 * bytes.length = text.length := by
  rw [← length_encode, ← (decode_eq_ok_iff even bytes).mp read, List.length_map]

theorem lower_digit {n : UInt8} (small : n.toNat < 16) : lower (digit n) = digit n :=
  forall_byte_lt (p := fun n => lower (digit n) = digit n) (by decide) small

/-- What is written is in lower case. -/
theorem map_lower_encode (bytes : Bytes) : (encode bytes).map lower = encode bytes := by
  induction bytes with
  | nil => rfl
  | cons byte rest ih =>
      obtain ⟨highSmall, lowSmall, _⟩ := halves byte
      rw [encode_cons, List.map_cons, List.map_cons, ih, lower_digit highSmall,
        lower_digit lowSmall]

/-- What is not read has a first character that is no digit. -/
theorem decode_eq_error_iff : ∀ {text : Bytes}, 2 ∣ text.length → ∀ c : UInt8,
    (decode text = .error c ↔ text.find? (fun d => value d = none) = some c)
  | [], _, _ => by simp [decode]
  | [_], odd, _ => absurd odd (by simp)
  | hi :: lo :: rest, even, c => by
      have evenRest : 2 ∣ rest.length := by
        rw [List.length_cons, List.length_cons] at even
        omega
      have split : hi :: lo :: rest = [hi, lo] ++ rest := rfl
      rw [decode_pair_eq_error_iff, pair_eq_error_iff, decode_eq_error_iff evenRest, split,
        List.find?_append]
      cases front : [hi, lo].find? fun d => value d = none with
      | some d =>
          have failed := (pair_eq_error_iff hi lo d).mpr front
          simp [failed]
      | none =>
          have read : ∃ byte, pair hi lo = .ok byte := by
            cases outcome : pair hi lo with
            | error d => rw [(pair_eq_error_iff hi lo d).mp outcome] at front; cases front
            | ok byte => exact ⟨byte, rfl⟩
          simp [read]

end Foundation.Hex

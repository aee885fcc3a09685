import P2pMesh.Foundation.Utf8

/-! # Lower and upper case of a byte string

`strings.ToLower` maps the code points of a string one by one and writes the replacement
character for each byte that starts none. What it knows of the characters is a parameter:
on ASCII it is the usual mapping, and only a letter becomes a letter. An ASCII byte is
never part of the encoding of another character, so a string may be cut at one before or
after it is lower-cased (`Foundation.CaseMap.toLower_append`). `strings.ToUpper` is in the
last section; on ASCII strings both map the bytes (`Foundation.mapRunes_eq_map`).
-/

namespace Foundation

/-- A mapping of characters to lower case. -/
structure CaseMap where
  lower : Char → Char
  onAscii : ∀ c, c.toNat < 128 → lower c = c.toLower
  fixes : ∀ c, (lower c).toNat < 128 → (lower c).isLower = false → lower c = c

/-- A character is one ASCII byte, or its encoding has no ASCII byte. -/
theorem utf8EncodeChar_cases (c : Char) :
    (∃ byte : UInt8, byte < 128 ∧ c = Char.ofNat byte.toNat) ∨
      ∀ byte ∈ String.utf8EncodeChar c, 128 ≤ byte := by
  by_cases small : c.val.toNat ≤ 127
  · have value : (UInt8.ofNat c.toNat).toNat = c.toNat := UInt8.toNat_ofNat_of_lt' (by
      change c.val.toNat < 256
      omega)
    refine Or.inl ⟨UInt8.ofNat c.toNat, UInt8.lt_iff_toNat_lt.mpr ?_, ?_⟩
    · rw [value]
      exact Nat.lt_succ_of_le small
    · rw [value, Char.ofNat_toNat]
  refine Or.inr fun byte member => ?_
  rw [UInt8.le_iff_toNat_le]
  simp only [String.utf8EncodeChar, small, ↓reduceIte] at member
  split at member
  · simp only [List.mem_cons, List.not_mem_nil, or_false] at member
    rcases member with rfl | rfl <;> simp only [UInt8.toNat_ofNat', UInt8.reduceToNat] <;> omega
  split at member
  · simp only [List.mem_cons, List.not_mem_nil, or_false] at member
    rcases member with rfl | rfl | rfl <;>
      simp only [UInt8.toNat_ofNat', UInt8.reduceToNat] <;> omega
  · simp only [List.mem_cons, List.not_mem_nil, or_false] at member
    rcases member with rfl | rfl | rfl | rfl <;>
      simp only [UInt8.toNat_ofNat', UInt8.reduceToNat] <;> omega

/-- An ASCII byte in the encoding of a character is all of the encoding. -/
theorem eq_of_mem_utf8EncodeChar {c : Char} {byte : UInt8} (small : byte < 128)
    (member : byte ∈ String.utf8EncodeChar c) : c = Char.ofNat byte.toNat := by
  rcases utf8EncodeChar_cases c with ⟨own, ownSmall, rfl⟩ | high
  · rw [utf8EncodeChar_ascii ownSmall, List.mem_singleton] at member
    rw [member]
  · exact absurd (high byte member) (UInt8.not_le.mpr small)

section Reading

/-- A byte that starts no character still starts none when an ASCII byte follows the
bytes after it. -/
theorem decodeRune_append_none {left : Bytes} (right : Bytes) {byte : UInt8}
    (nonempty : left ≠ []) (small : byte < 128) (gap : decodeRune left = none) :
    decodeRune (left ++ byte :: right) = none := by
  cases decoded : decodeRune (left ++ byte :: right) with
  | none => rfl
  | some c =>
      exfalso
      have encoded := eq_of_decodeRune decoded
      rcases List.append_eq_append_iff.mp encoded with ⟨more, whole, rest⟩ | ⟨more, part, _⟩
      · cases more with
        | nil =>
            have found := decodeRune_encode c []
            rw [whole, List.append_nil, List.append_nil, gap] at found
            cases found
        | cons first more =>
            -- The ASCII byte is in the encoding, so it is all of it and `left` is empty.
            have same : byte = first := (List.cons.inj rest).1
            have member : byte ∈ String.utf8EncodeChar c := by simp [whole, same]
            rw [eq_of_mem_utf8EncodeChar small member, utf8EncodeChar_ascii small] at whole
            have lengths := congrArg List.length whole
            have positive := List.length_pos_iff.mpr nonempty
            simp only [List.length_append, List.length_cons, List.length_nil] at lengths
            omega
      · have found := decodeRune_encode c more
        rw [← part, gap] at found
        cases found

/-- Reading may be cut at an ASCII byte. -/
theorem runes_append_ascii (left right : Bytes) {byte : UInt8} (small : byte < 128) :
    runes (left ++ byte :: right) =
      runes left ++ some (Char.ofNat byte.toNat) :: runes right := by
  induction left using reading_induction with
  | nil =>
      have read := runes_encode_append (Char.ofNat byte.toNat) right
      rw [utf8EncodeChar_ascii small] at read
      exact read
  | gap first rest unread ih =>
      have still := decodeRune_append_none right (List.cons_ne_nil first rest) small unread
      rw [List.cons_append] at still ⊢
      rw [runes_cons_of_none still, runes_cons_of_none unread, ih, List.cons_append]
  | rune c rest ih =>
      rw [List.append_assoc, runes_encode_append, runes_encode_append, ih, List.cons_append]

/-- A character that is read is encoded in the string. -/
theorem subset_of_mem_runes {bytes : Bytes} {c : Char} (member : some c ∈ runes bytes) :
    String.utf8EncodeChar c ⊆ bytes := by
  induction bytes using reading_induction with
  | nil => cases member
  | gap first rest unread ih =>
      rw [runes_cons_of_none unread, List.mem_cons] at member
      rcases member with same | member
      · cases same
      · exact List.subset_cons_of_subset first (ih member)
  | rune other rest ih =>
      rw [runes_encode_append, List.mem_cons] at member
      rcases member with same | member
      · cases same
        exact List.subset_append_left _ _
      · exact List.subset_append_of_subset_right _ (ih member)

end Reading

theorem toNat_ofNat_ascii {byte : UInt8} (small : byte < 128) :
    (Char.ofNat byte.toNat).toNat = byte.toNat := by
  have all : ∀ n < 128, (Char.ofNat n).toNat = n := by decide +kernel
  exact all byte.toNat (UInt8.lt_iff_toNat_lt.mp small)

theorem ofNat_ascii_lt {byte : UInt8} (small : byte < 128) :
    (Char.ofNat byte.toNat).toNat < 128 := by
  rw [toNat_ofNat_ascii small]
  exact UInt8.lt_iff_toNat_lt.mp small

namespace CaseMap

variable (m : CaseMap)

/-- `strings.ToLower`. -/
def toLower (bytes : Bytes) : Bytes :=
  (runes bytes).flatMap fun rune => String.utf8EncodeChar ((rune.map m.lower).getD replacement)

theorem toLower_of_isUpper_false {c : Char} (noCapital : c.isUpper = false) : c.toLower = c :=
  dif_neg (of_decide_eq_false noCapital)

/-- A capital becomes a small letter. -/
theorem isLower_toLower_of_isUpper {c : Char} (capital : c.isUpper = true) :
    c.toLower.isLower = true := by
  have range : c.val ≥ 'A'.val ∧ c.val ≤ 'Z'.val := of_decide_eq_true capital
  have bounds : 65 ≤ c.val.toNat ∧ c.val.toNat ≤ 90 :=
    ⟨UInt32.le_iff_toNat_le.mp range.1, UInt32.le_iff_toNat_le.mp range.2⟩
  have value : (c.val + ('a'.val - 'A'.val)).toNat = c.val.toNat + 32 := by
    rw [UInt32.toNat_add]
    change (c.val.toNat + 32) % 2 ^ 32 = c.val.toNat + 32
    omega
  have lowered : c.toLower.val = c.val + ('a'.val - 'A'.val) :=
    congrArg Char.val (dif_pos range : c.toLower = _)
  have letter : 97 ≤ c.toLower.val.toNat ∧ c.toLower.val.toNat ≤ 122 := by
    rw [lowered, value]
    omega
  exact Bool.and_eq_true_iff.mpr ⟨decide_eq_true (UInt32.le_iff_toNat_le.mpr letter.1),
    decide_eq_true (UInt32.le_iff_toNat_le.mpr letter.2)⟩

/-- What does not become a small letter is not changed. -/
theorem toLower_eq_of_isLower_false {c : Char} (noLetter : c.toLower.isLower = false) :
    c.toLower = c := by
  cases capital : c.isUpper with
  | false => exact toLower_of_isUpper_false capital
  | true =>
      rw [isLower_toLower_of_isUpper capital] at noLetter
      cases noLetter

/-- The mapping on ASCII alone. -/
def ascii : CaseMap :=
  ⟨Char.toLower, fun _ _ => rfl, fun _ _ => toLower_eq_of_isLower_false⟩

@[simp] theorem toLower_nil : m.toLower [] = [] :=
  rfl

/-- The lower case of an ASCII letter, on bytes. -/
def lowerByte (byte : UInt8) : UInt8 :=
  if 65 ≤ byte ∧ byte ≤ 90 then byte + 32 else byte

/-- In ASCII the lower case of a character is that of its byte. -/
theorem utf8EncodeChar_toLower {byte : UInt8} (small : byte < 128) :
    String.utf8EncodeChar (Char.ofNat byte.toNat).toLower = [lowerByte byte] := by
  have all : ∀ n < 128, String.utf8EncodeChar (Char.ofNat n).toLower =
      [lowerByte (UInt8.ofNat n)] := by
    decide +kernel
  have own := all byte.toNat (UInt8.lt_iff_toNat_lt.mp small)
  rwa [UInt8.ofNat_toNat] at own

/-- Lower case stays in ASCII, and is taken once and for all. -/
theorem lowerByte_spec {byte : UInt8} (small : byte < 128) :
    lowerByte byte < 128 ∧ lowerByte (lowerByte byte) = lowerByte byte := by
  refine forall_byte_lt (p := fun byte => lowerByte byte < 128 ∧
    lowerByte (lowerByte byte) = lowerByte byte) ?_ (UInt8.lt_iff_toNat_lt.mp small)
  decide +kernel

theorem lowerByte_of_isUpper_false {byte : UInt8} (small : byte < 128)
    (noCapital : (Char.ofNat byte.toNat).isUpper = false) : lowerByte byte = byte := by
  have encoded := utf8EncodeChar_toLower small
  rw [toLower_of_isUpper_false noCapital, utf8EncodeChar_ascii small] at encoded
  exact (List.singleton_inj.mp encoded).symm

/-- A string may be cut at an ASCII byte. -/
theorem toLower_append_ascii (left right : Bytes) {byte : UInt8} (small : byte < 128) :
    m.toLower (left ++ byte :: right) = m.toLower left ++ lowerByte byte :: m.toLower right := by
  rw [toLower, runes_append_ascii left right small, List.flatMap_append, List.flatMap_cons,
    Option.map_some, Option.getD_some, m.onAscii _ (ofNat_ascii_lt small),
    utf8EncodeChar_toLower small]
  rfl

/-- A string may be cut at an ASCII byte that is no capital letter. -/
theorem toLower_append (left right : Bytes) {byte : UInt8} (small : byte < 128)
    (noCapital : (Char.ofNat byte.toNat).isUpper = false) :
    m.toLower (left ++ byte :: right) = m.toLower left ++ byte :: m.toLower right := by
  rw [m.toLower_append_ascii left right small, lowerByte_of_isUpper_false small noCapital]

/-- The case of the ASCII letters behind any start does not matter. -/
theorem toLower_append_map_lowerByte (left right : Bytes) :
    m.toLower (left ++ right.map lowerByte) = m.toLower (left ++ right) := by
  induction right generalizing left with
  | nil => rfl
  | cons byte right ih =>
      by_cases small : byte < 128
      · -- The string is cut at the byte, and the part behind it has no start.
        have rest := ih []
        rw [List.nil_append, List.nil_append] at rest
        obtain ⟨lowered, again⟩ := lowerByte_spec small
        rw [List.map_cons, m.toLower_append_ascii left _ lowered,
          m.toLower_append_ascii left right small, again, rest]
      · have same : lowerByte byte = byte := by
          refine if_neg ?_
          rintro ⟨_, above⟩
          exact small (UInt8.lt_of_le_of_lt above (by decide))
        rw [List.map_cons, same, List.append_cons, ih, ← List.append_cons]

/-- Strings that differ only in the case of ASCII letters have the same lower case. -/
theorem toLower_eq_of_map_lowerByte_eq {left right : Bytes}
    (same : left.map lowerByte = right.map lowerByte) : m.toLower left = m.toLower right := by
  have first := m.toLower_append_map_lowerByte [] left
  have second := m.toLower_append_map_lowerByte [] right
  rw [List.nil_append, List.nil_append] at first second
  rw [← first, same, second]

/-- ASCII without capital letters is in lower case. -/
theorem toLower_eq_self {bytes : Bytes}
    (lower : ∀ byte ∈ bytes, byte < 128 ∧ (Char.ofNat byte.toNat).isUpper = false) :
    m.toLower bytes = bytes := by
  induction bytes with
  | nil => rfl
  | cons byte rest ih =>
      have first := lower byte List.mem_cons_self
      have cut := m.toLower_append [] rest first.1 first.2
      rw [ih fun other member => lower other (List.mem_cons_of_mem byte member)] at cut
      exact cut

/-- An ASCII byte that is no letter is in the lower-cased string only if it is in the
string. -/
theorem mem_of_mem_toLower {bytes : Bytes} {byte : UInt8} (small : byte < 128)
    (noLetter : (Char.ofNat byte.toNat).isAlpha = false) (member : byte ∈ m.toLower bytes) :
    byte ∈ bytes := by
  have value := toNat_ofNat_ascii small
  have bound : byte.toNat < 128 := UInt8.lt_iff_toNat_lt.mp small
  obtain ⟨rune, read, member⟩ := List.mem_flatMap.mp member
  have same := eq_of_mem_utf8EncodeChar small member
  cases rune with
  | none =>
      have large : replacement.toNat = 0xFFFD := by decide
      rw [Option.map_none, Option.getD_none] at same
      rw [same, value] at large
      omega
  | some c =>
      rw [Option.map_some, Option.getD_some] at same
      rw [← same] at noLetter
      have noLower := (Bool.or_eq_false_iff.mp noLetter).2
      have itself := m.fixes c (by rw [same, value]; exact bound) noLower
      have encoded := subset_of_mem_runes read
      rw [← itself, same, utf8EncodeChar_ascii small] at encoded
      exact encoded List.mem_cons_self

end CaseMap

section Upper

/-- `strings.Map`, for a mapping that drops no character. -/
def mapRunes (f : Char → Char) (bytes : Bytes) : Bytes :=
  (runes bytes).flatMap fun rune => String.utf8EncodeChar ((rune.map f).getD replacement)

/-- A mapping that keeps the ASCII characters of a string in ASCII maps its bytes. -/
theorem mapRunes_eq_map {f : Char → Char} {g : UInt8 → UInt8} {bytes : Bytes}
    (small : ∀ byte ∈ bytes, byte < 128)
    (mapped : ∀ byte < 128, String.utf8EncodeChar (f (Char.ofNat byte.toNat)) = [g byte]) :
    mapRunes f bytes = bytes.map g := by
  induction bytes with
  | nil => rfl
  | cons byte rest ih =>
      have first := small byte List.mem_cons_self
      have read := runes_append_ascii [] rest first
      rw [List.nil_append] at read
      have tail : mapRunes f rest = rest.map g :=
        ih fun other member => small other (List.mem_cons_of_mem byte member)
      rw [mapRunes, read, List.flatMap_append, List.flatMap_cons, Option.map_some,
        Option.getD_some, mapped byte first, List.map_cons, ← tail]
      rfl

/-- On ASCII texts Go's lower case is that of the bytes, whatever the tables of Unicode say. -/
theorem CaseMap.toLower_eq_map (m : CaseMap) {bytes : Bytes} (small : ∀ byte ∈ bytes, byte < 128) :
    m.toLower bytes = bytes.map CaseMap.lowerByte := by
  refine mapRunes_eq_map small fun byte ascii => ?_
  rw [m.onAscii _ (ofNat_ascii_lt ascii), CaseMap.utf8EncodeChar_toLower ascii]

/-- A mapping of characters to upper case. -/
structure UpperMap where
  upper : Char → Char
  onAscii : ∀ c, c.toNat < 128 → upper c = c.toUpper

namespace UpperMap

variable (m : UpperMap)

/-- `strings.ToUpper`. -/
def toUpper (bytes : Bytes) : Bytes :=
  mapRunes m.upper bytes

/-- The mapping on ASCII alone. -/
def ascii : UpperMap :=
  ⟨Char.toUpper, fun _ _ => rfl⟩

/-- The upper case of an ASCII letter, on bytes. -/
def upperByte (byte : UInt8) : UInt8 :=
  if 97 ≤ byte ∧ byte ≤ 122 then byte - 32 else byte

/-- In ASCII the upper case of a character is that of its byte. -/
theorem utf8EncodeChar_toUpper {byte : UInt8} (small : byte < 128) :
    String.utf8EncodeChar (Char.ofNat byte.toNat).toUpper = [upperByte byte] := by
  have all : ∀ n < 128, String.utf8EncodeChar (Char.ofNat n).toUpper =
      [upperByte (UInt8.ofNat n)] := by
    decide +kernel
  have own := all byte.toNat (UInt8.lt_iff_toNat_lt.mp small)
  rwa [UInt8.ofNat_toNat] at own

/-- On ASCII texts Go's upper case is that of the bytes. -/
theorem toUpper_eq_map {bytes : Bytes} (small : ∀ byte ∈ bytes, byte < 128) :
    m.toUpper bytes = bytes.map upperByte := by
  refine mapRunes_eq_map small fun byte ascii => ?_
  rw [m.onAscii _ (ofNat_ascii_lt ascii), utf8EncodeChar_toUpper ascii]

end UpperMap

end Upper

end Foundation

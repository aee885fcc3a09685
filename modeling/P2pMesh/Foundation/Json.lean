import P2pMesh.Foundation.JsonStrings

/-! # JSON values and records

The values that `encoding/json` reads from a text, and how it reads a struct: members
of other names are ignored, names are compared without regard to case, a later member
replaces an earlier one, `null` leaves a field as it is, and a value of another type is
an error. Objects with strings and integers as members are read back as they were
written (`Foundation.Json.readValue_writeObject`).
-/

namespace Foundation.Json

/-- The value of a JSON text. -/
inductive Value where
  | null
  | bool (value : Bool)
  | number (text : List Char)
  | string (chars : List Char)
  | array (elements : List Value)
  | object (members : List (List Char × Value))

/-- The code points of a text that are left to read. -/
abbrev Input := List (Option Char)

/-- What follows white space. -/
def skipSpace : Input → Input
  | some c :: rest => if isSpace c then skipSpace rest else some c :: rest
  | input => input

/-- The given characters, and what follows them. -/
def expect : List Char → Input → Option Input
  | [], input => some input
  | c :: word, some d :: rest => if c = d then expect word rest else none
  | _ :: _, _ => none

/-- A piece in front of those that are read after it. -/
def pushPiece (piece : Piece) (read : Option (List Piece × Input)) :
    Option (List Piece × Input) :=
  read.map fun (pieces, rest) => (piece :: pieces, rest)

/-- Where a literal is read: outside an escape, after a backslash, or with hexadecimal
digits missing. -/
inductive Place where
  | text
  | escape
  | hex (missing acc : Nat)

/-- A literal after its opening quote. -/
def readLiteral : Place → Input → Option (List Piece × Input)
  | _, [] => none
  | .text, none :: rest => pushPiece (.char replacement) (readLiteral .text rest)
  | _, none :: _ => none
  | .text, some c :: rest =>
      if c = '"' then some ([], rest)
      else if c = '\\' then readLiteral .escape rest
      else if c.toNat < 32 then none
      else pushPiece (.char c) (readLiteral .text rest)
  | .escape, some c :: rest =>
      if c = 'u' then readLiteral (.hex 4 0) rest
      else
        match unescape c with
        | some meaning => pushPiece (.char meaning) (readLiteral .text rest)
        | none => none
  | .hex missing acc, some c :: rest =>
      match hexValue c with
      | none => none
      | some digit =>
          if missing ≤ 1 then pushPiece (.unit (16 * acc + digit)) (readLiteral .text rest)
          else readLiteral (.hex (missing - 1) (16 * acc + digit)) rest

/-- The digits at the front. -/
def readDigits : Input → List Char × Input
  | some c :: rest =>
      if c.isDigit then (c :: (readDigits rest).1, (readDigits rest).2) else ([], some c :: rest)
  | input => ([], input)

/-- At least one digit. -/
def readSomeDigits (input : Input) : Option (List Char × Input) :=
  if (readDigits input).1 = [] then none else some (readDigits input)

/-- The digits before the point: a zero, or digits without a leading zero. -/
def readWhole : Input → Option (List Char × Input)
  | some c :: rest => if c = '0' then some ([c], rest) else readSomeDigits (some c :: rest)
  | _ => none

/-- A point with digits, or nothing. -/
def readFraction : Input → Option (List Char × Input)
  | some c :: rest =>
      if c = '.' then (readSomeDigits rest).map fun (digits, rest) => (c :: digits, rest)
      else some ([], some c :: rest)
  | input => some ([], input)

/-- An exponent with its sign, or nothing. -/
def readExponent : Input → Option (List Char × Input)
  | some c :: rest =>
      if c = 'e' ∨ c = 'E' then
        match rest with
        | some sign :: more =>
            if sign = '+' ∨ sign = '-' then
              (readSomeDigits more).map fun (digits, rest) => (c :: sign :: digits, rest)
            else (readSomeDigits rest).map fun (digits, rest) => (c :: digits, rest)
        | _ => none
      else some ([], some c :: rest)
  | input => some ([], input)

/-- A number without its sign. -/
def readUnsigned (input : Input) : Option (List Char × Input) :=
  (readWhole input).bind fun (whole, rest) =>
    (readFraction rest).bind fun (fraction, rest) =>
      (readExponent rest).map fun (exponent, rest) => (whole ++ fraction ++ exponent, rest)

/-- A number. -/
def readNumber : Input → Option (List Char × Input)
  | some c :: rest =>
      if c = '-' then (readUnsigned rest).map fun (text, rest) => (c :: text, rest)
      else readUnsigned (some c :: rest)
  | _ => none

mutual

/-- A value within a depth of nesting; every nested call uses fuel. -/
def readValue : Nat → Nat → Input → Option (Value × Input)
  | 0, _, _ => none
  | fuel + 1, depth, input =>
      match skipSpace input with
      | some c :: rest =>
          if c = '"' then
            (readLiteral .text rest).map fun (pieces, rest) => (.string (joinPieces pieces), rest)
          else if c = '\x7b' then
            if depth = 0 then none
            else
              match expect ['\x7d'] (skipSpace rest) with
              | some rest => some (.object [], rest)
              | none =>
                  (readMembers fuel (depth - 1) rest).map
                    fun (members, rest) => (.object members, rest)
          else if c = '[' then
            if depth = 0 then none
            else
              match expect [']'] (skipSpace rest) with
              | some rest => some (.array [], rest)
              | none =>
                  (readElements fuel (depth - 1) rest).map
                    fun (elements, rest) => (.array elements, rest)
          else if c = 't' then (expect ['r', 'u', 'e'] rest).map fun rest => (.bool true, rest)
          else if c = 'f' then
            (expect ['a', 'l', 's', 'e'] rest).map fun rest => (.bool false, rest)
          else if c = 'n' then (expect ['u', 'l', 'l'] rest).map fun rest => (.null, rest)
          else (readNumber (some c :: rest)).map fun (text, rest) => (.number text, rest)
      | _ => none

/-- The members of an object up to its closing brace. -/
def readMembers : Nat → Nat → Input → Option (List (List Char × Value) × Input)
  | 0, _, _ => none
  | fuel + 1, depth, input =>
      (expect ['"'] (skipSpace input)).bind fun rest =>
        (readLiteral .text rest).bind fun (name, rest) =>
          (expect [':'] (skipSpace rest)).bind fun rest =>
            (readValue fuel depth rest).bind fun (value, rest) =>
              match skipSpace rest with
              | some c :: rest =>
                  if c = ',' then
                    (readMembers fuel depth rest).map
                      fun (members, rest) => ((joinPieces name, value) :: members, rest)
                  else if c = '\x7d' then some ([(joinPieces name, value)], rest)
                  else none
              | _ => none

/-- The elements of an array up to its closing bracket. -/
def readElements : Nat → Nat → Input → Option (List Value × Input)
  | 0, _, _ => none
  | fuel + 1, depth, input =>
      (readValue fuel depth input).bind fun (value, rest) =>
        match skipSpace rest with
        | some c :: rest =>
            if c = ',' then
              (readElements fuel depth rest).map fun (elements, rest) => (value :: elements, rest)
            else if c = ']' then some ([value], rest)
            else none
        | _ => none

end

/-- The nesting that `encoding/json` accepts. -/
def maxNestingDepth : Nat := 10000

/-- The first value of a text, as `json.Decoder` reads it, and what follows. Of two
nested calls of the reader one at least has read a character. -/
def readFirst (text : Bytes) : Option (Value × Input) :=
  readValue (2 * (runes text).length + 2) maxNestingDepth (runes text)

/-- The value of a text, as `json.Unmarshal` reads it. -/
def readText (text : Bytes) : Option Value :=
  match readFirst text with
  | some (value, rest) => if skipSpace rest = [] then some value else none
  | none => none

/-- `foldName`, as far as it matters for names in ASCII: letters in upper case, with the
two characters outside ASCII that fold to one. -/
def foldRune (c : Char) : Char :=
  if c.toNat = 0x17F then 'S' else if c.toNat = 0x212A then 'K' else c.toUpper

section

variable {Struct : Type} (field : List Char → Option (Struct → Value → Option Struct))

/-- The effect of a member on a struct: `field` gives, for a folded name, how the field
is set. -/
def setMember (struct : Struct) (member : List Char × Value) : Option Struct :=
  match field (member.1.map foldRune) with
  | some set => set struct member.2
  | none => some struct

/-- The effect of all members, in their order. -/
def setMembers (struct : Struct) : List (List Char × Value) → Option Struct
  | [] => some struct
  | member :: members =>
      (setMember field struct member).bind fun changed => setMembers changed members

/-- Reading a struct. -/
def Value.record (zero : Struct) : Value → Option Struct
  | .null => some zero
  | .object members => setMembers field zero members
  | _ => none

end

/-- Setting a `string`. -/
def Value.setString (old : Bytes) : Value → Option Bytes
  | .null => some old
  | .string chars => some (encodeRunes chars)
  | _ => none

/-- `strconv.ParseInt` with 64 bits, of the text of a number. -/
def parseInt64 : List Char → Option Int
  | '-' :: digits =>
      if digits.all Char.isDigit ∧ Nat.ofDigitChars 10 digits 0 ≤ 2 ^ 63 then
        some (-(Nat.ofDigitChars 10 digits 0 : Int))
      else none
  | digits =>
      if digits.all Char.isDigit ∧ Nat.ofDigitChars 10 digits 0 < 2 ^ 63 then
        some (Nat.ofDigitChars 10 digits 0)
      else none

/-- Setting an `int64`. -/
def Value.setInt64 (old : Int) : Value → Option Int
  | .null => some old
  | .number text => parseInt64 text
  | _ => none

/-- The text of an integer. -/
def decimal : Int → List Char
  | .ofNat n => Nat.toDigits 10 n
  | .negSucc n => '-' :: Nat.toDigits 10 (n + 1)

/-- The text of a member. -/
def writeMember (member : Bytes × List Char) : List Char :=
  quote member.1 ++ ':' :: member.2

/-- The texts of members, up to the closing brace. -/
def writeMembers : List (Bytes × List Char) → List Char
  | [] => ['\x7d']
  | [last] => writeMember last ++ ['\x7d']
  | member :: members => writeMember member ++ ',' :: writeMembers members

/-- The text of an object, with the texts of its members' values. -/
def writeObject (members : List (Bytes × List Char)) : List Char :=
  '\x7b' :: writeMembers members

/-- The characters of a byte string, with gaps replaced. -/
def clean (name : Bytes) : List Char :=
  (runes name).map (·.getD replacement)

theorem getD_of_gapless {list : List (Option Char)} (gapless : list.all Option.isSome = true) :
    list.map (·.getD replacement) = list.reduceOption := by
  induction list with
  | nil => rfl
  | cons rune later ih =>
      rw [List.all_cons, Bool.and_eq_true] at gapless
      obtain ⟨c, rfl⟩ := Option.isSome_iff_exists.mp gapless.1
      rw [List.map_cons, ih gapless.2, List.reduceOption_cons_of_some]
      rfl

/-- A name in UTF-8 has no gaps to replace. -/
theorem encodeRunes_clean {name : Bytes} (valid : validUtf8 name = true) :
    encodeRunes (clean name) = name := by
  rw [clean, getD_of_gapless valid, encodeRunes_runes valid]

/-- Cleaning a text does not empty it. -/
theorem encodeRunes_clean_ne_nil {name : Bytes} (nonempty : name ≠ []) :
    encodeRunes (clean name) ≠ [] := by
  cases name with
  | nil => exact absurd rfl nonempty
  | cons byte rest =>
      have first : ∃ rune later, runes (byte :: rest) = rune :: later := by
        simp only [runes, List.length_cons, runesWithin]
        cases decodeRune (byte :: rest) with
        | none => exact ⟨_, _, rfl⟩
        | some c => exact ⟨_, _, rfl⟩
      obtain ⟨rune, later, read⟩ := first
      intro empty
      rw [clean, read, List.map_cons, encodeRunes, List.flatMap_cons,
        List.append_eq_nil_iff] at empty
      have size := String.length_utf8EncodeChar (rune.getD replacement)
      rw [empty.1] at size
      exact absurd size.symm (Nat.ne_of_gt (Char.utf8Size_pos _))

/-- Reading what was written for a character adds a piece that stands for it. -/
theorem readLiteral_written {c : Char} {text : List Char} (written : Written c text)
    (rest : Input) :
    ∃ piece : Piece, piece.Denotes c ∧
      readLiteral .text (text.map some ++ rest) = pushPiece piece (readLiteral .text rest) := by
  cases written with
  | plain notQuote notBackslash printable =>
      refine ⟨_, Piece.denotes_char c, ?_⟩
      simp only [List.map_cons, List.map_nil, List.cons_append, List.nil_append, readLiteral,
        notQuote, notBackslash, printable, ↓reduceIte]
  | short name named meaning =>
      refine ⟨_, Piece.denotes_char c, ?_⟩
      have opens (input : Input) :
          readLiteral .text (some '\\' :: input) = readLiteral .escape input := rfl
      simp only [List.map_cons, List.map_nil, List.cons_append, List.nil_append, opens]
      simp only [readLiteral, named, meaning, ↓reduceIte]
  | unit first second third fourth digits value =>
      refine ⟨_, Piece.denotes_unit c, ?_⟩
      obtain ⟨low1, low2, low3, low4⟩ := digits
      have opens (input : Input) :
          readLiteral .text (some '\\' :: some 'u' :: input) = readLiteral (.hex 4 0) input := rfl
      simp only [List.map_cons, List.map_nil, List.cons_append, List.nil_append, opens]
      simp [readLiteral, hexValue_hexDigit, low1, low2, low3, low4, ← value]

/-- Reading a quoted name after its opening quote. -/
theorem readLiteral_quote (name : Bytes) (rest : Input) :
    ∃ pieces, joinPieces pieces = clean name ∧
      readLiteral .text (((runes name).flatMap escapeRune ++ ['"']).map some ++ rest) =
        some (pieces, rest) := by
  unfold clean
  induction runes name with
  | nil => exact ⟨[], rfl, rfl⟩
  | cons rune later ih =>
      obtain ⟨pieces, joined, read⟩ := ih
      obtain ⟨piece, denotes, first⟩ := readLiteral_written (escapeRune_written rune)
        ((later.flatMap escapeRune ++ ['"']).map some ++ rest)
      refine ⟨piece :: pieces, by rw [denotes, joined, List.map_cons], ?_⟩
      rw [List.flatMap_cons, List.append_assoc, List.map_append, List.append_assoc, first, read]
      rfl

/-- What follows does not continue a number. -/
def Ends (rest : Input) : Prop :=
  ∀ c more, rest = some c :: more → c.isDigit = false ∧ c ≠ '.' ∧ c ≠ 'e' ∧ c ≠ 'E'

/-- The text is read as the value, whatever follows. -/
def Reads (text : List Char) (value : Value) : Prop :=
  ∀ fuel depth rest, Ends rest →
    readValue (fuel + 1) depth (text.map some ++ rest) = some (value, rest)

/-- A number ends before a character that cannot continue it. -/
theorem ends_of_cons {c : Char} (more : Input)
    (ends : c.isDigit = false ∧ c ≠ '.' ∧ c ≠ 'e' ∧ c ≠ 'E') : Ends (some c :: more) := by
  intro d _ same
  cases same
  exact ends

theorem skipSpace_cons {c : Char} (visible : isSpace c = false) (rest : Input) :
    skipSpace (some c :: rest) = some c :: rest := by
  rw [skipSpace, visible]
  rfl

/-- A quoted text is read back as JSON carries it, whatever follows. -/
theorem reads_quote (name : Bytes) : Reads (quote name) (.string (clean name)) := by
  intro fuel depth rest _
  obtain ⟨pieces, joined, read⟩ := readLiteral_quote name rest
  rw [quote, List.map_cons, List.cons_append, readValue, skipSpace_cons rfl]
  simp only [↓reduceIte, read, Option.map_some, joined]

/-- Digits are read up to the end of the number. -/
theorem readDigits_append {digits : List Char} (all : ∀ c ∈ digits, c.isDigit = true)
    {rest : Input} (ends : Ends rest) : readDigits (digits.map some ++ rest) = (digits, rest) := by
  induction digits with
  | nil =>
      cases rest with
      | nil => rfl
      | cons first more =>
          cases first with
          | none => rfl
          | some c =>
              have other := (ends c more rfl).1
              simp only [List.map_nil, List.nil_append, readDigits, other, Bool.false_eq_true,
                ↓reduceIte]
  | cons c digits ih =>
      have isDigit := all c List.mem_cons_self
      have later := ih fun d member => all d (List.mem_cons_of_mem c member)
      simp only [List.map_cons, List.cons_append, readDigits, isDigit, ↓reduceIte, later]

/-- Only zero is written with a leading zero. -/
theorem toDigits_head (n : Nat) :
    ∃ c digits, Nat.toDigits 10 n = c :: digits ∧ (c = '0' → digits = []) := by
  induction n using Nat.strongRecOn with
  | ind n ih =>
      by_cases small : n < 10
      · exact ⟨n.digitChar, [], Nat.toDigits_of_lt_base small, fun _ => rfl⟩
      · obtain ⟨c, digits, front, zero⟩ := ih (n / 10) (by omega)
        have split := Nat.toDigits_append_toDigits (b := 10) (n := n / 10) (d := n % 10)
          (by omega) (by omega) (by omega)
        have whole : 10 * (n / 10) + n % 10 = n := by omega
        rw [whole, front] at split
        refine ⟨c, _, split.symm, fun isZero => ?_⟩
        -- The digits before the last one would be a lone zero.
        exfalso
        have value := Nat.ofDigitChars_toDigits (b := 10) (n := n / 10) (by omega) (by omega)
        rw [front, zero isZero, isZero] at value
        have none : Nat.ofDigitChars 10 ['0'] 0 = 0 := by decide
        omega

/-- A natural number is read back. -/
theorem readUnsigned_toDigits (n : Nat) {rest : Input} (ends : Ends rest) :
    readUnsigned ((Nat.toDigits 10 n).map some ++ rest) = some (Nat.toDigits 10 n, rest) := by
  have all : ∀ c ∈ Nat.toDigits 10 n, c.isDigit = true :=
    fun c member => Nat.isDigit_of_mem_toDigits (by decide) (by decide) member
  obtain ⟨c, digits, written, zero⟩ := toDigits_head n
  have whole : readWhole ((Nat.toDigits 10 n).map some ++ rest) =
      some (Nat.toDigits 10 n, rest) := by
    have read := readDigits_append all ends
    rw [written] at read ⊢
    by_cases isZero : c = '0'
    · rw [zero isZero]
      simp only [List.map_cons, List.map_nil, List.cons_append, List.nil_append, readWhole, isZero,
        ↓reduceIte]
    · rw [List.map_cons, List.cons_append] at read ⊢
      simp only [readWhole, isZero, ↓reduceIte, readSomeDigits, read, reduceCtorEq]
  have fraction : readFraction rest = some ([], rest) := by
    cases rest with
    | nil => rfl
    | cons first more =>
        cases first with
        | none => rfl
        | some c => simp only [readFraction, (ends c more rfl).2.1, ↓reduceIte]
  have exponent : readExponent rest = some ([], rest) := by
    cases rest with
    | nil => rfl
    | cons first more =>
        cases first with
        | none => rfl
        | some c =>
            obtain ⟨_, _, lower, upper⟩ := ends c more rfl
            simp only [readExponent, lower, upper, or_self, ↓reduceIte]
  simp only [readUnsigned, whole, Option.bind_some, fraction, exponent, Option.map_some,
    List.append_nil]

/-- A character that starts a number is read as the start of one. -/
theorem readValue_number {c : Char} (starts : c = '-' ∨ c.isDigit = true) {rest after : Input}
    {text : List Char} (read : readNumber (some c :: rest) = some (text, after))
    (fuel depth : Nat) :
    readValue (fuel + 1) depth (some c :: rest) = some (.number text, after) := by
  have visible : isSpace c = false := by
    rcases starts with rfl | isDigit
    · rfl
    · by_contra space
      simp only [isSpace, Bool.not_eq_false, Bool.or_eq_true, decide_eq_true_eq] at space
      rcases space with ((rfl | rfl) | rfl) | rfl <;> cases isDigit
  have other : c ≠ '"' ∧ c ≠ '\x7b' ∧ c ≠ '[' ∧ c ≠ 't' ∧ c ≠ 'f' ∧ c ≠ 'n' := by
    refine ⟨?_, ?_, ?_, ?_, ?_, ?_⟩ <;>
      (rintro rfl; rcases starts with same | isDigit <;> [cases same; cases isDigit])
  obtain ⟨notQuote, notBrace, notBracket, notT, notF, notN⟩ := other
  rw [readValue, skipSpace_cons visible]
  simp only [notQuote, notBrace, notBracket, notT, notF, notN, ↓reduceIte, read, Option.map_some]

/-- An integer is read back, whatever follows. -/
theorem reads_decimal (n : Int) : Reads (decimal n) (.number (decimal n)) := by
  intro fuel depth rest ends
  cases n with
  | ofNat n =>
      have read := readUnsigned_toDigits n ends
      obtain ⟨c, digits, written, _⟩ := toDigits_head n
      have isDigit : c.isDigit = true := by
        apply Nat.isDigit_of_mem_toDigits (b := 10) (n := n) (by decide) (by decide)
        rw [written]
        exact List.mem_cons_self
      have unsigned : c ≠ '-' := by
        rintro rfl
        cases isDigit
      simp only [decimal]
      rw [written, List.map_cons, List.cons_append] at read ⊢
      apply readValue_number (Or.inr isDigit)
      simp only [readNumber, unsigned, ↓reduceIte, read]
  | negSucc n =>
      simp only [decimal, List.map_cons, List.cons_append]
      apply readValue_number (Or.inl rfl)
      simp only [readNumber, ↓reduceIte, readUnsigned_toDigits (n + 1) ends, Option.map_some]

theorem all_isDigit_toDigits (n : Nat) : (Nat.toDigits 10 n).all Char.isDigit = true := by
  rw [List.all_eq_true]
  intro c member
  exact Nat.isDigit_of_mem_toDigits (by decide) (by decide) member

/-- The text of an integer within 64 bits is parsed to it. -/
theorem parseInt64_decimal {n : Int} (low : -2 ^ 63 ≤ n) (high : n < 2 ^ 63) :
    parseInt64 (decimal n) = some n := by
  cases n with
  | ofNat n =>
      have value : Nat.ofDigitChars 10 (Nat.toDigits 10 n) 0 = n :=
        Nat.ofDigitChars_toDigits (by decide) (by decide)
      have all := all_isDigit_toDigits n
      have small : n < 2 ^ 63 := by
        simp only [Int.ofNat_eq_natCast] at high
        omega
      obtain ⟨c, digits, written, _⟩ := toDigits_head n
      have unsigned : c ≠ '-' := by
        rintro rfl
        rw [written] at all
        cases all
      simp only [decimal]
      rw [written] at value all ⊢
      unfold parseInt64
      split
      · next tail same =>
          exact absurd (List.cons.inj same).1 unsigned
      · simp only [value, all, small, and_self, ↓reduceIte]
        rfl
  | negSucc n =>
      have value : Nat.ofDigitChars 10 (Nat.toDigits 10 (n + 1)) 0 = n + 1 :=
        Nat.ofDigitChars_toDigits (by decide) (by decide)
      have small : n + 1 ≤ 2 ^ 63 := by omega
      simp only [decimal, parseInt64, value, all_isDigit_toDigits, small, and_self, ↓reduceIte]
      rfl

/-- A member is set in the field that its name folds to. -/
theorem setMember_eq {Struct : Type} (field : List Char → Option (Struct → Value → Option Struct))
    {folded name : List Char} {set : Struct → Value → Option Struct}
    (same : name.map foldRune = folded) (known : field folded = some set) (struct : Struct)
    (value : Value) : setMember field struct (name, value) = set struct value := by
  simp only [setMember, same, known]

/-- A member: its name, the text of its value, and the value. -/
structure Member where
  name : Bytes
  text : List Char
  value : Value
  reads : Reads text value

/-- A member as it is written. -/
def Member.written (member : Member) : Bytes × List Char :=
  (member.name, member.text)

/-- A member as it is read. -/
def Member.read (member : Member) : List Char × Value :=
  (clean member.name, member.value)

/-- The name, the colon and the value of a member are read in turn. -/
theorem readMember_written (member : Member) (fuel depth : Nat) {rest : Input} (ends : Ends rest) :
    ∃ afterQuote pieces afterName afterColon,
      expect ['"'] (skipSpace ((writeMember member.written).map some ++ rest)) = some afterQuote ∧
      readLiteral .text afterQuote = some (pieces, afterName) ∧
      expect [':'] (skipSpace afterName) = some afterColon ∧
      readValue (fuel + 1) depth afterColon = some (member.value, rest) ∧
      joinPieces pieces = clean member.name := by
  obtain ⟨pieces, joined, read⟩ := readLiteral_quote member.name
    (some ':' :: (member.text.map some ++ rest))
  refine ⟨_, pieces, _, _, ?_, read, rfl, member.reads fuel depth rest ends, joined⟩
  simp only [writeMember, Member.written, quote, List.cons_append, List.map_cons, List.map_append,
    List.append_assoc]
  rfl

/-- The last member of an object is read up to the brace. -/
theorem readMembers_last (member : Member) (fuel depth : Nat) (rest : Input) :
    readMembers (fuel + 2) depth ((writeMember member.written).map some ++ some '\x7d' :: rest) =
      some ([member.read], rest) := by
  have ends : Ends (some '\x7d' :: rest) := ends_of_cons rest (by decide)
  obtain ⟨afterQuote, pieces, afterName, afterColon, opens, name, colon, value, joined⟩ :=
    readMember_written member fuel depth ends
  rw [readMembers, opens, Option.bind_some, name, Option.bind_some]
  simp only [colon, Option.bind_some, value, joined]
  rfl

/-- A member before a comma is read, and reading goes on. -/
theorem readMembers_more (member : Member) {fuel depth : Nat} {rest after : Input}
    {members : List (List Char × Value)}
    (read : readMembers (fuel + 1) depth rest = some (members, after)) :
    readMembers (fuel + 2) depth ((writeMember member.written).map some ++ some ',' :: rest) =
      some (member.read :: members, after) := by
  have ends : Ends (some ',' :: rest) := ends_of_cons rest (by decide)
  obtain ⟨afterQuote, pieces, afterName, afterColon, opens, name, colon, value, joined⟩ :=
    readMember_written member fuel depth ends
  rw [readMembers, opens, Option.bind_some, name, Option.bind_some]
  simp only [colon, Option.bind_some, value, joined, skipSpace_cons (c := ',') rfl, ↓reduceIte,
    read, Option.map_some]
  rfl

/-- The members of an object are read back, in the fuel that their number gives. -/
theorem readMembers_written (members : List Member) (nonempty : members ≠ []) {fuel : Nat}
    (enough : members.length < fuel) (depth : Nat) (rest : Input) :
    readMembers fuel depth ((writeMembers (members.map Member.written)).map some ++ rest) =
      some (members.map Member.read, rest) := by
  induction members generalizing fuel with
  | nil => exact absurd rfl nonempty
  | cons member members ih =>
      obtain ⟨spare, rfl⟩ : ∃ spare, fuel = spare + 2 := ⟨fuel - 2, by
        rw [List.length_cons] at enough
        omega⟩
      cases members with
      | nil =>
          simp only [List.map_cons, List.map_nil, writeMembers, List.map_append, List.append_assoc,
            List.cons_append, List.nil_append]
          exact readMembers_last member spare depth rest
      | cons second members =>
          have fewer : (second :: members).length < spare + 1 := by
            rw [List.length_cons] at enough
            omega
          have later := ih (List.cons_ne_nil _ _) fewer
          have split : writeMembers ((member :: second :: members).map Member.written) =
              writeMember member.written ++
                ',' :: writeMembers ((second :: members).map Member.written) := rfl
          rw [split, List.map_append, List.append_assoc, List.map_cons, List.cons_append]
          exact readMembers_more member later

/-- An object is read back from the text that was written for it. -/
theorem readValue_writeObject (members : List Member) (nonempty : members ≠ []) {fuel : Nat}
    (enough : members.length < fuel) (depth : Nat) (rest : Input) :
    readValue (fuel + 1) (depth + 1) ((writeObject (members.map Member.written)).map some ++ rest) =
      some (.object (members.map Member.read), rest) := by
  have written := readMembers_written members nonempty enough depth rest
  have noBrace : expect ['\x7d'] (skipSpace
      ((writeMembers (members.map Member.written)).map some ++ rest)) = none := by
    cases members with
    | nil => exact absurd rfl nonempty
    | cons member members => cases members <;> rfl
  rw [writeObject, List.map_cons, List.cons_append, readValue, skipSpace_cons rfl]
  simp only [Char.reduceEq, ↓reduceIte, noBrace, Nat.add_sub_cancel, written, Option.map_some,
    Nat.succ_ne_zero]

/-- The text of an object has more characters than members. -/
theorem length_writeMembers (members : List Member) :
    members.length < (writeMembers (members.map Member.written)).length := by
  induction members with
  | nil => decide
  | cons member members ih =>
      have name : 0 < (writeMember member.written).length := by
        rw [writeMember, List.length_append, List.length_cons]
        omega
      cases members with
      | nil =>
          simp only [List.map_cons, List.map_nil, writeMembers, List.length_append,
            List.length_cons, List.length_nil]
          omega
      | cons second members =>
          simp only [List.map_cons, writeMembers, List.length_append, List.length_cons] at ih ⊢
          omega

/-- An object is read back, with nothing left. -/
theorem readFirst_writeObject (members : List Member) (nonempty : members ≠ []) :
    readFirst (encodeRunes (writeObject (members.map Member.written))) =
      some (.object (members.map Member.read), []) := by
  have longer := length_writeMembers members
  have enough : members.length <
      2 * ((writeObject (members.map Member.written)).map some).length + 1 := by
    rw [List.length_map, writeObject, List.length_cons]
    omega
  have read := readValue_writeObject members nonempty enough 9999 []
  rw [List.append_nil] at read
  rw [readFirst, runes_encodeRunes]
  exact read

/-- A text that is one object is read back. -/
theorem readText_writeObject (members : List Member) (nonempty : members ≠ []) :
    readText (encodeRunes (writeObject (members.map Member.written))) =
      some (.object (members.map Member.read)) := by
  rw [readText, readFirst_writeObject members nonempty]
  rfl

/-- A text in ASCII that is written between quotes as it is. -/
def isPlain (text : Bytes) : Bool :=
  text.all fun byte => byte < 128 ∧
    escapeRune (some (Char.ofNat byte.toNat)) = [Char.ofNat byte.toNat]

/-- The characters of a plain text are its bytes, with no escapes. -/
theorem exists_chars_of_plain {text : Bytes} (plain : isPlain text = true) :
    ∃ chars, encodeRunes chars = text ∧ chars.flatMap (fun c => escapeRune (some c)) = chars := by
  induction text with
  | nil => exact ⟨[], rfl, rfl⟩
  | cons byte later ih =>
      rw [isPlain, List.all_cons, Bool.and_eq_true, decide_eq_true_eq] at plain
      obtain ⟨⟨small, unescaped⟩, plain⟩ := plain
      obtain ⟨chars, rfl, rest⟩ := ih plain
      refine ⟨Char.ofNat byte.toNat :: chars, ?_, ?_⟩
      · rw [encodeRunes, List.flatMap_cons, utf8EncodeChar_ascii small]
        rfl
      · rw [List.flatMap_cons, unescaped, rest]
        rfl

/-- A plain text is quoted as it is. -/
theorem quote_of_plain {text : Bytes} (plain : isPlain text = true) :
    quote text = '"' :: (clean text ++ ['"']) := by
  obtain ⟨chars, rfl, unescaped⟩ := exists_chars_of_plain plain
  rw [quote, clean, runes_encodeRunes, List.flatMap_map, unescaped, List.map_map]
  simp

/-- A plain text is carried by JSON as it is. -/
theorem encodeRunes_clean_of_plain {text : Bytes} (plain : isPlain text = true) :
    encodeRunes (clean text) = text := by
  obtain ⟨chars, rfl, _⟩ := exists_chars_of_plain plain
  rw [clean, runes_encodeRunes, List.map_map]
  simp

end Foundation.Json

import P2pMesh.Foundation.Utf8

/-! # JSON strings

What `json.Marshal` writes for the code points of a string, and what the escapes of a literal
stand for. A literal is read as pieces, since an escaped surrogate is judged by the piece after
it. Whatever is written for a code point is one of three forms
(`Foundation.Json.escapeRune_written`).
-/

namespace Foundation.Json

/-- The hexadecimal digit of a number below sixteen. -/
def hexDigit (value : Nat) : Char :=
  if value < 10 then Char.ofNat (48 + value) else Char.ofNat (87 + value)

/-- The number of a hexadecimal digit, in either case. -/
def hexValue (c : Char) : Option Nat :=
  if 48 ≤ c.toNat ∧ c.toNat ≤ 57 then some (c.toNat - 48)
  else if 97 ≤ c.toNat ∧ c.toNat ≤ 102 then some (c.toNat - 87)
  else if 65 ≤ c.toNat ∧ c.toNat ≤ 70 then some (c.toNat - 55)
  else none

/-- The two-character escapes, by the character after the backslash. -/
def unescape (c : Char) : Option Char :=
  if c = '"' ∨ c = '\\' ∨ c = '/' then some c
  else if c = 'b' then some (Char.ofNat 8)
  else if c = 'f' then some (Char.ofNat 12)
  else if c = 'n' then some (Char.ofNat 10)
  else if c = 'r' then some (Char.ofNat 13)
  else if c = 't' then some (Char.ofNat 9)
  else none

/-- What is written for one code point, with HTML characters escaped; a gap is
written as the replacement character. -/
def escapeRune : Option Char → List Char
  | none => ['\\', 'u', 'f', 'f', 'f', 'd']
  | some c =>
      if c = '"' ∨ c = '\\' then ['\\', c]
      else if c.toNat = 8 then ['\\', 'b']
      else if c.toNat = 12 then ['\\', 'f']
      else if c.toNat = 10 then ['\\', 'n']
      else if c.toNat = 13 then ['\\', 'r']
      else if c.toNat = 9 then ['\\', 't']
      else if c.toNat < 32 ∨ c = '<' ∨ c = '>' ∨ c = '&' then
        ['\\', 'u', '0', '0', hexDigit (c.toNat / 16), hexDigit (c.toNat % 16)]
      else if c.toNat = 0x2028 ∨ c.toNat = 0x2029 then
        ['\\', 'u', '2', '0', '2', hexDigit (c.toNat % 16)]
      else [c]

/-- The literal of a string. -/
def quote (name : Bytes) : List Char :=
  '"' :: ((runes name).flatMap escapeRune ++ ['"'])

/-- A piece of a literal: a character, or the code unit of a `\u` escape. -/
inductive Piece where
  | char (c : Char)
  | unit (value : Nat)
deriving DecidableEq, Repr

/-- The characters of a literal; a surrogate outside a pair is replaced. -/
def joinPieces : List Piece → List Char
  | [] => []
  | .char c :: rest => c :: joinPieces rest
  | .unit high :: rest =>
      if 0xD800 ≤ high ∧ high < 0xE000 then
        match rest with
        | .unit low :: more =>
            if high < 0xDC00 ∧ 0xDC00 ≤ low ∧ low < 0xE000 then
              Char.ofNat (0x10000 + (high - 0xD800) * 0x400 + (low - 0xDC00)) :: joinPieces more
            else replacement :: joinPieces (.unit low :: more)
        | .char c :: more => replacement :: joinPieces (.char c :: more)
        | [] => [replacement]
      else Char.ofNat high :: joinPieces rest

/-- The white space of JSON. -/
def isSpace (c : Char) : Bool :=
  c = ' ' || c = '\t' || c = '\r' || c = '\n'

/-- A digit of an escape is read back. -/
theorem hexValue_hexDigit {value : Nat} (digit : value < 16) :
    hexValue (hexDigit value) = some value := by
  have all : ∀ value < 16, hexValue (hexDigit value) = some value := by decide
  exact all value digit

/-- A piece that stands for a character whatever follows it. -/
def Piece.Denotes (piece : Piece) (c : Char) : Prop :=
  ∀ rest, joinPieces (piece :: rest) = c :: joinPieces rest

/-- A character that is written as it is stands for itself. -/
theorem Piece.denotes_char (c : Char) : (Piece.char c).Denotes c := by
  intro rest
  rfl

/-- An escape with the number of a character stands for it. -/
theorem Piece.denotes_unit (c : Char) : (Piece.unit c.toNat).Denotes c := by
  intro rest
  have scalar : ¬ (0xD800 ≤ c.toNat ∧ c.toNat < 0xE000) := by
    rcases c.valid with low | ⟨high, _⟩
    · exact fun surrogate => Nat.not_le.mpr low surrogate.1
    · exact fun surrogate => Nat.not_le.mpr surrogate.2 high
  rw [joinPieces.eq_def]
  simp only [scalar, ↓reduceIte, Char.ofNat_toNat]

/-- The ways in which a character is written in a literal. -/
inductive Written (c : Char) : List Char → Prop where
  | plain (notQuote : c ≠ '"') (notBackslash : c ≠ '\\') (printable : ¬ c.toNat < 32) :
      Written c [c]
  | short (name : Char) (named : name ≠ 'u') (meaning : unescape name = some c) :
      Written c ['\\', name]
  | unit (first second third fourth : Nat) (digits : first < 16 ∧ second < 16 ∧ third < 16 ∧
        fourth < 16) (value : 16 * (16 * (16 * first + second) + third) + fourth = c.toNat) :
      Written c ['\\', 'u', hexDigit first, hexDigit second, hexDigit third, hexDigit fourth]

/-- Every rune is written as a piece that stands for it, or for the replacement. -/
theorem escapeRune_written (rune : Option Char) :
    Written (rune.getD replacement) (escapeRune rune) := by
  cases rune with
  | none => exact .unit 15 15 15 13 (by decide) (by decide)
  | some c =>
      by_cases quoted : c = '"' ∨ c = '\\'
      · simp only [escapeRune, quoted, ↓reduceIte]
        rcases quoted with rfl | rfl <;> exact .short _ (by decide) rfl
      by_cases short : c.toNat = 8 ∨ c.toNat = 12 ∨ c.toNat = 10 ∨ c.toNat = 13 ∨ c.toNat = 9
      · have named : c = Char.ofNat c.toNat := (Char.ofNat_toNat c).symm
        rcases short with code | code | code | code | code <;>
          (rw [code] at named; subst named; exact .short _ (by decide) rfl)
      obtain ⟨not8, not12, not10, not13, not9⟩ : c.toNat ≠ 8 ∧ c.toNat ≠ 12 ∧ c.toNat ≠ 10 ∧
          c.toNat ≠ 13 ∧ c.toNat ≠ 9 := by
        simpa only [not_or] using short
      simp only [escapeRune, quoted, not8, not12, not10, not13, not9, ↓reduceIte]
      split
      · next escaped =>
          have small : c.toNat < 64 := by
            rcases escaped with control | rfl | rfl | rfl
            · omega
            all_goals decide
          refine .unit 0 0 (c.toNat / 16) (c.toNat % 16) (by omega) ?_
          simp only [Option.getD_some]
          omega
      · next unescaped =>
          split
          · next separator =>
              refine .unit 2 0 2 (c.toNat % 16) (by omega) ?_
              simp only [Option.getD_some]
              omega
          · obtain ⟨notQuote, notBackslash⟩ := not_or.mp quoted
            exact .plain notQuote notBackslash (not_or.mp unescaped).1

end Foundation.Json

import P2pMesh.Foundation.BigEndian
import P2pMesh.Foundation.Splitter
import Mathlib.Algebra.Group.Nat.Even
import Mathlib.Data.List.DropRight

/-! # The statements of a migration

`splitStatements` of `internal/storage/sqlstore.go` cuts a script at the semicolons outside of
string literals. It counts every apostrophe and knows no comments. Where a script is to be cut
is defined apart from it, by the regions of a script: literals, in which an apostrophe is
written twice, line comments, and what is outside of both. The two agree just when every
semicolon in a comment has an odd number of apostrophes in comments before it, and every
other semicolon an even one (`P2pMesh.splitStatements_eq_iff`).
-/

namespace P2pMesh

open Foundation

namespace Sql

/-- The byte around a literal. -/
def apostrophe : UInt8 := 0x27

/-- The byte after a statement. -/
def semicolon : UInt8 := 0x3b

/-- The byte that opens a comment, twice. -/
def hyphen : UInt8 := 0x2d

/-- The byte that closes a comment. -/
def newline : UInt8 := 0x0a

/-- The bytes that `trimSpace` removes. -/
def isSpace (byte : UInt8) : Bool :=
  byte = 0x20 ∨ byte = 0x09 ∨ byte = 0x0a ∨ byte = 0x0d

end Sql

open Sql

/-- `trimSpace`. -/
def trimSpace (s : Bytes) : Bytes :=
  (s.dropWhile isSpace).rdropWhile isSpace

/-- The variables of the loop of `splitStatements`. -/
structure StatementScan where
  statements : List Bytes
  current : Bytes
  inString : Bool

namespace StatementScan

/-- Append the current statement unless it is blank. -/
def flush (scan : StatementScan) : List Bytes :=
  if trimSpace scan.current ≠ [] then scan.statements ++ [scan.current] else scan.statements

/-- The body of the loop. -/
def read (scan : StatementScan) (ch : UInt8) : StatementScan :=
  let inString := if ch = apostrophe then !scan.inString else scan.inString
  if ch = semicolon ∧ inString = false then ⟨scan.flush, [], inString⟩
  else { scan with current := scan.current ++ [ch], inString := inString }

/-- What follows the loop. -/
def finish (scan : StatementScan) : List Bytes :=
  if scan.current.length > 0 then scan.flush else scan.statements

end StatementScan

/-- `splitStatements`. -/
def splitStatements (script : Bytes) : List Bytes :=
  (script.foldl StatementScan.read ⟨[], [], false⟩).finish

/-! ### Where a script is to be cut -/

namespace Sql

/-- Where a byte of a script stands. After a hyphen a second one begins a comment; an apostrophe
in a literal ends it, unless a second one follows at once. -/
inductive Region where
  | plain
  | hyphen
  | literal
  | closing
  | comment
deriving DecidableEq

namespace Region

/-- The region after a byte that stands outside of literals and comments. -/
def enter (byte : UInt8) : Region :=
  if byte = apostrophe then .literal else if byte = Sql.hyphen then .hyphen else .plain

/-- The region after a byte. -/
def next : Region → UInt8 → Region
  | .plain, byte => enter byte
  | .hyphen, byte => if byte = Sql.hyphen then .comment else enter byte
  | .literal, byte => if byte = apostrophe then .closing else .literal
  | .closing, byte => enter byte
  | .comment, byte => if byte = newline then .plain else .comment

/-- Outside of literals and comments. -/
def outside : Region → Bool
  | .plain => true
  | .hyphen => true
  | .literal => false
  | .closing => true
  | .comment => false

end Region

/-- The lexer of scripts: it cuts at the semicolons outside of literals and comments. -/
def lexer : Splitter UInt8 Region :=
  ⟨.plain, Region.next, Region.outside⟩

/-- The statements of a script. -/
def statements (script : Bytes) : List Bytes :=
  lexer.solidPieces semicolon isSpace script

/-- The apostrophes of a text that stand in comments, when it begins in the region. -/
def commentApostrophes : Region → Bytes → Nat
  | _, [] => 0
  | region, byte :: rest =>
      (if region = .comment ∧ byte = apostrophe then 1 else 0) +
        commentApostrophes (region.next byte) rest

end Sql

/-! ### The scan as a splitter -/

/-- The scan cuts at the semicolons that have an even number of apostrophes before them. -/
def quoteCounter : Splitter UInt8 Bool :=
  ⟨false, fun inString byte => if byte = apostrophe then !inString else inString, Bool.not⟩

/-- Trimming leaves nothing of a blank text only. -/
theorem trimSpace_ne_nil_iff (s : Bytes) :
    trimSpace s ≠ [] ↔ Splitter.solid isSpace s = true := by
  rw [trimSpace, Ne, List.rdropWhile_eq_nil_iff, Splitter.solid, Bool.not_eq_true',
    ← Bool.not_eq_true, List.all_eq_true, not_iff_not]
  constructor
  · intro rest byte member
    rw [← List.takeWhile_append_dropWhile (p := isSpace) (l := s), List.mem_append] at member
    rcases member with leading | later
    · exact List.mem_takeWhile_imp leading
    · exact rest byte later
  · intro all byte member
    exact all byte ((List.dropWhile_sublist isSpace).subset member)

/-- A flush keeps the current statement unless it is blank. -/
theorem StatementScan.flush_eq (scan : StatementScan) :
    scan.flush = scan.statements ++ [scan.current].filter (Splitter.solid isSpace) := by
  by_cases solid : Splitter.solid isSpace scan.current = true
  · rw [flush, if_pos ((trimSpace_ne_nil_iff _).mpr solid), List.filter_cons_of_pos solid]
    rfl
  · rw [flush, if_neg (mt (trimSpace_ne_nil_iff _).mp solid), List.filter_cons_of_neg solid,
      List.filter_nil, List.append_nil]

/-- The end of the script is a flush. -/
theorem StatementScan.finish_eq (scan : StatementScan) : scan.finish = scan.flush := by
  unfold finish
  split
  · rfl
  · next empty =>
    have none : scan.current = [] := List.length_eq_zero_iff.mp (Nat.eq_zero_of_not_pos empty)
    rw [flush_eq, none]
    exact (List.append_nil _).symm

/-- A byte cuts the script at a semicolon outside a string, and is appended otherwise. -/
theorem StatementScan.read_eq (scan : StatementScan) (ch : UInt8) :
    scan.read ch =
      if ch = semicolon ∧ quoteCounter.cuts scan.inString then
        ⟨scan.flush, [], quoteCounter.step scan.inString ch⟩
      else ⟨scan.statements, scan.current ++ [ch], quoteCounter.step scan.inString ch⟩ := by
  refine if_congr (and_congr_right fun separator => ?_) rfl rfl
  rw [if_neg (by rw [separator]; decide)]
  simp only [quoteCounter, Bool.not_eq_true']

/-- The statements of a scan are those found so far and the pieces of the rest that are not blank.
-/
theorem StatementScan.finish_foldl (script : Bytes) (scan : StatementScan) :
    (script.foldl read scan).finish = scan.statements ++
      (quoteCounter.piecesFrom semicolon scan.inString scan.current script).filter
        (Splitter.solid isSpace) := by
  induction script generalizing scan with
  | nil => rw [List.foldl_nil, finish_eq, flush_eq]; rfl
  | cons ch rest ih =>
      rw [List.foldl_cons, ih, read_eq, Splitter.piecesFrom]
      by_cases cut : ch = semicolon ∧ quoteCounter.cuts scan.inString
      · rw [if_pos cut, if_pos cut, flush_eq, List.append_assoc, ← List.filter_append]
        rfl
      · rw [if_neg cut, if_neg cut]

/-- `splitStatements` cuts at the semicolons that the count of apostrophes leaves outside. -/
theorem splitStatements_eq (script : Bytes) :
    splitStatements script = quoteCounter.solidPieces semicolon isSpace script :=
  StatementScan.finish_foldl script _

theorem ne_of_isSpace {byte : UInt8} (space : isSpace byte = true) :
    byte ≠ apostrophe ∧ byte ≠ Sql.hyphen := by
  have cases := of_decide_eq_true space
  refine ⟨?_, ?_⟩
  · rintro rfl
    exact absurd cases (by decide)
  · rintro rfl
    exact absurd cases (by decide)

/-- The count of apostrophes starts outside, and blanks do not move it. -/
theorem quoteCounter_ready : quoteCounter.Ready semicolon isSpace where
  start := rfl
  resume s cut := cut
  steady s byte space cut := by
    simpa only [quoteCounter, (ne_of_isSpace space).1, ↓reduceIte] using cut

/-- A byte that is no apostrophe and no hyphen leaves the lexer outside. -/
theorem outside_next {region : Region} {byte : UInt8}
    (plain : byte ≠ apostrophe ∧ byte ≠ Sql.hyphen) (outside : region.outside = true) :
    (region.next byte).outside = true := by
  cases region with
  | plain => simp [Region.next, Region.enter, Region.outside, plain]
  | hyphen => simp [Region.next, Region.enter, Region.outside, plain]
  | literal => cases outside
  | closing => simp [Region.next, Region.enter, Region.outside, plain]
  | comment => cases outside

/-- The lexer of SQL starts outside, and blanks do not move it. -/
theorem lexer_ready : lexer.Ready semicolon isSpace where
  start := rfl
  resume s cut := outside_next (by decide) cut
  steady s byte space cut := outside_next (ne_of_isSpace space) cut

/-! ### Where the two agree -/

/-- The scan takes a byte to be in a string when it is in a literal, unless an odd number of
apostrophes in comments precede it; then it is the other way round. -/
def Counted (inString : Bool) (region : Region) (count : Nat) : Prop :=
  inString = true ↔ (Odd count ↔ region ≠ .literal)

/-- An apostrophe enters a literal, except from a literal and in a comment. -/
theorem next_apostrophe (region : Region) :
    region.next apostrophe ≠ .literal ↔ region = .literal ∨ region = .comment := by
  cases region <;> decide

/-- Another byte neither enters nor leaves a literal. -/
theorem next_of_ne {byte : UInt8} (other : byte ≠ apostrophe) (region : Region) :
    region.next byte ≠ .literal ↔ region ≠ .literal := by
  have entered : Region.enter byte ≠ .literal := by
    unfold Region.enter
    rw [if_neg other]
    split <;> decide
  cases region with
  | plain => exact iff_of_true entered (by decide)
  | hyphen =>
      refine iff_of_true ?_ (by decide)
      change (if byte = Sql.hyphen then Region.comment else Region.enter byte) ≠ .literal
      split
      · decide
      · exact entered
  | literal => simp [Region.next, other]
  | closing => exact iff_of_true entered (by decide)
  | comment =>
      refine iff_of_true ?_ (by decide)
      change (if byte = newline then Region.plain else Region.comment) ≠ .literal
      split <;> decide

/-- One byte keeps the relation of the count to the lexer. -/
theorem Counted.step {inString : Bool} {region : Region} {count : Nat}
    (counted : Counted inString region count) (byte : UInt8) :
    Counted (quoteCounter.step inString byte) (region.next byte)
      ((if region = .comment ∧ byte = apostrophe then 1 else 0) + count) := by
  by_cases quote : byte = apostrophe
  · subst quote
    have flips : quoteCounter.step inString apostrophe = !inString := rfl
    unfold Counted at counted
    rw [Counted, flips, Bool.not_eq_true', ← Bool.not_eq_true, counted, next_apostrophe]
    by_cases inComment : region = .comment
    · subst inComment
      simp [Nat.odd_add]
    · simp only [inComment, false_and, ↓reduceIte, Nat.zero_add, or_false]
      tauto
  · have stays : quoteCounter.step inString byte = inString := if_neg quote
    unfold Counted at counted
    rw [Counted, stays, next_of_ne quote, counted]
    simp only [quote, and_false, ↓reduceIte, Nat.zero_add]

/-- A text keeps the relation of the count to the lexer, with the apostrophes of its comments
counted. -/
theorem Counted.foldl {inString : Bool} {region : Region} {count : Nat}
    (counted : Counted inString region count) (text : Bytes) :
    Counted (text.foldl quoteCounter.step inString) (text.foldl Region.next region)
      (commentApostrophes region text + count) := by
  induction text generalizing inString region count with
  | nil => rwa [commentApostrophes, Nat.zero_add]
  | cons byte rest ih =>
      rw [commentApostrophes, Nat.add_comm (ite _ _ _), Nat.add_assoc]
      exact ih (counted.step byte)

/-- The scan and the lexer agree in a region just when the parity is odd in comments only. -/
theorem Counted.agree_iff {inString : Bool} {region : Region} {count : Nat}
    (counted : Counted inString region count) :
    quoteCounter.cuts inString = lexer.cuts region ↔ (Odd count ↔ region = .comment) := by
  have cuts : quoteCounter.cuts inString = true ↔ ¬ (Odd count ↔ region ≠ .literal) := by
    rw [← show inString = true ↔ _ from counted, Bool.not_eq_true]
    simp only [quoteCounter, Bool.not_eq_true']
  rw [Bool.eq_iff_iff, cuts]
  cases region <;> simp [lexer, Region.outside]

/-- `splitStatements` returns the statements of a script just when every semicolon in a comment
has an odd number of apostrophes in comments before it, and every other one an even number. -/
theorem splitStatements_eq_iff (script : Bytes) :
    splitStatements script = statements script ↔
      ∀ before after, script = before ++ semicolon :: after →
        (Odd (commentApostrophes .plain before) ↔ lexer.after before = .comment) := by
  rw [splitStatements_eq, statements,
    Splitter.solidPieces_eq_iff quoteCounter_ready lexer_ready (by decide)]
  refine forall₃_congr fun before after eq => ?_
  have counted : Counted (quoteCounter.after before) (lexer.after before)
      (commentApostrophes .plain before + 0) :=
    Counted.foldl (by simp [Counted, quoteCounter, lexer]) before
  exact counted.agree_iff

/-- An apostrophe in a comment: both statements are returned as one. -/
theorem splitStatements_comment :
    splitStatements (ascii "-- it's\nA;B;") = [ascii "-- it's\nA;B;"] ∧
      statements (ascii "-- it's\nA;B;") = [ascii "-- it's\nA", ascii "B"] := by
  decide

end P2pMesh

import P2pMesh.Foundation.CaseMap
import P2pMesh.Foundation.Decimal
import P2pMesh.Foundation.LastWrite
import P2pMesh.Foundation.Parts
import P2pMesh.Foundation.Trim

/-! # Configuration files

`LoadINI` and the getters of `internal/config/config.go`, over byte strings. A file is refused
exactly when it has a line that does not fit the buffer of `bufio.Scanner`; otherwise the
value of a key is that of its last assignment under its section
(`P2pMesh.Ini.loadINI_lastWritten`).

What is written line by line is read back (`P2pMesh.Ini.loadINI_writeINI`).
-/

namespace P2pMesh.Ini

open Foundation

/-- The characters of `unicode.IsSpace`, in UTF-8. -/
def spaceWords : List Bytes :=
  [[0x09], [0x0A], [0x0B], [0x0C], [0x0D], [0x20], [0xC2, 0x85], [0xC2, 0xA0],
    [0xE1, 0x9A, 0x80], [0xE2, 0x80, 0x80], [0xE2, 0x80, 0x81], [0xE2, 0x80, 0x82],
    [0xE2, 0x80, 0x83], [0xE2, 0x80, 0x84], [0xE2, 0x80, 0x85], [0xE2, 0x80, 0x86],
    [0xE2, 0x80, 0x87], [0xE2, 0x80, 0x88], [0xE2, 0x80, 0x89], [0xE2, 0x80, 0x8A],
    [0xE2, 0x80, 0xA8], [0xE2, 0x80, 0xA9], [0xE2, 0x80, 0xAF], [0xE2, 0x81, 0x9F],
    [0xE3, 0x80, 0x80]]

/-- The white space that `strings.TrimSpace` removes. -/
def spaces : Blanks UInt8 := ⟨spaceWords, by decide⟩

/-- `strings.TrimSpace`. -/
def trimSpace (s : Bytes) : Bytes :=
  spaces.trim s

/-- What a line does. -/
inductive Line where
  | skipped
  | header (name : Bytes)
  | assignment (key value : Bytes)
deriving DecidableEq

/-- The body of the loop: 0x3B is a semicolon, 0x23 a hash, 0x3D the equals sign. -/
def readLine (text : Bytes) : Line :=
  let line := trimSpace text
  if line = [] ∨ line.head? = some 0x3B ∨ line.head? = some 0x23 then .skipped
  else if line.head? = some 0x5B ∧ line.getLast? = some 0x5D then
    .header (trimSpace (line.drop 1).dropLast)
  else if 0x3D ∈ line then
    let idx := line.idxOf 0x3D
    .assignment (trimSpace (line.take idx)) (trimSpace (line.drop (idx + 1)))
  else .skipped

/-- `dropCR` of `bufio.ScanLines`. -/
def dropCR (line : Bytes) : Bytes :=
  if line.getLast? = some 0x0D then line.dropLast else line

/-- The lines of a file, the last of which may have no newline. -/
def lines (content : Bytes) : List Bytes :=
  let parts := content.splitOn 0x0A
  if parts.getLast? = some [] then parts.dropLast else parts

/-- The values by section and key; the root section has no name. -/
abbrev Table := Bytes → Bytes → Option Bytes

/-- The table with another value for a key. -/
def Table.set (t : Table) (name key value : Bytes) : Table :=
  fun name' key' => if name' = name ∧ key' = key then some value else t name' key'

/-- The state of the loop. -/
structure Reading where
  current : Bytes
  table : Table

/-- A line is read. -/
def Reading.step (r : Reading) (line : Bytes) : Reading :=
  match readLine (dropCR line) with
  | .skipped => r
  | .header name => { r with current := name }
  | .assignment key value => { r with table := r.table.set r.current key value }

/-- The longest line of a `bufio.Scanner`. -/
def maxTokenSize : Nat := 64 * 1024

/-- The errors of `LoadINI`. -/
inductive LoadError where
  | open (cause : Bytes)
  | tooLong
deriving DecidableEq

/-- `LoadINI`, of what the file system gives for the path. -/
def loadINI (file : Except Bytes Bytes) : Except LoadError Table :=
  match file with
  | .error cause => .error (.open cause)
  | .ok content =>
      if (lines content).any fun line => maxTokenSize ≤ line.length then .error .tooLong
      else .ok ((lines content).foldl Reading.step ⟨[], fun _ _ => none⟩).table

/-- The value of a key that is there and not empty. -/
def present (m : Table) (name key : Bytes) : Option Bytes :=
  (m name key).filter (· ≠ [])

/-- `GetString`. -/
def getString (m : Table) (name key fallback : Bytes) : Bytes :=
  (present m name key).getD fallback

/-- `GetInt`. -/
def getInt (m : Table) (name key : Bytes) (fallback : Int) : Int :=
  ((present m name key).bind atoi).getD fallback

/-- `parseBool`. No character beyond ASCII has a letter of these words as its lower case. -/
def parseBool (s : Bytes) : Bool :=
  let word := (trimSpace s).map CaseMap.lowerByte
  word = ascii "true" || word = ascii "1" || word = ascii "yes" || word = ascii "on"

/-- `GetBool`. -/
def getBool (m : Table) (name key : Bytes) (fallback : Bool) : Bool :=
  ((present m name key).map parseBool).getD fallback

/-- `GetStringSlice`; 0x2C is a comma. -/
def getStringSlice (m : Table) (name key : Bytes) (fallback : List Bytes) : List Bytes :=
  ((present m name key).map fun v =>
    ((v.splitOn 0x2C).map trimSpace).filter (· ≠ [])).getD fallback

section Reading

/-- The assignments of lines in order, each with its section, after a header. -/
def assignments (current : Bytes) : List Bytes → List (Bytes × Bytes × Bytes)
  | [] => []
  | line :: rest =>
      match readLine (dropCR line) with
      | .skipped => assignments current rest
      | .header name => assignments name rest
      | .assignment key value => (current, key, value) :: assignments current rest

/-- The entry of a key, which every assignment of the key writes. -/
def entry (name key : Bytes) : Cell (Bytes × Bytes × Bytes) Bytes where
  writes assigned := if assigned.1 = name ∧ assigned.2.1 = key then some assigned.2.2 else none
  drops _ _ := false

/-- Setting an entry is a write of that entry's register. -/
theorem set_eq_next (t : Table) (name key : Bytes) (assigned : Bytes × Bytes × Bytes) :
    t.set assigned.1 assigned.2.1 assigned.2.2 name key =
      (entry name key).next (t name key) assigned := by
  by_cases same : assigned.1 = name ∧ assigned.2.1 = key
  · have written : (entry name key).writes assigned = some assigned.2.2 := if_pos same
    rw [Table.set, Cell.next, if_pos ⟨same.1.symm, same.2.symm⟩, written]
  · have unwritten : (entry name key).writes assigned = none := if_neg same
    rw [Table.set, if_neg fun other => same ⟨other.1.symm, other.2.symm⟩,
      Cell.next_of_idle unwritten fun _ => rfl]

/-- The table after the loop is what the assignments write. -/
theorem table_foldl_step (r : Reading) (given : List Bytes) (name key : Bytes) :
    (given.foldl Reading.step r).table name key =
      (assignments r.current given).foldl (entry name key).next (r.table name key) := by
  induction given generalizing r with
  | nil => rfl
  | cons line rest ih =>
      rw [List.foldl_cons, ih, assignments, Reading.step]
      cases readLine (dropCR line) with
      | skipped => rfl
      | header name => rfl
      | assignment key' value =>
          exact congrArg (fun start => List.foldl _ start _)
            (set_eq_next r.table name key (r.current, key', value))

/-- A file is refused when a line does not fit the buffer of the scanner. Otherwise the value
of a key is that of its last assignment under its section. -/
theorem loadINI_lastWritten (content : Bytes) :
    ((∃ line ∈ lines content, maxTokenSize ≤ line.length) ∧
      loadINI (.ok content) = .error .tooLong) ∨
    ((∀ line ∈ lines content, line.length < maxTokenSize) ∧
      ∃ table, loadINI (.ok content) = .ok table ∧ ∀ name key value,
        table name key = some value ↔
          (entry name key).LastWritten (assignments [] (lines content)) value) := by
  by_cases long : ∃ line ∈ lines content, maxTokenSize ≤ line.length
  · refine .inl ⟨long, if_pos ?_⟩
    simpa using long
  · refine .inr ⟨fun line member => Nat.lt_of_not_le fun reaches => long ⟨line, member, reaches⟩,
      _, if_neg ?_, fun name key value => ?_⟩
    · simpa using long
    · rw [table_foldl_step]
      exact Cell.after_eq_some_iff

end Reading

section Writing

/-- The letters of sections and keys. -/
def isNameByte (byte : UInt8) : Bool :=
  (0x61 ≤ byte && byte ≤ 0x7A) || byte = 0x5F || isDigit byte

/-- A section or a key of the configurations. -/
structure Name (name : Bytes) : Prop where
  letters : name.all isNameByte = true
  solid : name ≠ []
  short : name.length < 100

instance (name : Bytes) : Decidable (Name name) :=
  decidable_of_iff (name.all isNameByte = true ∧ name ≠ [] ∧ name.length < 100)
    ⟨fun ⟨letters, solid, short⟩ => ⟨letters, solid, short⟩,
      fun ⟨letters, solid, short⟩ => ⟨letters, solid, short⟩⟩

/-- A value that stands on a line as it is: it has no space at its ends and no newline, and
fits a line. -/
structure Plain (value : Bytes) : Prop where
  starts : spaces.Starts value
  ends : spaces.Ends value
  oneLine : 0x0A ∉ value
  short : value.length < 65000

instance (value : Bytes) : Decidable (Plain value) :=
  decidable_of_iff ((∀ word ∈ spaces.words, ¬ word <+: value) ∧
      (∀ word ∈ spaces.words, ¬ word <:+ value) ∧ 0x0A ∉ value ∧ value.length < 65000)
    ⟨fun ⟨starts, ends, oneLine, short⟩ => ⟨starts, ends, oneLine, short⟩,
      fun ⟨starts, ends, oneLine, short⟩ => ⟨starts, ends, oneLine, short⟩⟩

/-- A line with an assignment. -/
def writeEntry (e : Bytes × Bytes) : Bytes :=
  e.1 ++ ascii " = " ++ e.2

/-- A line with the name of a section. -/
def writeHeader (name : Bytes) : Bytes :=
  ascii "[" ++ name ++ ascii "]"

/-- A file with sections and their assignments. -/
def fileLines (doc : List (Bytes × List (Bytes × Bytes))) : List Bytes :=
  doc.flatMap fun s => writeHeader s.1 :: s.2.map writeEntry

/-- The text of a file. -/
def writeINI (doc : List (Bytes × List (Bytes × Bytes))) : Bytes :=
  (fileLines doc).flatMap fun line => line ++ [0x0A]

/-- The assignments of a file. -/
def entries (doc : List (Bytes × List (Bytes × Bytes))) : List (Bytes × Bytes × Bytes) :=
  doc.flatMap fun s => s.2.map fun e => (s.1, e)

/-- Lines that are written with their ends are read as these lines. -/
theorem lines_flatMap {given : List Bytes} (oneLine : ∀ line ∈ given, 0x0A ∉ line) :
    lines (given.flatMap fun line => line ++ [0x0A]) = given := by
  have parts : (given.flatMap fun line => line ++ [0x0A]).splitOn 0x0A = given ++ [[]] := by
    induction given with
    | nil => rfl
    | cons line rest ih =>
        obtain ⟨own, others⟩ := List.forall_mem_cons.mp oneLine
        rw [List.flatMap_cons, List.append_assoc, List.singleton_append, List.cons_append,
          ← ih others, List.splitOn_append_cons_self_of_not_mem own]
  rw [lines, parts]
  simp

/-- A byte that no space has. -/
def isGraphic (byte : UInt8) : Bool :=
  0x21 ≤ byte && byte ≤ 0x7E

/-- A byte of a name is printed and starts neither a comment, a section nor a value. -/
theorem isGraphic_of_isNameByte {byte : UInt8} (letter : isNameByte byte = true) :
    isGraphic byte = true ∧ byte ≠ 0x23 ∧ byte ≠ 0x3B ∧ byte ≠ 0x3D ∧ byte ≠ 0x5B := by
  have all : ∀ n < 256, isNameByte (UInt8.ofNat n) = true →
      isGraphic (UInt8.ofNat n) = true ∧ UInt8.ofNat n ≠ 0x23 ∧ UInt8.ofNat n ≠ 0x3B ∧
        UInt8.ofNat n ≠ 0x3D ∧ UInt8.ofNat n ≠ 0x5B := by decide +kernel
  have own := all byte.toNat byte.toNat_lt
  rw [UInt8.ofNat_toNat] at own
  exact own letter

/-- White space has no printed byte. -/
theorem not_isGraphic_of_space {word : Bytes} (listed : word ∈ spaces.words) {byte : UInt8}
    (inside : byte ∈ word) : isGraphic byte = false := by
  have all : spaceWords.all fun word => word.all fun byte => !isGraphic byte := by decide
  simpa using List.all_eq_true.mp (List.all_eq_true.mp all word listed) byte inside

/-- A text that starts with a printed byte has nothing to trim in front. -/
theorem starts_cons {byte : UInt8} (graphic : isGraphic byte = true) (rest : Bytes) :
    spaces.Starts (byte :: rest) := by
  intro word listed first
  cases word with
  | nil => exact spaces.solid [] listed rfl
  | cons own word =>
      have same := (List.cons_prefix_cons.mp first).1
      rw [same] at listed
      rw [not_isGraphic_of_space listed List.mem_cons_self] at graphic
      cases graphic

/-- A text that ends with a printed byte has nothing to trim behind. -/
theorem ends_concat {byte : UInt8} (graphic : isGraphic byte = true) (before : Bytes) :
    spaces.Ends (before ++ [byte]) := by
  intro word listed last
  obtain ⟨first, same⟩ := last
  rcases List.eq_nil_or_concat word with empty | ⟨word, own, rfl⟩
  · exact spaces.solid word listed empty
  · rw [List.concat_eq_append] at listed
    rw [List.concat_eq_append, ← List.append_assoc] at same
    have equal := (List.append_inj' same rfl).2
    cases equal
    rw [not_isGraphic_of_space listed (List.mem_append_right _ List.mem_cons_self)] at graphic
    cases graphic

/-- A printed byte is part of no white space. -/
theorem alone_of_isGraphic {byte : UInt8} (graphic : isGraphic byte = true) :
    spaces.Alone byte := by
  intro word listed inside
  rw [not_isGraphic_of_space listed inside] at graphic
  cases graphic

theorem sole_space : spaces.Sole 0x20 where
  listed := by decide
  only := (by decide : ∀ word ∈ spaceWords, 0x20 ∈ word → word = [0x20])

/-- A name starts with a byte of a name. -/
theorem Name.cases {name : Bytes} (proper : Name name) :
    ∃ byte rest, name = byte :: rest ∧ isNameByte byte = true := by
  cases name with
  | nil => exact absurd rfl proper.solid
  | cons byte rest =>
      have letters := proper.letters
      rw [List.all_cons, Bool.and_eq_true] at letters
      exact ⟨byte, rest, rfl, letters.1⟩

/-- A line that starts with a name has nothing to trim in front. -/
theorem Name.starts {name : Bytes} (proper : Name name) (rest : Bytes) :
    spaces.Starts (name ++ rest) := by
  obtain ⟨byte, more, rfl, letter⟩ := proper.cases
  exact starts_cons (isGraphic_of_isNameByte letter).1 (more ++ rest)

/-- A name has nothing to trim behind. -/
theorem Name.ends {name : Bytes} (proper : Name name) : spaces.Ends name := by
  rcases List.eq_nil_or_concat name with empty | ⟨before, byte, rfl⟩
  · exact absurd empty proper.solid
  · have letter := List.all_eq_true.mp proper.letters byte (by simp)
    rw [List.concat_eq_append]
    exact ends_concat (isGraphic_of_isNameByte letter).1 before

/-- A name has bytes of names only. -/
theorem Name.not_mem {name : Bytes} (proper : Name name) {byte : UInt8}
    (other : isNameByte byte = false) : byte ∉ name := by
  intro member
  rw [List.all_eq_true.mp proper.letters byte member] at other
  cases other

/-- A trimmed line with an equals sign after a name. -/
theorem readLine_assignment {text key rest : Bytes} (proper : Name key)
    (trimmed : trimSpace text = key ++ [0x20] ++ 0x3D :: rest) :
    readLine text = .assignment key (trimSpace rest) := by
  obtain ⟨byte, more, rfl, letter⟩ := proper.cases
  obtain ⟨_, hash, semicolon, _, bracket⟩ := isGraphic_of_isNameByte letter
  have absent : (0x3D : UInt8) ∉ byte :: more ++ [0x20] := by
    rw [List.mem_append, not_or]
    exact ⟨proper.not_mem (by decide), by decide⟩
  have position : (byte :: more ++ [0x20] ++ 0x3D :: rest).idxOf 0x3D =
      (byte :: more ++ [0x20]).length := by
    rw [List.idxOf_append_of_notMem absent, List.idxOf_cons_self, Nat.add_zero]
  have keyPart : trimSpace (byte :: more ++ [0x20]) = byte :: more := by
    have starts := proper.starts []
    rw [List.append_nil] at starts
    exact Blanks.trim_append sole_space starts proper.ends proper.solid
  have valuePart : (byte :: more ++ [0x20] ++ 0x3D :: rest).drop
      ((byte :: more ++ [0x20]).length + 1) = rest := by
    rw [List.drop_append, Nat.add_sub_cancel_left]
    simp
  have first : (byte :: more ++ [0x20] ++ 0x3D :: rest).head? = some byte := rfl
  have member : (0x3D : UInt8) ∈ byte :: more ++ [0x20] ++ 0x3D :: rest := by simp
  rw [readLine]
  simp only [trimmed, first, Option.some.injEq, hash, semicolon, bracket, member, position,
    List.take_left, keyPart, valuePart, ↓reduceIte, false_and, or_false]
  rfl

theorem dropCR_eq_self {line : Bytes} (ends : line.getLast? ≠ some 0x0D) : dropCR line = line :=
  if_neg ends

theorem getLast?_ne_of_ends {text : Bytes} (ends : spaces.Ends text) :
    text.getLast? ≠ some 0x0D := by
  intro last
  obtain ⟨before, rfl⟩ := List.getLast?_eq_some_iff.mp last
  exact ends [0x0D] (by decide) ⟨before, rfl⟩

/-- A line that was written is read as the assignment. -/
theorem readLine_writeEntry {e : Bytes × Bytes} (proper : Name e.1) (plain : Plain e.2) :
    readLine (dropCR (writeEntry e)) = .assignment e.1 e.2 := by
  obtain ⟨key, value⟩ := e
  have text : writeEntry (key, value) = key ++ [0x20] ++ 0x3D :: 0x20 :: value := by
    simp [writeEntry, ascii]
  by_cases empty : value = []
  · subst empty
    have cut : trimSpace (key ++ [0x20] ++ [0x3D] ++ [0x20]) = key ++ [0x20] ++ [0x3D] := by
      refine Blanks.trim_append sole_space ?_ (ends_concat (by decide) _) (by simp)
      rw [List.append_assoc]
      exact proper.starts _
    have whole : trimSpace (dropCR (writeEntry (key, []))) = key ++ [0x20] ++ 0x3D :: [] := by
      rw [text, dropCR_eq_self (by simp), ← cut]
      simp
    exact readLine_assignment proper whole
  · have ends : spaces.Ends (key ++ [0x20] ++ 0x3D :: 0x20 :: value) := by
      have later := Blanks.ends_append sole_space.only plain.ends empty (key ++ [0x20] ++ [0x3D])
      simpa using later
    have whole : trimSpace (dropCR (writeEntry (key, value))) =
        key ++ [0x20] ++ 0x3D :: 0x20 :: value := by
      rw [text, dropCR_eq_self (getLast?_ne_of_ends ends)]
      refine Blanks.trim_eq_self ?_ ends
      rw [List.append_assoc]
      exact proper.starts _
    rw [readLine_assignment proper whole]
    exact congrArg (Line.assignment key) (Blanks.trim_cons sole_space plain.starts plain.ends)

/-- The header of a section is read back as that header. -/
theorem readLine_writeHeader {name : Bytes} (proper : Name name) :
    readLine (dropCR (writeHeader name)) = .header name := by
  have text : writeHeader name = 0x5B :: (name ++ [0x5D]) := by simp [writeHeader, ascii]
  have ends : spaces.Ends (0x5B :: (name ++ [0x5D])) := ends_concat (by decide) (0x5B :: name)
  have trimmed : trimSpace (dropCR (writeHeader name)) = 0x5B :: (name ++ [0x5D]) := by
    rw [text, dropCR_eq_self (getLast?_ne_of_ends ends)]
    exact Blanks.trim_eq_self (starts_cons (by decide) _) ends
  have inner : trimSpace name = name := by
    have starts := proper.starts []
    rw [List.append_nil] at starts
    exact Blanks.trim_eq_self starts proper.ends
  have last : (0x5B :: (name ++ [0x5D])).getLast? = some 0x5D := by
    rw [← List.cons_append, List.getLast?_concat]
  rw [readLine]
  simp only [trimmed, last, List.head?_cons, List.drop_one, List.tail_cons, List.dropLast_concat,
    inner, and_self, ↓reduceIte]
  rfl

/-- A file whose sections and keys are names and whose values are plain. -/
def Proper (doc : List (Bytes × List (Bytes × Bytes))) : Prop :=
  ∀ s ∈ doc, Name s.1 ∧ ∀ e ∈ s.2, Name e.1 ∧ Plain e.2

/-- The entries of a section are read as assignments in that section. -/
theorem assignments_entries {given : List (Bytes × Bytes)} (current : Bytes) (rest : List Bytes)
    (proper : ∀ e ∈ given, Name e.1 ∧ Plain e.2) :
    assignments current (given.map writeEntry ++ rest) =
      given.map (fun e => (current, e)) ++ assignments current rest := by
  induction given with
  | nil => rfl
  | cons e given ih =>
      obtain ⟨⟨name, plain⟩, others⟩ := List.forall_mem_cons.mp proper
      rw [List.map_cons, List.cons_append, assignments, readLine_writeEntry name plain,
        List.map_cons, List.cons_append, ← ih others]

/-- The lines of a file are read as all its assignments, whatever section was open before. -/
theorem assignments_fileLines {doc : List (Bytes × List (Bytes × Bytes))} (proper : Proper doc)
    (current : Bytes) : assignments current (fileLines doc) = entries doc := by
  induction doc generalizing current with
  | nil => rfl
  | cons s doc ih =>
      obtain ⟨⟨name, plain⟩, others⟩ := List.forall_mem_cons.mp proper
      have header (rest : List Bytes) :
          assignments current (writeHeader s.1 :: rest) = assignments s.1 rest := by
        rw [assignments, readLine_writeHeader name]
      rw [fileLines, List.flatMap_cons, List.cons_append, header, assignments_entries s.1 _ plain,
        entries, List.flatMap_cons, ← entries, ← ih others s.1, fileLines]

/-- No line of a file is broken, and none is too long for the scanner. -/
theorem Plain.of_mem {doc : List (Bytes × List (Bytes × Bytes))} (proper : Proper doc)
    {line : Bytes} (member : line ∈ fileLines doc) :
    0x0A ∉ line ∧ line.length < maxTokenSize := by
  obtain ⟨s, listed, member⟩ := List.mem_flatMap.mp member
  obtain ⟨name, plain⟩ := proper s listed
  rcases List.mem_cons.mp member with rfl | member
  · have free : 0x0A ∉ s.1 := name.not_mem (by decide)
    have short := name.short
    rw [writeHeader, maxTokenSize]
    constructor
    · simp [ascii, free]
    · simp [ascii]
      omega
  · obtain ⟨e, inside, rfl⟩ := List.mem_map.mp member
    obtain ⟨key, value⟩ := plain e inside
    have free : 0x0A ∉ e.1 := key.not_mem (by decide)
    have keyShort := key.short
    have valueShort := value.short
    rw [writeEntry, maxTokenSize]
    constructor
    · simp [ascii, free, value.oneLine]
    · simp [ascii]
      omega

/-- If no entry is assigned twice, each assignment is the last one of its entry. -/
theorem lastWritten_of_distinct {given : List (Bytes × Bytes × Bytes)}
    (distinct : (given.map fun e => (e.1, e.2.1)).Nodup) {e : Bytes × Bytes × Bytes}
    (member : e ∈ given) : (entry e.1 e.2.1).LastWritten given e.2.2 := by
  obtain ⟨before, after, rfl⟩ := List.append_of_mem member
  refine ⟨before, e, after, rfl, if_pos ⟨rfl, rfl⟩, fun other later => ⟨if_neg ?_, rfl⟩⟩
  rintro ⟨sameName, sameKey⟩
  rw [List.map_append, List.map_cons, List.nodup_append] at distinct
  have fresh := (List.nodup_cons.mp distinct.2.1).1
  exact fresh (List.mem_map.mpr ⟨other, later, Prod.ext sameName sameKey⟩)

/-- A file with sections and assignments is read back: a key has the value that was written
for it, and no other key has one. -/
theorem loadINI_writeINI {doc : List (Bytes × List (Bytes × Bytes))} (proper : Proper doc)
    (distinct : ((entries doc).map fun e => (e.1, e.2.1)).Nodup) :
    ∃ table, loadINI (.ok (writeINI doc)) = .ok table ∧
      (∀ e ∈ entries doc, table e.1 e.2.1 = some e.2.2) ∧
      ∀ name key, (∀ e ∈ entries doc, (e.1, e.2.1) ≠ (name, key)) → table name key = none := by
  have split : lines (writeINI doc) = fileLines doc :=
    lines_flatMap fun line member => (Plain.of_mem proper member).1
  have short : ¬ (fileLines doc).any fun line => maxTokenSize ≤ line.length := by
    simp only [List.any_eq_true, decide_eq_true_eq, not_exists, not_and, Nat.not_le]
    exact fun line member => (Plain.of_mem proper member).2
  have cells (name key : Bytes) :
      ((fileLines doc).foldl Reading.step ⟨[], fun _ _ => none⟩).table name key =
        (entry name key).after (entries doc) := by
    rw [table_foldl_step, assignments_fileLines proper]
    rfl
  refine ⟨((fileLines doc).foldl Reading.step ⟨[], fun _ _ => none⟩).table, ?_,
    fun e member => ?_, fun name key absent => ?_⟩
  · simp only [loadINI, split]
    exact if_neg short
  · rw [cells, Cell.after_eq_some_iff]
    exact lastWritten_of_distinct distinct member
  · rw [cells, Option.eq_none_iff_forall_ne_some]
    intro value written
    obtain ⟨before, e, after, parts, writes, _⟩ := Cell.after_eq_some_iff.mp written
    have member : e ∈ entries doc := by
      rw [parts]
      exact List.mem_append_right _ List.mem_cons_self
    obtain ⟨⟨sameName, sameKey⟩, _⟩ := Option.ite_none_right_eq_some.mp writes
    exact absent e member (Prod.ext sameName sameKey)

end Writing

section Values

/-- The text of a truth value. -/
def boolText (b : Bool) : Bytes :=
  if b then ascii "true" else ascii "false"

/-- The text of a list, with a comma between its elements. -/
def sliceText (values : List Bytes) : Bytes :=
  [0x2C].intercalate values

/-- A value that can be an element of a list. -/
structure Element (value : Bytes) : Prop extends Plain value where
  solid : value ≠ []
  whole : 0x2C ∉ value

instance (value : Bytes) : Decidable (Element value) :=
  decidable_of_iff (Plain value ∧ value ≠ [] ∧ 0x2C ∉ value)
    ⟨fun ⟨plain, solid, whole⟩ => ⟨plain, solid, whole⟩,
      fun ⟨plain, solid, whole⟩ => ⟨plain, solid, whole⟩⟩

variable {m : Table} {name key : Bytes}

/-- An entry with a value that is not empty counts as present. -/
theorem present_eq {value : Bytes} (written : m name key = some value) (solid : value ≠ []) :
    present m name key = some value := by
  rw [present, written]
  exact Option.filter_some_pos (by simpa using solid)

/-- A text is read back; an empty one gives the default, which has to be empty too. -/
theorem getString_eq {value fallback : Bytes} (written : m name key = some value)
    (default : value = [] → fallback = []) : getString m name key fallback = value := by
  by_cases empty : value = []
  · rw [getString, present, written, default empty, empty]
    rfl
  · rw [getString, present_eq written empty, Option.getD_some]

/-- A number of 64 bits is read back. -/
theorem getInt_eq {n fallback : Int} (written : m name key = some (itoa n))
    (low : -2 ^ 63 ≤ n) (high : n < 2 ^ 63) : getInt m name key fallback = n := by
  have solid : itoa n ≠ [] := by
    cases n with
    | ofNat n => exact digits_ne_nil n
    | negSucc n => exact List.cons_ne_nil _ _
  rw [getInt, present_eq written solid, Option.bind_some, atoi_itoa low high, Option.getD_some]

/-- A truth value is read back. -/
theorem getBool_eq {b fallback : Bool} (written : m name key = some (boolText b)) :
    getBool m name key fallback = b := by
  have solid : boolText b ≠ [] := by cases b <;> decide
  have parsed : parseBool (boolText b) = b := by cases b <;> decide
  rw [getBool, present_eq written solid, Option.map_some, parsed, Option.getD_some]

/-- A list with elements is not written as the empty text. -/
theorem sliceText_ne_nil {values : List Bytes} (elements : ∀ value ∈ values, Element value)
    (some : values ≠ []) : sliceText values ≠ [] := by
  cases values with
  | nil => exact absurd rfl some
  | cons value values =>
      have solid := (elements value List.mem_cons_self).solid
      cases values with
      | nil => simpa [sliceText] using solid
      | cons other values => simp [sliceText, List.intercalate]

/-- A list is read back; an empty one gives the default, which has to be empty too. -/
theorem getStringSlice_eq {values fallback : List Bytes}
    (written : m name key = some (sliceText values))
    (elements : ∀ value ∈ values, Element value) (default : values = [] → fallback = []) :
    getStringSlice m name key fallback = values := by
  by_cases empty : values = []
  · rw [getStringSlice, present, written, default empty, empty]
    rfl
  · have parts : (sliceText values).splitOn 0x2C = values :=
      List.splitOn_intercalate 0x2C (fun value member => (elements value member).whole) empty
    have trimmed : values.map trimSpace = values := by
      conv_rhs => rw [← List.map_id values]
      exact List.map_congr_left fun value member =>
        Blanks.trim_eq_self (elements value member).starts (elements value member).ends
    have solid : values.filter (· ≠ []) = values :=
      List.filter_eq_self.mpr fun value member => by simpa using (elements value member).solid
    rw [getStringSlice, present_eq written (sliceText_ne_nil elements empty), Option.map_some,
      parts, trimmed, solid, Option.getD_some]

/-- A short text of printed bytes can be a value. -/
theorem plain_of_isGraphic {value : Bytes} (graphic : ∀ byte ∈ value, isGraphic byte = true)
    (short : value.length < 65000) : Plain value where
  starts := by
    intro word listed first
    obtain ⟨byte, rest, rfl⟩ := List.exists_cons_of_ne_nil (spaces.solid word listed)
    have visible := graphic byte (first.subset List.mem_cons_self)
    rw [not_isGraphic_of_space listed List.mem_cons_self] at visible
    cases visible
  ends := by
    intro word listed last
    obtain ⟨byte, rest, rfl⟩ := List.exists_cons_of_ne_nil (spaces.solid word listed)
    have visible := graphic byte (last.subset List.mem_cons_self)
    rw [not_isGraphic_of_space listed List.mem_cons_self] at visible
    cases visible
  oneLine := fun member => absurd (graphic _ member) (by decide)
  short := short

theorem isGraphic_of_isDigit {byte : UInt8} (digit : isDigit byte = true) :
    isGraphic byte = true :=
  (isGraphic_of_isNameByte (by rw [isNameByte, digit, Bool.or_true])).1

/-- Two elements of a list are separated by a comma. -/
theorem sliceText_cons_cons (value other : Bytes) (values : List Bytes) :
    sliceText (value :: other :: values) = value ++ 0x2C :: sliceText (other :: values) := by
  simp [sliceText, List.intercalate]

/-- The text of a list of elements stands on a line as it is. -/
theorem plain_sliceText {values : List Bytes} (elements : ∀ value ∈ values, Element value)
    (short : (sliceText values).length < 65000) : Plain (sliceText values) := by
  have comma : spaces.Alone 0x2C := alone_of_isGraphic (by decide)
  induction values with
  | nil => exact plain_of_isGraphic nofun short
  | cons value values ih =>
      obtain ⟨own, others⟩ := List.forall_mem_cons.mp elements
      cases values with
      | nil => simpa [sliceText] using own.toPlain
      | cons other values =>
          rw [sliceText_cons_cons] at short ⊢
          rw [List.length_append, List.length_cons] at short
          have rest := ih others (by omega)
          exact {
            starts := Blanks.starts_append comma own.starts own.solid _
            ends := Blanks.ends_append comma rest.ends
              (sliceText_ne_nil others (List.cons_ne_nil _ _)) _
            oneLine := by
              rw [List.mem_append, List.mem_cons, not_or, not_or]
              exact ⟨own.oneLine, by decide, rest.oneLine⟩
            short := by rwa [List.length_append, List.length_cons] }

end Values

section Settings

/-- A field of a configuration: its value, and the default where an empty value would stand
for it. -/
inductive Setting where
  | text (value fallback : Bytes)
  | int (n : Int)
  | bool (b : Bool)
  | slice (values fallback : List Bytes)

/-- The text of a field. -/
def Setting.write : Setting → Bytes
  | .text value _ => value
  | .int n => itoa n
  | .bool b => boolText b
  | .slice values _ => sliceText values

/-- A value that a file can have. An empty value in a file stands for the default. -/
def Setting.Valid : Setting → Prop
  | .text value fallback => Plain value ∧ (value = [] → fallback = [])
  | .int n => -2 ^ 63 ≤ n ∧ n < 2 ^ 63
  | .bool _ => True
  | .slice values fallback => (∀ value ∈ values, Element value) ∧
      (sliceText values).length < 65000 ∧ (values = [] → fallback = [])

instance (s : Setting) : Decidable s.Valid :=
  match s with
  | .text _ _ => inferInstanceAs (Decidable (_ ∧ _))
  | .int _ => inferInstanceAs (Decidable (_ ∧ _))
  | .bool _ => inferInstanceAs (Decidable True)
  | .slice _ _ => inferInstanceAs (Decidable (_ ∧ _ ∧ _))

/-- What a valid setting is written as can be a value. -/
theorem Setting.Valid.plain {s : Setting} (valid : s.Valid) : Plain s.write := by
  cases s with
  | text value fallback => exact valid.1
  | int n =>
      have short := length_itoa_le valid.1 valid.2
      refine plain_of_isGraphic (fun byte member => ?_) (show (itoa n).length < 65000 by omega)
      rcases mem_itoa member with digit | rfl
      · exact isGraphic_of_isDigit digit
      · decide
  | bool b =>
      have graphic : (boolText b).all isGraphic = true := by cases b <;> decide
      have short : (boolText b).length ≤ 5 := by cases b <;> decide
      exact plain_of_isGraphic (List.all_eq_true.mp graphic)
        (show (boolText b).length < 65000 by omega)
  | slice values fallback => exact plain_sliceText valid.1 valid.2.1

/-- The sections of a configuration with their keys. -/
abbrev Settings := List (Bytes × List (Bytes × Setting))

/-- The file with the values of a configuration. -/
def Settings.doc (settings : Settings) : List (Bytes × List (Bytes × Bytes)) :=
  settings.map fun s => (s.1, s.2.map fun e => (e.1, e.2.write))

/-- The sections and the keys alone. -/
def Settings.names (settings : Settings) : List (Bytes × List Bytes) :=
  settings.map fun s => (s.1, s.2.map Prod.fst)

/-- Sections and keys that are names, with no key twice. -/
def WellNamed (names : List (Bytes × List Bytes)) : Prop :=
  (∀ s ∈ names, Name s.1 ∧ ∀ key ∈ s.2, Name key) ∧
    (names.flatMap fun s => s.2.map fun key => (s.1, key)).Nodup

instance (names : List (Bytes × List Bytes)) : Decidable (WellNamed names) :=
  inferInstanceAs (Decidable (_ ∧ _))

/-- A table has the values of settings, each of which a file can have. -/
def Settings.HeldBy (settings : Settings) (table : Table) : Prop :=
  ∀ s ∈ settings, ∀ e ∈ s.2, table s.1 e.1 = some e.2.write ∧ e.2.Valid

/-- The file of a configuration has its values. -/
theorem Settings.load {settings : Settings} (named : WellNamed settings.names)
    (valid : ∀ s ∈ settings, ∀ e ∈ s.2, e.2.Valid) :
    ∃ table, loadINI (.ok (writeINI settings.doc)) = .ok table ∧ settings.HeldBy table := by
  have proper : Proper settings.doc := by
    intro s member
    obtain ⟨given, listed, rfl⟩ := List.mem_map.mp member
    obtain ⟨name, keys⟩ := named.1 _ (List.mem_map_of_mem listed)
    refine ⟨name, fun e inside => ?_⟩
    obtain ⟨setting, field, rfl⟩ := List.mem_map.mp inside
    exact ⟨keys _ (List.mem_map_of_mem field), (valid given listed setting field).plain⟩
  have keys : (entries settings.doc).map (fun e => (e.1, e.2.1)) =
      settings.names.flatMap fun s => s.2.map fun key => (s.1, key) := by
    simp only [entries, Settings.doc, Settings.names, List.flatMap_map, List.map_flatMap,
      List.map_map]
    rfl
  obtain ⟨table, loaded, has, _⟩ := loadINI_writeINI proper (keys ▸ named.2)
  refine ⟨table, loaded, fun s listed e field => ⟨?_, valid s listed e field⟩⟩
  refine has (s.1, e.1, e.2.write) (List.mem_flatMap.mpr ⟨_, List.mem_map_of_mem listed, ?_⟩)
  exact List.mem_map.mpr ⟨(e.1, e.2.write), List.mem_map.mpr ⟨e, field, rfl⟩, rfl⟩

namespace Settings.HeldBy

variable {settings : Settings} {table : Table} (held : settings.HeldBy table) (i j : Nat)
  {name key : Bytes} {fields : List (Bytes × Setting)}
include held

/-- A setting by the place of its section and its place there. -/
theorem getElem {setting : Setting} (group : settings[i]? = some (name, fields))
    (field : fields[j]? = some (key, setting)) :
    table name key = some setting.write ∧ setting.Valid :=
  held _ (List.mem_of_getElem? group) _ (List.mem_of_getElem? field)

/-- A text setting of the file is read as its value. -/
theorem getString {value fallback : Bytes} (group : settings[i]? = some (name, fields))
    (field : fields[j]? = some (key, .text value fallback)) :
    Ini.getString table name key fallback = value := by
  obtain ⟨written, _, empty⟩ := held.getElem i j group field
  exact getString_eq written empty

/-- A number of the file is read as its value. -/
theorem getInt {n fallback : Int} (group : settings[i]? = some (name, fields))
    (field : fields[j]? = some (key, .int n)) : Ini.getInt table name key fallback = n := by
  obtain ⟨written, low, high⟩ := held.getElem i j group field
  exact getInt_eq written low high

/-- A truth value of the file is read as its value. -/
theorem getBool {b fallback : Bool} (group : settings[i]? = some (name, fields))
    (field : fields[j]? = some (key, .bool b)) : Ini.getBool table name key fallback = b :=
  getBool_eq (held.getElem i j group field).1

/-- A list of the file is read as its value. -/
theorem getStringSlice {values fallback : List Bytes}
    (group : settings[i]? = some (name, fields))
    (field : fields[j]? = some (key, .slice values fallback)) :
    Ini.getStringSlice table name key fallback = values := by
  obtain ⟨written, elements, _, empty⟩ := held.getElem i j group field
  exact getStringSlice_eq written elements empty

end Settings.HeldBy

end Settings

end P2pMesh.Ini

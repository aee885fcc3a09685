import P2pMesh.Foundation.Json

/-! # JSON texts

The texts that `json.Marshal` writes: documents of nested arrays and objects, with strings,
integers and booleans, without white space. Whatever the strings hold, a document is read back as
its value, up to the nesting that the reader accepts (`Foundation.Json.readText_write`). An array
is read into a slice element by element, so that a `[]string` of names in UTF-8 is read back as it
was written (`Foundation.unmarshalStrings_marshalStrings`).
-/

namespace Foundation.Json

/-- What is written. -/
inductive Doc where
  | null
  | bool (value : Bool)
  | int (n : Int)
  | string (text : Bytes)
  | array (elements : List Doc)
  | object (members : List (Bytes × Doc))

namespace Doc

mutual

/-- The text of a document. -/
def write : Doc → List Char
  | .null => ['n', 'u', 'l', 'l']
  | .bool true => ['t', 'r', 'u', 'e']
  | .bool false => ['f', 'a', 'l', 's', 'e']
  | .int n => decimal n
  | .string text => quote text
  | .array [] => ['[', ']']
  | .array (first :: more) => '[' :: (first.write ++ writeElements more)
  | .object [] => ['\x7b', '\x7d']
  | .object ((name, first) :: more) =>
      '\x7b' :: (quote name ++ ':' :: (first.write ++ writeMembers more))

/-- The elements after the first one, up to the bracket. -/
def writeElements : List Doc → List Char
  | [] => [']']
  | next :: more => ',' :: (next.write ++ writeElements more)

/-- The members after the first one, up to the brace. -/
def writeMembers : List (Bytes × Doc) → List Char
  | [] => ['\x7d']
  | (name, next) :: more => ',' :: (quote name ++ ':' :: (next.write ++ writeMembers more))

end

mutual

/-- The value of a document. -/
def value : Doc → Value
  | .null => .null
  | .bool b => .bool b
  | .int n => .number (decimal n)
  | .string text => .string (clean text)
  | .array elements => .array (values elements)
  | .object members => .object (memberValues members)

/-- The values of the elements of an array. -/
def values : List Doc → List Value
  | [] => []
  | next :: more => next.value :: values more

/-- The names and values of the members of an object. -/
def memberValues : List (Bytes × Doc) → List (List Char × Value)
  | [] => []
  | (name, next) :: more => (clean name, next.value) :: memberValues more

end

mutual

/-- How deep arrays and objects are nested. -/
def depth : Doc → Nat
  | .array elements => elementsDepth elements + 1
  | .object members => membersDepth members + 1
  | _ => 0

/-- How deep the elements of an array are nested. -/
def elementsDepth : List Doc → Nat
  | [] => 0
  | next :: more => max next.depth (elementsDepth more)

/-- How deep the members of an object are nested. -/
def membersDepth : List (Bytes × Doc) → Nat
  | [] => 0
  | (_, next) :: more => max next.depth (membersDepth more)

end

mutual

/-- The fuel for reading a document. -/
def fuel : Doc → Nat
  | .array elements => elementsFuel elements + 1
  | .object members => membersFuel members + 1
  | _ => 1

/-- The fuel for reading the elements of an array. -/
def elementsFuel : List Doc → Nat
  | [] => 0
  | next :: more => max next.fuel (elementsFuel more) + 1

/-- The fuel for reading the members of an object. -/
def membersFuel : List (Bytes × Doc) → Nat
  | [] => 0
  | (_, next) :: more => max next.fuel (membersFuel more) + 1

end

/-- Induction over documents, with the elements of arrays and the members of objects. -/
theorem induction {P : Doc → Prop} (null : P .null) (bool : ∀ b, P (.bool b))
    (int : ∀ n, P (.int n)) (string : ∀ text, P (.string text))
    (array : ∀ elements, (∀ d ∈ elements, P d) → P (.array elements))
    (object : ∀ members : List (Bytes × Doc), (∀ m ∈ members, P m.2) → P (.object members))
    (d : Doc) : P d := by
  refine @Doc.rec P (fun elements => ∀ d ∈ elements, P d) (fun members => ∀ m ∈ members, P m.2)
    (fun m => P m.2) null bool int string array object ?_ ?_ ?_ ?_ ?_ d
  · exact fun _ member => absurd member List.not_mem_nil
  · exact fun _ _ first more => List.forall_mem_cons.mpr ⟨first, more⟩
  · exact fun _ member => absurd member List.not_mem_nil
  · exact fun _ _ first more => List.forall_mem_cons.mpr ⟨first, more⟩
  · exact fun _ _ own => own

/-- The document is read with enough fuel and depth, whatever follows. -/
def Read (d : Doc) : Prop :=
  ∀ n depth rest, d.fuel ≤ n → d.depth ≤ depth → Ends rest →
    readValue n depth (d.write.map some ++ rest) = some (d.value, rest)

/-- A document that every reader of a value reads. -/
theorem read_of_reads {d : Doc} (fuel : d.fuel = 1) (reads : Reads d.write d.value) : d.Read := by
  intro n depth rest enough _ ends
  rw [fuel] at enough
  obtain ⟨n, rfl⟩ := Nat.exists_eq_add_of_le' enough
  exact reads n depth rest ends

theorem ends_writeElements (elements : List Doc) (rest : Input) :
    Ends ((writeElements elements).map some ++ rest) := by
  cases elements with
  | nil => exact ends_of_cons _ (by decide)
  | cons next more => exact ends_of_cons _ (by decide)

theorem ends_writeMembers (members : List (Bytes × Doc)) (rest : Input) :
    Ends ((writeMembers members).map some ++ rest) := by
  cases members with
  | nil => exact ends_of_cons _ (by decide)
  | cons next more => exact ends_of_cons _ (by decide)

/-- The elements of an array are read if each of them is. -/
theorem readElements_write {elements : List Doc} (each : ∀ d ∈ elements, d.Read) {first : Doc}
    (own : first.Read) {n depth : Nat} (enough : elementsFuel (first :: elements) ≤ n)
    (deep : elementsDepth (first :: elements) ≤ depth) (rest : Input) :
    readElements n depth ((first.write ++ writeElements elements).map some ++ rest) =
      some (first.value :: values elements, rest) := by
  induction elements generalizing first n with
  | nil =>
      rw [elementsFuel] at enough
      rw [elementsDepth] at deep
      obtain ⟨n, rfl⟩ := Nat.exists_eq_add_of_le' (Nat.le_of_add_left_le enough)
      have value := own n depth _ (by omega) (by omega) (ends_writeElements [] rest)
      rw [List.map_append, List.append_assoc, readElements, value, Option.bind_some]
      rfl
  | cons next more ih =>
      obtain ⟨second, later⟩ := List.forall_mem_cons.mp each
      rw [elementsFuel] at enough
      rw [elementsDepth] at deep
      obtain ⟨n, rfl⟩ := Nat.exists_eq_add_of_le' (Nat.le_of_add_left_le enough)
      have value := own n depth _ (by omega) (by omega) (ends_writeElements (next :: more) rest)
      have tail := ih later second (n := n) (by omega) (by omega)
      rw [List.map_append, List.append_assoc, readElements, value, Option.bind_some]
      simp only [writeElements, List.map_cons, List.cons_append, skipSpace_cons (c := ',') rfl,
        ↓reduceIte, tail, Option.map_some, values]

/-- The name and the colon of a member are read, and then its value. -/
theorem readMembers_name {name : Bytes} {n depth : Nat} {rest after : Input} {value : Value}
    (read : readValue n depth rest = some (value, after)) :
    (∀ later, after = some '\x7d' :: later →
      readMembers (n + 1) depth ((quote name).map some ++ some ':' :: rest) =
        some ([(clean name, value)], later)) ∧
    ∀ later members final, after = some ',' :: later →
      readMembers n depth later = some (members, final) →
        readMembers (n + 1) depth ((quote name).map some ++ some ':' :: rest) =
          some ((clean name, value) :: members, final) := by
  obtain ⟨pieces, joined, named⟩ := readLiteral_quote name (some ':' :: rest)
  have opens : expect ['"'] (skipSpace ((quote name).map some ++ some ':' :: rest)) =
      some (((runes name).flatMap escapeRune ++ ['"']).map some ++ some ':' :: rest) := rfl
  have colon : expect [':'] (skipSpace (some ':' :: rest)) = some rest := rfl
  rw [readMembers, opens, Option.bind_some, named, Option.bind_some]
  simp only [colon, Option.bind_some, read, joined]
  refine ⟨?_, ?_⟩
  · intro later closes
    rw [closes, skipSpace_cons (c := '\x7d') rfl]
    simp only [Char.reduceEq, ↓reduceIte]
  · intro later members final continues tail
    rw [continues, skipSpace_cons (c := ',') rfl]
    simp only [↓reduceIte, tail, Option.map_some]

/-- The members of an object are read if the value of each of them is. -/
theorem readMembers_write {members : List (Bytes × Doc)} (each : ∀ m ∈ members, m.2.Read)
    {name : Bytes} {first : Doc} (own : first.Read) {n depth : Nat}
    (enough : membersFuel ((name, first) :: members) ≤ n)
    (deep : membersDepth ((name, first) :: members) ≤ depth) (rest : Input) :
    readMembers n depth
        ((quote name ++ ':' :: (first.write ++ writeMembers members)).map some ++ rest) =
      some ((clean name, first.value) :: memberValues members, rest) := by
  induction members generalizing name first n with
  | nil =>
      rw [membersFuel] at enough
      rw [membersDepth] at deep
      obtain ⟨n, rfl⟩ := Nat.exists_eq_add_of_le' (Nat.le_of_add_left_le enough)
      have value := own n depth _ (by omega) (by omega) (ends_writeMembers [] rest)
      rw [List.map_append, List.map_cons, List.map_append, List.append_assoc, List.cons_append,
        List.append_assoc]
      exact (readMembers_name value).1 rest rfl
  | cons next more ih =>
      obtain ⟨nextName, next⟩ := next
      obtain ⟨second, later⟩ := List.forall_mem_cons.mp each
      rw [membersFuel] at enough
      rw [membersDepth] at deep
      obtain ⟨n, rfl⟩ := Nat.exists_eq_add_of_le' (Nat.le_of_add_left_le enough)
      have value := own n depth _ (by omega) (by omega)
        (ends_writeMembers ((nextName, next) :: more) rest)
      have within : membersFuel ((nextName, next) :: more) ≤ n := by omega
      have tail := ih later second within ((Nat.le_max_right _ _).trans deep)
      rw [List.map_append, List.map_cons, List.map_append, List.append_assoc, List.cons_append,
        List.append_assoc]
      exact (readMembers_name value).2 _ _ _ rfl tail

/-- A document begins with a character that is no white space and no bracket that closes. -/
theorem head_write (d : Doc) : ∃ c text, d.write = c :: text ∧ isSpace c = false ∧ c ≠ ']' := by
  cases d with
  | null => exact ⟨_, _, rfl, by decide⟩
  | bool b =>
      cases b with
      | false => exact ⟨_, _, rfl, by decide⟩
      | true => exact ⟨_, _, rfl, by decide⟩
  | int n =>
      cases n with
      | ofNat n =>
          obtain ⟨c, digits, written, _⟩ := toDigits_head n
          have isDigit : c.isDigit = true := by
            apply Nat.isDigit_of_mem_toDigits (b := 10) (n := n) (by decide) (by decide)
            rw [written]
            exact List.mem_cons_self
          refine ⟨c, digits, written, ?_, ?_⟩
          · by_contra space
            simp only [isSpace, Bool.not_eq_false, Bool.or_eq_true, decide_eq_true_eq] at space
            rcases space with ((rfl | rfl) | rfl) | rfl <;> cases isDigit
          · intro closes
            rw [closes] at isDigit
            cases isDigit
      | negSucc n => exact ⟨_, _, rfl, by decide⟩
  | string text => exact ⟨_, _, rfl, by decide⟩
  | array elements =>
      cases elements with
      | nil => exact ⟨_, _, rfl, by decide⟩
      | cons first more => exact ⟨_, _, rfl, by decide⟩
  | object members =>
      cases members with
      | nil => exact ⟨_, _, rfl, by decide⟩
      | cons first more => exact ⟨_, _, rfl, by decide⟩

/-- An array is read back if its elements are. -/
theorem read_array {elements : List Doc} (each : ∀ d ∈ elements, d.Read) :
    (Doc.array elements).Read := by
  intro n depth rest enough deep _
  rw [fuel] at enough
  rw [Doc.depth] at deep
  obtain ⟨n, rfl⟩ := Nat.exists_eq_add_of_le' (Nat.le_of_add_left_le enough)
  have nested : depth ≠ 0 := by omega
  cases elements with
  | nil =>
      rw [write, readValue]
      simp only [List.map_cons, List.map_nil, List.cons_append, List.nil_append,
        skipSpace_cons (c := '[') rfl, nested, ↓reduceIte]
      rfl
  | cons first more =>
      obtain ⟨own, each⟩ := List.forall_mem_cons.mp each
      have inner := readElements_write each own (n := n) (by omega) (Nat.le_sub_one_of_lt deep) rest
      have opens : expect [']'] (skipSpace
          ((first.write ++ writeElements more).map some ++ rest)) = none := by
        obtain ⟨c, text, written, visible, other⟩ := head_write first
        rw [written, List.cons_append, List.map_cons, List.cons_append, skipSpace_cons visible]
        exact if_neg (Ne.symm other)
      rw [write, List.map_cons, List.cons_append, readValue, skipSpace_cons (c := '[') rfl]
      simp only [nested, ↓reduceIte, opens, inner]
      rfl

/-- An object is read back if its members are. -/
theorem read_object {members : List (Bytes × Doc)} (each : ∀ m ∈ members, m.2.Read) :
    (Doc.object members).Read := by
  intro n depth rest enough deep _
  rw [fuel] at enough
  rw [Doc.depth] at deep
  obtain ⟨n, rfl⟩ := Nat.exists_eq_add_of_le' (Nat.le_of_add_left_le enough)
  have nested : depth ≠ 0 := by omega
  cases members with
  | nil =>
      rw [write, readValue]
      simp only [List.map_cons, List.map_nil, List.cons_append, List.nil_append,
        skipSpace_cons (c := '\x7b') rfl, nested, ↓reduceIte]
      rfl
  | cons first more =>
      obtain ⟨name, first⟩ := first
      obtain ⟨own, each⟩ := List.forall_mem_cons.mp each
      have within : membersFuel ((name, first) :: more) ≤ n := by omega
      have inner := readMembers_write each own within (Nat.le_sub_one_of_lt deep) rest
      have opens : expect ['\x7d'] (skipSpace
          ((quote name ++ ':' :: (first.write ++ writeMembers more)).map some ++ rest)) =
            none := rfl
      rw [write, List.map_cons, List.cons_append, readValue, skipSpace_cons (c := '\x7b') rfl]
      simp only [nested, ↓reduceIte, opens, inner]
      rfl

/-- The words of JSON are read back, whatever follows. -/
theorem reads_word : Reads Doc.null.write .null ∧ ∀ b, Reads (Doc.bool b).write (.bool b) := by
  refine ⟨fun _ _ _ _ => rfl, fun b => ?_⟩
  cases b with
  | false => exact fun _ _ _ _ => rfl
  | true => exact fun _ _ _ _ => rfl

/-- Every document is read. -/
theorem read (d : Doc) : d.Read := by
  induction d using Doc.induction with
  | null => exact read_of_reads rfl reads_word.1
  | bool b => exact read_of_reads rfl (reads_word.2 b)
  | int n => exact read_of_reads rfl (reads_decimal n)
  | string text => exact read_of_reads rfl (reads_quote text)
  | array elements each => exact read_array each
  | object members each => exact read_object each

theorem length_write_pos (d : Doc) : 0 < d.write.length := by
  obtain ⟨c, text, written, _⟩ := head_write d
  rw [written]
  exact Nat.succ_pos _

/-- The fuel of elements is bounded by the text that separates and holds them. -/
theorem elementsFuel_le {elements : List Doc} (each : ∀ d ∈ elements, d.fuel ≤ 2 * d.write.length) :
    elementsFuel elements ≤ 2 * (writeElements elements).length := by
  induction elements with
  | nil => exact Nat.zero_le _
  | cons next more ih =>
      obtain ⟨own, each⟩ := List.forall_mem_cons.mp each
      have rest := ih each
      simp only [elementsFuel, writeElements, List.length_cons, List.length_append]
      omega

/-- The fuel of members is bounded by the text that separates and holds them. -/
theorem membersFuel_le {members : List (Bytes × Doc)}
    (each : ∀ m ∈ members, m.2.fuel ≤ 2 * m.2.write.length) :
    membersFuel members ≤ 2 * (writeMembers members).length := by
  induction members with
  | nil => exact Nat.zero_le _
  | cons next more ih =>
      obtain ⟨own, each⟩ := List.forall_mem_cons.mp each
      have rest := ih each
      simp only [membersFuel, writeMembers, List.length_cons, List.length_append]
      omega

/-- Of two steps of the reader one at least reads a character. -/
theorem fuel_le (d : Doc) : d.fuel ≤ 2 * d.write.length := by
  have scalar {d : Doc} (one : d.fuel = 1) : d.fuel ≤ 2 * d.write.length := by
    have := d.length_write_pos
    omega
  induction d using Doc.induction with
  | null => exact scalar rfl
  | bool b => exact scalar rfl
  | int n => exact scalar rfl
  | string text => exact scalar rfl
  | array elements each =>
      cases elements with
      | nil => exact scalar rfl
      | cons first more =>
          obtain ⟨own, each⟩ := List.forall_mem_cons.mp each
          have rest := elementsFuel_le each
          simp only [fuel, elementsFuel, write, List.length_cons, List.length_append]
          omega
  | object members each =>
      cases members with
      | nil => exact scalar rfl
      | cons first more =>
          obtain ⟨own, each⟩ := List.forall_mem_cons.mp each
          have rest := membersFuel_le each
          simp only [fuel, membersFuel, write, List.length_cons, List.length_append]
          omega

/-- An array is one deeper than its elements. -/
theorem depth_array_le {elements : List Doc} {n : Nat} (each : ∀ d ∈ elements, d.depth ≤ n) :
    (Doc.array elements).depth ≤ n + 1 := by
  apply Nat.succ_le_succ
  induction elements with
  | nil => exact Nat.zero_le _
  | cons first more ih =>
      obtain ⟨own, each⟩ := List.forall_mem_cons.mp each
      exact Nat.max_le.mpr ⟨own, ih each⟩

/-- An object is one deeper than its members. -/
theorem depth_object_le {members : List (Bytes × Doc)} {n : Nat}
    (each : ∀ m ∈ members, m.2.depth ≤ n) : (Doc.object members).depth ≤ n + 1 := by
  apply Nat.succ_le_succ
  induction members with
  | nil => exact Nat.zero_le _
  | cons first more ih =>
      obtain ⟨own, each⟩ := List.forall_mem_cons.mp each
      exact Nat.max_le.mpr ⟨own, ih each⟩

end Doc

/-- What was written is read back. -/
theorem readText_write {d : Doc} (deep : d.depth ≤ maxNestingDepth) :
    readText (encodeRunes d.write) = some d.value := by
  have enough := d.fuel_le
  have read := d.read (2 * d.write.length + 2) maxNestingDepth [] (by omega) deep
    fun _ _ same => by cases same
  rw [List.append_nil] at read
  rw [readText, readFirst, runes_encodeRunes, List.length_map, read]
  rfl

section Slices

variable {α : Type} (set : α → Value → Option α) (zero : α)

/-- The elements of an array, each read into what was at its place before. -/
def setElements : List α → List Value → Option (List α)
  | _, [] => some []
  | old, element :: elements =>
      (set (old.headD zero) element).bind fun first =>
        (setElements old.tail elements).map (first :: ·)

/-- Setting a slice. -/
def setSlice (old : List α) : Value → Option (List α)
  | .null => some []
  | .array elements => setElements set zero old elements
  | _ => none

/-- A new slice has what each element is read as. -/
theorem setElements_values {β : Type} {doc : β → Doc} {meaning : β → α} {list : List β}
    (each : ∀ b ∈ list, set zero (doc b).value = some (meaning b)) :
    setElements set zero [] (Doc.values (list.map doc)) = some (list.map meaning) := by
  induction list with
  | nil => rfl
  | cons first more ih =>
      obtain ⟨own, later⟩ := List.forall_mem_cons.mp each
      simp only [List.map_cons, Doc.values, setElements, List.headD_nil, own, Option.bind_some,
        List.tail_nil, ih later, Option.map_some]

end Slices

end Foundation.Json

namespace Foundation

open Json

/-- `json.Marshal` of a `[]string` that is not nil. -/
def marshalStrings (names : List Bytes) : Bytes :=
  encodeRunes (Doc.array (names.map .string)).write

/-- `json.Unmarshal` into an empty `[]string`; `none` when it returns an error. -/
def unmarshalStrings (text : Bytes) : Option (List Bytes) :=
  (readText text).bind (setSlice Value.setString [] [])

/-- Names in UTF-8 are read back from the text that was written for them. -/
theorem unmarshalStrings_marshalStrings {names : List Bytes}
    (valid : ∀ name ∈ names, validUtf8 name = true) :
    unmarshalStrings (marshalStrings names) = some names := by
  have flat : (Doc.array (names.map .string)).depth ≤ 1 := by
    refine Doc.depth_array_le fun d member => ?_
    obtain ⟨name, _, rfl⟩ := List.mem_map.mp member
    exact le_rfl
  have deep : (Doc.array (names.map .string)).depth ≤ maxNestingDepth :=
    flat.trans (by decide)
  have each : ∀ name ∈ names, Value.setString [] (Doc.string name).value = some (id name) :=
    fun name member => congrArg some (encodeRunes_clean (valid name member))
  have elements := setElements_values Value.setString [] each
  rw [List.map_id] at elements
  rw [unmarshalStrings, marshalStrings, readText_write deep, Option.bind_some]
  exact elements

end Foundation

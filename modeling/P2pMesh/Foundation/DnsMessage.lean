import P2pMesh.Foundation.BigEndian

/-! # The wire format of DNS messages

A message is a header followed by its questions and its three sections of resource
records. The counts in the header are the lengths of the sections and the length in
front of a record's data is that of the data, so a byte string is well formed when it is
`Message.bytes` of some message. A name is a list of labels that ends at the root or in
a compression pointer.
-/

namespace Foundation.DnsMessage

/-- A label: between one and 63 bytes. -/
abbrev Label := { text : Bytes // 0 < text.length ∧ text.length < 64 }

/-- A text behind its length. -/
def labelBytes (text : Bytes) : Bytes :=
  UInt8.ofNat text.length :: text

/-- A name as it stands in a message; without a pointer it ends at the root. -/
structure Name where
  labels : List Label
  pointer : Option (Fin (2 ^ 14))

/-- The end of a name: a root byte or a pointer. -/
def Name.ending : Option (Fin (2 ^ 14)) → Bytes
  | none => [0]
  | some target => putUint16 (UInt16.ofNat (0xC000 + target))

/-- A name on the wire. -/
def Name.bytes (name : Name) : Bytes :=
  (name.labels.map Subtype.val).flatMap labelBytes ++ Name.ending name.pointer

/-- A question of a message. -/
structure Question where
  name : Name
  qtype : UInt16
  qclass : UInt16

/-- A question on the wire. -/
def Question.bytes (question : Question) : Bytes :=
  question.name.bytes ++ putUint16 question.qtype ++ putUint16 question.qclass

/-- A resource record. -/
structure Record where
  name : Name
  rtype : UInt16
  rclass : UInt16
  ttl : UInt32
  rdata : Bytes
  short : rdata.length < 2 ^ 16

/-- A resource record on the wire. -/
def Record.bytes (record : Record) : Bytes :=
  record.name.bytes ++ putUint16 record.rtype ++ putUint16 record.rclass ++
    putUint32 record.ttl ++ putUint16 (UInt16.ofNat record.rdata.length) ++ record.rdata

/-- The twelve bytes in front of the sections. -/
def header (id flags qdcount ancount nscount arcount : UInt16) : Bytes :=
  putUint16 id ++ putUint16 flags ++ putUint16 qdcount ++ putUint16 ancount ++
    putUint16 nscount ++ putUint16 arcount

/-- A message with its four sections. -/
structure Message where
  id : UInt16
  flags : UInt16
  questions : List Question
  answers : List Record
  authorities : List Record
  additionals : List Record
  countable : questions.length < 2 ^ 16 ∧ answers.length < 2 ^ 16 ∧
    authorities.length < 2 ^ 16 ∧ additionals.length < 2 ^ 16

/-- A message on the wire, with the counts of its sections. -/
def Message.bytes (m : Message) : Bytes :=
  header m.id m.flags (UInt16.ofNat m.questions.length) (UInt16.ofNat m.answers.length)
      (UInt16.ofNat m.authorities.length) (UInt16.ofNat m.additionals.length) ++
    m.questions.flatMap Question.bytes ++ m.answers.flatMap Record.bytes ++
    m.authorities.flatMap Record.bytes ++ m.additionals.flatMap Record.bytes

theorem putUint16_injective : Function.Injective putUint16 :=
  Function.LeftInverse.injective uint16_putUint16

/-- A count of sixteen bits is determined by its word. -/
theorem ofNat_injOn {left right : Nat} (leftShort : left < 2 ^ 16) (rightShort : right < 2 ^ 16)
    (same : UInt16.ofNat left = UInt16.ofNat right) : left = right := by
  have values := congrArg UInt16.toNat same
  rwa [UInt16.toNat_ofNat_of_lt' leftShort, UInt16.toNat_ofNat_of_lt' rightShort] at values

/-- A section whose count is zero is empty. -/
theorem eq_nil_of_count {α : Type*} {items : List α} (short : items.length < 2 ^ 16)
    (zero : 0 = UInt16.ofNat items.length) : items = [] :=
  List.length_eq_zero_iff.mp (ofNat_injOn (Nat.two_pow_pos 16) short zero).symm

/-- The fields of a header are determined by its bytes, whatever follows them. -/
theorem header_append_inj {id flags qd an ns ar id' flags' qd' an' ns' ar' : UInt16}
    {rest rest' : Bytes}
    (same : header id flags qd an ns ar ++ rest = header id' flags' qd' an' ns' ar' ++ rest') :
    (qd = qd' ∧ an = an' ∧ ns = ns' ∧ ar = ar') ∧ rest = rest' := by
  simp only [header, List.append_assoc] at same
  obtain ⟨_, same⟩ := List.append_inj same (by simp)
  obtain ⟨_, same⟩ := List.append_inj same (by simp)
  obtain ⟨questions, same⟩ := List.append_inj same (by simp)
  obtain ⟨answers, same⟩ := List.append_inj same (by simp)
  obtain ⟨authorities, same⟩ := List.append_inj same (by simp)
  obtain ⟨additionals, same⟩ := List.append_inj same (by simp)
  exact ⟨⟨putUint16_injective questions, putUint16_injective answers,
    putUint16_injective authorities, putUint16_injective additionals⟩, same⟩

/-- A message whose counts are all zero has nothing after its header. -/
theorem Message.eq_nil_of_counts {m : Message} {id flags : UInt16} {rest : Bytes}
    (same : header id flags 0 0 0 0 ++ rest = m.bytes) : rest = [] := by
  simp only [Message.bytes, List.append_assoc] at same
  obtain ⟨⟨questions, answers, authorities, additionals⟩, sections⟩ := header_append_inj same
  obtain ⟨questionsShort, answersShort, authoritiesShort, additionalsShort⟩ := m.countable
  rw [eq_nil_of_count questionsShort questions, eq_nil_of_count answersShort answers,
    eq_nil_of_count authoritiesShort authorities,
    eq_nil_of_count additionalsShort additionals] at sections
  simpa using sections

/-- The first byte of a name's ending is no length of a label. -/
theorem Name.ending_eq_cons {pointer : Option (Fin (2 ^ 14))} {byte : UInt8} {rest : Bytes}
    (same : Name.ending pointer = byte :: rest) : (byte = 0 ∧ rest = []) ∨ 64 ≤ byte.toNat := by
  cases pointer with
  | none =>
      cases same
      exact Or.inl ⟨rfl, rfl⟩
  | some target =>
      refine Or.inr ?_
      have first : byte = UInt8.ofNat ((0xC000 + target) % 2 ^ 16 / 256) := by
        simp only [Name.ending, putUint16, beBytes, UInt16.toNat_ofNat', List.nil_append,
          List.singleton_append, List.cons.injEq] at same
        exact same.1.symm
      have small := target.isLt
      rw [first, UInt8.toNat_ofNat']
      omega

/-- A name is one of texts behind their lengths, all short enough for labels and followed
by the root, only if none of the texts is empty. -/
theorem Name.nonempty_of_bytes {texts : List Bytes} (short : ∀ text ∈ texts, text.length < 64)
    {name : Name} (same : name.bytes = texts.flatMap labelBytes ++ [0]) : [] ∉ texts := by
  obtain ⟨labels, pointer⟩ := name
  unfold Name.bytes at same
  induction texts generalizing labels with
  | nil => exact List.not_mem_nil
  | cons text texts ih =>
      obtain ⟨textShort, textsShort⟩ := List.forall_mem_cons.mp short
      have lengthByte : (UInt8.ofNat text.length).toNat = text.length := by
        rw [UInt8.toNat_ofNat']
        omega
      cases labels with
      | nil =>
          -- The name ends here, so the first text would be its root.
          rcases Name.ending_eq_cons same with ⟨_, ended⟩ | large
          · simp [labelBytes] at ended
          · omega
      | cons label labels =>
          simp only [List.map_cons, List.flatMap_cons, labelBytes, List.cons_append,
            List.append_assoc, List.cons.injEq] at same
          obtain ⟨sameLength, same⟩ := same
          have labelLength : label.1.length = text.length := by
            have values := congrArg UInt8.toNat sameLength
            have labelShort := label.2.2
            rw [lengthByte, UInt8.toNat_ofNat'] at values
            omega
          obtain ⟨_, rest⟩ := List.append_inj same labelLength
          rw [List.mem_cons, not_or]
          refine ⟨?_, ih textsShort labels rest⟩
          intro empty
          have positive := label.2.1
          rw [labelLength, ← empty, List.length_nil] at positive
          exact absurd positive (Nat.lt_irrefl 0)

/-- The name of given labels that ends at the root. -/
def Name.ofTexts (texts : List Bytes)
    (valid : ∀ text ∈ texts, 0 < text.length ∧ text.length < 64) : Name :=
  ⟨texts.attachWith _ valid, none⟩

/-- A name is written as its labels and a zero byte. -/
theorem Name.bytes_ofTexts (texts : List Bytes)
    (valid : ∀ text ∈ texts, 0 < text.length ∧ text.length < 64) :
    (Name.ofTexts texts valid).bytes = texts.flatMap labelBytes ++ [0] := by
  simp only [Name.bytes, Name.ofTexts, List.attachWith_map_subtype_val, Name.ending]

end Foundation.DnsMessage

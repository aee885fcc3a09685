import P2pMesh.Dns.Name
import P2pMesh.Foundation.DnsMessage
import P2pMesh.Foundation.NetAddr
import P2pMesh.Foundation.Parts

/-! # Replies of the DNS proxy

`BuildReply`, `BuildServFail` and `encodeName` of `internal/dns/msg.go`, and the choice
between them in `Proxy.handle`. An address is the byte string of a `net.IP`, and a list
of addresses is `none` when the slice is nil. A reply is a message that repeats the
question and carries the addresses of its family exactly when resolution did not fail,
the name has no empty part, and the addresses can be counted in sixteen bits
(`P2pMesh.Dns.reply_isMessage_iff`).
-/

namespace P2pMesh.Dns

open Foundation DnsMessage
open NetAddr (v4InV6Prefix)

/-- `TypeA`. -/
def typeA : UInt16 := 1

/-- `TypeAAAA`. -/
def typeAAAA : UInt16 := 28

/-- `ClassIN`. -/
def classIN : UInt16 := 1

/-- The texts that `encodeName` puts behind their lengths. -/
def nameTexts (name : Bytes) : List Bytes :=
  if name = [] then [] else name.splitOn dot

/-- `encodeName`. -/
def encodeName (name : Bytes) : Bytes :=
  (nameTexts name).flatMap labelBytes ++ [0]

/-- `net.IP.To4`. -/
def to4 (ip : Bytes) : Option Bytes :=
  if ip.length = 4 then some ip
  else if ip.length = 16 ∧ ip.take 12 = v4InV6Prefix then some (ip.drop 12)
  else none

/-- `net.IP.To16`. -/
def to16 (ip : Bytes) : Option Bytes :=
  if ip.length = 4 then some (v4InV6Prefix ++ ip)
  else if ip.length = 16 then some ip
  else none

/-- What `BuildReply` keeps of an address for a question of a type. -/
def familyAnswer (qType : UInt16) (ip : Bytes) : Option Bytes :=
  match to16 ip with
  | none => none
  | some ip =>
      if qType = typeA ∧ (to4 ip).isSome then to4 ip
      else if qType = typeAAAA ∧ to4 ip = none then some ip
      else none

/-- The question section of a reply. -/
def questionSection (q : Query) : Bytes :=
  encodeName q.qName ++ putUint16 q.qType ++ putUint16 q.qClass

/-- An answer, whose name is a pointer to the question. -/
def answerBytes (qType rdlen : UInt16) (ip : Bytes) : Bytes :=
  [0xC0, 0x0C] ++ putUint16 qType ++ putUint16 classIN ++ putUint32 60 ++ putUint16 rdlen ++ ip

/-- The flags QR and RA, the response code, and RD when the query asks for it. -/
def replyFlags (q : Query) (rcode : UInt16) : UInt16 :=
  if q.wantRec then 0x8000 ||| 0x0080 ||| rcode ||| 0x0100 else 0x8000 ||| 0x0080 ||| rcode

/-- `BuildReply`. -/
def buildReply (q : Query) (ips : Option (List Bytes)) : Bytes :=
  let rcode : UInt16 := if ips = none then 3 else 0
  let answers := (ips.getD []).filterMap (familyAnswer q.qType)
  let rdlen : UInt16 := if q.qType = typeAAAA then 16 else 4
  header q.id (replyFlags q rcode) 1 (UInt16.ofNat answers.length) 0 0 ++ questionSection q ++
    answers.flatMap (answerBytes q.qType rdlen)

/-- `BuildServFail`: the counts stay zero, the question is appended all the same. -/
def buildServFail (q : Query) : Bytes :=
  header q.id (0x8000 ||| 2) 0 0 0 0 ++ questionSection q

/-- `containsAny`. -/
def containsAny (text : Bytes) (subs : List Bytes) : Bool :=
  subs.any fun sub =>
    0 < sub.length && sub.length ≤ text.length &&
      (List.range (text.length + 1 - sub.length)).any fun i =>
        (text.drop i).take sub.length == sub

/-- `isNXDomainErr` on the text of the error. -/
def isNXDomainErr (msg : Bytes) : Bool :=
  containsAny msg [ascii "not known (or not in this room)", ascii "not a node name"]

/-- What `Resolve` returns: the text of an error, or a slice of addresses. -/
abbrev Outcome := Except Bytes (Option (List Bytes))

/-- The reply that `handle` builds. -/
def reply (q : Query) : Outcome → Bytes
  | .error cause => if isNXDomainErr cause then buildReply q none else buildServFail q
  | .ok ips => buildReply q ips

/-- The outcome is an error that is no missing name. -/
def fails : Outcome → Bool
  | .error cause => !isNXDomainErr cause
  | .ok _ => false

/-- The addresses of the family of a question, IPv4 addresses in four bytes. -/
def ofFamily (qType : UInt16) (ips : List Bytes) : List Bytes :=
  if qType = typeA then ips.filterMap to4
  else if qType = typeAAAA then ips.filter fun ip => ip.length = 16 ∧ to4 ip = none
  else []

/-- The addresses that answer the question. -/
def resolved (q : Query) : Outcome → List Bytes
  | .ok (some ips) => ofFamily q.qType ips
  | _ => []

/-- The message repeats the question, its answers are the addresses that answer it, in
order, and it has no other sections. -/
structure Responds (m : Message) (q : Query) (outcome : Outcome) : Prop where
  question : ∃ question, m.questions = [question] ∧ question.bytes = questionSection q
  rdata : m.answers.map Record.rdata = resolved q outcome
  rtype : ∀ record ∈ m.answers, record.rtype = q.qType ∧ record.rclass = classIN
  nothingElse : m.authorities = [] ∧ m.additionals = []

section Families

/-- An IPv4 address in its IPv6 form is taken as the IPv4 address. -/
theorem to4_mapped {ip : Bytes} (four : ip.length = 4) : to4 (v4InV6Prefix ++ ip) = some ip := by
  have sixteen : (v4InV6Prefix ++ ip).length = 16 := by
    rw [List.length_append, four]
    rfl
  have first : (v4InV6Prefix ++ ip).take 12 = v4InV6Prefix := List.take_left' rfl
  have rest : (v4InV6Prefix ++ ip).drop 12 = ip := List.drop_left' rfl
  simp only [to4, sixteen, first, rest, Nat.reduceEqDiff, and_self, ↓reduceIte]

/-- The address of sixteen bytes is IPv4 when the address it was made from is. -/
theorem to4_to16 {ip wide : Bytes} (widened : to16 ip = some wide) : to4 wide = to4 ip := by
  unfold to16 at widened
  split at widened
  · next four =>
      cases widened
      rw [to4_mapped four, to4, if_pos four]
  · split at widened
    · cases widened
      rfl
    · cases widened

/-- What is no address is no IPv4 address. -/
theorem to4_of_to16_none {ip : Bytes} (failed : to16 ip = none) : to4 ip = none := by
  unfold to16 at failed
  split at failed
  · cases failed
  · next four =>
      split at failed
      · cases failed
      · next sixteen => simp only [to4, four, sixteen, ↓reduceIte, false_and]

/-- A question of type A is answered by the IPv4 form of an address. -/
theorem familyAnswer_typeA (ip : Bytes) : familyAnswer typeA ip = to4 ip := by
  unfold familyAnswer
  cases widened : to16 ip with
  | none => exact (to4_of_to16_none widened).symm
  | some wide =>
      have other : typeA ≠ typeAAAA := by decide
      simp only [to4_to16 widened, true_and, other, false_and, ↓reduceIte]
      split
      · rfl
      · next missing => exact (Option.not_isSome_iff_eq_none.mp missing).symm

/-- A question of type AAAA is answered by an address of 16 bytes that is no IPv4 address. -/
theorem familyAnswer_typeAAAA (ip : Bytes) :
    familyAnswer typeAAAA ip = if ip.length = 16 ∧ to4 ip = none then some ip else none := by
  have other : typeAAAA ≠ typeA := by decide
  unfold familyAnswer to16
  by_cases four : ip.length = 4
  · simp [other, four, to4_mapped four]
  · by_cases sixteen : ip.length = 16
    · simp [other, sixteen]
    · simp [four, sixteen]

/-- A question of another type is answered by no address. -/
theorem familyAnswer_other {qType : UInt16} (noA : qType ≠ typeA) (noAAAA : qType ≠ typeAAAA)
    (ip : Bytes) : familyAnswer qType ip = none := by
  unfold familyAnswer
  split
  · rfl
  · simp only [noA, noAAAA, false_and, ↓reduceIte]

/-- `BuildReply` keeps the addresses of the question's family. -/
theorem filterMap_familyAnswer (qType : UInt16) (ips : List Bytes) :
    ips.filterMap (familyAnswer qType) = ofFamily qType ips := by
  unfold ofFamily
  by_cases isA : qType = typeA
  · rw [if_pos isA, isA, funext familyAnswer_typeA]
  by_cases isAAAA : qType = typeAAAA
  · rw [if_neg isA, if_pos isAAAA, isAAAA, funext familyAnswer_typeAAAA,
      ← List.filterMap_eq_filter]
    apply List.filterMap_congr
    intro ip _
    simp only [Option.guard, decide_eq_true_eq]
  · rw [if_neg isA, if_neg isAAAA, funext (familyAnswer_other isA isAAAA)]
    exact List.filterMap_none ips

theorem length_of_to4 {ip short : Bytes} (is4 : to4 ip = some short) : short.length = 4 := by
  unfold to4 at is4
  split at is4
  · next four =>
      cases is4
      exact four
  · split at is4
    · next mapped =>
        cases is4
        rw [List.length_drop, mapped.1]
    · cases is4

/-- The addresses of a family all have the length that the reply states. -/
theorem length_of_mem_ofFamily {qType : UInt16} {ips : List Bytes} {ip : Bytes}
    (member : ip ∈ ofFamily qType ips) : ip.length = if qType = typeAAAA then 16 else 4 := by
  unfold ofFamily at member
  split at member
  · next isA =>
      obtain ⟨_, _, is4⟩ := List.mem_filterMap.mp member
      rw [length_of_to4 is4, isA]
      rfl
  · split at member
    · next isAAAA =>
        have sixteen := (of_decide_eq_true (List.mem_filter.mp member).2).1
        rw [if_pos isAAAA, sixteen]
    · cases member

end Families

section Names

/-- All parts of a dotted text are short enough for a label. -/
def ShortParts (text : Bytes) : Prop :=
  ∀ part ∈ text.splitOn dot, part.length < 64

/-- The parts of a text are no longer than it and have no dots. -/
theorem of_mem_splitOn {text part : Bytes} (member : part ∈ text.splitOn dot) :
    part.length ≤ text.length ∧ dot ∉ part :=
  ⟨(sublist_of_mem_splitOn member).1.length_le, (sublist_of_mem_splitOn member).2⟩

theorem shortParts_of_length {text : Bytes} (short : text.length < 64) : ShortParts text :=
  fun _ member => (of_mem_splitOn member).1.trans_lt short

/-- Labels of short parts make a name of short parts. -/
theorem shortParts_join {labels : List Bytes} (short : ∀ label ∈ labels, ShortParts label) :
    ShortParts (join labels) := by
  induction labels with
  | nil => exact shortParts_of_length (by decide)
  | cons label labels ih =>
      obtain ⟨labelShort, labelsShort⟩ := List.forall_mem_cons.mp short
      cases labels with
      | nil =>
          rw [join, List.intercalate_singleton]
          exact labelShort
      | cons next rest =>
          intro part member
          rw [join, List.intercalate_cons_cons, List.append_assoc, List.singleton_append,
            List.splitOn_append_cons_self, List.mem_append] at member
          rcases member with member | member
          · exact labelShort part member
          · exact ih labelsShort part member

/-- The parts of a name that is decoded come from labels. -/
theorem Decodes.shortParts {pkt : Bytes} {off past : Nat} {labels : List Bytes} {name : Bytes}
    (decodes : Decodes pkt off labels name past) (short : ∀ label ∈ labels, ShortParts label) :
    ShortParts name := by
  induction decodes with
  | root => exact shortParts_join short
  | pointer _ _ ih =>
      apply shortParts_join
      rw [List.forall_mem_append, List.forall_mem_singleton]
      exact ⟨short, ih (List.forall_mem_nil _)⟩
  | label found _ ih =>
      apply ih
      rw [List.forall_mem_append, List.forall_mem_singleton]
      exact ⟨short, shortParts_of_length (namePart_within found).2.1⟩

/-- The name of an accepted query can be encoded again. -/
theorem shortParts_parseQuery {fuel : Nat} {pkt : Bytes} {q : Query}
    (accepted : parseQuery fuel pkt = some (.ok q)) : ShortParts q.qName := by
  obtain ⟨_, _, _, decoded, _⟩ := parseQuery_eq_ok_iff.mp accepted
  exact (decodes_of_decodeName decoded).shortParts (List.forall_mem_nil _)

/-- The parts that are encoded fit behind a length byte. -/
theorem short_of_mem_nameTexts {name text : Bytes} (short : ShortParts name)
    (member : text ∈ nameTexts name) : text.length < 64 := by
  unfold nameTexts at member
  split at member
  · cases member
  · exact short text member

end Names

section Replies

/-- An answer as a record; its name is a pointer to the question's. -/
def answerRecord (qType : UInt16) (ip : { ip : Bytes // ip.length < 2 ^ 16 }) : Record :=
  ⟨⟨[], some 12⟩, qType, classIN, 60, ip.1, ip.2⟩

/-- A record is written as `BuildReply` writes an answer. -/
theorem bytes_answerRecord (qType : UInt16) (ip : { ip : Bytes // ip.length < 2 ^ 16 }) :
    (answerRecord qType ip).bytes = answerBytes qType (UInt16.ofNat ip.1.length) ip.1 :=
  rfl

/-- The records of a list of addresses. -/
def answerRecords (qType : UInt16) (ips : List Bytes) (short : ∀ ip ∈ ips, ip.length < 2 ^ 16) :
    List Record :=
  (ips.attachWith _ short).map (answerRecord qType)

/-- The answers are written as records, one after the other, if all have the stated length. -/
theorem bytes_answerRecords {qType rdlen : UInt16} {ips : List Bytes}
    (short : ∀ ip ∈ ips, ip.length < 2 ^ 16)
    (stated : ∀ ip ∈ ips, UInt16.ofNat ip.length = rdlen) :
    (answerRecords qType ips short).flatMap Record.bytes =
      ips.flatMap (answerBytes qType rdlen) := by
  rw [answerRecords, List.flatMap_map]
  simp only [bytes_answerRecord]
  rw [← List.flatMap_map Subtype.val fun ip => answerBytes qType (UInt16.ofNat ip.length) ip,
    List.attachWith_map_subtype_val]
  apply List.flatMap_congr
  intro ip member
  rw [stated ip member]

/-- The records carry the addresses. -/
theorem rdata_answerRecords {qType : UInt16} {ips : List Bytes}
    (short : ∀ ip ∈ ips, ip.length < 2 ^ 16) :
    (answerRecords qType ips short).map Record.rdata = ips := by
  rw [answerRecords, List.map_map]
  exact List.attachWith_map_subtype_val short

/-- No message has the bytes of a failure: the counts are zero and a question follows. -/
theorem buildServFail_isNoMessage (q : Query) (m : Message) : buildServFail q ≠ m.bytes := by
  intro same
  have empty := Message.eq_nil_of_counts same
  simp [questionSection, encodeName] at empty

/-- The reply to an outcome that does not fail, over the addresses that answer. -/
theorem reply_of_not_fails {q : Query} {outcome : Outcome} (succeeds : fails outcome = false) :
    ∃ flags, reply q outcome =
      header q.id flags 1 (UInt16.ofNat (resolved q outcome).length) 0 0 ++ questionSection q ++
        (resolved q outcome).flatMap
          (answerBytes q.qType (if q.qType = typeAAAA then 16 else 4)) := by
  have built (ips : Option (List Bytes)) :
      ∃ flags, buildReply q ips =
        header q.id flags 1 (UInt16.ofNat (ofFamily q.qType (ips.getD [])).length) 0 0 ++
          questionSection q ++ (ofFamily q.qType (ips.getD [])).flatMap
            (answerBytes q.qType (if q.qType = typeAAAA then 16 else 4)) := by
    simp only [buildReply, filterMap_familyAnswer]
    exact ⟨_, rfl⟩
  have nothing : ofFamily q.qType [] = [] := by
    unfold ofFamily
    split
    · rfl
    · split <;> rfl
  cases outcome with
  | error cause =>
      have missing : isNXDomainErr cause = true := by simpa [fails] using succeeds
      simp only [reply, missing, ↓reduceIte, resolved]
      simpa [nothing] using built none
  | ok ips =>
      cases ips with
      | none => simpa [nothing, reply, resolved] using built none
      | some ips => exact built (some ips)

/-- The parts of a name that is not empty are all labels. -/
def NoEmptyPart (name : Bytes) : Prop :=
  name = [] ∨ [] ∉ name.splitOn dot

instance (name : Bytes) : Decidable (NoEmptyPart name) :=
  inferInstanceAs (Decidable (_ ∨ _))

/-- No part of a name is empty exactly if no text that is encoded is. -/
theorem noEmptyPart_iff (name : Bytes) : NoEmptyPart name ↔ [] ∉ nameTexts name := by
  unfold NoEmptyPart nameTexts
  by_cases empty : name = []
  · simp [empty]
  · simp [empty]

/-- All addresses of an answer have the length that its type asks for. -/
theorem length_mem_resolved {q : Query} {outcome : Outcome} {ip : Bytes}
    (member : ip ∈ resolved q outcome) : ip.length = if q.qType = typeAAAA then 16 else 4 := by
  unfold resolved at member
  split at member
  · exact length_of_mem_ofFamily member
  · cases member

/-- A reply to a name without empty parts is a message, when its answers can be counted. -/
theorem exists_message {q : Query} {outcome : Outcome} (succeeds : fails outcome = false)
    (short : ShortParts q.qName) (noEmpty : NoEmptyPart q.qName)
    (countable : (resolved q outcome).length < 2 ^ 16) :
    ∃ m : Message, reply q outcome = m.bytes ∧ Responds m q outcome := by
  have valid : ∀ text ∈ nameTexts q.qName, 0 < text.length ∧ text.length < 64 := by
    intro text member
    refine ⟨List.length_pos_iff.mpr ?_, short_of_mem_nameTexts short member⟩
    rintro rfl
    exact (noEmptyPart_iff _).mp noEmpty member
  have small : ∀ ip ∈ resolved q outcome, ip.length < 2 ^ 16 := by
    intro ip member
    rw [length_mem_resolved member]
    split <;> decide
  have stated : ∀ ip ∈ resolved q outcome,
      UInt16.ofNat ip.length = if q.qType = typeAAAA then 16 else 4 := by
    intro ip member
    rw [length_mem_resolved member]
    split <;> rfl
  obtain ⟨flags, bytes⟩ := reply_of_not_fails succeeds
  let question : Question := ⟨Name.ofTexts _ valid, q.qType, q.qClass⟩
  let answers := answerRecords q.qType (resolved q outcome) small
  have counted : answers.length = (resolved q outcome).length := by
    simp only [answers, answerRecords, List.length_map, List.length_attachWith]
  have asked : question.bytes = questionSection q := by
    simp only [question, Question.bytes, Name.bytes_ofTexts, questionSection, encodeName]
  refine ⟨⟨q.id, flags, [question], answers, [], [], by simp, counted ▸ countable, by simp,
    by simp⟩, ?_, ⟨question, rfl, asked⟩, rdata_answerRecords small, ?_, rfl, rfl⟩
  · rw [bytes, ← bytes_answerRecords small stated]
    simp only [Message.bytes, List.length_singleton, List.length_nil, List.flatMap_cons,
      List.flatMap_nil, List.append_nil, asked, counted]
    rfl
  · intro record member
    obtain ⟨_, _, rfl⟩ := List.mem_map.mp member
    exact ⟨rfl, rfl⟩

end Replies

/-- The reply to an accepted packet is a message that repeats the question and whose
answers are the resolved addresses of its family, exactly when resolution does not fail,
no part of the name between dots is empty, and fewer than 65536 addresses answer. -/
theorem reply_isMessage_iff {fuel : Nat} {pkt : Bytes} {q : Query}
    (accepted : parseQuery fuel pkt = some (.ok q)) (outcome : Outcome) :
    (∃ m : Message, reply q outcome = m.bytes ∧ Responds m q outcome) ↔
      fails outcome = false ∧ NoEmptyPart q.qName ∧ (resolved q outcome).length < 65536 := by
  have short : ShortParts q.qName := shortParts_parseQuery accepted
  constructor
  · rintro ⟨m, same, responds⟩
    refine ⟨?_, ?_, ?_⟩
    · cases outcome with
      | ok ips => rfl
      | error cause =>
          cases missing : isNXDomainErr cause with
          | true => simp only [fails, missing, Bool.not_true]
          | false =>
              simp only [reply, missing, Bool.false_eq_true, ↓reduceIte] at same
              exact absurd same (buildServFail_isNoMessage q m)
    · obtain ⟨question, _, asked⟩ := responds.question
      simp only [Question.bytes, questionSection, List.append_assoc] at asked
      have sameName := (List.append_inj' asked (by simp)).1
      rw [noEmptyPart_iff]
      exact Name.nonempty_of_bytes (fun _ member => short_of_mem_nameTexts short member) sameName
    · rw [← responds.rdata, List.length_map]
      exact m.countable.2.1
  · rintro ⟨succeeds, noEmpty, countable⟩
    exact exists_message succeeds short noEmpty countable

/-- A query for the addresses of `a.com`. -/
def sampleQuery : Bytes :=
  [0x12, 0x34, 0x01, 0x00, 0, 1, 0, 0, 0, 0, 0, 0] ++
    [1, 0x61, 3, 0x63, 0x6f, 0x6d, 0, 0, 1, 0, 1]

/-- What is parsed from it. -/
def sampleParsed : Query :=
  ⟨0x1234, ascii "a.com", typeA, classIN, true⟩

/-- An address of a wrong length is left out of the answers. -/
theorem sampleQuery_answered :
    ∃ m : Message, reply sampleParsed (.ok (some [[10, 0, 0, 1], [0, 0]])) = m.bytes ∧
      Responds m sampleParsed (.ok (some [[10, 0, 0, 1], [0, 0]])) :=
  (reply_isMessage_iff (show parseQuery 4 sampleQuery = some (.ok sampleParsed) by decide)
    _).mpr (by decide)

/-- The upstream does not answer. -/
theorem sampleQuery_failed_isNoMessage :
    parseQuery 4 sampleQuery = some (.ok sampleParsed) ∧
      ¬ ∃ m : Message, reply sampleParsed (.error (ascii "server misbehaving")) = m.bytes := by
  refine ⟨by decide, ?_⟩
  rintro ⟨m, same⟩
  exact buildServFail_isNoMessage sampleParsed m same

end P2pMesh.Dns

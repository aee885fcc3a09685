import P2pMesh.Dns.Message
import Mathlib.Data.List.TakeWhile

/-! # The question of a reply

`decodeName` turns the labels of a name into a dotted text and `encodeName` turns a dotted text
into labels. A name of labels without dots is decoded as it was encoded, whatever surrounds it
(`P2pMesh.Dns.decodeName_encodeName`). A text does not tell a dot inside of a label from one
between labels, and a pointer to a root byte adds an empty part to it; the question of a reply
is that of the query exactly when neither occurs (`P2pMesh.Dns.echoes_iff`).
-/

namespace P2pMesh.Dns

open Foundation DnsMessage

/-- The labels of the name at an offset, with its pointers followed, and the offset just past the
name. -/
inductive WireName (pkt : Bytes) : Nat → List Bytes → Nat → Prop where
  | root {off : Nat} : namePart pkt off = .ok .root → WireName pkt off [] (off + 1)
  | label {off past last : Nat} {text : Bytes} {labels : List Bytes} :
      namePart pkt off = .ok (.label text past) → WireName pkt past labels last →
      WireName pkt off (text :: labels) last
  | pointer {off target last : Nat} {labels : List Bytes} :
      namePart pkt off = .ok (.pointer target) → WireName pkt target labels last →
      WireName pkt off labels (off + 2)

/-- Behind the last of its labels the name at an offset has a pointer that leads to a root byte;
the labels before the offset count as well. -/
inductive EndsInPointer (pkt : Bytes) : List Bytes → Nat → Prop where
  | root {off target past : Nat} {labels : List Bytes} : labels ≠ [] →
      namePart pkt off = .ok (.pointer target) → WireName pkt target [] past →
      EndsInPointer pkt labels off
  | pointer {off target : Nat} {labels : List Bytes} :
      namePart pkt off = .ok (.pointer target) → EndsInPointer pkt [] target →
      EndsInPointer pkt labels off
  | label {off next : Nat} {labels : List Bytes} {text : Bytes} :
      namePart pkt off = .ok (.label text next) → EndsInPointer pkt (labels ++ [text]) next →
      EndsInPointer pkt labels off

/-- The question of the reply has the labels, the type and the class of the query's, and the
same query is parsed from both. -/
structure Echoes (pkt reply : Bytes) : Prop where
  question : ∃ labels past past', WireName pkt 12 labels past ∧ WireName reply 12 labels past' ∧
    wordAt reply past' = wordAt pkt past ∧ wordAt reply (past' + 2) = wordAt pkt (past + 2)
  query : ∃ q fuel fuel', parseQuery fuel pkt = some (.ok q) ∧ parseQuery fuel' reply = some (.ok q)

/-! ### Names in a packet -/

section Packets

variable {pkt : Bytes} {off past past' : Nat} {labels labels' : List Bytes}

/-- The bytes of a packet spell one name only, and it ends at one place. -/
theorem WireName.unique (first : WireName pkt off labels past)
    (second : WireName pkt off labels' past') : labels = labels' ∧ past = past' := by
  induction first generalizing labels' past' with
  | root found =>
      cases second with
      | root => exact ⟨rfl, rfl⟩
      | label other | pointer other => cases found.symm.trans other
  | label found _ ih =>
      cases second with
      | root other | pointer other => cases found.symm.trans other
      | label other rest =>
          cases found.symm.trans other
          obtain ⟨same, ends⟩ := ih rest
          exact ⟨same ▸ rfl, ends⟩
  | pointer found _ ih =>
      cases second with
      | root other | label other => cases found.symm.trans other
      | pointer other rest =>
          cases found.symm.trans other
          exact ⟨(ih rest).1, rfl⟩

/-- A label on the wire is never empty. -/
theorem WireName.nonempty (name : WireName pkt off labels past) : [] ∉ labels := by
  induction name with
  | root => exact List.not_mem_nil
  | label found _ ih =>
      rw [List.mem_cons, not_or]
      refine ⟨?_, ih⟩
      rintro rfl
      exact absurd (namePart_within found).1 (Nat.lt_irrefl 0)
  | pointer _ _ ih => exact ih

/-- A label that stands in a packet. -/
theorem namePart_labelBytes (pre : Bytes) {text : Bytes} (positive : 0 < text.length)
    (short : text.length < 64) (rest : Bytes) :
    namePart (pre ++ (labelBytes text ++ rest)) pre.length =
      .ok (.label text (pre.length + (labelBytes text).length)) := by
  have found : (pre ++ (labelBytes text ++ rest))[pre.length]? =
      some (UInt8.ofNat text.length) := by
    simp [labelBytes]
  have size : (UInt8.ofNat text.length).toNat = text.length := by
    rw [UInt8.toNat_ofNat']
    omega
  have nonzero : UInt8.ofNat text.length ≠ 0 := by
    intro zero
    rw [zero] at size
    exact absurd size.symm positive.ne'
  have low : UInt8.ofNat text.length &&& 0xC0 = 0 := by
    have every : ∀ n : Fin 64, UInt8.ofNat n &&& 0xC0 = 0 := by decide
    exact every ⟨text.length, short⟩
  have noPointer : (0 : UInt8) ≠ 0xC0 := by decide
  have inside : ¬ (pre ++ (labelBytes text ++ rest)).length < pre.length + 1 + text.length := by
    simp only [labelBytes, List.length_append, List.length_cons]
    omega
  have body :
      ((pre ++ (labelBytes text ++ rest)).drop (pre.length + 1)).take text.length = text := by
    rw [← List.drop_drop, List.drop_left, labelBytes, List.cons_append, List.drop_one,
      List.tail_cons, List.take_left]
  have past : pre.length + (labelBytes text).length = pre.length + 1 + text.length := by
    simp only [labelBytes, List.length_cons]
    omega
  simp only [namePart, found, nonzero, low, noPointer, size, inside, body, past, ne_eq,
    not_true_eq_false, ↓reduceIte]

/-- A root byte that stands in a packet. -/
theorem namePart_root (pre rest : Bytes) :
    namePart (pre ++ (0 :: rest)) pre.length = .ok .root := by
  simp [namePart]

variable {texts : List Bytes}

/-- Labels behind their lengths are read to the next root byte. -/
theorem wireName_texts (valid : ∀ text ∈ texts, 0 < text.length ∧ text.length < 64)
    (pre rest : Bytes) :
    WireName (pre ++ (texts.flatMap labelBytes ++ 0 :: rest)) pre.length texts
      (pre.length + (texts.flatMap labelBytes).length + 1) := by
  induction texts generalizing pre with
  | nil => exact .root (namePart_root pre rest)
  | cons text texts ih =>
      obtain ⟨⟨positive, short⟩, others⟩ := List.forall_mem_cons.mp valid
      have later := ih others (pre ++ labelBytes text)
      rw [List.append_assoc, List.length_append] at later
      rw [List.flatMap_cons, List.append_assoc, List.length_append, ← Nat.add_assoc]
      exact .label (namePart_labelBytes pre positive short _) later

/-- Labels that are written behind their lengths are read back, wherever they stand in the packet.
-/
theorem decodeName_texts (valid : ∀ text ∈ texts, 0 < text.length ∧ text.length < 64)
    (pre rest : Bytes) (labels : List Bytes) {fuel : Nat} (enough : texts.length < fuel) :
    decodeName (pre ++ (texts.flatMap labelBytes ++ 0 :: rest)) fuel pre.length labels =
      some (.ok (join (labels ++ texts),
        pre.length + (texts.flatMap labelBytes).length + 1)) := by
  induction texts generalizing pre labels fuel with
  | nil =>
      obtain ⟨fuel, rfl⟩ := Nat.exists_eq_succ_of_ne_zero enough.ne_bot
      rw [List.append_nil]
      simp only [decodeName, List.flatMap_nil, List.nil_append, namePart_root, List.length_nil,
        Nat.add_zero]
  | cons text texts ih =>
      obtain ⟨⟨positive, short⟩, others⟩ := List.forall_mem_cons.mp valid
      obtain ⟨fuel, rfl⟩ := Nat.exists_eq_succ_of_ne_zero enough.ne_bot
      have later :=
        ih others (pre ++ labelBytes text) (labels ++ [text]) (Nat.lt_of_succ_lt_succ enough)
      rw [List.append_assoc, List.append_assoc, List.length_append, List.singleton_append] at later
      rw [List.flatMap_cons, List.append_assoc, List.length_append, ← Nat.add_assoc]
      simp only [decodeName, namePart_labelBytes pre positive short]
      exact later

end Packets

/-! ### Dotted names -/

section Texts

variable {labels : List Bytes}

theorem join_cons (label : Bytes) {rest : List Bytes} (more : rest ≠ []) :
    join (label :: rest) = label ++ dot :: join rest := by
  obtain ⟨next, rest, rfl⟩ := List.exists_cons_of_ne_nil more
  rw [join, List.intercalate_cons_cons, List.append_assoc]
  rfl

/-- Labels can be joined in two steps. -/
theorem join_append_join (front : List Bytes) {back : List Bytes} (more : back ≠ []) :
    join (front ++ [join back]) = join (front ++ back) := by
  induction front with
  | nil => exact List.intercalate_singleton
  | cons label front ih =>
      rw [List.cons_append, List.cons_append,
        join_cons label (List.append_ne_nil_of_right_ne_nil _ more),
        join_cons label (List.append_ne_nil_of_right_ne_nil _ (List.cons_ne_nil _ _)), ih]

/-- A name of labels that are not empty is not empty. -/
theorem join_ne_nil (some : labels ≠ []) (whole : [] ∉ labels) : join labels ≠ [] := by
  obtain ⟨label, rest, rfl⟩ := List.exists_cons_of_ne_nil some
  have first : label ≠ [] := fun empty => whole (empty ▸ List.mem_cons_self)
  cases rest with
  | nil => rwa [join, List.intercalate_singleton]
  | cons next rest =>
      rw [join_cons label (List.cons_ne_nil _ _)]
      exact List.append_ne_nil_of_left_ne_nil first _

/-- The parts of a name of labels without dots are the labels. -/
theorem nameTexts_join (whole : [] ∉ labels) (noDot : ∀ label ∈ labels, dot ∉ label) :
    nameTexts (join labels) = labels := by
  by_cases none : labels = []
  · rw [none]
    rfl
  · rw [nameTexts, if_neg (join_ne_nil none whole)]
    exact List.splitOn_intercalate dot noDot none

end Texts

/-- A name of labels without dots is decoded as it was encoded, whatever stands before and
after it. -/
theorem decodeName_encodeName {labels : List Bytes}
    (valid : ∀ label ∈ labels, 0 < label.length ∧ label.length < 64)
    (noDot : ∀ label ∈ labels, dot ∉ label) (pre suf : Bytes) {fuel : Nat}
    (enough : labels.length < fuel) :
    decodeName (pre ++ encodeName (join labels) ++ suf) fuel pre.length [] =
      some (.ok (join labels, pre.length + (encodeName (join labels)).length)) := by
  have whole : [] ∉ labels := fun member => absurd (valid [] member).1 (Nat.lt_irrefl 0)
  have read := decodeName_texts valid pre suf [] enough
  rw [encodeName, nameTexts_join whole noDot, List.append_assoc, List.append_assoc,
    List.singleton_append, List.length_append, List.length_singleton, ← Nat.add_assoc]
  exact read

/-- `a.com` in front of the rest of a question. -/
theorem decodeName_encodeName_sample :
    decodeName ([1, 2] ++ encodeName (join [ascii "a", ascii "com"]) ++ [0, 1]) 3 2 [] =
      some (.ok (ascii "a.com", 9)) :=
  decodeName_encodeName (by decide) (by decide) [1, 2] [0, 1] (by decide)

/-! ### The question of a reply -/

section Replies

variable {pkt : Bytes} {off past : Nat} {labels : List Bytes} {name : Bytes}

/-- More fuel does not change what is decoded. -/
theorem decodeName_mono {outcome : Except NameError (Bytes × Nat)} {fuel more : Nat}
    (le : fuel ≤ more) (decoded : decodeName pkt fuel off labels = some outcome) :
    decodeName pkt more off labels = some outcome := by
  induction fuel generalizing off labels outcome more with
  | zero => cases decoded
  | succ fuel ih =>
      obtain ⟨more, rfl⟩ := Nat.exists_eq_succ_of_ne_zero (Nat.ne_zero_of_lt le)
      replace le := Nat.le_of_succ_le_succ le
      cases found : namePart pkt off with
      | error err => simpa only [decodeName, found] using decoded
      | ok part =>
          cases part with
          | root => simpa only [decodeName, found] using decoded
          | pointer target =>
              cases called : decodeName pkt fuel target [] with
              | none => simp only [decodeName, found, called, reduceCtorEq] at decoded
              | some inner =>
                  simpa only [decodeName, found, called, ih le called] using decoded
          | label text next =>
              simp only [decodeName, found] at decoded ⊢
              exact ih le decoded

/-- What is decoded are the labels of the name, joined, with an empty part behind them exactly if
the name ends in a pointer to a root byte. -/
theorem Decodes.wireName (decodes : Decodes pkt off labels name past) :
    ∃ wire, WireName pkt off wire past ∧
      ((¬ EndsInPointer pkt labels off ∧ name = join (labels ++ wire)) ∨
        (EndsInPointer pkt labels off ∧ labels ++ wire ≠ [] ∧
          name = join (labels ++ wire ++ [[]]))) := by
  induction decodes with
  | root found =>
      refine ⟨[], .root found, .inl ⟨fun ends => ?_, by rw [List.append_nil]⟩⟩
      cases ends with
      | root _ other | pointer other | label other => cases found.symm.trans other
  | @pointer _ _ _ labels _ found _ ih =>
      obtain ⟨wire, reads, text⟩ := ih
      refine ⟨wire, .pointer found reads, ?_⟩
      rcases text with ⟨within, rfl⟩ | ⟨within, some, rfl⟩
      · -- A pointer to the root after some labels leaves an empty label at the end.
        by_cases trails : labels ≠ [] ∧ wire = []
        · obtain ⟨some, rfl⟩ := trails
          refine .inr ⟨.root some found reads, ?_, ?_⟩
          · rwa [List.append_nil]
          · rw [List.append_nil labels]
            rfl
        · refine .inl ⟨fun ends => ?_, ?_⟩
          · cases ends with
            | root some other empty =>
                cases found.symm.trans other
                exact trails ⟨some, (reads.unique empty).1⟩
            | pointer other ends =>
                cases found.symm.trans other
                exact within ends
            | label other => cases found.symm.trans other
          · by_cases ends : wire = []
            · rw [not_and, not_imp_not] at trails
              rw [trails ends, ends]
              rfl
            · rw [List.nil_append, join_append_join labels ends]
      · rw [List.nil_append] at some
        refine .inr ⟨.pointer found within, List.append_ne_nil_of_right_ne_nil _ some, ?_⟩
        rw [List.nil_append, join_append_join labels (by simp), List.append_assoc]
  | @label _ _ _ _ text _ found _ ih =>
      obtain ⟨wire, reads, joined⟩ := ih
      rw [List.append_assoc, List.singleton_append] at joined
      refine ⟨text :: wire, .label found reads, joined.imp ?_ ?_⟩
      · rintro ⟨within, same⟩
        refine ⟨fun ends => ?_, same⟩
        cases ends with
        | root _ other | pointer other => cases found.symm.trans other
        | label other ends =>
            cases found.symm.trans other
            exact within ends
      · rintro ⟨within, rest⟩
        exact ⟨.label found within, rest⟩

/-- Without dots in the labels, an empty part behind them changes the text. -/
theorem join_concat_nil_ne {wire : List Bytes} (some : wire ≠ [])
    (noDot : ∀ label ∈ wire, dot ∉ label) : join wire ≠ join (wire ++ [[]]) := by
  intro same
  have longer : ∀ label ∈ wire ++ [[]], dot ∉ label := by
    rw [List.forall_mem_append, List.forall_mem_singleton]
    exact ⟨noDot, List.not_mem_nil⟩
  have parts := congrArg (List.splitOn dot) same
  rw [join, join, List.splitOn_intercalate dot noDot some,
    List.splitOn_intercalate dot longer (by simp)] at parts
  have lengths := congrArg List.length parts
  rw [List.length_append, List.length_singleton] at lengths
  omega

/-- The parts of a name have no dot in them. -/
theorem dot_notMem_of_mem_nameTexts {text : Bytes} (member : text ∈ nameTexts name) :
    dot ∉ text := by
  unfold nameTexts at member
  split at member
  · cases member
  · exact (of_mem_splitOn member).2

/-- Texts behind their lengths are read up to the first empty one, whose length is a root
byte. -/
theorem exists_front (texts : List Bytes) (rest : Bytes) :
    ∃ rest', texts.flatMap labelBytes ++ 0 :: rest =
      (texts.takeWhile (· ≠ [])).flatMap labelBytes ++ 0 :: rest' := by
  induction texts with
  | nil => exact ⟨rest, rfl⟩
  | cons text texts ih =>
      by_cases empty : text = []
      · subst empty
        exact ⟨_, rfl⟩
      · obtain ⟨rest', same⟩ := ih
        refine ⟨rest', ?_⟩
        rw [List.takeWhile_cons_of_pos (by simpa using empty), List.flatMap_cons, List.flatMap_cons,
          List.append_assoc, same, List.append_assoc]

/-- A word that was written is read back. -/
theorem wordAt_putUint16 (pre rest : Bytes) (word : UInt16) :
    wordAt (pre ++ (putUint16 word ++ rest)) pre.length = word := by
  rw [wordAt, List.drop_left, List.take_left' (length_putUint16 word), uint16_putUint16]

theorem length_header (id flags qd an ns ar : UInt16) :
    (header id flags qd an ns ar).length = 12 := by
  simp [header]

/-- The words of a written header are read back. -/
theorem wordAt_header (id flags qd an ns ar : UInt16) (rest : Bytes) :
    wordAt (header id flags qd an ns ar ++ rest) 0 = id ∧
      wordAt (header id flags qd an ns ar ++ rest) 2 = flags ∧
      wordAt (header id flags qd an ns ar ++ rest) 4 = qd := by
  simp only [header, List.append_assoc]
  refine ⟨wordAt_putUint16 [] _ id, ?_, ?_⟩
  · exact wordAt_putUint16 (putUint16 id) _ flags
  · rw [← List.append_assoc]
    exact wordAt_putUint16 (putUint16 id ++ putUint16 flags) _ qd

/-- Whether recursion is wanted can be read off the flags of a reply. -/
theorem replyFlags_wantRec (q : Query) {rcode : UInt16} (known : rcode = 0 ∨ rcode = 3) :
    decide (replyFlags q rcode &&& 0x0100 ≠ 0) = q.wantRec := by
  unfold replyFlags
  rcases known with rfl | rfl <;> cases q.wantRec <;> decide

/-- A reply is its header, the texts of the name up to a root byte, and the rest of the
question. -/
theorem buildReply_eq (q : Query) (ips : Option (List Bytes)) :
    ∃ rcode count answers, (rcode = 0 ∨ rcode = 3) ∧
      buildReply q ips = header q.id (replyFlags q rcode) 1 count 0 0 ++
        ((nameTexts q.qName).flatMap labelBytes ++
          0 :: (putUint16 q.qType ++ (putUint16 q.qClass ++ answers))) := by
  have known : (if ips = none then 3 else 0 : UInt16) = 0 ∨
      (if ips = none then 3 else 0 : UInt16) = 3 := by
    split
    · exact .inr rfl
    · exact .inl rfl
  simp only [buildReply, questionSection, encodeName, List.append_assoc, List.cons_append]
  exact ⟨_, _, _, known, rfl⟩

/-- The name of the question of a reply is read up to the first empty part of the text. -/
theorem decodeName_buildReply {q : Query} (short : ShortParts q.qName) (ips : Option (List Bytes)) :
    ∃ front, front = (nameTexts q.qName).takeWhile (· ≠ []) ∧
      WireName (buildReply q ips) 12 front (12 + (front.flatMap labelBytes).length + 1) ∧
      decodeName (buildReply q ips) (front.length + 1) 12 [] =
        some (.ok (join front, 12 + (front.flatMap labelBytes).length + 1)) := by
  obtain ⟨rcode, count, answers, _, bytes⟩ := buildReply_eq q ips
  obtain ⟨rest, same⟩ := exists_front (nameTexts q.qName)
    (putUint16 q.qType ++ (putUint16 q.qClass ++ answers))
  refine ⟨_, rfl, ?_⟩
  generalize isFront : (nameTexts q.qName).takeWhile (· ≠ []) = front at same ⊢
  have valid : ∀ text ∈ front, 0 < text.length ∧ text.length < 64 := by
    subst isFront
    intro text member
    have filled := List.mem_takeWhile_imp member
    exact ⟨List.length_pos_iff.mpr (by simpa using filled),
      short_of_mem_nameTexts short ((List.takeWhile_sublist _).mem member)⟩
  rw [bytes, same, ← length_header q.id (replyFlags q rcode) 1 count 0 0]
  exact ⟨wireName_texts valid _ rest, decodeName_texts valid _ rest [] (Nat.lt_succ_self _)⟩

/-- A reply to a name without empty parts is parsed as the query. -/
theorem parseQuery_buildReply {q : Query} (short : ShortParts q.qName)
    (whole : [] ∉ nameTexts q.qName) (ips : Option (List Bytes)) :
    ∃ past fuel, WireName (buildReply q ips) 12 (nameTexts q.qName) past ∧
      wordAt (buildReply q ips) past = q.qType ∧ wordAt (buildReply q ips) (past + 2) = q.qClass ∧
      parseQuery fuel (buildReply q ips) =
        some (.ok { q with qName := join (nameTexts q.qName) }) := by
  obtain ⟨front, isFront, wire, decoded⟩ := decodeName_buildReply short ips
  have all : (nameTexts q.qName).takeWhile (· ≠ []) = nameTexts q.qName := by
    refine List.takeWhile_eq_self_iff.mpr fun text member => decide_eq_true ?_
    exact fun empty => whole (empty ▸ member)
  rw [all] at isFront
  subst isFront
  obtain ⟨rcode, count, answers, known, bytes⟩ := buildReply_eq q ips
  obtain ⟨id, flags, one⟩ := wordAt_header q.id (replyFlags q rcode) 1 count 0 0
    ((nameTexts q.qName).flatMap labelBytes ++
      0 :: (putUint16 q.qType ++ (putUint16 q.qClass ++ answers)))
  rw [← bytes] at id flags one
  -- The reply up to the end of the name, so that what follows is read at its length.
  obtain ⟨pre, isPre⟩ : ∃ pre, pre = header q.id (replyFlags q rcode) 1 count 0 0 ++
    ((nameTexts q.qName).flatMap labelBytes ++ [0]) := ⟨_, rfl⟩
  have size : pre.length = 12 + ((nameTexts q.qName).flatMap labelBytes).length + 1 := by
    simp only [isPre, List.length_append, length_header, List.length_singleton, Nat.add_assoc]
  have shape : buildReply q ips =
      pre ++ (putUint16 q.qType ++ (putUint16 q.qClass ++ answers)) := by
    simp only [bytes, isPre, List.append_assoc, List.singleton_append]
  have qType : wordAt (buildReply q ips) pre.length = q.qType := by
    rw [shape]
    exact wordAt_putUint16 pre _ _
  have qClass : wordAt (buildReply q ips) (pre.length + 2) = q.qClass := by
    have two : pre.length + 2 = (pre ++ putUint16 q.qType).length := by
      rw [List.length_append, length_putUint16]
    rw [shape, ← List.append_assoc, two]
    exact wordAt_putUint16 _ answers _
  have long : pre.length + 4 ≤ (buildReply q ips).length := by
    simp only [shape, List.length_append, length_putUint16]
    omega
  rw [← size] at wire decoded
  refine ⟨pre.length, _, wire, qType, qClass, parseQuery_eq_ok_iff.mpr
    ⟨by omega, one, pre.length, decoded, long, ?_⟩⟩
  simp only [id, qType, qClass, flags, replyFlags_wantRec q known]

/-- A name is decoded in one way, with any fuel. -/
theorem decodeName_unique {first second : Except NameError (Bytes × Nat)} {fuel fuel' : Nat}
    (once : decodeName pkt fuel off labels = some first)
    (again : decodeName pkt fuel' off labels = some second) : first = second := by
  have left := decodeName_mono (Nat.le_max_left fuel fuel') once
  have right := decodeName_mono (Nat.le_max_right fuel fuel') again
  exact Option.some.inj (left.symm.trans right)

end Replies

/-- The question of the reply to an accepted packet is that of the packet exactly when no label
of its name has a dot in it, and no pointer to a root byte stands behind the labels. -/
theorem echoes_iff {fuel : Nat} {pkt : Bytes} {q : Query}
    (accepted : parseQuery fuel pkt = some (.ok q)) (ips : Option (List Bytes)) :
    Echoes pkt (buildReply q ips) ↔
      (∀ labels past, WireName pkt 12 labels past → ∀ label ∈ labels, dot ∉ label) ∧
        ¬ EndsInPointer pkt [] 12 := by
  have short : ShortParts q.qName := shortParts_parseQuery accepted
  obtain ⟨long, one, past, decoded, whole, isQuery⟩ := parseQuery_eq_ok_iff.mp accepted
  obtain ⟨wire, reads, text⟩ := (decodes_of_decodeName decoded).wireName
  rw [List.nil_append] at text
  constructor
  · rintro ⟨⟨labels, past, past', asked, answered, _⟩, q', fuel, fuel', parsed, parsed'⟩
    obtain ⟨rfl, _⟩ := asked.unique reads
    obtain ⟨front, isFront, found, decoded'⟩ := decodeName_buildReply short ips
    obtain ⟨rfl, _⟩ := answered.unique found
    have noDot : ∀ label ∈ labels, dot ∉ label := by
      intro label member
      rw [isFront] at member
      exact dot_notMem_of_mem_nameTexts ((List.takeWhile_sublist _).mem member)
    -- The name that the reply is decoded to is that of the query, so its labels are known.
    have sameName : q.qName = join labels := by
      obtain ⟨_, _, _, once, _⟩ := parseQuery_eq_ok_iff.mp parsed
      obtain ⟨_, _, _, again, _⟩ := parseQuery_eq_ok_iff.mp parsed'
      have asks := congrArg Prod.fst (Except.ok.inj (decodeName_unique decoded once))
      have answers := congrArg Prod.fst (Except.ok.inj (decodeName_unique decoded' again))
      exact asks.trans answers.symm
    refine ⟨fun _ _ other => (other.unique reads).1 ▸ noDot, ?_⟩
    rcases text with ⟨notEnds, _⟩ | ⟨_, some, trailing⟩
    · exact notEnds
    · exact absurd (sameName.symm.trans trailing) (join_concat_nil_ne some noDot)
  · rintro ⟨noDots, notEnds⟩
    have noDot := noDots wire past reads
    obtain ⟨_, sameName⟩ := text.resolve_right fun ends => notEnds ends.1
    have texts : nameTexts q.qName = wire := by
      rw [sameName, nameTexts_join reads.nonempty noDot]
    have noEmpty : [] ∉ nameTexts q.qName := texts ▸ reads.nonempty
    obtain ⟨past', fuel', found, qType, qClass, parsed⟩ := parseQuery_buildReply short noEmpty ips
    rw [texts] at found
    rw [texts, ← sameName] at parsed
    refine ⟨⟨wire, past, past', reads, found, ?_, ?_⟩, q, fuel, fuel', accepted, parsed⟩
    · rw [qType, isQuery]
    · rw [qClass, isQuery]

/-- A query for the name of one label `a.b`. -/
def dottedQuery : Bytes :=
  [0x12, 0x34, 0x01, 0x00, 0, 1, 0, 0, 0, 0, 0, 0] ++ [3, 0x61, 0x2e, 0x62, 0, 0, 1, 0, 1]

/-- What is parsed from it. -/
def dottedParsed : Query :=
  ⟨0x1234, ascii "a.b", typeA, classIN, true⟩

/-- The reply asks for the name of the labels `a` and `b`. -/
theorem dottedQuery_not_echoed :
    parseQuery 4 dottedQuery = some (.ok dottedParsed) ∧
      ¬ Echoes dottedQuery (buildReply dottedParsed none) := by
  refine ⟨by decide, ?_⟩
  rintro ⟨⟨labels, past, past', asked, answered, _⟩, _⟩
  have one : WireName dottedQuery 12 [ascii "a.b"] 17 := .label rfl (.root rfl)
  have two : WireName (buildReply dottedParsed none) 12 [ascii "a", ascii "b"] 17 :=
    .label rfl (.label rfl (.root rfl))
  have same := (asked.unique one).1.symm.trans (answered.unique two).1
  exact absurd same (by decide)

/-- The name `a.com` is echoed. -/
theorem sampleQuery_echoed :
    Echoes sampleQuery (buildReply sampleParsed (some [[10, 0, 0, 1]])) := by
  have name : WireName sampleQuery 12 [ascii "a", ascii "com"] 19 :=
    .label rfl (.label rfl (.root rfl))
  have accepted : parseQuery 4 sampleQuery = some (.ok sampleParsed) := by decide
  refine (echoes_iff accepted _).mpr ⟨?_, ?_⟩
  · intro labels past other
    rw [(other.unique name).1]
    decide
  · -- two labels and a root byte, with no pointer among them
    intro ends
    cases ends with
    | root _ found | pointer found => cases found
    | label found ends =>
        cases found
        cases ends with
        | root _ found | pointer found => cases found
        | label found ends =>
            cases found
            cases ends with
            | root _ found | pointer found | label found => cases found

end P2pMesh.Dns

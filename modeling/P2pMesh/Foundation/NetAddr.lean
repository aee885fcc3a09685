import P2pMesh.Foundation.BigEndian

/-! # Network addresses and their texts

The texts that `netip.Addr.String` gives to IPv4 and IPv6 addresses without a zone: four
numbers with dots between them, and eight hexadecimal groups with colons between them, the
first of the longest runs of zero groups left out. An address in sixteen bytes that
carries an IPv4 address is written with it. Different addresses have different texts
(`Foundation.NetAddr.text_injective`), and only texts of IPv6 addresses have a colon.
-/

namespace Foundation.NetAddr

/-- The byte between the groups of an IPv6 address. -/
def colon : UInt8 := 0x3a

/-- The character of a digit below 16. -/
def digit (value : Nat) : UInt8 :=
  if value < 10 then UInt8.ofNat (48 + value) else UInt8.ofNat (87 + value)

/-- A number of at most `width` digits, without leading zeros. -/
def numeral (base : Nat) : Nat → Nat → Bytes
  | 0, _ => []
  | width + 1, value =>
      if value < base then [digit value]
      else numeral base width (value / base) ++ [digit (value % base)]

/-- A byte in decimal. -/
def decimal (x : UInt8) : Bytes :=
  numeral 10 3 x.toNat

/-- Sixteen bits in hexadecimal. -/
def hex (x : UInt16) : Bytes :=
  numeral 16 4 x.toNat

/-- The text of an IPv4 address. -/
def text4 (bytes : Bytes) : Bytes :=
  [dot].intercalate (bytes.map decimal)

/-- The groups of an IPv6 address. -/
def groups : Bytes → List UInt16
  | high :: low :: rest => uint16 [high, low] :: groups rest
  | _ => []

/-- How many zero groups there are at the front. -/
def zeros (list : List UInt16) : Nat :=
  (list.takeWhile (· = 0)).length

/-- The start and the length of the first of the longest runs of two or more zero groups. -/
def zeroRun (list : List UInt16) : Option (Nat × Nat) :=
  (List.range 8).foldl (fun best i =>
    if 2 ≤ zeros (list.drop i) ∧ (best.elim 0 Prod.snd) < zeros (list.drop i) then
      some (i, zeros (list.drop i))
    else best) none

/-- Groups with colons between them. -/
def joined (list : List UInt16) : Bytes :=
  [colon].intercalate (list.map hex)

/-- The text of eight groups. -/
def text6 (list : List UInt16) : Bytes :=
  match zeroRun list with
  | none => joined list
  | some (start, length) =>
      joined (list.take start) ++ [colon, colon] ++ joined (list.drop (start + length))

/-- The first twelve bytes of an IPv4 address in sixteen bytes. -/
def v4InV6Prefix : Bytes := [0, 0, 0, 0, 0, 0, 0, 0, 0, 0, 0xff, 0xff]

/-- A valid `netip.Addr` without a zone. -/
inductive Addr where
  | v4 (bytes : { bytes : Bytes // bytes.length = 4 })
  | v6 (bytes : { bytes : Bytes // bytes.length = 16 })
deriving DecidableEq

/-- `netip.Addr.String`. -/
def Addr.text : Addr → Bytes
  | .v4 bytes => text4 bytes.1
  | .v6 bytes =>
      if bytes.1.take 12 = v4InV6Prefix then ascii "::ffff:" ++ text4 (bytes.1.drop 12)
      else text6 (groups bytes.1)

section Numerals

/-- The value of a digit. -/
def digitValue (byte : UInt8) : Nat :=
  if byte.toNat < 58 then byte.toNat - 48 else byte.toNat - 87

/-- The number that a text of digits stands for. -/
def numberOf (base : Nat) (digits : Bytes) : Nat :=
  digits.foldl (fun value byte => value * base + digitValue byte) 0

/-- Digits have their values and are neither dots nor colons. -/
theorem digit_spec {value : Nat} (small : value < 16) :
    digitValue (digit value) = value ∧ digit value ≠ dot ∧ digit value ≠ colon := by
  have all : ∀ value < 16,
      digitValue (digit value) = value ∧ digit value ≠ dot ∧ digit value ≠ colon := by decide
  exact all value small

/-- A numeral has the value it was written for. -/
theorem numberOf_numeral {base : Nat} (positive : 0 < base) (few : base ≤ 16) (width value : Nat)
    (fits : value < base ^ width) : numberOf base (numeral base width value) = value := by
  induction width generalizing value with
  | zero =>
      rw [Nat.pow_zero, Nat.lt_one_iff] at fits
      rw [fits]
      rfl
  | succ width ih =>
      unfold numeral
      split
      · next small =>
          simp only [numberOf, List.foldl_cons, List.foldl_nil, Nat.zero_mul, Nat.zero_add]
          exact (digit_spec (small.trans_le few)).1
      · have last := Nat.mod_lt value positive
        have front : value / base < base ^ width := by
          rw [Nat.div_lt_iff_lt_mul positive, ← Nat.pow_succ]
          exact fits
        rw [numberOf, List.foldl_append, ← numberOf, ih _ front]
        simp only [List.foldl_cons, List.foldl_nil]
        rw [(digit_spec (last.trans_le few)).1, Nat.mul_comm]
        exact Nat.div_add_mod value base

/-- A numeral has neither dots nor colons. -/
theorem mem_numeral {base : Nat} (positive : 0 < base) (few : base ≤ 16) {width value : Nat}
    {byte : UInt8} (member : byte ∈ numeral base width value) : byte ≠ dot ∧ byte ≠ colon := by
  induction width generalizing value with
  | zero => cases member
  | succ width ih =>
      unfold numeral at member
      split at member
      · next small =>
          rw [List.mem_singleton.mp member]
          exact (digit_spec (small.trans_le few)).2
      · rcases List.mem_append.mp member with front | last
        · exact ih front
        · rw [List.mem_singleton.mp last]
          exact (digit_spec ((Nat.mod_lt value positive).trans_le few)).2

/-- Bytes are determined by their decimal text. -/
theorem decimal_injective : Function.Injective decimal := by
  intro x y same
  have values := congrArg (numberOf 10) same
  rw [decimal, decimal, numberOf_numeral (by decide) (by decide) 3 _ (x.toNat_lt.trans (by decide)),
    numberOf_numeral (by decide) (by decide) 3 _ (y.toNat_lt.trans (by decide))] at values
  exact UInt8.toNat_inj.mp values

/-- Groups are determined by their hexadecimal text. -/
theorem hex_injective : Function.Injective hex := by
  intro x y same
  have values := congrArg (numberOf 16) same
  rw [hex, hex, numberOf_numeral (by decide) (by decide) 4 _ x.toNat_lt,
    numberOf_numeral (by decide) (by decide) 4 _ y.toNat_lt] at values
  exact UInt16.toNat_inj.mp values

theorem hex_ne_nil (x : UInt16) : hex x ≠ [] := by
  unfold hex numeral
  split
  · exact List.cons_ne_nil _ _
  · exact List.append_ne_nil_of_right_ne_nil _ (List.cons_ne_nil _ _)

theorem mem_decimal {x byte : UInt8} (member : byte ∈ decimal x) : byte ≠ dot ∧ byte ≠ colon :=
  mem_numeral (by decide) (by decide) member

theorem mem_hex {x : UInt16} {byte : UInt8} (member : byte ∈ hex x) :
    byte ≠ dot ∧ byte ≠ colon :=
  mem_numeral (by decide) (by decide) member

end Numerals

section Joins

/-- The joined text has the separator and the bytes of its parts. -/
theorem mem_intercalate {sep byte : UInt8} {parts : List Bytes}
    (member : byte ∈ [sep].intercalate parts) : byte = sep ∨ ∃ part ∈ parts, byte ∈ part := by
  induction parts with
  | nil => cases member
  | cons part parts ih =>
      cases parts with
      | nil =>
          rw [List.intercalate_singleton] at member
          exact Or.inr ⟨part, List.mem_cons_self, member⟩
      | cons next rest =>
          rw [List.intercalate_cons_cons, List.append_assoc, List.mem_append, List.singleton_append,
            List.mem_cons] at member
          rcases member with here | separator | later
          · exact Or.inr ⟨part, List.mem_cons_self, here⟩
          · exact Or.inl separator
          · rcases ih later with separator | ⟨other, listed, inside⟩
            · exact Or.inl separator
            · exact Or.inr ⟨other, List.mem_cons_of_mem _ listed, inside⟩

/-- Between two parts or more there is a separator. -/
theorem mem_intercalate_of_two {sep : UInt8} {parts : List Bytes} (several : 2 ≤ parts.length) :
    sep ∈ [sep].intercalate parts := by
  match parts, several with
  | first :: second :: rest, _ =>
      rw [List.intercalate_cons_cons]
      exact List.mem_append_left _ (List.mem_append_right _ List.mem_cons_self)

/-- The text of an IPv4 address has no colon. -/
theorem colon_notMem_text4 (bytes : Bytes) : colon ∉ text4 bytes := by
  intro member
  rcases mem_intercalate member with separator | ⟨part, listed, inside⟩
  · exact absurd separator (by decide)
  · obtain ⟨x, _, rfl⟩ := List.mem_map.mp listed
    exact (mem_decimal inside).2 rfl

/-- Joined groups have no dot. -/
theorem dot_notMem_joined (list : List UInt16) : dot ∉ joined list := by
  intro member
  rcases mem_intercalate member with separator | ⟨part, listed, inside⟩
  · exact absurd separator (by decide)
  · obtain ⟨x, _, rfl⟩ := List.mem_map.mp listed
    exact (mem_hex inside).1 rfl

/-- An IPv4 address is determined by its text. -/
theorem text4_injective {left right : Bytes} (nonempty : left ≠ []) (nonempty' : right ≠ [])
    (same : text4 left = text4 right) : left = right := by
  have noDot (bytes : Bytes) : ∀ part ∈ bytes.map decimal, dot ∉ part := by
    intro part listed member
    obtain ⟨x, _, rfl⟩ := List.mem_map.mp listed
    exact (mem_decimal member).1 rfl
  have parts := congrArg (List.splitOn dot) same
  rw [text4, text4, List.splitOn_intercalate dot (noDot left) (by simpa using nonempty),
    List.splitOn_intercalate dot (noDot right) (by simpa using nonempty')] at parts
  exact List.map_injective_iff.mpr decimal_injective parts

/-- The text has a dot in it when there are two numbers or more. -/
theorem dot_mem_text4 {bytes : Bytes} (several : 2 ≤ bytes.length) : dot ∈ text4 bytes := by
  apply mem_intercalate_of_two
  rw [List.length_map]
  exact several

/-- Groups joined by colons are split into the groups; no groups are one empty part. -/
theorem splitOn_joined (list : List UInt16) :
    (joined list).splitOn colon = if list.map hex = [] then [[]] else list.map hex := by
  split
  · next empty =>
      rw [joined, empty]
      rfl
  · next nonempty =>
      refine List.splitOn_intercalate colon ?_ nonempty
      intro part listed member
      obtain ⟨x, _, rfl⟩ := List.mem_map.mp listed
      exact (mem_hex member).2 rfl

theorem ne_nil_of_mem_map_hex {list : List UInt16} {part : Bytes} (listed : part ∈ list.map hex) :
    part ≠ [] := by
  obtain ⟨x, _, rfl⟩ := List.mem_map.mp listed
  exact hex_ne_nil x

end Joins

section Runs

/-- The run that is elided has the length of the zeros at its start. -/
theorem zeroRun_spec {list : List UInt16} {start length : Nat}
    (found : zeroRun list = some (start, length)) : length = zeros (list.drop start) := by
  have kept (indices : List Nat) (best : Option (Nat × Nat))
      (sound : ∀ start length, best = some (start, length) → length = zeros (list.drop start)) :
      ∀ start length, indices.foldl (fun best i =>
        if 2 ≤ zeros (list.drop i) ∧ (best.elim 0 Prod.snd) < zeros (list.drop i) then
          some (i, zeros (list.drop i))
        else best) best = some (start, length) → length = zeros (list.drop start) := by
    induction indices generalizing best with
    | nil => exact sound
    | cons i indices ih =>
        rw [List.foldl_cons]
        apply ih
        split
        · intro start length same
          cases same
          rfl
        · exact sound
  exact kept _ none nofun start length found

/-- The groups in front are zeros. -/
theorem eq_replicate_append_drop (list : List UInt16) :
    list = List.replicate (zeros list) 0 ++ list.drop (zeros list) := by
  induction list with
  | nil => rfl
  | cons x list ih =>
      by_cases zero : x = 0
      · have more : zeros (x :: list) = zeros list + 1 := by simp [zeros, zero]
        rw [more, List.replicate_succ, List.drop_succ_cons, List.cons_append, ← ih, zero]
      · have none : zeros (x :: list) = 0 := by simp [zeros, zero]
        rw [none, List.replicate_zero, List.nil_append, List.drop_zero]

/-- A text is all groups joined, or groups joined on both sides of zeros that are left out. -/
theorem text6_cases (list : List UInt16) :
    text6 list = joined list ∨
      ∃ before count after, list = before ++ List.replicate count 0 ++ after ∧
        text6 list = joined before ++ colon :: colon :: joined after := by
  unfold text6
  cases found : zeroRun list with
  | none => exact Or.inl rfl
  | some run =>
      obtain ⟨start, length⟩ := run
      refine Or.inr ⟨list.take start, length, list.drop (start + length), ?_, ?_⟩
      · have zeroes := eq_replicate_append_drop (list.drop start)
        rw [← zeroRun_spec found, List.drop_drop] at zeroes
        rw [List.append_assoc, ← zeroes, List.take_append_drop]
      · change joined (list.take start) ++ [colon, colon] ++ joined (list.drop (start + length)) = _
        rw [List.append_assoc]
        rfl

/-- The parts of a text before its first empty part. -/
def front (text : Bytes) : List Bytes :=
  (text.splitOn colon).takeWhile (· ≠ [])

/-- The parts of a text after its last empty part, the last one first. -/
def back (text : Bytes) : List Bytes :=
  (text.splitOn colon).reverse.takeWhile (· ≠ [])

/-- An elided text is split into the groups before, an empty part and the groups after. -/
theorem splitOn_elided (before after : List UInt16) :
    (joined before ++ colon :: colon :: joined after).splitOn colon =
      (joined before).splitOn colon ++ [] :: (joined after).splitOn colon := by
  rw [List.splitOn_append_cons_self, ← List.nil_append (colon :: joined after),
    List.splitOn_append_cons_self, List.splitOn_nil, List.singleton_append]

theorem takeWhile_nonempty {parts : List Bytes} (nonempty : ∀ part ∈ parts, part ≠ [])
    (rest : List Bytes) :
    ((if parts = [] then [[]] else parts) ++ [] :: rest).takeWhile (· ≠ []) = parts := by
  split
  · next empty =>
      rw [empty]
      rfl
  · rw [List.takeWhile_append_of_pos fun part listed => decide_eq_true (nonempty part listed)]
    simp

/-- The groups before the elision can be read off the text. -/
theorem front_elided (before after : List UInt16) :
    front (joined before ++ colon :: colon :: joined after) = before.map hex := by
  rw [front, splitOn_elided, splitOn_joined before]
  exact takeWhile_nonempty (fun _ => ne_nil_of_mem_map_hex) _

/-- The groups after the elision can be read off the text. -/
theorem back_elided (before after : List UInt16) :
    back (joined before ++ colon :: colon :: joined after) = (after.map hex).reverse := by
  have turned : ((joined after).splitOn colon).reverse =
      if (after.map hex).reverse = [] then [[]] else (after.map hex).reverse := by
    rw [splitOn_joined, apply_ite List.reverse, List.reverse_singleton]
    simp only [List.reverse_eq_nil_iff]
  rw [back, splitOn_elided, List.reverse_append, List.reverse_cons, List.append_assoc,
    List.singleton_append, turned]
  exact takeWhile_nonempty (fun _ listed => ne_nil_of_mem_map_hex (List.mem_reverse.mp listed)) _

/-- A text in which zeros are left out is not one of groups joined. -/
theorem joined_ne_elided {list : List UInt16} (nonempty : list ≠ []) (before after : List UInt16) :
    joined list ≠ joined before ++ colon :: colon :: joined after := by
  intro same
  have parts := congrArg (List.splitOn colon) same
  rw [splitOn_elided, splitOn_joined, if_neg (by simpa using nonempty)] at parts
  have member : [] ∈ list.map hex := by simp [parts]
  exact ne_nil_of_mem_map_hex member rfl

/-- Groups are determined by their joined text. -/
theorem joined_injective {left right : List UInt16} (nonempty : left ≠ []) (nonempty' : right ≠ [])
    (same : joined left = joined right) : left = right := by
  have parts := congrArg (List.splitOn colon) same
  rw [splitOn_joined, splitOn_joined, if_neg (by simpa using nonempty),
    if_neg (by simpa using nonempty')] at parts
  exact List.map_injective_iff.mpr hex_injective parts

/-- Eight groups are determined by their text: the zeros left out are as many as are missing. -/
theorem text6_injective {left right : List UInt16} (eight : left.length = 8)
    (eight' : right.length = 8) (same : text6 left = text6 right) : left = right := by
  have nonempty : left ≠ [] := by
    rintro rfl
    cases eight
  have nonempty' : right ≠ [] := by
    rintro rfl
    cases eight'
  rcases text6_cases left with whole | ⟨before, count, after, rfl, elided⟩
  · rcases text6_cases right with whole' | ⟨before', count', after', _, elided'⟩
    · rw [whole, whole'] at same
      exact joined_injective nonempty nonempty' same
    · rw [whole, elided'] at same
      exact absurd same (joined_ne_elided nonempty _ _)
  · rcases text6_cases right with whole' | ⟨before', count', after', rfl, elided'⟩
    · rw [elided, whole'] at same
      exact absurd same.symm (joined_ne_elided nonempty' _ _)
    · rw [elided, elided'] at same
      have fronts := congrArg front same
      have backs := congrArg back same
      rw [front_elided, front_elided] at fronts
      rw [back_elided, back_elided, List.reverse_inj] at backs
      have sameBefore := List.map_injective_iff.mpr hex_injective fronts
      have sameAfter := List.map_injective_iff.mpr hex_injective backs
      subst sameBefore sameAfter
      simp only [List.length_append, List.length_replicate] at eight eight'
      have sameCount : count = count' := by omega
      rw [sameCount]

end Runs

section Addresses

theorem length_groups {bytes : Bytes} {count : Nat} (even : bytes.length = 2 * count) :
    (groups bytes).length = count := by
  induction count generalizing bytes with
  | zero =>
      rw [List.length_eq_zero_iff.mp even]
      rfl
  | succ count ih =>
      match bytes, even with
      | high :: low :: rest, even =>
          have fewer : rest.length = 2 * count := by
            simp only [List.length_cons] at even
            omega
          rw [groups, List.length_cons, ih fewer]

/-- Bytes are determined by their groups. -/
theorem groups_injective {left right : Bytes} {count : Nat} (even : left.length = 2 * count)
    (even' : right.length = 2 * count) (same : groups left = groups right) : left = right := by
  induction count generalizing left right with
  | zero => rw [List.length_eq_zero_iff.mp even, List.length_eq_zero_iff.mp even']
  | succ count ih =>
      match left, right, even, even' with
      | high :: low :: rest, high' :: low' :: rest', even, even' =>
          rw [groups, groups, List.cons.injEq] at same
          have first := congrArg putUint16 same.1
          rw [putUint16_uint16 _ rfl, putUint16_uint16 _ rfl] at first
          simp only [List.length_cons] at even even'
          have rests : rest = rest' := ih (by omega) (by omega) same.2
          rw [List.cons.injEq, List.cons.injEq] at first
          rw [first.1, first.2.1, rests]

/-- The text of groups has no dot. -/
theorem dot_notMem_text6 (list : List UInt16) : dot ∉ text6 list := by
  have apart : dot ≠ colon := by decide
  rcases text6_cases list with whole | ⟨before, count, after, _, elided⟩
  · rw [whole]
    exact dot_notMem_joined list
  · rw [elided]
    simp [dot_notMem_joined, apart]

/-- The text of an IPv6 address has a colon. -/
theorem colon_mem_text6 {list : List UInt16} (eight : list.length = 8) : colon ∈ text6 list := by
  rcases text6_cases list with whole | ⟨before, count, after, _, elided⟩
  · rw [whole]
    apply mem_intercalate_of_two
    rw [List.length_map, eight]
    decide
  · rw [elided]
    exact List.mem_append_right _ List.mem_cons_self

/-- The text of an IPv6 address has a colon, also in the form that ends in an IPv4 address. -/
theorem colon_mem_text_v6 (long : { bytes : Bytes // bytes.length = 16 }) :
    colon ∈ (Addr.v6 long).text := by
  rw [Addr.text]
  split
  · simp [ascii, colon]
  · exact colon_mem_text6 (length_groups (show long.1.length = 2 * 8 from long.2))

theorem text_ne_nil (a : Addr) : a.text ≠ [] := by
  cases a with
  | v4 short =>
      apply List.ne_nil_of_mem (dot_mem_text4 _)
      rw [short.2]
      decide
  | v6 long => exact List.ne_nil_of_mem (colon_mem_text_v6 long)

/-- No IPv4 address is written like an IPv6 address. -/
theorem text_v4_ne_v6 (short : { bytes : Bytes // bytes.length = 4 })
    (long : { bytes : Bytes // bytes.length = 16 }) :
    (Addr.v4 short).text ≠ (Addr.v6 long).text := by
  intro same
  apply colon_notMem_text4 short.1
  change colon ∈ (Addr.v4 short).text
  rw [same]
  exact colon_mem_text_v6 long

/-- An address that carries an IPv4 address is told from the others by the dots. -/
theorem mapped_ne_text6 {bytes : Bytes} (sixteen : bytes.length = 16) (list : List UInt16) :
    ascii "::ffff:" ++ text4 (bytes.drop 12) ≠ text6 list := by
  intro same
  apply dot_notMem_text6 list
  rw [← same]
  refine List.mem_append_right _ (dot_mem_text4 ?_)
  rw [List.length_drop, sixteen]
  decide

/-- A mapped address is determined by the text of its last four bytes. -/
theorem eq_of_mapped {left right : Bytes} (sixteen : left.length = 16)
    (sixteen' : right.length = 16) (mapped : left.take 12 = v4InV6Prefix)
    (mapped' : right.take 12 = v4InV6Prefix)
    (same : text4 (left.drop 12) = text4 (right.drop 12)) : left = right := by
  have nonempty {bytes : Bytes} (length : bytes.length = 16) : bytes.drop 12 ≠ [] := by
    rw [ne_eq, List.drop_eq_nil_iff, length]
    decide
  have rests := text4_injective (nonempty sixteen) (nonempty sixteen') same
  rw [← List.take_append_drop 12 left, ← List.take_append_drop 12 right, mapped, mapped', rests]

/-- An IPv4 address is determined by its text. -/
theorem text_v4_inj {left right : { bytes : Bytes // bytes.length = 4 }}
    (same : (Addr.v4 left).text = (Addr.v4 right).text) : left = right := by
  have nonempty (bytes : { bytes : Bytes // bytes.length = 4 }) : bytes.1 ≠ [] := by
    apply List.ne_nil_of_length_pos
    rw [bytes.2]
    decide
  exact Subtype.ext (text4_injective (nonempty left) (nonempty right) same)

/-- An IPv6 address is determined by its text, also if it is elided or mapped. -/
theorem text_v6_inj {left right : { bytes : Bytes // bytes.length = 16 }}
    (same : (Addr.v6 left).text = (Addr.v6 right).text) : left = right := by
  have eight (bytes : { bytes : Bytes // bytes.length = 16 }) : (groups bytes.1).length = 8 :=
    length_groups (show bytes.1.length = 2 * 8 from bytes.2)
  apply Subtype.ext
  unfold Addr.text at same
  by_cases mapped : left.1.take 12 = v4InV6Prefix
  · by_cases mapped' : right.1.take 12 = v4InV6Prefix
    · simp only [mapped, mapped', ↓reduceIte, List.append_cancel_left_eq] at same
      exact eq_of_mapped left.2 right.2 mapped mapped' same
    · simp only [mapped, mapped', ↓reduceIte] at same
      exact absurd same (mapped_ne_text6 left.2 _)
  · by_cases mapped' : right.1.take 12 = v4InV6Prefix
    · simp only [mapped, mapped', ↓reduceIte] at same
      exact absurd same.symm (mapped_ne_text6 right.2 _)
    · simp only [mapped, mapped', ↓reduceIte] at same
      have sameGroups := text6_injective (eight left) (eight right) same
      exact groups_injective (show left.1.length = 2 * 8 from left.2) right.2 sameGroups

/-- Different addresses have different texts. -/
theorem text_injective : Function.Injective Addr.text := by
  intro left right same
  cases left with
  | v4 left =>
      cases right with
      | v4 right => rw [text_v4_inj same]
      | v6 right => exact absurd same (text_v4_ne_v6 left right)
  | v6 left =>
      cases right with
      | v4 right => exact absurd same.symm (text_v4_ne_v6 right left)
      | v6 right => rw [text_v6_inj same]

example : (Addr.v6 ⟨[0xfd, 0, 0x9b, 0xd8, 0, 0, 0, 1, 0, 0, 0, 0, 0, 0, 0, 0x42], rfl⟩).text =
    ascii "fd00:9bd8:0:1::42" := by
  decide

example : (Addr.v6 ⟨[0, 0, 0, 0, 0, 0, 0, 0, 0, 0, 0xff, 0xff, 240, 0, 10, 107], rfl⟩).text =
    ascii "::ffff:240.0.10.107" := by
  decide

end Addresses

end Foundation.NetAddr

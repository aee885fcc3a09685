import P2pMesh.Foundation.BigEndian

/-! # Reading a byte stream

A stream is the bytes that have still to be read. Reading repeatedly returns the items
whose encodings were written one after the other, when each of them is read back in front
of any rest (`Foundation.readMany_flatMap`).
-/

namespace Foundation

/-- `io.ReadFull`, with the bytes it leaves. -/
def readFull (size : Nat) (conn : Bytes) : Except String Bytes × Bytes :=
  if size ≤ conn.length then (.ok (conn.take size), conn.drop size)
  else (.error (if conn = [] then "EOF" else "unexpected EOF"), [])

/-- A full read takes as many bytes as were asked for and leaves the rest. -/
theorem readFull_append (front rest : Bytes) :
    readFull front.length (front ++ rest) = (.ok front, rest) := by
  have enough : front.length ≤ (front ++ rest).length := by
    rw [List.length_append]
    exact Nat.le_add_right _ _
  rw [readFull, if_pos enough, List.take_left, List.drop_left]

/-- A full read of too few bytes fails and consumes them. -/
theorem readFull_of_short {size : Nat} {conn : Bytes} (short : conn.length < size) :
    readFull size conn = (.error (if conn = [] then "EOF" else "unexpected EOF"), []) := by
  rw [readFull, if_neg (Nat.not_le.mpr short)]

section Repeated

variable {ε α : Type*} (read : Bytes → Except ε α × Bytes)

/-- What a number of reads return, one after the other. -/
def readMany : Nat → Bytes → List (Except ε α)
  | 0, _ => []
  | count + 1, stream => (read stream).1 :: readMany count (read stream).2

variable {read}

/-- A reader that reads every item back reads a stream of them back, whatever follows. -/
theorem readMany_flatMap {encode : α → Bytes} {items : List α}
    (readsBack : ∀ item ∈ items, ∀ rest, read (encode item ++ rest) = (.ok item, rest))
    (more : Nat) (rest : Bytes) :
    readMany read (items.length + more) (items.flatMap encode ++ rest) =
      items.map .ok ++ readMany read more rest := by
  induction items with
  | nil =>
      simp only [List.length_nil, Nat.zero_add, List.flatMap_nil, List.nil_append, List.map_nil]
  | cons item items ih =>
      obtain ⟨first, others⟩ := List.forall_mem_cons.mp readsBack
      rw [List.length_cons, Nat.add_right_comm, List.flatMap_cons, List.append_assoc, readMany,
        first, ih others, List.map_cons, List.cons_append]

/-- What a read returned was returned on some stream. -/
theorem exists_of_mem_readMany {outcome : Except ε α} {count : Nat} {stream : Bytes}
    (member : outcome ∈ readMany read count stream) : ∃ conn, (read conn).1 = outcome := by
  induction count generalizing stream with
  | zero => cases member
  | succ count ih =>
      rcases List.mem_cons.mp member with here | later
      · exact ⟨stream, here.symm⟩
      · exact ih later

end Repeated

end Foundation

import P2pMesh.Foundation.BigEndian
import P2pMesh.Foundation.Sorting
import Mathlib.Data.List.Lex
import Mathlib.Data.Prod.Lex

/-! # The order in which peers are connected

`SelectPeers` and `PartitionByRoom` of `internal/holepunch/priority.go`. The comparison of two
candidates is that of their ranks, so candidates with different node IDs have only one order:
every node that has the same candidates selects the same peers in the same order
(`P2pMesh.HolePunch.selectPeers_canonical`).
-/

namespace P2pMesh.HolePunch

open Foundation

/-- The fields of `PeerInfo` that the order depends on. -/
structure PeerInfo where
  nodeID : Bytes
  roomID : Bytes
  joinedAt : Int
deriving DecidableEq, Repr

/-- `isSameRoom`. -/
def isSameRoom (p : PeerInfo) (room : Bytes) : Bool :=
  room ≠ [] && p.roomID = room

/-- The comparison that `SelectPeers` sorts by. -/
def less (room : Bytes) (a b : PeerInfo) : Bool :=
  if isSameRoom a room ≠ isSameRoom b room then isSameRoom a room
  else if a.joinedAt ≠ b.joinedAt then a.joinedAt < b.joinedAt
  else a.nodeID < b.nodeID

/-- `sort.SliceStable` with the comparison. -/
def sliceStable (room : Bytes) (candidates : List PeerInfo) : List PeerInfo :=
  candidates.insertionSort fun a b => less room b a = false

/-- The loop that keeps at most `maxOutOfRoom` candidates of other rooms, after `outOfRoom` of
them. -/
def capLoop (room : Bytes) (maxOutOfRoom : Int) : Nat → List PeerInfo → List PeerInfo
  | _, [] => []
  | outOfRoom, p :: ordered =>
      if !isSameRoom p room then
        if maxOutOfRoom ≤ outOfRoom then capLoop room maxOutOfRoom outOfRoom ordered
        else p :: capLoop room maxOutOfRoom (outOfRoom + 1) ordered
      else p :: capLoop room maxOutOfRoom outOfRoom ordered

/-- `SelectPeers`. -/
def selectPeers (candidates : List PeerInfo) (currentRoom : Bytes) (maxOutOfRoom : Int) :
    List PeerInfo :=
  let ordered := sliceStable currentRoom candidates
  if maxOutOfRoom ≤ 0 then ordered else capLoop currentRoom maxOutOfRoom 0 ordered

/-- `PartitionByRoom`. -/
def partitionByRoom (candidates : List PeerInfo) (currentRoom : Bytes) :
    List PeerInfo × List PeerInfo :=
  (selectPeers candidates currentRoom 0).partition fun p => isSameRoom p currentRoom

section Ranks

/-- Texts are compared as the lists of their numbers are. -/
theorem map_toNat_lt_iff (left right : Bytes) :
    left.map UInt8.toNat < right.map UInt8.toNat ↔ left < right := by
  induction left generalizing right with
  | nil =>
      cases right with
      | nil => simp
      | cons byte right => simp
  | cons byte left ih =>
      cases right with
      | nil => simp
      | cons byte' right =>
          simp only [List.map_cons, List.cons_lt_cons_iff, ih, UInt8.lt_iff_toNat_lt,
            UInt8.toNat_inj]

/-- Where a candidate stands: the room first, then the time, then the node ID. -/
def rank (room : Bytes) (p : PeerInfo) : ℕ ×ₗ ℤ ×ₗ List ℕ :=
  toLex (if isSameRoom p room then 0 else 1, toLex (p.joinedAt, p.nodeID.map UInt8.toNat))

/-- The comparison of the sort is the strict order of the ranks. -/
theorem less_iff (room : Bytes) (a b : PeerInfo) :
    less room a b = true ↔ rank room a < rank room b := by
  rw [rank, rank, Prod.Lex.toLex_lt_toLex, Prod.Lex.toLex_lt_toLex, map_toNat_lt_iff]
  unfold less
  cases isSameRoom a room <;> cases isSameRoom b room
  case false.true => simp
  case true.false => simp
  -- In one group the time decides, and the node ID where it is the same.
  all_goals
    by_cases time : a.joinedAt = b.joinedAt
    · simp [time]
    · simp [time]

/-- What is not sorted later has a rank that is not larger. -/
theorem less_eq_false_iff (room : Bytes) (a b : PeerInfo) :
    less room b a = false ↔ rank room a ≤ rank room b := by
  rw [← not_lt, ← less_iff, Bool.not_eq_true]

/-- `sort.SliceStable` sorts by the rank. -/
def byRank (room : Bytes) : Sorting (rank room) where
  sort := sliceStable room
  perm := List.perm_insertionSort _
  sorted := by
    intro candidates
    have total : Std.Total fun a b => less room b a = false :=
      ⟨fun a b => by simpa only [less_eq_false_iff] using le_total (rank room a) (rank room b)⟩
    have trans : IsTrans PeerInfo fun a b => less room b a = false :=
      ⟨fun a b c => by simpa only [less_eq_false_iff] using le_trans⟩
    apply (List.pairwise_insertionSort (fun a b => less room b a = false) candidates).imp
    intro a b
    exact (less_eq_false_iff room a b).mp

end Ranks

section Groups

variable {room : Bytes}

/-- A candidate of the room does not stand behind one of another room. -/
theorem isSameRoom_of_rank_le {a b : PeerInfo} (ordered : rank room a ≤ rank room b)
    (same : isSameRoom b room = true) : isSameRoom a room = true := by
  by_contra other
  rw [← not_lt, ← less_iff] at ordered
  apply ordered
  rw [Bool.not_eq_true] at other
  simp only [less, same, other, ne_eq, Bool.true_eq_false, not_false_eq_true, ↓reduceIte]

/-- Candidates of the same room pass the cap. -/
theorem capLoop_same {same : List PeerInfo} (all : ∀ p ∈ same, isSameRoom p room = true)
    (maxOutOfRoom : Int) (outOfRoom : Nat) (rest : List PeerInfo) :
    capLoop room maxOutOfRoom outOfRoom (same ++ rest) =
      same ++ capLoop room maxOutOfRoom outOfRoom rest := by
  induction same with
  | nil => rfl
  | cons p same ih =>
      have own := all p List.mem_cons_self
      rw [List.cons_append, capLoop, own, ih fun q member => all q (List.mem_cons_of_mem _ member)]
      rfl

/-- Of the candidates of other rooms the first ones pass, up to the cap. -/
theorem capLoop_other {other : List PeerInfo} (all : ∀ p ∈ other, isSameRoom p room = false)
    (maxOutOfRoom : Int) (outOfRoom : Nat) :
    capLoop room maxOutOfRoom outOfRoom other = other.take (maxOutOfRoom - outOfRoom).toNat := by
  induction other generalizing outOfRoom with
  | nil => rw [capLoop, List.take_nil]
  | cons p other ih =>
      have own := all p List.mem_cons_self
      have rest : ∀ q ∈ other, isSameRoom q room = false :=
        fun q member => all q (List.mem_cons_of_mem _ member)
      rw [capLoop, own]
      by_cases full : maxOutOfRoom ≤ outOfRoom
      · have none : (maxOutOfRoom - outOfRoom).toNat = 0 := by omega
        simp only [Bool.not_false, ↓reduceIte, full, ih rest, none, List.take_zero]
      · have one : (maxOutOfRoom - outOfRoom).toNat =
            (maxOutOfRoom - (outOfRoom + 1 : ℕ)).toNat + 1 := by omega
        simp only [Bool.not_false, ↓reduceIte, full, ih rest]
        rw [one, List.take_succ_cons]

end Groups

/-- The order inside a group. -/
def Earlier (a b : PeerInfo) : Prop :=
  a.joinedAt < b.joinedAt ∨ a.joinedAt = b.joinedAt ∧ a.nodeID < b.nodeID

/-- Two candidates with one rank have one node ID. -/
theorem nodeID_eq_of_rank_eq {room : Bytes} {a b : PeerInfo} (same : rank room a = rank room b) :
    a.nodeID = b.nodeID := by
  have parts := congrArg (fun rank => (ofLex (ofLex rank).2).2) same
  exact List.map_injective_iff.mpr (fun _ _ => UInt8.toNat_inj.mp) parts

/-- In one group the ranks order candidates by their time, then by their node ID. -/
theorem earlier_of_rank_le {room : Bytes} {a b : PeerInfo}
    (group : isSameRoom a room = isSameRoom b room) (ordered : rank room a ≤ rank room b)
    (other : a.nodeID ≠ b.nodeID) : Earlier a b := by
  have strict : rank room a < rank room b :=
    lt_of_le_of_ne ordered fun same => other (nodeID_eq_of_rank_eq same)
  rw [rank, rank, group, Prod.Lex.toLex_lt_toLex, Prod.Lex.toLex_lt_toLex, map_toNat_lt_iff]
    at strict
  exact strict.resolve_left (lt_irrefl _) |>.2

section Results

variable {candidates : List PeerInfo} (room : Bytes)

/-- With distinct node IDs the order of the result does not depend on the order of the candidates.
-/
theorem sliceStable_eq_of_perm (distinct : (candidates.map PeerInfo.nodeID).Nodup)
    {other : List PeerInfo} (perm : other.Perm candidates) :
    sliceStable room other = sliceStable room candidates := by
  refine ((byRank room).sort_eq_of_perm (byRank room) perm.symm ?_).symm
  intro a first b second same
  exact List.inj_on_of_nodup_map distinct first second (nodeID_eq_of_rank_eq same)

/-- Sorted candidates that are all of the room or all of other rooms. -/
theorem pairwise_earlier (distinct : (candidates.map PeerInfo.nodeID).Nodup)
    {group : PeerInfo → Bool}
    (one : ∀ a b, group a = true → group b = true → isSameRoom a room = isSameRoom b room) :
    ((sliceStable room candidates).filter group).Pairwise Earlier := by
  have perm : (sliceStable room candidates).Perm candidates := (byRank room).perm candidates
  have apart : (sliceStable room candidates).Pairwise fun a b => a.nodeID ≠ b.nodeID := by
    rw [← List.pairwise_map]
    exact ((perm.map PeerInfo.nodeID).nodup_iff).mpr distinct
  rw [List.pairwise_filter]
  apply (((byRank room).sorted candidates).and apart).imp
  rintro a b ⟨ordered, other⟩ first second
  exact earlier_of_rank_le (one a b first second) ordered other

/-- The candidates of the same room come before all others. -/
theorem sliceStable_eq_append (candidates : List PeerInfo) :
    sliceStable room candidates =
      ((sliceStable room candidates).filter fun p => isSameRoom p room) ++
        (sliceStable room candidates).filter fun p => !isSameRoom p room := by
  apply eq_filter_append_filter
  apply ((byRank room).sorted candidates).imp
  intro a b
  exact isSameRoom_of_rank_le

/-- What is selected, by the two groups of the sorted candidates. -/
theorem selectPeers_eq (maxOutOfRoom : Int) :
    selectPeers candidates room maxOutOfRoom =
      ((sliceStable room candidates).filter fun p => isSameRoom p room) ++
        if 0 < maxOutOfRoom then
          ((sliceStable room candidates).filter fun p => !isSameRoom p room).take maxOutOfRoom.toNat
        else (sliceStable room candidates).filter fun p => !isSameRoom p room := by
  have parts := sliceStable_eq_append room candidates
  by_cases cap : maxOutOfRoom ≤ 0
  · rw [selectPeers, if_pos cap, if_neg (not_lt.mpr cap)]
    exact parts
  · have all : ∀ p ∈ (sliceStable room candidates).filter fun p => isSameRoom p room,
        isSameRoom p room = true := fun p member => (List.mem_filter.mp member).2
    have others : ∀ p ∈ (sliceStable room candidates).filter fun p => !isSameRoom p room,
        isSameRoom p room = false := by
      intro p member
      simpa using (List.mem_filter.mp member).2
    rw [selectPeers, if_neg cap, if_pos (not_le.mp cap), parts, capLoop_same all,
      capLoop_other others, ← parts]
    rw [Nat.cast_zero, sub_zero]

/-- Rule R1: the candidates of the room in the order of their times and node IDs, and then the
others in the same order, cut to the cap if there is one. The order in which the candidates
are given does not matter, and the two groups are those of `PartitionByRoom`. -/
theorem selectPeers_canonical (distinct : (candidates.map PeerInfo.nodeID).Nodup) :
    ∃ same other : List PeerInfo,
      same.Perm (candidates.filter fun p => isSameRoom p room) ∧ same.Pairwise Earlier ∧
      other.Perm (candidates.filter fun p => !isSameRoom p room) ∧ other.Pairwise Earlier ∧
      (room = [] → same = []) ∧
      ∀ given : List PeerInfo, given.Perm candidates →
        (∀ maxOutOfRoom : Int, selectPeers given room maxOutOfRoom =
          same ++ if 0 < maxOutOfRoom then other.take maxOutOfRoom.toNat else other) ∧
        partitionByRoom given room = (same, other) := by
  have perm : (sliceStable room candidates).Perm candidates := (byRank room).perm candidates
  refine ⟨(sliceStable room candidates).filter fun p => isSameRoom p room,
    (sliceStable room candidates).filter fun p => !isSameRoom p room,
    perm.filter _, pairwise_earlier room distinct ?_, perm.filter _,
    pairwise_earlier room distinct ?_, ?_, ?_⟩
  · intro a b first second
    rw [first, second]
  · intro a b first second
    rw [Bool.not_eq_true'] at first second
    rw [first, second]
  · intro noRoom
    rw [noRoom]
    exact List.filter_eq_nil_iff.mpr fun p _ => Bool.false_ne_true
  · intro given order
    have same := sliceStable_eq_of_perm room distinct order
    refine ⟨fun maxOutOfRoom => ?_, ?_⟩
    · rw [selectPeers_eq, same]
    · have whole : selectPeers given room 0 = sliceStable room candidates := same
      rw [partitionByRoom, whole, List.partition_eq_filter_filter]
      rfl

/-- Two peers of the room and three others, of which two joined at the same time. -/
def samplePeers : List PeerInfo :=
  [⟨ascii "e", ascii "room-b", 3⟩, ⟨ascii "d", ascii "room-a", 9⟩, ⟨ascii "c", ascii "room-b", 3⟩,
    ⟨ascii "b", [], 4⟩, ⟨ascii "a", ascii "room-a", 1⟩]

/-- The candidates in the reverse order are selected alike. -/
theorem selectPeers_sample :
    selectPeers samplePeers.reverse (ascii "room-a") 2 =
      selectPeers samplePeers (ascii "room-a") 2 := by
  have distinct : (samplePeers.map PeerInfo.nodeID).Nodup := by decide
  obtain ⟨same, other, _, _, _, _, _, selected⟩ :=
    selectPeers_canonical (ascii "room-a") distinct
  rw [(selected _ samplePeers.reverse_perm).1, (selected _ (List.Perm.refl _)).1]

example : (selectPeers samplePeers (ascii "room-a") 2).map PeerInfo.nodeID =
    [ascii "a", ascii "d", ascii "c", ascii "e"] := by decide

end Results

end P2pMesh.HolePunch

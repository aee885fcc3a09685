import P2pMesh.Foundation.Int64Arith
import P2pMesh.Foundation.Slice
import P2pMesh.Room.Manager

/-! # Pages of a room's members

`Manager.GetMembers` of `internal/room/manager.go`, with the machine arithmetic of its offsets
and limits and the bounds of its `make`. A request conforms if it returns the members that its
offset and limit ask for. It does so exactly if the limit is positive, the offset is not beyond
the end of the list, their sum is an `int`, and the page can be allocated; every other request
panics (`P2pMesh.RoomManager.conforms_getMembers_iff`). The pages that a client asks for one
after the other make up the list (`P2pMesh.RoomManager.walk_eq`).
-/

namespace P2pMesh.RoomManager

open Foundation

/-- `MemberInfo`, five strings. -/
structure MemberInfo where
  nodeID : Bytes
  ipv6Addr : Bytes
  ipv4Addr : Bytes
  publicAddr : Bytes
  natType : Bytes
deriving DecidableEq

/-- The size of a `MemberInfo` in bytes. -/
def memberInfoSize : Nat := 80

/-- What is told of a node. -/
def MemberInfo.ofNode (n : Node) : MemberInfo :=
  ⟨n.id, n.ipv6Addr, n.ipv4Addr, n.publicAddr, n.natType⟩

/-- `MemberList`. -/
structure MemberList where
  roomID : Bytes
  members : List MemberInfo
  offset : Int64
  limit : Int64
  total : Int64
  hasMore : Bool
deriving DecidableEq

/-- What `ListRoomMembers` returns: a slice of pointers, eight bytes each, that lies in the
address space. -/
structure Listing where
  nodes : List Node
  fits : 8 * nodes.length < 2 ^ 63

/-- `ListRoomMembers` of a store. -/
abbrev MemberStore := Bytes → Except String Listing

/-- The panics of `GetMembers`. -/
inductive Panic where
  | makesliceCap
  | sliceBounds
deriving DecidableEq

/-- How a call of `GetMembers` ends. -/
inductive MembersOutcome where
  | page (list : MemberList)
  | failed (text : String)
  | panicked (cause : Panic)
deriving DecidableEq

/-- The size of a page when the limit is zero. -/
def defaultPageSize : Int64 := 50

/-- The end of the page, clipped to the list. -/
def pageEnd (total offset limit : Int64) : Int64 :=
  if total < offset + limit then total else offset + limit

/-- What `GetMembers` does with the nodes, after the defaults are filled in, where the runtime
allocates up to `maxAlloc` bytes at once. -/
def cutPage (maxAlloc : Nat) (roomID : Bytes) (nodes : List Node) (offset limit : Int64) :
    MembersOutcome :=
  let total := Int64.ofNat nodes.length
  let hasMore := decide (offset + limit < total)
  let stop := pageEnd total offset limit
  -- `make([]MemberInfo, 0, end-offset)`
  if ¬ Makes maxAlloc memberInfoSize (stop - offset).toInt then .panicked .makesliceCap
  -- `nodes[offset:end]`, where the end is at most the length
  else if 0 ≤ offset ∧ offset ≤ stop then
    let page := (nodes.take stop.toInt.toNat).drop offset.toInt.toNat
    .page ⟨roomID, page.map .ofNode, offset, limit, total, hasMore⟩
  else .panicked .sliceBounds

/-- `GetMembers`; the store may be nil. -/
def getMembers (maxAlloc : Nat) (store : Option MemberStore) (roomID : Bytes)
    (offset limit : Int64) : MembersOutcome :=
  match store with
  | none => .failed "no storage backend"
  | some listRoomMembers =>
      let limit := if limit = 0 then defaultPageSize else limit
      let offset := if offset < 0 then 0 else offset
      match listRoomMembers roomID with
      | .error cause => .failed ("list room members: " ++ cause)
      | .ok listing => cutPage maxAlloc roomID listing.nodes offset limit

/-- The pages at the offsets from the given one on, while there are more. -/
def walk (maxAlloc : Nat) (store : Option MemberStore) (roomID : Bytes) (limit : Int64) :
    Nat → Int64 → Option (List MemberInfo)
  | 0, _ => none
  | fuel + 1, offset =>
      match getMembers maxAlloc store roomID offset limit with
      | .page list =>
          if list.hasMore then
            (walk maxAlloc store roomID limit fuel (offset + limit)).map (list.members ++ ·)
          else some list.members
      | _ => none

/-- The limit of a request, with the default. -/
def effectiveLimit (limit : Int64) : Int :=
  if limit = 0 then defaultPageSize.toInt else limit.toInt

/-- The offset of a request; negative means 0. -/
def effectiveOffset (offset : Int64) : Int :=
  max offset.toInt 0

/-- The members from the offset up to offset plus limit, clipped to the list. -/
def requested (nodes : List Node) (offset limit : Int64) : List MemberInfo :=
  ((nodes.take (effectiveOffset offset + effectiveLimit limit).toNat).drop
    (effectiveOffset offset).toNat).map .ofNode

/-- A page is returned with the members that are requested, and not more than the limit. -/
def Conforms (nodes : List Node) (offset limit : Int64) (outcome : MembersOutcome) : Prop :=
  ∃ list, outcome = .page list ∧ (list.members.length : Int) ≤ effectiveLimit limit ∧
    list.members = requested nodes offset limit

section Cutting

variable {maxAlloc : Nat} {roomID : Bytes} {nodes : List Node} {offset limit : Int64}

/-- The number of members is an `int`. -/
theorem toInt_total (short : nodes.length < 2 ^ 63) :
    (Int64.ofNat nodes.length).toInt = nodes.length :=
  Int64.toInt_ofNat_of_lt short

/-- The end of a page whose offset and limit can be added. -/
theorem toInt_pageEnd (short : nodes.length < 2 ^ 63) (nonneg : 0 ≤ offset.toInt)
    (fits : offset.toInt + limit.toInt < 2 ^ 63) :
    (pageEnd (Int64.ofNat nodes.length) offset limit).toInt =
      min (nodes.length : Int) (offset.toInt + limit.toInt) := by
  have range := toInt_range limit
  have sum : (offset + limit).toInt = offset.toInt + limit.toInt :=
    toInt_add_of_fits (by omega) fits
  unfold pageEnd
  by_cases past : Int64.ofNat nodes.length < offset + limit
  · rw [if_pos past, toInt_total short]
    rw [Int64.lt_iff_toInt_lt, toInt_total short, sum] at past
    exact (min_eq_left past.le).symm
  · rw [if_neg past, sum]
    rw [Int64.lt_iff_toInt_lt, toInt_total short, sum] at past
    exact (min_eq_right (not_lt.mp past)).symm

/-- A page that cannot be made, or ends before it starts, is not cut. -/
theorem cutPage_panicked
    (wrong : ¬ Makes maxAlloc memberInfoSize
        (pageEnd (Int64.ofNat nodes.length) offset limit - offset).toInt ∨
      (pageEnd (Int64.ofNat nodes.length) offset limit).toInt < offset.toInt) :
    ∃ cause, cutPage maxAlloc roomID nodes offset limit = .panicked cause := by
  by_cases makes : Makes maxAlloc memberInfoSize
      (pageEnd (Int64.ofNat nodes.length) offset limit - offset).toInt
  · have before := wrong.resolve_left (not_not.mpr makes)
    have backwards :
        ¬ (0 ≤ offset ∧ offset ≤ pageEnd (Int64.ofNat nodes.length) offset limit) := by
      rintro ⟨_, forwards⟩
      exact absurd (Int64.le_iff_toInt_le.mp forwards) (not_le.mpr before)
    exact ⟨.sliceBounds, (if_neg (not_not.mpr makes)).trans (if_neg backwards)⟩
  · exact ⟨.makesliceCap, if_pos makes⟩

/-- The number of members of a page whose offset and limit can be added. -/
theorem toInt_pageSize (short : nodes.length < 2 ^ 63) (nonneg : 0 ≤ offset.toInt)
    (positive : 0 < limit.toInt) (inside : offset.toInt ≤ nodes.length)
    (fits : offset.toInt + limit.toInt < 2 ^ 63) :
    (pageEnd (Int64.ofNat nodes.length) offset limit - offset).toInt =
      min limit.toInt (nodes.length - offset.toInt) := by
  have stop := toInt_pageEnd short nonneg fits
  rw [toInt_sub_of_fits (by omega) (by omega), stop]
  omega

/-- Within all bounds `cutPage` returns the requested part of the list. -/
theorem cutPage_of_within (short : nodes.length < 2 ^ 63) (nonneg : 0 ≤ offset.toInt)
    (positive : 0 < limit.toInt) (inside : offset.toInt ≤ nodes.length)
    (fits : offset.toInt + limit.toInt < 2 ^ 63)
    (room : memberInfoSize * min limit.toInt (nodes.length - offset.toInt) ≤ maxAlloc) :
    cutPage maxAlloc roomID nodes offset limit =
      .page ⟨roomID, ((nodes.take (offset.toInt + limit.toInt).toNat).drop
          offset.toInt.toNat).map .ofNode, offset, limit, Int64.ofNat nodes.length,
        decide (offset.toInt + limit.toInt < nodes.length)⟩ := by
  have stop := toInt_pageEnd short nonneg fits
  have size := toInt_pageSize short nonneg positive inside fits
  have sum : (offset + limit).toInt = offset.toInt + limit.toInt :=
    toInt_add_of_fits (by omega) fits
  have makes : Makes maxAlloc memberInfoSize
      (pageEnd (Int64.ofNat nodes.length) offset limit - offset).toInt := by
    rw [size]
    exact ⟨by omega, room⟩
  have forwards : 0 ≤ offset ∧ offset ≤ pageEnd (Int64.ofNat nodes.length) offset limit := by
    rw [Int64.le_iff_toInt_le, Int64.le_iff_toInt_le, stop, Int64.toInt_zero]
    omega
  have clipped : nodes.take (min (nodes.length : Int) (offset.toInt + limit.toInt)).toNat =
      nodes.take (offset.toInt + limit.toInt).toNat := by
    rw [List.take_eq_take_iff]
    omega
  have more : (offset + limit < Int64.ofNat nodes.length) ↔
      offset.toInt + limit.toInt < nodes.length := by
    rw [Int64.lt_iff_toInt_lt, sum, toInt_total short]
  unfold cutPage
  simp only [makes, not_true_eq_false, ↓reduceIte, forwards, and_self, stop, clipped, more]

/-- Every other page panics. -/
theorem cutPage_panics (short : nodes.length < 2 ^ 63) (nonneg : 0 ≤ offset.toInt)
    (nonzero : limit.toInt ≠ 0)
    (without : ¬ (1 ≤ limit.toInt ∧ offset.toInt ≤ nodes.length ∧
      offset.toInt + limit.toInt < 2 ^ 63 ∧
      memberInfoSize * min limit.toInt (nodes.length - offset.toInt) ≤ maxAlloc)) :
    ∃ cause, cutPage maxAlloc roomID nodes offset limit = .panicked cause := by
  apply cutPage_panicked
  by_cases fits : offset.toInt + limit.toInt < 2 ^ 63
  · by_cases ordered : 1 ≤ limit.toInt ∧ offset.toInt ≤ nodes.length
    · left
      rw [toInt_pageSize short nonneg (by omega) ordered.2 fits]
      exact fun makes => without ⟨ordered.1, ordered.2, fits, makes.2⟩
    · right
      rw [toInt_pageEnd short nonneg fits]
      omega
  · -- The sum has come out negative, and the end is not clipped.
    right
    have range := toInt_range offset
    have limits := toInt_range limit
    have sum : (offset + limit).toInt = offset.toInt + limit.toInt - 2 ^ 64 :=
      toInt_add_of_overflow (not_lt.mp fits)
    have unclipped : ¬ Int64.ofNat nodes.length < offset + limit := by
      rw [Int64.lt_iff_toInt_lt, toInt_total short, sum]
      omega
    rw [pageEnd, if_neg unclipped, sum]
    omega

end Cutting

section Requests

variable {maxAlloc : Nat} {store : MemberStore} {roomID : Bytes} {listing : Listing}
  {offset limit : Int64}

/-- A slice of pointers has fewer than 2 ^ 60 elements. -/
theorem length_lt (listing : Listing) : listing.nodes.length < 2 ^ 60 := by
  have fits := listing.fits
  omega

/-- The offset that is used, as a number. -/
theorem toInt_offset (offset : Int64) :
    (if offset < 0 then 0 else offset : Int64).toInt = effectiveOffset offset := by
  unfold effectiveOffset
  split
  · next negative =>
      rw [Int64.lt_iff_toInt_lt, Int64.toInt_zero] at negative
      rw [Int64.toInt_zero, max_eq_right negative.le]
  · next positive =>
      rw [Int64.lt_iff_toInt_lt, Int64.toInt_zero, not_lt] at positive
      rw [max_eq_left positive]

/-- The limit that the code computes is the effective one. -/
theorem toInt_limit (limit : Int64) :
    (if limit = 0 then defaultPageSize else limit : Int64).toInt = effectiveLimit limit := by
  unfold effectiveLimit
  split <;> rfl

/-- The effective limit is never zero. -/
theorem effectiveLimit_ne_zero (limit : Int64) : effectiveLimit limit ≠ 0 := by
  unfold effectiveLimit
  split
  · decide
  · next nonzero => exact fun zero => nonzero (Int64.toInt_inj.mp zero)

/-- If the store answers, `GetMembers` cuts the page from what it lists. -/
theorem getMembers_of_listed (listed : store roomID = .ok listing) :
    getMembers maxAlloc (some store) roomID offset limit =
      cutPage maxAlloc roomID listing.nodes (if offset < 0 then 0 else offset)
        (if limit = 0 then defaultPageSize else limit) := by
  simp only [getMembers, listed]

/-- The condition under which a request is served. -/
def Servable (maxAlloc : Nat) (nodes : List Node) (offset limit : Int64) : Prop :=
  1 ≤ effectiveLimit limit ∧ effectiveOffset offset ≤ nodes.length ∧
    effectiveOffset offset + effectiveLimit limit < 2 ^ 63 ∧
    memberInfoSize * min (effectiveLimit limit) (nodes.length - effectiveOffset offset) ≤ maxAlloc

/-- A servable request is answered with the requested members. -/
theorem getMembers_of_servable (listed : store roomID = .ok listing)
    (servable : Servable maxAlloc listing.nodes offset limit) :
    ∃ list, getMembers maxAlloc (some store) roomID offset limit = .page list ∧
      list.members = requested listing.nodes offset limit ∧
      list.hasMore =
        decide (effectiveOffset offset + effectiveLimit limit < listing.nodes.length) := by
  have short := length_lt listing
  obtain ⟨positive, inside, fits, room⟩ := servable
  have nonneg : 0 ≤ effectiveOffset offset := le_max_right _ _
  rw [← toInt_offset] at nonneg inside fits room ⊢
  rw [← toInt_limit] at positive fits room ⊢
  refine ⟨_, (getMembers_of_listed listed).trans
    (cutPage_of_within (by omega) nonneg positive inside fits room), ?_, rfl⟩
  rw [requested, ← toInt_offset, ← toInt_limit]

/-- A request that is not servable panics. -/
theorem getMembers_panics (listed : store roomID = .ok listing)
    (unservable : ¬ Servable maxAlloc listing.nodes offset limit) :
    ∃ cause, getMembers maxAlloc (some store) roomID offset limit = .panicked cause := by
  have short := length_lt listing
  have nonneg : 0 ≤ effectiveOffset offset := le_max_right _ _
  have nonzero := effectiveLimit_ne_zero limit
  rw [getMembers_of_listed listed]
  unfold Servable at unservable
  rw [← toInt_offset] at nonneg unservable
  rw [← toInt_limit] at nonzero unservable
  exact cutPage_panics (by omega) nonneg nonzero unservable

/-- A request conforms exactly if it can be served. -/
theorem conforms_getMembers_iff (listed : store roomID = .ok listing) :
    Conforms listing.nodes offset limit (getMembers maxAlloc (some store) roomID offset limit) ↔
      Servable maxAlloc listing.nodes offset limit := by
  constructor
  · rintro ⟨list, returned, _⟩
    by_contra unservable
    obtain ⟨cause, panicked⟩ := getMembers_panics listed unservable
    rw [panicked] at returned
    cases returned
  · intro servable
    obtain ⟨list, returned, members, _⟩ := getMembers_of_servable listed servable
    refine ⟨list, returned, ?_, members⟩
    have nonneg : 0 ≤ effectiveOffset offset := le_max_right _ _
    obtain ⟨positive, _⟩ := servable
    rw [members, requested, List.length_map, List.length_drop, List.length_take]
    omega

end Requests

section Walking

variable {maxAlloc : Nat} {store : MemberStore} {roomID : Bytes} {listing : Listing}
  {limit : Int64}

/-- The pages from an offset on make up the rest of the list. -/
theorem walk_eq_drop (listed : store roomID = .ok listing) (positive : 1 ≤ limit.toInt)
    (fuel : Nat) (offset : Int64) (nonneg : 0 ≤ offset.toInt)
    (inside : offset.toInt ≤ listing.nodes.length) (fits : offset.toInt + limit.toInt < 2 ^ 63)
    (room : memberInfoSize * min limit.toInt listing.nodes.length ≤ maxAlloc)
    (enough : listing.nodes.length - offset.toInt < fuel) :
    walk maxAlloc (some store) roomID limit fuel offset =
      some ((listing.nodes.drop offset.toInt.toNat).map .ofNode) := by
  have short := length_lt listing
  induction fuel generalizing offset with
  | zero => omega
  | succ fuel ih =>
      have nonzero : limit ≠ 0 := by
        rintro rfl
        rw [Int64.toInt_zero] at positive
        omega
      have start : effectiveOffset offset = offset.toInt := max_eq_left nonneg
      have size : effectiveLimit limit = limit.toInt := if_neg nonzero
      have servable : Servable maxAlloc listing.nodes offset limit := by
        have smaller : (memberInfoSize : Int) *
            min limit.toInt (listing.nodes.length - offset.toInt) ≤
              memberInfoSize * min limit.toInt listing.nodes.length :=
          Int.mul_le_mul_of_nonneg_left (by omega) (by decide)
        rw [Servable, start, size]
        exact ⟨positive, inside, fits, smaller.trans room⟩
      obtain ⟨list, returned, members, more⟩ := getMembers_of_servable listed servable
      rw [start, size] at more
      rw [requested, start, size] at members
      unfold walk
      simp only [returned, more, decide_eq_true_eq, members]
      by_cases further : offset.toInt + limit.toInt < listing.nodes.length
      · -- The next page starts inside the list, so the limit is smaller than the list.
        have sum : (offset + limit).toInt = offset.toInt + limit.toInt :=
          toInt_add_of_fits (by omega) fits
        rw [if_pos further, ih (offset + limit) (by omega) (by omega) (by omega) (by omega), sum,
          Option.map_some, ← List.map_append, List.drop_take]
        have next : (offset.toInt + limit.toInt).toNat =
            offset.toInt.toNat + ((offset.toInt + limit.toInt).toNat - offset.toInt.toNat) := by
          omega
        conv_lhs => rw [next, ← List.drop_drop, Nat.add_sub_cancel_left, List.take_append_drop]
      · rw [if_neg further, List.take_of_length_le (by omega)]

/-- The pages of every positive limit make up the list, if they can be allocated. -/
theorem walk_eq (listed : store roomID = .ok listing) (positive : 1 ≤ limit.toInt)
    (room : memberInfoSize * min limit.toInt listing.nodes.length ≤ maxAlloc) {fuel : Nat}
    (enough : listing.nodes.length < fuel) :
    walk maxAlloc (some store) roomID limit fuel 0 = some (listing.nodes.map .ofNode) := by
  have range := toInt_range limit
  have walked := @walk_eq_drop maxAlloc _ _ _ _ listed positive fuel 0
  rw [Int64.toInt_zero] at walked
  exact walked (by omega) (by omega) (by omega) room (by omega)

/-- Over the tables of the store, the pages make up the members that are online. -/
theorem walk_database (db : Database)
    (serves : ∀ roomID, ∃ fits, store roomID = .ok ⟨db.listRoomMembers roomID, fits⟩)
    (positive : 1 ≤ limit.toInt) (roomID : Bytes)
    (room : memberInfoSize * min limit.toInt (db.listRoomMembers roomID).length ≤ maxAlloc) :
    walk maxAlloc (some store) roomID limit ((db.listRoomMembers roomID).length + 1) 0 =
      some ((db.listRoomMembers roomID).map .ofNode) := by
  obtain ⟨fits, listed⟩ := serves roomID
  exact walk_eq listed positive room (Nat.lt_succ_self _)

end Walking

/-- For every list that the store returns and every platform, a request returns the page it asks
for exactly if its limit is positive, its offset is not beyond the end, their sum is an `int`
and the runtime can allocate the page; and the pages at the offsets 0, limit, 2 * limit and so
on, while there are more, make up the list if the longest of them can be allocated. -/
theorem paginates_iff (maxAlloc : Nat) {store : MemberStore} {roomID : Bytes} {listing : Listing}
    (listed : store roomID = .ok listing) :
    (∀ offset limit,
      Conforms listing.nodes offset limit (getMembers maxAlloc (some store) roomID offset limit) ↔
        1 ≤ effectiveLimit limit ∧ effectiveOffset offset ≤ listing.nodes.length ∧
          effectiveOffset offset + effectiveLimit limit < 2 ^ 63 ∧
          memberInfoSize * min (effectiveLimit limit)
            (listing.nodes.length - effectiveOffset offset) ≤ maxAlloc) ∧
    ∀ limit : Int64, 1 ≤ limit →
      memberInfoSize * min limit.toInt listing.nodes.length ≤ maxAlloc →
      ∀ fuel > listing.nodes.length,
        walk maxAlloc (some store) roomID limit fuel 0 = some (listing.nodes.map .ofNode) := by
  refine ⟨fun offset limit => conforms_getMembers_iff listed,
    fun limit positive room fuel enough => ?_⟩
  rw [Int64.le_iff_toInt_le] at positive
  exact walk_eq listed positive room enough

/-- A member of a room, with the last byte of its addresses. -/
def sampleMember (id address : String) : Node :=
  ⟨ascii id, some (ascii id), ascii "room-office", ascii ("fd00:9bd8::" ++ address),
    ascii ("240.0.0." ++ address), [], [], ascii "online", 0, 0⟩

/-- The members of the room: three nodes. -/
def sampleMembers : List Node :=
  [sampleMember "node-one" "1", sampleMember "node-two" "2", sampleMember "node-three" "3"]

/-- A store with three members in every room. -/
def sampleStore : MemberStore :=
  fun _ => .ok ⟨sampleMembers, by decide⟩

/-- The second page of two has one member, and the pages of two make up the room. -/
theorem sampleStore_paginates :
    Conforms sampleMembers 2 2
        (getMembers maxAlloc48 (some sampleStore) (ascii "room-office") 2 2) ∧
      walk maxAlloc48 (some sampleStore) (ascii "room-office") 2 4 0 =
        some (sampleMembers.map .ofNode) := by
  have listed : sampleStore (ascii "room-office") = .ok ⟨sampleMembers, by decide⟩ := rfl
  obtain ⟨conforms, lossless⟩ := paginates_iff maxAlloc48 listed
  exact ⟨(conforms 2 2).mpr (by decide), lossless 2 (by decide) (by decide) 4 (by decide)⟩

/-- An offset beyond the end, a negative limit, and a sum that is no `int` panic in `make`, or in
the slice expression when the limit is small. -/
theorem sampleStore_panics :
    getMembers maxAlloc48 (some sampleStore) (ascii "room-office") 4 50 =
        .panicked .makesliceCap ∧
      getMembers maxAlloc48 (some sampleStore) (ascii "room-office") 0 (-1) =
        .panicked .makesliceCap ∧
      getMembers maxAlloc48 (some sampleStore) (ascii "room-office") 1 9223372036854775807 =
        .panicked .makesliceCap ∧
      getMembers maxAlloc48 (some sampleStore) (ascii "room-office") 9223372036854775807 1 =
        .panicked .sliceBounds ∧
      ¬ Conforms sampleMembers 4 50
        (getMembers maxAlloc48 (some sampleStore) (ascii "room-office") 4 50) := by
  have beyond : getMembers maxAlloc48 (some sampleStore) (ascii "room-office") 4 50 =
      .panicked .makesliceCap := by decide
  refine ⟨beyond, by decide, by decide, by decide, ?_⟩
  rintro ⟨list, returned, _⟩
  rw [beyond] at returned
  cases returned

end P2pMesh.RoomManager

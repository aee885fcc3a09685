import P2pMesh.Routing.Router

/-! # Wiring tunnels to peers

`WireTunnel` of `internal/routing/wire.go`, and what the peer table finds after it. `Add` writes
an entry under the addresses it has and leaves what stands under the former addresses of the
peer, so the table finds only the last entries of the peers exactly if every entry that is
followed by another one of its peer has its addresses written again, or is removed
(`P2pMesh.Routing.fresh_iff`). A peer that comes back with another IPv4 address keeps its old
one (`P2pMesh.Routing.rewired_stale`).
-/

namespace P2pMesh.Routing

open Foundation

namespace PeerTable

/-- `WireTunnel`, with a tunnel that is not nil. -/
def wireTunnel (t : PeerTable) (nodeID ipv6 ipv4 roomID : Bytes) (tun : Nat) : PeerTable :=
  t.add ⟨ipv6, ipv4, nodeID, roomID, some tun⟩

/-- What an index holds under a key after an entry was put there. -/
theorem put_apply (index : Bytes → Option PeerEntry) (text : Bytes) (e : PeerEntry) (key : Bytes) :
    put index text e key = if key ≠ [] ∧ text = key then some e else index key := by
  unfold put
  by_cases same : text = key
  · subst same
    by_cases empty : text = [] <;> simp [empty]
  · have other : key ≠ text := fun equal => same equal.symm
    by_cases empty : text = []
    · simp [empty]
    · simp [empty, same, Function.update_of_ne other]

end PeerTable

/-- The calls that change the table of a room. -/
inductive TableCall where
  | wireTunnel (nodeID ipv6 ipv4 roomID : Bytes) (tun : Nat)
  | remove (nodeID : Bytes)
deriving DecidableEq

/-- The entry that a call adds. -/
def TableCall.added : TableCall → Option PeerEntry
  | .wireTunnel nodeID ipv6 ipv4 roomID tun => some ⟨ipv6, ipv4, nodeID, roomID, some tun⟩
  | .remove _ => none

/-- The table after a call. -/
def PeerTable.perform (t : PeerTable) : TableCall → PeerTable
  | .wireTunnel nodeID ipv6 ipv4 roomID tun => t.wireTunnel nodeID ipv6 ipv4 roomID tun
  | .remove nodeID => t.remove nodeID

/-- The table after a sequence of calls. -/
def tableAfter (calls : List TableCall) : PeerTable :=
  calls.foldl PeerTable.perform newPeerTable

/-- The entries that the calls add, in their order. -/
def entriesAdded (calls : List TableCall) : List PeerEntry :=
  calls.filterMap TableCall.added

/-- The entries that the calls add for a node in a room. -/
def addsFor (calls : List TableCall) (nodeID roomID : Bytes) : List PeerEntry :=
  (entriesAdded calls).filter fun e => e.nodeID = nodeID ∧ e.roomID = roomID

/-- The table finds an entry only if it is the last one added for its node in its room. -/
def Fresh (calls : List TableCall) : Prop :=
  ∀ text e, ((tableAfter calls).get text = some e ∨ (tableAfter calls).getByIPv4 text = some e) →
    (addsFor calls e.nodeID e.roomID).getLast? = some e

/-- The entry has no address in the field, or the calls add an entry with the same one. -/
def Rewritten (calls : List TableCall) (field : PeerEntry → Bytes) (e : PeerEntry) : Prop :=
  field e = [] ∨ ∃ other ∈ entriesAdded calls, field other = field e

section Cells

/-- A text in the index of a field, as a cell. -/
def entryCell (field : PeerEntry → Bytes) (text : Bytes) : Cell TableCall PeerEntry where
  writes call := call.added.filter fun e => text ≠ [] ∧ field e = text
  drops
    | .remove nodeID, e => e.nodeID = nodeID
    | _, _ => false

/-- Putting an entry under a text is a write of the text's cell. -/
theorem put_eq_next (field : PeerEntry → Bytes) (index : Bytes → Option PeerEntry) {text : Bytes}
    {call : TableCall} {e : PeerEntry} (adds : call.added = some e)
    (keeps : ∀ value, (entryCell field text).drops call value = false) :
    PeerTable.put index (field e) e text = (entryCell field text).next (index text) call := by
  rw [PeerTable.put_apply]
  by_cases written : text ≠ [] ∧ field e = text
  · rw [if_pos written]
    simp [Cell.next, entryCell, adds, Option.filter, written]
  · have unwritten : (entryCell field text).writes call = none := by
      simp only [entryCell, adds, Option.filter, written, decide_false, Bool.false_eq_true,
        ↓reduceIte]
    rw [if_neg written, Cell.next_of_idle unwritten keeps]

/-- Removing a node drops its entry from the cell of a text. -/
theorem filter_eq_next (field : PeerEntry → Bytes) (text nodeID : Bytes)
    (current : Option PeerEntry) :
    current.filter (fun e => e.nodeID ≠ nodeID) =
      (entryCell field text).next current (.remove nodeID) := by
  simp [Cell.next, entryCell, TableCall.added]

/-- What a call does to the entries under a text. -/
theorem get_perform (t : PeerTable) (call : TableCall) (text : Bytes) :
    (t.perform call).get text = (entryCell (·.ipv6) text).next (t.get text) call ∧
      (t.perform call).getByIPv4 text =
        (entryCell (·.ipv4) text).next (t.getByIPv4 text) call := by
  cases call with
  | wireTunnel nodeID ipv6 ipv4 roomID tun =>
      exact ⟨put_eq_next (·.ipv6) t.byIPv6 rfl fun _ => rfl,
        put_eq_next (·.ipv4) t.byIPv4 rfl fun _ => rfl⟩
  | remove nodeID =>
      exact ⟨filter_eq_next (·.ipv6) text nodeID _, filter_eq_next (·.ipv4) text nodeID _⟩

/-- The table after one more call. -/
theorem tableAfter_append (calls : List TableCall) (call : TableCall) :
    tableAfter (calls ++ [call]) = (tableAfter calls).perform call := by
  rw [tableAfter, List.foldl_append]
  rfl

/-- What the indexes hold under a text after a run. -/
theorem get_tableAfter (calls : List TableCall) (text : Bytes) :
    (tableAfter calls).get text = (entryCell (·.ipv6) text).after calls ∧
      (tableAfter calls).getByIPv4 text = (entryCell (·.ipv4) text).after calls := by
  induction calls using List.reverseRecOn with
  | nil => exact ⟨rfl, rfl⟩
  | append_singleton calls call ih =>
      rw [tableAfter_append, Cell.after_append, Cell.after_append, ← ih.1, ← ih.2]
      exact get_perform _ _ _

/-- A text is written by an addition whose field is that text, unless it is empty. -/
theorem entryCell_writes {field : PeerEntry → Bytes} {text : Bytes} {call : TableCall}
    {e : PeerEntry} :
    (entryCell field text).writes call = some e ↔
      call.added = some e ∧ text ≠ [] ∧ field e = text := by
  simp only [entryCell, Option.filter_eq_some_iff, decide_eq_true_eq]

/-- The entries that were added are those of the calls. -/
theorem mem_entriesAdded {calls : List TableCall} {e : PeerEntry} :
    e ∈ entriesAdded calls ↔ ∃ call ∈ calls, call.added = some e :=
  List.mem_filterMap

/-- Calls keep an entry under its address if they add no other one there and do not remove
its node. -/
theorem entryCell_keeps {field : PeerEntry → Bytes} {calls : List TableCall} {e : PeerEntry}
    (addressed : field e ≠ []) :
    (entryCell field (field e)).Keeps e calls ↔
      ¬ Rewritten calls field e ∧ .remove e.nodeID ∉ calls := by
  constructor
  · intro kept
    refine ⟨?_, fun member => ?_⟩
    · rintro (empty | ⟨other, added, same⟩)
      · exact addressed empty
      · obtain ⟨call, member, adds⟩ := mem_entriesAdded.mp added
        have unwritten := (kept call member).1
        rw [entryCell_writes.mpr ⟨adds, addressed, same⟩] at unwritten
        cases unwritten
    · simpa [entryCell] using (kept _ member).2
  · rintro ⟨lasting, stays⟩ call member
    constructor
    · rw [Option.eq_none_iff_forall_ne_some]
      intro other written
      obtain ⟨adds, _, same⟩ := entryCell_writes.mp written
      exact lasting (Or.inr ⟨other, mem_entriesAdded.mpr ⟨call, member, adds⟩, same⟩)
    · cases call with
      | wireTunnel nodeID ipv6 ipv4 roomID tun => rfl
      | remove nodeID =>
          refine decide_eq_false ?_
          rintro rfl
          exact stays member

/-- An index finds an entry if it was added under its address, not rewritten there and not
removed. -/
theorem entryCell_after {field : PeerEntry → Bytes} {text : Bytes} {calls : List TableCall}
    {e : PeerEntry} :
    (entryCell field text).after calls = some e ↔
      text ≠ [] ∧ field e = text ∧ ∃ earlier call later, calls = earlier ++ call :: later ∧
        call.added = some e ∧ ¬ Rewritten later field e ∧ .remove e.nodeID ∉ later := by
  rw [Cell.after_eq_some_iff]
  constructor
  · rintro ⟨earlier, call, later, split, written, kept⟩
    obtain ⟨adds, addressed, rfl⟩ := entryCell_writes.mp written
    exact ⟨addressed, rfl, earlier, call, later, split, adds, (entryCell_keeps addressed).mp kept⟩
  · rintro ⟨addressed, rfl, earlier, call, later, split, adds, kept⟩
    exact ⟨earlier, call, later, split, entryCell_writes.mpr ⟨adds, addressed, rfl⟩,
      (entryCell_keeps addressed).mpr kept⟩

end Cells

section Freshness

/-- An addition stands, among those for its node and room, between the earlier and the later ones.
-/
theorem addsFor_append_cons (earlier later : List TableCall) {call : TableCall} {e : PeerEntry}
    (adds : call.added = some e) :
    addsFor (earlier ++ call :: later) e.nodeID e.roomID =
      addsFor earlier e.nodeID e.roomID ++ e :: addsFor later e.nodeID e.roomID := by
  simp [addsFor, entriesAdded, adds]

/-- An entry is the last one of its peer if nothing follows it, or it is added again. -/
theorem getLast?_addsFor (earlier later : List TableCall) {call : TableCall} {e : PeerEntry}
    (adds : call.added = some e) :
    (addsFor (earlier ++ call :: later) e.nodeID e.roomID).getLast? = some e ↔
      addsFor later e.nodeID e.roomID = [] ∨
        (addsFor later e.nodeID e.roomID).getLast? = some e := by
  rw [addsFor_append_cons earlier later adds, List.getLast?_append_cons]
  cases addsFor later e.nodeID e.roomID with
  | nil => simp
  | cons first rest => simp

/-- One index finds only the last entries exactly if the entries that are followed by another
of their peer are rewritten. -/
theorem index_fresh_iff (field : PeerEntry → Bytes) (calls : List TableCall) :
    (∀ text e, (entryCell field text).after calls = some e →
      (addsFor calls e.nodeID e.roomID).getLast? = some e) ↔
    ∀ earlier call later e, calls = earlier ++ call :: later → call.added = some e →
      .remove e.nodeID ∉ later → addsFor later e.nodeID e.roomID ≠ [] →
      Rewritten later field e := by
  constructor
  · intro fresh earlier call later e split adds stays followed
    by_contra lasting
    have addressed : field e ≠ [] := fun empty => lasting (Or.inl empty)
    have last := fresh (field e) e
      (entryCell_after.mpr ⟨addressed, rfl, earlier, call, later, split, adds, lasting, stays⟩)
    rw [split, getLast?_addsFor earlier later adds] at last
    rcases last with nothing | again
    · exact followed nothing
    · have member := List.mem_of_mem_filter (List.mem_of_getLast? again)
      exact lasting (Or.inr ⟨e, member, rfl⟩)
  · intro rewritten text e found
    obtain ⟨_, _, earlier, call, later, split, adds, lasting, stays⟩ := entryCell_after.mp found
    rw [split, getLast?_addsFor earlier later adds]
    by_contra outdated
    exact lasting (rewritten earlier call later e split adds stays fun nothing =>
      outdated (Or.inl nothing))

end Freshness

/-- After calls of `WireTunnel` and `Remove` the table finds, for every node and room, only the
entry that was added last, exactly if every entry that is not removed and is followed by
another one of its node and room has both of its addresses written again. -/
theorem fresh_iff (calls : List TableCall) :
    Fresh calls ↔
      ∀ earlier call later e, calls = earlier ++ call :: later → call.added = some e →
        .remove e.nodeID ∉ later → addsFor later e.nodeID e.roomID ≠ [] →
        Rewritten later (·.ipv6) e ∧ Rewritten later (·.ipv4) e := by
  have both : Fresh calls ↔
      (∀ text e, (entryCell (·.ipv6) text).after calls = some e →
        (addsFor calls e.nodeID e.roomID).getLast? = some e) ∧
      ∀ text e, (entryCell (·.ipv4) text).after calls = some e →
        (addsFor calls e.nodeID e.roomID).getLast? = some e := by
    simp only [Fresh, (get_tableAfter calls _).1, (get_tableAfter calls _).2, or_imp,
      forall_and]
  rw [both, index_fresh_iff, index_fresh_iff]
  constructor
  · rintro ⟨v6, v4⟩ earlier call later e split adds stays followed
    exact ⟨v6 earlier call later e split adds stays followed,
      v4 earlier call later e split adds stays followed⟩
  · intro rewritten
    exact ⟨fun earlier call later e split adds stays followed =>
        (rewritten earlier call later e split adds stays followed).1,
      fun earlier call later e split adds stays followed =>
        (rewritten earlier call later e split adds stays followed).2⟩

/-- A peer that is wired again with another IPv4 address and another tunnel. -/
def rewired : List TableCall :=
  [.wireTunnel (ascii "peer-1") [] (ascii "240.0.0.1") (ascii "room") 1,
    .wireTunnel (ascii "peer-1") [] (ascii "240.0.0.2") (ascii "room") 2]

/-- The old address still finds the old entry, and packets to it go to the old tunnel. -/
theorem rewired_stale :
    ¬ Fresh rewired ∧
      ((tableAfter rewired).route (ascii "240.0.0.1")).bind PeerEntry.sink = some 1 := by
  refine ⟨fun fresh => ?_, by decide⟩
  have last := fresh (ascii "240.0.0.1")
    ⟨[], ascii "240.0.0.1", ascii "peer-1", ascii "room", some 1⟩ (Or.inr (by decide))
  exact absurd last (by decide)

end P2pMesh.Routing

import P2pMesh.Dns.Message
import P2pMesh.Foundation.CaseMap

/-! # Resolving names of the mesh

`Resolver` of `internal/dns/resolver.go` and `Proxy.handle`. The view, the upstream
resolver, `net.ParseIP` and the quoting of `%q` are parameters, and a call of `Resolve`
carries the hosts that it hands to the upstream. A name that ends in the domain of the
mesh stays inside when a dot stands before the domain and at most one after it, and is
handed to the upstream otherwise (`P2pMesh.Dns.Resolver.resolve_inside_iff`).
-/

namespace P2pMesh.Dns

open Foundation

/-- What a `Resolver` consults. -/
structure Resolver where
  caseMap : CaseMap
  view : Bytes → Option (Bytes × Bytes)
  upstream : Bytes → Outcome
  parseIP : Bytes → Option Bytes
  quoted : Bytes → Bytes

/-- The domain of the mesh, without its dot. -/
def domain : Bytes := ascii "xiaolangze"

/-- `TLD`. -/
def tld : Bytes := dot :: domain

/-- `strings.TrimSuffix`. -/
def trimSuffix (text ending : Bytes) : Bytes :=
  if ending <:+ text then text.take (text.length - ending.length) else text

namespace Resolver

variable (r : Resolver)

/-- `canonicalName`. -/
def canonicalName (name : Bytes) : Bytes :=
  r.caseMap.toLower (trimSuffix name [dot])

/-- What `Resolve` answers for a name under the domain of the mesh. -/
def resolveMesh (host : Bytes) : Outcome :=
  let label := trimSuffix host tld
  if label = [] ∨ dot ∈ label then
    .error (host ++ ascii ": not a node name (want <node-id>" ++ tld ++ ascii ")")
  else
    match r.view label with
    | none =>
        .error (host ++ ascii ": node " ++ r.quoted label ++
          ascii " not known (or not in this room)")
    | some (ipv6, ipv4) =>
        let out := (r.parseIP ipv6).toList ++ (r.parseIP ipv4).toList
        if out.length = 0 then
          .error (host ++ ascii ": node " ++ r.quoted label ++ ascii " has no address")
        else .ok (some out)

/-- `Resolve`, with the hosts that it hands to the upstream resolver. -/
def resolve (name : Bytes) : List Bytes × Outcome :=
  let host := r.canonicalName name
  if ¬ tld <:+ host then ([host], r.upstream host)
  else ([], r.resolveMesh host)

/-- `handle` on a packet: the reply, if the packet is a query. -/
def handle (fuel : Nat) (pkt : Bytes) : Option (Option Bytes) :=
  match parseQuery fuel pkt with
  | none => none
  | some (.error _) => some none
  | some (.ok q) => some (some (reply q (r.resolve q.qName).2))

/-- The last part of a name between dots that is not empty. -/
def lastComponent (name : Bytes) : Option Bytes :=
  ((name.splitOn dot).filter (· ≠ [])).getLast?

/-- The last part of the name that is not empty is the domain of the mesh, in any case. -/
def UnderDomain (name : Bytes) : Prop :=
  ∃ component, lastComponent name = some component ∧ r.caseMap.toLower component = domain

/-- A part of the name that is not empty stands between a dot and the end of the name, or
one more dot. -/
def DottedOnce (name : Bytes) : Prop :=
  ∃ front last, last ≠ [] ∧ dot ∉ last ∧
    (name = front ++ dot :: last ∨ name = front ++ dot :: last ++ [dot])

section Cutting

/-- Trimming takes a suffix off. -/
theorem trimSuffix_append (text ending : Bytes) : trimSuffix (text ++ ending) ending = text := by
  rw [trimSuffix, if_pos (List.suffix_append text ending), List.length_append,
    Nat.add_sub_cancel, List.take_left]

/-- One dot is trimmed from the end of a name, if there is one. -/
theorem trimSuffix_dot (name : Bytes) :
    name = trimSuffix name [dot] ∨ name = trimSuffix name [dot] ++ [dot] := by
  by_cases ends : [dot] <:+ name
  · obtain ⟨front, rfl⟩ := ends
    rw [trimSuffix_append]
    exact Or.inr rfl
  · rw [trimSuffix, if_neg ends]
    exact Or.inl rfl

/-- A string with a dot has a last one. -/
theorem exists_last_dot {text : Bytes} (member : dot ∈ text) :
    ∃ front last, text = front ++ dot :: last ∧ dot ∉ last := by
  obtain ⟨after, before, reversed, noDot⟩ :=
    List.eq_append_cons_of_mem (List.mem_reverse.mpr member)
  refine ⟨before.reverse, after.reverse, ?_, ?_⟩
  · have same := congrArg List.reverse reversed
    simpa using same
  · rwa [List.mem_reverse]

/-- What stands after the last dot is determined by the string. -/
theorem eq_of_last_dot {front last front' last' : Bytes} (noDot : dot ∉ last)
    (noDot' : dot ∉ last') (same : front ++ dot :: last = front' ++ dot :: last') :
    last = last' := by
  have parts := congrArg (fun text => (text.splitOn dot).getLast?) same
  simpa [List.splitOn_append_cons_self, List.splitOn_eq_singleton noDot,
    List.splitOn_eq_singleton noDot'] using parts

/-- A name that does not end in a dot has none to trim. -/
theorem trimSuffix_dotted {front last : Bytes} (nonempty : last ≠ []) (noDot : dot ∉ last) :
    trimSuffix (front ++ dot :: last) [dot] = front ++ dot :: last := by
  rw [trimSuffix, if_neg]
  rintro ⟨other, same⟩
  exact nonempty (eq_of_last_dot List.not_mem_nil noDot same).symm

/-- The last component is what follows the last dot, if that is not empty. -/
theorem lastComponent_dotted {front last : Bytes} (nonempty : last ≠ []) (noDot : dot ∉ last) :
    lastComponent (front ++ dot :: last) = some last := by
  simp [lastComponent, List.splitOn_append_cons_self, List.splitOn_eq_singleton noDot,
    List.filter_append, nonempty]

/-- A final dot does not change the last component. -/
theorem lastComponent_append_dot (name : Bytes) :
    lastComponent (name ++ [dot]) = lastComponent name := by
  simp [lastComponent, List.splitOn_append_cons_self, List.filter_append]

end Cutting

/-- Lower case is taken on both sides of a dot. -/
theorem toLower_dot (left right : Bytes) :
    r.caseMap.toLower (left ++ dot :: right) =
      r.caseMap.toLower left ++ dot :: r.caseMap.toLower right :=
  r.caseMap.toLower_append left right (by decide) (by decide)

/-- Lower case makes no dot. -/
theorem dot_notMem_toLower {text : Bytes} (noDot : dot ∉ text) : dot ∉ r.caseMap.toLower text :=
  fun member => noDot (r.caseMap.mem_of_mem_toLower (by decide) (by decide) member)

/-- A lower-cased name is under the domain when what follows its last dot is the domain. -/
theorem tld_suffix_iff (name : Bytes) :
    tld <:+ r.caseMap.toLower name ↔
      ∃ front last, name = front ++ dot :: last ∧ dot ∉ last ∧ r.caseMap.toLower last = domain := by
  constructor
  · rintro ⟨front, same⟩
    have member : dot ∈ name := by
      by_contra noDot
      apply r.dot_notMem_toLower noDot
      simp [← same, tld]
    obtain ⟨before, last, rfl, noDot⟩ := exists_last_dot member
    rw [r.toLower_dot] at same
    have found := eq_of_last_dot (by decide) (r.dot_notMem_toLower noDot) same
    exact ⟨before, last, rfl, noDot, found.symm⟩
  · rintro ⟨front, last, rfl, _, found⟩
    rw [r.toLower_dot, found]
    exact List.suffix_append _ _

/-- A name whose last component is the domain of the mesh, in any case, is kept from the
upstream resolver exactly when the domain follows a dot and is followed by at most one. -/
theorem resolve_inside_iff (name : Bytes) (under : r.UnderDomain name) :
    (r.resolve name).1 = [] ↔ DottedOnce name := by
  have kept : (r.resolve name).1 = [] ↔ tld <:+ r.canonicalName name := by
    unfold resolve
    by_cases inside : tld <:+ r.canonicalName name <;> simp [inside]
  rw [kept, canonicalName, tld_suffix_iff]
  constructor
  · rintro ⟨front, last, trimmed, noDot, found⟩
    refine ⟨front, last, ?_, noDot, ?_⟩
    · rintro rfl
      rw [CaseMap.toLower_nil] at found
      exact absurd found (by decide)
    · rw [← trimmed]
      exact trimSuffix_dot name
  · rintro ⟨front, last, nonempty, noDot, placed⟩
    obtain ⟨component, isLast, found⟩ := under
    have trimmed : trimSuffix name [dot] = front ++ dot :: last := by
      rcases placed with rfl | rfl
      · exact trimSuffix_dotted nonempty noDot
      · exact trimSuffix_append _ _
    have same : lastComponent name = some last := by
      rcases placed with rfl | rfl
      · exact lastComponent_dotted nonempty noDot
      · rw [lastComponent_append_dot, lastComponent_dotted nonempty noDot]
    rw [isLast, Option.some_inj] at same
    exact ⟨front, last, trimmed, noDot, same ▸ found⟩

end Resolver

/-- A resolver over an empty view whose upstream knows nothing. -/
def sampleResolver : Resolver :=
  ⟨.ascii, fun _ => none, fun _ => .error (ascii "no such host"), fun _ => none, id⟩

/-- A query for the domain of the mesh itself. -/
def bareQuery : Bytes :=
  [0x12, 0x34, 0x01, 0x00, 0, 1, 0, 0, 0, 0, 0, 0] ++
    [10, 0x78, 0x69, 0x61, 0x6f, 0x6c, 0x61, 0x6e, 0x67, 0x7a, 0x65, 0, 0, 1, 0, 1]

/-- What is parsed from it. -/
def bareParsed : Query :=
  ⟨0x1234, domain, typeA, classIN, true⟩

/-- The domain by itself has no dot before it and is handed to the upstream. -/
theorem bareQuery_leaks :
    parseQuery 2 bareQuery = some (.ok bareParsed) ∧
      sampleResolver.UnderDomain bareParsed.qName ∧
      (sampleResolver.resolve bareParsed.qName).1 = [domain] :=
  ⟨by decide, ⟨domain, by decide, by decide +kernel⟩, by decide +kernel⟩

/-- A name of the mesh in mixed case with a dot at its end is kept. -/
theorem mixedCase_kept :
    sampleResolver.UnderDomain (ascii "node.XiaoLangZe.") ∧
      (sampleResolver.resolve (ascii "node.XiaoLangZe.")).1 = [] := by
  have under : sampleResolver.UnderDomain (ascii "node.XiaoLangZe.") :=
    ⟨ascii "XiaoLangZe", by decide, by decide +kernel⟩
  refine ⟨under, (sampleResolver.resolve_inside_iff _ under).mpr ?_⟩
  exact ⟨ascii "node", ascii "XiaoLangZe", by decide, by decide, Or.inr rfl⟩

end P2pMesh.Dns

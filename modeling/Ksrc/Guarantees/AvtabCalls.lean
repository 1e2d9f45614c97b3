import Ksrc.Guarantees.RuleLog
import Ksrc.Source.AvtabCalls

/-!
# Tables filled by any insertions

Source: `security/selinux/ss/avtab.c` (`avtab_insert`, `avtab_insert_nonunique`,
`avtab_search_node`, `avtab_search_node_next`).

A refused insertion meets a node of its triple that shares a specifier: the chain is in
order, so the walk reaches every such node before it stops.
-/
namespace Ksrc.Guarantees.AvtabCalls

open Library Source AvtabEnumeration RuleLog

/-- The keys name the same types and class. -/
def SameTriple (a b : AvtabKey) : Prop :=
  a.sourceType = b.sourceType ∧ a.targetType = b.targetType ∧ a.targetClass = b.targetClass

/-- The keys share a specifier; `AVTAB_ENABLED` is a flag, not a specifier. -/
def Overlaps (a b : AvtabKey) : Prop :=
  avtabSpecified a.specified &&& avtabSpecified b.specified ≠ 0

def Extended (k : AvtabKey) : Prop := avtabSpecified k.specified &&& avtabXperms ≠ 0

/-- Two nodes no unique insertion may leave side by side. -/
def Clash (a b : AvtabNode) : Prop :=
  a.addr ≠ b.addr ∧ SameTriple a.key b.key ∧ Overlaps a.key b.key ∧
    ¬ Extended a.key ∧ ¬ Extended b.key

theorem masked_and (a b : U16) : avtabSpecified a &&& b = avtabSpecified a &&& avtabSpecified b := by
  unfold avtabSpecified
  ext i
  simp only [BitVec.getElem_and, BitVec.getElem_not]
  cases a[i] <;> cases b[i] <;> cases avtabEnabled[i] <;> rfl

theorem avtabMatch_overlaps {a b : AvtabKey} :
    avtabMatch a (avtabSpecified a.specified) b = true ↔ SameTriple a b ∧ Overlaps a b := by
  rw [avtabMatch_iff, keyCode_inj, masked_and]
  rfl

section Chain

variable {new : AvtabNode} {specified : U16} {chain chain' : List AvtabNode}

/-- In an ordered chain the walk refuses a key that shares a specifier with a node. -/
theorem avtabChainInsert_refused (sorted : ChainSorted chain)
    (plain : ¬ specified &&& avtabXperms ≠ 0) {n : AvtabNode} (member : n ∈ chain)
    (hit : avtabMatch new.key specified n.key = true) :
    avtabChainInsert new specified chain = .error (.err .EEXIST) := by
  induction chain with
  | nil => cases member
  | cons cur next ih =>
    have rest := (List.pairwise_cons.mp sorted).2
    have later := (List.pairwise_cons.mp sorted).1
    unfold avtabChainInsert
    by_cases matched : avtabMatch new.key specified cur.key = true
    · rw [if_pos matched, if_neg plain]
    · have behind : n ∈ next := by
        cases member with
        | head => exact absurd hit matched
        | tail _ behind => exact behind
      have notBefore : ¬ avtabBefore new.key cur.key = true := by
        rw [avtabBefore_iff]
        have order := later n behind
        have same := (avtabMatch_iff.mp hit).1
        omega
      rw [if_neg matched, if_neg notBefore, ih rest behind]

end Chain

section Table

variable {h h' : Avtab} {key : AvtabKey} {datum : AvtabDatum}

theorem mem_slot (ok : AvtabOk h) {n : AvtabNode} (member : n ∈ h.nodes)
    (same : keyCode key = keyCode n.key) : n ∈ h.htable.getD (avtabSlot h key) [] := by
  obtain ⟨chain, linked, here⟩ := List.mem_flatten.mp member
  obtain ⟨i, inside, rfl⟩ := List.mem_iff_getElem.mp linked
  rw [← List.getD_eq_getElem _ [] inside] at here
  rw [avtabSlot_congr h same, ok.placed i n here]
  exact here

theorem nslot_of_mem {n : AvtabNode} (member : n ∈ h.nodes) : h.nslot ≠ 0 := by
  intro empty
  have none : h.htable = [] := List.length_eq_zero_iff.mp empty
  rw [Avtab.nodes, none] at member
  cases member

theorem avtabInsert_perm (inserted : avtabInsert h key datum = .ok h') :
    h'.nel = h.nel + 1 ∧ h.nel ≠ 0xffffffff ∧
      h'.nodes.Perm ({ addr := h.nel, key, datum } :: h.nodes) := by
  unfold avtabInsert at inserted
  split at inserted
  · cases inserted
  · rename_i room
    rw [not_or] at room
    split at inserted
    · cases inserted
    · rename_i chain linked
      cases inserted
      exact ⟨rfl, room.2, flatten_set_perm (avtabSlot_lt room.1)
        (inserted_perm (avtabChainInsert_at linked))⟩

/-- A plain key that shares a specifier with a node of its triple is refused. -/
theorem avtabInsert_refused (ok : AvtabOk h) {n : AvtabNode} (member : n ∈ h.nodes)
    (same : SameTriple key n.key) (overlaps : Overlaps key n.key) (plain : ¬ Extended key) :
    avtabInsert h key datum = .error (if h.nel = 0xffffffff then einval else .err .EEXIST) := by
  have slots := nslot_of_mem member
  unfold avtabInsert
  by_cases full : h.nel = 0xffffffff
  · rw [if_pos (Or.inr full), if_pos full]
  · have room : ¬ (h.nslot = 0 ∨ h.nel = 0xffffffff) := by
      rw [not_or]
      exact ⟨slots, full⟩
    rw [if_neg room, if_neg full]
    have here := mem_slot ok member (keyCode_inj.mpr same)
    have hit := avtabMatch_overlaps.mpr ⟨same, overlaps⟩
    have refused : avtabChainInsert { addr := h.nel, key, datum } (avtabSpecified key.specified)
        (h.htable.getD (avtabSlot h key) []) = .error (.err .EEXIST) :=
      avtabChainInsert_refused (ok.sorted _) plain here hit
    rw [refused]

end Table

/-- A table in use: in order, counted by `nel`, and its nodes have the addresses below. -/
structure Filled (h : Avtab) : Prop where
  ok : AvtabOk h
  nel : h.nodes.length = h.nel
  addrs : (h.nodes.map AvtabNode.addr).Perm (List.range h.nel)

theorem filled_alloc (nrules : U32) : Filled (avtabAlloc nrules) := by
  have logged := logged_alloc nrules
  have nel := logged.nel
  have addrs := logged.addrs
  rw [← nel] at addrs
  refine ⟨logged.ok, ?_, addrs⟩
  have length := addrs.length_eq
  simpa using length

section Fill

variable {h h' : Avtab} {key : AvtabKey} {datum : AvtabDatum}

/-- One more node. -/
theorem Filled.more (filled : Filled h) (ok : AvtabOk h') (nel : h'.nel = h.nel + 1)
    (perm : h'.nodes.Perm ({ addr := h.nel, key, datum } :: h.nodes)) : Filled h' := by
  refine ⟨ok, ?_, ?_⟩
  · have length := perm.length_eq
    have before := filled.nel
    simp only [List.length_cons] at length
    omega
  · rw [nel, List.range_succ]
    calc (h'.nodes.map AvtabNode.addr).Perm (h.nel :: h.nodes.map AvtabNode.addr) := perm.map _
      List.Perm _ (h.nel :: List.range h.nel) := filled.addrs.cons _
      List.Perm _ (List.range h.nel ++ [h.nel]) := (List.perm_append_singleton _ _).symm

theorem Filled.call (filled : Filled h) (call : AvtabCall) : Filled (avtabCall h call) := by
  cases call with
  | insert key datum allocated =>
    simp only [avtabCall, avtabInsertCall]
    cases inserted : avtabInsert h key datum with
    | error e => exact filled
    | ok h' =>
      cases allocated with
      | false => exact filled
      | true =>
        obtain ⟨nel, -, perm⟩ := avtabInsert_perm inserted
        exact filled.more (avtabInsert_ok filled.ok inserted) nel perm
  | insertNonunique key datum allocated =>
    simp only [avtabCall, avtabInsertNonuniqueCall]
    cases inserted : avtabInsertNonunique h key datum with
    | none => exact filled
    | some linked =>
      obtain ⟨after, addr⟩ := linked
      cases allocated with
      | false => exact filled
      | true =>
        obtain ⟨-, nel, perm⟩ := avtabInsertNonunique_perm inserted
        exact filled.more (avtabInsertNonunique_ok filled.ok inserted) nel perm

theorem filled_fill (nrules : U32) (calls : List AvtabCall) :
    Filled (avtabFill (avtabAlloc nrules) calls) := by
  unfold avtabFill
  induction calls using List.reverseRecOn with
  | nil => exact filled_alloc nrules
  | append_singleton calls call ih =>
    rw [List.foldl_append]
    exact ih.call call

theorem Filled.matches_nodup (filled : Filled h) (key : AvtabKey) : (avtabMatches h key).Nodup := by
  have once : (h.nodes.map AvtabNode.addr).Nodup := filled.addrs.nodup_iff.mpr List.nodup_range
  have nodes : h.nodes.Nodup := List.Nodup.of_map _ once
  rw [avtabMatches_filter filled.ok]
  by_cases inside : avtabSlot h key < h.htable.length
  · rw [List.getD_eq_getElem _ _ inside]
    have chain : h.htable[avtabSlot h key].Sublist h.nodes :=
      List.sublist_flatten_of_mem (List.getElem_mem inside)
    exact nodes.sublist (List.filter_sublist.trans chain)
  · rw [List.getD_eq_default _ _ (by omega)]
    exact List.nodup_nil

end Fill

/-- What a table in use offers: `nel` counts it, a search and the searches after it visit the
nodes that match, each once, and a unique insertion leaves no new clash; the key of one
is refused and nothing changes. A table with `nel` at its end refuses every key. -/
structure TableRight (h : Avtab) : Prop where
  nel : h.nel = h.nodes.length
  visited : ∀ key n, n ∈ avtabMatches h key ↔
    n ∈ h.nodes ∧ SameTriple key n.key ∧ Overlaps key n.key
  once : ∀ key, (avtabMatches h key).Nodup
  refused : ∀ key datum allocated, ∀ n ∈ h.nodes, SameTriple key n.key → Overlaps key n.key →
    ¬ Extended key → avtabInsertCall h key datum allocated =
      (.error (if h.nel = 0xffffffff then einval else .err .EEXIST), h)
  apart : ∀ key datum allocated, ∀ a ∈ (avtabInsertCall h key datum allocated).2.nodes,
    ∀ b ∈ (avtabInsertCall h key datum allocated).2.nodes, Clash a b → a ∈ h.nodes ∧ b ∈ h.nodes

theorem Clash.symm {a b : AvtabNode} (clash : Clash a b) : Clash b a := by
  obtain ⟨apart, same, overlaps, plain, plain'⟩ := clash
  refine ⟨apart.symm, ⟨same.1.symm, same.2.1.symm, same.2.2.symm⟩, ?_, plain', plain⟩
  rw [Overlaps, BitVec.and_comm]
  exact overlaps

theorem Filled.right {h : Avtab} (filled : Filled h) : TableRight h := by
  constructor
  · exact filled.nel.symm
  · intro key n
    rw [mem_avtabMatches filled.ok, avtabMatch_overlaps]
  · exact filled.matches_nodup
  · intro key datum allocated n member same overlaps plain
    rw [avtabInsertCall, avtabInsert_refused filled.ok member same overlaps plain]
  · intro key datum allocated a inA b inB clash
    simp only [avtabInsertCall] at inA inB
    cases inserted : avtabInsert h key datum with
    | error e =>
      rw [inserted] at inA inB
      exact ⟨inA, inB⟩
    | ok h' =>
      rw [inserted] at inA inB
      cases allocated with
      | false => exact ⟨inA, inB⟩
      | true =>
        have perm := (avtabInsert_perm inserted).2.2
        -- the new node clashes with no other
        have alone : ∀ n ∈ h.nodes, ¬ Clash { addr := h.nel, key, datum } n := by
          intro n member clash
          obtain ⟨-, same, overlaps, plain, -⟩ := clash
          rw [avtabInsert_refused filled.ok member same overlaps plain] at inserted
          cases inserted
        cases List.mem_cons.mp (perm.mem_iff.mp inA) with
        | inl newA =>
          cases List.mem_cons.mp (perm.mem_iff.mp inB) with
          | inl newB => exact absurd (newA ▸ newB ▸ rfl) clash.1
          | inr oldB => exact absurd (newA ▸ clash) (alone b oldB)
        | inr oldA =>
          cases List.mem_cons.mp (perm.mem_iff.mp inB) with
          | inl newB => exact absurd (newB ▸ clash.symm) (alone a oldA)
          | inr oldB => exact ⟨oldA, oldB⟩

/-- Any sequence of insertions, with any of them short of memory. -/
theorem avtabFill_right (nrules : U32) (calls : List AvtabCall) :
    TableRight (avtabFill (avtabAlloc nrules) calls) :=
  (filled_fill nrules calls).right

section Full

def allowedKey : AvtabKey := { sourceType := 1, targetType := 1, targetClass := 1, specified := 1 }

/-- As many entries of one key as are asked for. -/
def repeated (count : Nat) : List AvtabCall :=
  List.replicate count (.insertNonunique allowedKey (.data 1) true)

theorem avtabInsertNonunique_nslot {h h' : Avtab} {key : AvtabKey} {datum : AvtabDatum}
    {addr : Nat} (inserted : avtabInsertNonunique h key datum = some (h', addr)) :
    h'.nslot = h.nslot := by
  unfold avtabInsertNonunique at inserted
  split at inserted
  · cases inserted
  · cases inserted
    simp only [Avtab.nslot, List.length_set]

/-- Every one of them is linked until `nel` is at its end. -/
theorem fill_repeated (count : Nat) (small : count ≤ 0xffffffff) :
    (avtabFill (avtabAlloc 1) (repeated count)).nel = count ∧
      (avtabFill (avtabAlloc 1) (repeated count)).nslot = 2 ∧
      ∀ n ∈ (avtabFill (avtabAlloc 1) (repeated count)).nodes, n.key = allowedKey := by
  induction count with
  | zero =>
    refine ⟨rfl, by decide, ?_⟩
    decide
  | succ count ih =>
    obtain ⟨nel, nslot, keys⟩ := ih (by omega)
    have next : avtabFill (avtabAlloc 1) (repeated (count + 1)) =
        (avtabInsertNonuniqueCall (avtabFill (avtabAlloc 1) (repeated count)) allowedKey
          (.data 1) true).2 := by
      unfold repeated avtabFill
      rw [List.replicate_succ', List.foldl_append]
      rfl
    rw [next, avtabInsertNonuniqueCall]
    generalize avtabFill (avtabAlloc 1) (repeated count) = h at nel nslot keys
    cases inserted : avtabInsertNonunique h allowedKey (.data 1) with
    | none =>
      unfold avtabInsertNonunique at inserted
      rw [if_neg (by omega)] at inserted
      cases inserted
    | some linked =>
      obtain ⟨h', addr⟩ := linked
      obtain ⟨-, after, perm⟩ := avtabInsertNonunique_perm inserted
      have slots := avtabInsertNonunique_nslot inserted
      refine ⟨after.trans (by omega), slots.trans nslot, ?_⟩
      intro n member
      cases List.mem_cons.mp (perm.mem_iff.mp member) with
      | inl new => rw [new]
      | inr old => exact keys n old

/-- With `nel` at its end the key of a clash is refused for that, not with `-EEXIST`. -/
theorem full_table_refuses : ¬ ∀ nrules calls key datum allocated,
    ∀ n ∈ (avtabFill (avtabAlloc nrules) calls).nodes,
      SameTriple key n.key → Overlaps key n.key → ¬ Extended key →
        avtabInsertCall (avtabFill (avtabAlloc nrules) calls) key datum allocated =
          (.error (.err .EEXIST), avtabFill (avtabAlloc nrules) calls) := by
  intro all
  obtain ⟨count, most⟩ : ∃ count, count = 0xffffffff := ⟨_, rfl⟩
  obtain ⟨nel, -, keys⟩ := fill_repeated count (by omega)
  have claimed := all 1 (repeated count)
  have filled := filled_fill 1 (repeated count)
  generalize avtabFill (avtabAlloc 1) (repeated count) = h at nel keys claimed filled
  have used : h.nodes ≠ [] := by
    intro none
    have length := filled.nel
    rw [none] at length
    simp only [List.length_nil] at length
    omega
  obtain ⟨n, member⟩ := List.exists_mem_of_ne_nil _ used
  have same : SameTriple allowedKey n.key := by rw [keys n member]; exact ⟨rfl, rfl, rfl⟩
  have overlaps : Overlaps allowedKey n.key := by rw [keys n member, Overlaps]; decide
  have plain : ¬ Extended allowedKey := by rw [Extended]; decide
  have answered := claimed allowedKey (.data 1) true n member same overlaps plain
  rw [avtabInsertCall, avtabInsert_refused filled.ok member same overlaps plain,
    if_pos (nel.trans most)] at answered
  cases answered

end Full

end Ksrc.Guarantees.AvtabCalls

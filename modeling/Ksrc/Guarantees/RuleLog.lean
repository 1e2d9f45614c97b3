import Ksrc.Guarantees.AvtabEnumeration

/-!
# The rules of a table by their addresses

Source: `security/selinux/ss/avtab.c` (`avtab_insert`, `avtab_insert_nonunique`,
`avtab_search_node`, `avtab_search_node_next`).

The keys in the order of their insertions are a log of the table: the address of a node is the
position of its key.
-/
namespace Ksrc.Guarantees.RuleLog

open Library Source AvtabEnumeration

section Insert

variable {h h' : Avtab} {new : AvtabNode} {chain chain' : List AvtabNode} {key : AvtabKey}
  {datum : AvtabDatum} {addr : Nat}

theorem inserted_perm (inserted : InsertedAt new chain chain') : chain'.Perm (new :: chain) := by
  obtain ⟨before, behind, rfl, rfl, -, -⟩ := inserted.parts
  exact List.perm_middle

/-- The mask keeps the slot of a key inside the table. -/
theorem avtabSlot_lt (some : h.nslot ≠ 0) : avtabSlot h key < h.nslot := by
  unfold avtabSlot avtabHash
  simp only [BitVec.toNat_and, BitVec.toNat_ofNat]
  exact mask_lt some

theorem avtabInsertNonunique_perm (inserted : avtabInsertNonunique h key datum = some (h', addr)) :
    addr = h.nel ∧ h'.nel = h.nel + 1 ∧ h'.nodes.Perm ({ addr := h.nel, key, datum } :: h.nodes) := by
  unfold avtabInsertNonunique at inserted
  split at inserted
  · cases inserted
  · rename_i room
    rw [not_or] at room
    simp only [Option.some.injEq, Prod.mk.injEq] at inserted
    obtain ⟨rfl, rfl⟩ := inserted
    exact ⟨rfl, rfl, flatten_set_perm (avtabSlot_lt room.1)
      (inserted_perm (avtabChainInsertNonunique_at _))⟩

end Insert

/-- The table holds the keys of the log, each at its position. -/
structure Logged (h : Avtab) (log : List AvtabKey) : Prop where
  ok : AvtabOk h
  nel : h.nel = log.length
  addrs : (h.nodes.map AvtabNode.addr).Perm (List.range log.length)
  keys : ∀ n ∈ h.nodes, log[n.addr]? = some n.key

/-- The key at a position of the log matches `k`. -/
def MatchAt (log : List AvtabKey) (k : AvtabKey) (i : Nat) : Prop :=
  ∃ key, log[i]? = some key ∧ avtabMatch k (avtabSpecified k.specified) key = true

section Log

variable {h h' : Avtab} {log : List AvtabKey} {k : AvtabKey} {datum : AvtabDatum} {addr i : Nat}

theorem logged_alloc (nrules : U32) : Logged (avtabAlloc nrules) [] := by
  have empty : (avtabAlloc nrules).nodes = [] ∧ (avtabAlloc nrules).nel = 0 := by
    unfold avtabAlloc Avtab.nodes
    split
    · exact ⟨rfl, rfl⟩
    · simp
  constructor
  · exact avtabAlloc_ok nrules
  · exact empty.2
  · simp [empty.1]
  · simp [empty.1]

/-- An insertion adds its key to the log and returns the position. -/
theorem logged_insert (logged : Logged h log)
    (inserted : avtabInsertNonunique h k datum = some (h', addr)) :
    addr = log.length ∧ Logged h' (log ++ [k]) := by
  obtain ⟨rfl, nel, perm⟩ := avtabInsertNonunique_perm inserted
  refine ⟨logged.nel, ?_⟩
  constructor
  · exact avtabInsertNonunique_ok logged.ok inserted
  · rw [nel, logged.nel]
    simp
  · have longer : List.range (log ++ [k]).length = List.range log.length ++ [log.length] := by
      rw [List.length_append, List.length_singleton, List.range_succ]
    rw [longer, ← logged.nel]
    calc
      (h'.nodes.map AvtabNode.addr).Perm (h.nel :: h.nodes.map AvtabNode.addr) := perm.map _
      List.Perm _ (h.nel :: List.range log.length) := logged.addrs.cons _
      List.Perm _ (List.range log.length ++ [h.nel]) := (List.perm_append_singleton _ _).symm
      _ = List.range h.nel ++ [h.nel] := by rw [logged.nel]
  · intro n member
    rcases List.mem_cons.mp (perm.mem_iff.mp member) with rfl | old
    · simp [logged.nel]
    · have found := logged.keys n old
      have inside := (List.getElem?_eq_some_iff.mp found).1
      rw [List.getElem?_append_left inside]
      exact found

theorem Logged.node_at (logged : Logged h log) (inside : i < log.length) :
    ∃ n ∈ h.nodes, n.addr = i := by
  have member : i ∈ h.nodes.map AvtabNode.addr := logged.addrs.mem_iff.mpr (List.mem_range.mpr inside)
  exact List.mem_map.mp member

theorem Logged.inside (logged : Logged h log) {n : AvtabNode} (member : n ∈ h.nodes) :
    n.addr < log.length :=
  (List.getElem?_eq_some_iff.mp (logged.keys n member)).1

/-- The matches of a key are the positions whose keys match. -/
theorem Logged.matches_iff (logged : Logged h log) :
    (∃ n ∈ avtabMatches h k, n.addr = i) ↔ MatchAt log k i := by
  simp only [mem_avtabMatches logged.ok]
  constructor
  · rintro ⟨n, ⟨member, hit⟩, rfl⟩
    exact ⟨n.key, logged.keys n member, hit⟩
  · rintro ⟨key, found, hit⟩
    obtain ⟨n, member, rfl⟩ := logged.node_at (List.getElem?_eq_some_iff.mp found).1
    have same := logged.keys n member
    rw [found] at same
    cases same
    exact ⟨n, ⟨member, hit⟩, rfl⟩

theorem Logged.addrs_nodup (logged : Logged h log) :
    ((avtabMatches h k).map AvtabNode.addr).Nodup := by
  have all : (h.nodes.map AvtabNode.addr).Nodup := logged.addrs.nodup_iff.mpr List.nodup_range
  rw [avtabMatches_filter logged.ok]
  by_cases inside : avtabSlot h k < h.htable.length
  · rw [List.getD_eq_getElem _ _ inside]
    have chain : h.htable[avtabSlot h k].Sublist h.nodes :=
      List.sublist_flatten_of_mem (List.getElem_mem inside)
    exact all.sublist ((List.filter_sublist.trans chain).map _)
  · rw [List.getD_eq_default _ _ (by omega)]
    simp

end Log

section Search

variable {h : Avtab} {k : AvtabKey} {node : AvtabNode} {next : List AvtabNode}

theorem avtabWalk_eq_nil {specified : U16} {fuel : Nat} {found : Option (AvtabNode × List AvtabNode)} :
    avtabWalk specified fuel found = [] ↔ found = none := by
  cases found with
  | none => simp [avtabWalk]
  | some pair => cases fuel <;> simp [avtabWalk]

theorem avtabSearchNode_none : avtabSearchNode h k = none ↔ avtabMatches h k = [] := by
  unfold avtabMatches
  rw [avtabWalk_eq_nil]

/-- The node found is the first match; the next search finds one where there are more. -/
theorem avtabSearchNode_some (found : avtabSearchNode h k = some (node, next)) :
    ∃ more, avtabMatches h k = node :: more ∧
      ((avtabSearchNodeNext node next k.specified).isSome = true ↔ more ≠ []) := by
  have long : (h.htable.getD (avtabSlot h k) []).length ≠ 0 := by
    intro empty
    unfold avtabSearchNode at found
    rw [List.length_eq_zero_iff.mp empty] at found
    simp [avtabChainSearch] at found
  obtain ⟨fuel, enough⟩ := Nat.exists_eq_succ_of_ne_zero long
  refine ⟨avtabWalk k.specified fuel (avtabSearchNodeNext node next k.specified), ?_, ?_⟩
  · unfold avtabMatches
    rw [found, enough]
    rfl
  · rw [Ne, avtabWalk_eq_nil, Option.isSome_iff_ne_none]

end Search

end Ksrc.Guarantees.RuleLog

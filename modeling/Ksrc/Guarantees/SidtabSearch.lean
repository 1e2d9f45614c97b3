import Mathlib.Data.List.Find
import Ksrc.Guarantees.SidtabCalls

/-!
# Searching a SID table by context and by SID

Source: `security/selinux/ss/sidtab.c` (`context_to_sid`, `sidtab_search_core`).
Which context has which SID, what an append changes of that, and that a failed call
changes nothing of it.
-/
namespace Ksrc.Guarantees.SidtabSearch

open Library Source SidtabTree SidtabTable
  SidtabCalls

variable {j : Jhash} {s s' : Sidtab} {context : Context} {dst : EntryRef}

/-- The initial SIDs on a chain are set and carry their own number. -/
def IsidsOk (s : Sidtab) : Prop :=
  ∀ node ∈ s.contextToSid, ∀ k, node.2 = .isid k →
    0 < k ∧ k ≤ secinitsidNum ∧ (s.isids k).set = true ∧
      (s.isids k).entry.sid = BitVec.ofNat 32 k

/-- A node is the one `context_to_sid` looks for. -/
def Matches (j : Jhash) (s : Sidtab) (context : Context) (node : Nat × EntryRef) : Bool :=
  node.1 == j.hashMin (contextComputeHash j context) &&
    (s.deref node.2).hash == contextComputeHash j context &&
    contextCmp (s.deref node.2).context context

theorem sidOf_eq (j : Jhash) (s : Sidtab) (context : Context) : sidOf j s context =
    match s.contextToSid.find? (Matches j s context) with
    | some node => (s.deref node.2).sid
    | none => 0 := rfl

theorem matches_cmp {node : Nat × EntryRef} (found : Matches j s context node = true) :
    contextCmp (s.deref node.2).context context = true := by
  unfold Matches at found
  rw [Bool.and_eq_true] at found
  exact found.2

theorem indexToSid_toNat {i : U32} (small : i.toNat < sidtabLevelLimit) :
    (indexToSid i).toNat = i.toNat + secinitsidNum + 1 := by
  simp only [indexToSid, BitVec.toNat_add, BitVec.toNat_ofNat, secinitsidNum, sidtabLevelLimit]
    at small ⊢
  omega

theorem sidToIndex_indexToSid (i : U32) : sidToIndex (indexToSid i) = i := by
  simp only [sidToIndex, indexToSid, BitVec.add_sub_cancel]

theorem zero_le_index (i : U32) : (0 : U32) ≤ i := by
  simp [BitVec.le_def]

section Chains

/-- A leaf slot on a chain is the complete entry of an index below the count. -/
theorem leaf_entry {first : U32} (ok : TableOk j s first) {node : Nat × EntryRef}
    (member : node ∈ s.contextToSid) {a slot : Nat} (ref : node.2 = .leaf a slot) :
    ∃ i, first ≤ i ∧ i < s.count ∧ lookupRef s.tree i = some node.2 ∧
      EntryOk j (s.deref node.2) i := by
  obtain ⟨i, above, less, found⟩ := ok.leaves node member a slot ref
  obtain ⟨r, foundAgain, entry, -⟩ := ok.entry i above less
  rw [found, Option.some.injEq] at foundAgain
  subst foundAgain
  exact ⟨i, above, less, found, entry⟩

/-- The reference of an entry on a chain is found again from its SID: distinct nodes
have distinct SIDs, none of them 0. -/
theorem chain_ref (ok : TableOk j s 0) (isids : IsidsOk s) {node : Nat × EntryRef}
    (member : node ∈ s.contextToSid) :
    (s.deref node.2).sid ≠ 0 ∧
      if secinitsidNum < (s.deref node.2).sid.toNat then
        lookupRef s.tree (sidToIndex (s.deref node.2).sid) = some node.2
      else node.2 = .isid (s.deref node.2).sid.toNat := by
  cases ref : node.2 with
  | isid k =>
    obtain ⟨positive, most, -, number⟩ := isids node member k ref
    have value : ((s.isids k).entry.sid).toNat = k := by
      rw [number, BitVec.toNat_ofNat]
      exact Nat.mod_eq_of_lt (lt_of_le_of_lt most (by decide))
    refine ⟨?_, ?_⟩
    · intro zero
      simp only [Sidtab.deref] at zero
      rw [zero] at value
      simp at value
      omega
    · have small : ¬ secinitsidNum < k := by omega
      simp only [Sidtab.deref, value, small, if_false]
  | leaf a slot =>
    obtain ⟨i, -, less, found, entry⟩ := leaf_entry ok member ref
    rw [ref] at entry
    have value := indexToSid_toNat (lookupRef_below (below_of_lt less) found)
    rw [entry.sid]
    refine ⟨?_, ?_⟩
    · intro zero
      rw [zero] at value
      simp at value
    · rw [if_pos (by omega), sidToIndex_indexToSid, found, ref]

theorem chain_sid_injective (ok : TableOk j s 0) (isids : IsidsOk s) {n1 n2 : Nat × EntryRef}
    (first : n1 ∈ s.contextToSid) (second : n2 ∈ s.contextToSid)
    (same : (s.deref n1.2).sid = (s.deref n2.2).sid) : n1.2 = n2.2 := by
  have ref1 := (chain_ref ok isids first).2
  have ref2 := (chain_ref ok isids second).2
  rw [same] at ref1
  split at ref1
  · rename_i large
    rw [if_pos large, ref1, Option.some.injEq] at ref2
    exact ref2
  · rename_i small
    rw [if_neg small] at ref2
    exact ref1.trans ref2.symm

/-- A context with a SID has a node that compares equal to it and carries the SID. -/
theorem sidOf_known (real : sidOf j s context ≠ 0) : ∃ node ∈ s.contextToSid,
    Matches j s context node = true ∧ (s.deref node.2).sid = sidOf j s context := by
  rw [sidOf_eq] at real ⊢
  cases found : s.contextToSid.find? (Matches j s context) with
  | none =>
    rw [found] at real
    exact absurd rfl real
  | some node =>
    exact ⟨node, List.mem_of_find?_eq_some found, List.find?_some found, rfl⟩

theorem matches_congr {c1 c2 : Context} (same : contextCmp c1 c2 = true) :
    Matches j s c1 = Matches j s c2 := by
  funext node
  have cmp : contextCmp (s.deref node.2).context c1 = contextCmp (s.deref node.2).context c2 := by
    rw [Bool.eq_iff_iff]
    exact ⟨fun first => contextCmp_trans first same,
      fun second => contextCmp_trans second (contextCmp_symm same)⟩
  simp only [Matches, contextComputeHash_of_cmp same, cmp]

theorem sidOf_congr {c1 c2 : Context} (same : contextCmp c1 c2 = true) :
    sidOf j s c1 = sidOf j s c2 := by
  rw [sidOf_eq, sidOf_eq, matches_congr same]

/-- Two contexts have one SID exactly if they compare equal. -/
theorem sidOf_injective (ok : TableOk j s 0) (isids : IsidsOk s) {c1 c2 : Context}
    (real : sidOf j s c1 ≠ 0) : sidOf j s c1 = sidOf j s c2 ↔ contextCmp c1 c2 = true := by
  constructor
  · intro same
    obtain ⟨n1, member1, matches1, sid1⟩ := sidOf_known real
    obtain ⟨n2, member2, matches2, sid2⟩ := sidOf_known (same ▸ real)
    have refs : n1.2 = n2.2 :=
      chain_sid_injective ok isids member1 member2 (by rw [sid1, sid2, same])
    have cmp1 := matches_cmp matches1
    rw [refs] at cmp1
    exact contextCmp_trans (contextCmp_symm cmp1) (matches_cmp matches2)
  · exact sidOf_congr

end Chains

section Frame

/-- Entries on a chain stay as they are when entries and initial SIDs are kept. -/
theorem chain_deref (ok : TableOk j s 0) (keeps : KeepsEntries s s') (isids : s'.isids = s.isids)
    {node : Nat × EntryRef} (member : node ∈ s.contextToSid) :
    s'.deref node.2 = s.deref node.2 := by
  cases ref : node.2 with
  | isid k => simp only [Sidtab.deref, isids]
  | leaf a slot =>
    obtain ⟨i, -, less, found⟩ := ok.leaves node member a slot ref
    rw [← ref]
    exact (keeps i less _ found).2

theorem matches_chain (ok : TableOk j s 0) (keeps : KeepsEntries s s')
    (isids : s'.isids = s.isids) (context : Context) :
    s.contextToSid.find? (Matches j s' context) = s.contextToSid.find? (Matches j s context) := by
  refine List.find?_congr ?_
  intro node member
  simp only [Matches, chain_deref ok keeps isids member]

theorem sidOf_unchanged (ok : TableOk j s 0) (same : Unchanged j s s') (context : Context) :
    sidOf j s' context = sidOf j s context := by
  rw [sidOf_eq, sidOf_eq, same.chains, matches_chain ok same.keeps same.isids]
  cases found : s.contextToSid.find? (Matches j s context) with
  | none => rfl
  | some node =>
    simp only [chain_deref ok same.keeps same.isids (List.mem_of_find?_eq_some found)]

/-- After an append the new context has the new SID, every other context its old one. -/
theorem sidOf_appended (ok : TableOk j s 0) (app : Appended j s s' context dst) (c : Context) :
    sidOf j s' c = if contextCmp context c then indexToSid s.count else sidOf j s c := by
  rw [sidOf_eq, app.chains, List.find?_cons]
  by_cases same : contextCmp context c = true
  · have new : Matches j s' c (j.hashMin (contextComputeHash j context), dst) = true := by
      simp [Matches, app.entry, same, contextComputeHash_of_cmp same]
    simp only [new, same, if_true, app.entry]
  · have old : Matches j s' c (j.hashMin (contextComputeHash j context), dst) = false := by
      simp [Matches, app.entry, same]
    simp only [old, same, if_false, matches_chain ok app.keeps app.isids, Bool.false_eq_true,
      sidOf_eq]
    cases found : s.contextToSid.find? (Matches j s c) with
    | none => rfl
    | some node =>
      simp only [chain_deref ok app.keeps app.isids (List.mem_of_find?_eq_some found)]

theorem sidtabLookup_ref {index : U32} {r : EntryRef} (less : index < s.count)
    (found : lookupRef s.tree index = some r) : sidtabLookup s index = some (some (s.deref r)) := by
  have inside : ¬ s.count ≤ index := BitVec.not_le.mpr less
  simp only [sidtabLookup, inside, if_false]
  obtain ⟨tree, rest, done⟩ := sidtabDoLookup_of_ref found
  simp only [done, Option.map_some]

theorem sidtabLookup_unchanged (ok : TableOk j s 0) (same : Unchanged j s s') (index : U32) :
    sidtabLookup s' index = sidtabLookup s index := by
  by_cases less : index < s.count
  · obtain ⟨r, found, -⟩ := ok.entry index (zero_le_index _) less
    obtain ⟨found', kept⟩ := same.keeps index less r found
    rw [sidtabLookup_ref less found, sidtabLookup_ref (by rw [same.count]; exact less) found', kept]
  · simp only [sidtabLookup, same.count]
    rw [if_pos (BitVec.not_lt.mp less), if_pos (BitVec.not_lt.mp less)]

/-- A failed call changes no answer of the searches by SID. -/
theorem sidtabSearchCore_unchanged (ok : TableOk j s 0) (same : Unchanged j s s') (sid : U32)
    (force : Bool) : sidtabSearchCore s' sid force = sidtabSearchCore s sid force := by
  simp only [sidtabSearchCore, sidtabLookup_unchanged ok same, sidtabLookupInitial, same.isids]

/-- The search for the SID of an entry below the count finds it, unless it has to
present an unmapped context. -/
theorem sidtabSearchCore_leaf {i : U32} {r : EntryRef} {force : Bool} (less : i < s.count)
    (found : lookupRef s.tree i = some r) (shown : (s.deref r).context.len = 0 ∨ force = true) :
    sidtabSearchCore s (indexToSid i) force = some (some (s.deref r)) := by
  have value := indexToSid_toNat (lookupRef_below (below_of_lt less) found)
  have real : indexToSid i ≠ 0 := by
    intro zero
    rw [zero] at value
    simp at value
  have large : secinitsidNum < (indexToSid i).toNat := by omega
  simp only [sidtabSearchCore, real, if_false, large, if_true, sidToIndex_indexToSid,
    sidtabLookup_ref less found, shown]

/-- The search for an initial SID on a chain finds its entry. -/
theorem sidtabSearchCore_isid {k : Nat} {force : Bool} (isids : IsidsOk s)
    {node : Nat × EntryRef} (member : node ∈ s.contextToSid) (ref : node.2 = .isid k)
    (shown : (s.deref node.2).context.len = 0 ∨ force = true) :
    sidtabSearchCore s (s.deref node.2).sid force = some (some (s.deref node.2)) := by
  obtain ⟨positive, most, set, number⟩ := isids node member k ref
  have value : (BitVec.ofNat 32 k).toNat = k := by
    rw [BitVec.toNat_ofNat]
    exact Nat.mod_eq_of_lt (lt_of_le_of_lt most (by decide))
  have real : BitVec.ofNat 32 k ≠ 0 := by
    intro zero
    rw [zero] at value
    simp at value
    omega
  have small : ¬ secinitsidNum < k := by omega
  rw [ref] at shown ⊢
  simp only [Sidtab.deref] at shown ⊢
  simp only [sidtabSearchCore, number, real, if_false, value, small, sidtabLookupInitial, set,
    if_true, shown]

/-- The search for the SID of an entry on a chain finds the entry. -/
theorem sidtabSearchCore_chain {force : Bool} (ok : TableOk j s 0) (isids : IsidsOk s)
    {node : Nat × EntryRef} (member : node ∈ s.contextToSid)
    (shown : (s.deref node.2).context.len = 0 ∨ force = true) :
    sidtabSearchCore s (s.deref node.2).sid force = some (some (s.deref node.2)) := by
  cases ref : node.2 with
  | isid k =>
    rw [← ref]
    exact sidtabSearchCore_isid isids member ref shown
  | leaf a slot =>
    obtain ⟨index, -, less, place, entry⟩ := leaf_entry ok member ref
    rw [← ref, EntryOk.sid entry]
    exact sidtabSearchCore_leaf less place shown

end Frame

end Ksrc.Guarantees.SidtabSearch

import Ksrc.Guarantees.SidtabTree

/-!
# Appending to a SID table

Source: `security/selinux/ss/sidtab.c` (`sidtab_context_to_sid`, `context_to_sid`).
The invariant of a table from an index on, what a write into the slot of the next
index leaves alone, and what an append and a failed append do.
-/
namespace Ksrc.Guarantees.SidtabTable

open Library Source SidtabTree

/-- Number and hash of an entry are those of its index and its context. -/
structure EntryOk (j : Jhash) (e : SidtabEntry) (index : U32) : Prop where
  sid : e.sid = indexToSid index
  hash : e.hash = contextComputeHash j e.context

/-- The entries from `first` to the count are complete, each on the chain of its hash
once, and no other leaf slot is on a chain. -/
structure TableOk (j : Jhash) (s : Sidtab) (first : U32) : Prop where
  shaped : RadixTree.Shaped sidtabInnerShift s.tree
  entry : ∀ i, first ≤ i → i < s.count → ∃ r, lookupRef s.tree i = some r ∧
    EntryOk j (s.deref r) i ∧ (j.hashMin (s.deref r).hash, r) ∈ s.contextToSid
  leaves : ∀ node ∈ s.contextToSid, ∀ a slot, node.2 = .leaf a slot →
    ∃ i, first ≤ i ∧ i < s.count ∧ lookupRef s.tree i = some node.2
  once : (s.contextToSid.map Prod.snd).Nodup

theorem below_of_lt {i count : U32} (less : i < count) : i.toNat + 1 < 2 ^ 32 := by
  have := count.isLt
  rw [BitVec.lt_def] at less
  omega

/-- Every entry whose reference is found stays in place with its content. -/
def KeepsEntries (s s' : Sidtab) : Prop :=
  ∀ i, i < s.count → ∀ r, lookupRef s.tree i = some r →
    lookupRef s'.tree i = some r ∧ s'.deref r = s.deref r

theorem KeepsEntries.refl (s : Sidtab) : KeepsEntries s s := fun _ _ _ found => ⟨found, rfl⟩

section Write

variable {s : Sidtab}

@[simp] theorem write_count (s : Sidtab) (r : EntryRef) (e : SidtabEntry) :
    (s.write r e).count = s.count := by
  cases r <;> rfl

@[simp] theorem write_contextToSid (s : Sidtab) (r : EntryRef) (e : SidtabEntry) :
    (s.write r e).contextToSid = s.contextToSid := by
  cases r <;> rfl

@[simp] theorem write_converting (s : Sidtab) (r : EntryRef) (e : SidtabEntry) :
    (s.write r e).converting = s.converting := by
  cases r <;> rfl

@[simp] theorem write_frozen (s : Sidtab) (r : EntryRef) (e : SidtabEntry) :
    (s.write r e).frozen = s.frozen := by
  cases r <;> rfl

@[simp] theorem write_lookupRef (s : Sidtab) (r : EntryRef) (e : SidtabEntry) (i : U32) :
    lookupRef (s.write r e).tree i = lookupRef s.tree i := by
  cases r with
  | isid sid => rfl
  | leaf a slot => exact lookupRef_setSlot _ _ _ _ _

theorem write_shaped (r : EntryRef) (e : SidtabEntry)
    (shaped : RadixTree.Shaped sidtabInnerShift s.tree) :
    RadixTree.Shaped sidtabInnerShift (s.write r e).tree := by
  cases r with
  | isid sid => exact shaped
  | leaf a slot => exact shaped.setSlot a slot e

theorem write_deref_same (s : Sidtab) (r : EntryRef) (e : SidtabEntry) :
    (s.write r e).deref r = e := by
  cases r with
  | isid sid => simp [Sidtab.write, Sidtab.deref]
  | leaf a slot => exact RadixTree.setSlot_same _ _ _ _

theorem write_deref_other (s : Sidtab) {r r' : EntryRef} (e : SidtabEntry) (apart : r' ≠ r) :
    (s.write r e).deref r' = s.deref r' := by
  cases r with
  | isid sid =>
    cases r' with
    | isid sid' =>
      have differs : sid' ≠ sid := fun same => apart (by rw [same])
      simp [Sidtab.write, Sidtab.deref, differs]
    | leaf a' slot' => rfl
  | leaf a slot =>
    cases r' with
    | isid sid' => rfl
    | leaf a' slot' =>
      refine RadixTree.setSlot_other _ _ ?_
      by_contra both
      simp only [ne_eq, not_or, not_not] at both
      exact apart (by rw [both.1, both.2])

end Write

/-- The tree of a successful allocation, with the entry of `index` written: the other
entries stay, and the index now has the entry. -/
theorem write_allocated {s : Sidtab} {tree : RadixTree SidtabEntry} {dst : EntryRef}
    {index : U32} {allocs rest : List Bool} (shaped : RadixTree.Shaped sidtabInnerShift s.tree)
    (done : sidtabDoLookup s.tree index true allocs = some (some dst, tree, rest))
    (below : index.toNat + 1 < 2 ^ 32) (e : SidtabEntry) :
    let s' := { s with tree }.write dst e
    RadixTree.Shaped sidtabInnerShift s'.tree ∧ lookupRef s'.tree index = some dst ∧
      s'.deref dst = e ∧
      ∀ i, i ≠ index → i.toNat + 1 < 2 ^ 32 → ∀ r, lookupRef s.tree i = some r →
        r ≠ dst ∧ lookupRef s'.tree i = some r ∧ s'.deref r = s.deref r := by
  obtain ⟨extended, shaped', found⟩ := sidtabDoLookup_alloc shaped done
  have here := found dst rfl
  refine ⟨write_shaped _ _ shaped', ?_, write_deref_same _ _ _, ?_⟩
  · rw [write_lookupRef]
    exact here
  · intro i apart belowI r foundI
    have still := lookupRef_extends extended foundI
    have differs : r ≠ dst := by
      rintro rfl
      exact apart (lookupRef_injective shaped' belowI below still here)
    obtain ⟨leaf, rfl⟩ := lookupRef_isLeaf foundI
    refine ⟨differs, ?_, ?_⟩
    · rw [write_lookupRef]
      exact still
    · rw [write_deref_other _ _ differs]
      have used := lookupRef_used shaped belowI foundI
      simp only [Sidtab.deref, extended.slot leaf used]

/-- A table that only got new nodes in its tree. -/
theorem allocated_keeps {s : Sidtab} {tree : RadixTree SidtabEntry} {r : Option EntryRef}
    {index : U32} {allocs rest : List Bool} (shaped : RadixTree.Shaped sidtabInnerShift s.tree)
    (done : sidtabDoLookup s.tree index true allocs = some (r, tree, rest)) :
    RadixTree.Shaped sidtabInnerShift tree ∧ ∀ i, i.toNat + 1 < 2 ^ 32 → ∀ r,
      lookupRef s.tree i = some r →
        lookupRef tree i = some r ∧ { s with tree }.deref r = s.deref r := by
  obtain ⟨extended, shaped', -⟩ := sidtabDoLookup_alloc shaped done
  refine ⟨shaped', fun i below r found => ⟨lookupRef_extends extended found, ?_⟩⟩
  obtain ⟨leaf, rfl⟩ := lookupRef_isLeaf found
  simp only [Sidtab.deref, extended.slot leaf (lookupRef_used shaped below found)]

section Table

variable {j : Jhash} {s s' : Sidtab} {first : U32}

/-- The invariant only reads the entries below the count and the chains. -/
theorem TableOk.of_keeps (ok : TableOk j s first)
    (shaped : RadixTree.Shaped sidtabInnerShift s'.tree) (count : s'.count = s.count)
    (chains : s'.contextToSid = s.contextToSid)
    (keeps : ∀ i, first ≤ i → i < s.count → ∀ r, lookupRef s.tree i = some r →
      lookupRef s'.tree i = some r ∧ s'.deref r = s.deref r) : TableOk j s' first := by
  refine ⟨shaped, fun i above less => ?_, fun node member a slot isLeaf => ?_, ?_⟩
  · rw [count] at less
    obtain ⟨r, found, entry, linked⟩ := ok.entry i above less
    obtain ⟨found', same⟩ := keeps i above less r found
    exact ⟨r, found', by rw [same]; exact entry, by rw [same, chains]; exact linked⟩
  · rw [chains] at member
    obtain ⟨i, above, less, found⟩ := ok.leaves node member a slot isLeaf
    exact ⟨i, above, by rw [count]; exact less, (keeps i above less _ found).1⟩
  · rw [chains]
    exact ok.once

theorem sidtabInit_ok (j : Jhash) (first : U32) : TableOk j sidtabInit first := by
  refine ⟨⟨⟨fun _ => none, ?_, ?_, ?_⟩, ?_⟩, ?_, ?_, ?_⟩
  · intro l a root
    cases root
  · intro a i b child
    cases child
  · intro a used
    exact absurd rfl used
  · intro l a root
    cases root
  · intro i _ less
    simp [sidtabInit, BitVec.lt_def] at less
  · intro node member
    cases member
  · exact List.nodup_nil

/-- `hash_add` of a reference that is on no chain. -/
theorem hashAdd_fresh {bucket : Nat} {r : EntryRef} (fresh : ∀ node ∈ s.contextToSid, node.2 ≠ r) :
    s.hashAdd bucket r = some { s with contextToSid := (bucket, r) :: s.contextToSid } := by
  have unlinked : s.contextToSid.any (fun node => node.2 == r) = false := by
    rw [List.any_eq_false]
    intro node member
    simpa using fresh node member
  simp [Sidtab.hashAdd, unlinked]

theorem hashAdd_some {bucket : Nat} {r : EntryRef} (done : s.hashAdd bucket r = some s') :
    s' = { s with contextToSid := (bucket, r) :: s.contextToSid } ∧
      ∀ node ∈ s.contextToSid, node.2 ≠ r := by
  simp only [Sidtab.hashAdd] at done
  split at done
  · cases done
  · rename_i unlinked
    cases done
    refine ⟨rfl, fun node member same => unlinked ?_⟩
    exact List.any_eq_true.mpr ⟨node, member, by simp [same]⟩

/-- The table after an append: the entry of the old count is written, counted and
linked. -/
def appended (j : Jhash) (s : Sidtab) (tree : RadixTree SidtabEntry) (dst : EntryRef)
    (context : Context) : Sidtab :=
  let hash := contextComputeHash j context
  let written := { s with tree }.write dst { sid := indexToSid s.count, hash, context }
  { written with count := s.count + 1, contextToSid := (j.hashMin hash, dst) :: s.contextToSid }

/-- What an append does. -/
structure Appended (j : Jhash) (s s' : Sidtab) (context : Context) (dst : EntryRef) : Prop where
  count : s'.count = s.count + 1
  chains : s'.contextToSid =
    (j.hashMin (contextComputeHash j context), dst) :: s.contextToSid
  fresh : ∀ node ∈ s.contextToSid, node.2 ≠ dst
  here : lookupRef s'.tree s.count = some dst
  entry : s'.deref dst =
    { sid := indexToSid s.count, hash := contextComputeHash j context, context }
  keeps : KeepsEntries s s'
  isids : s'.isids = s.isids
  frozen : s'.frozen = s.frozen
  converting : s'.converting = s.converting

theorem lt_succ_cases {i count : U32} (below : count.toNat + 1 < 2 ^ 32) (less : i < count + 1) :
    i < count ∨ i = count := by
  rw [BitVec.lt_def, toNat_succ below] at less
  by_cases same : i = count
  · exact .inr same
  · left
    have apart : i.toNat ≠ count.toNat := fun equal => same (BitVec.eq_of_toNat_eq equal)
    rw [BitVec.lt_def]
    omega

theorem lt_succ_of_lt {i count : U32} (below : count.toNat + 1 < 2 ^ 32) (less : i < count) :
    i < count + 1 := by
  rw [BitVec.lt_def, toNat_succ below]
  rw [BitVec.lt_def] at less
  omega

/-- The reference of the old count is on no chain before it is appended. -/
theorem append_fresh {tree : RadixTree SidtabEntry} {dst : EntryRef} {allocs rest : List Bool}
    (ok : TableOk j s first) (below : s.count.toNat + 1 < 2 ^ 32)
    (done : sidtabDoLookup s.tree s.count true allocs = some (some dst, tree, rest)) :
    ∀ node ∈ s.contextToSid, node.2 ≠ dst := by
  obtain ⟨extended, shaped', found⟩ := sidtabDoLookup_alloc ok.shaped done
  have here := found dst rfl
  obtain ⟨leaf, rfl⟩ := lookupRef_isLeaf here
  intro node member same
  obtain ⟨i, -, less, foundI⟩ := ok.leaves node member _ _ same
  rw [same] at foundI
  have equal := lookupRef_injective shaped' (below_of_lt less) below
    (lookupRef_extends extended foundI) here
  rw [equal] at less
  exact BitVec.lt_irrefl _ less

theorem appended_spec {tree : RadixTree SidtabEntry} {dst : EntryRef} {allocs rest : List Bool}
    (ok : TableOk j s first) (below : s.count.toNat + 1 < 2 ^ 32)
    (done : sidtabDoLookup s.tree s.count true allocs = some (some dst, tree, rest))
    (context : Context) : Appended j s (appended j s tree dst context) context dst := by
  obtain ⟨shaped, here, entry, keeps⟩ := write_allocated ok.shaped done below
    { sid := indexToSid s.count, hash := contextComputeHash j context, context }
  obtain ⟨leaf, rfl⟩ := lookupRef_isLeaf here
  refine ⟨rfl, by simp [appended], append_fresh ok below done, here, entry, ?_, rfl, rfl, rfl⟩
  intro i less r found
  have apart : i ≠ s.count := by
    rintro rfl
    exact BitVec.lt_irrefl _ less
  exact (keeps i apart (below_of_lt less) r found).2

theorem appended_shaped {tree : RadixTree SidtabEntry} {dst : EntryRef} {allocs rest : List Bool}
    (ok : TableOk j s first)
    (done : sidtabDoLookup s.tree s.count true allocs = some (some dst, tree, rest))
    (context : Context) :
    RadixTree.Shaped sidtabInnerShift (appended j s tree dst context).tree :=
  write_shaped _ _ (sidtabDoLookup_alloc ok.shaped done).2.1

/-- An append keeps the invariant. -/
theorem TableOk.append {context : Context} {dst : EntryRef} (ok : TableOk j s first)
    (below : s.count.toNat + 1 < 2 ^ 32) (above : first ≤ s.count)
    (shaped : RadixTree.Shaped sidtabInnerShift s'.tree) (app : Appended j s s' context dst) :
    TableOk j s' first := by
  refine ⟨shaped, fun i low less => ?_, fun node member a slot isLeaf => ?_, ?_⟩
  · rw [app.count] at less
    rcases lt_succ_cases below less with old | rfl
    · obtain ⟨r, found, entry, linked⟩ := ok.entry i low old
      obtain ⟨found', same⟩ := app.keeps i old r found
      refine ⟨r, found', by rw [same]; exact entry, ?_⟩
      rw [same, app.chains]
      exact List.mem_cons_of_mem _ linked
    · refine ⟨dst, app.here, ?_, ?_⟩
      · rw [app.entry]
        exact ⟨rfl, rfl⟩
      · rw [app.entry, app.chains]
        exact List.mem_cons_self
  · rw [app.chains] at member
    rcases List.mem_cons.mp member with rfl | old
    · refine ⟨s.count, above, ?_, app.here⟩
      rw [app.count, BitVec.lt_def, toNat_succ below]
      omega
    · obtain ⟨i, low, less, found⟩ := ok.leaves node old a slot isLeaf
      refine ⟨i, low, ?_, (app.keeps i less _ found).1⟩
      rw [app.count]
      exact lt_succ_of_lt below less
  · rw [app.chains, List.map_cons, List.nodup_cons]
    refine ⟨?_, ok.once⟩
    intro member
    obtain ⟨node, inside, same⟩ := List.mem_map.mp member
    exact app.fresh node inside same

/-- A table whose tree got new nodes, and perhaps a write into the slot of the next
index, keeps its entries and the invariant. -/
structure Unchanged (j : Jhash) (s s' : Sidtab) : Prop where
  count : s'.count = s.count
  chains : s'.contextToSid = s.contextToSid
  isids : s'.isids = s.isids
  keeps : KeepsEntries s s'

theorem Unchanged.refl (j : Jhash) (s : Sidtab) : Unchanged j s s :=
  ⟨rfl, rfl, rfl, KeepsEntries.refl s⟩

theorem allocated_unchanged {tree : RadixTree SidtabEntry} {r : Option EntryRef} {index : U32}
    {allocs rest : List Bool} (ok : TableOk j s first)
    (done : sidtabDoLookup s.tree index true allocs = some (r, tree, rest)) :
    Unchanged j s { s with tree } ∧ TableOk j { s with tree } first := by
  obtain ⟨shaped, keeps⟩ := allocated_keeps ok.shaped done
  exact ⟨⟨rfl, rfl, rfl, fun i less r found => keeps i (below_of_lt less) r found⟩,
    ok.of_keeps shaped rfl rfl fun i _ less r found => keeps i (below_of_lt less) r found⟩

theorem written_unchanged {tree : RadixTree SidtabEntry} {dst : EntryRef}
    {allocs rest : List Bool} (ok : TableOk j s first) (below : s.count.toNat + 1 < 2 ^ 32)
    (done : sidtabDoLookup s.tree s.count true allocs = some (some dst, tree, rest))
    (e : SidtabEntry) :
    Unchanged j s ({ s with tree }.write dst e) ∧ TableOk j ({ s with tree }.write dst e) first := by
  obtain ⟨shaped, here, -, keeps⟩ := write_allocated ok.shaped done below e
  have kept : KeepsEntries s ({ s with tree }.write dst e) := by
    intro i less r found
    have apart : i ≠ s.count := by
      rintro rfl
      exact BitVec.lt_irrefl _ less
    exact (keeps i apart (below_of_lt less) r found).2
  have isids : ({ s with tree }.write dst e).isids = s.isids := by
    obtain ⟨leaf, rfl⟩ := lookupRef_isLeaf here
    rfl
  exact ⟨⟨by simp, by simp, isids, kept⟩, ok.of_keeps shaped (by simp) (by simp)
    fun i _ less r found => kept i less r found⟩

end Table

end Ksrc.Guarantees.SidtabTable

import Mathlib.Algebra.BigOperators.Group.Finset.Basic
import Mathlib.Algebra.Order.BigOperators.Group.Finset
import Mathlib.Data.Finset.Lattice.Fold
import Mathlib.Order.Lattice.Nat
import Ksrc.Source.SidtabStats

/-!
# The statistics of the SID table's hash table

Source: `security/selinux/ss/sidtab.c` (`sidtab_hash_stats`). A change of bucket sets
the chain length to 0 although the entry that showed it is the first of its chain: in
every bucket but bucket 0 the first entry is not counted. The counts are right exactly
when that does not show.
-/
namespace Ksrc.Guarantees.SidtabStats

open Source

/-- The lengths of the chains, by bucket. -/
def chainLength (s : Sidtab) (bucket : Nat) : Nat := (s.chain bucket).length

def totalEntries (buckets : Nat) (s : Sidtab) : Nat :=
  ∑ bucket ∈ Finset.range buckets, chainLength s bucket

def usedBuckets (buckets : Nat) (s : Sidtab) : Nat :=
  ((Finset.range buckets).filter fun bucket => chainLength s bucket ≠ 0).card

def longestChain (buckets : Nat) (s : Sidtab) : Nat :=
  (Finset.range buckets).sup (chainLength s)

/-- The numbers printed are those of the table. -/
def StatsRight (buckets : Nat) (s : Sidtab) : Prop :=
  (sidtabHashCounts buckets s).entries.toInt = totalEntries buckets s ∧
    (sidtabHashCounts buckets s).slotsUsed.toInt = usedBuckets buckets s ∧
    (sidtabHashCounts buckets s).maxChainLen.toInt = longestChain buckets s

/-- What the loop counts of a chain: in a bucket other than 0 not its first entry. -/
def countedLength (s : Sidtab) (bucket : Nat) : Nat :=
  if bucket = 0 then chainLength s 0 else chainLength s bucket - 1

/-- `int` counters below the sign bit. -/
theorem toInt_of_lt {x : U32} {n : Nat} (eq : x.toNat = n) (small : n < 2 ^ 31) :
    x.toInt = n := by
  rw [BitVec.toInt_eq_toNat_of_lt (by omega), eq]

theorem slt_iff {x y : U32} (hx : x.toNat < 2 ^ 31) (hy : y.toNat < 2 ^ 31) :
    x.slt y = true ↔ x.toNat < y.toNat := by
  rw [BitVec.slt_iff_toInt_lt, toInt_of_lt rfl hx, toInt_of_lt rfl hy]
  omega

theorem toNat_succ {x : U32} (small : x.toNat + 1 < 2 ^ 31) : (x + 1).toNat = x.toNat + 1 := by
  have one : (1 : U32).toNat = 1 := rfl
  rw [BitVec.toNat_add, one]
  omega

/-- The loop over some nodes. -/
def countAll (c : HashCounters) (nodes : List (Nat × EntryRef)) : HashCounters :=
  nodes.foldl (fun (c : HashCounters) node => c.count node.1) c

/-- No counter has reached the sign bit, with `rest` entries to come. -/
structure Bounded (c : HashCounters) (rest : Nat) : Prop where
  entries : c.entries.toNat + rest < 2 ^ 31
  slotsUsed : c.slotsUsed.toNat ≤ c.entries.toNat
  chain : c.chainLen.toNat ≤ c.entries.toNat
  longest : c.maxChainLen.toNat ≤ c.entries.toNat

/-- An entry of the current bucket. -/
theorem count_same {c : HashCounters} {rest : Nat} (bounded : Bounded c (rest + 1)) :
    (c.count c.curBucket).entries.toNat = c.entries.toNat + 1 ∧
      (c.count c.curBucket).chainLen.toNat = c.chainLen.toNat + 1 ∧
      (c.count c.curBucket).slotsUsed.toNat =
        c.slotsUsed.toNat + (if c.chainLen.toNat = 0 then 1 else 0) ∧
      (c.count c.curBucket).maxChainLen = c.maxChainLen ∧
      (c.count c.curBucket).curBucket = c.curBucket := by
  have entries := toNat_succ (x := c.entries) (by have := bounded.entries; omega)
  have chain := toNat_succ (x := c.chainLen)
    (by have := bounded.entries; have := bounded.chain; omega)
  have slots := toNat_succ (x := c.slotsUsed)
    (by have := bounded.entries; have := bounded.slotsUsed; omega)
  have first : c.chainLen + 1 = 1 ↔ c.chainLen.toNat = 0 := by
    rw [← BitVec.toNat_inj, chain]
    have one : (1 : U32).toNat = 1 := rfl
    omega
  simp only [HashCounters.count, if_true, first]
  split
  · exact ⟨entries, chain, slots, rfl, rfl⟩
  · exact ⟨entries, chain, rfl, rfl, rfl⟩

/-- An entry of another bucket. -/
theorem count_other {c : HashCounters} {rest i : Nat} (bounded : Bounded c (rest + 1))
    (other : i ≠ c.curBucket) :
    (c.count i).entries.toNat = c.entries.toNat + 1 ∧ (c.count i).chainLen.toNat = 0 ∧
      (c.count i).slotsUsed = c.slotsUsed ∧
      (c.count i).maxChainLen.toNat = max c.maxChainLen.toNat c.chainLen.toNat ∧
      (c.count i).curBucket = i := by
  have entries := toNat_succ (x := c.entries) (by have := bounded.entries; omega)
  have longer := slt_iff (x := c.maxChainLen) (y := c.chainLen)
    (by have := bounded.entries; have := bounded.longest; omega)
    (by have := bounded.entries; have := bounded.chain; omega)
  simp only [HashCounters.count, other, if_false, HashCounters.raise, longer]
  split
  · rename_i less
    simp only [entries, true_and, and_true]
    exact ⟨rfl, by omega⟩
  · rename_i less
    simp only [entries, true_and, and_true]
    exact ⟨rfl, by omega⟩

/-- The rest of a chain, once its bucket is the current one. -/
theorem countAll_same {nodes : List (Nat × EntryRef)} {c : HashCounters} {rest : Nat}
    (here : ∀ node ∈ nodes, node.1 = c.curBucket) (bounded : Bounded c (nodes.length + rest)) :
    (countAll c nodes).entries.toNat = c.entries.toNat + nodes.length ∧
      (countAll c nodes).chainLen.toNat = c.chainLen.toNat + nodes.length ∧
      (countAll c nodes).slotsUsed.toNat = c.slotsUsed.toNat +
        (if c.chainLen.toNat = 0 ∧ nodes ≠ [] then 1 else 0) ∧
      (countAll c nodes).maxChainLen = c.maxChainLen ∧
      (countAll c nodes).curBucket = c.curBucket := by
  induction nodes generalizing c with
  | nil => simp [countAll]
  | cons node nodes ih =>
    have first : node.1 = c.curBucket := here node (by simp)
    have length : (node :: nodes).length = nodes.length + 1 := rfl
    rw [length] at bounded
    have bounded : Bounded c (nodes.length + rest + 1) :=
      { bounded with entries := by have := bounded.entries; omega }
    obtain ⟨entries, chain, slots, longest, bucket⟩ := count_same bounded
    have later : Bounded (c.count c.curBucket) (nodes.length + rest) := by
      constructor
      · have := bounded.entries
        omega
      · have := bounded.slotsUsed
        rw [slots, entries]
        split <;> omega
      · have := bounded.chain
        omega
      · have := bounded.longest
        rw [longest]
        omega
    have others : ∀ node ∈ nodes, node.1 = (c.count c.curBucket).curBucket := by
      intro node member
      rw [bucket]
      exact here node (by simp [member])
    have done := ih others later
    have unfolded : countAll c (node :: nodes) = countAll (c.count c.curBucket) nodes := by
      rw [countAll, List.foldl_cons, first]
      rfl
    rw [unfolded, length]
    obtain ⟨entries', chain', slots', longest', bucket'⟩ := done
    refine ⟨by omega, by omega, ?_, longest'.trans longest, bucket'.trans bucket⟩
    rw [slots', slots]
    have started : (c.count c.curBucket).chainLen.toNat ≠ 0 := by omega
    simp [started]

/-- The counters after the chains of the buckets below `done`. -/
structure Counted (s : Sidtab) (done : Nat) (c : HashCounters) : Prop where
  entries : c.entries.toNat = totalEntries done s
  slotsUsed : c.slotsUsed.toNat =
    ((Finset.range done).filter fun bucket => countedLength s bucket ≠ 0).card
  longest : max c.maxChainLen.toNat c.chainLen.toNat =
    (Finset.range done).sup (countedLength s)
  bucket : c.curBucket = 0 ∨ c.curBucket < done

theorem Counted.start (s : Sidtab) : Counted s 0 HashCounters.start := by
  constructor
  · rfl
  · rfl
  · rfl
  · exact Or.inl rfl

theorem chain_bucket {s : Sidtab} {bucket : Nat} {node : Nat × EntryRef}
    (member : node ∈ s.chain bucket) : node.1 = bucket := by
  have kept := (List.mem_filter.mp member).2
  simpa using kept

theorem totalEntries_succ (s : Sidtab) (done : Nat) :
    totalEntries (done + 1) s = totalEntries done s + chainLength s done :=
  Finset.sum_range_succ _ _

theorem sup_succ (f : Nat → Nat) (done : Nat) :
    (Finset.range (done + 1)).sup f = max ((Finset.range done).sup f) (f done) := by
  rw [Finset.range_add_one, Finset.sup_insert, max_comm]

theorem card_succ (p : Nat → Prop) [DecidablePred p] (done : Nat) :
    ((Finset.range (done + 1)).filter p).card =
      ((Finset.range done).filter p).card + (if p done then 1 else 0) := by
  rw [Finset.range_add_one, Finset.filter_insert]
  split
  · rw [Finset.card_insert_of_notMem (by simp)]
  · rfl

theorem countedLength_le (s : Sidtab) (bucket : Nat) :
    countedLength s bucket ≤ chainLength s bucket := by
  simp only [countedLength]
  split
  · rename_i zero
    rw [zero]
  · omega

/-- No more buckets are used than entries were seen. -/
theorem card_le_total (s : Sidtab) (done : Nat) :
    ((Finset.range done).filter fun bucket => countedLength s bucket ≠ 0).card ≤
      totalEntries done s := by
  induction done with
  | zero => simp
  | succ done ih =>
    rw [card_succ, totalEntries_succ]
    have counted := countedLength_le s done
    split <;> omega

theorem sup_le_total (s : Sidtab) (done : Nat) :
    (Finset.range done).sup (countedLength s) ≤ totalEntries done s := by
  apply Finset.sup_le
  intro bucket member
  calc countedLength s bucket ≤ chainLength s bucket := countedLength_le s bucket
    _ ≤ totalEntries done s := Finset.single_le_sum (fun _ _ => Nat.zero_le _) member

theorem Counted.bounded {s : Sidtab} {done rest : Nat} {c : HashCounters}
    (counted : Counted s done c) (small : totalEntries done s + rest < 2 ^ 31) :
    Bounded c rest := by
  have entries := counted.entries
  have longest := counted.longest
  have below := sup_le_total s done
  constructor
  · omega
  · rw [counted.slotsUsed, entries]
    exact card_le_total s done
  · omega
  · omega

/-- The chain of the next bucket: empty, all of it in bucket 0, or one entry that shows
the new bucket and the rest. -/
theorem Counted.next {s : Sidtab} {done : Nat} {c : HashCounters} (counted : Counted s done c)
    (fresh : done = 0 → c = HashCounters.start) (small : totalEntries (done + 1) s < 2 ^ 31) :
    Counted s (done + 1) (countAll c (s.chain done)) := by
  have total := totalEntries_succ s done
  have entriesEq := counted.entries
  have slotsEq := counted.slotsUsed
  have longestEq := counted.longest
  by_cases zero : done = 0
  · subst zero
    have started := fresh rfl
    subst started
    have bounded : Bounded HashCounters.start ((s.chain 0).length + 0) :=
      counted.bounded (by rw [total] at small; exact small)
    have here : ∀ node ∈ s.chain 0, node.1 = HashCounters.start.curBucket :=
      fun node member => chain_bucket member
    obtain ⟨entries, chain, slots, longest, bucket⟩ := countAll_same here bounded
    have zeroed : (HashCounters.start.chainLen).toNat = 0 := rfl
    have top : (HashCounters.start.maxChainLen).toNat = 0 := rfl
    have own : countedLength s 0 = (s.chain 0).length := rfl
    constructor
    · rw [entries, total, entriesEq]
      rfl
    · rw [slots, slotsEq, card_succ, own, zeroed]
      simp [List.length_eq_zero_iff]
    · rw [sup_succ, ← longestEq, longest, chain, own, zeroed, top]
      omega
    · exact Or.inl bucket
  · cases chainEq : s.chain done with
    | nil =>
      have none_here : chainLength s done = 0 := by rw [chainLength, chainEq]; rfl
      have none_counted : countedLength s done = 0 := by
        have := countedLength_le s done
        omega
      constructor
      · rw [total, none_here]
        exact entriesEq
      · rw [card_succ, none_counted]
        exact slotsEq
      · rw [sup_succ, none_counted]
        simpa [countAll] using longestEq
      · cases counted.bucket with
        | inl first => exact Or.inl first
        | inr below => exact Or.inr (Nat.lt_succ_of_lt below)
    | cons node nodes =>
      have length : chainLength s done = nodes.length + 1 := by rw [chainLength, chainEq]; rfl
      have own : countedLength s done = nodes.length := by
        rw [countedLength, if_neg zero, length]
        omega
      have here : ∀ other ∈ node :: nodes, other.1 = done := by
        intro other member
        exact chain_bucket (chainEq ▸ member)
      have other : done ≠ c.curBucket := by
        cases counted.bucket with
        | inl first => omega
        | inr below => omega
      have bounded : Bounded c (nodes.length + 1) :=
        counted.bounded (by rw [total, length] at small; exact small)
      obtain ⟨entries, chain, slots, longest, bucket⟩ := count_other bounded other
      have later : Bounded (c.count done) (nodes.length + 0) := by
        constructor
        · have := bounded.entries
          omega
        · have := bounded.slotsUsed
          rw [slots]
          omega
        · omega
        · have := bounded.chain
          have := bounded.longest
          omega
      obtain ⟨entries', chain', slots', longest', bucket'⟩ := countAll_same
        (fun other member => (here other (by simp [member])).trans bucket.symm) later
      have unfolded : countAll c (node :: nodes) = countAll (c.count done) nodes := by
        rw [countAll, List.foldl_cons, here node (by simp)]
        rfl
      rw [unfolded]
      constructor
      · rw [entries', entries, total, length, entriesEq]
        omega
      · rw [slots', slots, slotsEq, card_succ, own, chain]
        simp [List.length_eq_zero_iff]
      · rw [sup_succ, ← longestEq, longest', longest, chain', chain, own]
        omega
      · exact Or.inr (by omega)

/-- The whole loop. -/
theorem counted_all {s : Sidtab} {buckets : Nat} (small : totalEntries buckets s < 2 ^ 31) :
    Counted s buckets (countAll HashCounters.start (hashForEach buckets s)) := by
  induction buckets with
  | zero => exact Counted.start s
  | succ done ih =>
    have split_last : hashForEach (done + 1) s = hashForEach done s ++ s.chain done := by
      simp [hashForEach, List.range_succ]
    have before : totalEntries done s < 2 ^ 31 := by
      rw [totalEntries_succ] at small
      omega
    rw [split_last, countAll, List.foldl_append]
    apply (ih before).next _ small
    intro zero
    subst zero
    rfl

/-- What is printed, while no counter reaches the sign bit. -/
theorem Counted.printed {s : Sidtab} {buckets : Nat} {c : HashCounters}
    (counted : Counted s buckets c) (small : totalEntries buckets s < 2 ^ 31) :
    c.raise.entries.toInt = totalEntries buckets s ∧
      c.raise.slotsUsed.toInt =
        ((Finset.range buckets).filter fun bucket => countedLength s bucket ≠ 0).card ∧
      c.raise.maxChainLen.toInt = (Finset.range buckets).sup (countedLength s) := by
  have bounded : Bounded c 0 := counted.bounded small
  have used := card_le_total s buckets
  have below := sup_le_total s buckets
  have longest := counted.longest
  have longer := slt_iff (x := c.maxChainLen) (y := c.chainLen)
    (by have := bounded.entries; have := bounded.longest; omega)
    (by have := bounded.entries; have := bounded.chain; omega)
  simp only [HashCounters.raise, longer]
  split
  · rename_i chained
    have last : c.chainLen.toNat = (Finset.range buckets).sup (countedLength s) := by omega
    exact ⟨toInt_of_lt counted.entries small, toInt_of_lt counted.slotsUsed (by omega),
      toInt_of_lt last (by omega)⟩
  · rename_i kept
    have earlier : c.maxChainLen.toNat = (Finset.range buckets).sup (countedLength s) := by omega
    exact ⟨toInt_of_lt counted.entries small, toInt_of_lt counted.slotsUsed (by omega),
      toInt_of_lt earlier (by omega)⟩

/-- The buckets counted are those used when no chain but the first has one entry. -/
theorem used_eq_iff (s : Sidtab) (buckets : Nat) :
    ((Finset.range buckets).filter fun bucket => countedLength s bucket ≠ 0).card =
        usedBuckets buckets s ↔
      ∀ bucket < buckets, bucket ≠ 0 → chainLength s bucket ≠ 1 := by
  have subset : ((Finset.range buckets).filter fun bucket => countedLength s bucket ≠ 0) ⊆
      (Finset.range buckets).filter fun bucket => chainLength s bucket ≠ 0 := by
    apply Finset.monotone_filter_right
    intro bucket counted
    have := countedLength_le s bucket
    omega
  constructor
  · intro same bucket inside other alone
    have equal := Finset.eq_of_subset_of_card_le subset same.ge
    have member : bucket ∈ (Finset.range buckets).filter fun b => countedLength s b ≠ 0 := by
      rw [equal]
      simp [inside, alone]
    have counted := (Finset.mem_filter.mp member).2
    simp [countedLength, other, alone] at counted
  · intro apart
    apply congrArg Finset.card
    apply Finset.filter_congr
    intro bucket member
    have inside := Finset.mem_range.mp member
    by_cases zero : bucket = 0
    · simp [countedLength, zero]
    · have := apart bucket inside zero
      simp only [countedLength, zero, if_false]
      omega

/-- The longest chain counted is the longest one when bucket 0 has a longest chain. -/
theorem longest_eq_iff (s : Sidtab) (buckets : Nat) :
    (Finset.range buckets).sup (countedLength s) = longestChain buckets s ↔
      ∀ bucket < buckets, chainLength s bucket ≤ chainLength s 0 := by
  constructor
  · intro same bucket inside
    by_contra longer
    have below : (Finset.range buckets).sup (countedLength s) < longestChain buckets s := by
      have some_chain : chainLength s bucket ≤ longestChain buckets s :=
        Finset.le_sup (Finset.mem_range.mpr inside)
      rw [Finset.sup_lt_iff (show ⊥ < longestChain buckets s by
        rw [Nat.bot_eq_zero]
        omega)]
      intro other member
      have upper : chainLength s other ≤ longestChain buckets s := Finset.le_sup member
      simp only [countedLength]
      split
      · omega
      · omega
    omega
  · intro first
    apply le_antisymm
    · apply Finset.sup_mono_fun
      intro bucket _
      exact countedLength_le s bucket
    · apply Finset.sup_le
      intro bucket member
      have inside := Finset.mem_range.mp member
      have zero_inside : 0 ∈ Finset.range buckets := Finset.mem_range.mpr (by omega)
      calc chainLength s bucket ≤ countedLength s 0 := first bucket inside
        _ ≤ _ := Finset.le_sup zero_inside

/-- The three numbers are right exactly when they stay below the sign bit, bucket 0 has a
longest chain, and no other chain has just one entry. -/
theorem sidtabHashStats_right_iff (buckets : Nat) (s : Sidtab) :
    StatsRight buckets s ↔ totalEntries buckets s < 2 ^ 31 ∧
      ∀ bucket < buckets, bucket ≠ 0 →
        chainLength s bucket ≠ 1 ∧ chainLength s bucket ≤ chainLength s 0 := by
  by_cases small : totalEntries buckets s < 2 ^ 31
  · have printed := (counted_all small).printed small
    have counts : sidtabHashCounts buckets s =
        (countAll HashCounters.start (hashForEach buckets s)).raise := rfl
    rw [← counts] at printed
    obtain ⟨entries, used, longest⟩ := printed
    rw [StatsRight, entries, used, longest, Nat.cast_inj, Nat.cast_inj, Nat.cast_inj,
      used_eq_iff, longest_eq_iff]
    constructor
    · intro right
      exact ⟨small, fun bucket inside other =>
        ⟨right.2.1 bucket inside other, right.2.2 bucket inside⟩⟩
    · intro shown
      refine ⟨rfl, fun bucket inside other => (shown.2 bucket inside other).1, ?_⟩
      intro bucket inside
      by_cases zero : bucket = 0
      · rw [zero]
      · exact (shown.2 bucket inside zero).2
  · constructor
    · intro right
      have signed := BitVec.toInt_lt (x := (sidtabHashCounts buckets s).entries)
      have entries := right.1
      omega
    · intro shown
      exact absurd shown.1 small

/-- A table whose only linked entry, that of SID 1, is in bucket 5. -/
def oneEntry : Sidtab :=
  { sidtabInit with contextToSid := [(5, .isid 1)] }

/-- One entry outside bucket 0: no bucket is reported as used, and no chain. -/
theorem oneEntry_not_right : ¬ StatsRight 512 oneEntry := by
  intro right
  have reported : sidtabHashCounts 512 oneEntry =
      { entries := 1, slotsUsed := 0, chainLen := 0, maxChainLen := 0, curBucket := 5 } := by
    decide +kernel
  have used := right.2.1
  have shown : 5 ∈ (Finset.range 512).filter fun bucket => chainLength oneEntry bucket ≠ 0 := by
    simp [chainLength, Sidtab.chain, oneEntry]
  have positive := Finset.card_pos.mpr ⟨5, shown⟩
  rw [reported] at used
  have zero : (0 : U32).toInt = 0 := rfl
  have none_used : usedBuckets 512 oneEntry = 0 := by
    simp only [zero] at used
    omega
  rw [usedBuckets] at none_used
  omega

end Ksrc.Guarantees.SidtabStats

import Ksrc.Guarantees.EbitmapFiles
import Ksrc.Source.EbitmapOperations

/-!
# Walks over the positive bits

Source: `security/selinux/ss/ebitmap.h` (`ebitmap_for_each_positive_bit`).

The loop steps from bit to bit with `ebitmap_start_positive` and `ebitmap_next_positive`. On a canonical
bitmap it ends, and runs its body for the bits of each node in turn.
-/
namespace Ksrc.Guarantees.EbitmapWalks

open Source EbitmapBits EbitmapFiles

variable {n : EbitmapNode} {nodes rest : List EbitmapNode} {e : Ebitmap} {low k ofs : Nat}

theorem Canonical.fits (ok : Canonical e) : endOf 0 e.node < 2 ^ 32 := by
  rw [← ok.high]
  exact e.highbit.isLt

theorem ascending_of_nodesFrom (ok : NodesFrom low nodes) (fits : endOf low nodes < 2 ^ 32) :
    Ascending low nodes := by
  induction nodes generalizing low with
  | nil => trivial
  | cons n rest ih =>
    obtain ⟨first, aligned, -, later⟩ := ok
    exact ⟨first, aligned, lt_of_le_of_lt later.le_endOf fits, ih later fits⟩

theorem Canonical.built (ok : Canonical e) : Built e :=
  ⟨ascending_of_nodesFrom ok.nodes (Canonical.fits ok), ok.high.ge⟩

/-- In an ascending list, what a filter keeps begins with what a search finds. -/
theorem filter_of_find? {l : List Nat} {p : Nat → Bool} {a : Nat} (sorted : l.Pairwise (· < ·))
    (found : l.find? p = some a) : l.filter p = a :: l.filter fun i => decide (a < i) && p i := by
  induction l with
  | nil => cases found
  | cons x rest ih =>
    obtain ⟨before, later⟩ := List.pairwise_cons.mp sorted
    cases test : p x with
    | true =>
      rw [List.find?_cons_of_pos test, Option.some.injEq] at found
      subst found
      have same : rest.filter p = rest.filter fun i => decide (x < i) && p i :=
        List.filter_congr fun i member => by simp [before i member]
      simp [test, ← same]
    | false =>
      rw [List.find?_cons_of_neg (by simp [test])] at found
      simp [test, ih later found]

/-- The bits of a node from an offset on. -/
def bitsFrom (n : EbitmapNode) (k : Nat) : List U32 :=
  ((List.range ebitmapSize).filter fun i => k ≤ i ∧ n.bit i).map fun ofs =>
    n.startbit + BitVec.ofNat 32 ofs

theorem bitsFrom_zero (n : EbitmapNode) : bitsFrom n 0 = nodeBits n := by
  simp [bitsFrom, nodeBits]

theorem bitsFrom_some (found : n.findNextBit k = some ofs) :
    bitsFrom n k = (n.startbit + BitVec.ofNat 32 ofs) :: bitsFrom n (ofs + 1) := by
  have inside := List.find?_some found
  unfold bitsFrom
  rw [filter_of_find? List.pairwise_lt_range found, List.map_cons]
  congr 2
  apply List.filter_congr
  intro i _
  rw [decide_eq_true_eq] at inside
  rw [Bool.eq_iff_iff]
  simp only [Bool.and_eq_true, decide_eq_true_eq]
  constructor
  · rintro ⟨past, -, set⟩
    exact ⟨past, set⟩
  · rintro ⟨past, set⟩
    exact ⟨past, by omega, set⟩

theorem bitsFrom_none (none : n.findNextBit k = none) : bitsFrom n k = [] := by
  unfold bitsFrom
  rw [List.filter_eq_nil_iff.mpr (List.find?_eq_none.mp none)]
  rfl

theorem findNextBit_small (found : n.findNextBit k = some ofs) : ofs < ebitmapSize :=
  List.mem_range.mp (List.mem_of_find?_eq_some found)

/-- Where the walk goes on, from an offset of a node. -/
def walkFrom (e : Ebitmap) (k : Nat) (n : EbitmapNode) (rest : List EbitmapNode) :
    U32 × List EbitmapNode :=
  match n.findNextBit k with
  | some ofs => (n.startbit + BitVec.ofNat 32 ofs, n :: rest)
  | none => ebitmapFirstPositive e rest

theorem nextPositive_eq (small : ofs < ebitmapSize) :
    ebitmapNextPositive e (n :: rest) (n.startbit + BitVec.ofNat 32 ofs) = walkFrom e (ofs + 1) n rest := by
  have place : (n.startbit + BitVec.ofNat 32 ofs - n.startbit + 1).toNat = ofs + 1 := by
    rw [BitVec.add_comm n.startbit, BitVec.add_sub_cancel]
    change (BitVec.ofNat 32 ofs + 1#32).toNat = ofs + 1
    rw [BitVec.toNat_add, BitVec.toNat_ofNat]
    change (ofs % 2 ^ 32 + 1) % 2 ^ 32 = ofs + 1
    unfold ebitmapSize at small
    omega
  unfold ebitmapNextPositive walkFrom
  dsimp only
  rw [place]
  cases n.findNextBit (ofs + 1) with
  | none => rfl
  | some next =>
    dsimp only
    rw [BitVec.add_comm]

theorem walkFrom_some (found : n.findNextBit k = some ofs) :
    walkFrom e k n rest = (n.startbit + BitVec.ofNat 32 ofs, n :: rest) := by
  unfold walkFrom
  rw [found]

theorem walkFrom_none (none : n.findNextBit k = none) :
    walkFrom e k n rest = ebitmapFirstPositive e rest := by
  unfold walkFrom
  rw [none]

theorem firstPositive_cons : ebitmapFirstPositive e (n :: rest) = walkFrom e 0 n rest := rfl

/-- The loop, from a node on, visits what is left of the node and then the nodes after it. -/
theorem forEach_walkFrom (fuel : Nat) (ok : Ascending low (n :: rest))
    (high : endOf low (n :: rest) ≤ e.highbit.toNat)
    (enough : (bitsFrom n k ++ rest.flatMap nodeBits).length < fuel) :
    ebitmapForEachPositive e fuel (walkFrom e k n rest) =
      some (bitsFrom n k ++ rest.flatMap nodeBits) := by
  induction fuel generalizing n rest low k with
  | zero => exact absurd enough (Nat.not_lt_zero _)
  | succ fuel ih =>
    -- the fuel goes down with a bit that is found, the list with a node that has none left
    have step : ∀ {n rest low k ofs}, Ascending low (n :: rest) →
        endOf low (n :: rest) ≤ e.highbit.toNat → n.findNextBit k = some ofs →
        (bitsFrom n k ++ rest.flatMap nodeBits).length < fuel + 1 →
        ebitmapForEachPositive e (fuel + 1) (walkFrom e k n rest) =
          some (bitsFrom n k ++ rest.flatMap nodeBits) := by
      intro n rest low k ofs ok high found enough
      have small := findNextBit_small found
      have below : n.startbit + BitVec.ofNat 32 ofs < e.highbit := by
        have ends := ok.2.2.2.le_endOf
        unfold endOf at high
        rw [BitVec.lt_def, toNat_bit small ok.2.2.1]
        omega
      rw [bitsFrom_some found] at enough ⊢
      rw [walkFrom_some found]
      unfold ebitmapForEachPositive
      rw [if_pos below, nextPositive_eq small, ih ok high (Nat.lt_of_succ_lt_succ enough)]
      rfl
    induction rest generalizing n low k with
    | nil =>
      cases found : n.findNextBit k with
      | none =>
        rw [walkFrom_none found, bitsFrom_none found]
        simp [ebitmapFirstPositive, ebitmapForEachPositive]
      | some ofs => exact step ok high found enough
    | cons m rest inner =>
      cases found : n.findNextBit k with
      | none =>
        rw [bitsFrom_none found, List.flatMap_cons, ← bitsFrom_zero] at enough ⊢
        rw [walkFrom_none found, firstPositive_cons]
        exact inner ok.2.2.2 high enough
      | some ofs => exact step ok high found enough

/-- The loop ends, after it has visited the positive bits. -/
theorem forEach_positiveBits (ok : Built e) :
    ∃ fuel, ebitmapForEachPositive e fuel (ebitmapStartPositive e) = some (ebitmapPositiveBits e) := by
  refine ⟨(e.node.flatMap nodeBits).length + 1, ?_⟩
  rw [ok.positiveBits]
  unfold ebitmapStartPositive
  cases nodes : e.node with
  | nil => simp [ebitmapFirstPositive, ebitmapForEachPositive]
  | cons n rest =>
    have ascending := ok.nodes
    have below := ok.below
    rw [nodes] at ascending below
    rw [firstPositive_cons, List.flatMap_cons, ← bitsFrom_zero]
    exact forEach_walkFrom _ ascending below (Nat.lt_succ_self _)

end Ksrc.Guarantees.EbitmapWalks

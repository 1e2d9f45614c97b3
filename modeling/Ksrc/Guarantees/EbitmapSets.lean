import Mathlib.Data.Set.Insert
import Ksrc.Guarantees.EbitmapClears
import Ksrc.Guarantees.EbitmapWalks
import Ksrc.Guarantees.LevelValidity
import Ksrc.Library.Transition

/-!
# Bitmaps as finite sets

Source: `security/selinux/ss/ebitmap.c` (`ebitmap_set_bit`, `ebitmap_cpy`, `ebitmap_and`,
`ebitmap_get_bit`, `ebitmap_cmp`, `ebitmap_contains`), `ebitmap.h`.

Bitmaps that are made from empty ones are sets of bits, and the operations are those of sets, with one
exception: `ebitmap_and` keeps a bit in an `int`, which is negative from `2 ^ 31` on, and
`ebitmap_get_bit` takes it for a bit past the bitmap.
-/
namespace Ksrc.Guarantees.EbitmapSets

open Library Source EbitmapBits EbitmapFiles
  EbitmapClears EbitmapWalks LevelValidity

/-- The bits of a bitmap as a set. -/
def bitsOf (e : Ebitmap) : Set Nat := {b | InBitmap e b}

/-- The first bit that an `int` does not hold. -/
def intBits : Nat := 2 ^ 31

section Queries

variable {e e1 e2 : Ebitmap} {b : Nat}

theorem cmp_iff (ok1 : Canonical e1) (ok2 : Canonical e2) :
    ebitmapCmp e1 e2 = true ↔ bitsOf e1 = bitsOf e2 := by
  rw [ebitmapCmp_iff]
  constructor
  · intro same
    rw [same]
  · intro same
    exact canonical_ext ok1 ok2 fun x => Set.ext_iff.mp same x

theorem nodesFrom_start {n : EbitmapNode} {nodes : List EbitmapNode} {low : Nat}
    (ok : NodesFrom low nodes) (member : n ∈ nodes) :
    n.startbit.toNat % ebitmapSize = 0 ∧ ∃ b, InNode n b := by
  induction nodes generalizing low with
  | nil => cases member
  | cons m rest ih =>
    obtain ⟨-, aligned, used, later⟩ := ok
    rcases List.mem_cons.mp member with rfl | there
    · exact ⟨aligned, used⟩
    · exact ih later there

/-- The node of a bit is the one that starts where its block does. -/
theorem start_of_inNode {n : EbitmapNode} (aligned : n.startbit.toNat % ebitmapSize = 0)
    (inside : InNode n b) : n.startbit.toNat = b - b % ebitmapSize := by
  have := inside.lower
  have := inside.upper
  unfold ebitmapSize at *
  omega

/-- The nodes end with the block of a bit. -/
theorem endOf_last {nodes : List EbitmapNode} {low : Nat} (ok : NodesFrom low nodes) (some : nodes ≠ []) :
    ∃ b, InNodes nodes b ∧ endOf low nodes = b - b % ebitmapSize + ebitmapSize := by
  induction nodes generalizing low with
  | nil => exact absurd rfl some
  | cons n rest ih =>
    obtain ⟨-, aligned, ⟨b, used⟩, later⟩ := ok
    cases rest with
    | nil =>
      refine ⟨b, inNodes_cons.mpr (.inl used), ?_⟩
      rw [← start_of_inNode aligned used]
      rfl
    | cons m rest =>
      obtain ⟨b, inside, ends⟩ := ih later (List.cons_ne_nil m rest)
      exact ⟨b, inNodes_cons.mpr (.inr inside), ends⟩

/-- The nodes end no earlier than the block of a bit. -/
theorem block_le_endOf {nodes : List EbitmapNode} {low : Nat} (ok : Ascending low nodes)
    (inside : InNodes nodes b) : b - b % ebitmapSize + ebitmapSize ≤ endOf low nodes := by
  induction nodes generalizing low with
  | nil => exact absurd inside inNodes_nil
  | cons n rest ih =>
    obtain ⟨-, aligned, -, later⟩ := ok
    unfold endOf
    rcases inNodes_cons.mp inside with here | there
    · rw [← start_of_inNode aligned here]
      exact later.le_endOf
    · exact ih later there

/-- A subset does not end later. -/
theorem endOf_le_of_subset (ok1 : Built e1) (ok2 : Canonical e2)
    (subset : bitsOf e2 ⊆ bitsOf e1) : e2.highbit.toNat ≤ e1.highbit.toNat := by
  rw [ok2.high]
  by_cases empty : e2.node = []
  · rw [empty]
    exact Nat.zero_le _
  · obtain ⟨b, inside, ends⟩ := endOf_last ok2.nodes empty
    rw [ends]
    exact Nat.le_trans (block_le_endOf ok1.nodes (subset inside)) ok1.below

/-- A subset without empty nodes needs no node that the larger set does not have. -/
theorem covers_of_subset (ok1 : Built e1) (ok2 : Canonical e2) (subset : bitsOf e2 ⊆ bitsOf e1) :
    Covers e1 e2 := by
  constructor
  · rw [BitVec.le_def]
    exact endOf_le_of_subset ok1 ok2 subset
  · intro n2 member
    obtain ⟨aligned2, b, used⟩ := nodesFrom_start ok2.nodes member
    obtain ⟨n1, found, inside⟩ := subset (⟨n2, member, used⟩ : InBitmap e2 b)
    refine ⟨n1, found, BitVec.eq_of_toNat_eq ?_⟩
    rw [start_of_inNode (ok1.nodes.start found).2 inside, start_of_inNode aligned2 used]

theorem contains_iff_subset (ok1 : Built e1) (ok2 : Canonical e2) :
    ebitmapContains e1 e2 0 = true ↔ bitsOf e2 ⊆ bitsOf e1 := by
  rw [contains_iff ok1 (Canonical.built ok2)]
  constructor
  · rintro ⟨-, bits, -⟩
    exact bits
  · intro subset
    exact ⟨covers_of_subset ok1 ok2 subset, subset, fun nonzero => absurd rfl nonzero⟩

end Queries

section Making

variable {e e1 e2 dst : Ebitmap} {b : Nat} {alloc : Nat → Bool}

/-- A bit whose block ends before the words do. -/
theorem room_of_small (small : b < 2 ^ 32 - ebitmapSize) :
    b - b % ebitmapSize + ebitmapSize < 2 ^ 32 := by
  unfold ebitmapSize at *
  omega

theorem setBitAlloc_true (ok : Canonical e) (room : b - b % ebitmapSize + ebitmapSize < 2 ^ 32)
    (one : Bool) : Canonical (ebitmapSetBitAlloc one e b true).2 ∧
      bitsOf (ebitmapSetBitAlloc one e b true).2 =
        if (ebitmapSetBitAlloc one e b true).1.isSome then bitsOf e else insert b (bitsOf e) := by
  unfold ebitmapSetBitAlloc
  split
  · exact ⟨ok, rfl⟩
  · obtain ⟨made, bits⟩ := setBit_canonical ok room
    exact ⟨made, Set.ext bits⟩

theorem setBitAlloc_false (ok : Canonical e) (one : Bool) (b : Nat) :
    Canonical (ebitmapSetBitAlloc one e b false).2 ∧
      bitsOf (ebitmapSetBitAlloc one e b false).2 = bitsOf e \ {b} := by
  unfold ebitmapSetBitAlloc
  rw [if_neg (fun failed => Bool.false_ne_true failed.1)]
  obtain ⟨made, bits⟩ := clrBit_canonical ok b
  refine ⟨made, Set.ext fun x => ?_⟩
  rw [Set.mem_sdiff, Set.mem_singleton_iff, and_comm]
  exact bits x

theorem cpyNodes_eq (nodes : List EbitmapNode) (k : Nat) :
    ebitmapCpyNodes alloc k nodes = none ∨ ebitmapCpyNodes alloc k nodes = some nodes := by
  induction nodes generalizing k with
  | nil => exact .inr rfl
  | cons n rest ih =>
    unfold ebitmapCpyNodes
    split
    · rcases ih (k + 1) with failed | copied
      · exact .inl (by rw [failed]; rfl)
      · exact .inr (by rw [copied]; rfl)
    · exact .inl rfl

theorem cpy_eq (src : Ebitmap) :
    ebitmapCpy alloc src = (some .ENOMEM, ebitmapInit) ∨ ebitmapCpy alloc src = (none, src) := by
  unfold ebitmapCpy
  rcases @cpyNodes_eq alloc src.node 0 with failed | copied
  · rw [failed]
    exact .inl rfl
  · rw [copied]
    exact .inr rfl

/-- A bit below `2 ^ 31` keeps its number, and one from there on is past every bitmap. -/
theorem intToLong_eq (bit : U32) :
    intToLong bit = if bit.toNat < intBits then bit.toNat else bit.toNat + (2 ^ 64 - 2 ^ 32) := by
  have small := bit.isLt
  unfold intToLong intBits
  rw [BitVec.toNat_signExtend, BitVec.msb_eq_decide, BitVec.toNat_setWidth,
    Nat.mod_eq_of_lt (by omega)]
  by_cases low : bit.toNat < 2 ^ 31
  · rw [if_pos low, decide_eq_false (by omega), if_neg Bool.false_ne_true, Nat.add_zero]
  · rw [if_neg low, decide_eq_true (by omega), if_pos rfl]

theorem getBit_intToLong (ok : Built e) (bit : U32) :
    ebitmapGetBit e (intToLong bit) = true ↔ bit.toNat < intBits ∧ InBitmap e bit.toNat := by
  rw [getBit_iff ok, intToLong_eq]
  by_cases low : bit.toNat < intBits
  · rw [if_pos low]
    exact (and_iff_right low).symm
  · rw [if_neg low]
    refine iff_of_false (fun inside => ?_) fun both => low both.1
    have := ok.upper inside
    have := e.highbit.isLt
    omega

/-- The bits that `ebitmap_and` keeps. -/
def kept (bits : List U32) (e2 : Ebitmap) : Set Nat :=
  {b | b < intBits ∧ b ∈ bits.map BitVec.toNat ∧ InBitmap e2 b}

theorem kept_cons (bit : U32) (rest : List U32) (e2 : Ebitmap) :
    kept (bit :: rest) e2 = {b | b = bit.toNat ∧ b < intBits ∧ InBitmap e2 b} ∪ kept rest e2 := by
  ext b
  simp only [kept, List.map_cons, List.mem_cons, Set.mem_ofPred_eq, Set.mem_union]
  tauto

/-- What `ebitmap_and` makes of the bits it visits. -/
theorem andBits_spec (ok2 : Built e2) (ok : Canonical dst) (k : Nat) (bits : List U32) :
    Canonical (ebitmapAndBits alloc e2 k bits dst).2 ∧
      if (ebitmapAndBits alloc e2 k bits dst).1.isSome then
        bitsOf (ebitmapAndBits alloc e2 k bits dst).2 ⊆ bitsOf dst ∪ kept bits e2
      else bitsOf (ebitmapAndBits alloc e2 k bits dst).2 = bitsOf dst ∪ kept bits e2 := by
  induction bits generalizing k dst with
  | nil =>
    refine ⟨ok, ?_⟩
    unfold ebitmapAndBits
    simp [kept]
  | cons bit rest ih =>
    rw [kept_cons, ← Set.union_assoc]
    unfold ebitmapAndBits
    by_cases inside : ebitmapGetBit e2 (intToLong bit) = true
    · rw [if_pos inside]
      obtain ⟨low, member⟩ := (getBit_intToLong ok2 bit).mp inside
      have added : insert bit.toNat (bitsOf dst) =
          bitsOf dst ∪ {b | b = bit.toNat ∧ b < intBits ∧ InBitmap e2 b} := by
        ext b
        simp only [Set.mem_insert_iff, Set.mem_union, Set.mem_ofPred_eq]
        constructor
        · rintro (rfl | there)
          · exact .inr ⟨rfl, low, member⟩
          · exact .inl there
        · rintro (there | ⟨same, -⟩)
          · exact .inr there
          · exact .inl same
      have room : bit.toNat - bit.toNat % ebitmapSize + ebitmapSize < 2 ^ 32 := by
        unfold intBits at low
        unfold ebitmapSize
        omega
      have number : intToLong bit = bit.toNat := by rw [intToLong_eq, if_pos low]
      rw [number]
      obtain ⟨made, bits⟩ := setBitAlloc_true ok room (alloc k)
      rcases once : ebitmapSetBitAlloc (alloc k) dst bit.toNat true with ⟨rc, dst'⟩
      rw [once] at made bits
      cases rc with
      | some rc =>
        refine ⟨made, ?_⟩
        dsimp only
        rw [if_pos Option.isSome_some]
        change bitsOf dst' = bitsOf dst at bits
        rw [bits, Set.union_assoc]
        exact Set.subset_union_left
      | none =>
        change bitsOf dst' = insert bit.toNat (bitsOf dst) at bits
        rw [← added, ← bits]
        exact ih made (k + 1)
    · rw [if_neg inside]
      have nothing : {b | b = bit.toNat ∧ b < intBits ∧ InBitmap e2 b} = (∅ : Set Nat) := by
        refine Set.eq_empty_of_forall_notMem fun b => ?_
        rintro ⟨rfl, low, member⟩
        exact inside ((getBit_intToLong ok2 bit).mpr ⟨low, member⟩)
      rw [nothing, Set.union_empty]
      exact ih ok (k + 1)

/-- `ebitmap_and` makes the part of the intersection that an `int` can count. -/
theorem and_spec (ok1 : Built e1) (ok2 : Built e2) :
    Canonical (ebitmapAnd alloc e1 e2).2 ∧
      ((ebitmapAnd alloc e1 e2).1.isSome = true →
        bitsOf (ebitmapAnd alloc e1 e2).2 ⊆ {b | b < intBits} ∩ (bitsOf e1 ∩ bitsOf e2)) ∧
      ((ebitmapAnd alloc e1 e2).1.isSome = false →
        bitsOf (ebitmapAnd alloc e1 e2).2 = {b | b < intBits} ∩ (bitsOf e1 ∩ bitsOf e2)) := by
  have visited : ∀ b, b ∈ (ebitmapPositiveBits e1).map BitVec.toNat ↔ InBitmap e1 b := by
    rw [ok1.positiveBits]
    exact fun b => mem_flatMap_nodeBits ok1.nodes
  have none : bitsOf ebitmapInit = ∅ := Set.eq_empty_of_forall_notMem fun b => init_bits
  have both : bitsOf ebitmapInit ∪ kept (ebitmapPositiveBits e1) e2 =
      {b | b < intBits} ∩ (bitsOf e1 ∩ bitsOf e2) := by
    rw [none, Set.empty_union]
    ext b
    simp only [kept, Set.mem_ofPred_eq, visited]
    exact Iff.rfl
  rw [← both]
  obtain ⟨made, bits⟩ := @andBits_spec e2 ebitmapInit alloc ok2 init_canonical 0 (ebitmapPositiveBits e1)
  refine ⟨made, fun failed => ?_, fun done => ?_⟩
  · exact (if_pos failed).mp bits
  · exact (if_neg (ne_true_of_eq_false done)).mp bits

theorem and_low (ok1 : Built e1) (ok2 : Built e2)
    (inside : InBitmap (ebitmapAnd alloc e1 e2).2 b) : b < intBits := by
  obtain ⟨-, part, whole⟩ := @and_spec _ _ alloc ok1 ok2
  cases failed : (ebitmapAnd alloc e1 e2).1.isSome with
  | true => exact (part failed inside).1
  | false => exact ((whole failed).le inside).1

theorem low_of_getBit {bit : U32} (inside : ebitmapGetBit e (intToLong bit) = true) :
    bit.toNat < intBits := by
  by_contra high
  have past : e.highbit.toNat < intToLong bit := by
    rw [intToLong_eq, if_neg high]
    have := e.highbit.isLt
    unfold intBits at high
    omega
  unfold ebitmapGetBit at inside
  rw [if_pos past] at inside
  cases inside

/-- `ebitmap_and` only keeps bits that it visits, whatever the second bitmap is. -/
theorem andBits_visited (ok : Canonical dst) (k : Nat) (bits : List U32) :
    Canonical (ebitmapAndBits alloc e2 k bits dst).2 ∧
      ∀ b, InBitmap (ebitmapAndBits alloc e2 k bits dst).2 b →
        InBitmap dst b ∨ b ∈ bits.map BitVec.toNat := by
  induction bits generalizing k dst with
  | nil => exact ⟨ok, fun _ inside => .inl inside⟩
  | cons bit rest ih =>
    unfold ebitmapAndBits
    rw [List.map_cons]
    by_cases inside : ebitmapGetBit e2 (intToLong bit) = true
    · rw [if_pos inside]
      have low := low_of_getBit inside
      have room : bit.toNat - bit.toNat % ebitmapSize + ebitmapSize < 2 ^ 32 := by
        unfold intBits at low
        unfold ebitmapSize
        omega
      rw [show intToLong bit = bit.toNat by rw [intToLong_eq, if_pos low]]
      obtain ⟨made, set⟩ := setBitAlloc_true ok room (alloc k)
      have grown : ∀ b, InBitmap (ebitmapSetBitAlloc (alloc k) dst bit.toNat true).2 b →
          InBitmap dst b ∨ b = bit.toNat := by
        intro b there
        have member : b ∈ bitsOf (ebitmapSetBitAlloc (alloc k) dst bit.toNat true).2 := there
        rw [set] at member
        split at member
        · exact .inl member
        · exact (Set.mem_insert_iff.mp member).symm
      rcases once : ebitmapSetBitAlloc (alloc k) dst bit.toNat true with ⟨rc, dst'⟩
      rw [once] at made grown
      cases rc with
      | some rc =>
        refine ⟨made, fun b there => ?_⟩
        rcases grown b there with old | rfl
        · exact .inl old
        · exact .inr List.mem_cons_self
      | none =>
        obtain ⟨last, later⟩ := ih made (k + 1)
        refine ⟨last, fun b there => ?_⟩
        rcases later b there with before | member
        · rcases grown b before with old | rfl
          · exact .inl old
          · exact .inr List.mem_cons_self
        · exact .inr (List.mem_cons_of_mem _ member)
    · rw [if_neg inside]
      obtain ⟨last, later⟩ := ih ok (k + 1)
      exact ⟨last, fun b there => (later b there).imp_right (List.mem_cons_of_mem _)⟩

theorem and_positive {bit : U32} (member : bit ∈ ebitmapPositiveBits (ebitmapAnd alloc e1 e2).2) :
    bit ∈ ebitmapPositiveBits e1 := by
  obtain ⟨made, visited⟩ :=
    @andBits_visited e2 ebitmapInit alloc init_canonical 0 (ebitmapPositiveBits e1)
  have inside := (mem_positiveBits (Canonical.built made) bit).mp member
  obtain ⟨c, there, same⟩ := List.mem_map.mp ((visited _ inside).resolve_left init_bits)
  rwa [← BitVec.eq_of_toNat_eq same]

end Making

section Runs

/-- A call on bitmaps with names; `alloc` tells which allocations succeed. -/
inductive EbitmapCall (ι : Type) where
  | setBit (e : ι) (bit : Nat) (value alloc : Bool)
  | cpy (dst src : ι) (alloc : Nat → Bool)
  | and (dst e1 e2 : ι) (alloc : Nat → Bool)

variable {ι : Type} [DecidableEq ι]

namespace EbitmapCall

/-- The bitmap that the call writes. -/
def target : EbitmapCall ι → ι
  | setBit e _ _ _ => e
  | cpy dst _ _ => dst
  | and dst _ _ _ => dst

/-- The bits are below `2 ^ 32 - EBITMAP_SIZE`, and `dst` is none of the bitmaps that are read. -/
def Allowed : EbitmapCall ι → Prop
  | setBit _ bit _ _ => bit < 2 ^ 32 - ebitmapSize
  | cpy dst src _ => dst ≠ src
  | and dst e1 e2 _ => dst ≠ e1 ∧ dst ≠ e2

instance (c : EbitmapCall ι) : Decidable c.Allowed :=
  match c with
  | setBit _ bit _ _ => inferInstanceAs (Decidable (bit < 2 ^ 32 - ebitmapSize))
  | cpy dst src _ => inferInstanceAs (Decidable (dst ≠ src))
  | and dst e1 e2 _ => inferInstanceAs (Decidable (dst ≠ e1 ∧ dst ≠ e2))

/-- The error of the call, and what it leaves in its target. -/
def result (s : ι → Ebitmap) : EbitmapCall ι → Option Errno × Ebitmap
  | setBit e bit value alloc => ebitmapSetBitAlloc alloc (s e) bit value
  | cpy _ src alloc => ebitmapCpy alloc (s src)
  | and _ e1 e2 alloc => ebitmapAnd alloc (s e1) (s e2)

/-- What the call does to sets; a call that fails leaves a set that has nothing it should not have. -/
def Means (t : ι → Set Nat) (failed : Bool) (made : Set Nat) : EbitmapCall ι → Prop
  | setBit e bit true _ => made = if failed then t e else insert bit (t e)
  | setBit e bit false _ => made = t e \ {bit}
  | cpy _ src _ => made = if failed then ∅ else t src
  | and _ e1 e2 _ => if failed then made ⊆ t e1 ∩ t e2 else made = t e1 ∩ t e2

/-- An intersection has no bit from `2 ^ 31` on. -/
def Low (s : ι → Ebitmap) : EbitmapCall ι → Prop
  | and _ e1 e2 _ => ∀ b, b ∈ bitsOf (s e1) → b ∈ bitsOf (s e2) → b < intBits
  | _ => True

end EbitmapCall

/-- Calls one after the other, from empty bitmaps. -/
def ebitmapMachine (ι : Type) [DecidableEq ι] : Machine (ι → Ebitmap) (EbitmapCall ι) where
  start s := s = fun _ => ebitmapInit
  step s c := if c.Allowed then some (Function.update s c.target (c.result s).2) else none

/-- A step of the sets. -/
def SetStep (t t' : ι → Set Nat) : Prop :=
  ∃ (c : EbitmapCall ι) (failed : Bool) (made : Set Nat),
    c.Allowed ∧ c.Means t failed made ∧ t' = Function.update t c.target made

/-- What the functions that read bitmaps tell of sets. -/
structure ReadsSets (s : ι → Ebitmap) : Prop where
  canonical : ∀ i, Canonical (s i)
  getBit : ∀ i b, ebitmapGetBit (s i) b = true ↔ b ∈ bitsOf (s i)
  cmp : ∀ i j, ebitmapCmp (s i) (s j) = true ↔ bitsOf (s i) = bitsOf (s j)
  contains : ∀ i j, ebitmapContains (s i) (s j) 0 = true ↔ bitsOf (s j) ⊆ bitsOf (s i)
  walk : ∀ i, ∃ fuel bits,
    ebitmapForEachPositive (s i) fuel (ebitmapStartPositive (s i)) = some bits ∧
      (bits.map BitVec.toNat).Pairwise (· < ·) ∧ ∀ b, b ∈ bits.map BitVec.toNat ↔ b ∈ bitsOf (s i)

variable {s s' : ι → Ebitmap} {c : EbitmapCall ι}

omit [DecidableEq ι] in
theorem readsSets (ok : ∀ i, Canonical (s i)) : ReadsSets s where
  canonical := ok
  getBit i _ := getBit_iff (Canonical.built (ok i))
  cmp i j := cmp_iff (ok i) (ok j)
  contains i j := contains_iff_subset (Canonical.built (ok i)) (ok j)
  walk i := by
    obtain ⟨fuel, walk⟩ := forEach_positiveBits (Canonical.built (ok i))
    obtain ⟨sorted, bits⟩ := positiveBits_spec (ok i)
    exact ⟨fuel, _, walk, sorted, bits⟩

omit [DecidableEq ι] in
/-- What one call leaves in its target. -/
theorem result_canonical (ok : ∀ i, Canonical (s i)) (allowed : c.Allowed) :
    Canonical (c.result s).2 := by
  cases c with
  | setBit e bit value alloc =>
    cases value with
    | true => exact (setBitAlloc_true (ok e) (room_of_small allowed) alloc).1
    | false => exact (setBitAlloc_false (ok e) alloc bit).1
  | cpy dst src alloc =>
    change Canonical (ebitmapCpy alloc (s src)).2
    rcases @cpy_eq alloc (s src) with failed | copied
    · rw [failed]
      exact init_canonical
    · rw [copied]
      exact ok src
  | and dst e1 e2 alloc => exact (and_spec (Canonical.built (ok e1)) (Canonical.built (ok e2))).1

theorem step_canonical (ok : ∀ i, Canonical (s i)) (stepped : (ebitmapMachine ι).step s c = some s') :
    ∀ i, Canonical (s' i) := by
  unfold ebitmapMachine at stepped
  dsimp only at stepped
  split at stepped
  · rename_i allowed
    cases stepped
    intro i
    by_cases here : i = c.target
    · rw [here, Function.update_self]
      exact result_canonical ok allowed
    · rw [Function.update_of_ne here]
      exact ok i
  · cases stepped

/-- In every state that calls lead to, all bitmaps are canonical. -/
theorem reachable_canonical {guard : (ι → Ebitmap) → EbitmapCall ι → Prop}
    (reached : (ebitmapMachine ι).Reachable guard s) : ∀ i, Canonical (s i) := by
  refine reached.invariant (fun s₀ started => ?_) fun s c s' ok _ stepped => step_canonical ok stepped
  cases started
  exact fun _ => init_canonical

omit [DecidableEq ι] in
/-- A call that fails leaves a set, and one that succeeds does what it means, for an intersection only
when its bits are below `2 ^ 31`. -/
theorem result_means (ok : ∀ i, Canonical (s i)) (allowed : c.Allowed) :
    ((c.result s).1.isSome = true → c.Means (fun i => bitsOf (s i)) true (bitsOf (c.result s).2)) ∧
      ((c.result s).1.isSome = false →
        (c.Means (fun i => bitsOf (s i)) false (bitsOf (c.result s).2) ↔ c.Low s)) := by
  cases c with
  | setBit e bit value alloc =>
    cases value with
    | true =>
      have bits := (setBitAlloc_true (ok e) (room_of_small allowed) alloc).2
      constructor
      · intro failed
        exact bits.trans (if_pos failed)
      · intro done
        exact iff_of_true (bits.trans (if_neg (ne_true_of_eq_false done))) trivial
    | false =>
      have bits := (setBitAlloc_false (ok e) alloc bit).2
      exact ⟨fun _ => bits, fun _ => iff_of_true bits trivial⟩
  | cpy dst src alloc =>
    unfold EbitmapCall.result
    dsimp only
    rcases @cpy_eq alloc (s src) with failed | copied
    · rw [failed]
      refine ⟨fun _ => ?_, fun done => ?_⟩
      · exact Set.eq_empty_of_forall_notMem fun b => init_bits
      · cases done
    · rw [copied]
      refine ⟨fun failed => ?_, fun _ => iff_of_true rfl trivial⟩
      cases failed
  | and dst e1 e2 alloc =>
    obtain ⟨-, part, whole⟩ := @and_spec _ _ alloc (Canonical.built (ok e1)) (Canonical.built (ok e2))
    constructor
    · intro failed
      exact (part failed).trans Set.inter_subset_right
    · intro done
      have low : (EbitmapCall.and dst e1 e2 alloc).Low s ↔
          bitsOf (s e1) ∩ bitsOf (s e2) ⊆ {b | b < intBits} :=
        ⟨fun low b both => low b both.1 both.2, fun low b one two => low ⟨one, two⟩⟩
      rw [low]
      unfold EbitmapCall.result EbitmapCall.Means
      dsimp only
      rw [whole done, if_neg Bool.false_ne_true]
      exact Set.inter_eq_right

/-- A call that does what it means is a step of the sets. -/
theorem step_sets (ok : ∀ i, Canonical (s i)) (low : c.Low s)
    (stepped : (ebitmapMachine ι).step s c = some s') :
    SetStep (fun i => bitsOf (s i)) fun i => bitsOf (s' i) := by
  unfold ebitmapMachine at stepped
  dsimp only at stepped
  split at stepped
  · rename_i allowed
    cases stepped
    obtain ⟨part, whole⟩ := result_means ok allowed
    refine ⟨c, (c.result s).1.isSome, bitsOf (c.result s).2, allowed, ?_, ?_⟩
    · cases failed : (c.result s).1.isSome with
      | true => exact part failed
      | false => exact (whole failed).mpr low
    · funext i
      by_cases here : i = c.target
      · rw [here, Function.update_self, Function.update_self]
      · rw [Function.update_of_ne here, Function.update_of_ne here]
  · cases stepped

/-- The bitmaps are sets in every state that calls lead to, a call does to the sets what it means, but
for an intersection exactly when its bits are below `2 ^ 31`, and calls that all meet this lead to what
the set operations lead to. -/
theorem implements_sets :
    (∀ s, (ebitmapMachine ι).Reachable Machine.free s →
      ReadsSets s ∧ ∀ c : EbitmapCall ι, c.Allowed →
        ((c.result s).1.isSome = true →
          c.Means (fun i => bitsOf (s i)) true (bitsOf (c.result s).2)) ∧
        ((c.result s).1.isSome = false →
          (c.Means (fun i => bitsOf (s i)) false (bitsOf (c.result s).2) ↔ c.Low s))) ∧
    ∀ s, (ebitmapMachine ι).Reachable (fun s c => c.Low s) s →
      Relation.ReflTransGen SetStep (fun _ => ∅) fun i => bitsOf (s i) := by
  refine ⟨fun s reached => ?_, fun s reached => ?_⟩
  · have ok := reachable_canonical reached
    exact ⟨readsSets ok, fun c allowed => result_means ok allowed⟩
  · obtain ⟨s₀, started, run⟩ := reached
    cases started
    have empty : (fun _ : ι => ∅) = fun _ : ι => bitsOf ebitmapInit :=
      funext fun _ => (Set.eq_empty_of_forall_notMem fun b => init_bits).symm
    rw [empty]
    induction run with
    | refl => exact Relation.ReflTransGen.refl
    | tail before last ih =>
      obtain ⟨c, low, stepped⟩ := last
      exact ih.tail (step_sets (reachable_canonical ⟨_, rfl, before⟩) low stepped)

theorem implements_sets_copied :
    ∃ s, (ebitmapMachine Nat).exec (fun _ => ebitmapInit)
        [.setBit 0 5 true true, .cpy 1 0 fun _ => true, .setBit 1 5 false true] = some s ∧
      ReadsSets s ∧ Relation.ReflTransGen SetStep (fun _ => ∅) fun i => bitsOf (s i) := by
  obtain ⟨s, ran⟩ : ∃ s, (ebitmapMachine Nat).exec (fun _ => ebitmapInit)
      [.setBit 0 5 true true, .cpy 1 0 fun _ => true, .setBit 1 5 false true] = some s := ⟨_, rfl⟩
  refine ⟨s, ran, (implements_sets.1 s ⟨_, rfl, Machine.exec_reaches ran⟩).1,
    implements_sets.2 s ⟨_, rfl, Machine.exec_reaches_guard ran fun c member s => ?_⟩⟩
  simp only [List.mem_cons, List.not_mem_nil, or_false] at member
  rcases member with rfl | rfl | rfl <;> exact trivial

/-- Bit `2 ^ 31` is set in a bitmap, which is copied and intersected with its copy. -/
def highBits : List (EbitmapCall Nat) :=
  [.setBit 0 intBits true true, .cpy 1 0 fun _ => true, .and 2 0 1 fun _ => true]

theorem intersection_lost :
    ∃ s, (ebitmapMachine Nat).exec (fun _ => ebitmapInit) highBits = some s ∧
      InBitmap (s 0) intBits ∧ InBitmap (s 1) intBits ∧ ¬ InBitmap (s 2) intBits := by
  obtain ⟨made, bits⟩ := setBitAlloc_true init_canonical
    (show intBits - intBits % ebitmapSize + ebitmapSize < 2 ^ 32 by decide) true
  have set : InBitmap (ebitmapSetBitAlloc true ebitmapInit intBits true).2 intBits := by
    have whole : bitsOf (ebitmapSetBitAlloc true ebitmapInit intBits true).2 =
        insert intBits (bitsOf ebitmapInit) := bits
    exact whole.ge (Set.mem_insert intBits _)
  have copied : ebitmapCpy (fun _ => true) (ebitmapSetBitAlloc true ebitmapInit intBits true).2 =
      (none, (ebitmapSetBitAlloc true ebitmapInit intBits true).2) := rfl
  refine ⟨_, rfl, set, ?_, fun found => ?_⟩
  · change InBitmap (ebitmapCpy (fun _ => true) (ebitmapSetBitAlloc true ebitmapInit intBits true).2).2
      intBits
    rw [copied]
    exact set
  · have copy : Canonical (ebitmapCpy (fun _ => true)
        (ebitmapSetBitAlloc true ebitmapInit intBits true).2).2 := by
      rw [copied]
      exact made
    have low : intBits < intBits := and_low (Canonical.built made) (Canonical.built copy) found
    exact Nat.lt_irrefl intBits low

end Runs

end Ksrc.Guarantees.EbitmapSets

import Ksrc.Guarantees.EbitmapBits
import Ksrc.Source.EbitmapFile

/-!
# Bitmaps as they are built

Source: `security/selinux/ss/ebitmap.c` (`ebitmap_read`, `ebitmap_set_bit`, `ebitmap_get_bit`),
`ebitmap.h` (`ebitmap_for_each_positive_bit`).

A bitmap that was read from a file is in ascending order and below its `highbit`, but it may have
nodes without bits, and a `highbit` past its last node.
-/
namespace Ksrc.Guarantees.EbitmapFiles

open Library Source EbitmapBits

/-- Nodes from a bit on, each past the one before and at a multiple of the node size; they may be
empty. -/
def Ascending : Nat → List EbitmapNode → Prop
  | _, [] => True
  | low, n :: rest =>
    low ≤ n.startbit.toNat ∧ n.startbit.toNat % ebitmapSize = 0 ∧
      n.startbit.toNat + ebitmapSize < 2 ^ 32 ∧ Ascending (n.startbit.toNat + ebitmapSize) rest

section Nodes

variable {n : EbitmapNode} {nodes : List EbitmapNode} {low low' b : Nat}

theorem Ascending.start (ok : Ascending low nodes) (member : n ∈ nodes) :
    low ≤ n.startbit.toNat ∧ n.startbit.toNat % ebitmapSize = 0 := by
  induction nodes generalizing low with
  | nil => cases member
  | cons m rest ih =>
    obtain ⟨start, aligned, -, later⟩ := ok
    rcases List.mem_cons.mp member with rfl | there
    · exact ⟨start, aligned⟩
    · have := ih later there
      omega

theorem Ascending.lower (ok : Ascending low nodes) (inside : InNodes nodes b) : low ≤ b := by
  obtain ⟨n, member, here⟩ := inside
  have := ok.start member
  have := here.lower
  omega

theorem Ascending.le_endOf (ok : Ascending low nodes) : low ≤ endOf low nodes := by
  induction nodes generalizing low with
  | nil => exact Nat.le_refl low
  | cons n rest ih =>
    obtain ⟨start, -, -, later⟩ := ok
    have := ih later
    unfold endOf
    omega

theorem Ascending.upper (ok : Ascending low nodes) (inside : InNodes nodes b) :
    b < endOf low nodes := by
  induction nodes generalizing low with
  | nil => exact absurd inside inNodes_nil
  | cons n rest ih =>
    obtain ⟨-, -, -, later⟩ := ok
    unfold endOf
    rcases inNodes_cons.mp inside with here | there
    · have := here.upper
      have := later.le_endOf
      omega
    · exact ih later there

end Nodes

/-- A bitmap as the code builds it. -/
structure Built (e : Ebitmap) : Prop where
  nodes : Ascending 0 e.node
  below : endOf 0 e.node ≤ e.highbit.toNat

section Building

variable {n : EbitmapNode} {nodes : List EbitmapNode} {low b : Nat} {bytes rest : List U8}

theorem ascending_append (nodes : List EbitmapNode) (n : EbitmapNode) (low : Nat) :
    Ascending low (nodes ++ [n]) ↔
      Ascending low nodes ∧ endOf low nodes ≤ n.startbit.toNat ∧
        n.startbit.toNat % ebitmapSize = 0 ∧ n.startbit.toNat + ebitmapSize < 2 ^ 32 := by
  induction nodes generalizing low with
  | nil => simp [Ascending, endOf]
  | cons m rest ih =>
    rw [List.cons_append]
    unfold Ascending
    rw [ih]
    simp only [endOf]
    tauto

theorem endOf_append (nodes : List EbitmapNode) (n : EbitmapNode) (low : Nat) :
    endOf low (nodes ++ [n]) = n.startbit.toNat + ebitmapSize := by
  induction nodes generalizing low with
  | nil => rfl
  | cons m rest ih => exact ih _

/-- Writing the words of a node leaves its start. -/
theorem ascending_start {n' : EbitmapNode} {after : List EbitmapNode}
    (same : n'.startbit = n.startbit) (ok : Ascending low (nodes ++ n :: after)) :
    Ascending low (nodes ++ n' :: after) := by
  induction nodes generalizing low with
  | nil =>
    unfold Ascending at ok ⊢
    rw [List.nil_append] at ok ⊢
    dsimp only at ok ⊢
    rw [same]
    exact ok
  | cons m rest ih => exact ⟨ok.1, ok.2.1, ok.2.2.1, ih ok.2.2.2⟩

/-- The nodes are in order and end before `high`. -/
def Below (high : Nat) (nodes : List EbitmapNode) : Prop :=
  Ascending 0 nodes ∧ endOf 0 nodes ≤ high

/-- The unit goes to the last node, or to one that is added behind it. -/
theorem readNode_below {high : Nat} {startbit : U32} {before : List EbitmapNode}
    (ok : Below high nodes.reverse) (small : high < 2 ^ 32)
    (fits : startbit.toNat - startbit.toNat % ebitmapSize + ebitmapSize ≤ high)
    (place : ebitmapReadNode startbit nodes = .ok (n, before)) :
    Below high (n :: before).reverse := by
  have start : (BitVec.ofNat 32 (startbit.toNat - startbit.toNat % ebitmapSize)).toNat =
      startbit.toNat - startbit.toNat % ebitmapSize := by
    rw [BitVec.toNat_ofNat, Nat.mod_eq_of_lt]
    exact lt_of_le_of_lt (Nat.sub_le _ _) startbit.isLt
  have added : endOf 0 nodes.reverse ≤ startbit.toNat - startbit.toNat % ebitmapSize →
      Below high (({ startbit := BitVec.ofNat 32 (startbit.toNat - startbit.toNat % ebitmapSize)
                     maps := Vector.replicate ebitmapUnitNums 0 } : EbitmapNode) :: nodes).reverse := by
    intro behind
    rw [List.reverse_cons]
    unfold Below
    rw [ascending_append, endOf_append, start]
    refine ⟨⟨ok.1, behind, ?_, lt_of_le_of_lt fits small⟩, fits⟩
    unfold ebitmapSize
    omega
  unfold ebitmapReadNode at place
  cases nodes with
  | nil =>
    cases place
    exact added (Nat.zero_le _)
  | cons m rest =>
    dsimp only at place
    split at place
    · rename_i past
      cases place
      refine added ?_
      have ordered := ok.1
      rw [List.reverse_cons, ascending_append] at ordered
      rw [List.reverse_cons, endOf_append]
      have aligned := ordered.2.2.1
      unfold ebitmapSize at *
      omega
    · split at place
      · cases place
      · cases place
        exact ok

theorem readMap_start (n : EbitmapNode) (startbit : U32) (map : U64) :
    (ebitmapReadMap n startbit map).startbit = n.startbit := by
  unfold ebitmapReadMap
  split <;> rfl

theorem readUnit_below {highbit : U32} {nodes' : List EbitmapNode}
    (whole : highbit.toNat % ebitmapSize = 0) (nonzero : highbit ≠ 0)
    (ok : Below highbit.toNat nodes.reverse)
    (read : ebitmapReadUnit highbit nodes bytes = .ok (nodes', rest)) :
    Below highbit.toNat nodes'.reverse := by
  simp only [ebitmapReadUnit, ByteReader.bind_ok, ByteReader.require_ok, ByteReader.pure_ok,
    ByteReader.lift_ok] at read
  obtain ⟨startbit, _, -, -, _, ⟨-, -⟩, -, _, ⟨below, -⟩, ⟨n, before⟩, _, ⟨place, -⟩, map, _, -, rfl,
    -⟩ := read
  have positive : highbit.toNat ≠ 0 := fun zero => nonzero (BitVec.eq_of_toNat_eq zero)
  have less : startbit.toNat ≤ (highbit - 64).toNat := below
  have difference : (highbit - 64).toNat = highbit.toNat - 64 := by
    refine BitVec.toNat_sub_of_le ?_
    change 64 ≤ highbit.toNat
    unfold ebitmapSize at whole
    omega
  have placed := readNode_below ok highbit.isLt (by unfold ebitmapSize at *; omega) place
  unfold Below at placed ⊢
  rw [List.reverse_cons, endOf_append] at placed ⊢
  rw [readMap_start]
  exact ⟨ascending_start (readMap_start n startbit map) placed.1, placed.2⟩

/-- `highbit -= highbit % EBITMAP_SIZE`. -/
theorem rounded_whole (high : U32) :
    (BitVec.ofNat 32 (high.toNat - high.toNat % ebitmapSize)).toNat % ebitmapSize = 0 := by
  rw [BitVec.toNat_ofNat, Nat.mod_eq_of_lt (lt_of_le_of_lt (Nat.sub_le _ _) high.isLt)]
  unfold ebitmapSize
  omega

theorem init_built : Built ebitmapInit := ⟨trivial, Nat.le_refl 0⟩

/-- A bitmap of a file is built in ascending order; nodes may stay empty. -/
theorem ebitmapRead_built {e : Ebitmap} (read : ebitmapRead bytes = .ok (e, rest)) : Built e := by
  simp only [ebitmapRead, ByteReader.bind_ok] at read
  obtain ⟨_, _, -, high, _, -, count, _, -, _, _, -, read⟩ := read
  split at read
  · simp only [ByteReader.pure_ok] at read
    rw [← read.1]
    exact init_built
  · rename_i nonzero
    simp only [ByteReader.bind_ok, ByteReader.pure_ok] at read
    obtain ⟨_, _, -, nodes, _, loop, rfl, -⟩ := read
    have start : ∀ high, Below high ([] : List EbitmapNode).reverse :=
      fun _ => ⟨trivial, Nat.zero_le _⟩
    obtain ⟨ordered, below⟩ := ByteReader.times_preserves
      (fun nodes : List EbitmapNode => Below _ nodes.reverse)
      (fun nodes bytes nodes' rest ok once => readUnit_below (rounded_whole _) nonzero ok once)
      (start _) loop
    exact ⟨ordered, below⟩

end Building

section Bits

variable {e : Ebitmap} {nodes : List EbitmapNode} {low b : Nat}

theorem Built.upper (ok : Built e) (inside : InBitmap e b) : b < e.highbit.toNat :=
  lt_of_lt_of_le (ok.nodes.upper inside) ok.below

/-- The node walk of `ebitmap_get_bit`. -/
theorem getBitNodes_iff (ok : Ascending low nodes) :
    ebitmapGetBitNodes nodes b = true ↔ InNodes nodes b := by
  induction nodes generalizing low with
  | nil => exact iff_of_false Bool.false_ne_true inNodes_nil
  | cons n later ih =>
    obtain ⟨-, -, -, after⟩ := ok
    unfold ebitmapGetBitNodes
    rw [inNodes_cons]
    by_cases below : n.startbit.toNat ≤ b
    · rw [if_pos below]
      by_cases inside : b < n.startbit.toNat + ebitmapSize
      · rw [if_pos inside]
        have notLater : ¬ InNodes later b := by
          intro there
          have := after.lower there
          omega
        constructor
        · exact fun set => .inl ⟨below, inside, set⟩
        · rintro (here | there)
          · exact here.2.2
          · exact absurd there notLater
      · rw [if_neg inside, ih after]
        refine (or_iff_right fun here => ?_).symm
        exact inside here.upper
    · rw [if_neg below]
      refine iff_of_false Bool.false_ne_true ?_
      rintro (here | there)
      · exact below here.lower
      · have := after.lower there
        omega

/-- `ebitmap_get_bit` tells the bits of a bitmap. -/
theorem getBit_iff (ok : Built e) : ebitmapGetBit e b = true ↔ InBitmap e b := by
  unfold ebitmapGetBit
  split
  · rename_i past
    refine iff_of_false Bool.false_ne_true fun inside => ?_
    have := ok.upper inside
    omega
  · exact getBitNodes_iff ok.nodes

theorem mem_flatMap_nodeBits (ok : Ascending low nodes) :
    b ∈ (nodes.flatMap nodeBits).map BitVec.toNat ↔ InNodes nodes b := by
  induction nodes generalizing low with
  | nil => simp only [List.flatMap_nil, List.map_nil, List.not_mem_nil, inNodes_nil]
  | cons n later ih =>
    obtain ⟨-, -, fits, after⟩ := ok
    rw [List.flatMap_cons, List.map_append, List.mem_append, mem_nodeBits fits, ih after, inNodes_cons]

/-- The walk over the positive bits stops at no node. -/
theorem Built.positiveBits (ok : Built e) : ebitmapPositiveBits e = e.node.flatMap nodeBits :=
  positiveBits_nodes fun _ member =>
    ok.upper ((mem_flatMap_nodeBits ok.nodes).mp (List.mem_map_of_mem member))

/-- The walk over the positive bits visits the bits of a bitmap. -/
theorem mem_positiveBits (ok : Built e) (bit : U32) :
    bit ∈ ebitmapPositiveBits e ↔ InBitmap e bit.toNat := by
  rw [ok.positiveBits]
  unfold InBitmap
  rw [← mem_flatMap_nodeBits ok.nodes, List.mem_map]
  constructor
  · exact fun member => ⟨bit, member, rfl⟩
  · rintro ⟨c, member, same⟩
    rwa [← BitVec.eq_of_toNat_eq same]

end Bits

end Ksrc.Guarantees.EbitmapFiles

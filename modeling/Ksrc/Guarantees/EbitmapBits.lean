import Mathlib.Data.List.TakeWhile
import Ksrc.Source.Ebitmap

/-!
# Bitmaps as sets of bits

Source: `security/selinux/ss/ebitmap.c`, `ebitmap.h`. In canonical form a bitmap is determined
by its bits; `ebitmap_set_bit` keeps the form, and `ebitmap_for_each_positive_bit` visits the
bits in ascending order.
-/
namespace Ksrc.Guarantees.EbitmapBits

open Source

/-- The bit is set in the node. -/
def InNode (n : EbitmapNode) (b : Nat) : Prop :=
  n.startbit.toNat ≤ b ∧ b < n.startbit.toNat + ebitmapSize ∧ n.bit (b - n.startbit.toNat) = true

def InNodes (nodes : List EbitmapNode) (b : Nat) : Prop := ∃ n ∈ nodes, InNode n b

/-- Nodes from a bit on, each past the one before and at a multiple of the node size, and none
of them empty. -/
def NodesFrom : Nat → List EbitmapNode → Prop
  | _, [] => True
  | low, n :: rest =>
    low ≤ n.startbit.toNat ∧ n.startbit.toNat % ebitmapSize = 0 ∧ (∃ b, InNode n b) ∧
      NodesFrom (n.startbit.toNat + ebitmapSize) rest

/-- The first bit past the nodes. -/
def endOf : Nat → List EbitmapNode → Nat
  | low, [] => low
  | _, n :: rest => endOf (n.startbit.toNat + ebitmapSize) rest

/-- A bitmap as `ebitmap_set_bit` leaves it. -/
structure Canonical (e : Ebitmap) : Prop where
  nodes : NodesFrom 0 e.node
  high : e.highbit.toNat = endOf 0 e.node

section Words

theorem vector_getD {α : Type} {size : Nat} (v : Vector α size) (i : Nat) (d : α) :
    v.getD i d = v[i]?.getD d := by
  unfold Vector.getD
  rw [Array.getD_eq_getD_getElem?, Vector.getElem?_toArray]

theorem bit_of_lt {n : EbitmapNode} {ofs : Nat} (small : ofs < ebitmapSize) :
    n.bit ofs = (n.maps.getD (ofs / ebitmapUnitSize) 0).getLsbD (ofs % ebitmapUnitSize) := by
  have inside : ofs / ebitmapUnitSize < ebitmapUnitNums := by
    unfold ebitmapSize at small
    unfold ebitmapUnitSize ebitmapUnitNums
    omega
  unfold EbitmapNode.bit
  rw [dif_pos inside]
  rw [vector_getD, Vector.getElem?_eq_getElem inside, Option.getD_some]

/-- `ebitmap_node_set_bit` sets one bit. -/
theorem bit_setBit (n : EbitmapNode) {ofs k : Nat} (small : ofs < ebitmapSize)
    (inside : k < ebitmapSize) : (n.setBit ofs).bit k = (decide (k = ofs) || n.bit k) := by
  have unit : ofs / ebitmapUnitSize < ebitmapUnitNums := by
    unfold ebitmapSize at small
    unfold ebitmapUnitSize ebitmapUnitNums
    omega
  have place : k % ebitmapUnitSize < 64 := Nat.mod_lt k (by decide)
  rw [bit_of_lt inside, bit_of_lt inside]
  unfold EbitmapNode.setBit
  dsimp only
  by_cases same : k / ebitmapUnitSize = ofs / ebitmapUnitSize
  · rw [same, vector_getD (n.maps.setIfInBounds _ _), Vector.getElem?_setIfInBounds_self_of_lt unit,
      Option.getD_some]
    rw [BitVec.getLsbD_or, BitVec.getLsbD_shiftLeft, BitVec.getLsbD_one, Bool.or_comm]
    congr 1
    have differ : (k % ebitmapUnitSize = ofs % ebitmapUnitSize) ↔ k = ofs := by
      constructor
      · intro rest
        have whole := Nat.div_add_mod k ebitmapUnitSize
        have whole' := Nat.div_add_mod ofs ebitmapUnitSize
        rw [same, rest] at whole
        omega
      · intro equal
        rw [equal]
    by_cases equal : k = ofs
    · rw [equal] at place ⊢
      simp only [place, decide_true, lt_self_iff_false, decide_false, Bool.not_false, Nat.sub_self,
        Bool.and_self]
      decide
    · have apart : k % ebitmapUnitSize ≠ ofs % ebitmapUnitSize := fun rest => equal (differ.mp rest)
      rw [decide_eq_false equal]
      by_cases below : k % ebitmapUnitSize < ofs % ebitmapUnitSize
      · simp only [below, decide_true, Bool.not_true, Bool.and_false, Bool.false_and]
      · have positive : k % ebitmapUnitSize - ofs % ebitmapUnitSize ≠ 0 := by omega
        simp only [positive, decide_false, Bool.and_false]
  · have differ : decide (k = ofs) = false := decide_eq_false fun equal => same (by rw [equal])
    rw [differ, Bool.false_or]
    rw [vector_getD, Vector.getElem?_setIfInBounds_ne (Ne.symm same), ← vector_getD]

end Words

section Nodes

variable {n : EbitmapNode} {nodes : List EbitmapNode} {low low' b x : Nat}

theorem InNode.lower (inside : InNode n b) : n.startbit.toNat ≤ b := inside.1

theorem InNode.upper (inside : InNode n b) : b < n.startbit.toNat + ebitmapSize := inside.2.1

theorem inNodes_nil : ¬ InNodes [] b := by
  rintro ⟨n, member, -⟩
  cases member

theorem inNodes_cons : InNodes (n :: nodes) b ↔ InNode n b ∨ InNodes nodes b := by
  simp only [InNodes, List.mem_cons, exists_eq_or_imp]

theorem NodesFrom.mono (ok : NodesFrom low nodes) (less : low' ≤ low) : NodesFrom low' nodes := by
  cases nodes with
  | nil => trivial
  | cons n rest =>
    obtain ⟨start, aligned, used, later⟩ := ok
    exact ⟨by omega, aligned, used, later⟩

theorem NodesFrom.lower (ok : NodesFrom low nodes) (inside : InNodes nodes b) : low ≤ b := by
  induction nodes generalizing low with
  | nil => exact absurd inside inNodes_nil
  | cons n rest ih =>
    obtain ⟨start, aligned, used, later⟩ := ok
    rcases inNodes_cons.mp inside with here | there
    · have := here.lower
      omega
    · have := ih later there
      omega

theorem NodesFrom.le_endOf (ok : NodesFrom low nodes) : low ≤ endOf low nodes := by
  induction nodes generalizing low with
  | nil => exact Nat.le_refl low
  | cons n rest ih =>
    obtain ⟨start, aligned, used, later⟩ := ok
    have := ih later
    unfold endOf
    omega

theorem NodesFrom.upper (ok : NodesFrom low nodes) (inside : InNodes nodes b) :
    b < endOf low nodes := by
  induction nodes generalizing low with
  | nil => exact absurd inside inNodes_nil
  | cons n rest ih =>
    obtain ⟨start, aligned, used, later⟩ := ok
    unfold endOf
    rcases inNodes_cons.mp inside with here | there
    · have := here.upper
      have := later.le_endOf
      omega
    · exact ih later there

/-- The node of a bit ends with the nodes or before. -/
theorem NodesFrom.room (ok : NodesFrom low nodes) (inside : InNodes nodes b) :
    b - b % ebitmapSize + ebitmapSize ≤ endOf low nodes := by
  induction nodes generalizing low with
  | nil => exact absurd inside inNodes_nil
  | cons n rest ih =>
    obtain ⟨start, aligned, used, later⟩ := ok
    unfold endOf
    rcases inNodes_cons.mp inside with here | there
    · have lower := here.lower
      have upper := here.upper
      have ends := later.le_endOf
      unfold ebitmapSize at *
      omega
    · exact ih later there

theorem inNode_setBit (lower : n.startbit.toNat ≤ b) (upper : b < n.startbit.toNat + ebitmapSize) :
    InNode (n.setBit (b - n.startbit.toNat)) x ↔ x = b ∨ InNode n x := by
  have same : (n.setBit (b - n.startbit.toNat)).startbit = n.startbit := rfl
  unfold InNode
  rw [same]
  by_cases below : n.startbit.toNat ≤ x
  · by_cases above : x < n.startbit.toNat + ebitmapSize
    · have offset : x - n.startbit.toNat = b - n.startbit.toNat ↔ x = b := by omega
      rw [bit_setBit n (by omega) (by omega), Bool.or_eq_true, decide_eq_true_eq, offset]
      simp only [below, above, true_and]
    · have apart : x ≠ b := by omega
      simp only [above, apart, false_and, and_false, or_self]
  · have apart : x ≠ b := by omega
    simp only [below, apart, false_and, or_self]

theorem newNode_startbit (small : b < 2 ^ 32) :
    (ebitmapNewNode b).startbit.toNat = b - b % ebitmapSize := by
  change (BitVec.ofNat 32 (b - b % ebitmapSize)).toNat = _
  rw [BitVec.toNat_ofNat, Nat.mod_eq_of_lt]
  omega

theorem zero_bit (k : Nat) (startbit : U32) :
    ({ startbit, maps := Vector.replicate ebitmapUnitNums 0 } : EbitmapNode).bit k = false := by
  unfold EbitmapNode.bit
  split
  · rw [Vector.getElem_replicate]
    exact BitVec.getLsbD_zero
  · rfl

theorem inNode_newNode (small : b < 2 ^ 32) : InNode (ebitmapNewNode b) x ↔ x = b := by
  have rest : b % ebitmapSize < ebitmapSize := Nat.mod_lt b (by decide)
  have start := newNode_startbit small
  have part : b % ebitmapSize ≤ b := Nat.mod_le b ebitmapSize
  unfold InNode
  rw [start]
  constructor
  · rintro ⟨lower, upper, set⟩
    unfold ebitmapNewNode at set
    rw [bit_setBit _ rest (by omega), zero_bit, Bool.or_false, decide_eq_true_eq] at set
    omega
  · rintro rfl
    refine ⟨by omega, by omega, ?_⟩
    unfold ebitmapNewNode
    rw [bit_setBit _ rest (by omega), zero_bit, Bool.or_false, decide_eq_true_eq]
    omega

/-- What `ebitmap_set_bit` does to the nodes. -/
structure BitSet (b low : Nat) (nodes nodes' : List EbitmapNode) (last : Bool) : Prop where
  ok : NodesFrom low nodes'
  bits : ∀ x, InNodes nodes' x ↔ x = b ∨ InNodes nodes x
  ends : endOf low nodes' = if last then b - b % ebitmapSize + ebitmapSize else endOf low nodes

theorem setBitNodes_set (small : b < 2 ^ 32) (ok : NodesFrom low nodes)
    (aligned : low % ebitmapSize = 0) (lower : low ≤ b) :
    BitSet b low nodes (ebitmapSetBitNodes b nodes).1 (ebitmapSetBitNodes b nodes).2 := by
  have start := newNode_startbit small
  have whole : (b - b % ebitmapSize) % ebitmapSize = 0 := by
    unfold ebitmapSize
    omega
  have room : low ≤ b - b % ebitmapSize := by
    unfold ebitmapSize at aligned ⊢
    omega
  have used : ∃ x, InNode (ebitmapNewNode b) x := ⟨b, (inNode_newNode small).mpr rfl⟩
  induction nodes generalizing low with
  | nil =>
    refine ⟨⟨by rw [start]; exact room, by rw [start]; exact whole, used, trivial⟩, fun x => ?_, ?_⟩
    · have single : InNodes [ebitmapNewNode b] x ↔ InNode (ebitmapNewNode b) x := by
        rw [inNodes_cons]
        exact or_iff_left inNodes_nil
      change InNodes [ebitmapNewNode b] x ↔ _
      rw [single, inNode_newNode small]
      exact (or_iff_left inNodes_nil).symm
    · change (ebitmapNewNode b).startbit.toNat + ebitmapSize = _
      rw [start]
      rfl
  | cons n rest ih =>
    obtain ⟨first, alignedN, usedN, later⟩ := ok
    unfold ebitmapSetBitNodes
    by_cases below : n.startbit.toNat ≤ b
    · rw [if_pos below]
      by_cases inside : b < n.startbit.toNat + ebitmapSize
      · rw [if_pos inside]
        have same : (n.setBit (b - n.startbit.toNat)).startbit = n.startbit := rfl
        refine ⟨⟨by rw [same]; exact first, by rw [same]; exact alignedN, ⟨b, ?_⟩,
          by rw [same]; exact later⟩, fun x => ?_, rfl⟩
        · exact (inNode_setBit below inside).mpr (.inl rfl)
        · rw [inNodes_cons, inNodes_cons, inNode_setBit below inside, or_assoc]
      · rw [if_neg inside]
        have step := ih later (by unfold ebitmapSize at alignedN ⊢; omega) (by omega)
          (by unfold ebitmapSize at alignedN inside ⊢; omega)
        refine ⟨⟨first, alignedN, usedN, step.ok⟩, fun x => ?_, step.ends⟩
        rw [inNodes_cons, inNodes_cons, step.bits]
        exact or_left_comm
    · rw [if_neg below]
      refine ⟨⟨by rw [start]; exact room, by rw [start]; exact whole, used, ?_, alignedN, usedN,
        later⟩, fun x => ?_, rfl⟩
      · rw [start]
        unfold ebitmapSize at alignedN ⊢
        omega
      · rw [inNodes_cons, inNode_newNode small]

/-- A node is determined by its start and its bits. -/
theorem node_ext {n' : EbitmapNode} (start : n.startbit = n'.startbit)
    (bits : ∀ y, InNode n y ↔ InNode n' y) : n = n' := by
  obtain ⟨startbit, maps⟩ := n
  obtain ⟨startbit', maps'⟩ := n'
  dsimp only at start
  subst start
  congr 1
  apply Vector.ext
  intro i inside
  apply BitVec.eq_of_getLsbD_eq
  intro k place
  have offset : ebitmapUnitSize * i + k < ebitmapSize := by
    unfold ebitmapUnitNums at inside
    unfold ebitmapUnitSize ebitmapSize
    omega
  have unit : (ebitmapUnitSize * i + k) / ebitmapUnitSize = i := by
    unfold ebitmapUnitSize
    omega
  have rest : (ebitmapUnitSize * i + k) % ebitmapUnitSize = k := by
    unfold ebitmapUnitSize
    omega
  have here := bits (startbit.toNat + (ebitmapUnitSize * i + k))
  unfold InNode at here
  dsimp only at here
  have less : startbit.toNat + (ebitmapUnitSize * i + k) < startbit.toNat + ebitmapSize := by omega
  simp only [Nat.le_add_right, less, true_and, Nat.add_sub_cancel_left] at here
  rw [bit_of_lt offset, bit_of_lt offset, unit, rest, vector_getD, vector_getD,
    Vector.getElem?_eq_getElem inside, Vector.getElem?_eq_getElem inside, Option.getD_some,
    Option.getD_some] at here
  exact Bool.eq_iff_iff.mpr here

/-- A canonical list of nodes is determined by its bits. -/
theorem nodes_ext {nodes' : List EbitmapNode} (ok : NodesFrom low nodes) (ok' : NodesFrom low' nodes')
    (same : ∀ x, InNodes nodes x ↔ InNodes nodes' x) : nodes = nodes' := by
  induction nodes generalizing low low' nodes' with
  | nil =>
    cases nodes' with
    | nil => rfl
    | cons n' rest' =>
      obtain ⟨x, used⟩ := ok'.2.2.1
      exact absurd ((same x).mpr (inNodes_cons.mpr (.inl used))) inNodes_nil
  | cons n rest ih =>
    cases nodes' with
    | nil =>
      obtain ⟨x, used⟩ := ok.2.2.1
      exact absurd ((same x).mp (inNodes_cons.mpr (.inl used))) inNodes_nil
    | cons n' rest' =>
      obtain ⟨first, aligned, ⟨x, used⟩, later⟩ := ok
      obtain ⟨first', aligned', ⟨x', used'⟩, later'⟩ := ok'
      have startLe : n'.startbit.toNat ≤ n.startbit.toNat := by
        have lower := used.lower
        have upper := used.upper
        rcases inNodes_cons.mp ((same x).mp (inNodes_cons.mpr (.inl used))) with here | there
        · have := here.lower
          have := here.upper
          unfold ebitmapSize at *
          omega
        · have := later'.lower there
          unfold ebitmapSize at *
          omega
      have startGe : n.startbit.toNat ≤ n'.startbit.toNat := by
        have lower := used'.lower
        have upper := used'.upper
        rcases inNodes_cons.mp ((same x').mpr (inNodes_cons.mpr (.inl used'))) with here | there
        · have := here.lower
          have := here.upper
          unfold ebitmapSize at *
          omega
        · have := later.lower there
          unfold ebitmapSize at *
          omega
      have start : n.startbit = n'.startbit := BitVec.eq_of_toNat_eq (by omega)
      have bits : ∀ y, InNode n y ↔ InNode n' y := by
        intro y
        constructor
        · intro here
          rcases inNodes_cons.mp ((same y).mp (inNodes_cons.mpr (.inl here))) with there | there
          · exact there
          · have := here.upper
            have := later'.lower there
            omega
        · intro here
          rcases inNodes_cons.mp ((same y).mpr (inNodes_cons.mpr (.inl here))) with there | there
          · exact there
          · have := here.upper
            have := later.lower there
            omega
      have equal : n = n' := node_ext start bits
      subst equal
      rw [ih later later' fun y => ?_]
      have whole := same y
      rw [inNodes_cons, inNodes_cons] at whole
      constructor
      · intro inside
        rcases whole.mp (.inr inside) with here | there
        · have := here.upper
          have := later.lower inside
          omega
        · exact there
      · intro inside
        rcases whole.mpr (.inr inside) with here | there
        · have := here.upper
          have := later'.lower inside
          omega
        · exact there

end Nodes

section Bitmaps

variable {e e' : Ebitmap} {b x : Nat}

/-- The bits of a bitmap. -/
def InBitmap (e : Ebitmap) (b : Nat) : Prop := InNodes e.node b

theorem init_canonical : Canonical ebitmapInit := ⟨trivial, rfl⟩

theorem init_bits : ¬ InBitmap ebitmapInit b := inNodes_nil

/-- `ebitmap_set_bit` adds one bit. -/
theorem setBit_canonical (ok : Canonical e) (small : b - b % ebitmapSize + ebitmapSize < 2 ^ 32) :
    Canonical (ebitmapSetBit e b true) ∧
      ∀ x, InBitmap (ebitmapSetBit e b true) x ↔ x = b ∨ InBitmap e x := by
  have rest := Nat.mod_lt b (show 0 < ebitmapSize by decide)
  have step := setBitNodes_set (by omega) ok.nodes (Nat.zero_mod _) (Nat.zero_le b)
  unfold ebitmapSetBit
  rw [if_pos rfl]
  refine ⟨⟨step.ok, ?_⟩, step.bits⟩
  rw [step.ends]
  dsimp only
  cases (ebitmapSetBitNodes b e.node).2 with
  | true =>
    rw [if_pos rfl, if_pos rfl, BitVec.toNat_ofNat, Nat.mod_eq_of_lt]
    exact small
  | false =>
    rw [if_neg Bool.false_ne_true, if_neg Bool.false_ne_true]
    exact ok.high

theorem setBits_canonical {bits : List Nat} (ok : Canonical e)
    (small : ∀ b ∈ bits, b - b % ebitmapSize + ebitmapSize < 2 ^ 32) :
    Canonical (bits.foldl (fun e b => ebitmapSetBit e b true) e) ∧
      ∀ x, InBitmap (bits.foldl (fun e b => ebitmapSetBit e b true) e) x ↔
        x ∈ bits ∨ InBitmap e x := by
  induction bits generalizing e with
  | nil =>
    refine ⟨ok, fun x => ?_⟩
    simp only [List.foldl_nil, List.not_mem_nil, false_or]
  | cons b rest ih =>
    obtain ⟨okB, bitsB⟩ := setBit_canonical ok (small b List.mem_cons_self)
    obtain ⟨okAll, bitsAll⟩ := ih okB fun k member => small k (List.mem_cons_of_mem b member)
    refine ⟨okAll, fun x => ?_⟩
    rw [List.foldl_cons, bitsAll, bitsB, List.mem_cons]
    tauto

/-- A bitmap in canonical form is determined by its bits. -/
theorem canonical_ext (ok : Canonical e) (ok' : Canonical e')
    (same : ∀ x, InBitmap e x ↔ InBitmap e' x) : e = e' := by
  have nodes := nodes_ext ok.nodes ok'.nodes same
  have high : e.highbit = e'.highbit := by
    apply BitVec.eq_of_toNat_eq
    rw [ok.high, ok'.high, nodes]
  cases e
  cases e'
  simp only at nodes high
  rw [nodes, high]

end Bitmaps

section Walk

variable {n : EbitmapNode} {nodes : List EbitmapNode} {low : Nat}

/-- The bits of a node that the walk visits. -/
def nodeBits (n : EbitmapNode) : List U32 :=
  ((List.range ebitmapSize).filter n.bit).map fun ofs => n.startbit + BitVec.ofNat 32 ofs

theorem toNat_bit {ofs : Nat} (inside : ofs < ebitmapSize)
    (fits : n.startbit.toNat + ebitmapSize < 2 ^ 32) :
    (n.startbit + BitVec.ofNat 32 ofs).toNat = n.startbit.toNat + ofs := by
  rw [BitVec.toNat_add, BitVec.toNat_ofNat, Nat.mod_eq_of_lt (a := ofs) (by omega),
    Nat.mod_eq_of_lt (by omega)]

theorem nodeBits_toNat (fits : n.startbit.toNat + ebitmapSize < 2 ^ 32) :
    (nodeBits n).map BitVec.toNat =
      ((List.range ebitmapSize).filter n.bit).map (n.startbit.toNat + ·) := by
  unfold nodeBits
  rw [List.map_map]
  apply List.map_congr_left
  intro ofs member
  have inside := List.mem_range.mp (List.mem_filter.mp member).1
  exact toNat_bit inside fits

theorem mem_nodeBits (fits : n.startbit.toNat + ebitmapSize < 2 ^ 32) (x : Nat) :
    x ∈ (nodeBits n).map BitVec.toNat ↔ InNode n x := by
  rw [nodeBits_toNat fits]
  simp only [List.mem_map, List.mem_filter, List.mem_range]
  constructor
  · rintro ⟨ofs, ⟨inside, set⟩, rfl⟩
    refine ⟨by omega, by omega, ?_⟩
    rw [Nat.add_sub_cancel_left]
    exact set
  · rintro ⟨lower, upper, set⟩
    exact ⟨x - n.startbit.toNat, ⟨by omega, set⟩, by omega⟩

theorem nodeBits_sorted (fits : n.startbit.toNat + ebitmapSize < 2 ^ 32) :
    ((nodeBits n).map BitVec.toNat).Pairwise (· < ·) := by
  rw [nodeBits_toNat fits, List.pairwise_map]
  refine ((List.pairwise_lt_range (n := ebitmapSize)).filter _).imp ?_
  intro a b less
  omega

theorem walk_spec (ok : NodesFrom low nodes) (fits : endOf low nodes < 2 ^ 32) :
    ((nodes.flatMap nodeBits).map BitVec.toNat).Pairwise (· < ·) ∧
      ∀ x, x ∈ (nodes.flatMap nodeBits).map BitVec.toNat ↔ InNodes nodes x := by
  induction nodes generalizing low with
  | nil =>
    refine ⟨List.Pairwise.nil, fun x => ?_⟩
    simp only [List.flatMap_nil, List.map_nil, List.not_mem_nil, inNodes_nil]
  | cons n rest ih =>
    obtain ⟨first, aligned, used, later⟩ := ok
    have fitsN : n.startbit.toNat + ebitmapSize < 2 ^ 32 := lt_of_le_of_lt later.le_endOf fits
    obtain ⟨sorted, bits⟩ := ih later fits
    rw [List.flatMap_cons, List.map_append]
    constructor
    · rw [List.pairwise_append]
      refine ⟨nodeBits_sorted fitsN, sorted, fun a inN b inRest => ?_⟩
      have upper := ((mem_nodeBits fitsN a).mp inN).upper
      have lower := later.lower ((bits b).mp inRest)
      omega
    · intro x
      rw [List.mem_append, mem_nodeBits fitsN, bits, inNodes_cons]

/-- Where no node goes past `highbit`, the walk over the positive bits visits the bits of every node. -/
theorem positiveBits_nodes {e : Ebitmap}
    (below : ∀ bit ∈ e.node.flatMap nodeBits, bit.toNat < e.highbit.toNat) :
    ebitmapPositiveBits e = e.node.flatMap nodeBits := by
  unfold ebitmapPositiveBits
  change (e.node.flatMap nodeBits).takeWhile _ = _
  refine List.takeWhile_eq_self_iff.mpr fun bit member => ?_
  rw [decide_eq_true_eq, BitVec.lt_def]
  exact below bit member

/-- The walk over the positive bits visits the bits of a canonical bitmap in ascending order. -/
theorem positiveBits_spec {e : Ebitmap} (ok : Canonical e) :
    ((ebitmapPositiveBits e).map BitVec.toNat).Pairwise (· < ·) ∧
      ∀ x, x ∈ (ebitmapPositiveBits e).map BitVec.toNat ↔ InBitmap e x := by
  have fits : endOf 0 e.node < 2 ^ 32 := by
    rw [← ok.high]
    exact e.highbit.isLt
  obtain ⟨sorted, bits⟩ := walk_spec ok.nodes fits
  rw [positiveBits_nodes fun b member => ?_]
  · exact ⟨sorted, bits⟩
  · have inside := (bits b.toNat).mp (List.mem_map_of_mem member)
    rw [ok.high]
    exact ok.nodes.upper inside

/-- Setting the bits of a canonical bitmap one by one in a new one makes the same bitmap. -/
theorem setBits_positiveBits {e : Ebitmap} (ok : Canonical e) :
    ((ebitmapPositiveBits e).map BitVec.toNat).foldl (fun e b => ebitmapSetBit e b true)
      ebitmapInit = e := by
  obtain ⟨-, bits⟩ := positiveBits_spec ok
  have small : ∀ b ∈ (ebitmapPositiveBits e).map BitVec.toNat,
      b - b % ebitmapSize + ebitmapSize < 2 ^ 32 := by
    intro b member
    have room := ok.nodes.room ((bits b).mp member)
    rw [← ok.high] at room
    exact lt_of_le_of_lt room e.highbit.isLt
  obtain ⟨made, madeBits⟩ := setBits_canonical init_canonical small
  refine canonical_ext made ok fun x => ?_
  rw [madeBits, bits]
  exact or_iff_left init_bits

end Walk

end Ksrc.Guarantees.EbitmapBits

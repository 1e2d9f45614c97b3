import Ksrc.Guarantees.EbitmapWalks
import Ksrc.Library.BlockSets
import Ksrc.Source.Context

/-!
# Which images give canonical bitmaps

Source: `security/selinux/ss/ebitmap.c` (`ebitmap_read`, `ebitmap_cmp`, `ebitmap_hash`).

`ebitmap_read` takes the high bit of the image as it is, keeps a node whose maps are all 0, and compares
the start of a unit with the start of the last node only. What it builds is canonical for the images
whose units ascend, have a bit in each node, and reach to the high bit, and for no others.
-/
namespace Ksrc.Guarantees.EbitmapStreams

open Library Source EbitmapBits EbitmapFiles
  EbitmapWalks

/-- A unit of an image: its start bit and its map. -/
abbrev Unit64 := U32 × U64

/-- The high bit of an image as `ebitmap_read` rounds it. -/
def roundedHigh (high : U32) : U32 :=
  let high := BitVec.ofNat 32 (high.toNat + (ebitmapSize - 1))
  BitVec.ofNat 32 (high.toNat - high.toNat % ebitmapSize)

def nextUnit : PolicyReader Unit64 := do
  let startbit ← nextU32
  let map ← nextU64
  pure (startbit, map)

/-- The high bit and the units that an image has. -/
def ebitmapUnits : PolicyReader (U32 × List Unit64) := do
  let _ ← nextU32
  let high ← nextU32
  let count ← nextU32
  if roundedHigh high = 0 then pure (high, [])
  else do
    let units ← ByteReader.several nextUnit count.toNat
    pure (high, units)

/-- The start of the node that a unit goes to. -/
def blockOf (u : Unit64) : Nat := u.1.toNat - u.1.toNat % ebitmapSize

/-- Units that make a canonical bitmap: their starts ascend, each node has one with a bit, and the last
node ends at the high bit. -/
structure WellFormed (high : U32) (units : List Unit64) : Prop where
  ascending : (units.map fun u => u.1.toNat).Pairwise (· < ·)
  used : ∀ u ∈ units, ∃ v ∈ units, blockOf v = blockOf u ∧ v.2 ≠ 0
  reaches : (roundedHigh high).toNat = (units.getLast?.map fun u => blockOf u + ebitmapSize).getD 0

section Reading

variable {bytes rest : List U8} {e : Ebitmap} {nodes nodes' : List EbitmapNode} {units : List Unit64}
  {n : EbitmapNode} {u : Unit64}

/-- What a unit leaves in its node. -/
theorem readMap_used (startbit : U32) (map : U64) (lower : n.startbit.toNat ≤ startbit.toNat)
    (upper : startbit.toNat < n.startbit.toNat + ebitmapSize) :
    (∃ b, InNode (ebitmapReadMap n startbit map) b) ↔ (∃ b, InNode n b) ∨ map ≠ 0 := by
  unfold ebitmapReadMap
  split
  · rename_i zero
    exact (or_iff_left (not_not.mpr zero)).symm
  · rename_i nonzero
    refine iff_of_true ?_ (.inr nonzero)
    obtain ⟨k, place, set⟩ := exists_getLsbD nonzero
    have inside : (startbit.toNat - n.startbit.toNat) / ebitmapUnitSize < ebitmapUnitNums := by
      unfold ebitmapSize at upper
      unfold ebitmapUnitSize ebitmapUnitNums
      omega
    have small : ebitmapUnitSize * ((startbit.toNat - n.startbit.toNat) / ebitmapUnitSize) + k <
        ebitmapSize := by
      unfold ebitmapUnitNums at inside
      unfold ebitmapUnitSize ebitmapSize at *
      omega
    refine ⟨n.startbit.toNat + _, Nat.le_add_right _ _, Nat.add_lt_add_left small _, ?_⟩
    rw [Nat.add_sub_cancel_left, bit_of_lt small]
    have unit : (ebitmapUnitSize * ((startbit.toNat - n.startbit.toNat) / ebitmapUnitSize) + k) /
        ebitmapUnitSize = (startbit.toNat - n.startbit.toNat) / ebitmapUnitSize := by
      unfold ebitmapUnitSize
      omega
    have offset : (ebitmapUnitSize * ((startbit.toNat - n.startbit.toNat) / ebitmapUnitSize) + k) %
        ebitmapUnitSize = k := by
      unfold ebitmapUnitSize
      omega
    dsimp only
    rw [unit, offset, vector_getD, Vector.getElem?_setIfInBounds_self_of_lt inside]
    exact set

/-- The nodes after some units, the last one in front. -/
structure Gathered (nodes : List EbitmapNode) (units : List Unit64) : Prop where
  used : ∀ n ∈ nodes, (∃ b, InNode n b) ↔ ∃ u ∈ units, blockOf u = n.startbit.toNat ∧ u.2 ≠ 0
  made : ∀ n ∈ nodes, ∃ u ∈ units, blockOf u = n.startbit.toNat
  placed : ∀ u ∈ units, ∃ n ∈ nodes, n.startbit.toNat = blockOf u
  last : (nodes.head?.map fun n => n.startbit.toNat) = units.getLast?.map blockOf

theorem gathered_nil : Gathered [] [] where
  used := by simp
  made := by simp
  placed := by simp
  last := rfl

theorem ascending_end {low : Nat} (ok : Ascending low nodes) (member : n ∈ nodes) :
    n.startbit.toNat + ebitmapSize ≤ endOf low nodes := by
  induction nodes generalizing low with
  | nil => cases member
  | cons m rest ih =>
    obtain ⟨-, -, -, later⟩ := ok
    unfold endOf
    rcases List.mem_cons.mp member with rfl | there
    · exact later.le_endOf
    · exact ih later there

/-- The node a unit goes to is the last one, or one without bits that is added. -/
theorem readNode_cases {startbit : U32} {before : List EbitmapNode} {high : Nat}
    (ok : Below high nodes.reverse) (place : ebitmapReadNode startbit nodes = .ok (n, before)) :
    n.startbit.toNat = startbit.toNat - startbit.toNat % ebitmapSize ∧
      (∀ m ∈ before, m.startbit.toNat + ebitmapSize ≤ n.startbit.toNat) ∧
      (nodes = n :: before ∨ nodes = before ∧ ∀ b, ¬ InNode n b) := by
  have start : (BitVec.ofNat 32 (startbit.toNat - startbit.toNat % ebitmapSize)).toNat =
      startbit.toNat - startbit.toNat % ebitmapSize := by
    rw [BitVec.toNat_ofNat, Nat.mod_eq_of_lt]
    exact lt_of_le_of_lt (Nat.sub_le _ _) startbit.isLt
  have empty : ∀ b, ¬ InNode { startbit := BitVec.ofNat 32 (startbit.toNat - startbit.toNat % ebitmapSize)
                               maps := Vector.replicate ebitmapUnitNums 0 } b := by
    intro b inside
    have set := inside.2.2
    rw [zero_bit] at set
    cases set
  unfold ebitmapReadNode at place
  cases nodes with
  | nil =>
    cases place
    exact ⟨start, by simp, .inr ⟨rfl, empty⟩⟩
  | cons m earlier =>
    have ordered := ok.1
    rw [List.reverse_cons, ascending_append] at ordered
    obtain ⟨ascending, behind, aligned, -⟩ := ordered
    dsimp only at place
    split at place
    · rename_i past
      cases place
      refine ⟨start, fun m' member => ?_, .inr ⟨rfl, empty⟩⟩
      have ends := ascending_end ok.1 (List.mem_reverse.mpr member)
      rw [List.reverse_cons, endOf_append] at ends
      change m'.startbit.toNat + ebitmapSize ≤ (BitVec.ofNat 32 _).toNat
      rw [start]
      unfold ebitmapSize at *
      omega
    · rename_i within
      split at place
      · cases place
      · rename_i after
        cases place
        have later : n.startbit.toNat < startbit.toNat := BitVec.not_le.mp after
        refine ⟨?_, fun m' member => ?_, .inl rfl⟩
        · unfold ebitmapSize at *
          omega
        · have ends := ascending_end ascending (List.mem_reverse.mpr member)
          omega

/-- One unit more. -/
theorem readUnit_gathered {highbit : U32} (ok : Below highbit.toNat nodes.reverse)
    (before : Gathered nodes units) (read : ebitmapReadUnit highbit nodes bytes = .ok (nodes', rest)) :
    ∃ u, nextUnit bytes = .ok (u, rest) ∧ Gathered nodes' (units ++ [u]) := by
  simp only [ebitmapReadUnit, ByteReader.bind_ok, ByteReader.require_ok, ByteReader.pure_ok,
    ByteReader.lift_ok] at read
  obtain ⟨startbit, mid, first, -, _, ⟨-, rfl⟩, -, _, ⟨-, rfl⟩, ⟨n, earlier⟩, _, ⟨place, rfl⟩, map, _,
    second, rfl, rfl⟩ := read
  refine ⟨(startbit, map), ?_, ?_⟩
  · simp only [nextUnit, ByteReader.bind_ok, ByteReader.pure_ok]
    exact ⟨startbit, _, first, map, _, second, rfl, rfl⟩
  dsimp only
  obtain ⟨start, apart, kept⟩ := readNode_cases ok place
  have block : blockOf (startbit, map) = n.startbit.toNat := start.symm
  have same := readMap_start n startbit map
  have here : ∀ m ∈ earlier, m ∈ nodes := by
    intro m member
    rcases kept with rfl | ⟨rfl, -⟩
    · exact List.mem_cons_of_mem _ member
    · exact member
  have used : (∃ b, InNode n b) ↔ ∃ u ∈ units, blockOf u = n.startbit.toNat ∧ u.2 ≠ 0 := by
    rcases kept with rfl | ⟨rfl, empty⟩
    · exact before.used n List.mem_cons_self
    · refine iff_of_false (fun ⟨b, inside⟩ => empty b inside) ?_
      rintro ⟨u, member, at', -⟩
      obtain ⟨m, found, there⟩ := before.placed u member
      have := apart m found
      unfold ebitmapSize at this
      omega
  refine ⟨fun m member => ?_, fun m member => ?_, fun u member => ?_, ?_⟩
  · rcases List.mem_cons.mp member with rfl | member
    · rw [readMap_used startbit map (by omega) (by unfold ebitmapSize at *; omega), same, used]
      simp only [List.mem_append, List.mem_singleton, or_and_right, exists_or, exists_eq_left, block,
        true_and]
    · rw [before.used m (here m member)]
      have other : blockOf (startbit, map) ≠ m.startbit.toNat := by
        have := apart m member
        unfold ebitmapSize at this
        omega
      simp only [List.mem_append, List.mem_singleton, or_and_right, exists_or, exists_eq_left, other,
        false_and, or_false]
  · rcases List.mem_cons.mp member with rfl | member
    · rw [same]
      exact ⟨(startbit, map), by simp, block⟩
    · obtain ⟨u, found, there⟩ := before.made m (here m member)
      exact ⟨u, List.mem_append_left _ found, there⟩
  · have placed : n.startbit.toNat = blockOf u ∨ ∃ m ∈ earlier, m.startbit.toNat = blockOf u := by
      rcases List.mem_append.mp member with old | new
      · obtain ⟨m, found, there⟩ := before.placed u old
        rcases kept with rfl | ⟨rfl, -⟩
        · rcases List.mem_cons.mp found with rfl | found
          · exact .inl there
          · exact .inr ⟨m, found, there⟩
        · exact .inr ⟨m, found, there⟩
      · rw [List.mem_singleton.mp new]
        exact .inl block.symm
    rcases placed with there | ⟨m, found, there⟩
    · exact ⟨_, List.mem_cons_self, by rw [same]; exact there⟩
    · exact ⟨m, List.mem_cons_of_mem _ found, there⟩
  · rw [List.head?_cons, List.getLast?_append_of_ne_nil _ (List.cons_ne_nil _ _)]
    simp only [Option.map_some, List.getLast?_singleton, same, block]

theorem ebitmapUnits_of_read (read : ebitmapRead bytes = .ok (e, rest)) :
    (∃ high, ebitmapUnits bytes = .ok ((high, []), rest) ∧ roundedHigh high = 0 ∧ e = ebitmapInit) ∨
      ∃ high units nodes, ebitmapUnits bytes = .ok ((high, units), rest) ∧ units ≠ [] ∧
        Below (roundedHigh high).toNat nodes.reverse ∧ Gathered nodes units ∧
        e = { node := nodes.reverse, highbit := roundedHigh high } := by
  simp only [ebitmapRead, ByteReader.bind_ok, ByteReader.require_ok] at read
  obtain ⟨mapunit, _, first, high, _, second, count, _, third, _, _, ⟨-, rfl⟩, read⟩ := read
  change (if roundedHigh high = 0 then _ else _ : PolicyReader Ebitmap) _ = _ at read
  split at read
  · rename_i zero
    obtain ⟨rfl, rfl⟩ := ByteReader.pure_ok.mp read
    refine .inl ⟨high, ?_, zero, rfl⟩
    simp only [ebitmapUnits, ByteReader.bind_ok]
    refine ⟨mapunit, _, first, high, _, second, count, _, third, ?_⟩
    rw [if_pos zero]
    exact ByteReader.pure_ok.mpr ⟨rfl, rfl⟩
  · rename_i nonzero
    simp only [ByteReader.bind_ok, ByteReader.require_ok, ByteReader.pure_ok] at read
    obtain ⟨_, _, ⟨some, rfl⟩, nodes, _, loop, rfl, rfl⟩ := read
    have start : Below (roundedHigh high).toNat ([] : List EbitmapNode).reverse :=
      ⟨trivial, Nat.zero_le _⟩
    obtain ⟨units, same, below, gathered⟩ := ByteReader.times_several
      (fun nodes units => Below (roundedHigh high).toNat nodes.reverse ∧ Gathered nodes units)
      (fun nodes bytes nodes' rest units before once => by
        obtain ⟨u, reads, after⟩ := readUnit_gathered before.1 before.2 once
        exact ⟨u, reads, readUnit_below (rounded_whole _) nonzero before.1 once, after⟩)
      ⟨start, gathered_nil⟩ loop
    rw [List.nil_append] at gathered
    have number := ByteReader.several_length same
    refine .inr ⟨high, units, nodes, ?_, ?_, below, gathered, rfl⟩
    · simp only [ebitmapUnits, ByteReader.bind_ok]
      refine ⟨mapunit, _, first, high, _, second, count, _, third, ?_⟩
      rw [if_neg nonzero]
      simp only [ByteReader.bind_ok, ByteReader.pure_ok]
      exact ⟨units, _, same, rfl, rfl⟩
    · rintro rfl
      exact some (BitVec.eq_of_toNat_eq number.symm)

theorem nodesFrom_of_ascending {low : Nat} (ok : Ascending low nodes)
    (used : ∀ n ∈ nodes, ∃ b, InNode n b) : NodesFrom low nodes := by
  induction nodes generalizing low with
  | nil => trivial
  | cons n rest ih =>
    obtain ⟨first, aligned, -, later⟩ := ok
    exact ⟨first, aligned, used n List.mem_cons_self,
      ih later fun m member => used m (List.mem_cons_of_mem n member)⟩

theorem nodesFrom_used {low : Nat} (ok : NodesFrom low nodes) (member : n ∈ nodes) :
    ∃ b, InNode n b := by
  induction nodes generalizing low with
  | nil => cases member
  | cons m rest ih =>
    rcases List.mem_cons.mp member with rfl | there
    · exact ok.2.2.1
    · exact ih ok.2.2.2 there

/-- The nodes of an image are canonical when each has a bit and the last ends at the high bit. -/
theorem gathered_canonical {high : U32} (below : Below high.toNat nodes.reverse)
    (gathered : Gathered nodes units) (some : units ≠ []) :
    Canonical { node := nodes.reverse, highbit := high } ↔
      (∀ u ∈ units, ∃ v ∈ units, blockOf v = blockOf u ∧ v.2 ≠ 0) ∧
        high.toNat = (units.getLast?.map fun u => blockOf u + ebitmapSize).getD 0 := by
  have nodesUsed : (∀ n ∈ nodes, ∃ b, InNode n b) ↔
      ∀ u ∈ units, ∃ v ∈ units, blockOf v = blockOf u ∧ v.2 ≠ 0 := by
    constructor
    · intro all u member
      obtain ⟨n, found, there⟩ := gathered.placed u member
      rw [← there]
      exact (gathered.used n found).mp (all n found)
    · intro all n member
      obtain ⟨u, found, there⟩ := gathered.made n member
      rw [gathered.used n member, ← there]
      exact all u found
  have ends : endOf 0 nodes.reverse =
      (units.getLast?.map fun u => blockOf u + ebitmapSize).getD 0 := by
    have last := gathered.last
    cases nodes with
    | nil =>
      rw [List.getLast?_eq_some_getLast some] at last
      cases last
    | cons n earlier =>
      rw [List.reverse_cons, endOf_append]
      rw [List.getLast?_eq_some_getLast some] at last ⊢
      simp only [List.head?_cons, Option.map_some, Option.some.injEq] at last
      simp only [Option.map_some, Option.getD_some, last]
  rw [← nodesUsed, ← ends]
  constructor
  · rintro ⟨ok, high⟩
    exact ⟨fun n member => nodesFrom_used ok (List.mem_reverse.mpr member), high⟩
  · rintro ⟨used, high⟩
    exact ⟨nodesFrom_of_ascending below.1 fun n member => used n (List.mem_reverse.mp member), high⟩

/-- An accepted image gives a canonical bitmap, and has units that ascend, when it is well formed. -/
theorem read_canonical_iff {high : U32} (read : ebitmapRead bytes = .ok (e, rest))
    (image : ebitmapUnits bytes = .ok ((high, units), rest)) :
    Canonical e ∧ (units.map fun u => u.1.toNat).Pairwise (· < ·) ↔ WellFormed high units := by
  rcases ebitmapUnits_of_read read with ⟨high', same, zero, rfl⟩ | ⟨high', units', nodes, same, some,
    below, gathered, rfl⟩
  · rw [same] at image
    cases image
    refine iff_of_true ⟨init_canonical, List.Pairwise.nil⟩ ⟨List.Pairwise.nil, by simp, ?_⟩
    rw [zero]
    rfl
  · rw [same] at image
    cases image
    rw [gathered_canonical below gathered some]
    constructor
    · rintro ⟨⟨used, reaches⟩, ascending⟩
      exact ⟨ascending, used, reaches⟩
    · intro ok
      exact ⟨⟨ok.used, ok.reaches⟩, ok.ascending⟩

/-- Well-formed images with the same bits give bitmaps that compare equal and have one hash. -/
theorem read_equal_iff {bytes' rest' : List U8} {e' : Ebitmap} {high high' : U32}
    {units' : List Unit64} (j : Jhash) (hash : U32)
    (read : ebitmapRead bytes = .ok (e, rest)) (read' : ebitmapRead bytes' = .ok (e', rest'))
    (image : ebitmapUnits bytes = .ok ((high, units), rest))
    (image' : ebitmapUnits bytes' = .ok ((high', units'), rest')) :
    (Canonical e ∧ (units.map fun u => u.1.toNat).Pairwise (· < ·) ↔ WellFormed high units) ∧
      (WellFormed high units → WellFormed high' units' →
        (ebitmapCmp e e' = true ∧ ebitmapHash j e hash = ebitmapHash j e' hash ↔
          ∀ b, InBitmap e b ↔ InBitmap e' b)) := by
  refine ⟨read_canonical_iff read image, fun ok ok' => ?_⟩
  have canonical := ((read_canonical_iff read image).mpr ok).1
  have canonical' := ((read_canonical_iff read' image').mpr ok').1
  rw [ebitmapCmp_iff]
  constructor
  · rintro ⟨rfl, -⟩ b
    exact Iff.rfl
  · intro same
    have equal := canonical_ext canonical canonical' same
    exact ⟨equal, by rw [equal]⟩

end Reading

section Images

/-- An image with bit 0 and a high bit of one unit. -/
def tightImage : List U8 :=
  cpuToLe32 64 ++ cpuToLe32 64 ++ cpuToLe32 1 ++ cpuToLe32 0 ++ cpuToLe64 1

/-- The same with a high bit in the second node. -/
def inflatedImage : List U8 :=
  cpuToLe32 64 ++ cpuToLe32 448 ++ cpuToLe32 1 ++ cpuToLe32 0 ++ cpuToLe64 1

/-- A hash for examples. -/
def plainJhash : Jhash where
  words3 a b c hash := a + b + c + hash
  words2 a b hash := a + b + hash
  word1 a hash := a + hash
  maps v hash := (v.getD 0 0).truncate 32 + hash
  fullName _ := 0
  hashMin hash := hash.toNat

theorem tight_wellFormed : WellFormed 64 [(0, 1)] where
  ascending := by decide
  used := by
    intro u member
    cases List.mem_singleton.mp member
    exact ⟨(0, 1), List.mem_cons_self, rfl, by decide⟩
  reaches := by decide

theorem read_equal_iff_tight :
    ∃ e, ebitmapRead tightImage = .ok (e, []) ∧
      (ebitmapCmp e e = true ∧ ebitmapHash plainJhash e 0 = ebitmapHash plainJhash e 0 ↔
        ∀ b, InBitmap e b ↔ InBitmap e b) :=
  ⟨_, rfl, (@read_equal_iff tightImage [] _ [(0, 1)] tightImage [] _ 64 64 [(0, 1)] plainJhash 0 rfl rfl
    rfl rfl).2 tight_wellFormed tight_wellFormed⟩

/-- Two accepted images with the same bits whose bitmaps do not compare equal. -/
theorem same_bits_differ :
    ∃ e e', ebitmapRead tightImage = .ok (e, []) ∧ ebitmapRead inflatedImage = .ok (e', []) ∧
      (∀ b, InBitmap e b ↔ InBitmap e' b) ∧ ebitmapCmp e e' = false ∧ ¬ Canonical e' := by
  refine ⟨_, _, rfl, rfl, fun b => Iff.rfl, rfl, fun ok => ?_⟩
  exact absurd ok.high (by decide)

end Images

end Ksrc.Guarantees.EbitmapStreams

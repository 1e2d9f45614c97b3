import Ksrc.Source.Security
import Mathlib.Data.List.Range

/-!
# Extensible bitmaps

Source: `security/selinux/ss/ebitmap.h`, `ebitmap.c`. A bitmap is a list of nodes
of six 64-bit words with ascending start bits. Node sizes are those of a 64-bit
kernel.
-/
namespace Ksrc.Source

def ebitmapUnitNums : Nat := 6
def ebitmapUnitSize : Nat := 64
def ebitmapSize : Nat := 384

structure EbitmapNode where
  startbit : U32
  maps : Vector U64 ebitmapUnitNums
  deriving DecidableEq, Repr

/-- `struct ebitmap`; `highbit` is the first bit past the bitmap. -/
structure Ebitmap where
  node : List EbitmapNode
  highbit : U32
  deriving DecidableEq, Repr

/-- `ebitmap_init`. -/
def ebitmapInit : Ebitmap := { node := [], highbit := 0 }

/-- The two-list walk of `ebitmap_cmp`: both must end together. -/
def ebitmapCmpNodes : List EbitmapNode → List EbitmapNode → Bool
  | n1 :: rest1, n2 :: rest2 =>
    if n1.startbit = n2.startbit ∧ n1.maps = n2.maps then ebitmapCmpNodes rest1 rest2 else false
  | [], [] => true
  | _, _ => false

/-- `ebitmap_cmp`. -/
def ebitmapCmp (e1 e2 : Ebitmap) : Bool :=
  if e1.highbit ≠ e2.highbit then false else ebitmapCmpNodes e1.node e2.node

theorem ebitmapCmpNodes_iff (n1 n2 : List EbitmapNode) : ebitmapCmpNodes n1 n2 = true ↔ n1 = n2 := by
  induction n1 generalizing n2 with
  | nil => cases n2 <;> simp [ebitmapCmpNodes]
  | cons a rest ih =>
    cases n2 with
    | nil => simp [ebitmapCmpNodes]
    | cons b rest' =>
      rw [ebitmapCmpNodes]
      split
      · rename_i same
        have equal : a = b := by
          cases a
          cases b
          simp_all
        rw [ih, equal, List.cons.injEq]
        simp
      · rename_i differs
        simp only [Bool.false_eq_true, List.cons.injEq, false_iff, not_and]
        rintro rfl
        exact absurd ⟨rfl, rfl⟩ differs

/-- Two bitmaps compare equal only when they are the same lists of nodes. -/
theorem ebitmapCmp_iff (e1 e2 : Ebitmap) : ebitmapCmp e1 e2 = true ↔ e1 = e2 := by
  cases e1
  cases e2
  simp only [ebitmapCmp, Ebitmap.mk.injEq]
  split
  · rename_i differs
    simp [differs]
  · rename_i same
    rw [ebitmapCmpNodes_iff]
    simp_all

namespace EbitmapNode

/-- Bit `ofs` of the node, counted from its start bit. -/
def bit (n : EbitmapNode) (ofs : Nat) : Bool :=
  if h : ofs / ebitmapUnitSize < ebitmapUnitNums then
    (n.maps[ofs / ebitmapUnitSize]).getLsbD (ofs % ebitmapUnitSize)
  else false

end EbitmapNode

/-- The node walk of `ebitmap_get_bit`. -/
def ebitmapGetBitNodes : List EbitmapNode → Nat → Bool
  | [], _ => false
  | n :: rest, bit =>
    if n.startbit.toNat ≤ bit then
      if bit < n.startbit.toNat + ebitmapSize then n.bit (bit - n.startbit.toNat)
      else ebitmapGetBitNodes rest bit
    else false

/-- `ebitmap_get_bit`. -/
def ebitmapGetBit (e : Ebitmap) (bit : Nat) : Bool :=
  if e.highbit.toNat < bit then false else ebitmapGetBitNodes e.node bit

/-- The bits `ebitmap_for_each_positive_bit` visits, in its order: the set bits of
each node, up to the first one that is not below `highbit`. -/
def ebitmapPositiveBits (e : Ebitmap) : List U32 :=
  (e.node.flatMap fun n => ((List.range ebitmapSize).filter n.bit).map
    fun ofs => n.startbit + BitVec.ofNat 32 ofs).takeWhile (· < e.highbit)

namespace EbitmapNode

/-- `ebitmap_node_set_bit`, with the bit counted from the start bit. -/
def setBit (n : EbitmapNode) (ofs : Nat) : EbitmapNode :=
  let map := n.maps.getD (ofs / ebitmapUnitSize) 0 ||| 1#64 <<< (ofs % ebitmapUnitSize)
  { n with maps := n.maps.setIfInBounds (ofs / ebitmapUnitSize) map }

/-- `ebitmap_node_clr_bit`. -/
def clrBit (n : EbitmapNode) (ofs : Nat) : EbitmapNode :=
  let map := n.maps.getD (ofs / ebitmapUnitSize) 0 &&& ~~~(1#64 <<< (ofs % ebitmapUnitSize))
  { n with maps := n.maps.setIfInBounds (ofs / ebitmapUnitSize) map }

/-- The highest set bit of the node, which `__fls` finds in its last map that is not 0. -/
def lastBit (n : EbitmapNode) : Option Nat := (List.range ebitmapSize).reverse.find? n.bit

end EbitmapNode

/-- The node that `ebitmap_set_bit` adds for a bit. -/
def ebitmapNewNode (bit : Nat) : EbitmapNode :=
  EbitmapNode.setBit { startbit := BitVec.ofNat 32 (bit - bit % ebitmapSize)
                       maps := Vector.replicate ebitmapUnitNums 0 } (bit % ebitmapSize)

/-- The node walk of `ebitmap_set_bit` with a true value; the flag tells that a node was
added behind all others. -/
def ebitmapSetBitNodes (bit : Nat) : List EbitmapNode → List EbitmapNode × Bool
  | [] => ([ebitmapNewNode bit], true)
  | n :: rest =>
    if n.startbit.toNat ≤ bit then
      if bit < n.startbit.toNat + ebitmapSize then (n.setBit (bit - n.startbit.toNat) :: rest, false)
      else
        let (nodes, last) := ebitmapSetBitNodes bit rest
        (n :: nodes, last)
    else (ebitmapNewNode bit :: n :: rest, false)

/-- The node walk with a false value; the flag tells that the last node was dropped, and
the start bit is that of the node before it. -/
def ebitmapClrBitNodes (bit : Nat) :
    Option U32 → List EbitmapNode → List EbitmapNode × Option (Option U32)
  | _, [] => ([], none)
  | prev, n :: rest =>
    if n.startbit.toNat ≤ bit then
      if bit < n.startbit.toNat + ebitmapSize then
        let n := n.clrBit (bit - n.startbit.toNat)
        if n.lastBit.isSome then (n :: rest, none)
        else (rest, if rest.isEmpty then some prev else none)
      else
        let (nodes, dropped) := ebitmapClrBitNodes bit (some n.startbit) rest
        (n :: nodes, dropped)
    else (n :: rest, none)

/-- `ebitmap_set_bit`. -/
def ebitmapSetBit (e : Ebitmap) (bit : Nat) (value : Bool) : Ebitmap :=
  if value then
    let (node, last) := ebitmapSetBitNodes bit e.node
    { node
      highbit := if last then BitVec.ofNat 32 (bit - bit % ebitmapSize + ebitmapSize)
        else e.highbit }
  else
    match ebitmapClrBitNodes bit none e.node with
    | (node, none) => { node, highbit := e.highbit }
    | (node, some none) => { node, highbit := 0 }
    | (node, some (some prev)) =>
      { node, highbit := BitVec.ofNat 32 (prev.toNat + ebitmapSize) }

/-- The two-list walk of `ebitmap_contains`. -/
def ebitmapContainsNodes (lastE2bit : U32) : List EbitmapNode → List EbitmapNode → Bool
  | n1 :: rest1, n2 :: rest2 =>
    if n1.startbit < n2.startbit then ebitmapContainsNodes lastE2bit rest1 (n2 :: rest2)
    else if n1.startbit ≠ n2.startbit then false
    else
      match n2.lastBit with
      | none => ebitmapContainsNodes lastE2bit rest1 rest2
      | some ofs =>
        if lastE2bit ≠ 0 ∧ lastE2bit < n2.startbit + BitVec.ofNat 32 ofs then false
        else if (List.range ebitmapUnitNums).all fun i =>
            n1.maps.getD i 0 &&& n2.maps.getD i 0 == n2.maps.getD i 0 then
          ebitmapContainsNodes lastE2bit rest1 rest2
        else false
  | _, [] => true
  | [], _ :: _ => false

/-- `ebitmap_contains`. -/
def ebitmapContains (e1 e2 : Ebitmap) (lastE2bit : U32) : Bool :=
  if e1.highbit < e2.highbit then false else ebitmapContainsNodes lastE2bit e1.node e2.node

end Ksrc.Source

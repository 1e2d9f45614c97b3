import Ksrc.Source.Ebitmap

/-!
# Operations on extensible bitmaps

Source: `security/selinux/ss/ebitmap.c` (`ebitmap_cpy`, `ebitmap_and`, `ebitmap_set_bit`),
`ebitmap.h` (`ebitmap_start_positive`, `ebitmap_next_positive`), on a 64-bit kernel.

A function that takes nodes from `kmem_cache_zalloc` returns its error, if there is one, and the bitmap
it leaves.
-/
namespace Ksrc.Source

/-- Whether the node walk of `ebitmap_set_bit` finds a node with room for the bit. -/
def ebitmapHasNode (bit : Nat) : List EbitmapNode → Bool
  | [] => false
  | n :: rest =>
    if n.startbit.toNat ≤ bit then
      if bit < n.startbit.toNat + ebitmapSize then true else ebitmapHasNode bit rest
    else false

/-- `ebitmap_set_bit`; `alloc` tells whether a node can be allocated. -/
def ebitmapSetBitAlloc (alloc : Bool) (e : Ebitmap) (bit : Nat) (value : Bool) :
    Option Errno × Ebitmap :=
  if value ∧ ¬ ebitmapHasNode bit e.node ∧ ¬ alloc then (some .ENOMEM, e)
  else (none, ebitmapSetBit e bit value)

/-- The loop of `ebitmap_cpy`; `alloc k` tells whether allocation `k` succeeds. -/
def ebitmapCpyNodes (alloc : Nat → Bool) : Nat → List EbitmapNode → Option (List EbitmapNode)
  | _, [] => some []
  | k, n :: rest =>
    if alloc k then
      (ebitmapCpyNodes alloc (k + 1) rest).map ({ startbit := n.startbit, maps := n.maps } :: ·)
    else none

/-- `ebitmap_cpy`: what it leaves in `dst`. -/
def ebitmapCpy (alloc : Nat → Bool) (src : Ebitmap) : Option Errno × Ebitmap :=
  match ebitmapCpyNodes alloc 0 src.node with
  | none => (some .ENOMEM, ebitmapInit)
  | some node => (none, { node, highbit := src.highbit })

/-- An `int` where an `unsigned long` is asked for. -/
def intToLong (bit : U32) : Nat := (bit.signExtend 64).toNat

/-- The loop of `ebitmap_and`; `alloc k` is for the bit it visits as number `k`. -/
def ebitmapAndBits (alloc : Nat → Bool) (e2 : Ebitmap) :
    Nat → List U32 → Ebitmap → Option Errno × Ebitmap
  | _, [], dst => (none, dst)
  | k, bit :: rest, dst =>
    if ebitmapGetBit e2 (intToLong bit) then
      match ebitmapSetBitAlloc (alloc k) dst (intToLong bit) true with
      | (some rc, dst) => (some rc, dst)
      | (none, dst) => ebitmapAndBits alloc e2 (k + 1) rest dst
    else ebitmapAndBits alloc e2 (k + 1) rest dst

/-- `ebitmap_and`: what it leaves in `dst`. -/
def ebitmapAnd (alloc : Nat → Bool) (e1 e2 : Ebitmap) : Option Errno × Ebitmap :=
  ebitmapAndBits alloc e2 0 (ebitmapPositiveBits e1) ebitmapInit

namespace EbitmapNode

/-- `find_next_bit(n->maps, EBITMAP_SIZE, ofs)`, `none` for `EBITMAP_SIZE`. -/
def findNextBit (n : EbitmapNode) (ofs : Nat) : Option Nat :=
  (List.range ebitmapSize).find? fun i => ofs ≤ i ∧ n.bit i

end EbitmapNode

/-- The node loop that `ebitmap_start_positive` and `ebitmap_next_positive` share: a bit, and the list
from its node on. -/
def ebitmapFirstPositive (e : Ebitmap) : List EbitmapNode → U32 × List EbitmapNode
  | [] => (e.highbit, [])
  | n :: rest =>
    match n.findNextBit 0 with
    | some ofs => (n.startbit + BitVec.ofNat 32 ofs, n :: rest)
    | none => ebitmapFirstPositive e rest

/-- `ebitmap_start_positive`. -/
def ebitmapStartPositive (e : Ebitmap) : U32 × List EbitmapNode := ebitmapFirstPositive e e.node

/-- `ebitmap_next_positive`, from the node of the bit. -/
def ebitmapNextPositive (e : Ebitmap) (n : List EbitmapNode) (bit : U32) :
    U32 × List EbitmapNode :=
  match n with
  | [] => (e.highbit, [])
  | n :: rest =>
    match n.findNextBit (bit - n.startbit + 1).toNat with
    | some ofs => (BitVec.ofNat 32 ofs + n.startbit, n :: rest)
    | none => ebitmapFirstPositive e rest

/-- The bits for which `ebitmap_for_each_positive_bit` runs its body, from a bit on, in at most `fuel`
tests of the loop. -/
def ebitmapForEachPositive (e : Ebitmap) : Nat → U32 × List EbitmapNode → Option (List U32)
  | 0, _ => none
  | fuel + 1, (bit, n) =>
    if bit < e.highbit then
      (ebitmapForEachPositive e fuel (ebitmapNextPositive e n bit)).map (bit :: ·)
    else some []

end Ksrc.Source

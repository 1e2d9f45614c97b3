import Ksrc.Source.EbitmapFile

/-!
# Bitmaps on kernels of either word size

Source: `security/selinux/ss/ebitmap.h`, `ebitmap.c` (`ebitmap_cmp`, `ebitmap_read`,
`ebitmap_write`).

The nodes of a bitmap are made of `unsigned long`s, of 64 or of 32 bits, while a policy file has units
of 64 bits. The functions of `Source.Ebitmap` and `Source.EbitmapFile` are those of a 64-bit kernel.
-/
namespace Ksrc.Source

open Library

/-- The kernels: without and with `CONFIG_64BIT`. -/
inductive WordSize where
  | word32 | word64
  deriving DecidableEq, Repr

namespace WordSize

/-- `BITS_PER_LONG`, which is `EBITMAP_UNIT_SIZE`. -/
def unitSize : WordSize → Nat
  | word32 => 32
  | word64 => 64

/-- `EBITMAP_NODE_SIZE`, in bytes. -/
def nodeSize : WordSize → Nat
  | word32 => 32
  | word64 => 64

/-- `EBITMAP_UNIT_NUMS`: the words that a pointer and a `u32` leave of a node. -/
def unitNums (w : WordSize) : Nat := (w.nodeSize - w.unitSize / 8 - 4) / (w.unitSize / 8)

/-- `EBITMAP_SIZE`. -/
def size (w : WordSize) : Nat := w.unitNums * w.unitSize

end WordSize

/-- `struct ebitmap_node`. -/
structure WordNode (w : WordSize) where
  startbit : U32
  maps : Vector (BitVec w.unitSize) w.unitNums
  deriving DecidableEq

/-- `struct ebitmap`. -/
structure WordBitmap (w : WordSize) where
  node : List (WordNode w)
  highbit : U32
  deriving DecidableEq

namespace WordNode

variable {w : WordSize}

/-- Bit `ofs` of the node, counted from its start bit. -/
def bit (n : WordNode w) (ofs : Nat) : Bool := (n.maps.getD (ofs / w.unitSize) 0).getLsbD (ofs % w.unitSize)

/-- `n->startbit + EBITMAP_SIZE`, which has the width of a `size_t`. -/
def stop (n : WordNode w) : Nat := (n.startbit.toNat + w.size) % 2 ^ w.unitSize

end WordNode

namespace WordBitmap

variable {w : WordSize}

/-- The two-list walk of `ebitmap_cmp`. -/
def cmpNodes : List (WordNode w) → List (WordNode w) → Bool
  | n1 :: rest1, n2 :: rest2 =>
    if n1.startbit = n2.startbit ∧ n1.maps = n2.maps then cmpNodes rest1 rest2 else false
  | [], [] => true
  | _, _ => false

/-- `ebitmap_cmp`. -/
def cmp (e1 e2 : WordBitmap w) : Bool :=
  if e1.highbit ≠ e2.highbit then false else cmpNodes e1.node e2.node

/-- The bits `ebitmap_for_each_positive_bit` visits, in its order. -/
def positiveBits (e : WordBitmap w) : List U32 :=
  (e.node.flatMap fun n => ((List.range w.size).filter n.bit).map
    fun ofs => n.startbit + BitVec.ofNat 32 ofs).takeWhile (· < e.highbit)

/-- `ebitmap_write`. -/
def write (e : WordBitmap w) : PolicyWriter :=
  let bits := e.positiveBits
  let (count, lastBit) := ebitmapWriteCount bits (-1) (0, 0)
  ByteWriter.seq [putU32 64, putU32 lastBit, putU32 count,
    ByteWriter.each (fun unit => ByteWriter.seq [putU32 unit.1, putU64 unit.2])
      (ebitmapWriteUnits bits 0 intMin)]

/-- The node a unit of the file goes to: `nodes` holds the nodes read so far, the last one in front. -/
def readNode (startbit : U32) (nodes : List (WordNode w)) :
    Except Fault (WordNode w × List (WordNode w)) :=
  let tmp : WordNode w :=
    { startbit := BitVec.ofNat 32 (startbit.toNat - startbit.toNat % w.size)
      maps := Vector.replicate w.unitNums 0 }
  match nodes with
  | [] => .ok (tmp, [])
  | n :: rest =>
    if n.stop ≤ startbit.toNat then .ok (tmp, n :: rest)
    else if startbit ≤ n.startbit then .error einval
    else .ok (n, rest)

/-- `while (map) { n->maps[index++] = map & (-1UL); map = EBITMAP_SHIFT_UNIT_SIZE(map); }`, in at most
`fuel` rounds. A map of 64 bits is used up after two. -/
def storeMap : Nat → Vector (BitVec w.unitSize) w.unitNums → Nat → U64 →
    Vector (BitVec w.unitSize) w.unitNums
  | 0, maps, _, _ => maps
  | fuel + 1, maps, index, map =>
    if map = 0 then maps
    else storeMap fuel (maps.setIfInBounds index (map.truncate w.unitSize)) (index + 1)
      ((map >>> (w.unitSize / 2)) >>> (w.unitSize / 2))

/-- The map of a unit in its node. -/
def readMap (n : WordNode w) (startbit : U32) (map : U64) : WordNode w :=
  { n with maps := storeMap 2 n.maps ((startbit.toNat - n.startbit.toNat) / w.unitSize) map }

/-- One unit in the loop of `ebitmap_read`. -/
def readUnit (highbit : U32) (nodes : List (WordNode w)) : PolicyReader (List (WordNode w)) := do
  let startbit ← nextU32
  ByteReader.require einval (startbit &&& 63 = 0)
  ByteReader.require einval (startbit ≤ highbit - 64)
  let (n, rest) ← ByteReader.lift (readNode startbit nodes)
  let map ← nextU64
  pure (readMap n startbit map :: rest)

/-- `ebitmap_read`. -/
def read (w : WordSize) : PolicyReader (WordBitmap w) := do
  let mapunit ← nextU32
  let high ← nextU32
  let count ← nextU32
  ByteReader.require einval (mapunit = 64)
  -- round up, in 32 bits
  let high := BitVec.ofNat 32 (high.toNat + (w.size - 1))
  let highbit := BitVec.ofNat 32 (high.toNat - high.toNat % w.size)
  if highbit = 0 then pure { node := [], highbit := 0 }
  else do
    ByteReader.require einval (count ≠ 0)
    let nodes ← ByteReader.times (readUnit highbit) count.toNat []
    pure { node := nodes.reverse, highbit }

end WordBitmap

end Ksrc.Source

import Ksrc.Source.Ebitmap
import Ksrc.Source.PolicyFile

/-!
# Extensible bitmaps in policy files

Source: `security/selinux/ss/ebitmap.c` (`ebitmap_read`, `ebitmap_write`), on a 64-bit
kernel.
-/
namespace Ksrc.Source

open Library

/-- The node a unit of the file goes to: `nodes` holds the nodes read so far, the last one
in front. -/
def ebitmapReadNode (startbit : U32) (nodes : List EbitmapNode) :
    Except Fault (EbitmapNode × List EbitmapNode) :=
  let tmp : EbitmapNode :=
    { startbit := BitVec.ofNat 32 (startbit.toNat - startbit.toNat % ebitmapSize)
      maps := Vector.replicate ebitmapUnitNums 0 }
  match nodes with
  | [] => .ok (tmp, [])
  | n :: rest =>
    if n.startbit.toNat + ebitmapSize ≤ startbit.toNat then .ok (tmp, n :: rest)
    else if startbit ≤ n.startbit then .error einval
    else .ok (n, rest)

/-- `n->maps[index] = map` unless the map is 0. -/
def ebitmapReadMap (n : EbitmapNode) (startbit : U32) (map : U64) : EbitmapNode :=
  if map = 0 then n
  else
    let index := (startbit.toNat - n.startbit.toNat) / ebitmapUnitSize
    { n with maps := n.maps.setIfInBounds index map }

/-- One unit in the loop of `ebitmap_read`. -/
def ebitmapReadUnit (highbit : U32) (nodes : List EbitmapNode) :
    PolicyReader (List EbitmapNode) := do
  let startbit ← nextU32
  ByteReader.require einval (startbit &&& 63 = 0)
  ByteReader.require einval (startbit ≤ highbit - 64)
  let (n, rest) ← ByteReader.lift (ebitmapReadNode startbit nodes)
  let map ← nextU64
  pure (ebitmapReadMap n startbit map :: rest)

/-- `ebitmap_read`. -/
def ebitmapRead : PolicyReader Ebitmap := do
  let mapunit ← nextU32
  let high ← nextU32
  let count ← nextU32
  ByteReader.require einval (mapunit = 64)
  -- round up, in 32 bits
  let high := BitVec.ofNat 32 (high.toNat + (ebitmapSize - 1))
  let highbit := BitVec.ofNat 32 (high.toNat - high.toNat % ebitmapSize)
  if highbit = 0 then pure { node := [], highbit := 0 }
  else do
    ByteReader.require einval (count ≠ 0)
    let nodes ← ByteReader.times (ebitmapReadUnit highbit) count.toNat []
    pure { node := nodes.reverse, highbit }

/-- `rounddown(bit, (int)BITS_PER_U64)`: the remainder has the sign of the bit. -/
def rounddownInt (bit : Int) : Int := bit - bit.tmod 64

/-- `rounddown(bit, BITS_PER_U64)` stored in an `int`. -/
def rounddownU64 (bit : Int) : Int := bit - bit % 64

/-- `roundup(bit + 1, BITS_PER_U64)` as the `u32` it is written as. -/
def lastBitOf (bit : U32) : U32 := (bit + 64) &&& ~~~63

/-- The first loop of `ebitmap_write`: the units it counts and the last bit. -/
def ebitmapWriteCount : List U32 → Int → U32 × U32 → U32 × U32
  | [], _, result => result
  | bit :: rest, lastStartbit, (count, _) =>
    if lastStartbit < rounddownInt bit.toInt then
      ebitmapWriteCount rest (rounddownU64 bit.toInt) (count + 1, lastBitOf bit)
    else ebitmapWriteCount rest lastStartbit (count, lastBitOf bit)

/-- The second loop of `ebitmap_write`: the units it writes. The shift is by less than 64
for the bits of one unit; other shifts are undefined. -/
def ebitmapWriteUnits : List U32 → U64 → Int → List (U32 × U64)
  | [], map, lastStartbit => if map = 0 then [] else [(BitVec.ofInt 32 lastStartbit, map)]
  | bit :: rest, map, lastStartbit =>
    if lastStartbit < rounddownInt bit.toInt then
      let start := rounddownU64 bit.toInt
      let first := 1#64 <<< (bit.toInt - start).toNat
      if map = 0 then ebitmapWriteUnits rest first start
      else (BitVec.ofInt 32 lastStartbit, map) :: ebitmapWriteUnits rest first start
    else ebitmapWriteUnits rest (map ||| 1#64 <<< (bit.toInt - lastStartbit).toNat) lastStartbit

/-- `INT_MIN`. -/
def intMin : Int := -2147483648

/-- `ebitmap_write`. -/
def ebitmapWrite (e : Ebitmap) : PolicyWriter :=
  let bits := ebitmapPositiveBits e
  let (count, lastBit) := ebitmapWriteCount bits (-1) (0, 0)
  ByteWriter.seq [putU32 64, putU32 lastBit, putU32 count,
    ByteWriter.each (fun unit => ByteWriter.seq [putU32 unit.1, putU64 unit.2])
      (ebitmapWriteUnits bits 0 intMin)]

end Ksrc.Source

import Ksrc.Library.ByteStream
import Ksrc.Source.Security

/-!
# Policy files

Source: `security/selinux/ss/policydb.h` (`next_entry`, `put_entry`),
`security/selinux/ss/policydb.c` (`str_read`), and the `le16_to_cpu`, `le32_to_cpu`,
`le64_to_cpu`, `be64_to_cpu`, `strcmp` they are used with.

A `next_entry` of several words is read word by word, a `put_entry` written so; short of
bytes or room both ways end in `-EINVAL`. Allocations succeed: what is modelled accepts
every image the code can accept.
-/
namespace Ksrc.Source

open Library

/-- How a policy function fails: an error number, or a `BUG()` or a dereference of a
pointer that is `NULL` or outside its array. -/
inductive Fault where
  | err (e : Errno)
  | oops
  deriving DecidableEq, Repr

abbrev PolicyReader := ByteReader Fault
abbrev PolicyWriter := ByteWriter Fault

def einval : Fault := .err .EINVAL

/-- A C string: its bytes up to the terminator. -/
abbrev Name := List U8

/-- The C string of characters in the source. -/
def cstr (chars : List Char) : Name := chars.map fun c => BitVec.ofNat 8 c.toNat

/-- What a zero-terminated buffer holds as a string. -/
def cString (buf : List U8) : Name := buf.takeWhile (· ≠ 0)

/-- `strcmp`, on strings without their terminators. -/
def strcmp : Name → Name → Int
  | [], [] => 0
  | [], _ :: _ => -1
  | _ :: _, [] => 1
  | a :: as, b :: bs => if a = b then strcmp as bs else if a.toNat < b.toNat then -1 else 1

/-- `le16_to_cpu`. -/
def le16ToCpu : List U8 → U16
  | [b0, b1] => b1 ++ b0
  | _ => 0

/-- `le32_to_cpu`. -/
def le32ToCpu : List U8 → U32
  | [b0, b1, b2, b3] => b3 ++ b2 ++ b1 ++ b0
  | _ => 0

/-- `le64_to_cpu`. -/
def le64ToCpu : List U8 → U64
  | [b0, b1, b2, b3, b4, b5, b6, b7] => b7 ++ b6 ++ b5 ++ b4 ++ b3 ++ b2 ++ b1 ++ b0
  | _ => 0

/-- `cpu_to_le16`. -/
def cpuToLe16 (x : U16) : List U8 := [x.extractLsb' 0 8, x.extractLsb' 8 8]

/-- `cpu_to_le32`. -/
def cpuToLe32 (x : U32) : List U8 :=
  [x.extractLsb' 0 8, x.extractLsb' 8 8, x.extractLsb' 16 8, x.extractLsb' 24 8]

/-- `cpu_to_le64`. -/
def cpuToLe64 (x : U64) : List U8 :=
  [x.extractLsb' 0 8, x.extractLsb' 8 8, x.extractLsb' 16 8, x.extractLsb' 24 8,
    x.extractLsb' 32 8, x.extractLsb' 40 8, x.extractLsb' 48 8, x.extractLsb' 56 8]

/-- `next_entry`. -/
def nextEntry (bytes : Nat) : PolicyReader (List U8) := ByteReader.bytes einval bytes

/-- `put_entry`. -/
def putEntry (buf : List U8) : PolicyWriter := ByteWriter.put einval buf

/-- `next_entry` of a byte. -/
def nextU8 : PolicyReader U8 := do
  let buf ← nextEntry 1
  pure (buf.headD 0)

/-- `next_entry` of a `__le16`. -/
def nextU16 : PolicyReader U16 := do
  let buf ← nextEntry 2
  pure (le16ToCpu buf)

/-- `next_entry` of a `__le32`. -/
def nextU32 : PolicyReader U32 := do
  let buf ← nextEntry 4
  pure (le32ToCpu buf)

/-- `next_entry` of a `__le64`. -/
def nextU64 : PolicyReader U64 := do
  let buf ← nextEntry 8
  pure (le64ToCpu buf)

def putU16 (x : U16) : PolicyWriter := putEntry (cpuToLe16 x)
def putU32 (x : U32) : PolicyWriter := putEntry (cpuToLe32 x)
def putU64 (x : U64) : PolicyWriter := putEntry (cpuToLe64 x)

/-- `put_entry` of a count or length, as the `u32` it is cut to. -/
def putCount (n : Nat) : PolicyWriter := putU32 (BitVec.ofNat 32 n)

/-- `str_read`. -/
def strRead (len : U32) : PolicyReader Name :=
  if len = 0 ∨ len = 0xffffffff then ByteReader.fail einval
  else do
    let str ← nextEntry len.toNat
    pure (cString str)

section Words

theorem le32_roundtrip (x : U32) : le32ToCpu (cpuToLe32 x) = x := by
  apply BitVec.eq_of_getLsbD_eq
  intro i inside
  simp only [le32ToCpu, cpuToLe32, BitVec.getLsbD_append, BitVec.getLsbD_extractLsb']
  grind

theorem le64_roundtrip (x : U64) : le64ToCpu (cpuToLe64 x) = x := by
  apply BitVec.eq_of_getLsbD_eq
  intro i inside
  simp only [le64ToCpu, cpuToLe64, BitVec.getLsbD_append, BitVec.getLsbD_extractLsb']
  grind

end Words

end Ksrc.Source

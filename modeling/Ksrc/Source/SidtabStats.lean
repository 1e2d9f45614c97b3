import Ksrc.Source.Sidtab

/-!
# Sizes and statistics of the SID table

Source: `security/selinux/ss/sidtab.h` (the size macros) and `sidtab.c`
(`sidtab_hash_stats`). The kernel is built so that an `int` wraps around, hence the
counters are 32-bit words read as signed numbers.
-/
namespace Ksrc.Source

/-- `size_to_shift`. -/
def sizeToShift (size : Nat) : Nat := if size = 1 then 1 else Nat.log2 (size - 1) + 1

/-- `DIV_ROUND_UP`. -/
def divRoundUp (n d : Nat) : Nat := (n + d - 1) / d

def pageShift : Nat := 12

def sidtabMaxBits : Nat := 32

def sidtabMaxLevel : Nat :=
  divRoundUp (sidtabMaxBits - sizeToShift sidtabLeafEntries) sidtabInnerShift

-- A pointer has 8 bytes, a `struct sidtab_entry` has 104.
example : sidtabInnerShift = pageShift - sizeToShift 8 := by decide
example : sidtabLeafEntries = 2 ^ pageShift / 104 := by decide

/-- The chain of a bucket, newest node first. -/
def Sidtab.chain (s : Sidtab) (bucket : Nat) : List (Nat × EntryRef) :=
  s.contextToSid.filter fun node => node.1 == bucket

/-- The nodes in the order of `hash_for_each_rcu`, each with the index of its bucket. -/
def hashForEach (buckets : Nat) (s : Sidtab) : List (Nat × EntryRef) :=
  (List.range buckets).flatMap s.chain

/-- The counters of `sidtab_hash_stats`. -/
structure HashCounters where
  entries : U32
  slotsUsed : U32
  chainLen : U32
  maxChainLen : U32
  curBucket : Nat
  deriving DecidableEq, Repr

namespace HashCounters

def start : HashCounters :=
  { entries := 0, slotsUsed := 0, chainLen := 0, maxChainLen := 0, curBucket := 0 }

/-- `if (chain_len > max_chain_len) max_chain_len = chain_len;`. -/
def raise (c : HashCounters) : HashCounters :=
  if c.maxChainLen.slt c.chainLen then { c with maxChainLen := c.chainLen } else c

/-- The loop's body for an entry of bucket `i`. -/
def count (c : HashCounters) (i : Nat) : HashCounters :=
  let c := { c with entries := c.entries + 1 }
  if i = c.curBucket then
    let c := { c with chainLen := c.chainLen + 1 }
    if c.chainLen = 1 then { c with slotsUsed := c.slotsUsed + 1 } else c
  else { ({ c with curBucket := i }).raise with chainLen := 0 }

end HashCounters

/-- What `sidtab_hash_stats` prints, before it prints it. -/
def sidtabHashCounts (buckets : Nat) (s : Sidtab) : HashCounters :=
  let counted := (hashForEach buckets s).foldl (fun (c : HashCounters) node => c.count node.1)
    HashCounters.start
  counted.raise

/-- `scnprintf`: what fits into the buffer before the final NUL. -/
def scnprintf (size : Nat) (text : List Char) : List Char := text.take (size - 1)

/-- `sidtab_hash_stats`; the characters left in `page`, and the length returned. -/
def sidtabHashStats (buckets : Nat) (s : Sidtab) : List Char × Nat :=
  let c := sidtabHashCounts buckets s
  let page := scnprintf (2 ^ pageShift) <|
    "entries: ".toList ++ (toString c.entries.toInt).toList ++
    "\nbuckets used: ".toList ++ (toString c.slotsUsed.toInt).toList ++
    "/".toList ++ (toString buckets).toList ++
    "\nlongest chain: ".toList ++ (toString c.maxChainLen.toInt).toList ++ "\n".toList
  (page, page.length)

end Ksrc.Source

import Ksrc.Guarantees.EbitmapRoundTrip
import Ksrc.Guarantees.EbitmapWalks
import Ksrc.Library.Codecs
import Ksrc.Source.PolicydbWrite

/-!
# The words, names and levels of a policy file

Source: `security/selinux/ss/policydb.c` (`mls_write_level`, `mls_write_range_helper`, `context_write`
and the functions that read what these write), `policydb.h` (`put_entry`, `next_entry`).

A bitmap of a file may have nodes without bits, which its writer leaves out; so a bitmap is written as
the canonical one of its bits.
-/
namespace Ksrc.Guarantees.PolicyCodecs

open Library Source EbitmapBits EbitmapFiles

section Words

theorem takes_bytes {α : Type} (bytes : List U8) (f : List U8 → α) :
    ByteReader.Takes (nextEntry bytes.length >>= fun buf => pure (f buf)) bytes (f bytes) := by
  intro rest
  exact ByteReader.bind_ok.mpr ⟨bytes, rest, ByteReader.bytes_ok.mpr ⟨rfl, rfl⟩,
    ByteReader.pure_ok.mpr ⟨rfl, rfl⟩⟩

theorem le16_roundtrip (x : U16) : le16ToCpu (cpuToLe16 x) = x := by
  apply BitVec.eq_of_getLsbD_eq
  intro i inside
  simp only [le16ToCpu, cpuToLe16, BitVec.getLsbD_append, BitVec.getLsbD_extractLsb']
  grind

theorem u8_carries (x : U8) : Carries einval (putEntry [x]) nextU8 x :=
  .put (takes_bytes [x] fun buf => buf.headD 0)

theorem u16_carries (x : U16) : Carries einval (putU16 x) nextU16 x := by
  refine .put ?_
  have takes := takes_bytes (cpuToLe16 x) le16ToCpu
  rw [le16_roundtrip] at takes
  exact takes

theorem u32_carries (x : U32) : Carries einval (putU32 x) nextU32 x :=
  .put (EbitmapRoundTrip.nextU32_put x)

theorem be64_carries (x : U64) : Carries einval (putEntry (cpuToBe64 x)) nextBe64 x := by
  refine .put ?_
  have takes := takes_bytes (cpuToBe64 x) fun buf => le64ToCpu buf.reverse
  rw [cpuToBe64, List.reverse_reverse, le64_roundtrip] at takes
  exact takes

theorem truncate_zeroExtend {n : Nat} (short : n ≤ 32) (x : BitVec n) :
    (x.zeroExtend 32).truncate n = x := by
  apply BitVec.eq_of_toNat_eq
  have := x.isLt
  have power := Nat.pow_le_pow_right (Nat.two_pos) short
  simp only [BitVec.truncate_eq_setWidth, BitVec.toNat_setWidth]
  have whole : x.toNat % 2 ^ 32 = x.toNat := Nat.mod_eq_of_lt (by omega)
  rw [whole, Nat.mod_eq_of_lt x.isLt]

/-- A name that `str_read` gives of its own bytes. -/
structure Stored (name : Name) : Prop where
  some : name ≠ []
  clear : ∀ b ∈ name, b ≠ 0
  short : name.length < 0xffffffff

theorem name_carries {name : Name} (stored : Stored name) :
    Carries einval (putStr name) (strRead (BitVec.ofNat 32 name.length)) name := by
  have length : (BitVec.ofNat 32 name.length).toNat = name.length := by
    have := stored.short
    rw [BitVec.toNat_ofNat, Nat.mod_eq_of_lt (by omega)]
  have allowed : ¬ (BitVec.ofNat 32 name.length = 0 ∨ BitVec.ofNat 32 name.length = 0xffffffff) := by
    rintro (zero | all)
    · rw [zero] at length
      exact stored.some (List.length_eq_zero_iff.mp length.symm)
    · rw [all] at length
      have := stored.short
      change 4294967295 = name.length at length
      omega
  have whole : cString name = name :=
    List.takeWhile_eq_self_iff.mpr fun b member => decide_eq_true (stored.clear b member)
  refine .put ?_
  have takes := takes_bytes name cString
  rw [whole] at takes
  unfold strRead
  rw [if_neg allowed, length]
  exact takes

/-- What `str_read` gives is such a name, or empty. -/
theorem strRead_stored {len : U32} {s rest : List U8} {name : Name}
    (read : strRead len s = .ok (name, rest)) (some : name ≠ []) : Stored name := by
  unfold strRead at read
  split at read
  · exact absurd read ByteReader.fail_ok
  rename_i allowed
  obtain ⟨buf, _, taken, made⟩ := ByteReader.bind_ok.mp read
  obtain ⟨rfl, -⟩ := ByteReader.pure_ok.mp made
  obtain ⟨-, length⟩ := ByteReader.bytes_ok.mp taken
  refine ⟨some, fun b member => ?_, ?_⟩
  · unfold cString at member
    have nonzero := List.mem_takeWhile_imp member
    simpa using nonzero
  have shorter : (cString buf).length ≤ buf.length := (List.takeWhile_sublist _).length_le
  have most : len.toNat ≠ 0xffffffff := fun equal => allowed (.inr (BitVec.eq_of_toNat_eq equal))
  have := len.isLt
  omega

end Words

section Bitmaps

variable {e e' : Ebitmap}

/-- An `int` counts the bits, with a node to spare. -/
def Countable (e : Ebitmap) : Prop := ∀ b, InBitmap e b → b < 2 ^ 31 - ebitmapSize

theorem countable_of_high (built : Built e) (high : e.highbit.toNat ≤ 2 ^ 31 - ebitmapSize) : Countable e :=
  fun _ inside => Nat.lt_of_lt_of_le (built.upper inside) high

/-- The nodes of the 64-bit kernel, under the name of the word size. -/
def ofEbitmap (e : Ebitmap) : WordBitmap .word64 :=
  { node := e.node.map fun n => { startbit := n.startbit, maps := n.maps }, highbit := e.highbit }

theorem toEbitmap_ofEbitmap (e : Ebitmap) : EbitmapRoundTrip.toEbitmap (ofEbitmap e) = e := by
  unfold EbitmapRoundTrip.toEbitmap ofEbitmap
  rw [List.map_map]
  exact congrArg (fun node => ({ node, highbit := e.highbit } : Ebitmap)) (List.map_id e.node)

theorem toNode_has (n : WordNode .word64) (b : Nat) :
    InNode (EbitmapRoundTrip.toNode n) b ↔ (EbitmapRoundTrip.nodeKind .word64).Has n b := by
  have size : (EbitmapRoundTrip.nodeKind .word64).size = ebitmapSize := rfl
  unfold InNode BlockKind.Has
  rw [size]
  constructor
  · rintro ⟨lower, upper, set⟩
    have lower : n.startbit.toNat ≤ b := lower
    have upper : b < n.startbit.toNat + ebitmapSize := upper
    rw [EbitmapRoundTrip.toNode_bit n (by change b - n.startbit.toNat < _; omega)] at set
    exact ⟨lower, upper, set⟩
  · rintro ⟨lower, upper, set⟩
    have lower : n.startbit.toNat ≤ b := lower
    have upper : b < n.startbit.toNat + ebitmapSize := upper
    refine ⟨lower, upper, ?_⟩
    rw [EbitmapRoundTrip.toNode_bit n (by change b - n.startbit.toNat < _; omega)]
    exact set

theorem toEbitmap_bits (w : WordBitmap .word64) (b : Nat) :
    InBitmap (EbitmapRoundTrip.toEbitmap w) b ↔ EbitmapRoundTrip.InBitmap w b := by
  unfold InBitmap InNodes EbitmapRoundTrip.InBitmap BlockKind.HasAny EbitmapRoundTrip.toEbitmap
  simp only [List.mem_map, exists_exists_and_eq_and, toNode_has]

theorem toEbitmap_canonical {w : WordBitmap .word64} (ok : EbitmapRoundTrip.Canonical w) :
    Canonical (EbitmapRoundTrip.toEbitmap w) := by
  have nodes : ∀ {low : Nat} {list : List (WordNode .word64)},
      (EbitmapRoundTrip.nodeKind .word64).From low list →
        NodesFrom low (list.map EbitmapRoundTrip.toNode) ∧
          endOf low (list.map EbitmapRoundTrip.toNode) = (EbitmapRoundTrip.nodeKind .word64).stop low list := by
    intro low list from'
    induction list generalizing low with
    | nil => exact ⟨trivial, rfl⟩
    | cons n rest ih =>
      obtain ⟨first, aligned, ⟨b, has⟩, later⟩ := from'
      obtain ⟨ordered, ends⟩ := ih later
      exact ⟨⟨first, aligned, ⟨b, (toNode_has n b).mpr has⟩, ordered⟩, ends⟩
  obtain ⟨ordered, ends⟩ := nodes ok.nodes
  exact ⟨ordered, ok.high.trans ends.symm⟩

theorem ascending_sorted {low : Nat} {nodes : List EbitmapNode} (ok : Ascending low nodes) :
    ((nodes.flatMap nodeBits).map BitVec.toNat).Pairwise (· < ·) := by
  induction nodes generalizing low with
  | nil => exact List.Pairwise.nil
  | cons n rest ih =>
    obtain ⟨-, -, fits, later⟩ := ok
    rw [List.flatMap_cons, List.map_append, List.pairwise_append]
    refine ⟨nodeBits_sorted fits, ih later, fun a inN b inRest => ?_⟩
    have upper := ((mem_nodeBits fits a).mp inN).upper
    have lower := later.lower ((mem_flatMap_nodeBits later).mp inRest)
    omega

/-- What a bitmap is after it was written and read: the canonical one of its bits, which is written
in the same way. -/
structure Rewritten (e e' : Ebitmap) : Prop where
  canonical : Canonical e'
  bits : ∀ b, ebitmapGetBit e' b = ebitmapGetBit e b
  again : ebitmapWrite e' = ebitmapWrite e

theorem positiveBits_eq (built : Built e) (built' : Built e') (same : ∀ b, InBitmap e' b ↔ InBitmap e b) :
    ebitmapPositiveBits e' = ebitmapPositiveBits e := by
  have sorted : ∀ {e : Ebitmap}, Built e → ((ebitmapPositiveBits e).map BitVec.toNat).Pairwise (· < ·) := by
    intro e built
    rw [built.positiveBits]
    exact ascending_sorted built.nodes
  refine List.map_injective_iff.mpr (fun _ _ => BitVec.eq_of_toNat_eq) ?_
  refine List.Pairwise.eq_of_mem_iff (sorted built') (sorted built) fun b => ?_
  rw [built.positiveBits, built'.positiveBits, mem_flatMap_nodeBits built.nodes,
    mem_flatMap_nodeBits built'.nodes]
  exact same b

theorem bitmap_rewritten (built : Built e) (small : Countable e) :
    ∃ e', Rewritten e e' ∧ Carries einval (ebitmapWrite e) ebitmapRead e' := by
  have sorted : ((ebitmapPositiveBits e).map BitVec.toNat).Pairwise (· < ·) := by
    rw [built.positiveBits]
    exact ascending_sorted built.nodes
  have bits (b : Nat) : b ∈ (ebitmapPositiveBits e).map BitVec.toNat ↔ InBitmap e b := by
    rw [built.positiveBits]
    exact mem_flatMap_nodeBits built.nodes
  obtain ⟨ascending, has, lastBit, counted, last⟩ := EbitmapRoundTrip.written_all sorted
    fun b member => by
      have := small b.toNat ((bits _).mp (List.mem_map_of_mem member))
      omega
  obtain ⟨w, canonical, same, takes⟩ := EbitmapRoundTrip.read_written (w := .word64) ascending rfl last
    fun b inside => small b ((bits b).mp ((has b).mp inside))
  have canonical' := toEbitmap_canonical canonical
  have built' := EbitmapWalks.Canonical.built canonical'
  have same' : ∀ b, InBitmap (EbitmapRoundTrip.toEbitmap w) b ↔ InBitmap e b := fun b => by
    rw [toEbitmap_bits, same, has, bits]
  refine ⟨EbitmapRoundTrip.toEbitmap w, ⟨canonical', fun b => ?_, ?_⟩, ?_⟩
  · rw [Bool.eq_iff_iff, getBit_iff built', getBit_iff built, same']
  · unfold ebitmapWrite
    rw [positiveBits_eq built built' same']
  · have written := EbitmapRoundTrip.emits_write (ofEbitmap e)
    rw [← EbitmapRoundTrip.write_word64, toEbitmap_ofEbitmap] at written
    refine ⟨_, written, fun rest => ?_⟩
    have walk : (ofEbitmap e).positiveBits = ebitmapPositiveBits e := by
      rw [← EbitmapRoundTrip.toEbitmap_positiveBits, toEbitmap_ofEbitmap]
    rw [EbitmapRoundTrip.read_word64, EbitmapRoundTrip.bitmapBytes, walk, counted, takes rest]
    rfl

theorem bitmap_carries (ok : Canonical e) (small : Countable e) :
    Carries einval (ebitmapWrite e) ebitmapRead e := by
  have built := EbitmapWalks.Canonical.built ok
  obtain ⟨e', same, carried⟩ := bitmap_rewritten built small
  have equal : e' = e := canonical_ext same.canonical ok fun b => by
    rw [← getBit_iff built, ← getBit_iff (EbitmapWalks.Canonical.built same.canonical), same.bits]
  rw [equal] at carried
  exact carried

end Bitmaps

section Contexts

/-- Categories as the setters of the kernel leave them. -/
structure LevelStored (l : MlsLevel) : Prop where
  canonical : Canonical l.cat
  small : Countable l.cat

structure RangeStored (r : MlsRange) : Prop where
  low : LevelStored r.low
  high : LevelStored r.high

variable {p : Policydb} {c : Context} {r : MlsRange}

theorem cats_carry {l : MlsLevel} (ok : LevelStored l) :
    Carries einval (ebitmapWrite l.cat) ebitmapRead l.cat :=
  bitmap_carries ok.canonical ok.small

/-- A range is read back, from one level where the two are equal and from both otherwise. -/
theorem range_carries (ok : RangeStored r) :
    Carries einval (mlsWriteRangeHelper r) mlsReadRangeHelper r := by
  unfold mlsWriteRangeHelper mlsReadRangeHelper
  by_cases equal : mlsLevelEq r.high r.low = true
  · have single : r.high = r.low := by
      simp only [mlsLevelEq, Bool.and_eq_true, beq_iff_eq, ebitmapCmp_iff] at equal
      cases h : r.high
      cases l : r.low
      simp_all
    rw [if_pos equal]
    refine (u32_carries 1).cons (.require (by decide) ?_)
    rw [show (1 : U32).toNat = 0 + 1 from rfl, several_succ_bind]
    refine (u32_carries _).cons ?_
    rw [several_zero_bind]
    have whole : ({ low := ⟨r.low.sens, r.low.cat⟩, high := ⟨r.low.sens, r.low.cat⟩ } : MlsRange) = r := by
      cases r
      cases single
      rfl
    have carried := (cats_carry ok.low).last.map
      (g := fun cat => ({ low := ⟨r.low.sens, cat⟩, high := ⟨r.low.sens, cat⟩ } : MlsRange))
    rw [whole] at carried
    exact carried
  · rw [if_neg equal]
    refine (u32_carries 2).cons (.require (by decide) ?_)
    rw [show (2 : U32).toNat = 0 + 1 + 1 from rfl, several_succ_bind]
    refine (u32_carries _).cons ?_
    rw [several_succ_bind]
    refine (u32_carries _).cons ?_
    rw [several_zero_bind]
    refine (cats_carry ok.low).cons ?_
    exact (cats_carry ok.high).last.map
      (g := fun cat => ({ low := ⟨r.low.sens, r.low.cat⟩, high := ⟨r.high.sens, cat⟩ } : MlsRange))

/-- A context that is in a policy: valid there, mapped, and with a range that is read back. -/
structure ContextStored (p : Policydb) (c : Context) : Prop where
  mapped : c.str = none
  valid : policydbContextIsvalid p c = .ok true
  range : RangeStored c.range

theorem context_carries (mls : policydbVersionMls ≤ p.policyvers) (ok : ContextStored p c) :
    Carries einval (contextWrite c) (contextReadAndValidate p) c := by
  unfold contextWrite contextReadAndValidate
  refine (u32_carries _).cons ((u32_carries _).cons ((u32_carries _).cons ?_))
  rw [if_pos mls]
  have whole : ({ user := c.user, role := c.role, type := c.type, range := c.range, str := none } : Context) = c := by
    rw [← ok.mapped]
  have carried : Carries einval ByteWriter.skip
      (ByteReader.lift (policydbContextIsvalid p c) >>= fun valid =>
        ByteReader.require einval (valid = true) >>= fun _ => pure c) c :=
    .lift ok.valid (.require rfl (.pure c))
  refine (range_carries ok.range).cons ?_
  simp only [whole]
  exact carried

end Contexts

end Ksrc.Guarantees.PolicyCodecs

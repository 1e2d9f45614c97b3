import Ksrc.Library.BlockSets
import Ksrc.Source.EbitmapWords

/-!
# Bitmaps through a file

Source: `security/selinux/ss/ebitmap.c` (`ebitmap_write`, `ebitmap_read`), on kernels of either word
size.

The bits of a bitmap are regrouped into units of 64 by the writer, and those into nodes by the reader.
Nodes and units are blocks of a set of bits, and each pass keeps the set.
-/
namespace Ksrc.Guarantees.EbitmapRoundTrip

open Library Source

variable {w : WordSize}

/-- The sizes, for arithmetic. -/
theorem sizes (w : WordSize) :
    (w.unitSize = 32 ∧ w.unitNums = 6 ∧ w.size = 192) ∨ (w.unitSize = 64 ∧ w.unitNums = 6 ∧ w.size = 384) := by
  cases w with
  | word32 => exact .inl ⟨rfl, rfl, rfl⟩
  | word64 => exact .inr ⟨rfl, rfl, rfl⟩

theorem getD_eq_getElem {α : Type} {size : Nat} (v : Vector α size) {i : Nat} (inside : i < size) (d : α) :
    v.getD i d = v[i] := by
  unfold Vector.getD
  rw [Array.getD_eq_getD_getElem?, Vector.getElem?_toArray, Vector.getElem?_eq_getElem inside,
    Option.getD_some]

/-- The nodes as blocks. -/
def nodeKind (w : WordSize) : BlockKind (WordNode w) where
  size := w.size
  start n := n.startbit.toNat
  bit := WordNode.bit
  positive := by rcases sizes w with ⟨-, -, size⟩ | ⟨-, -, size⟩ <;> omega
  ext := by
    rintro ⟨startbit, maps⟩ ⟨startbit', maps'⟩ start same
    have equal : startbit = startbit' := BitVec.eq_of_toNat_eq start
    subst equal
    congr 1
    apply Vector.ext
    intro i inside
    apply BitVec.eq_of_getLsbD_eq
    intro k place
    have small : w.unitSize * i + k < w.size := by
      rcases sizes w with ⟨unit, nums, size⟩ | ⟨unit, nums, size⟩ <;> rw [unit] at place ⊢ <;> omega
    have word : (w.unitSize * i + k) / w.unitSize = i := by
      rw [Nat.mul_add_div (by omega), Nat.div_eq_of_lt place, Nat.add_zero]
    have offset : (w.unitSize * i + k) % w.unitSize = k := by
      rw [Nat.mul_add_mod, Nat.mod_eq_of_lt place]
    have here := same _ small
    unfold WordNode.bit at here
    rw [word, offset, getD_eq_getElem _ inside, getD_eq_getElem _ inside] at here
    exact here

/-- The units of a file as blocks. -/
def unitKind : BlockKind (U32 × U64) where
  size := 64
  start u := u.1.toNat
  bit u ofs := u.2.getLsbD ofs
  positive := by decide
  ext := by
    rintro ⟨start, map⟩ ⟨start', map'⟩ same bits
    rw [Prod.mk.injEq]
    exact ⟨BitVec.eq_of_toNat_eq same, BitVec.eq_of_getLsbD_eq bits⟩

/-- A bitmap as `ebitmap_set_bit` leaves it. -/
structure Canonical (e : WordBitmap w) : Prop where
  nodes : (nodeKind w).From 0 e.node
  high : e.highbit.toNat = (nodeKind w).stop 0 e.node

/-- The bits of a bitmap. -/
def InBitmap (e : WordBitmap w) (b : Nat) : Prop := (nodeKind w).HasAny e.node b

section Bitmaps

variable {e e' : WordBitmap w} {nodes : List (WordNode w)} {low : Nat}

theorem cmpNodes_refl (nodes : List (WordNode w)) : WordBitmap.cmpNodes nodes nodes = true := by
  induction nodes with
  | nil => rfl
  | cons n rest ih =>
    unfold WordBitmap.cmpNodes
    rw [if_pos ⟨rfl, rfl⟩]
    exact ih

theorem cmp_refl (e : WordBitmap w) : e.cmp e = true := by
  unfold WordBitmap.cmp
  rw [if_neg (not_not.mpr rfl)]
  exact cmpNodes_refl e.node

/-- A canonical bitmap is determined by its bits. -/
theorem canonical_ext (ok : Canonical e) (ok' : Canonical e')
    (same : ∀ b, InBitmap e b ↔ InBitmap e' b) : e = e' := by
  have nodes := ok.nodes.ext ok'.nodes same
  have high : e.highbit = e'.highbit := by
    apply BitVec.eq_of_toNat_eq
    rw [ok.high, ok'.high, nodes]
  cases e
  cases e'
  simp only at nodes high
  rw [nodes, high]

/-- The bits of the nodes, in words, are their numbers. -/
theorem nodeBits_toNat (ok : (nodeKind w).From low nodes) (fits : (nodeKind w).stop low nodes < 2 ^ 32) :
    (nodes.flatMap fun n => ((List.range w.size).filter n.bit).map
      fun ofs => n.startbit + BitVec.ofNat 32 ofs).map BitVec.toNat =
        nodes.flatMap (nodeKind w).members := by
  induction nodes generalizing low with
  | nil => rfl
  | cons n rest ih =>
    obtain ⟨-, -, -, later⟩ := ok
    have room : n.startbit.toNat + w.size < 2 ^ 32 := lt_of_le_of_lt later.le_stop fits
    rw [List.flatMap_cons, List.flatMap_cons, List.map_append, ih later fits, List.map_map]
    congr 1
    apply List.map_congr_left
    intro ofs member
    have inside : ofs < w.size := List.mem_range.mp (List.mem_filter.mp member).1
    change (n.startbit + BitVec.ofNat 32 ofs).toNat = n.startbit.toNat + ofs
    rw [BitVec.toNat_add, BitVec.toNat_ofNat, Nat.mod_eq_of_lt (show ofs < 2 ^ 32 by omega),
      Nat.mod_eq_of_lt (by omega)]

/-- The walk over the positive bits. -/
theorem positiveBits_toNat (ok : Canonical e) :
    e.positiveBits.map BitVec.toNat = e.node.flatMap (nodeKind w).members := by
  have fits : (nodeKind w).stop 0 e.node < 2 ^ 32 := by
    rw [← ok.high]
    exact e.highbit.isLt
  have all := nodeBits_toNat ok.nodes fits
  rw [← all]
  congr 1
  refine List.takeWhile_eq_self_iff.mpr fun bit member => ?_
  have inside : (nodeKind w).HasAny e.node bit.toNat :=
    BlockKind.mem_flatMap_members.mp (all ▸ List.mem_map_of_mem member)
  have upper := ok.nodes.upper inside
  rw [decide_eq_true_eq, BitVec.lt_def, ok.high]
  exact upper

end Bitmaps

section Writing

variable {bits : List U32} {bit : U32} {map : U64} {s b : Nat}

theorem rounddownInt_eq (b : Nat) : rounddownInt (b : Int) = ((b - b % 64 : Nat) : Int) := by
  unfold rounddownInt
  rw [Int.tmod_eq_emod_of_nonneg (by omega)]
  omega

theorem rounddownU64_eq (b : Nat) : rounddownU64 (b : Int) = ((b - b % 64 : Nat) : Int) := by
  unfold rounddownU64
  omega

theorem toInt_eq (small : bit.toNat < 2 ^ 31) : bit.toInt = bit.toNat :=
  BitVec.toInt_eq_toNat_of_lt (by omega)

/-- The mask of the low bits of a unit. -/
theorem and_not_mask (x : U32) : (x &&& ~~~63).toNat = x.toNat - x.toNat % 64 := by
  have low : ∀ i < 32, (63#32).getLsbD i = decide (i < 6) := by decide
  have shifts : x &&& ~~~63#32 = (x >>> 6) <<< 6 := by
    apply BitVec.eq_of_getLsbD_eq
    intro i inside
    rw [BitVec.getLsbD_and, BitVec.getLsbD_not, low i inside, BitVec.getLsbD_shiftLeft,
      BitVec.getLsbD_ushiftRight]
    by_cases less : i < 6
    · simp [less]
    · rw [show 6 + (i - 6) = i by omega]
      simp [less, inside]
  have small := x.isLt
  change (x &&& ~~~63#32).toNat = _
  rw [shifts, BitVec.toNat_shiftLeft, BitVec.toNat_ushiftRight, Nat.shiftRight_eq_div_pow,
    Nat.shiftLeft_eq]
  omega

theorem lastBitOf_toNat (small : bit.toNat < 2 ^ 31) :
    (lastBitOf bit).toNat = bit.toNat - bit.toNat % 64 + 64 := by
  have next : (bit + 64).toNat = bit.toNat + 64 := by
    rw [BitVec.toNat_add]
    exact Nat.mod_eq_of_lt (by change bit.toNat + 64 < _; omega)
  unfold lastBitOf
  rw [and_not_mask, next]
  omega

/-- One bit of a unit. -/
theorem bit_shift {ofs k : Nat} (place : ofs < 64) (inside : k < 64) :
    (1#64 <<< ofs).getLsbD k = decide (k = ofs) := by
  rw [BitVec.getLsbD_shiftLeft, BitVec.getLsbD_one]
  by_cases same : k = ofs
  · subst same
    simp [inside]
  · by_cases below : k < ofs
    · simp [below, same]
    · have positive : k - ofs ≠ 0 := by omega
      simp [positive, same]

theorem shift_nonzero (b : Nat) : 1#64 <<< (b % 64) ≠ 0 := by
  have inside : b % 64 < 64 := Nat.mod_lt b (by decide)
  intro zero
  have set := bit_shift inside inside
  rw [zero] at set
  simp at set

theorem number (below : s < 2 ^ 31) : (BitVec.ofNat 32 s).toNat = s := by
  rw [BitVec.toNat_ofNat, Nat.mod_eq_of_lt (by omega)]

theorem or_nonzero {other : U64} (nonzero : map ≠ 0) : map ||| other ≠ 0 := by
  intro zero
  obtain ⟨k, -, set⟩ := exists_getLsbD nonzero
  have either := congrArg (fun x : U64 => x.getLsbD k) zero
  simp only [BitVec.getLsbD_or, set, Bool.true_or] at either
  simp at either

/-- A unit with one bit. -/
theorem has_shift {x : Nat} (small : bit.toNat < 2 ^ 31) :
    unitKind.Has (BitVec.ofNat 32 (bit.toNat - bit.toNat % 64), 1#64 <<< (bit.toNat % 64)) x ↔
      x = bit.toNat := by
  have start : (BitVec.ofNat 32 (bit.toNat - bit.toNat % 64)).toNat = bit.toNat - bit.toNat % 64 :=
    number (by omega)
  change (BitVec.ofNat 32 _).toNat ≤ x ∧ x < (BitVec.ofNat 32 _).toNat + 64 ∧
    (1#64 <<< (bit.toNat % 64)).getLsbD (x - (BitVec.ofNat 32 _).toNat) = true ↔ _
  rw [start]
  constructor
  · rintro ⟨lower, upper, set⟩
    rw [bit_shift (Nat.mod_lt _ (by decide)) (by omega), decide_eq_true_eq] at set
    omega
  · rintro rfl
    refine ⟨by omega, by omega, ?_⟩
    rw [bit_shift (Nat.mod_lt _ (by decide)) (by omega), decide_eq_true_eq]
    omega

/-- A unit with one bit more. -/
theorem has_or {x : Nat} (below : s < 2 ^ 31) (lower : s ≤ b) (place : b - s < 64) :
    unitKind.Has (BitVec.ofNat 32 s, map ||| 1#64 <<< (b - s)) x ↔
      unitKind.Has (BitVec.ofNat 32 s, map) x ∨ x = b := by
  change (BitVec.ofNat 32 s).toNat ≤ x ∧ x < (BitVec.ofNat 32 s).toNat + 64 ∧
      (map ||| 1#64 <<< (b - s)).getLsbD (x - (BitVec.ofNat 32 s).toNat) = true ↔
    ((BitVec.ofNat 32 s).toNat ≤ x ∧ x < (BitVec.ofNat 32 s).toNat + 64 ∧
      map.getLsbD (x - (BitVec.ofNat 32 s).toNat) = true) ∨ x = b
  rw [number below, BitVec.getLsbD_or, Bool.or_eq_true]
  by_cases inside : s ≤ x ∧ x < s + 64
  · rw [bit_shift place (by omega), decide_eq_true_eq]
    have offset : x - s = b - s ↔ x = b := by omega
    rw [offset]
    tauto
  · have other : x ≠ b := by omega
    tauto

/-- The unit that the writer has not written yet, and what it makes of the bits that are left. -/
structure Written (bits : List U32) (s : Nat) (map : U64) : Prop where
  units : unitKind.From s (ebitmapWriteUnits bits map s)
  has : ∀ x, unitKind.HasAny (ebitmapWriteUnits bits map s) x ↔
    unitKind.Has (BitVec.ofNat 32 s, map) x ∨ x ∈ bits.map BitVec.toNat
  count : ∀ count lastBit : U32, lastBit.toNat = s + 64 →
    ∃ more lastBit', (ebitmapWriteUnits bits map s).length = more + 1 ∧
      ebitmapWriteCount bits s (count, lastBit) = (count + BitVec.ofNat 32 more, lastBit') ∧
      lastBit'.toNat = unitKind.stop s (ebitmapWriteUnits bits map s)

theorem written (aligned : s % 64 = 0) (below : s < 2 ^ 31) (nonzero : map ≠ 0)
    (sorted : (bits.map BitVec.toNat).Pairwise (· < ·))
    (range : ∀ b ∈ bits, s ≤ b.toNat ∧ b.toNat < 2 ^ 31) : Written bits s map := by
  have used : ∀ {s : Nat} {map : U64}, s < 2 ^ 31 → map ≠ 0 → ∃ b, unitKind.Has (BitVec.ofNat 32 s, map) b := by
    intro s map below nonzero
    obtain ⟨k, place, set⟩ := exists_getLsbD nonzero
    refine ⟨s + k, ?_⟩
    unfold BlockKind.Has
    change (BitVec.ofNat 32 s).toNat ≤ _ ∧ _ < (BitVec.ofNat 32 s).toNat + 64 ∧
      map.getLsbD (_ - (BitVec.ofNat 32 s).toNat) = true
    rw [number below, Nat.add_sub_cancel_left]
    exact ⟨by omega, by omega, set⟩
  induction bits generalizing s map with
  | nil =>
    have made : ebitmapWriteUnits [] map s = [(BitVec.ofNat 32 s, map)] := by
      unfold ebitmapWriteUnits
      rw [if_neg nonzero, BitVec.ofInt_natCast]
    refine ⟨?_, fun x => ?_, fun count lastBit high => ⟨0, lastBit, ?_, ?_, ?_⟩⟩
    · rw [made]
      refine ⟨(number below).ge, ?_, used below nonzero, trivial⟩
      change (BitVec.ofNat 32 s).toNat % 64 = 0
      rw [number below]
      exact aligned
    · rw [made, BlockKind.hasAny_cons, List.map_nil]
      simp only [BlockKind.hasAny_nil, List.not_mem_nil]
    · rw [made]
      rfl
    · unfold ebitmapWriteCount
      rw [show BitVec.ofNat 32 0 = 0#32 from rfl, BitVec.add_zero]
    · rw [made, high]
      change s + 64 = (BitVec.ofNat 32 s).toNat + 64
      rw [number below]
  | cons bit rest ih =>
    obtain ⟨sortedBit, sortedRest⟩ := List.pairwise_cons.mp sorted
    obtain ⟨⟨lower, small⟩, rangeRest⟩ := List.forall_mem_cons.mp range
    have later : ∀ b ∈ rest, bit.toNat < b.toNat := fun b member =>
      sortedBit b.toNat (List.mem_map_of_mem member)
    by_cases new : s < bit.toNat - bit.toNat % 64
    · -- the bit begins a new unit, and the one before is written
      have step : Written rest (bit.toNat - bit.toNat % 64) (1#64 <<< (bit.toNat % 64)) := ih
        (by omega) (by omega) (shift_nonzero _) sortedRest
        fun b member => ⟨by have := later b member; omega, (rangeRest b member).2⟩
      have made : ebitmapWriteUnits (bit :: rest) map s = (BitVec.ofNat 32 s, map) ::
          ebitmapWriteUnits rest (1#64 <<< (bit.toNat % 64)) ((bit.toNat - bit.toNat % 64 : Nat) : Int) := by
        rw [ebitmapWriteUnits, toInt_eq small, rounddownInt_eq, rounddownU64_eq, if_pos (by omega),
          if_neg nonzero, BitVec.ofInt_natCast]
        congr 3
        omega
      refine ⟨?_, fun x => ?_, fun count lastBit high => ?_⟩
      · rw [made]
        refine ⟨(number below).ge, ?_, used below nonzero, step.units.mono ?_⟩
        · change (BitVec.ofNat 32 s).toNat % 64 = 0
          rw [number below]
          exact aligned
        · change (BitVec.ofNat 32 s).toNat + 64 ≤ _
          rw [number below]
          omega
      · rw [made, BlockKind.hasAny_cons, step.has, has_shift small, List.map_cons, List.mem_cons]
      · obtain ⟨more, lastBit', length, counted, stop⟩ := step.count (count + 1) (lastBitOf bit)
          (lastBitOf_toNat small)
        refine ⟨more + 1, lastBit', ?_, ?_, ?_⟩
        · rw [made, List.length_cons, length]
        · rw [ebitmapWriteCount, toInt_eq small, rounddownInt_eq, rounddownU64_eq, if_pos (by omega),
            counted, Prod.mk.injEq]
          refine ⟨?_, rfl⟩
          rw [BitVec.add_assoc]
          congr 1
          rw [Nat.add_comm more 1]
          exact (BitVec.ofNat_add 1 more).symm
        · rw [made, stop]
          have some : ebitmapWriteUnits rest (1#64 <<< (bit.toNat % 64))
              ((bit.toNat - bit.toNat % 64 : Nat) : Int) ≠ [] := by
            intro empty
            rw [empty] at length
            cases length
          exact BlockKind.stop_of_ne_nil some
    · -- the bit goes to the same unit
      have same : bit.toNat - bit.toNat % 64 = s := by omega
      have place : bit.toNat - s < 64 := by omega
      have step : Written rest s (map ||| 1#64 <<< (bit.toNat - s)) :=
        ih aligned below (or_nonzero nonzero) sortedRest rangeRest
      have made : ebitmapWriteUnits (bit :: rest) map s =
          ebitmapWriteUnits rest (map ||| 1#64 <<< (bit.toNat - s)) s := by
        rw [ebitmapWriteUnits, toInt_eq small, rounddownInt_eq, if_neg (by omega)]
        congr 3
        omega
      refine ⟨?_, fun x => ?_, fun count lastBit high => ?_⟩
      · rw [made]
        exact step.units
      · rw [made, step.has, has_or below lower place, List.map_cons, List.mem_cons, or_assoc]
      · obtain ⟨more, lastBit', length, counted, stop⟩ := step.count count (lastBitOf bit)
          (by rw [lastBitOf_toNat small, same])
        refine ⟨more, lastBit', ?_, ?_, ?_⟩
        · rw [made, length]
        · rw [ebitmapWriteCount, toInt_eq small, rounddownInt_eq, if_neg (by omega), counted]
        · rw [made, stop]

/-- The units that the writer makes of ascending bits, their number and where they end. -/
theorem written_all (sorted : (bits.map BitVec.toNat).Pairwise (· < ·))
    (range : ∀ b ∈ bits, b.toNat < 2 ^ 31) :
    unitKind.From 0 (ebitmapWriteUnits bits 0 intMin) ∧
      (∀ x, unitKind.HasAny (ebitmapWriteUnits bits 0 intMin) x ↔ x ∈ bits.map BitVec.toNat) ∧
      ∃ lastBit, ebitmapWriteCount bits (-1) (0, 0) =
        (BitVec.ofNat 32 (ebitmapWriteUnits bits 0 intMin).length, lastBit) ∧
          lastBit.toNat = unitKind.stop 0 (ebitmapWriteUnits bits 0 intMin) := by
  cases bits with
  | nil =>
    refine ⟨trivial, fun x => ?_, 0, rfl, rfl⟩
    simp only [List.map_nil, List.not_mem_nil, iff_false]
    exact BlockKind.hasAny_nil
  | cons bit rest =>
    obtain ⟨sortedBit, sortedRest⟩ := List.pairwise_cons.mp sorted
    obtain ⟨small, rangeRest⟩ := List.forall_mem_cons.mp range
    have later : ∀ b ∈ rest, bit.toNat < b.toNat := fun b member =>
      sortedBit b.toNat (List.mem_map_of_mem member)
    have step := @written rest (1#64 <<< (bit.toNat % 64)) (bit.toNat - bit.toNat % 64) (by omega)
      (by omega) (shift_nonzero _) sortedRest
      fun b member => ⟨by have := later b member; omega, rangeRest b member⟩
    have made : ebitmapWriteUnits (bit :: rest) 0 intMin =
        ebitmapWriteUnits rest (1#64 <<< (bit.toNat % 64)) ((bit.toNat - bit.toNat % 64 : Nat) : Int) := by
      rw [ebitmapWriteUnits, toInt_eq small, rounddownInt_eq, rounddownU64_eq,
        if_pos (by unfold intMin; omega), if_pos rfl]
      congr 2
      omega
    rw [made]
    refine ⟨step.units.mono (Nat.zero_le _), fun x => ?_, ?_⟩
    · rw [step.has, has_shift small, List.map_cons, List.mem_cons]
    · obtain ⟨more, lastBit', length, counted, stop⟩ := step.count (0 + 1) (lastBitOf bit)
        (lastBitOf_toNat small)
      refine ⟨lastBit', ?_, ?_⟩
      · rw [ebitmapWriteCount, toInt_eq small, rounddownInt_eq, rounddownU64_eq, if_pos (by omega),
          counted, length, Nat.add_comm more 1]
        exact congrArg (fun c => (c, lastBit')) (BitVec.ofNat_add 1 more).symm
      · rw [stop]
        have some : ebitmapWriteUnits rest (1#64 <<< (bit.toNat % 64))
            ((bit.toNat - bit.toNat % 64 : Nat) : Int) ≠ [] := by
          intro empty
          rw [empty] at length
          cases length
        exact BlockKind.stop_of_ne_nil some

end Writing

section Reading

variable {n : WordNode w} {nodes before : List (WordNode w)} {startbit : U32} {map : U64}

theorem getD_setIfInBounds {α : Type} {size : Nat} (v : Vector α size) (i j : Nat) (x d : α)
    (inside : i < size) : (v.setIfInBounds i x).getD j d = if j = i then x else v.getD j d := by
  unfold Vector.getD
  rw [Array.getD_eq_getD_getElem?, Array.getD_eq_getD_getElem?, Vector.getElem?_toArray,
    Vector.getElem?_toArray]
  by_cases same : j = i
  · rw [if_pos same, same, Vector.getElem?_setIfInBounds_self_of_lt inside, Option.getD_some]
  · rw [if_neg same, Vector.getElem?_setIfInBounds_ne (Ne.symm same)]

/-- A 64-bit kernel has nothing left of a map after one word. -/
theorem shift_word64 (map : U64) :
    (map >>> (WordSize.word64.unitSize / 2)) >>> (WordSize.word64.unitSize / 2) = 0 := by
  apply BitVec.eq_of_getLsbD_eq
  intro m _
  change ((map >>> 32) >>> 32).getLsbD m = (0#64).getLsbD m
  rw [BitVec.getLsbD_ushiftRight, BitVec.getLsbD_ushiftRight, BitVec.getLsbD_of_ge _ _ (by omega)]
  simp

/-- The words that the map of a unit is stored in, where no bit is yet. -/
theorem storeMap_bit {maps : Vector (BitVec w.unitSize) w.unitNums} {i : Nat}
    (room : w.unitSize * i + 64 ≤ w.size)
    (clear : ∀ j k, i ≤ j → (maps.getD j 0).getLsbD k = false) {j k : Nat} (place : k < w.unitSize) :
    ((WordBitmap.storeMap 2 maps i map).getD j 0).getLsbD k =
      ((maps.getD j 0).getLsbD k || (decide (i ≤ j ∧ w.unitSize * (j - i) + k < 64) &&
        map.getLsbD (w.unitSize * (j - i) + k))) := by
  have inside : i < w.unitNums := by
    rcases sizes w with ⟨unit, nums, size⟩ | ⟨unit, nums, size⟩ <;> rw [unit, size] at room <;> omega
  by_cases zero : map = 0
  · rw [WordBitmap.storeMap, if_pos zero, zero]
    simp
  rw [WordBitmap.storeMap, if_neg zero]
  cases w with
  | word64 =>
    -- one word takes the whole map
    change k < 64 at place
    rw [WordBitmap.storeMap, if_pos (shift_word64 map), getD_setIfInBounds _ _ _ _ _ inside]
    change _ = (_ || (decide (i ≤ j ∧ 64 * (j - i) + k < 64) && map.getLsbD (64 * (j - i) + k)))
    by_cases here : j = i
    · rw [if_pos here, here, clear i k (Nat.le_refl i)]
      rw [Nat.sub_self, decide_eq_true (by omega), Bool.false_or, Bool.true_and, Nat.mul_zero, Nat.zero_add]
      change (map.truncate 64).getLsbD k = map.getLsbD k
      rw [BitVec.truncate_eq_setWidth, BitVec.setWidth_eq]
    · rw [if_neg here, decide_eq_false (by omega)]
      simp
  | word32 =>
    -- the low half goes to one word, and the high half to the next unless it is 0
    change k < 32 at place
    have next : i + 1 < WordSize.word32.unitNums := by
      change 32 * i + 64 ≤ 192 at room
      change i + 1 < 6
      omega
    have high : ∀ m, ((map >>> (WordSize.word32.unitSize / 2)) >>>
        (WordSize.word32.unitSize / 2)).getLsbD m = map.getLsbD (32 + m) := by
      intro m
      change ((map >>> 16) >>> 16).getLsbD m = _
      rw [BitVec.getLsbD_ushiftRight, BitVec.getLsbD_ushiftRight, ← Nat.add_assoc]
    have low : (BitVec.truncate WordSize.word32.unitSize map).getLsbD k = map.getLsbD k := by
      change (map.truncate 32).getLsbD k = _
      rw [BitVec.truncate_eq_setWidth, BitVec.getLsbD_setWidth, decide_eq_true place, Bool.true_and]
    change _ = (_ || (decide (i ≤ j ∧ 32 * (j - i) + k < 64) && map.getLsbD (32 * (j - i) + k)))
    have atFirst : ∀ {x : BitVec WordSize.word32.unitSize}, j = i →
        ((if j = i then BitVec.truncate WordSize.word32.unitSize map else x).getLsbD k =
          ((maps.getD j 0).getLsbD k ||
            (decide (i ≤ j ∧ 32 * (j - i) + k < 64) && map.getLsbD (32 * (j - i) + k)))) := by
      intro x here
      rw [if_pos here, low, here, clear i k (Nat.le_refl i), Nat.sub_self, decide_eq_true (by omega),
        Bool.false_or, Bool.true_and, Nat.mul_zero, Nat.zero_add]
    rw [WordBitmap.storeMap]
    split
    · rename_i shifted
      rw [getD_setIfInBounds _ _ _ _ _ inside]
      by_cases here : j = i
      · exact atFirst here
      · rw [if_neg here]
        by_cases after : j = i + 1
        · have none := congrArg (fun x : U64 => x.getLsbD k) shifted
          rw [high] at none
          rw [after, Nat.add_sub_cancel_left, Nat.mul_one, none]
          simp
        · rw [decide_eq_false (by omega)]
          simp
    · rw [WordBitmap.storeMap, getD_setIfInBounds _ _ _ _ _ next, getD_setIfInBounds _ _ _ _ _ inside]
      by_cases after : j = i + 1
      · rw [if_pos after, after, clear (i + 1) k (Nat.le_succ i), Nat.add_sub_cancel_left, Nat.mul_one,
          decide_eq_true (by omega), Bool.false_or, Bool.true_and, ← high]
        change (BitVec.truncate 32 _).getLsbD k = _
        rw [BitVec.truncate_eq_setWidth, BitVec.getLsbD_setWidth, decide_eq_true place, Bool.true_and]
      · rw [if_neg after]
        by_cases here : j = i
        · exact atFirst here
        · rw [if_neg here, decide_eq_false (by omega)]
          simp

/-- A node has no bit in its words past the last one. -/
theorem word_clear (low : Nat) (clear : ∀ b, (nodeKind w).Has n b → b < n.startbit.toNat + low) {j k : Nat}
    (past : low ≤ w.unitSize * j) : (n.maps.getD j 0).getLsbD k = false := by
  refine eq_false_of_ne_true fun set => ?_
  by_cases place : k < w.unitSize
  · by_cases inside : j < w.unitNums
    · have small : w.unitSize * j + k < w.size := by
        rcases sizes w with ⟨unit, nums, size⟩ | ⟨unit, nums, size⟩ <;> rw [unit] at place ⊢ <;> omega
      have word : (w.unitSize * j + k) / w.unitSize = j := by
        rw [Nat.mul_add_div (by omega), Nat.div_eq_of_lt place, Nat.add_zero]
      have offset : (w.unitSize * j + k) % w.unitSize = k := by
        rw [Nat.mul_add_mod, Nat.mod_eq_of_lt place]
      have has : (nodeKind w).Has n (n.startbit.toNat + (w.unitSize * j + k)) := by
        refine ⟨Nat.le_add_right _ _, Nat.add_lt_add_left small _, ?_⟩
        change n.bit (n.startbit.toNat + _ - n.startbit.toNat) = true
        rw [Nat.add_sub_cancel_left]
        unfold WordNode.bit
        rw [word, offset]
        exact set
      have := clear _ has
      omega
    · unfold Vector.getD at set
      rw [Array.getD_eq_getD_getElem?, Vector.getElem?_toArray, Vector.getElem?_eq_none (by omega)] at set
      simp at set
  · rw [BitVec.getLsbD_of_ge _ _ (by omega)] at set
    cases set

/-- A unit adds its bits to a node that has none from its start on. -/
theorem has_readMap (lower : n.startbit.toNat ≤ startbit.toNat)
    (inside : startbit.toNat < n.startbit.toNat + w.size) (aligned : startbit.toNat % 64 = 0)
    (alignedNode : n.startbit.toNat % w.size = 0)
    (clear : ∀ b, (nodeKind w).Has n b → b < startbit.toNat) (b : Nat) :
    (nodeKind w).Has (WordBitmap.readMap n startbit map) b ↔
      (nodeKind w).Has n b ∨ unitKind.Has (startbit, map) b := by
  obtain ⟨d, start⟩ : ∃ d, startbit.toNat = n.startbit.toNat + d :=
    ⟨startbit.toNat - n.startbit.toNat, by omega⟩
  have whole : d % 64 = 0 ∧ d + 64 ≤ w.size := by
    rcases sizes w with ⟨-, -, size⟩ | ⟨-, -, size⟩ <;> rw [size] at inside alignedNode ⊢ <;> omega
  have index : w.unitSize * (d / w.unitSize) = d := by
    rcases sizes w with ⟨unit, -⟩ | ⟨unit, -⟩ <;> rw [unit] <;> omega
  have order : ∀ ofs, d / w.unitSize ≤ ofs / w.unitSize ↔ d ≤ ofs := by
    intro ofs
    rcases sizes w with ⟨unit, -⟩ | ⟨unit, -⟩ <;> rw [unit] <;> omega
  have offset : ∀ ofs, d ≤ ofs →
      w.unitSize * (ofs / w.unitSize - d / w.unitSize) + ofs % w.unitSize = ofs - d := by
    intro ofs past
    rcases sizes w with ⟨unit, -⟩ | ⟨unit, -⟩ <;> rw [unit] <;> omega
  have place : ∀ ofs, ofs % w.unitSize < w.unitSize := by
    intro ofs
    rcases sizes w with ⟨unit, -⟩ | ⟨unit, -⟩ <;> rw [unit] <;> omega
  have words := @storeMap_bit w map n.maps (d / w.unitSize) (by omega) fun j k past =>
    word_clear d (fun b has => by have := clear b has; omega)
      (by rw [← index]; exact Nat.mul_le_mul_left _ past)
  unfold BlockKind.Has
  change n.startbit.toNat ≤ b ∧ b < n.startbit.toNat + w.size ∧
      ((WordBitmap.storeMap 2 n.maps ((startbit.toNat - n.startbit.toNat) / w.unitSize) map).getD
        ((b - n.startbit.toNat) / w.unitSize) 0).getLsbD ((b - n.startbit.toNat) % w.unitSize) = true ↔
    (n.startbit.toNat ≤ b ∧ b < n.startbit.toNat + w.size ∧
      (n.maps.getD ((b - n.startbit.toNat) / w.unitSize) 0).getLsbD
        ((b - n.startbit.toNat) % w.unitSize) = true) ∨
    (startbit.toNat ≤ b ∧ b < startbit.toNat + 64 ∧ map.getLsbD (b - startbit.toNat) = true)
  rw [start, Nat.add_sub_cancel_left, words (place _)]
  simp only [Bool.or_eq_true, Bool.and_eq_true, decide_eq_true_eq, order]
  by_cases past : d ≤ b - n.startbit.toNat
  · rw [offset _ past]
    have same : b - n.startbit.toNat - d = b - (n.startbit.toNat + d) := by omega
    rw [same]
    constructor
    · rintro ⟨first, last, old | ⟨⟨-, near⟩, new⟩⟩
      · exact .inl ⟨first, last, old⟩
      · exact .inr ⟨by omega, by omega, new⟩
    · rintro (⟨first, last, old⟩ | ⟨first, last, new⟩)
      · exact ⟨first, last, .inl old⟩
      · exact ⟨by omega, by omega, .inr ⟨⟨past, by omega⟩, new⟩⟩
  · constructor
    · rintro ⟨first, last, old | ⟨⟨absurdity, -⟩, -⟩⟩
      · exact .inl ⟨first, last, old⟩
      · exact absurd absurdity past
    · rintro (⟨first, last, old⟩ | ⟨first, last, new⟩)
      · exact ⟨first, last, .inl old⟩
      · omega

/-- The nodes read so far, the last one in front, have bits below a number only. -/
structure Loaded (nodes : List (WordNode w)) (low : Nat) : Prop where
  ordered : (nodeKind w).From 0 nodes.reverse
  below : ∀ b, (nodeKind w).HasAny nodes b → b < low

theorem hasAny_reverse {b : Nat} : (nodeKind w).HasAny nodes.reverse b ↔ (nodeKind w).HasAny nodes b := by
  simp only [BlockKind.HasAny, List.mem_reverse]

/-- The node that a unit goes to. -/
structure Placed (n : WordNode w) (before nodes : List (WordNode w)) (startbit : U32) : Prop where
  start : n.startbit.toNat = startbit.toNat - startbit.toNat % w.size
  from' : (nodeKind w).From 0 before.reverse
  stop : (nodeKind w).stop 0 before.reverse ≤ n.startbit.toNat
  has : ∀ b, (nodeKind w).HasAny nodes b ↔ (nodeKind w).Has n b ∨ (nodeKind w).HasAny before b

theorem newNode_empty (start : U32) (b : Nat) :
    ¬ (nodeKind w).Has { startbit := start, maps := Vector.replicate w.unitNums 0 } b := by
  rintro ⟨-, -, set⟩
  change ((Vector.replicate w.unitNums (0 : BitVec w.unitSize)).getD _ 0).getLsbD _ = true at set
  have zero : ∀ i, (Vector.replicate w.unitNums (0 : BitVec w.unitSize)).getD i 0 = 0 := by
    intro i
    by_cases inside : i < w.unitNums
    · rw [getD_eq_getElem _ inside, Vector.getElem_replicate]
    · unfold Vector.getD
      rw [Array.getD_eq_getD_getElem?, Vector.getElem?_toArray, Vector.getElem?_eq_none (by omega)]
      rfl
  rw [zero] at set
  simp at set

theorem readNode_placed {low : Nat} (loaded : Loaded nodes low) (later : low ≤ startbit.toNat)
    (small : startbit.toNat < 2 ^ 31) :
    ∃ n before, WordBitmap.readNode startbit nodes = .ok (n, before) ∧ Placed n before nodes startbit := by
  have start : (BitVec.ofNat 32 (startbit.toNat - startbit.toNat % w.size)).toNat =
      startbit.toNat - startbit.toNat % w.size := number (by omega)
  cases nodes with
  | nil =>
    refine ⟨_, _, rfl, start, trivial, Nat.zero_le _, fun b => ?_⟩
    rw [or_iff_right (newNode_empty _ b)]
  | cons m rest =>
    have ordered := loaded.ordered
    rw [List.reverse_cons, BlockKind.from_append] at ordered
    obtain ⟨earlier, behind, aligned, ⟨b, used⟩⟩ := ordered
    have before : m.startbit.toNat < startbit.toNat := by
      have lower : m.startbit.toNat ≤ b := used.1
      have := loaded.below b (BlockKind.hasAny_cons.mpr (.inl used))
      omega
    have aligned : m.startbit.toNat % w.size = 0 := aligned
    have stop : m.stop = m.startbit.toNat + w.size := by
      unfold WordNode.stop
      refine Nat.mod_eq_of_lt ?_
      rcases sizes w with ⟨unit, -, size⟩ | ⟨unit, -, size⟩ <;> rw [unit, size] <;> omega
    unfold WordBitmap.readNode
    dsimp only
    rw [stop]
    by_cases past : m.startbit.toNat + w.size ≤ startbit.toNat
    · rw [if_pos past]
      refine ⟨_, _, rfl, start, loaded.ordered, ?_, fun b => ?_⟩
      · rw [List.reverse_cons, BlockKind.stop_append, start]
        change m.startbit.toNat + w.size ≤ _
        rcases sizes w with ⟨-, -, size⟩ | ⟨-, -, size⟩ <;> rw [size] at aligned past ⊢ <;> omega
      · rw [or_iff_right (newNode_empty _ b)]
    · rw [if_neg past, if_neg (by rw [BitVec.le_def]; omega)]
      refine ⟨m, rest, rfl, ?_, earlier, behind, fun b => BlockKind.hasAny_cons⟩
      rcases sizes w with ⟨-, -, size⟩ | ⟨-, -, size⟩ <;> rw [size] at aligned past ⊢ <;> omega

/-- The bytes of a unit. -/
def unitBytes (u : U32 × U64) : List U8 := cpuToLe32 u.1 ++ cpuToLe64 u.2

theorem nextU32_put (x : U32) (rest : List U8) : nextU32 (cpuToLe32 x ++ rest) = .ok (x, rest) := by
  unfold nextU32
  rw [ByteReader.bind_ok]
  refine ⟨cpuToLe32 x, rest, ?_, ?_⟩
  · exact ByteReader.bytes_ok.mpr ⟨rfl, rfl⟩
  · rw [ByteReader.pure_ok, le32_roundtrip]
    exact ⟨rfl, rfl⟩

theorem nextU64_put (x : U64) (rest : List U8) : nextU64 (cpuToLe64 x ++ rest) = .ok (x, rest) := by
  unfold nextU64
  rw [ByteReader.bind_ok]
  refine ⟨cpuToLe64 x, rest, ?_, ?_⟩
  · exact ByteReader.bytes_ok.mpr ⟨rfl, rfl⟩
  · rw [ByteReader.pure_ok, le64_roundtrip]
    exact ⟨rfl, rfl⟩

/-- One unit is read, and its bits are added. -/
theorem readUnit_loaded {low : Nat} {highbit : U32} (loaded : Loaded nodes low) (later : low ≤ startbit.toNat)
    (aligned : startbit.toNat % 64 = 0) (used : ∃ b, unitKind.Has (startbit, map) b)
    (fits : startbit.toNat + 64 ≤ highbit.toNat) (small : highbit.toNat < 2 ^ 31) :
    ∃ nodes', ByteReader.Takes (WordBitmap.readUnit highbit nodes) (unitBytes (startbit, map)) nodes' ∧
      Loaded nodes' (startbit.toNat + 64) ∧
      (∀ b, (nodeKind w).HasAny nodes' b ↔ (nodeKind w).HasAny nodes b ∨ unitKind.Has (startbit, map) b) ∧
      (nodeKind w).stop 0 nodes'.reverse = startbit.toNat - startbit.toNat % w.size + w.size := by
  obtain ⟨n, before, place, placed⟩ := readNode_placed loaded later (by omega)
  have alignedNode : n.startbit.toNat % w.size = 0 := by
    rw [placed.start]
    rcases sizes w with ⟨-, -, size⟩ | ⟨-, -, size⟩ <;> rw [size] <;> omega
  have rest' : startbit.toNat % w.size < w.size := Nat.mod_lt _ (nodeKind w).positive
  have part : startbit.toNat % w.size ≤ startbit.toNat := Nat.mod_le _ _
  have start := placed.start
  have added (b : Nat) : (nodeKind w).Has (WordBitmap.readMap n startbit map) b ↔ _ :=
    has_readMap (show n.startbit.toNat ≤ startbit.toNat by omega) (by omega) aligned alignedNode
      (fun b has => lt_of_lt_of_le (loaded.below b ((placed.has b).mpr (.inl has))) later) b
  have bits : ∀ b, (nodeKind w).HasAny (WordBitmap.readMap n startbit map :: before) b ↔
      (nodeKind w).HasAny nodes b ∨ unitKind.Has (startbit, map) b := by
    intro b
    rw [BlockKind.hasAny_cons, added, placed.has]
    tauto
  refine ⟨WordBitmap.readMap n startbit map :: before, fun rest => ?_, ⟨?_, fun b has => ?_⟩, bits, ?_⟩
  · have wholeUnit : startbit &&& 63 = 0 := by
      apply BitVec.eq_of_toNat_eq
      rw [BitVec.toNat_and]
      change startbit.toNat &&& 2 ^ 6 - 1 = 0
      rw [Nat.and_two_pow_sub_one_eq_mod]
      exact aligned
    have room : startbit ≤ highbit - 64 := by
      have difference : (highbit - 64).toNat = highbit.toNat - 64 := by
        refine BitVec.toNat_sub_of_le ?_
        change 64 ≤ highbit.toNat
        omega
      rw [BitVec.le_def, difference]
      omega
    simp only [WordBitmap.readUnit, ByteReader.bind_ok, ByteReader.require_ok, ByteReader.pure_ok,
      ByteReader.lift_ok]
    unfold unitBytes
    rw [List.append_assoc]
    exact ⟨startbit, _, nextU32_put startbit _, (), _, ⟨wholeUnit, rfl⟩, (), _, ⟨room, rfl⟩, (n, before), _,
      ⟨place, rfl⟩, map, _, nextU64_put map rest, rfl, rfl⟩
  · rw [List.reverse_cons, BlockKind.from_append]
    obtain ⟨b, has⟩ := used
    exact ⟨placed.from', placed.stop, alignedNode, b, (added b).mpr (.inr has)⟩
  · rcases (bits b).mp has with old | new
    · have := loaded.below b old
      omega
    · exact new.2.1
  · rw [List.reverse_cons, BlockKind.stop_append]
    change n.startbit.toNat + w.size = _
    rw [start]

/-- Units that ascend are read, and the nodes have their bits. -/
theorem times_loaded {low : Nat} {highbit : U32} {units : List (U32 × U64)} (loaded : Loaded nodes low)
    (ascending : unitKind.From low units) (fits : unitKind.stop low units ≤ highbit.toNat)
    (small : highbit.toNat < 2 ^ 31) (some : units ≠ []) :
    ∃ nodes', ByteReader.Takes (ByteReader.times (WordBitmap.readUnit highbit) units.length nodes)
        (units.flatMap unitBytes) nodes' ∧
      (nodeKind w).From 0 nodes'.reverse ∧
      (∀ b, (nodeKind w).HasAny nodes' b ↔ (nodeKind w).HasAny nodes b ∨ unitKind.HasAny units b) ∧
      (nodeKind w).stop 0 nodes'.reverse =
        unitKind.stop low units - 64 - (unitKind.stop low units - 64) % w.size + w.size := by
  induction units generalizing nodes low with
  | nil => exact absurd rfl some
  | cons u later ih =>
    obtain ⟨startbit, map⟩ := u
    obtain ⟨first, aligned, used, ascendingLater⟩ := ascending
    have first : low ≤ startbit.toNat := first
    have aligned : startbit.toNat % 64 = 0 := aligned
    have after : unitKind.From (startbit.toNat + 64) later := ascendingLater
    have stop : unitKind.stop low ((startbit, map) :: later) = unitKind.stop (startbit.toNat + 64) later := rfl
    have room := after.le_stop
    rw [stop] at fits ⊢
    obtain ⟨nodes', once, loaded', bits, ends⟩ := readUnit_loaded loaded first aligned used
      (Nat.le_trans room fits) small
    cases later with
    | nil =>
      refine ⟨nodes', fun rest => ?_, loaded'.ordered, fun b => ?_, ?_⟩
      · simp only [List.flatMap_cons, List.flatMap_nil, List.append_nil, List.length_cons, List.length_nil,
          ByteReader.times, ByteReader.andThen_ok]
        exact ⟨nodes', rest, once rest, ByteReader.ret_ok.mpr ⟨rfl, rfl⟩⟩
      · rw [bits, BlockKind.hasAny_cons]
        simp only [BlockKind.hasAny_nil, or_false]
      · rw [ends]
        change _ = startbit.toNat + 64 - 64 - (startbit.toNat + 64 - 64) % w.size + w.size
        rw [Nat.add_sub_cancel]
    | cons v more =>
      obtain ⟨all, loop, ordered, allBits, allEnds⟩ := ih loaded' after fits (List.cons_ne_nil v more)
      refine ⟨all, fun rest => ?_, ordered, fun b => ?_, allEnds⟩
      · rw [List.flatMap_cons, List.append_assoc, List.length_cons]
        exact ByteReader.andThen_ok.mpr ⟨nodes', _, once _, loop rest⟩
      · rw [allBits, bits, or_assoc]
        exact or_congr_right BlockKind.hasAny_cons.symm

end Reading

section RoundTrip

variable {e : WordBitmap w}

/-- The bytes that `ebitmap_write` writes. -/
def bitmapBytes (e : WordBitmap w) : List U8 :=
  cpuToLe32 64 ++ cpuToLe32 (ebitmapWriteCount e.positiveBits (-1) (0, 0)).2 ++
    cpuToLe32 (ebitmapWriteCount e.positiveBits (-1) (0, 0)).1 ++
    (ebitmapWriteUnits e.positiveBits 0 intMin).flatMap unitBytes

theorem emits_write (e : WordBitmap w) : ByteWriter.Emits einval e.write (bitmapBytes e) := by
  have units := @ByteWriter.emits_each Fault _ einval
    (fun unit : U32 × U64 => ByteWriter.seq [putU32 unit.1, putU64 unit.2]) unitBytes
    (ebitmapWriteUnits e.positiveBits 0 intMin) fun unit _ => by
      have both := (@ByteWriter.emits_put Fault einval (cpuToLe32 unit.1)).andThen
        ((@ByteWriter.emits_put Fault einval (cpuToLe64 unit.2)).andThen ByteWriter.emits_skip)
      rw [List.append_nil] at both
      exact both
  have all := (@ByteWriter.emits_put Fault einval (cpuToLe32 64)).andThen
    ((@ByteWriter.emits_put Fault einval
      (cpuToLe32 (ebitmapWriteCount e.positiveBits (-1) (0, 0)).2)).andThen
      ((@ByteWriter.emits_put Fault einval
        (cpuToLe32 (ebitmapWriteCount e.positiveBits (-1) (0, 0)).1)).andThen
        (units.andThen ByteWriter.emits_skip)))
  rw [List.append_nil, ← List.append_assoc, ← List.append_assoc] at all
  exact all

/-- Ascending units with their number, and a high bit where they end, are read as their bits. -/
theorem read_written {count lastBit : U32} {units : List (U32 × U64)} (ascending : unitKind.From 0 units)
    (number : count = BitVec.ofNat 32 units.length) (last : lastBit.toNat = unitKind.stop 0 units)
    (small : ∀ b, unitKind.HasAny units b → b < 2 ^ 31 - w.size) :
    ∃ e' : WordBitmap w, Canonical e' ∧ (∀ b, InBitmap e' b ↔ unitKind.HasAny units b) ∧
      ByteReader.Takes (WordBitmap.read w)
        (cpuToLe32 64 ++ cpuToLe32 lastBit ++ cpuToLe32 count ++ units.flatMap unitBytes) e' := by
  have size : w.size = 192 ∨ w.size = 384 := (sizes w).imp (fun h => h.2.2) fun h => h.2.2
  by_cases some : units = []
  · -- nothing was written, and the high bit is 0
    subst some
    refine ⟨{ node := [], highbit := 0 }, ⟨trivial, rfl⟩, fun b => iff_of_false BlockKind.hasAny_nil
      BlockKind.hasAny_nil, fun rest => ?_⟩
    have zero : lastBit = 0 := BitVec.eq_of_toNat_eq last
    have high : BitVec.ofNat 32 ((BitVec.ofNat 32 ((0 : U32).toNat + (w.size - 1))).toNat -
        (BitVec.ofNat 32 ((0 : U32).toNat + (w.size - 1))).toNat % w.size) = 0 := by
      cases w <;> rfl
    rw [zero]
    simp only [WordBitmap.read, ByteReader.bind_ok, ByteReader.require_ok, List.append_assoc,
      List.flatMap_nil, List.nil_append]
    refine ⟨64, _, nextU32_put 64 _, 0, _, nextU32_put 0 _, count, _, nextU32_put count _, (), _,
      ⟨rfl, rfl⟩, ?_⟩
    rw [if_pos high]
    exact ByteReader.pure_ok.mpr ⟨rfl, rfl⟩
  · obtain ⟨b, has, ends⟩ := ascending.last some
    have ends : unitKind.stop 0 units = b - b % 64 + 64 := ends
    have below := small b has
    have length : unitKind.stop 0 units ≥ 0 + 64 * units.length := ascending.length_le
    have one : 0 < units.length := List.length_pos_iff.mpr some
    have rounded : (BitVec.ofNat 32 (lastBit.toNat + (w.size - 1))).toNat = lastBit.toNat + (w.size - 1) := by
      rw [BitVec.toNat_ofNat, Nat.mod_eq_of_lt]
      rcases size with size | size <;> rw [size] at below ⊢ <;> omega
    have high : (BitVec.ofNat 32 (lastBit.toNat + (w.size - 1) - (lastBit.toNat + (w.size - 1)) % w.size)).toNat =
        unitKind.stop 0 units - 64 - (unitKind.stop 0 units - 64) % w.size + w.size := by
      rw [BitVec.toNat_ofNat, last, ends]
      rcases size with size | size <;> rw [size] at below ⊢ <;> omega
    have wide : unitKind.stop 0 units ≤
        unitKind.stop 0 units - 64 - (unitKind.stop 0 units - 64) % w.size + w.size := by
      rcases size with size | size <;> rw [size] <;> omega
    have narrow : unitKind.stop 0 units - 64 - (unitKind.stop 0 units - 64) % w.size + w.size < 2 ^ 31 := by
      rcases size with size | size <;> rw [size] at below ⊢ <;> omega
    have nonzero : BitVec.ofNat 32 (lastBit.toNat + (w.size - 1) - (lastBit.toNat + (w.size - 1)) % w.size) ≠ 0 := by
      intro zero
      rw [zero] at high
      change 0 = _ at high
      omega
    have counts : count.toNat = units.length := by
      rw [number, BitVec.toNat_ofNat, Nat.mod_eq_of_lt]
      rcases size with size | size <;> rw [size] at below <;> omega
    have start : Loaded ([] : List (WordNode w)) 0 :=
      ⟨trivial, fun b has => absurd has BlockKind.hasAny_nil⟩
    obtain ⟨nodes, loop, ordered, bits, stop⟩ := times_loaded start ascending (high ▸ wide) (high ▸ narrow) some
    refine ⟨{ node := nodes.reverse, highbit := _ }, ⟨ordered, high.trans stop.symm⟩, fun b => ?_,
      fun rest => ?_⟩
    · change (nodeKind w).HasAny nodes.reverse b ↔ _
      rw [hasAny_reverse, bits]
      simp only [BlockKind.hasAny_nil, false_or]
    · simp only [WordBitmap.read, ByteReader.bind_ok, ByteReader.require_ok, List.append_assoc]
      refine ⟨64, _, nextU32_put 64 _, lastBit, _, nextU32_put lastBit _, count, _, nextU32_put count _, (), _,
        ⟨rfl, rfl⟩, ?_⟩
      rw [rounded, if_neg nonzero]
      simp only [ByteReader.bind_ok, ByteReader.require_ok, ByteReader.pure_ok]
      refine ⟨(), _, ⟨fun zero => ?_, rfl⟩, nodes, rest, ?_, rfl, rfl⟩
      · rw [zero] at counts
        change 0 = _ at counts
        omega
      · rw [counts]
        exact loop rest

/-- A canonical bitmap whose bits an `int` can count, with a node to spare, is read back from what is
written of it, from exactly these bytes, and the bitmap that was read is written in the same way. -/
theorem write_read (ok : Canonical e) (small : ∀ b, InBitmap e b → b < 2 ^ 31 - w.size) :
    ∃ bytes e', ByteWriter.Emits einval e.write bytes ∧ ByteReader.Takes (WordBitmap.read w) bytes e' ∧
      e.cmp e' = true ∧ ByteWriter.Emits einval e'.write bytes := by
  have walk := positiveBits_toNat ok
  have sorted : (e.positiveBits.map BitVec.toNat).Pairwise (· < ·) := by
    rw [walk]
    exact ok.nodes.sorted
  have bits : ∀ b, b ∈ e.positiveBits.map BitVec.toNat ↔ InBitmap e b := by
    intro b
    rw [walk]
    exact BlockKind.mem_flatMap_members
  obtain ⟨ascending, has, lastBit, counted, last⟩ := written_all sorted fun b member => by
    have := small b.toNat ((bits b.toNat).mp (List.mem_map_of_mem member))
    omega
  obtain ⟨e', ok', bits', takes⟩ := read_written ascending rfl last
    fun b inside => small b ((bits b).mp ((has b).mp inside))
  have same : e = e' := canonical_ext ok ok' fun b => by rw [bits', has, bits]
  subst same
  have written : bitmapBytes e = cpuToLe32 64 ++ cpuToLe32 lastBit ++
      cpuToLe32 (BitVec.ofNat 32 (ebitmapWriteUnits e.positiveBits 0 intMin).length) ++
      (ebitmapWriteUnits e.positiveBits 0 intMin).flatMap unitBytes := by
    unfold bitmapBytes
    rw [counted]
  refine ⟨bitmapBytes e, e, emits_write e, ?_, cmp_refl e, emits_write e⟩
  rw [written]
  exact takes

/-- A bitmap of a 32-bit kernel with bits 32 and 200, in two nodes. -/
def twoNodes : WordBitmap .word32 where
  node := [{ startbit := 0, maps := #v[0, 1, 0, 0, 0, 0] }, { startbit := 192, maps := #v[0x100, 0, 0, 0, 0, 0] }]
  highbit := 384

theorem twoNodes_canonical : Canonical twoNodes where
  nodes := ⟨by decide, by decide, ⟨32, by decide, by decide, by decide⟩, by decide, by decide,
    ⟨200, by decide, by decide, by decide⟩, trivial⟩
  high := by decide

theorem write_read_twoNodes :
    ∃ bytes e', ByteWriter.Emits einval twoNodes.write bytes ∧
      ByteReader.Takes (WordBitmap.read .word32) bytes e' ∧ twoNodes.cmp e' = true ∧
        ByteWriter.Emits einval e'.write bytes :=
  write_read twoNodes_canonical fun _ inside =>
    lt_of_lt_of_le (twoNodes_canonical.nodes.upper inside) (by decide)

end RoundTrip

section SixtyFour

/-- A node of a 64-bit kernel. -/
def toNode (n : WordNode .word64) : EbitmapNode := { startbit := n.startbit, maps := n.maps }

def toEbitmap (e : WordBitmap .word64) : Ebitmap := { node := e.node.map toNode, highbit := e.highbit }

theorem toNode_bit (n : WordNode .word64) {ofs : Nat} (small : ofs < ebitmapSize) :
    (toNode n).bit ofs = n.bit ofs := by
  have inside : ofs / ebitmapUnitSize < ebitmapUnitNums := by
    unfold ebitmapSize at small
    unfold ebitmapUnitSize ebitmapUnitNums
    omega
  unfold EbitmapNode.bit
  rw [dif_pos inside]
  change _ = (n.maps.getD (ofs / ebitmapUnitSize) 0).getLsbD (ofs % ebitmapUnitSize)
  rw [getD_eq_getElem n.maps inside]
  rfl

theorem toEbitmap_positiveBits (e : WordBitmap .word64) :
    ebitmapPositiveBits (toEbitmap e) = e.positiveBits := by
  unfold ebitmapPositiveBits WordBitmap.positiveBits toEbitmap
  dsimp only
  congr 1
  rw [List.flatMap_map]
  have bits : ∀ n : WordNode .word64, (List.range ebitmapSize).filter (toNode n).bit =
      (List.range ebitmapSize).filter n.bit := fun n =>
    List.filter_congr fun ofs member => toNode_bit n (List.mem_range.mp member)
  exact congrArg (fun f => e.node.flatMap f) (funext fun n => by rw [bits]; rfl)

/-- On a 64-bit kernel the writer is that of `Source.EbitmapFile`. -/
theorem write_word64 (e : WordBitmap .word64) : ebitmapWrite (toEbitmap e) = e.write := by
  unfold ebitmapWrite WordBitmap.write
  rw [toEbitmap_positiveBits]

/-- A value of a reader in another form. -/
def mapResult {α β : Type} (g : α → β) : Except Fault (α × List U8) → Except Fault (β × List U8)
  | .error e => .error e
  | .ok (a, rest) => .ok (g a, rest)

theorem mapResult_bind {α β γ : Type} {g : β → γ} {x : PolicyReader α} {f : α → PolicyReader β}
    {f' : α → PolicyReader γ} (each : ∀ a s, f' a s = mapResult g (f a s)) (s : List U8) :
    (x >>= f') s = mapResult g ((x >>= f) s) := by
  change ByteReader.andThen x f' s = mapResult g (ByteReader.andThen x f s)
  unfold ByteReader.andThen
  cases x s with
  | error e => rfl
  | ok pair => exact each pair.1 pair.2

theorem times_mapResult {α β : Type} {g : α → β} {f : α → PolicyReader α} {f' : β → PolicyReader β}
    (each : ∀ a s, f' (g a) s = mapResult g (f a s)) (n : Nat) (a : α) (s : List U8) :
    ByteReader.times f' n (g a) s = mapResult g (ByteReader.times f n a s) := by
  induction n generalizing a s with
  | zero => rfl
  | succ n ih =>
    unfold ByteReader.times ByteReader.andThen
    rw [each]
    cases f a s with
    | error e => rfl
    | ok pair => exact ih pair.1 pair.2

theorem readNode_word64 (startbit : U32) (nodes : List (WordNode .word64)) :
    ebitmapReadNode startbit (nodes.map toNode) =
      (WordBitmap.readNode startbit nodes).map fun p => (toNode p.1, p.2.map toNode) := by
  cases nodes with
  | nil => rfl
  | cons n rest =>
    have stop : n.stop = n.startbit.toNat + ebitmapSize := by
      have small := n.startbit.isLt
      unfold WordNode.stop
      exact Nat.mod_eq_of_lt (by change n.startbit.toNat + 384 < 2 ^ 64; omega)
    have start : (toNode n).startbit = n.startbit := rfl
    unfold ebitmapReadNode WordBitmap.readNode
    rw [List.map_cons]
    dsimp only
    rw [stop, start]
    by_cases past : n.startbit.toNat + ebitmapSize ≤ startbit.toNat
    · rw [if_pos past, if_pos past]
      rfl
    · rw [if_neg past, if_neg past]
      by_cases before : startbit ≤ n.startbit
      · rw [if_pos before, if_pos before]
        rfl
      · rw [if_neg before, if_neg before]
        rfl

theorem readMap_word64 (n : WordNode .word64) (startbit : U32) (map : U64) :
    ebitmapReadMap (toNode n) startbit map = toNode (WordBitmap.readMap n startbit map) := by
  unfold ebitmapReadMap WordBitmap.readMap
  by_cases zero : map = 0
  · rw [if_pos zero, WordBitmap.storeMap, if_pos zero]
  · rw [if_neg zero, WordBitmap.storeMap, if_neg zero, WordBitmap.storeMap, if_pos (shift_word64 map)]
    have whole : map.truncate 64 = map := by rw [BitVec.truncate_eq_setWidth, BitVec.setWidth_eq]
    change toNode { n with maps := n.maps.setIfInBounds _ map } =
      toNode { n with maps := n.maps.setIfInBounds _ (map.truncate 64) }
    rw [whole]
    rfl

theorem readUnit_word64 (highbit : U32) (nodes : List (WordNode .word64)) (s : List U8) :
    ebitmapReadUnit highbit (nodes.map toNode) s =
      mapResult (List.map toNode) (WordBitmap.readUnit highbit nodes s) := by
  unfold ebitmapReadUnit WordBitmap.readUnit
  refine mapResult_bind (fun startbit s => ?_) s
  refine mapResult_bind (fun _ s => ?_) s
  refine mapResult_bind (fun _ s => ?_) s
  rw [readNode_word64]
  cases place : WordBitmap.readNode startbit nodes with
  | error e => rfl
  | ok p =>
    change (nextU64 >>= fun map => pure (ebitmapReadMap (toNode p.1) startbit map :: p.2.map toNode) :
        PolicyReader _) s =
      mapResult _ ((nextU64 >>= fun map => pure (WordBitmap.readMap p.1 startbit map :: p.2) :
        PolicyReader _) s)
    refine mapResult_bind (fun map s => ?_) s
    rw [readMap_word64]
    rfl

/-- On a 64-bit kernel the reader is that of `Source.EbitmapFile`. -/
theorem read_word64 (bytes : List U8) :
    ebitmapRead bytes = mapResult toEbitmap (WordBitmap.read .word64 bytes) := by
  unfold ebitmapRead WordBitmap.read
  refine mapResult_bind (fun mapunit s => ?_) bytes
  refine mapResult_bind (fun high s => ?_) s
  refine mapResult_bind (fun count s => ?_) s
  refine mapResult_bind (fun _ s => ?_) s
  have rest : ∀ highbit : U32,
      (if highbit = 0 then pure { node := [], highbit := 0 }
        else do
          ByteReader.require einval (count ≠ 0)
          let nodes ← ByteReader.times (ebitmapReadUnit highbit) count.toNat []
          pure { node := nodes.reverse, highbit } : PolicyReader Ebitmap) s =
        mapResult toEbitmap ((if highbit = 0 then pure { node := [], highbit := 0 }
          else do
            ByteReader.require einval (count ≠ 0)
            let nodes ← ByteReader.times (WordBitmap.readUnit highbit) count.toNat []
            pure { node := nodes.reverse, highbit } : PolicyReader (WordBitmap .word64)) s) := by
    intro highbit
    by_cases zero : highbit = 0
    · rw [if_pos zero, if_pos zero]
      rfl
    · rw [if_neg zero, if_neg zero]
      refine mapResult_bind (fun _ s => ?_) s
      have loop := times_mapResult (readUnit_word64 highbit) count.toNat [] s
      change ByteReader.andThen _ _ s = mapResult _ (ByteReader.andThen _ _ s)
      unfold ByteReader.andThen
      rw [List.map_nil] at loop
      rw [loop]
      cases ByteReader.times (WordBitmap.readUnit highbit) count.toNat [] s with
      | error e => rfl
      | ok pair =>
        change Except.ok (({ node := (pair.1.map toNode).reverse, highbit } : Ebitmap), pair.2) = _
        rw [← List.map_reverse]
        rfl
  exact rest _

end SixtyFour

end Ksrc.Guarantees.EbitmapRoundTrip

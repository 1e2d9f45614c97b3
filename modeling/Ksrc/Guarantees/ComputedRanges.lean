import Mathlib.Order.Interval.Set.Basic
import Ksrc.Guarantees.SymbolSlots
import Ksrc.Source.ComputeRange

/-!
# The ranges of new objects

Source: `security/selinux/ss/mls.c` (`mls_compute_sid`), `context.h` (`mls_context_glblub`),
`ebitmap.c` (`ebitmap_and`).

Whatever path makes the range of a new object, it is valid where those of the source and the target are.
The default `glblub` intersects the categories by `ebitmap_and`, which leaves out those from `2 ^ 31` on:
the range is valid without them, but it is not the intersection.
-/
namespace Ksrc.Guarantees.ComputedRanges

open Library Source EbitmapBits EbitmapFiles
open EbitmapSets EbitmapWalks
open LevelValidity PolicyImages
open LoadedSlots SymbolSlots
open UserContexts (RangeBuilt dom_iff dom_refl rangeIsvalid_iff)

/-- The sensitivities of a range. -/
def sensitivities (r : MlsRange) : Set Nat := Set.Icc r.low.sens.toNat r.high.sens.toNat

/-- A range has the sensitivities that two ranges share, and the categories that their low and that
their high levels share. -/
structure Common (r r1 r2 : MlsRange) : Prop where
  sens : sensitivities r = sensitivities r1 ∩ sensitivities r2
  low : bitsOf r.low.cat = bitsOf r1.low.cat ∩ bitsOf r2.low.cat
  high : bitsOf r.high.cat = bitsOf r1.high.cat ∩ bitsOf r2.high.cat

/-- `mls_compute_sid` comes to the case of `DEFAULT_GLBLUB`. -/
structure TakesGlblub (p : Policydb) (scontext tcontext : Context) (tclass : U16) (specified : U32) :
    Prop where
  transition : specified = avtabTransition.zeroExtend 32
  noRule : policydbRangetrSearch p scontext tcontext tclass = none
  default : ∃ c, mlsCladatum p tclass = .ok (some c) ∧ c.defaultRange = defaultGlblub

/-- The range that is left is valid, and that of `glblub` is the intersection, which there is none of
exactly when `mls_compute_sid` says so. -/
structure RangeComputed (p : Policydb) (scontext tcontext : Context) (tclass : U16) (specified : U32)
    (sock : Bool) : Prop where
  valid : ∀ alloc r, mlsComputeSid p scontext tcontext alloc tclass specified sock = .ok r →
    mlsRangeIsvalid p r = .ok true
  refused : TakesGlblub p scontext tcontext tclass specified → ∀ alloc,
    (mlsComputeSid p scontext tcontext alloc tclass specified sock = .error einval ↔
      sensitivities scontext.range ∩ sensitivities tcontext.range = ∅)
  common : TakesGlblub p scontext tcontext tclass specified → ∀ alloc r,
    mlsComputeSid p scontext tcontext alloc tclass specified sock = .ok r →
      Common r scontext.range tcontext.range
  made : TakesGlblub p scontext tcontext tclass specified →
    (sensitivities scontext.range ∩ sensitivities tcontext.range).Nonempty →
      ∃ r, mlsComputeSid p scontext tcontext .all tclass specified sock = .ok r

variable {p : Policydb} {scontext tcontext c : Context} {tclass : U16} {specified : U32} {sock : Bool}
  {alloc : RangeAlloc} {r : MlsRange} {l low high : MlsLevel} {e e1 e2 : Ebitmap}

section Bitmaps

/-- A bitmap is copied as it is. -/
theorem cpy_ok {one : Nat → Bool} (done : (ebitmapCpy one e).1 = none) : (ebitmapCpy one e).2 = e := by
  rcases @cpy_eq one e with failed | copied
  · rw [failed] at done
    cases done
  · rw [copied]

theorem cpy_all (e : Ebitmap) : ebitmapCpy (fun _ => true) e = (none, e) := by
  have nodes (k : Nat) (nodes : List EbitmapNode) :
      ebitmapCpyNodes (fun _ => true) k nodes = some nodes := by
    induction nodes generalizing k with
    | nil => rfl
    | cons n rest ih =>
      unfold ebitmapCpyNodes
      rw [if_pos rfl, ih]
      rfl
  unfold ebitmapCpy
  rw [nodes]

/-- `ebitmap_and` only fails for want of memory. -/
theorem andBits_error {one : Nat → Bool} {rc : Errno} {bits : List U32} {k : Nat} {dst : Ebitmap}
    (failed : (ebitmapAndBits one e2 k bits dst).1 = some rc) : rc = .ENOMEM ∧ ∃ j, one j = false := by
  induction bits generalizing k dst with
  | nil => cases failed
  | cons bit rest ih =>
    unfold ebitmapAndBits at failed
    split at failed
    · unfold ebitmapSetBitAlloc at failed
      split at failed
      · rename_i rc' dst' once
        split at once
        · rename_i refused
          cases once
          cases failed
          exact ⟨rfl, k, eq_false_of_ne_true refused.2.2⟩
        · cases once
      · exact ih failed
    · exact ih failed

end Bitmaps

section Making

variable {lowSens highSens : U32} {one two : Option Errno × Ebitmap}

theorem mlsRangeMake_ok (made : mlsRangeMake lowSens highSens one two = .ok r) :
    one.1 = none ∧ two.1 = none ∧
      r = { low := { sens := lowSens, cat := one.2 }, high := { sens := highSens, cat := two.2 } } := by
  unfold mlsRangeMake at made
  split at made
  · cases made
  · cases made
  · rename_i first second
    cases made
    exact ⟨first, second, rfl⟩

theorem mlsRangeMake_done (first : one.1 = none) (second : two.1 = none) :
    mlsRangeMake lowSens highSens one two =
      .ok { low := { sens := lowSens, cat := one.2 }, high := { sens := highSens, cat := two.2 } } := by
  unfold mlsRangeMake
  rw [first, second]

theorem mlsRangeMake_memory (first : ∀ rc, one.1 = some rc → rc = .ENOMEM)
    (second : ∀ rc, two.1 = some rc → rc = .ENOMEM) :
    mlsRangeMake lowSens highSens one two ≠ .error einval := by
  intro failed
  unfold mlsRangeMake at failed
  split at failed
  · rename_i rc is
    rw [first rc is] at failed
    cases failed
  · rename_i rc _ is
    rw [second rc is] at failed
    cases failed
  · cases failed

/-- Two levels that are copied. -/
theorem copied_eq (made : mlsRangeMake low.sens high.sens (ebitmapCpy alloc.low low.cat)
    (ebitmapCpy alloc.high high.cat) = .ok r) : r = { low, high } := by
  obtain ⟨first, second, is⟩ := mlsRangeMake_ok made
  rw [is, cpy_ok first, cpy_ok second]

theorem copied_all : mlsRangeMake low.sens high.sens (ebitmapCpy (fun _ => true) low.cat)
    (ebitmapCpy (fun _ => true) high.cat) = .ok { low, high } := by
  rw [cpy_all, cpy_all]
  rfl

end Making

section Levels

/-- A level with the sensitivity of a valid one and a part of its categories is valid. -/
theorem level_of_subset (loaded : TablesLoaded p) (built : Built l.cat)
    (valid : mlsLevelIsvalid p l = .ok true) (same : low.sens.toNat = l.sens.toNat)
    (ok : Canonical low.cat) (subset : bitsOf low.cat ⊆ bitsOf l.cat) :
    mlsLevelIsvalid p low = .ok true := by
  obtain ⟨datum, defined, contains⟩ := (mlsLevelIsvalid_iff p l).mp valid
  have builtDatum := SensDatum.built loaded defined
  obtain ⟨-, bits, bound⟩ := (contains_iff builtDatum built).mp contains
  rw [← BitVec.eq_of_toNat_eq same] at defined
  have within : bitsOf low.cat ⊆ bitsOf datum.level.cat := fun b inside => bits b (subset inside)
  refine (mlsLevelIsvalid_iff p low).mpr ⟨datum, defined, ?_⟩
  refine (contains_iff builtDatum (Canonical.built ok)).mpr ⟨covers_of_subset builtDatum ok within, ?_, ?_⟩
  · exact fun b inside => within inside
  · exact fun some b inside => bound some b (subset inside)

/-- Each level of a valid range is a valid range. -/
theorem single_valid (built : Built l.cat) (valid : mlsLevelIsvalid p l = .ok true) :
    mlsRangeIsvalid p { low := l, high := l } = .ok true :=
  rangeIsvalid_iff.mpr ⟨⟨valid, valid⟩, dom_refl built⟩

/-- The levels of a valid range are in order. -/
theorem range_ordered (built : RangeBuilt r) (valid : mlsRangeIsvalid p r = .ok true) :
    r.low.sens.toNat ≤ r.high.sens.toNat ∧ bitsOf r.low.cat ⊆ bitsOf r.high.cat := by
  obtain ⟨-, dom⟩ := rangeIsvalid_iff.mp valid
  obtain ⟨sens, -, bits⟩ := (dom_iff built.high built.low).mp dom
  exact ⟨sens, fun b inside => bits b inside⟩

/-- The test of `mls_context_glblub`. -/
theorem apart_iff {r1 r2 : MlsRange} (order1 : r1.low.sens.toNat ≤ r1.high.sens.toNat)
    (order2 : r2.low.sens.toNat ≤ r2.high.sens.toNat) :
    (r1.high.sens < r2.low.sens ∨ r2.high.sens < r1.low.sens) ↔
      sensitivities r1 ∩ sensitivities r2 = ∅ := by
  unfold sensitivities
  rw [Set.Icc_inter_Icc, Set.Icc_eq_empty_iff, BitVec.lt_def, BitVec.lt_def]
  simp only [sup_le_iff, le_inf_iff]
  omega

end Levels

section Glblub

/-- What `mls_context_glblub` makes of two ranges. -/
structure Bounds (r r1 r2 : MlsRange) : Prop where
  lowSens : r.low.sens.toNat = r1.low.sens.toNat ⊔ r2.low.sens.toNat
  highSens : r.high.sens.toNat = r1.high.sens.toNat ⊓ r2.high.sens.toNat
  lowMade : Canonical r.low.cat
  highMade : Canonical r.high.cat
  lowBits : bitsOf r.low.cat = {b | b < intBits} ∩ (bitsOf r1.low.cat ∩ bitsOf r2.low.cat)
  highBits : bitsOf r.high.cat = {b | b < intBits} ∩ (bitsOf r1.high.cat ∩ bitsOf r2.high.cat)
  meet : ¬ (r1.high.sens < r2.low.sens ∨ r2.high.sens < r1.low.sens)

theorem glblub_bounds (s : RangeBuilt scontext.range) (t : RangeBuilt tcontext.range)
    (made : mlsContextGlblubAlloc alloc scontext tcontext = .ok r) :
    Bounds r scontext.range tcontext.range := by
  unfold mlsContextGlblubAlloc at made
  dsimp only at made
  split at made
  · cases made
  rename_i meet
  obtain ⟨first, second, rfl⟩ := mlsRangeMake_ok made
  obtain ⟨lowMade, -, lowBits⟩ := @and_spec _ _ alloc.low s.low t.low
  obtain ⟨highMade, -, highBits⟩ := @and_spec _ _ alloc.high s.high t.high
  constructor
  · dsimp only
    split
    · rename_i less
      exact (sup_eq_right.mpr (Nat.le_of_lt less)).symm
    · rename_i less
      exact (sup_eq_left.mpr (Nat.le_of_not_lt less)).symm
  · dsimp only
    split
    · rename_i less
      exact (inf_eq_left.mpr (Nat.le_of_lt less)).symm
    · rename_i less
      exact (inf_eq_right.mpr (Nat.le_of_not_lt less)).symm
  · exact lowMade
  · exact highMade
  · exact lowBits (by rw [first]; rfl)
  · exact highBits (by rw [second]; rfl)
  · exact meet

theorem glblub_valid (loaded : TablesLoaded p) (s : RangeBuilt scontext.range)
    (t : RangeBuilt tcontext.range) (sValid : mlsRangeIsvalid p scontext.range = .ok true)
    (tValid : mlsRangeIsvalid p tcontext.range = .ok true)
    (made : mlsContextGlblubAlloc alloc scontext tcontext = .ok r) :
    mlsRangeIsvalid p r = .ok true := by
  have bounds := glblub_bounds s t made
  obtain ⟨⟨sLow, sHigh⟩, -⟩ := rangeIsvalid_iff.mp sValid
  obtain ⟨⟨tLow, tHigh⟩, -⟩ := rangeIsvalid_iff.mp tValid
  obtain ⟨sOrder, sBits⟩ := range_ordered s sValid
  obtain ⟨tOrder, tBits⟩ := range_ordered t tValid
  have lowShared := bounds.lowBits.le.trans Set.inter_subset_right
  have highShared := bounds.highBits.le.trans Set.inter_subset_right
  have lowValid : mlsLevelIsvalid p r.low = .ok true := by
    have sens := bounds.lowSens
    rcases max_choice scontext.range.low.sens.toNat tcontext.range.low.sens.toNat with is | is
    · rw [is] at sens
      exact level_of_subset loaded s.low sLow sens bounds.lowMade (lowShared.trans Set.inter_subset_left)
    · rw [is] at sens
      exact level_of_subset loaded t.low tLow sens bounds.lowMade (lowShared.trans Set.inter_subset_right)
  have highValid : mlsLevelIsvalid p r.high = .ok true := by
    have sens := bounds.highSens
    rcases min_choice scontext.range.high.sens.toNat tcontext.range.high.sens.toNat with is | is
    · rw [is] at sens
      exact level_of_subset loaded s.high sHigh sens bounds.highMade (highShared.trans Set.inter_subset_left)
    · rw [is] at sens
      exact level_of_subset loaded t.high tHigh sens bounds.highMade
        (highShared.trans Set.inter_subset_right)
  have sens : r.low.sens.toNat ≤ r.high.sens.toNat := by
    have meet := bounds.meet
    rw [BitVec.lt_def, BitVec.lt_def] at meet
    rw [bounds.lowSens, bounds.highSens]
    simp only [sup_le_iff, le_inf_iff]
    omega
  have bits : bitsOf r.low.cat ⊆ bitsOf r.high.cat := by
    rw [bounds.lowBits, bounds.highBits]
    exact Set.inter_subset_inter_right _ (Set.inter_subset_inter sBits tBits)
  have built := Canonical.built bounds.highMade
  refine rangeIsvalid_iff.mpr ⟨⟨lowValid, highValid⟩, ?_⟩
  refine (dom_iff built (Canonical.built bounds.lowMade)).mpr ⟨sens, ?_, fun b inside => bits inside⟩
  exact covers_of_subset built bounds.lowMade bits

/-- `mls_context_glblub` finds the ranges disjoint, or runs out of memory. -/
theorem glblub_refused_iff :
    mlsContextGlblubAlloc alloc scontext tcontext = .error einval ↔
      (scontext.range.high.sens < tcontext.range.low.sens ∨
        tcontext.range.high.sens < scontext.range.low.sens) := by
  unfold mlsContextGlblubAlloc
  dsimp only
  split
  · rename_i apart
    exact iff_of_true rfl apart
  · rename_i meet
    refine iff_of_false (mlsRangeMake_memory ?_ ?_) meet
    · exact fun rc failed => (andBits_error failed).1
    · exact fun rc failed => (andBits_error failed).1

theorem and_all (e1 e2 : Ebitmap) : (ebitmapAnd (fun _ => true) e1 e2).1 = none := by
  cases failed : (ebitmapAnd (fun _ => true) e1 e2).1 with
  | none => rfl
  | some rc =>
    obtain ⟨-, j, refused⟩ := andBits_error failed
    cases refused

/-- Nothing else stands in the way of `mls_context_glblub`. -/
theorem glblub_made (meet : ¬ (scontext.range.high.sens < tcontext.range.low.sens ∨
    tcontext.range.high.sens < scontext.range.low.sens)) :
    ∃ r, mlsContextGlblubAlloc .all scontext tcontext = .ok r := by
  unfold mlsContextGlblubAlloc
  dsimp only
  rw [if_neg meet]
  exact ⟨_, mlsRangeMake_done (and_all _ _) (and_all _ _)⟩

/-- The range is the intersection where no category from `2 ^ 31` on is one of both high levels. -/
theorem glblub_common (s : RangeBuilt scontext.range) (t : RangeBuilt tcontext.range)
    (sValid : mlsRangeIsvalid p scontext.range = .ok true)
    (tValid : mlsRangeIsvalid p tcontext.range = .ok true)
    (made : mlsContextGlblubAlloc alloc scontext tcontext = .ok r)
    (small : bitsOf scontext.range.high.cat ∩ bitsOf tcontext.range.high.cat ⊆ {b | b < intBits}) :
    Common r scontext.range tcontext.range := by
  have bounds := glblub_bounds s t made
  constructor
  · unfold sensitivities
    rw [Set.Icc_inter_Icc, bounds.lowSens, bounds.highSens]
  · rw [bounds.lowBits]
    have within := Set.inter_subset_inter (range_ordered s sValid).2 (range_ordered t tValid).2
    exact Set.inter_eq_right.mpr (within.trans small)
  · rw [bounds.highBits]
    exact Set.inter_eq_right.mpr small

/-- The range of `glblub` has no category from `2 ^ 31` on. -/
theorem small_of_common (s : RangeBuilt scontext.range) (t : RangeBuilt tcontext.range)
    (made : mlsContextGlblubAlloc alloc scontext tcontext = .ok r)
    (common : Common r scontext.range tcontext.range) :
    bitsOf scontext.range.high.cat ∩ bitsOf tcontext.range.high.cat ⊆ {b | b < intBits} := by
  have bits := (glblub_bounds s t made).highBits
  rw [common.high] at bits
  exact Set.inter_eq_right.mp bits.symm

end Glblub

section Computing

/-- Where `glblub` is taken, it is all there is to do. -/
theorem computeSid_glblub (enabled : p.mlsEnabled = true)
    (taken : TakesGlblub p scontext tcontext tclass specified) :
    mlsComputeSid p scontext tcontext alloc tclass specified sock =
      mlsContextGlblubAlloc alloc scontext tcontext := by
  obtain ⟨c, slot, default⟩ := taken.default
  have given : mlsDefaultRangeAlloc alloc scontext tcontext c.defaultRange =
      some (mlsContextGlblubAlloc alloc scontext tcontext) := by
    rw [default]
    rfl
  unfold mlsComputeSid
  rw [if_neg (not_not.mpr enabled), if_pos taken.transition, taken.noRule, slot]
  simp only [bind, Except.bind, Option.bind, given]

theorem cpy_valid (valid : mlsRangeIsvalid p c.range = .ok true)
    (made : mlsContextCpyAlloc alloc c = .ok r) : mlsRangeIsvalid p r = .ok true := by
  rw [copied_eq made]
  exact valid

theorem cpyLow_valid (built : RangeBuilt c.range) (valid : mlsRangeIsvalid p c.range = .ok true)
    (made : mlsContextCpyLowAlloc alloc c = .ok r) : mlsRangeIsvalid p r = .ok true := by
  rw [copied_eq made]
  exact single_valid built.low (rangeIsvalid_iff.mp valid).1.1

theorem cpyHigh_valid (built : RangeBuilt c.range) (valid : mlsRangeIsvalid p c.range = .ok true)
    (made : mlsContextCpyHighAlloc alloc c = .ok r) : mlsRangeIsvalid p r = .ok true := by
  rw [copied_eq made]
  exact single_valid built.high (rangeIsvalid_iff.mp valid).1.2

theorem change_valid (built : RangeBuilt c.range) (valid : mlsRangeIsvalid p c.range = .ok true)
    (made : mlsChangeRangeAlloc p c alloc tclass sock = .ok r) : mlsRangeIsvalid p r = .ok true := by
  unfold mlsChangeRangeAlloc at made
  split at made
  · exact cpy_valid valid made
  · exact cpyLow_valid built valid made

/-- Every kind of `default_range` gives a valid range. -/
theorem default_valid (loaded : TablesLoaded p) (s : RangeBuilt scontext.range)
    (t : RangeBuilt tcontext.range) (sValid : mlsRangeIsvalid p scontext.range = .ok true)
    (tValid : mlsRangeIsvalid p tcontext.range = .ok true) {defaultRange : U8}
    (made : mlsDefaultRangeAlloc alloc scontext tcontext defaultRange = some (.ok r)) :
    mlsRangeIsvalid p r = .ok true := by
  unfold mlsDefaultRangeAlloc at made
  split at made
  · exact cpyLow_valid s sValid (Option.some.inj made)
  split at made
  · exact cpyHigh_valid s sValid (Option.some.inj made)
  split at made
  · exact cpy_valid sValid (Option.some.inj made)
  split at made
  · exact cpyLow_valid t tValid (Option.some.inj made)
  split at made
  · exact cpyHigh_valid t tValid (Option.some.inj made)
  split at made
  · exact cpy_valid tValid (Option.some.inj made)
  split at made
  · exact glblub_valid loaded s t sValid tValid (Option.some.inj made)
  · cases made

/-- Whatever makes the range, it is valid. -/
theorem computed_valid (loaded : TablesLoaded p) (enabled : p.mlsEnabled = true)
    (s : RangeBuilt scontext.range) (t : RangeBuilt tcontext.range)
    (sValid : mlsRangeIsvalid p scontext.range = .ok true)
    (tValid : mlsRangeIsvalid p tcontext.range = .ok true)
    (made : mlsComputeSid p scontext tcontext alloc tclass specified sock = .ok r) :
    mlsRangeIsvalid p r = .ok true := by
  unfold mlsComputeSid at made
  rw [if_neg (not_not.mpr enabled)] at made
  split at made
  · cases found : policydbRangetrSearch p scontext tcontext tclass with
    | some rule =>
      rw [found] at made
      obtain ⟨k, member, -⟩ := rangetr_entry found
      rw [copied_eq made]
      exact (loaded.rangeTrans _ member).2
    | none =>
      rw [found] at made
      obtain ⟨cladatum, -, made⟩ := exceptBind_ok.mp made
      cases given : cladatum.bind fun c => mlsDefaultRangeAlloc alloc scontext tcontext c.defaultRange with
      | none =>
        rw [given] at made
        exact change_valid s sValid made
      | some answer =>
        rw [given] at made
        obtain ⟨c, -, given⟩ := Option.bind_eq_some_iff.mp given
        cases made
        exact default_valid loaded s t sValid tValid given
  split at made
  · exact change_valid s sValid made
  split at made
  · exact cpyLow_valid s sValid made
  · cases made

/-- The range that is computed for valid contexts of an accepted policy is valid, and what `glblub` asks
for is computed exactly when the high levels have no category from `2 ^ 31` on in common. -/
theorem range_computed_iff {bytes rest : List U8} (read : policydbRead bytes = .ok (p, rest))
    (enabled : p.mlsEnabled = true) (s : ValidContext p scontext) (t : ValidContext p tcontext) :
    RangeComputed p scontext tcontext tclass specified sock ↔
      (TakesGlblub p scontext tcontext tclass specified →
        (sensitivities scontext.range ∩ sensitivities tcontext.range).Nonempty →
          bitsOf scontext.range.high.cat ∩ bitsOf tcontext.range.high.cat ⊆ {b | b < intBits}) := by
  have loaded := policydbRead_tables read
  have sValid := (check_passed s.valid).range enabled
  have tValid := (check_passed t.valid).range enabled
  have apart := apart_iff (range_ordered s.built sValid).1 (range_ordered t.built tValid).1
  constructor
  · intro computed taken meet
    obtain ⟨r, made⟩ := computed.made taken meet
    have common := computed.common taken .all r made
    rw [computeSid_glblub enabled taken] at made
    exact small_of_common s.built t.built made common
  · intro small
    constructor
    · intro alloc r made
      exact computed_valid loaded enabled s.built t.built sValid tValid made
    · intro taken alloc
      rw [computeSid_glblub enabled taken, glblub_refused_iff, apart]
    · intro taken alloc r made
      rw [computeSid_glblub enabled taken] at made
      have meet := (glblub_bounds s.built t.built made).meet
      rw [apart, ← ne_eq, ← Set.nonempty_iff_ne_empty] at meet
      exact glblub_common s.built t.built sValid tValid made (small taken meet)
    · intro taken meet
      rw [computeSid_glblub enabled taken]
      rw [Set.nonempty_iff_ne_empty, ne_eq, ← apart] at meet
      exact glblub_made meet

end Computing

section Reads

theorem cladatumReads_result : (cladatumReads p tclass).result = mlsCladatum p tclass := by
  unfold cladatumReads mlsCladatum
  split
  · rfl
  · rfl

theorem glblub_all : mlsContextGlblubAlloc .all scontext tcontext = mlsContextGlblub scontext tcontext := by
  unfold mlsContextGlblubAlloc mlsContextGlblub
  dsimp only
  split
  · rfl
  · exact mlsRangeMake_done (and_all _ _) (and_all _ _)

theorem change_all : mlsChangeRangeAlloc p scontext .all tclass sock =
    .ok (mlsChangeRange p scontext tclass sock) := by
  unfold mlsChangeRangeAlloc mlsChangeRange
  split
  · exact copied_all
  · exact copied_all

theorem default_all (defaultRange : U8) :
    mlsDefaultRangeAlloc .all scontext tcontext defaultRange =
      mlsDefaultRange scontext tcontext defaultRange := by
  have copied (low high : MlsLevel) : mlsRangeMake low.sens high.sens
      (ebitmapCpy RangeAlloc.all.low low.cat) (ebitmapCpy RangeAlloc.all.high high.cat) =
        .ok { low, high } := copied_all
  unfold mlsDefaultRangeAlloc mlsDefaultRange mlsContextCpyLowAlloc mlsContextCpyHighAlloc
    mlsContextCpyAlloc
  simp only [copied, glblub_all]
  rfl

theorem specified_eq {specified known : U16} :
    (specified.zeroExtend 32 : U32) = known.zeroExtend 32 ↔ specified = known := by
  constructor
  · intro same
    have value := congrArg (BitVec.setWidth 16) same
    simpa using value
  · rintro rfl
    rfl

/-- The range that `security_compute_sid` takes is that of `mls_compute_sid`, where the allocations
succeed. -/
theorem computeSidReads_result {specified : U16} :
    (mlsComputeSidReads p scontext tcontext tclass specified sock).result =
      mlsComputeSid p scontext tcontext .all tclass (specified.zeroExtend 32) sock := by
  unfold mlsComputeSidReads mlsComputeSid
  simp only [specified_eq, change_all]
  split
  · rfl
  split
  · cases policydbRangetrSearch p scontext tcontext tclass with
    | some rule => exact copied_all.symm
    | none =>
      dsimp only
      rw [Traced.result_bind, cladatumReads_result]
      cases mlsCladatum p tclass with
      | error f => rfl
      | ok cladatum =>
        simp only [bind, Except.bind, default_all]
        cases cladatum.bind fun c => mlsDefaultRange scontext tcontext c.defaultRange with
        | none => rfl
        | some answer => rfl
  split
  · rfl
  split
  · exact copied_all.symm
  · rfl

/-- The check of the new context does not change it. -/
theorem settled {enforcing : Bool} {made : Context}
    (done : (settleReads p scontext tcontext tclass c enforcing).result = .ok made) : made = c := by
  unfold settleReads at done
  rw [Traced.result_bind] at done
  obtain ⟨valid, -, done⟩ := exceptBind_ok.mp done
  cases valid with
  | true =>
    cases done
    rfl
  | false =>
    rw [if_neg Bool.false_ne_true, Traced.result_bind] at done
    obtain ⟨-, -, done⟩ := exceptBind_ok.mp done
    cases done
    rfl

/-- The range of a new context passes the check, whatever else of it does not. -/
theorem labelled_range {m : ClassMap} {q : SidQuery} {enforcing : Bool} (loaded : TablesLoaded p)
    (enabled : p.mlsEnabled = true) (s : ValidContext p scontext) (t : ValidContext p tcontext)
    (made : (securityComputeSidReads p scontext tcontext m q enforcing).result = .ok c) :
    mlsRangeIsvalid p c.range = .ok true := by
  rw [computeSid_eq, Traced.result_bind] at made
  obtain ⟨cladatum, -, made⟩ := exceptBind_ok.mp made
  rw [Traced.result_bind, computeSidReads_result] at made
  obtain ⟨range, computed, made⟩ := exceptBind_ok.mp made
  rw [settled made]
  have sValid := (check_passed s.valid).range enabled
  have tValid := (check_passed t.valid).range enabled
  exact computed_valid loaded enabled s.built t.built sValid tValid computed

end Reads

section Concrete

/-- The class `process` with the default range `glblub`, and a sensitivity with the categories of a
bitmap; there are no categories. -/
def glblubImage (cats : List U8) : PolicyImage :=
  { smallImage with
    header := newHeader 1
    classes := symbols 1 [word processName.length ++ word 0 ++ word 1 ++ word 2 ++ word 2 ++ word 0 ++
      processName ++ permBytes 1 transitionName ++ permBytes 2 dyntransitionName ++ word 0 ++ word 0 ++
      word 0 ++ word 7 ++ word 0]
    users := symbols 1 [userBytes 1 0 1 (cstr ['u']) emptyBitmap]
    levels := symbols 1 [sensBytes 1 (cstr ['s']) cats] }

/-- Of one level with the categories of a bitmap. -/
def objectContext (cat : Ebitmap) : Context :=
  { user := 1, role := objectRVal, type := 1, range := ⟨⟨1, cat⟩, ⟨1, cat⟩⟩, str := none }

/-- Two contexts of one level are valid, and a transition between them takes `glblub`. -/
def glblubTest (cat : Ebitmap) (p : Policydb) : Bool :=
  p.mlsEnabled && ((policydbContextIsvalid p (objectContext cat)).toOption == some true &&
    ((policydbRangetrSearch p (objectContext cat) (objectContext cat) 1).isNone &&
      match mlsCladatum p 1 with
      | .ok (some c) => c.defaultRange == defaultGlblub
      | _ => false))

/-- The bit 0. -/
def lowCats : Ebitmap := { node := [{ startbit := 0, maps := #v[1, 0, 0, 0, 0, 0] }], highbit := 384 }

/-- The bit `2 ^ 31`. -/
def highCats : Ebitmap :=
  { node := [{ startbit := 2147483520, maps := #v[0, 0, 1, 0, 0, 0] }], highbit := 2147483904 }

theorem lowCats_built : Built lowCats :=
  ⟨⟨by decide, by decide, by decide, trivial⟩, by decide⟩

theorem highCats_built : Built highCats :=
  ⟨⟨by decide, by decide, by decide, trivial⟩, by decide⟩

theorem glblubTest_iff {cat : Ebitmap} (built : Built cat) (test : glblubTest cat p = true) :
    p.mlsEnabled = true ∧ ValidContext p (objectContext cat) ∧
      TakesGlblub p (objectContext cat) (objectContext cat) 1 (avtabTransition.zeroExtend 32) := by
  unfold glblubTest at test
  simp only [Bool.and_eq_true] at test
  obtain ⟨enabled, valid, noRule, slot⟩ := test
  refine ⟨enabled, ⟨?_, built, built⟩, rfl, Option.isNone_iff_eq_none.mp noRule, ?_⟩
  · cases checked : policydbContextIsvalid p (objectContext cat) with
    | error f => simp [checked, Except.toOption] at valid
    | ok b => simpa [checked, Except.toOption] using valid
  · split at slot
    · rename_i c found
      exact ⟨c, found, beq_iff_eq.mp slot⟩
    · cases slot

theorem meets (cat : Ebitmap) :
    (sensitivities (objectContext cat).range ∩ sensitivities (objectContext cat).range).Nonempty := by
  have inside : 1 ∈ sensitivities (objectContext cat).range := ⟨Nat.le_refl 1, Nat.le_refl 1⟩
  exact ⟨1, inside, inside⟩

theorem range_computed_iff_small : ∃ p rest,
    policydbRead (glblubImage (bitmapBytes 64 [(0, 1)])).bytes = .ok (p, rest) ∧
    (RangeComputed p (objectContext lowCats) (objectContext lowCats) 1
        (avtabTransition.zeroExtend 32) false ↔
      (TakesGlblub p (objectContext lowCats) (objectContext lowCats) 1
          (avtabTransition.zeroExtend 32) →
        (sensitivities (objectContext lowCats).range ∩
          sensitivities (objectContext lowCats).range).Nonempty →
        bitsOf (objectContext lowCats).range.high.cat ∩
          bitsOf (objectContext lowCats).range.high.cat ⊆ {b | b < intBits})) := by
  have accepted : (glblubImage (bitmapBytes 64 [(0, 1)])).accepts (glblubTest lowCats) = true := by
    decide +kernel
  obtain ⟨p, rest, read, test⟩ := PolicyImage.accepts_iff.mp accepted
  obtain ⟨enabled, valid, -⟩ := glblubTest_iff lowCats_built test
  exact ⟨p, rest, read, range_computed_iff read enabled valid valid⟩

/-- The category of the bit `2 ^ 31`, which both contexts have, is not one of the new range. -/
theorem category_lost : ∃ p rest,
    policydbRead (glblubImage (bitmapBytes 2147483712 [(2147483648, 1)])).bytes = .ok (p, rest) ∧
    p.mlsEnabled = true ∧ ValidContext p (objectContext highCats) ∧
    ¬ RangeComputed p (objectContext highCats) (objectContext highCats) 1
      (avtabTransition.zeroExtend 32) false := by
  have accepted : (glblubImage (bitmapBytes 2147483712 [(2147483648, 1)])).accepts
      (glblubTest highCats) = true := by
    decide +kernel
  obtain ⟨p, rest, read, test⟩ := PolicyImage.accepts_iff.mp accepted
  obtain ⟨enabled, valid, taken⟩ := glblubTest_iff highCats_built test
  refine ⟨p, rest, read, enabled, valid, fun computed => ?_⟩
  obtain ⟨r, made⟩ := computed.made taken (meets highCats)
  have common := computed.common taken .all r made
  rw [computeSid_glblub enabled taken] at made
  have small := small_of_common valid.built valid.built made common
  have inside : InBitmap highCats intBits := ⟨_, List.mem_cons_self, by decide, by decide, by decide⟩
  exact Nat.lt_irrefl intBits (small ⟨inside, inside⟩)

end Concrete

end Ksrc.Guarantees.ComputedRanges

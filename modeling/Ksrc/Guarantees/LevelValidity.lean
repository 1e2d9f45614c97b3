import Ksrc.Guarantees.EbitmapFiles
import Ksrc.Guarantees.PolicyImages
import Ksrc.Guarantees.PolicydbStages

/-!
# When an MLS level is valid

Source: `security/selinux/ss/mls.c` (`mls_level_isvalid`), `ebitmap.c` (`ebitmap_contains`,
`ebitmap_read`).

`ebitmap_contains` walks the nodes of two bitmaps; over nodes in ascending order it decides that
every node of the second bitmap has one of the first at its start, that the bits of the second are
bits of the first, and that none is past the bound. The bound `p_cats.nprim` is a number of
categories and is compared with a bit number, so it lets the bit `p_cats.nprim` through, and a bound
of 0 lets every bit through.
-/
namespace Ksrc.Guarantees.LevelValidity

open Library Source EbitmapBits EbitmapFiles
  PolicydbShape PolicydbStages PolicyImages

/-- What `ebitmap_contains` tests on two lists of nodes. -/
structure Contained (lastE2bit : U32) (n1s n2s : List EbitmapNode) : Prop where
  nodes : ∀ n2 ∈ n2s, ∃ n1 ∈ n1s, n1.startbit = n2.startbit
  bits : ∀ b, InNodes n2s b → InNodes n1s b
  bound : lastE2bit ≠ 0 → ∀ b, InNodes n2s b → b ≤ lastE2bit.toNat

section Nodes

variable {n n1 n2 : EbitmapNode} {n1s n2s nodes : List EbitmapNode} {low low' b ofs : Nat}
  {lastE2bit : U32}

/-- `__fls` of the last map that is not 0 finds no bit in an empty node. -/
theorem lastBit_none (empty : n.lastBit = none) : ¬ InNode n b := by
  intro inside
  unfold EbitmapNode.lastBit at empty
  have none := List.find?_eq_none.mp empty (b - n.startbit.toNat)
  apply none
  · have := inside.upper
    have := inside.lower
    simp only [List.mem_reverse, List.mem_range]
    omega
  · exact inside.2.2

theorem lastBit_some (found : n.lastBit = some ofs) :
    ofs < ebitmapSize ∧ InNode n (n.startbit.toNat + ofs) ∧
      ∀ b, InNode n b → b ≤ n.startbit.toNat + ofs := by
  unfold EbitmapNode.lastBit at found
  obtain ⟨set, before, after, split, clear⟩ := List.find?_eq_some_iff_append.mp found
  have small : ofs < ebitmapSize := by
    have member : ofs ∈ (List.range ebitmapSize).reverse := by
      rw [split]
      simp
    simpa using member
  refine ⟨small, ⟨by omega, by omega, by rwa [Nat.add_sub_cancel_left]⟩, fun b inside => ?_⟩
  have lower := inside.lower
  have upper := inside.upper
  by_contra past
  have listed : b - n.startbit.toNat ∈ (List.range ebitmapSize).reverse := by
    simp only [List.mem_reverse, List.mem_range]
    omega
  have sorted : (before ++ ofs :: after).Pairwise (· > ·) := by
    rw [← split]
    exact List.pairwise_reverse.mpr List.pairwise_lt_range
  rw [split] at listed
  rcases List.mem_append.mp listed with early | late
  · have := clear _ early
    rw [inside.2.2] at this
    cases this
  · have less : b - n.startbit.toNat ≤ ofs := by
      rcases List.mem_cons.mp late with equal | late
      · omega
      · have := List.rel_of_pairwise_cons (List.pairwise_append.mp sorted).2.1 late
        omega
    omega

/-- The comparison of the six words compares the bits. -/
theorem words_all (n1 n2 : EbitmapNode) :
    ((List.range ebitmapUnitNums).all fun i =>
      n1.maps.getD i 0 &&& n2.maps.getD i 0 == n2.maps.getD i 0) = true ↔
      ∀ ofs < ebitmapSize, n2.bit ofs = true → n1.bit ofs = true := by
  simp only [List.all_eq_true, List.mem_range, beq_iff_eq]
  constructor
  · intro words ofs small set
    rw [bit_of_lt small] at set ⊢
    have unit : ofs / ebitmapUnitSize < ebitmapUnitNums := by
      unfold ebitmapSize at small
      unfold ebitmapUnitSize ebitmapUnitNums
      omega
    rw [← words _ unit, BitVec.getLsbD_and, Bool.and_eq_true] at set
    exact set.1
  · intro bits i unit
    apply BitVec.eq_of_getLsbD_eq
    intro k place
    rw [BitVec.getLsbD_and]
    have small : ebitmapUnitSize * i + k < ebitmapSize := by
      unfold ebitmapUnitNums at unit
      unfold ebitmapSize ebitmapUnitSize
      omega
    have here := bits _ small
    rw [bit_of_lt small, bit_of_lt small,
      show (ebitmapUnitSize * i + k) / ebitmapUnitSize = i by unfold ebitmapUnitSize; omega,
      show (ebitmapUnitSize * i + k) % ebitmapUnitSize = k by unfold ebitmapUnitSize; omega] at here
    cases set : (n2.maps.getD i 0).getLsbD k with
    | false => exact Bool.and_false _
    | true => rw [here set, Bool.and_self]

/-- The words are compared where the starts are the same. -/
theorem inNode_of_bits (same : n1.startbit = n2.startbit) :
    (∀ ofs < ebitmapSize, n2.bit ofs = true → n1.bit ofs = true) ↔
      ∀ b, InNode n2 b → InNode n1 b := by
  unfold InNode
  rw [same]
  constructor
  · intro bits b inside
    exact ⟨inside.1, inside.2.1, bits _ (by omega) inside.2.2⟩
  · intro bits ofs small set
    have := bits (n2.startbit.toNat + ofs) ⟨by omega, by omega, by rwa [Nat.add_sub_cancel_left]⟩
    rw [Nat.add_sub_cancel_left] at this
    exact this.2.2

/-- A node of the first bitmap before all of the second is skipped. -/
theorem contained_skip (ok : Ascending low (n1 :: n1s)) (ok' : Ascending low' n2s)
    (before : ∀ n2 ∈ n2s, n1.startbit < n2.startbit) :
    Contained lastE2bit (n1 :: n1s) n2s ↔ Contained lastE2bit n1s n2s := by
  obtain ⟨-, aligned, -, -⟩ := ok
  have past : ∀ b, InNodes n2s b → ¬ InNode n1 b := by
    rintro b ⟨n2, member, inside⟩ here
    have less : n1.startbit.toNat < n2.startbit.toNat := before n2 member
    have := (ok'.start member).2
    have := inside.lower
    have := here.upper
    unfold ebitmapSize at *
    omega
  constructor
  · rintro ⟨nodes, bits, bound⟩
    refine ⟨fun n2 member => ?_, fun b inside => ?_, bound⟩
    · obtain ⟨n, found, start⟩ := nodes n2 member
      rcases List.mem_cons.mp found with rfl | there
      · exact absurd (before n2 member) (by rw [start]; exact BitVec.lt_irrefl _)
      · exact ⟨n, there, start⟩
    · exact (inNodes_cons.mp (bits b inside)).resolve_left (past b inside)
  · rintro ⟨nodes, bits, bound⟩
    refine ⟨fun n2 member => ?_, fun b inside => inNodes_cons.mpr (.inr (bits b inside)), bound⟩
    obtain ⟨n, found, start⟩ := nodes n2 member
    exact ⟨n, List.mem_cons_of_mem _ found, start⟩

/-- Two nodes with one start are compared, and the rest of the one with the rest of the other. -/
theorem contained_cons (ok : Ascending low (n1 :: n1s)) (ok' : Ascending low' (n2 :: n2s))
    (same : n1.startbit = n2.startbit) :
    Contained lastE2bit (n1 :: n1s) (n2 :: n2s) ↔
      ((∀ b, InNode n2 b → InNode n1 b) ∧
        (lastE2bit ≠ 0 → ∀ b, InNode n2 b → b ≤ lastE2bit.toNat)) ∧
      Contained lastE2bit n1s n2s := by
  have later := ok.2.2.2
  have later' := ok'.2.2.2
  have starts : n1.startbit.toNat = n2.startbit.toNat := by rw [same]
  constructor
  · rintro ⟨nodes, bits, bound⟩
    refine ⟨⟨fun b inside => ?_, fun some b inside => bound some b (inNodes_cons.mpr (.inl inside))⟩,
      fun m member => ?_, fun b inside => ?_,
      fun some b inside => bound some b (inNodes_cons.mpr (.inr inside))⟩
    · refine (inNodes_cons.mp (bits b (inNodes_cons.mpr (.inl inside)))).resolve_right fun there => ?_
      have := later.lower there
      have := inside.upper
      omega
    · obtain ⟨n, found, start⟩ := nodes m (List.mem_cons_of_mem _ member)
      rcases List.mem_cons.mp found with rfl | there
      · have := (later'.start member).1
        rw [← start, same] at this
        unfold ebitmapSize at this
        omega
      · exact ⟨n, there, start⟩
    · refine (inNodes_cons.mp (bits b (inNodes_cons.mpr (.inr inside)))).resolve_left fun here => ?_
      have := later'.lower inside
      have := here.upper
      omega
  · rintro ⟨⟨nodeBits, nodeBound⟩, nodes, bits, bound⟩
    refine ⟨fun m member => ?_, fun b inside => ?_, fun some b inside => ?_⟩
    · rcases List.mem_cons.mp member with rfl | there
      · exact ⟨n1, List.mem_cons_self, same⟩
      · obtain ⟨n, found, start⟩ := nodes m there
        exact ⟨n, List.mem_cons_of_mem _ found, start⟩
    · exact inNodes_cons.mpr ((inNodes_cons.mp inside).imp (nodeBits b) (bits b))
    · rcases inNodes_cons.mp inside with here | there
      · exact nodeBound some b here
      · exact bound some b there

/-- A node of the second bitmap that the first has passed. -/
theorem not_contained (ok : Ascending low n1s) (before : n2.startbit.toNat < low) :
    ¬ Contained lastE2bit n1s (n2 :: n2s) := by
  intro contained
  obtain ⟨n, found, start⟩ := contained.nodes n2 List.mem_cons_self
  have := (ok.start found).1
  rw [start] at this
  omega

/-- The walk of `ebitmap_contains` decides what it tests. -/
theorem containsNodes_iff (ok : Ascending low n1s) (ok' : Ascending low' n2s) :
    ebitmapContainsNodes lastE2bit n1s n2s = true ↔ Contained lastE2bit n1s n2s := by
  induction n1s generalizing low low' n2s with
  | nil =>
    cases n2s with
    | nil =>
      unfold ebitmapContainsNodes
      refine iff_of_true rfl ⟨fun _ member => ?_, fun _ inside => inside, fun _ _ inside => ?_⟩
      · cases member
      · exact absurd inside inNodes_nil
    | cons n2 rest2 =>
      unfold ebitmapContainsNodes
      refine iff_of_false Bool.false_ne_true fun contained => ?_
      obtain ⟨n, found, -⟩ := contained.nodes n2 List.mem_cons_self
      cases found
  | cons n1 rest1 ih =>
    cases n2s with
    | nil =>
      unfold ebitmapContainsNodes
      refine iff_of_true rfl ⟨fun _ member => ?_, fun _ inside => ?_, fun _ _ inside => ?_⟩
      · cases member
      · exact absurd inside inNodes_nil
      · exact absurd inside inNodes_nil
    | cons n2 rest2 =>
      have later := ok.2.2.2
      have later' := ok'.2.2.2
      unfold ebitmapContainsNodes
      by_cases less : n1.startbit < n2.startbit
      · rw [if_pos less, ih later ok', contained_skip ok ok']
        intro m member
        rcases List.mem_cons.mp member with rfl | there
        · exact less
        · have past := (later'.start there).1
          have first : n1.startbit.toNat < n2.startbit.toNat := less
          exact BitVec.lt_def.mpr (by omega)
      · rw [if_neg less]
        by_cases differ : n1.startbit ≠ n2.startbit
        · rw [if_pos differ]
          have behind : n2.startbit.toNat < n1.startbit.toNat := by
            have apart : n1.startbit.toNat ≠ n2.startbit.toNat := fun equal =>
              differ (BitVec.eq_of_toNat_eq equal)
            have := BitVec.not_lt.mp less
            have : n2.startbit.toNat ≤ n1.startbit.toNat := this
            omega
          have from1 : Ascending n1.startbit.toNat (n1 :: rest1) := ⟨le_rfl, ok.2⟩
          exact iff_of_false Bool.false_ne_true (not_contained from1 behind)
        · have same : n1.startbit = n2.startbit := not_not.mp differ
          rw [if_neg differ, contained_cons ok ok' same]
          cases last : n2.lastBit with
          | none =>
            dsimp only
            rw [ih later later']
            refine (and_iff_right ⟨fun b inside => ?_, fun _ b inside => ?_⟩).symm
            · exact absurd inside (lastBit_none last)
            · exact absurd inside (lastBit_none last)
          | some ofs =>
            dsimp only
            obtain ⟨small, here, top⟩ := lastBit_some last
            have high : (n2.startbit + BitVec.ofNat 32 ofs).toNat = n2.startbit.toNat + ofs :=
              toNat_bit small ok'.2.2.1
            by_cases exceeds : lastE2bit ≠ 0 ∧ lastE2bit < n2.startbit + BitVec.ofNat 32 ofs
            · rw [if_pos exceeds]
              obtain ⟨bounded, past⟩ := exceeds
              have past : lastE2bit.toNat < (n2.startbit + BitVec.ofNat 32 ofs).toNat := past
              refine iff_of_false Bool.false_ne_true fun both => ?_
              have := both.1.2 bounded _ here
              omega
            · rw [if_neg exceeds]
              have fits : lastE2bit ≠ 0 → ∀ b, InNode n2 b → b ≤ lastE2bit.toNat := by
                intro bounded b inside
                have := top b inside
                have notPast := BitVec.not_lt.mp fun past => exceeds ⟨bounded, past⟩
                have : (n2.startbit + BitVec.ofNat 32 ofs).toNat ≤ lastE2bit.toNat := notPast
                omega
              split
              · rename_i words
                have covered := (inNode_of_bits same).mp ((words_all n1 n2).mp words)
                rw [ih later later']
                exact (and_iff_right ⟨covered, fits⟩).symm
              · rename_i words
                refine iff_of_false Bool.false_ne_true fun both => words ?_
                exact (words_all n1 n2).mpr ((inNode_of_bits same).mpr both.1.1)

end Nodes

section Reading

variable {bytes rest : List U8}

/-- The categories of every sensitivity of an accepted policy. -/
theorem levels_built {p : Policydb} (read : policydbRead bytes = .ok (p, rest)) :
    ∀ e ∈ p.pLevels.table.entries, Built e.2.level.cat := by
  obtain ⟨⟨⟨n, p₀, p₁, from', after, tables, -, noLevels, -, same⟩, -, -, -⟩, -⟩ :=
    policydbRead_stages read
  rw [same.levels]
  obtain ⟨s, rfl⟩ := symtabsRead_steps tables
  have levelsRead := s.levels
  show ∀ e ∈ s.pLevels.table.entries, Built e.2.level.cat
  split at levelsRead
  · refine @symtabRead_entries _ _ (fun d => Built d.level.cat) _ _ _ (fun _ _ _ _ item => ?_)
      levelsRead
    simp only [sensReadDatum, mlsReadLevel, ByteReader.bind_ok, ByteReader.pure_ok] at item
    obtain ⟨_, _, -, _, _, -, _, _, -, _, _, ⟨_, _, -, cat, _, catRead, rfl, -⟩, made, -⟩ := item
    cases made
    exact ebitmapRead_built catRead
  · have empty := (ByteReader.pure_ok.mp levelsRead).1
    rw [← empty, noLevels]
    intro e member
    cases member

end Reading

/-- The sensitivity is one of the policy's: its value is in range and has a name, and the name has a
datum. -/
def SensDatum (p : Policydb) (sens : U32) (datum : LevelDatum) : Prop :=
  sens ≠ 0 ∧ sens ≤ p.pLevels.nprim ∧
    ∃ name, p.symValToName.levels[(sens - 1).toNat]? = some (some name) ∧
      symtabSearch p.pLevels name = some datum

/-- A level is legal: its sensitivity is defined and allows its categories, and bit `b` stands for the
category `b + 1`. -/
def LevelLegal (p : Policydb) (l : MlsLevel) : Prop :=
  ∃ datum, SensDatum p l.sens datum ∧
    ∀ b, InBitmap l.cat b → InBitmap datum.level.cat b ∧ b < p.pCats.nprim.toNat

/-- No node of `e2`, empty ones included, is without one of `e1` at its start, and `e1` is not
shorter. -/
def Covers (e1 e2 : Ebitmap) : Prop :=
  e2.highbit ≤ e1.highbit ∧ ∀ n2 ∈ e2.node, ∃ n1 ∈ e1.node, n1.startbit = n2.startbit

/-- The highest bit is the number of categories, or there are bits and no categories. -/
def AtBound (nprim : U32) (e : Ebitmap) : Prop :=
  (nprim = 0 ∧ ∃ b, InBitmap e b) ∨
    (nprim ≠ 0 ∧ InBitmap e nprim.toNat ∧ ∀ b, InBitmap e b → b ≤ nprim.toNat)

/-- The categories of a level are not at the bound, and its bitmap has no part that is only empty
where that of the sensitivity has none. -/
def Ordinary (p : Policydb) (l : MlsLevel) : Prop :=
  ∀ datum, SensDatum p l.sens datum → (∀ b, InBitmap l.cat b → InBitmap datum.level.cat b) →
    (AtBound p.pCats.nprim l.cat → ¬ Covers datum.level.cat l.cat) ∧
    ((∀ b, InBitmap l.cat b → b < p.pCats.nprim.toNat) → Covers datum.level.cat l.cat)

section Levels

variable {p : Policydb} {l : MlsLevel} {bytes rest : List U8}

theorem SensDatum.unique {sens : U32} {d d' : LevelDatum} (one : SensDatum p sens d)
    (other : SensDatum p sens d') : d = d' := by
  obtain ⟨-, -, name, slot, found⟩ := one
  obtain ⟨-, -, name', slot', found'⟩ := other
  rw [slot] at slot'
  cases slot'
  rw [found] at found'
  cases found'
  rfl

/-- What `mls_level_isvalid` tests. -/
theorem mlsLevelIsvalid_iff (p : Policydb) (l : MlsLevel) :
    mlsLevelIsvalid p l = .ok true ↔
      ∃ datum, SensDatum p l.sens datum ∧
        ebitmapContains datum.level.cat l.cat p.pCats.nprim = true := by
  unfold mlsLevelIsvalid SensDatum
  split
  · rename_i out
    refine iff_of_false (fun found => ?_) ?_
    · cases found
    · rintro ⟨datum, ⟨nonzero, inside, -⟩, -⟩
      rcases out with zero | past
      · exact nonzero zero
      · exact BitVec.not_lt.mpr inside past
  · rename_i inside
    obtain ⟨nonzero, notPast⟩ := not_or.mp inside
    have range := BitVec.not_lt.mp notPast
    simp only [exceptBind_ok]
    constructor
    · rintro ⟨entry, slot, name, pointer, answer⟩
      unfold atValue at slot
      cases here : p.symValToName.levels[(l.sens - 1).toNat]? with
      | none =>
        rw [here] at slot
        cases slot
      | some found =>
        rw [here] at slot
        cases slot
        cases entry with
        | none => cases pointer
        | some name' =>
          cases pointer
          cases search : symtabSearch p.pLevels name with
          | none =>
            rw [search] at answer
            cases answer
          | some datum =>
            rw [search] at answer
            exact ⟨datum, ⟨nonzero, range, name, rfl, search⟩, Except.ok.inj answer⟩
    · rintro ⟨datum, ⟨-, -, name, slot, search⟩, contains⟩
      refine ⟨some name, ?_, name, rfl, ?_⟩
      · unfold atValue
        rw [slot]
      · rw [search]
        exact congrArg Except.ok contains

theorem contains_iff {e1 e2 : Ebitmap} {lastE2bit : U32} (built : Built e1) (built' : Built e2) :
    ebitmapContains e1 e2 lastE2bit = true ↔
      Covers e1 e2 ∧ (∀ b, InBitmap e2 b → InBitmap e1 b) ∧
        (lastE2bit ≠ 0 → ∀ b, InBitmap e2 b → b ≤ lastE2bit.toNat) := by
  unfold ebitmapContains
  split
  · rename_i shorter
    refine iff_of_false Bool.false_ne_true fun all => ?_
    exact BitVec.not_lt.mpr all.1.1 shorter
  · rename_i long
    rw [containsNodes_iff built.nodes built'.nodes]
    constructor
    · rintro ⟨nodes, bits, bound⟩
      exact ⟨⟨BitVec.not_lt.mp long, nodes⟩, bits, bound⟩
    · rintro ⟨⟨-, nodes⟩, bits, bound⟩
      exact ⟨nodes, bits, bound⟩

theorem atBound_iff {nprim : U32} {e : Ebitmap} :
    AtBound nprim e ↔
      (nprim ≠ 0 → ∀ b, InBitmap e b → b ≤ nprim.toNat) ∧ ¬ ∀ b, InBitmap e b → b < nprim.toNat := by
  constructor
  · rintro (⟨rfl, b, inside⟩ | ⟨nonzero, inside, most⟩)
    · exact ⟨fun nonzero => absurd rfl nonzero, fun below => Nat.not_lt_zero b (below b inside)⟩
    · exact ⟨fun _ => most, fun below => Nat.lt_irrefl _ (below _ inside)⟩
  · rintro ⟨most, some⟩
    simp only [not_forall] at some
    obtain ⟨b, inside, past⟩ := some
    by_cases zero : nprim = 0
    · exact .inl ⟨zero, b, inside⟩
    · have here := most zero b inside
      have top : b = nprim.toNat := by omega
      exact .inr ⟨zero, top ▸ inside, most zero⟩

/-- A test of `within` in place of the stricter `below` shows where the stricter one fails. -/
theorem answers_agree {covers subset below within : Prop} (weaker : below → within) :
    (covers ∧ subset ∧ within ↔ subset ∧ below) ↔
      (subset → (within ∧ ¬ below → ¬ covers) ∧ (below → covers)) := by
  tauto

/-- `mls_level_isvalid` accepts what is legal, and nothing else, where no category is at the bound. -/
theorem level_valid_iff (read : policydbRead bytes = .ok (p, rest)) (built : Built l.cat) :
    (mlsLevelIsvalid p l = .ok true ↔ LevelLegal p l) ↔ Ordinary p l := by
  rw [mlsLevelIsvalid_iff]
  by_cases defined : ∃ datum, SensDatum p l.sens datum
  · obtain ⟨datum, sens⟩ := defined
    have builtDatum : Built datum.level.cat := by
      obtain ⟨-, -, name, -, found⟩ := sens
      obtain ⟨k, member⟩ := mem_of_hashtabSearch found
      exact levels_built read _ member
    have answer : (∃ d, SensDatum p l.sens d ∧ ebitmapContains d.level.cat l.cat p.pCats.nprim = true) ↔
        Covers datum.level.cat l.cat ∧ (∀ b, InBitmap l.cat b → InBitmap datum.level.cat b) ∧
          (p.pCats.nprim ≠ 0 → ∀ b, InBitmap l.cat b → b ≤ p.pCats.nprim.toNat) := by
      rw [← contains_iff builtDatum built]
      constructor
      · rintro ⟨d, other, contains⟩
        rwa [sens.unique other]
      · exact fun contains => ⟨datum, sens, contains⟩
    have legal : LevelLegal p l ↔ (∀ b, InBitmap l.cat b → InBitmap datum.level.cat b) ∧
        ∀ b, InBitmap l.cat b → b < p.pCats.nprim.toNat := by
      constructor
      · rintro ⟨d, other, all⟩
        rw [sens.unique other]
        exact ⟨fun b inside => (all b inside).1, fun b inside => (all b inside).2⟩
      · rintro ⟨subset, below⟩
        exact ⟨datum, sens, fun b inside => ⟨subset b inside, below b inside⟩⟩
    have ordinary : Ordinary p l ↔ ((∀ b, InBitmap l.cat b → InBitmap datum.level.cat b) →
        (AtBound p.pCats.nprim l.cat → ¬ Covers datum.level.cat l.cat) ∧
        ((∀ b, InBitmap l.cat b → b < p.pCats.nprim.toNat) → Covers datum.level.cat l.cat)) := by
      constructor
      · exact fun all => all datum sens
      · intro here d other
        rw [← sens.unique other]
        exact here
    have within : (∀ b, InBitmap l.cat b → b < p.pCats.nprim.toNat) →
        p.pCats.nprim ≠ 0 → ∀ b, InBitmap l.cat b → b ≤ p.pCats.nprim.toNat :=
      fun below _ b inside => Nat.le_of_lt (below b inside)
    rw [answer, legal, ordinary, atBound_iff]
    exact answers_agree within
  · refine iff_of_true (iff_of_false ?_ ?_) ?_
    · rintro ⟨datum, sens, -⟩
      exact defined ⟨datum, sens⟩
    · rintro ⟨datum, sens, -⟩
      exact defined ⟨datum, sens⟩
    · exact fun datum sens => absurd ⟨datum, sens⟩ defined

end Levels

section Concrete

/-- One category, and a sensitivity that has the bits 0 and 1. -/
def boundImage : PolicyImage :=
  { smallImage with
    levels := symbols 1 [sensBytes 1 (cstr ['s']) (bitmapBytes 64 [(0, 3)])]
    cats := symbols 1 [catBytes 1 (cstr ['c'])] }

/-- The bit of the category 2, which there is not. -/
def pastLevel : MlsLevel :=
  { sens := 1, cat := { node := [{ startbit := 0, maps := #v[2, 0, 0, 0, 0, 0] }], highbit := 384 } }

def boundTest (p : Policydb) : Bool :=
  p.pCats.nprim == 1 && match mlsLevelIsvalid p pastLevel with
    | .ok valid => valid
    | .error _ => false

theorem pastLevel_built : Built pastLevel.cat :=
  ⟨⟨by decide, by decide, by decide, trivial⟩, by decide⟩

theorem level_valid_iff_past : ∃ p rest, policydbRead boundImage.bytes = .ok (p, rest) ∧
    ((mlsLevelIsvalid p pastLevel = .ok true ↔ LevelLegal p pastLevel) ↔ Ordinary p pastLevel) := by
  have accepted : boundImage.accepts boundTest = true := by decide +kernel
  obtain ⟨p, rest, read, -⟩ := PolicyImage.accepts_iff.mp accepted
  exact ⟨p, rest, read, level_valid_iff read pastLevel_built⟩

/-- The level with a category past the last one is valid. -/
theorem level_past_last : ∃ p rest, policydbRead boundImage.bytes = .ok (p, rest) ∧
    Built pastLevel.cat ∧ ¬ (mlsLevelIsvalid p pastLevel = .ok true ↔ LevelLegal p pastLevel) := by
  have accepted : boundImage.accepts boundTest = true := by decide +kernel
  obtain ⟨p, rest, read, test⟩ := PolicyImage.accepts_iff.mp accepted
  refine ⟨p, rest, read, pastLevel_built, fun agree => ?_⟩
  unfold boundTest at test
  rw [Bool.and_eq_true, beq_iff_eq] at test
  obtain ⟨one, valid⟩ := test
  have answer : mlsLevelIsvalid p pastLevel = .ok true := by
    cases computed : mlsLevelIsvalid p pastLevel with
    | error e =>
      rw [computed] at valid
      cases valid
    | ok v =>
      rw [computed] at valid
      exact congrArg Except.ok valid
  obtain ⟨datum, -, all⟩ := agree.mp answer
  have inside : InBitmap pastLevel.cat 1 := ⟨_, List.mem_cons_self, by decide, by decide, by decide⟩
  have below := (all 1 inside).2
  rw [one] at below
  exact absurd below (by decide)

end Concrete

end Ksrc.Guarantees.LevelValidity

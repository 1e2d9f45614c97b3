import Mathlib.Data.FinEnum
import Mathlib.Data.Prod.Lex
import Mathlib.Order.WellFounded
import Ksrc.Guarantees.KvCacheCalls
import Ksrc.Guarantees.StringOrder

/-!
# Which modules the key/value cache keeps apart

`kvcache_node_cmp` returns the difference of two module addresses as an `int`. That orders the
nodes of one key only while the addresses, taken modulo 2^32, are distinct and lie within half a
circle; then no call finds a node of another module.
-/
namespace Ksrc.Guarantees.KvCacheOrder
open Source Library KvCacheCalls RbTreeElements StringOrder

section Strings

/-- The bytes of a key that `strcmp` looks at. -/
def keyText (key : List U8) : List Nat := (cString key).map BitVec.toNat

theorem keyText_eq {k k' : List U8} : keyText k = keyText k' ↔ cString k = cString k' := by
  unfold keyText
  constructor
  · intro same
    exact List.map_injective_iff.mpr (fun x y => BitVec.eq_of_toNat_eq) same
  · intro same
    rw [same]

end Strings

section Comparison

variable {k k' : List U8} {m m' base : U64}

/-- The distance of an address from a base, on the circle of 2^32. -/
def offset (base m : U64) : Nat := ((m - base).setWidth 32).toNat

/-- Within half a circle the `int` is the difference of the distances. -/
theorem difference (near : offset base m < 2 ^ 31) (near' : offset base m' < 2 ^ 31) :
    ((m - m').setWidth 32).toInt = (offset base m : Int) - offset base m' := by
  unfold offset at *
  simp only [BitVec.toInt_eq_toNat_cond, BitVec.toNat_setWidth, BitVec.toNat_sub] at *
  omega

theorem difference_zero : ((m - m').setWidth 32).toInt = 0 ↔ m.setWidth 32 = m'.setWidth 32 := by
  rw [← BitVec.toNat_inj]
  simp only [BitVec.toInt_eq_toNat_cond, BitVec.toNat_setWidth, BitVec.toNat_sub]
  omega

theorem offset_inj : offset base m = offset base m' ↔ m.setWidth 32 = m'.setWidth 32 := by
  unfold offset
  rw [← BitVec.toNat_inj]
  simp only [BitVec.toNat_setWidth, BitVec.toNat_sub]
  omega

theorem cmp_zero : kvcacheNodeCmp k m k' m' = 0 ↔
    cString k = cString k' ∧ m.setWidth 32 = m'.setWidth 32 := by
  have less : strcmp (cString k) (cString k') < 0 ↔ keyText k < keyText k' := strcmp_neg
  have more : 0 < strcmp (cString k) (cString k') ↔ keyText k' < keyText k := strcmp_pos
  unfold kvcacheNodeCmp
  rw [← difference_zero, ← keyText_eq]
  dsimp only
  split
  · rename_i differs
    constructor
    · exact fun zero => absurd zero differs
    · intro both
      rw [both.1] at less more
      have notLess := mt less.mp (lt_irrefl _)
      have notMore := mt more.mp (lt_irrefl _)
      omega
  · rename_i same
    have textSame : keyText k = keyText k' :=
      le_antisymm (not_lt.mp fun above => by have := more.mpr above; omega)
        (not_lt.mp fun below => by have := less.mpr below; omega)
    exact ⟨fun zero => ⟨textSame, zero⟩, fun both => both.2⟩

/-- Where a key and a module stand among the others. -/
def rank (base : U64) (k : List U8) (m : U64) : List Nat ×ₗ Nat := toLex (keyText k, offset base m)

theorem cmp_neg (near : offset base m < 2 ^ 31) (near' : offset base m' < 2 ^ 31) :
    kvcacheNodeCmp k m k' m' < 0 ↔ rank base k m < rank base k' m' := by
  have less : strcmp (cString k) (cString k') < 0 ↔ keyText k < keyText k' := strcmp_neg
  have more : 0 < strcmp (cString k) (cString k') ↔ keyText k' < keyText k := strcmp_pos
  unfold rank kvcacheNodeCmp
  rw [Prod.Lex.toLex_lt_toLex, difference near near']
  dsimp only
  split
  · rename_i differs
    have apart : keyText k ≠ keyText k' := by
      intro same
      rw [same] at less more
      have notLess := mt less.mp (lt_irrefl _)
      have notMore := mt more.mp (lt_irrefl _)
      omega
    rw [less]
    exact ⟨.inl, fun either => either.resolve_right fun both => apart both.1⟩
  · rename_i same
    have textSame : keyText k = keyText k' :=
      le_antisymm (not_lt.mp fun above => by have := more.mpr above; omega)
        (not_lt.mp fun below => by have := less.mpr below; omega)
    rw [textSame]
    constructor
    · intro negative
      exact .inr ⟨rfl, by omega⟩
    · rintro (below | ⟨-, below⟩)
      · exact absurd below (lt_irrefl _)
      · omega

theorem rank_eq : rank base k m = rank base k' m' ↔ kvcacheNodeCmp k m k' m' = 0 := by
  unfold rank
  rw [cmp_zero, ← keyText_eq, ← offset_inj, toLex_inj, Prod.mk.injEq]

theorem cmp_pos (near : offset base m < 2 ^ 31) (near' : offset base m' < 2 ^ 31) :
    0 < kvcacheNodeCmp k m k' m' ↔ rank base k' m' < rank base k m := by
  have same : rank base k m = rank base k' m' ↔ kvcacheNodeCmp k m k' m' = 0 := rank_eq
  have above : rank base k' m' < rank base k m ↔ ¬ rank base k m ≤ rank base k' m' := not_le.symm
  rw [above, le_iff_lt_or_eq, ← cmp_neg near near', same]
  omega

end Comparison

section Condition

variable {modules : Set U64} {keys : Set (List U8)}

/-- A strict total order on the pairs of a key and a module, in which only equal pairs compare
equal. -/
structure OrdersPairs (modules : Set U64) (keys : Set (List U8)) : Prop where
  same : ∀ k ∈ keys, ∀ m ∈ modules, ∀ k' ∈ keys, ∀ m' ∈ modules,
    kvcacheNodeCmp k m k' m' = 0 ↔ k = k' ∧ m = m'
  opposite : ∀ k ∈ keys, ∀ m ∈ modules, ∀ k' ∈ keys, ∀ m' ∈ modules,
    kvcacheNodeCmp k m k' m' < 0 ↔ 0 < kvcacheNodeCmp k' m' k m
  transitive : ∀ k ∈ keys, ∀ m ∈ modules, ∀ k' ∈ keys, ∀ m' ∈ modules, ∀ k'' ∈ keys,
    ∀ m'' ∈ modules, kvcacheNodeCmp k m k' m' < 0 → kvcacheNodeCmp k' m' k'' m'' < 0 →
      kvcacheNodeCmp k m k'' m'' < 0

/-- The addresses are distinct modulo 2^32 and lie within half a circle from one of them on. -/
structure HalfCircle (modules : Set U64) : Prop where
  distinct : Set.InjOn (fun m : U64 => m.setWidth 32) modules
  near : ∃ base, ∀ m ∈ modules, offset base m < 2 ^ 31

/-- The modules and keys that the comparison keeps apart. -/
structure KeptApart (modules : Set U64) (keys : Set (List U8)) : Prop where
  texts : modules.Nonempty → Set.InjOn cString keys
  addresses : keys.Nonempty → HalfCircle modules

theorem KeptApart.ordersPairs (apart : KeptApart modules keys) : OrdersPairs modules keys := by
  constructor
  · intro k isKey m isModule k' isKey' m' isModule'
    rw [cmp_zero]
    constructor
    · rintro ⟨text, residue⟩
      exact ⟨apart.texts ⟨m, isModule⟩ isKey isKey' text,
        (apart.addresses ⟨k, isKey⟩).distinct isModule isModule' residue⟩
    · rintro ⟨rfl, rfl⟩
      exact ⟨rfl, rfl⟩
  · intro k isKey m isModule k' isKey' m' isModule'
    obtain ⟨base, near⟩ := (apart.addresses ⟨k, isKey⟩).near
    rw [cmp_neg (near m isModule) (near m' isModule'), cmp_pos (near m' isModule') (near m isModule)]
  · intro k isKey m isModule k' isKey' m' isModule' k'' isKey'' m'' isModule'' first second
    obtain ⟨base, near⟩ := (apart.addresses ⟨k, isKey⟩).near
    rw [cmp_neg (near _ ‹_›) (near _ ‹_›)] at first second ⊢
    exact first.trans second

/-- A finite set of addresses in order has a first one; the others follow within half a circle. -/
theorem OrdersPairs.halfCircle (orders : OrdersPairs modules keys) {k : List U8} (isKey : k ∈ keys) :
    HalfCircle modules := by
  refine ⟨fun m isModule m' isModule' residue => ?_, ?_⟩
  · exact ((orders.same k isKey m isModule k isKey m' isModule').mp (cmp_zero.mpr ⟨rfl, residue⟩)).2
  rcases modules.eq_empty_or_nonempty with empty | ⟨m₀, isModule₀⟩
  · exact ⟨0, fun m isModule => absurd (empty ▸ isModule) (Set.notMem_empty m)⟩
  let below : modules → modules → Prop := fun m m' => kvcacheNodeCmp k m k m' < 0
  have irreflexive : Std.Irrefl below := by
    refine ⟨fun m less => ?_⟩
    have zero := (orders.same k isKey m m.2 k isKey m m.2).mpr ⟨rfl, rfl⟩
    exact absurd less (by simp only [below, zero]; decide)
  have transitive : IsTrans modules below :=
    ⟨fun m m' m'' => orders.transitive k isKey m m.2 k isKey m' m'.2 k isKey m'' m''.2⟩
  obtain ⟨first, -, least⟩ := (Finite.wellFounded_of_trans_of_irrefl below).has_min Set.univ
    ⟨⟨m₀, isModule₀⟩, trivial⟩
  refine ⟨first, fun m isModule => ?_⟩
  have notBelow : ¬ kvcacheNodeCmp k m k first < 0 := least ⟨m, isModule⟩ trivial
  unfold kvcacheNodeCmp at notBelow
  have same : strcmp (cString k) (cString k) = 0 := by
    have less : strcmp (cString k) (cString k) < 0 ↔ keyText k < keyText k := strcmp_neg
    have more : 0 < strcmp (cString k) (cString k) ↔ keyText k < keyText k := strcmp_pos
    have notLess := mt less.mp (lt_irrefl _)
    have notMore := mt more.mp (lt_irrefl _)
    omega
  rw [same] at notBelow
  dsimp only at notBelow
  rw [if_neg (by decide), BitVec.toInt_neg_iff] at notBelow
  unfold offset
  omega

theorem ordersPairs_iff : OrdersPairs modules keys ↔ KeptApart modules keys := by
  constructor
  · intro orders
    refine ⟨?_, ?_⟩
    · rintro ⟨m, isModule⟩ k isKey k' isKey' text
      exact ((orders.same k isKey m isModule k' isKey' m isModule).mp
        (cmp_zero.mpr ⟨text, rfl⟩)).1
    · rintro ⟨k, isKey⟩
      exact orders.halfCircle isKey
  · exact KeptApart.ordersPairs

end Condition

section Isolation

variable {ν : Type} [Add ν] {modules : Set U64} {keys : Set (List U8)} {d : Nat}

/-- In every run of calls a module only gets at its own nodes: it finds no other, and the others
stay linked with what they hold. -/
def Isolated (ν : Type) [Add ν] (modules : Set U64) (keys : Set (List U8)) (d : Nat) : Prop :=
  ∀ st : List (Returned ν) × Kvcache ν, (callsMachine d).Reachable (callsOf modules keys) st →
    ∀ m ∈ modules, ∀ call : KvcacheCall ν, callKey call ∈ keys →
      (∀ node, nodeAt st.2 d m (callKey call) = some node → (st.2.nodes node).module = m) ∧
      ∀ node ∈ linkedNodes st.2 d, (st.2.nodes node).module ≠ m →
        node ∈ linkedNodes (kvcacheCall st.2 d m call).2 d ∧
          (kvcacheCall st.2 d m call).2.nodes node = st.2.nodes node

theorem KeptApart.isolated (apart : KeptApart modules keys) : Isolated ν modules keys d := by
  intro st run m isModule call isKey
  have owned := OwnedBy.reachable run
  have own : ∀ node, nodeAt st.2 d m (callKey call) = some node → (st.2.nodes node).module = m := by
    intro node found
    obtain ⟨member, equal⟩ := nodeAt_some found
    have residue := (cmp_zero.mp equal).2
    exact ((apart.addresses ⟨_, isKey⟩).distinct isModule (owned.owned node member).1 residue).symm
  refine ⟨own, fun node member other => ?_⟩
  obtain ⟨new, -, effect⟩ := kvcacheCall_done owned.ok
    (rfl : kvcacheCall st.2 d m call = ((kvcacheCall st.2 d m call).1, _))
  exact effect.linked_kept owned.ok member fun found => other (own node found)

/-- The comparison orders keys and modules strictly, and modules are isolated in every run, exactly
where it keeps them apart. -/
theorem modules_isolated_iff : OrdersPairs modules keys ∧ Isolated ν modules keys d ↔
    KeptApart modules keys := by
  constructor
  · exact fun both => ordersPairs_iff.mp both.1
  · exact fun apart => ⟨ordersPairs_iff.mpr apart, apart.isolated⟩

/-- A module that is loaded 2^32 bytes above another one finds what that has stored. -/
theorem modules_not_isolated :
    let low : U64 := 0xffff888100000000
    let high : U64 := 0xffff888200000000
    let key : List U8 := cstr ['k']
    ¬ OrdersPairs {low, high} {key} ∧ ¬ Isolated Int {low, high} {key} 0 := by
  intro low high key
  refine ⟨fun orders => ?_, fun isolated => ?_⟩
  · have equal := (orders.same key rfl low (.inl rfl) key rfl high (.inr rfl)).mp (by decide)
    exact absurd equal.2 (by decide)
  · have run : (callsMachine 0).exec ([], (emptyCache : Kvcache Int))
        [(low, .set key (.boolean true) true)] = some ([⟨low, .set key (.boolean true) true, .value (.boolean true)⟩],
          (kvcacheCall emptyCache 0 low (.set key (.boolean true) true)).2) := rfl
    have reached : (callsMachine 0).Reachable (callsOf {low, high} {key}) _ :=
      ⟨_, ⟨rfl, rfl⟩, Machine.exec_reaches_guard run fun a member st => by
        rw [List.mem_singleton] at member
        rw [member]
        exact ⟨.inl rfl, rfl⟩⟩
    have own := (isolated _ reached high (.inr rfl) (.get key) rfl).1 0 (by decide)
    exact absurd own (by decide)

end Isolation

end Ksrc.Guarantees.KvCacheOrder

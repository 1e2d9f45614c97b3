import Mathlib.Order.Defs.LinearOrder
import Ksrc.Library.ChainTable
import Ksrc.Source.Hashtab

/-!
# Hash tables with chains in order

Source: `security/selinux/ss/hashtab.h` (`hashtab_insert`, `hashtab_search`).

An insertion and a search stop at the first key that is not less than their own. They agree on every key
of a chain where the comparison is that of a linear order, which may be another one for each chain.
-/
namespace Ksrc.Guarantees.OrderedChains

open Library Source

variable {κ δ ω : Type} [LinearOrder ω] {cmp : κ → κ → Int} {code : κ → ω} {good : κ → Prop}
  {key : κ} {datum : δ} {chain chain' : List (κ × δ)}

/-- The comparison of some keys is that of their codes. -/
structure Agrees (cmp : κ → κ → Int) (code : κ → ω) (good : κ → Prop) : Prop where
  less : ∀ {a b}, good a → good b → (cmp a b < 0 ↔ code a < code b)
  same : ∀ {a b}, cmp a b = 0 ↔ a = b
  inj : ∀ {a b}, good a → good b → code a = code b → a = b

theorem Agrees.greater (agrees : Agrees cmp code good) {a b : κ} (one : good a) (other : good b)
    (differs : ¬ cmp a b = 0) (notLess : ¬ cmp a b < 0) : code b < code a := by
  rw [agrees.less one other, not_lt] at notLess
  refine lt_of_le_of_ne notLess fun same => differs ?_
  exact agrees.same.mpr (agrees.inj other one same).symm

/-- A chain in the strict order of the codes. -/
def Sorted (code : κ → ω) (chain : List (κ × δ)) : Prop :=
  chain.Pairwise fun a b => code a.1 < code b.1

section Chains

omit [LinearOrder ω] in
theorem chainInsert_perm (inserted : hashtabChainInsert cmp key datum chain = .ok chain') :
    chain'.Perm ((key, datum) :: chain) := by
  induction chain generalizing chain' with
  | nil =>
    cases inserted
    exact List.Perm.refl _
  | cons cur next ih =>
    unfold hashtabChainInsert at inserted
    split at inserted
    · cases inserted
    split at inserted
    · cases inserted
      exact List.Perm.refl _
    · split at inserted
      · cases inserted
      · rename_i next' later
        cases inserted
        exact ((ih later).cons cur).trans (List.Perm.swap _ _ _)

theorem chainInsert_sorted (agrees : Agrees cmp code good) (fits : good key)
    (goods : ∀ e ∈ chain, good e.1) (sorted : Sorted code chain)
    (inserted : hashtabChainInsert cmp key datum chain = .ok chain') : Sorted code chain' := by
  induction chain generalizing chain' with
  | nil =>
    cases inserted
    exact List.pairwise_singleton _ _
  | cons cur next ih =>
    obtain ⟨later, rest⟩ := List.pairwise_cons.mp sorted
    obtain ⟨here, goodRest⟩ := List.forall_mem_cons.mp goods
    unfold hashtabChainInsert at inserted
    split at inserted
    · cases inserted
    rename_i differs
    split at inserted
    · rename_i before
      cases inserted
      have less := (agrees.less fits here).mp before
      refine List.pairwise_cons.mpr ⟨?_, sorted⟩
      intro e member
      rcases List.mem_cons.mp member with rfl | member
      · exact less
      · exact less.trans (later e member)
    · rename_i notBefore
      split at inserted
      · cases inserted
      · rename_i next' linked
        cases inserted
        refine List.pairwise_cons.mpr ⟨?_, ih goodRest rest linked⟩
        intro e member
        rcases List.mem_cons.mp ((chainInsert_perm linked).mem_iff.mp member) with rfl | old
        · exact agrees.greater fits here differs notBefore
        · exact later e old

/-- A key of the chain is found by the walk to it. -/
theorem chainSearch_iff (agrees : Agrees cmp code good) (fits : good key)
    (goods : ∀ e ∈ chain, good e.1) (sorted : Sorted code chain) :
    hashtabChainSearch cmp key chain = some datum ↔ (key, datum) ∈ chain := by
  induction chain with
  | nil => simp [hashtabChainSearch]
  | cons cur next ih =>
    obtain ⟨later, rest⟩ := List.pairwise_cons.mp sorted
    obtain ⟨here, goodRest⟩ := List.forall_mem_cons.mp goods
    have notLater (least : code key ≤ code cur.1) : (key, datum) ∉ next := fun member =>
      absurd (later _ member) (not_lt.mpr least)
    unfold hashtabChainSearch
    rw [List.mem_cons]
    split
    · rename_i equal
      obtain rfl := agrees.same.mp equal
      constructor
      · intro found
        cases found
        exact .inl rfl
      · rintro (first | absurdity)
        · rw [← first]
        · exact absurd absurdity (notLater le_rfl)
    rename_i differs
    have apart : (key, datum) ≠ cur := by
      rintro rfl
      exact differs (agrees.same.mpr rfl)
    split
    · rename_i before
      refine iff_of_false (fun found => nomatch found) ?_
      rintro (absurdity | absurdity)
      · exact absurd absurdity apart
      · exact absurd absurdity (notLater ((agrees.less fits here).mp before).le)
    · rw [ih goodRest rest]
      constructor
      · exact .inr
      · rintro (absurdity | member)
        · exact absurd absurdity apart
        · exact member

/-- An insertion takes the walk of a search: it fails where the search finds a key. -/
theorem chainInsert_exists (found : hashtabChainSearch cmp key chain = some datum) (d : δ) :
    hashtabChainInsert cmp key d chain = .error (.err .EEXIST) := by
  induction chain with
  | nil => cases found
  | cons cur next ih =>
    unfold hashtabChainSearch at found
    unfold hashtabChainInsert
    split at found
    · rename_i equal
      rw [if_pos equal]
    rename_i differs
    rw [if_neg differs]
    split at found
    · cases found
    · rename_i notBefore
      rw [if_neg notBefore, ih found]

omit [LinearOrder ω] in
theorem chainSearch_mem (same : ∀ {a b}, cmp a b = 0 ↔ a = b)
    (found : hashtabChainSearch cmp key chain = some datum) : (key, datum) ∈ chain := by
  induction chain with
  | nil => cases found
  | cons cur next ih =>
    unfold hashtabChainSearch at found
    split at found
    · rename_i equal
      cases found
      rw [same.mp equal]
      exact List.mem_cons_self
    split at found
    · cases found
    · exact List.mem_cons_of_mem _ (ih found)

omit [LinearOrder ω] in
/-- The walk to a key passes those before it, which are less. -/
theorem chainSearch_passes {before after : List (κ × δ)} (same : ∀ {a b}, cmp a b = 0 ↔ a = b)
    (apart : ∀ e ∈ before, e.1 ≠ key)
    (found : hashtabChainSearch cmp key (before ++ (key, datum) :: after) = some datum) :
    ∀ e ∈ before, 0 < cmp key e.1 := by
  induction before with
  | nil =>
    intro e member
    cases member
  | cons cur next ih =>
    obtain ⟨here, apartRest⟩ := List.forall_mem_cons.mp apart
    rw [List.cons_append, hashtabChainSearch, if_neg fun equal => here (same.mp equal).symm] at found
    split at found
    · cases found
    · rename_i notBefore
      have differs : ¬ cmp key cur.1 = 0 := fun equal => here (same.mp equal).symm
      exact List.forall_mem_cons.mpr ⟨by omega, ih apartRest found⟩

end Chains

section Tables

variable {params : HashtabKeyParams κ} {h h' : Hashtab κ δ} {items : List (κ × δ)}
  {codes : Nat → κ → ω} {goods : Nat → κ → Prop}

omit [LinearOrder ω] in
theorem hashtabSlot_lt (some : h.size ≠ 0) : hashtabSlot params h key < h.size := by
  unfold hashtabSlot
  simp only [BitVec.toNat_and, BitVec.toNat_ofNat]
  exact mask_lt some

/-- A table holds what was inserted, each key on the chain of its hash value. -/
structure Placed (params : HashtabKeyParams κ) (h : Hashtab κ δ) (items : List (κ × δ)) : Prop where
  slot : ∀ i, ∀ e ∈ h.htable.getD i [], hashtabSlot params h e.1 = i
  entries : h.entries.Perm items
  count : h.nel = items.length

omit [LinearOrder ω] in
theorem placed_init {nel : U32} (made : hashtabInit nel = .ok h) : Placed params h [] := by
  unfold hashtabInit at made
  dsimp only at made
  split at made
  · cases made
  · cases made
    constructor
    · intro i e member
      simp only [replicate_chain] at member
      cases member
    · rw [Hashtab.entries, List.flatten_replicate_nil]
    · rfl

omit [LinearOrder ω] in
/-- The entries on a chain are those with its hash value. -/
theorem mem_chain_iff (slots : ∀ i, ∀ e ∈ h.htable.getD i [], hashtabSlot params h e.1 = i) {i : Nat}
    {e : κ × δ} : e ∈ h.htable.getD i [] ↔ e ∈ h.entries ∧ hashtabSlot params h e.1 = i := by
  rw [Hashtab.entries, List.mem_flatten]
  constructor
  · intro member
    refine ⟨?_, slots i e member⟩
    by_cases inside : i < h.htable.length
    · rw [List.getD_eq_getElem _ _ inside] at member
      exact ⟨_, List.getElem_mem inside, member⟩
    · rw [List.getD_eq_default _ _ (Nat.le_of_not_lt inside)] at member
      cases member
  · rintro ⟨⟨row, inTable, member⟩, here⟩
    obtain ⟨j, below, rfl⟩ := List.mem_iff_getElem.mp inTable
    rw [← List.getD_eq_getElem _ [] below] at member
    rw [← here, slots j e member]
    exact member

omit [LinearOrder ω] in
/-- The entries on a chain are those inserted with its hash value. -/
theorem Placed.mem_chain (placed : Placed params h items) {i : Nat} {e : κ × δ} :
    e ∈ h.htable.getD i [] ↔ e ∈ items ∧ hashtabSlot params h e.1 = i := by
  rw [mem_chain_iff placed.slot, placed.entries.mem_iff]

omit [LinearOrder ω] in
/-- Keys that were inserted once are once on a chain. -/
theorem Placed.chain_nodup (placed : Placed params h items) (distinct : (items.map Prod.fst).Nodup)
    (i : Nat) : ((h.htable.getD i []).map Prod.fst).Nodup := by
  have entries := (placed.entries.map Prod.fst).nodup_iff.mpr distinct
  rw [Hashtab.entries, List.map_flatten, List.nodup_flatten] at entries
  by_cases inside : i < h.htable.length
  · rw [List.getD_eq_getElem _ _ inside]
    exact entries.1 _ (List.mem_map_of_mem (List.getElem_mem inside))
  · rw [List.getD_eq_default _ _ (Nat.le_of_not_lt inside)]
    exact List.nodup_nil

/-- What a successful insertion does: one chain has one more entry. -/
structure Inserted (params : HashtabKeyParams κ) (h h' : Hashtab κ δ) (key : κ) (datum : δ) : Prop where
  some : h.size ≠ 0
  link : hashtabChainInsert params.cmp key datum (h.htable.getD (hashtabSlot params h key) []) =
    .ok (h'.htable.getD (hashtabSlot params h key) [])
  frame : ∀ i, i ≠ hashtabSlot params h key → h'.htable.getD i [] = h.htable.getD i []
  size : h'.size = h.size
  perm : h'.entries.Perm ((key, datum) :: h.entries)
  count : h'.nel = h.nel + 1

omit [LinearOrder ω] in
theorem hashtabInsert_inserted (inserted : hashtabInsert params h key datum = .ok h') :
    Inserted params h h' key datum := by
  unfold hashtabInsert at inserted
  split at inserted
  · cases inserted
  rename_i room
  rw [not_or] at room
  split at inserted
  · cases inserted
  rename_i chain linked
  cases inserted
  have inside : hashtabSlot params h key < h.htable.length := hashtabSlot_lt room.1
  have chainAt (i : Nat) : (h.htable.set (hashtabSlot params h key) chain).getD i [] =
      if hashtabSlot params h key = i then chain else h.htable.getD i [] := by
    simp only [List.getD_eq_getElem?_getD, List.getElem?_set, inside, if_true]
    split <;> rfl
  constructor
  · exact room.1
  · rw [chainAt, if_pos rfl]
    exact linked
  · intro i other
    rw [chainAt, if_neg other.symm]
  · simp only [Hashtab.size, List.length_set]
  · exact flatten_set_perm inside (chainInsert_perm linked)
  · rfl

omit [LinearOrder ω] in
theorem hashtabSlot_size (same : h'.size = h.size) (k : κ) :
    hashtabSlot params h' k = hashtabSlot params h k := by
  simp only [hashtabSlot, same]

omit [LinearOrder ω] in
/-- An insertion keeps every key on the chain of its hash value. -/
theorem Inserted.slots (step : Inserted params h h' key datum)
    (slots : ∀ i, ∀ e ∈ h.htable.getD i [], hashtabSlot params h e.1 = i) :
    ∀ i, ∀ e ∈ h'.htable.getD i [], hashtabSlot params h' e.1 = i := by
  intro i e member
  rw [hashtabSlot_size step.size]
  by_cases here : i = hashtabSlot params h key
  · subst here
    rcases List.mem_cons.mp ((chainInsert_perm step.link).mem_iff.mp member) with rfl | old
    · rfl
    · exact slots _ e old
  · rw [step.frame i here] at member
    exact slots i e member

omit [LinearOrder ω] in
theorem Placed.insert (placed : Placed params h items) (step : Inserted params h h' key datum) :
    Placed params h' (items ++ [(key, datum)]) := by
  constructor
  · exact step.slots placed.slot
  · calc
      h'.entries.Perm ((key, datum) :: h.entries) := step.perm
      List.Perm _ ((key, datum) :: items) := placed.entries.cons _
      List.Perm _ (items ++ [(key, datum)]) := (List.perm_append_singleton _ _).symm
  · rw [step.count, placed.count, List.length_append, List.length_singleton]

/-- Each chain is in the order of its own codes. -/
def ChainsSorted (codes : Nat → κ → ω) (h : Hashtab κ δ) : Prop :=
  ∀ i, Sorted (codes i) (h.htable.getD i [])

omit [LinearOrder ω] in
/-- The keys of a chain are good for it. -/
theorem Placed.suits (placed : Placed params h items)
    (fits : ∀ e ∈ items, goods (hashtabSlot params h e.1) e.1) (i : Nat) :
    ∀ e ∈ h.htable.getD i [], goods i e.1 := by
  intro e member
  obtain ⟨item, here⟩ := placed.mem_chain.mp member
  rw [← here]
  exact fits e item

theorem ChainsSorted.insert (agrees : ∀ i, Agrees params.cmp (codes i) (goods i))
    (placed : Placed params h items) (fits : ∀ e ∈ items, goods (hashtabSlot params h e.1) e.1)
    (fit : goods (hashtabSlot params h key) key) (sorted : ChainsSorted codes h)
    (step : Inserted params h h' key datum) : ChainsSorted codes h' := by
  intro i
  by_cases here : i = hashtabSlot params h key
  · subst here
    exact chainInsert_sorted (agrees _) fit (placed.suits fits _) (sorted _) step.link
  · rw [step.frame i here]
    exact sorted i

/-- A search finds just what was inserted. -/
theorem search_iff (agrees : ∀ i, Agrees params.cmp (codes i) (goods i))
    (placed : Placed params h items) (fits : ∀ e ∈ items, goods (hashtabSlot params h e.1) e.1)
    (fit : goods (hashtabSlot params h key) key) (sorted : ChainsSorted codes h) (some : h.size ≠ 0) :
    hashtabSearch params h key = .some datum ↔ (key, datum) ∈ items := by
  unfold hashtabSearch
  rw [if_neg some, chainSearch_iff (agrees _) fit (placed.suits fits _) (sorted _), placed.mem_chain]
  exact and_iff_left rfl

omit [LinearOrder ω] in
theorem search_mem (same : ∀ {a b}, params.cmp a b = 0 ↔ a = b) (placed : Placed params h items)
    (found : hashtabSearch params h key = .some datum) : (key, datum) ∈ items := by
  unfold hashtabSearch at found
  split at found
  · cases found
  · exact (placed.mem_chain.mp (chainSearch_mem same found)).1

omit [LinearOrder ω] in
/-- What a search finds is an entry of the key. -/
theorem hashtabSearch_mem (same : ∀ {a b}, params.cmp a b = 0 ↔ a = b)
    (found : hashtabSearch params h key = .some datum) : (key, datum) ∈ h.entries := by
  unfold hashtabSearch at found
  split at found
  · cases found
  · rename_i some
    have member := chainSearch_mem same found
    rw [List.getD_eq_getElem _ _ (hashtabSlot_lt some)] at member
    exact List.mem_flatten.mpr ⟨_, List.getElem_mem _, member⟩

omit [LinearOrder ω] in
/-- A key that a search finds is not let in again. -/
theorem insert_exists (room : h.nel ≠ hashtabMaxNodes) (found : hashtabSearch params h key = .some datum)
    (d : δ) : hashtabInsert params h key d = .error (.err .EEXIST) := by
  unfold hashtabSearch at found
  split at found
  · cases found
  · rename_i some
    unfold hashtabInsert
    rw [if_neg fun full => full.elim some room, chainInsert_exists found]

end Tables

end Ksrc.Guarantees.OrderedChains

import Ksrc.Library.ChainTable
import Ksrc.Source.Avtab

/-!
# The nodes a search visits

Source: `security/selinux/ss/avtab.c` (`avtab_insert`, `avtab_insert_nonunique`,
`avtab_search_node`, `avtab_search_node_next`).

A chain is kept in the order of its keys, so the walk that stops before a greater key
visits every node of the key asked for that shares a specifier.
-/
namespace Ksrc.Guarantees.AvtabEnumeration

open Library Source

/-- The number a chain is ordered by: the types and the class of a key. -/
def keyCode (k : AvtabKey) : Nat :=
  (k.sourceType.toNat * 65536 + k.targetType.toNat) * 65536 + k.targetClass.toNat

section Keys

variable {a b : AvtabKey}

theorem keyCode_inj : keyCode a = keyCode b ↔
    a.sourceType = b.sourceType ∧ a.targetType = b.targetType ∧ a.targetClass = b.targetClass := by
  constructor
  · intro same
    unfold keyCode at same
    have := a.targetType.isLt
    have := b.targetType.isLt
    have := a.targetClass.isLt
    have := b.targetClass.isLt
    refine ⟨BitVec.eq_of_toNat_eq ?_, BitVec.eq_of_toNat_eq ?_, BitVec.eq_of_toNat_eq ?_⟩ <;> omega
  · rintro ⟨source, target, cls⟩
    unfold keyCode
    rw [source, target, cls]

theorem avtabMatch_iff {specified : U16} : avtabMatch a specified b = true ↔
    keyCode a = keyCode b ∧ specified &&& b.specified ≠ 0 := by
  rw [keyCode_inj]
  simp [avtabMatch, and_assoc]

theorem avtabBefore_iff : avtabBefore a b = true ↔ keyCode a < keyCode b := by
  unfold avtabBefore keyCode
  have := a.sourceType.isLt
  have := a.targetType.isLt
  have := b.targetType.isLt
  have := a.targetClass.isLt
  have := b.targetClass.isLt
  simp only [Bool.or_eq_true, Bool.and_eq_true, decide_eq_true_eq, beq_iff_eq, BitVec.lt_def,
    ← BitVec.toNat_inj]
  omega

/-- The slot does not depend on the specifiers. -/
theorem avtabSlot_congr (h : Avtab) (same : keyCode a = keyCode b) :
    avtabSlot h a = avtabSlot h b := by
  obtain ⟨source, target, cls⟩ := keyCode_inj.mp same
  unfold avtabSlot avtabHash
  rw [source, target, cls]

end Keys

/-- A chain in the order of its keys. -/
def ChainSorted (chain : List AvtabNode) : Prop :=
  chain.Pairwise fun a b => keyCode a.key ≤ keyCode b.key

/-- Each node is on the chain of its key, and each chain is in order. -/
structure AvtabOk (h : Avtab) : Prop where
  placed : ∀ i, ∀ n ∈ h.htable.getD i [], avtabSlot h n.key = i
  sorted : ∀ i, ChainSorted (h.htable.getD i [])

section Insert

variable {new : AvtabNode} {specified : U16} {chain chain' : List AvtabNode}

/-- Where an insertion puts the new node: behind nodes that are not greater, in front of
nodes that are not smaller. -/
structure InsertedAt (new : AvtabNode) (chain chain' : List AvtabNode) : Prop where
  parts : ∃ before behind, chain = before ++ behind ∧ chain' = before ++ new :: behind ∧
    (∀ n ∈ before, keyCode n.key ≤ keyCode new.key) ∧
    ∀ n, behind.head? = some n → keyCode new.key ≤ keyCode n.key

theorem insertedAt_front {cur : AvtabNode} {next : List AvtabNode}
    (le : keyCode new.key ≤ keyCode cur.key) :
    InsertedAt new (cur :: next) (new :: cur :: next) := by
  constructor
  refine ⟨[], cur :: next, rfl, rfl, by simp, ?_⟩
  intro n head
  cases head
  exact le

theorem insertedAt_later {cur : AvtabNode} {next next' : List AvtabNode}
    (le : keyCode cur.key ≤ keyCode new.key) (later : InsertedAt new next next') :
    InsertedAt new (cur :: next) (cur :: next') := by
  obtain ⟨before, behind, rfl, rfl, small, great⟩ := later.parts
  constructor
  refine ⟨cur :: before, behind, rfl, rfl, ?_, great⟩
  intro n member
  rcases List.mem_cons.mp member with rfl | member
  · exact le
  · exact small n member

theorem avtabChainInsert_at (inserted : avtabChainInsert new specified chain = .ok chain') :
    InsertedAt new chain chain' := by
  induction chain generalizing chain' with
  | nil =>
    cases inserted
    exact ⟨[], [], rfl, rfl, by simp, by simp⟩
  | cons cur next ih =>
    unfold avtabChainInsert at inserted
    split at inserted
    · rename_i matched
      split at inserted
      · cases inserted
        exact insertedAt_front (avtabMatch_iff.mp matched).1.le
      · cases inserted
    · split at inserted
      · rename_i before
        cases inserted
        exact insertedAt_front (avtabBefore_iff.mp before).le
      · rename_i notBefore
        split at inserted
        · cases inserted
        · rename_i next' later
          cases inserted
          rw [avtabBefore_iff] at notBefore
          exact insertedAt_later (Nat.le_of_not_lt notBefore) (ih later)

theorem avtabChainInsertNonunique_at (chain : List AvtabNode) :
    InsertedAt new chain (avtabChainInsertNonunique new specified chain) := by
  induction chain with
  | nil => exact ⟨[], [], rfl, rfl, by simp, by simp⟩
  | cons cur next ih =>
    unfold avtabChainInsertNonunique
    split
    · rename_i matched
      exact insertedAt_front (avtabMatch_iff.mp matched).1.le
    · split
      · rename_i before
        exact insertedAt_front (avtabBefore_iff.mp before).le
      · rename_i notBefore
        rw [avtabBefore_iff] at notBefore
        exact insertedAt_later (Nat.le_of_not_lt notBefore) ih

theorem InsertedAt.mem (inserted : InsertedAt new chain chain') {n : AvtabNode} :
    n ∈ chain' ↔ n = new ∨ n ∈ chain := by
  obtain ⟨before, behind, rfl, rfl, -, -⟩ := inserted.parts
  simp only [List.mem_append, List.mem_cons]
  tauto

theorem InsertedAt.sorted (inserted : InsertedAt new chain chain') (sorted : ChainSorted chain) :
    ChainSorted chain' := by
  obtain ⟨before, behind, rfl, rfl, small, great⟩ := inserted.parts
  unfold ChainSorted at sorted ⊢
  rw [List.pairwise_append] at sorted ⊢
  obtain ⟨front, back, across⟩ := sorted
  have behindGreat : ∀ n ∈ behind, keyCode new.key ≤ keyCode n.key := by
    cases behind with
    | nil => simp
    | cons head tail =>
      intro n member
      have first := great head rfl
      rcases List.mem_cons.mp member with rfl | member
      · exact first
      · exact first.trans ((List.pairwise_cons.mp back).1 n member)
  refine ⟨front, List.pairwise_cons.mpr ⟨behindGreat, back⟩, ?_⟩
  intro a inFront b inBack
  rcases List.mem_cons.mp inBack with rfl | inBack
  · exact small a inFront
  · exact across a inFront b inBack

end Insert

section Table

variable {h : Avtab} {key : AvtabKey} {datum : AvtabDatum}

theorem avtabOk_empty (n nel : Nat) : AvtabOk { htable := List.replicate n [], nel } := by
  constructor
  · intro i n member
    simp only [replicate_chain] at member
    cases member
  · intro i
    simp only [replicate_chain]
    exact List.Pairwise.nil

theorem avtabAlloc_ok (nrules : U32) : AvtabOk (avtabAlloc nrules) := by
  unfold avtabAlloc
  split
  · exact avtabOk_empty 0 0
  · exact avtabOk_empty _ 0

/-- Putting a new node on the chain of its key keeps the table in order. -/
theorem setChain_ok (ok : AvtabOk h) {new : AvtabNode} {chain : List AvtabNode}
    (inserted : InsertedAt new (h.htable.getD (avtabSlot h new.key) []) chain) (nel : Nat) :
    AvtabOk { htable := h.htable.set (avtabSlot h new.key) chain, nel } := by
  have sameSlot : ∀ k : AvtabKey, avtabSlot { htable := h.htable.set (avtabSlot h new.key) chain, nel } k =
      avtabSlot h k := by
    intro k
    simp only [avtabSlot, Avtab.nslot, List.length_set]
  have chainAt : ∀ i, (h.htable.set (avtabSlot h new.key) chain).getD i [] = h.htable.getD i [] ∨
      i = avtabSlot h new.key ∧ (h.htable.set (avtabSlot h new.key) chain).getD i [] = chain := by
    intro i
    by_cases here : i = avtabSlot h new.key
    · by_cases inside : i < h.htable.length
      · right
        refine ⟨here, ?_⟩
        rw [← here]
        simp [List.getD_eq_getElem?_getD, inside]
      · left
        rw [List.set_eq_of_length_le (by omega)]
    · left
      simp [List.getD_eq_getElem?_getD, Ne.symm here]
  constructor
  · intro i n member
    rw [sameSlot]
    rcases chainAt i with old | ⟨here, changed⟩
    · simp only [old] at member
      exact ok.placed i n member
    · simp only [changed] at member
      rcases inserted.mem.mp member with rfl | old
      · exact here.symm
      · rw [here]
        exact ok.placed _ n old
  · intro i
    rcases chainAt i with old | ⟨-, changed⟩
    · simp only [old]
      exact ok.sorted i
    · simp only [changed]
      exact inserted.sorted (ok.sorted _)

theorem avtabInsert_ok (ok : AvtabOk h) {h' : Avtab} (inserted : avtabInsert h key datum = .ok h') :
    AvtabOk h' := by
  unfold avtabInsert at inserted
  split at inserted
  · cases inserted
  · split at inserted
    · cases inserted
    · rename_i chain linked
      cases inserted
      exact setChain_ok ok (avtabChainInsert_at linked) _

theorem avtabInsertNonunique_ok (ok : AvtabOk h) {h' : Avtab} {addr : Nat}
    (inserted : avtabInsertNonunique h key datum = some (h', addr)) : AvtabOk h' := by
  unfold avtabInsertNonunique at inserted
  split at inserted
  · cases inserted
  · simp only [Option.some.injEq, Prod.mk.injEq] at inserted
    obtain ⟨rfl, -⟩ := inserted
    have linked : InsertedAt { addr := h.nel, key, datum } (h.htable.getD (avtabSlot h key) [])
        (avtabChainInsertNonunique { addr := h.nel, key, datum } (avtabSpecified key.specified)
          (h.htable.getD (avtabSlot h key) [])) := avtabChainInsertNonunique_at _
    exact setChain_ok ok linked _

end Table

section Walk

variable {key : AvtabKey} {specified : U16} {chain : List AvtabNode}

theorem avtabChainSearch_congr {other : AvtabKey} (same : keyCode key = keyCode other)
    (chain : List AvtabNode) :
    avtabChainSearch key specified chain = avtabChainSearch other specified chain := by
  induction chain with
  | nil => rfl
  | cons cur next ih =>
    unfold avtabChainSearch
    have matching : avtabMatch key specified cur.key = avtabMatch other specified cur.key := by
      rw [Bool.eq_iff_iff, avtabMatch_iff, avtabMatch_iff, same]
    have before : avtabBefore key cur.key = avtabBefore other cur.key := by
      rw [Bool.eq_iff_iff, avtabBefore_iff, avtabBefore_iff, same]
    rw [matching, before, ih]

/-- The walk visits the nodes of the key that share a specifier, in the order of the chain. -/
theorem avtabWalk_filter (sorted : ChainSorted chain) {fuel : Nat} (enough : chain.length ≤ fuel) :
    avtabWalk specified fuel (avtabChainSearch key (avtabSpecified specified) chain) =
      chain.filter fun n => avtabMatch key (avtabSpecified specified) n.key := by
  induction chain generalizing fuel with
  | nil =>
    unfold avtabChainSearch avtabWalk
    rfl
  | cons cur next ih =>
    have rest := (List.pairwise_cons.mp sorted).2
    have later := (List.pairwise_cons.mp sorted).1
    simp only [List.length_cons] at enough
    unfold avtabChainSearch
    by_cases matched : avtabMatch key (avtabSpecified specified) cur.key = true
    · rw [if_pos matched, List.filter_cons_of_pos (by exact matched)]
      obtain ⟨fuel, rfl⟩ : ∃ left, fuel = left + 1 := ⟨fuel - 1, by omega⟩
      unfold avtabWalk avtabSearchNodeNext
      have same := (avtabMatch_iff.mp matched).1
      rw [← avtabChainSearch_congr same, ih rest (by omega)]
    · rw [if_neg matched, List.filter_cons_of_neg (by exact matched)]
      by_cases before : avtabBefore key cur.key = true
      · rw [if_pos before]
        -- every later key is greater still
        have none : next.filter (fun n => avtabMatch key (avtabSpecified specified) n.key) = [] := by
          apply List.filter_eq_nil_iff.mpr
          intro n member hit
          have same := (avtabMatch_iff.mp hit).1
          have less := avtabBefore_iff.mp before
          have order := later n member
          omega
        rw [none]
        unfold avtabWalk
        rfl
      · rw [if_neg before]
        exact ih rest (by omega)

/-- A loop over the matches of a key visits each node of the table that matches. -/
theorem avtabMatches_filter {h : Avtab} (ok : AvtabOk h) :
    avtabMatches h key = (h.htable.getD (avtabSlot h key) []).filter
      fun n => avtabMatch key (avtabSpecified key.specified) n.key := by
  unfold avtabMatches avtabSearchNode
  split
  · rename_i empty
    have none : h.htable = [] := List.length_eq_zero_iff.mp empty
    rw [none]
    rfl
  · exact avtabWalk_filter (ok.sorted _) le_rfl

theorem mem_avtabMatches {h : Avtab} (ok : AvtabOk h) {n : AvtabNode} :
    n ∈ avtabMatches h key ↔
      n ∈ h.nodes ∧ avtabMatch key (avtabSpecified key.specified) n.key = true := by
  rw [avtabMatches_filter ok, List.mem_filter]
  apply and_congr_left
  intro matched
  have sameSlot := avtabSlot_congr h (avtabMatch_iff.mp matched).1
  unfold Avtab.nodes
  rw [List.mem_flatten]
  constructor
  · intro member
    have inside : avtabSlot h key < h.htable.length := by
      by_contra outside
      rw [List.getD_eq_default _ _ (by omega)] at member
      cases member
    refine ⟨h.htable[avtabSlot h key], List.getElem_mem inside, ?_⟩
    rw [List.getD_eq_getElem _ _ inside] at member
    exact member
  · rintro ⟨chain, linked, member⟩
    obtain ⟨i, inside, rfl⟩ := List.mem_iff_getElem.mp linked
    rw [← List.getD_eq_getElem _ [] inside] at member
    rw [sameSlot, ok.placed i n member]
    exact member

end Walk

end Ksrc.Guarantees.AvtabEnumeration

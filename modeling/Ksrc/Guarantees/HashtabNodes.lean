import Ksrc.Guarantees.OrderedChains
import Ksrc.Library.LinkedLists
import Ksrc.Source.HashtabNodes

/-!
# Hash tables in memory are tables of chains

Source: `security/selinux/ss/hashtab.h` (`hashtab_insert`, `hashtab_search`), `hashtab.c`
(`hashtab_init`, `__hashtab_insert`). The nodes at the addresses of a table hold a table of
chains, and the calls do to the memory what they do to the chains.
-/
namespace Ksrc.Guarantees.HashtabNodes

open Library Library.LinkedLists Source OrderedChains

variable {κ δ : Type} {nodes nodes' : Heap (HashtabNode κ δ)} {htable : List (Option Nat)}
  {chains : List (List Nat)} {i a b : Nat} {pre post xs : List Nat} {p : Option Nat}
  {node : HashtabNode κ δ}

/-- What a node was given. -/
def entryOf (node : HashtabNode κ δ) : κ × δ := (node.key, node.datum)

/-- The keys and data of a chain. -/
abbrev entries (nodes : Heap (HashtabNode κ δ)) (xs : List Nat) : List (κ × δ) :=
  items entryOf nodes xs

/-- The chain that starts at a pointer. -/
abbrev ChainAt (nodes : Heap (HashtabNode κ δ)) (p : Option Nat) (xs : List Nat) : Prop :=
  Listed HashtabNode.next nodes p xs

/-- An array of chains that share no node. -/
structure Chained (nodes : Heap (HashtabNode κ δ)) (htable : List (Option Nat))
    (chains : List (List Nat)) : Prop where
  length : htable.length = chains.length
  listed : ∀ i, i < chains.length → ChainAt nodes (htable.getD i none) (chains.getD i [])
  once : chains.flatten.Nodup

section Links

theorem mem_flatten_of_getD (inside : i < chains.length) (member : a ∈ chains.getD i []) :
    a ∈ chains.flatten := by
  rw [List.getD_eq_getElem _ _ inside] at member
  exact List.mem_flatten.mpr ⟨_, List.getElem_mem inside, member⟩

theorem exists_slot (member : a ∈ chains.flatten) :
    ∃ i, i < chains.length ∧ a ∈ chains.getD i [] := by
  obtain ⟨chain, inTable, here⟩ := List.mem_flatten.mp member
  obtain ⟨i, inside, rfl⟩ := List.mem_iff_getElem.mp inTable
  refine ⟨i, inside, ?_⟩
  rwa [List.getD_eq_getElem _ _ inside]

theorem Chained.allocated (is : Chained nodes htable chains) (member : a ∈ chains.flatten) :
    ∃ node, nodes.get a = some node := by
  obtain ⟨i, inside, here⟩ := exists_slot member
  exact (is.listed i inside).allocated here

theorem Chained.fresh_notMem (is : Chained nodes htable chains) (fresh : nodes.get a = none) :
    a ∉ chains.flatten := by
  intro member
  obtain ⟨node, here⟩ := is.allocated member
  rw [fresh] at here
  cases here

/-- A node is on one chain only. -/
theorem Chained.slot_unique (is : Chained nodes htable chains) {j : Nat} (inside : i < chains.length)
    (inside' : j < chains.length) (here : a ∈ chains.getD i []) (there : a ∈ chains.getD j []) :
    i = j := by
  have apart := (List.nodup_flatten.mp is.once).2
  by_contra differ
  rw [List.getD_eq_getElem _ _ inside] at here
  rw [List.getD_eq_getElem _ _ inside'] at there
  rcases Nat.lt_or_gt_of_ne differ with less | less
  · exact List.pairwise_iff_getElem.mp apart i j inside inside' less here there
  · exact List.pairwise_iff_getElem.mp apart j i inside' inside less there here

/-- The link after the first nodes of a chain. -/
theorem Chained.link_read (is : Chained nodes htable chains) (inside : i < chains.length)
    (split : chains.getD i [] = pre ++ post) :
    ∃ r, loadLink nodes htable i pre.getLast? = some r ∧
      Segment HashtabNode.next nodes (htable.getD i none) pre r ∧ ChainAt nodes r post := by
  have chain := is.listed i inside
  rw [split] at chain
  obtain ⟨r, first, second⟩ := segment_append.mp chain
  refine ⟨r, ?_, first, second⟩
  rcases List.eq_nil_or_concat pre with rfl | ⟨front, last, rfl⟩
  · have inArray : i < htable.length := is.length ▸ inside
    have start : htable.getD i none = r := first
    rw [List.getD_eq_getElem _ _ inArray] at start
    rw [← start]
    exact List.getElem?_eq_getElem inArray
  · rw [List.concat_eq_append] at first ⊢
    obtain ⟨mid, -, -, v, here, link⟩ := segment_append.mp first
    have read : loadLink nodes htable i (some last) = some v.next := by
      simp only [loadLink, here, Option.map_some]
    have same : v.next = r := link
    rw [List.getLast?_append_of_ne_nil _ (List.cons_ne_nil _ _), List.getLast?_singleton, read, same]

theorem storeLink_length (prev q : Option Nat) :
    (storeLink nodes htable i prev q).2.length = htable.length := by
  unfold storeLink
  split
  · exact List.length_set
  · split <;> rfl

/-- A link is written without a change of the key or the datum of its node. -/
theorem storeLink_entry (prev q : Option Nat) (b : Nat) :
    ((storeLink nodes htable i prev q).1.get b).map entryOf = (nodes.get b).map entryOf := by
  unfold storeLink
  split
  · rfl
  · rename_i prev
    split
    · rfl
    · rename_i node here
      rw [Heap.get_set]
      split
      · rename_i same
        rw [same, here]
        rfl
      · rfl

/-- No other node is written. -/
theorem storeLink_frame {prev : Option Nat} (other : prev ≠ some b) (q : Option Nat) :
    (storeLink nodes htable i prev q).1.get b = nodes.get b := by
  unfold storeLink
  split
  · rfl
  · rename_i prev
    split
    · rfl
    · apply Heap.get_set_other
      rintro rfl
      exact other rfl

theorem storeLink_head {prev : Option Nat} {j : Nat} (other : i ≠ j) (q : Option Nat) :
    (storeLink nodes htable i prev q).2.getD j none = htable.getD j none := by
  unfold storeLink
  split
  · simp only [List.getD_eq_getElem?_getD, List.getElem?_set, other, if_false]
  · split <;> rfl

/-- A new node goes between the first nodes of a chain and the others. -/
theorem Chained.chain_link (is : Chained nodes htable chains) (inside : i < chains.length)
    (split : chains.getD i [] = pre ++ post) (fresh : nodes.get a = none)
    (read : loadLink nodes htable i pre.getLast? = some node.next) :
    let stored := storeLink (nodes.set a node) htable i pre.getLast? (some a)
    ChainAt stored.1 (stored.2.getD i none) (pre ++ a :: post) := by
  have whole := is.listed i inside
  have inArray : i < htable.length := is.length ▸ inside
  obtain ⟨r, again, first, second⟩ := is.link_read inside split
  rw [read] at again
  cases again
  have new := listed_cons second fresh (v := node) rfl
  rw [split] at whole
  rcases List.eq_nil_or_concat pre with rfl | ⟨front, last, rfl⟩
  · have head : (htable.set i (some a)).getD i none = some a := by
      simp only [List.getD_eq_getElem?_getD, List.getElem?_set_self inArray, Option.getD_some]
    simp only [List.getLast?_nil, storeLink, head, List.nil_append]
    exact new
  · rw [List.concat_eq_append] at *
    have nodup : (front ++ [last]).Nodup ∧ post.Nodup ∧ (front ++ [last]).Disjoint post :=
      List.nodup_append'.mp whole.nodup
    have inPre : last ∈ front ++ [last] := List.mem_append_right _ List.mem_cons_self
    obtain ⟨v, here⟩ := first.allocated inPre
    have aside : a ∉ front ++ [last] := first.fresh_notMem fresh
    have notNew : last ≠ a := ne_of_mem_of_not_mem inPre aside
    have notFront : last ∉ front := fun member =>
      (List.disjoint_of_nodup_append nodup.1) member List.mem_cons_self
    have notBehind : last ∉ a :: post := by
      rw [List.mem_cons, not_or]
      exact ⟨notNew, nodup.2.2 inPre⟩
    have kept : (nodes.set a node).get last = some v := by
      rw [Heap.get_set_other _ _ notNew, here]
    rw [List.getLast?_append_of_ne_nil _ (List.cons_ne_nil _ _), List.getLast?_singleton]
    simp only [storeLink, kept]
    refine segment_append.mpr ⟨some a, ?_, new.set_other notBehind⟩
    exact (first.set_other aside).relink notFront rfl

theorem Chained.link (is : Chained nodes htable chains) (inside : i < chains.length)
    (split : chains.getD i [] = pre ++ post) (fresh : nodes.get a = none)
    (node : HashtabNode κ δ) (read : loadLink nodes htable i pre.getLast? = some node.next) :
    let stored := storeLink (nodes.set a node) htable i pre.getLast? (some a)
    Chained stored.1 stored.2 (chains.set i (pre ++ a :: post)) := by
  have linked := is.chain_link inside split fresh read
  have more : (pre ++ a :: post).Perm (a :: chains.getD i []) := by
    rw [split]
    exact List.perm_middle
  have perm := flatten_set_perm inside more
  constructor
  · rw [storeLink_length, List.length_set, is.length]
  · intro j below
    rw [List.length_set] at below
    by_cases here : i = j
    · subst here
      rw [chain_set_self inside]
      exact linked
    · rw [chain_set_other here, storeLink_head here]
      refine (segment_congr fun b member => ?_).mpr (is.listed j below)
      have old : b ≠ a := ne_of_mem_of_not_mem member ((is.listed j below).fresh_notMem fresh)
      have elsewhere : pre.getLast? ≠ some b := by
        intro last
        apply here
        apply is.slot_unique inside below (a := b) _ member
        rw [split]
        exact List.mem_append_left _ (List.mem_of_getLast? last)
      rw [storeLink_frame elsewhere, Heap.get_set_other _ _ old]
  · rw [perm.nodup_iff, List.nodup_cons]
    exact ⟨is.fresh_notMem fresh, is.once⟩

theorem stored_new (prev q : Option Nat) :
    ((storeLink (nodes.set a node) htable i prev q).1.get a).map entryOf = some (entryOf node) := by
  rw [storeLink_entry, Heap.get_set_same, Option.map_some]

/-- The entries of other nodes stay when a new node is linked. -/
theorem stored_entries {xs : List Nat} (absent : a ∉ xs) (prev q : Option Nat) :
    entries (storeLink (nodes.set a node) htable i prev q).1 xs = entries nodes xs := by
  refine items_congr fun b member => ?_
  have other : b ≠ a := ne_of_mem_of_not_mem member absent
  rw [storeLink_entry, Heap.get_set_other _ _ other]

/-- What is no node of the table stays as it is when a new node is linked. -/
theorem stored_frame (inside : i < chains.length) (split : chains.getD i [] = pre ++ post)
    (outside : b ∉ chains.flatten) (other : b ≠ a) (q : Option Nat) :
    (storeLink (nodes.set a node) htable i pre.getLast? q).1.get b = nodes.get b := by
  have notLast : pre.getLast? ≠ some b := by
    intro last
    apply outside
    apply mem_flatten_of_getD inside
    rw [split]
    exact List.mem_append_left _ (List.mem_of_getLast? last)
  rw [storeLink_frame notLast, Heap.get_set_other _ _ other]

end Links

/-- A table in memory: a chain for each slot, and `nel` counts the nodes. -/
structure Laid (nodes : Heap (HashtabNode κ δ)) (table : HashtabObject)
    (chains : List (List Nat)) : Prop extends Chained nodes table.htable chains where
  size : chains.length = table.size.toNat
  nel : chains.flatten.length = table.nel.toNat

/-- The table of chains in a memory. -/
def tableOf (m : HashtabMemory κ δ) (chains : List (List Nat)) : Hashtab κ δ :=
  { htable := chains.map (entries m.nodes), nel := m.table.nel.toNat }

section Walks

variable {cmp : κ → κ → Int} {key : κ} {datum : δ} {turns : Nat}

theorem entries_append (xs ys : List Nat) :
    entries nodes (xs ++ ys) = entries nodes xs ++ entries nodes ys :=
  items_append

theorem entries_cons (here : nodes.get a = some node) (xs : List Nat) :
    entries nodes (a :: xs) = (node.key, node.datum) :: entries nodes xs :=
  items_cons here

/-- The loop of `hashtab_insert` takes the walk of the chain. -/
theorem insertWalk_chain (chain : ChainAt nodes p xs) (enough : xs.length < turns)
    (prev : Option Nat) :
    (∃ e, hashtabChainInsert cmp key datum (entries nodes xs) = .error e ∧
      HashtabMemory.insertWalk cmp key nodes turns prev p = some (.error e)) ∨
    ∃ pre post, xs = pre ++ post ∧
      hashtabChainInsert cmp key datum (entries nodes xs) =
        .ok (entries nodes pre ++ (key, datum) :: entries nodes post) ∧
      HashtabMemory.insertWalk cmp key nodes turns prev p = some (.ok (pre.getLast?.or prev)) := by
  induction xs generalizing p prev turns with
  | nil =>
    obtain ⟨turns, rfl⟩ := Nat.exists_eq_add_one_of_ne_zero (Nat.ne_zero_of_lt enough)
    cases chain
    exact .inr ⟨[], [], rfl, rfl, rfl⟩
  | cons cur rest ih =>
    rw [List.length_cons] at enough
    obtain ⟨turns, rfl⟩ := Nat.exists_eq_add_one_of_ne_zero (Nat.ne_zero_of_lt enough)
    obtain ⟨rfl, node, here, later⟩ := chain
    have walk : HashtabMemory.insertWalk cmp key nodes (turns + 1) prev (some cur) =
        if cmp key node.key = 0 then some (.error (.err .EEXIST))
        else if cmp key node.key < 0 then some (.ok prev)
        else HashtabMemory.insertWalk cmp key nodes turns (some cur) node.next := by
      rw [HashtabMemory.insertWalk, here]
    rw [walk, entries_cons here, hashtabChainInsert]
    by_cases equal : cmp key node.key = 0
    · rw [if_pos equal, if_pos equal]
      exact .inl ⟨_, rfl, rfl⟩
    rw [if_neg equal, if_neg equal]
    by_cases before : cmp key node.key < 0
    · rw [if_pos before, if_pos before]
      refine .inr ⟨[], cur :: rest, rfl, ?_, rfl⟩
      rw [entries_cons here]
      rfl
    rw [if_neg before, if_neg before]
    have within : rest.length < turns := by omega
    rcases ih later within (some cur) with ⟨e, refused, walked⟩ | ⟨pre, post, rfl, linked, walked⟩
    · rw [refused, walked]
      exact .inl ⟨e, rfl, rfl⟩
    · rw [linked, walked]
      refine .inr ⟨cur :: pre, post, rfl, ?_, ?_⟩
      · rw [entries_cons here]
        rfl
      · rw [List.getLast?_cons]
        cases pre.getLast? <;> rfl

/-- The loop of `hashtab_search` takes the walk of the chain. -/
theorem searchWalk_chain (chain : ChainAt nodes p xs) (enough : xs.length < turns) :
    HashtabMemory.searchWalk cmp key nodes turns p =
      some (hashtabChainSearch cmp key (entries nodes xs)) := by
  induction xs generalizing p turns with
  | nil =>
    obtain ⟨turns, rfl⟩ := Nat.exists_eq_add_one_of_ne_zero (Nat.ne_zero_of_lt enough)
    cases chain
    rfl
  | cons cur rest ih =>
    rw [List.length_cons] at enough
    obtain ⟨turns, rfl⟩ := Nat.exists_eq_add_one_of_ne_zero (Nat.ne_zero_of_lt enough)
    obtain ⟨rfl, node, here, later⟩ := chain
    have walk : HashtabMemory.searchWalk cmp key nodes (turns + 1) (some cur) =
        if cmp key node.key = 0 then some (some node.datum)
        else if cmp key node.key < 0 then some none
        else HashtabMemory.searchWalk cmp key nodes turns node.next := by
      rw [HashtabMemory.searchWalk, here]
    rw [walk, entries_cons here, hashtabChainSearch]
    dsimp only
    split
    · rfl
    · split
      · rfl
      · exact ih later (by omega)

end Walks

section Calls

variable {params : HashtabKeyParams κ} {m : HashtabMemory κ δ} {slab : Slab (HashtabNode κ δ)}
  {key : κ} {datum : δ}

theorem tableOf_size (laid : Laid m.nodes m.table chains) :
    (tableOf m chains).size = m.table.size.toNat := by
  rw [← laid.size]
  exact List.length_map _

theorem tableOf_chain (m : HashtabMemory κ δ) (chains : List (List Nat)) (i : Nat) :
    (tableOf m chains).htable.getD i [] = entries m.nodes (chains.getD i []) := by
  simp only [tableOf, List.getD_eq_getElem?_getD, List.getElem?_map]
  cases chains[i]? <;> rfl

theorem slot_eq (laid : Laid m.nodes m.table chains) (some : m.table.size ≠ 0) (key : κ) :
    m.slot params key = hashtabSlot params (tableOf m chains) key := by
  have positive : m.table.size.toNat ≠ 0 := fun zero => some (BitVec.eq_of_toNat_eq zero)
  have cut : m.table.size - 1 = BitVec.ofNat 32 (m.table.size.toNat - 1) := by
    apply BitVec.eq_of_toNat_eq
    have width := m.table.size.isLt
    rw [BitVec.toNat_sub]
    simp only [BitVec.ofNat_eq_ofNat, BitVec.toNat_ofNat]
    omega
  unfold HashtabMemory.slot hashtabSlot
  rw [tableOf_size laid, cut]

theorem slot_lt (params : HashtabKeyParams κ) (laid : Laid m.nodes m.table chains)
    (some : m.table.size ≠ 0) (key : κ) : m.slot params key < chains.length := by
  have positive : (tableOf m chains).size ≠ 0 := by
    rw [tableOf_size laid]
    exact fun zero => some (BitVec.eq_of_toNat_eq zero)
  rw [slot_eq laid some, laid.size, ← tableOf_size laid]
  exact hashtabSlot_lt positive

theorem head_eq (laid : Laid m.nodes m.table chains) (inside : i < chains.length) :
    m.table.htable[i]? = some (m.table.htable.getD i none) := by
  have inArray : i < m.table.htable.length := laid.length ▸ inside
  rw [List.getD_eq_getElem _ _ inArray]
  exact List.getElem?_eq_getElem inArray

/-- No table has room where the guard of `hashtab_insert` says so. -/
theorem room_iff (laid : Laid m.nodes m.table chains) :
    (m.table.size = 0 ∨ m.table.nel.toNat = hashtabMaxNodes) ↔
      ((tableOf m chains).size = 0 ∨ (tableOf m chains).nel = hashtabMaxNodes) := by
  rw [tableOf_size laid]
  refine or_congr_left ⟨fun zero => by rw [zero]; rfl, fun zero => ?_⟩
  exact BitVec.eq_of_toNat_eq zero

theorem search_refines (laid : Laid m.nodes m.table chains) (key : κ) :
    m.search params key = some (hashtabSearch params (tableOf m chains) key) := by
  unfold HashtabMemory.search hashtabSearch
  have zero : m.table.size = 0 ↔ (tableOf m chains).size = 0 := by
    rw [tableOf_size laid]
    exact ⟨fun zero => by rw [zero]; rfl, fun zero => BitVec.eq_of_toNat_eq zero⟩
  by_cases empty : m.table.size = 0
  · rw [if_pos empty, if_pos (zero.mp empty)]
  · have inside := slot_lt params laid empty key
    have chain := laid.listed _ inside
    have enough := chain.length_le
    rw [if_neg empty, if_neg fun none => empty (zero.mpr none), head_eq laid inside,
      ← slot_eq laid empty, tableOf_chain]
    exact searchWalk_chain chain (by omega)

/-- What a successful `__hashtab_insert` leaves. -/
structure NodeAdded (m m' : HashtabMemory κ δ) (chains : List (List Nat)) (i : Nat)
    (pre post : List Nat) (a : Nat) (key : κ) (datum : δ) : Prop where
  laid : Laid m'.nodes m'.table (chains.set i (pre ++ a :: post))
  table : tableOf m' (chains.set i (pre ++ a :: post)) =
    { htable := (tableOf m chains).htable.set i
        (entries m.nodes pre ++ (key, datum) :: entries m.nodes post)
      nel := (tableOf m chains).nel + 1 }
  size : m'.table.size = m.table.size
  others : ∀ b, b ∉ chains.flatten → b ≠ a → m'.nodes.get b = m.nodes.get b

theorem insertNode_added (laid : Laid m.nodes m.table chains) (inside : i < chains.length)
    (split : chains.getD i [] = pre ++ post) (room : m.table.nel.toNat ≠ hashtabMaxNodes)
    (got : slab.alloc m.nodes = some a) :
    ∃ m', m.insertNode slab i pre.getLast? key datum = some (.ok (), m') ∧
      NodeAdded m m' chains i pre post a key datum := by
  have fresh := slab.unused _ _ got
  obtain ⟨r, read, -, -⟩ := laid.link_read inside split
  have linked := laid.toChained.link inside split fresh ⟨key, datum, r⟩ read
  have more : (pre ++ a :: post).Perm (a :: chains.getD i []) := by
    rw [split]
    exact List.perm_middle
  have counted : m.table.nel.toNat + 1 = (m.table.nel + 1).toNat := by
    have width := m.table.nel.isLt
    unfold hashtabMaxNodes at room
    rw [BitVec.toNat_add]
    simp only [BitVec.ofNat_eq_ofNat, BitVec.toNat_ofNat]
    omega
  unfold HashtabMemory.insertNode
  rw [got, read]
  refine ⟨_, rfl, ?_⟩
  dsimp only at linked ⊢
  generalize isStored : storeLink (m.nodes.set a ⟨key, datum, r⟩) m.table.htable i pre.getLast? (some a) =
    stored at linked
  have old : ∀ xs : List Nat, a ∉ xs → entries stored.1 xs = entries m.nodes xs := by
    intro xs absent
    rw [← isStored, stored_entries absent]
  have notOld : a ∉ chains.flatten := laid.fresh_notMem fresh
  have absent : a ∉ pre ++ post := by
    rw [← split]
    exact fun member => notOld (mem_flatten_of_getD inside member)
  rw [List.mem_append, not_or] at absent
  constructor
  · constructor
    · exact linked
    · rw [List.length_set]
      exact laid.size
    · rw [(flatten_set_perm inside more).length_eq, List.length_cons, laid.nel]
      exact counted
  · have new : entries stored.1 (a :: post) = (key, datum) :: entries m.nodes post := by
      have here : (stored.1.get a).map entryOf = some (key, datum) := by
        rw [← isStored, stored_new]
        rfl
      obtain ⟨node, there, is⟩ := Option.map_eq_some_iff.mp here
      rw [entries_cons there, old post absent.2]
      exact congrArg (· :: entries m.nodes post) is
    have chain : entries stored.1 (pre ++ a :: post) =
        entries m.nodes pre ++ (key, datum) :: entries m.nodes post := by
      rw [entries_append, old pre absent.1, new]
    have rest : chains.map (entries stored.1) = chains.map (entries m.nodes) := by
      refine List.map_congr_left fun xs member => old xs fun inside => ?_
      exact notOld (List.mem_flatten.mpr ⟨xs, member, inside⟩)
    unfold tableOf
    dsimp only
    rw [List.map_set, chain, rest, counted]
  · rfl
  · intro b outside other
    dsimp only
    rw [← isStored, stored_frame inside split outside other]

/-- An insertion does to the memory what it does to the chains, unless the allocation of its node
fails. -/
theorem insert_refines (laid : Laid m.nodes m.table chains) (slab : Slab (HashtabNode κ δ)) (key : κ)
    (datum : δ) :
    (∃ e, hashtabInsert params (tableOf m chains) key datum = .error e ∧
      m.insert params slab key datum = some (.error e, m)) ∨
    ∃ h', hashtabInsert params (tableOf m chains) key datum = .ok h' ∧
      (slab.alloc m.nodes = none ∧
          m.insert params slab key datum = some (.error (.err .ENOMEM), m) ∨
        ∃ m' chains', (slab.alloc m.nodes).isSome ∧
          m.insert params slab key datum = some (.ok (), m') ∧
          Laid m'.nodes m'.table chains' ∧ tableOf m' chains' = h' ∧
          m'.table.size = m.table.size) := by
  unfold HashtabMemory.insert hashtabInsert
  by_cases full : m.table.size = 0 ∨ m.table.nel.toNat = hashtabMaxNodes
  · rw [if_pos full, if_pos ((room_iff laid).mp full)]
    exact .inl ⟨_, rfl, rfl⟩
  have space := full
  rw [not_or] at space
  have inside := slot_lt params laid space.1 key
  have chain := laid.listed _ inside
  have enough := chain.length_le
  rw [if_neg full, if_neg fun none => full ((room_iff laid).mpr none), head_eq laid inside,
    ← slot_eq laid space.1, tableOf_chain]
  dsimp only
  rcases insertWalk_chain chain
    (Nat.lt_succ_of_le enough) none with ⟨e, refused, walked⟩ | ⟨pre, post, split, linked, walked⟩
  · rw [refused, walked]
    exact .inl ⟨e, rfl, rfl⟩
  · rw [linked, walked, Option.or_none]
    refine .inr ⟨_, rfl, ?_⟩
    dsimp only
    cases got : slab.alloc m.nodes with
    | none =>
      refine .inl ⟨rfl, ?_⟩
      unfold HashtabMemory.insertNode
      rw [got]
    | some a =>
      obtain ⟨m', inserted, added⟩ := insertNode_added laid inside
        split space.2 got
      exact .inr ⟨m', _, rfl, inserted, added.laid, added.table, added.size⟩

/-- A refused insertion changes nothing, whatever is in memory. -/
theorem insert_error {m' : HashtabMemory κ δ} {e : Fault}
    (refused : m.insert params slab key datum = some (.error e, m')) : m' = m := by
  unfold HashtabMemory.insert at refused
  split at refused
  · cases refused
    rfl
  split at refused
  · cases refused
  split at refused
  · cases refused
  · cases refused
    rfl
  · unfold HashtabMemory.insertNode at refused
    split at refused
    · cases refused
      rfl
    · split at refused
      · cases refused
      · cases refused

end Calls

end Ksrc.Guarantees.HashtabNodes

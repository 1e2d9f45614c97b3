import Ksrc.Guarantees.HashtabNodes
import Ksrc.Source.Booleans

/-!
# Copies of hash tables

Source: `security/selinux/ss/hashtab.c` (`hashtab_duplicate`). Each chain is built at its tail
while the original is read. A failure at any node ends the copy, and what was copied so far is
destroyed from the chains built so far.
-/
namespace Ksrc.Guarantees.HashtabCopies

open Library Library.LinkedLists Source HashtabNodes

variable {κ δ σ : Type} {ops : DuplicateOps κ δ σ} {slab : Slab (HashtabNode κ δ)}
  {nodes nodes' nodes₀ : Heap (HashtabNode κ δ)} {orig : HashtabObject}
  {chains made : List (List Nat)} {s s' : Duplication κ δ σ} {xs : List Nat} {p : Option Nat}
  {turns i a tmp cur : Nat}

/-- An entry is what `copy` makes of another. -/
def CopyOf (ops : DuplicateOps κ δ σ) (new old : κ × δ) : Prop :=
  ∃ args args', ops.copy old.1 old.2 args = (.ok new, args')

/-- Something that `hashtab_duplicate` calls fails. -/
def Fails (ops : DuplicateOps κ δ σ) (slab : Slab (HashtabNode κ δ)) : Prop :=
  (∃ nodes, slab.alloc nodes = none) ∨
    ∃ key datum args e args', ops.copy key datum args = (.error e, args')

/-- The callback for a node. -/
def callOf (a : Nat) (entry : κ × δ) : NodeCall κ δ := { node := a, key := entry.1, datum := entry.2 }

/-- The callbacks for the nodes at some addresses. -/
def callsOf (nodes : Heap (HashtabNode κ δ)) (xs : List Nat) : List (NodeCall κ δ) :=
  xs.filterMap fun a => ((nodes.get a).map entryOf).map (callOf a)

section Calls

theorem callsOf_congr
    (same : ∀ a ∈ xs, (nodes'.get a).map entryOf = (nodes.get a).map entryOf) :
    callsOf nodes' xs = callsOf nodes xs := by
  refine List.filterMap_congr fun a member => ?_
  rw [same a member]

theorem callsOf_cons {node : HashtabNode κ δ} (here : nodes.get a = some node) (xs : List Nat) :
    callsOf nodes (a :: xs) = callOf a (entryOf node) :: callsOf nodes xs := by
  unfold callsOf
  rw [List.filterMap_cons, here]
  rfl

/-- A new node that is linked is called for besides the nodes that were there. -/
theorem stored_calls {node : HashtabNode κ δ} {htable : List (Option Nat)} (absent : a ∉ xs)
    (prev q : Option Nat) :
    callsOf (storeLink (nodes.set a node) htable i prev q).1 (a :: xs) =
      callOf a (entryOf node) :: callsOf nodes xs := by
  have new : ((storeLink (nodes.set a node) htable i prev q).1.get a).map entryOf =
      some (entryOf node) := stored_new prev q
  obtain ⟨stored, here, same⟩ := Option.map_eq_some_iff.mp new
  have others : callsOf (storeLink (nodes.set a node) htable i prev q).1 xs = callsOf nodes xs := by
    refine callsOf_congr fun b member => ?_
    have other : b ≠ a := ne_of_mem_of_not_mem member absent
    rw [storeLink_entry, Heap.get_set_other _ _ other]
  rw [callsOf_cons here, others, same]

/-- Each node is called for once. -/
theorem callsOf_nodes (all : ∀ a ∈ xs, ∃ node, nodes.get a = some node) :
    (callsOf nodes xs).map NodeCall.node = xs := by
  induction xs with
  | nil => rfl
  | cons a rest ih =>
    obtain ⟨⟨node, here⟩, later⟩ := List.forall_mem_cons.mp all
    rw [callsOf_cons here, List.map_cons, ih later]
    rfl

end Calls

/-- A copy in progress: for each slot the first nodes of its chain have been copied, in order. -/
structure Copying (ops : DuplicateOps κ δ σ) (nodes₀ : Heap (HashtabNode κ δ))
    (orig : HashtabObject) (chains made : List (List Nat)) (s : Duplication κ δ σ) : Prop where
  chained : Chained s.nodes s.new.htable made
  length : made.length = chains.length
  size : s.new.size = orig.size
  nel : s.new.nel = BitVec.ofNat 32 made.flatten.length
  fresh : ∀ a ∈ made.flatten, nodes₀.get a = none
  old : ∀ a, a ∉ made.flatten → s.nodes.get a = nodes₀.get a
  short : ∀ j, (made.getD j []).length ≤ (chains.getD j []).length
  copies : ∀ j, List.Forall₂ (CopyOf ops) (entries s.nodes (made.getD j []))
    (entries nodes₀ ((chains.getD j []).take (made.getD j []).length))
  log : s.copied.Perm (callsOf s.nodes made.flatten)
  undone : s.destroyed = []

section Copy

/-- The original is in memory as it was. -/
theorem Copying.original (is : Copying ops nodes₀ orig chains made s) {node : HashtabNode κ δ}
    (here : nodes₀.get a = some node) : s.nodes.get a = some node := by
  rw [is.old a, here]
  intro member
  rw [is.fresh a member] at here
  cases here

/-- One node is copied and put at the end of its chain. -/
theorem Copying.append (is : Copying ops nodes₀ orig chains made s) (inside : i < made.length)
    {node : HashtabNode κ δ} {key : κ} {datum : δ} {args : σ} {rest : List Nat}
    (next : (chains.getD i []).drop (made.getD i []).length = cur :: rest)
    (here : nodes₀.get cur = some node) (got : slab.alloc s.nodes = some tmp)
    (copied : ops.copy node.key node.datum s.args = (.ok (key, datum), args)) :
    Copying ops nodes₀ orig chains (made.set i (made.getD i [] ++ [tmp]))
      (s.append i (made.getD i []).getLast? tmp key datum args) := by
  have unused := slab.unused _ _ got
  have split : made.getD i [] = made.getD i [] ++ [] := (List.append_nil _).symm
  obtain ⟨r, read, -, ends⟩ := is.chained.link_read inside split
  have last : r = none := ends
  rw [last] at read
  have linked := is.chained.link inside split unused ⟨key, datum, none⟩ read
  have more : (made.getD i [] ++ [tmp]).Perm (tmp :: made.getD i []) := List.perm_append_singleton _ _
  have perm := flatten_set_perm inside more
  have notMade : tmp ∉ made.flatten := is.chained.fresh_notMem unused
  unfold Duplication.append
  generalize isStored : storeLink (s.nodes.set tmp ⟨key, datum, none⟩) s.new.htable i
    (made.getD i []).getLast? (some tmp) = stored at linked
  have new : (stored.1.get tmp).map entryOf = some (key, datum) := by
    rw [← isStored, stored_new]
    rfl
  have notIn : ∀ j, j < made.length → tmp ∉ made.getD j [] := fun j below member =>
    notMade (mem_flatten_of_getD below member)
  have stable : ∀ j, entries stored.1 (made.getD j []) = entries s.nodes (made.getD j []) := by
    intro j
    by_cases below : j < made.length
    · rw [← isStored, stored_entries (notIn j below)]
    · rw [List.getD_eq_default _ _ (Nat.le_of_not_lt below)]
      rfl
  obtain ⟨newNode, newHere, isNew⟩ := Option.map_eq_some_iff.mp new
  have front : (chains.getD i []).take ((made.getD i []).length + 1) =
      (chains.getD i []).take (made.getD i []).length ++ [cur] := by
    rw [List.take_add, next]
    rfl
  constructor
  · exact linked
  · rw [List.length_set]
    exact is.length
  · exact is.size
  · dsimp only
    rw [perm.length_eq, List.length_cons, is.nel]
    apply BitVec.eq_of_toNat_eq
    simp only [BitVec.ofNat_eq_ofNat, BitVec.toNat_add, BitVec.toNat_ofNat]
    omega
  · intro b member
    rcases List.mem_cons.mp (perm.mem_iff.mp member) with rfl | before
    · rw [← is.old b notMade]
      exact unused
    · exact is.fresh b before
  · intro b absent
    rw [perm.mem_iff, List.mem_cons, not_or] at absent
    rw [← isStored, stored_frame inside split absent.2 absent.1]
    exact is.old b absent.2
  · intro j
    by_cases same : i = j
    · subst same
      have some := congrArg List.length next
      rw [List.length_drop, List.length_cons] at some
      rw [chain_set_self inside, List.length_append, List.length_singleton]
      omega
    · rw [chain_set_other same]
      exact is.short j
  · intro j
    by_cases same : i = j
    · subst same
      rw [chain_set_self inside, List.length_append, List.length_singleton, front, entries_append,
        entries_append, stable, entries_cons newHere, entries_cons here]
      refine List.rel_append (is.copies i) (List.Forall₂.cons ?_ List.Forall₂.nil)
      exact ⟨s.args, args, by rw [copied, ← isNew]; rfl⟩
    · rw [chain_set_other same, stable]
      exact is.copies j
  · have front : callsOf stored.1 (tmp :: made.flatten) =
        { node := tmp, key, datum } :: callsOf s.nodes made.flatten := by
      rw [← isStored, stored_calls notMade]
      rfl
    calc
      List.Perm ({ node := tmp, key, datum } :: s.copied)
          ({ node := tmp, key, datum } :: callsOf s.nodes made.flatten) := is.log.cons _
      List.Perm _ (callsOf stored.1 (tmp :: made.flatten)) := by rw [front]
      List.Perm _ (callsOf stored.1 (made.set i (made.getD i [] ++ [tmp])).flatten) :=
        (perm.filterMap _).symm
  · exact is.undone

/-- The inner loop comes to the end of its chain, or something fails; the other chains stay. -/
theorem Copying.copyChain (is : Copying ops nodes₀ orig chains made s) (inside : i < made.length)
    (next : (chains.getD i []).drop (made.getD i []).length = xs) (chain : ChainAt nodes₀ p xs)
    (enough : xs.length < turns) :
    ∃ done s' made', Duplication.copyChain ops slab i turns (made.getD i []).getLast? p s =
        some (done, s') ∧ Copying ops nodes₀ orig chains made' s' ∧
      (∀ j, i ≠ j → made'.getD j [] = made.getD j []) ∧
      (done = true → (made'.getD i []).length = (chains.getD i []).length) ∧
      (done = false → Fails ops slab) := by
  induction xs generalizing made s p turns with
  | nil =>
    obtain ⟨turns, rfl⟩ := Nat.exists_eq_add_one_of_ne_zero (Nat.ne_zero_of_lt enough)
    cases chain
    refine ⟨true, s, made, rfl, is, fun _ _ => rfl, fun _ => ?_, fun never => Bool.noConfusion never⟩
    have length := congrArg List.length next
    have short := is.short i
    rw [List.length_drop, List.length_nil] at length
    omega
  | cons cur rest ih =>
    rw [List.length_cons] at enough
    obtain ⟨turns, rfl⟩ := Nat.exists_eq_add_one_of_ne_zero (Nat.ne_zero_of_lt enough)
    obtain ⟨rfl, node, here, later⟩ := chain
    rw [Duplication.copyChain, is.original here]
    dsimp only
    cases got : slab.alloc s.nodes with
    | none =>
      exact ⟨false, s, made, rfl, is, fun _ _ => rfl, fun never => Bool.noConfusion never,
        fun _ => .inl ⟨_, got⟩⟩
    | some tmp =>
      dsimp only
      rcases isCopy : ops.copy node.key node.datum s.args with ⟨result, args⟩
      cases result with
      | error e =>
        refine ⟨false, { s with args }, made, rfl, ?_, fun _ _ => rfl, fun never => Bool.noConfusion never,
          fun _ => .inr ⟨_, _, _, e, args, isCopy⟩⟩
        exact ⟨is.chained, is.length, is.size, is.nel, is.fresh, is.old, is.short, is.copies, is.log,
          is.undone⟩
      | ok entry =>
        have step := is.append inside next here got isCopy
        have read := step.original here
        have inside' : i < (made.set i (made.getD i [] ++ [tmp])).length := by
          rw [List.length_set]
          exact inside
        have last : ((made.set i (made.getD i [] ++ [tmp])).getD i []).getLast? = some tmp := by
          rw [chain_set_self inside, List.getLast?_append_of_ne_nil _ (List.cons_ne_nil _ _),
            List.getLast?_singleton]
        have next' : (chains.getD i []).drop
            ((made.set i (made.getD i [] ++ [tmp])).getD i []).length = rest := by
          rw [chain_set_self inside, List.length_append, List.length_singleton, ← List.drop_drop, next]
          rfl
        obtain ⟨done, s', made', ran, is', others, whole, failed⟩ :=
          ih step inside' next' later (Nat.lt_of_succ_lt_succ enough)
        rw [last] at ran
        dsimp only
        rw [read]
        refine ⟨done, s', made', ran, is', fun j other => ?_, whole, failed⟩
        rw [others j other, chain_set_other other]

/-- The outer loop from a slot on, where the slots before it are done. -/
theorem Copying.copyTable (is : Copying ops nodes₀ orig chains made s)
    (laid : Chained nodes₀ orig.htable chains) (i : Nat) (inside : i ≤ chains.length)
    (unvisited : ∀ j, i ≤ j → made.getD j [] = [])
    (whole : ∀ j, j < i → (made.getD j []).length = (chains.getD j []).length) :
    ∃ done s' made', Duplication.copyTable ops slab i (orig.htable.drop i) s = some (done, s') ∧
      Copying ops nodes₀ orig chains made' s' ∧
      (done = true → ∀ j, (made'.getD j []).length = (chains.getD j []).length) ∧
      (done = false → Fails ops slab) := by
  obtain ⟨left, total⟩ : ∃ left, i + left = chains.length := ⟨chains.length - i, by omega⟩
  induction left generalizing i made s with
  | zero =>
    have all : orig.htable.drop i = [] := by
      apply List.drop_eq_nil_of_le
      rw [laid.length]
      omega
    rw [all]
    refine ⟨true, s, made, rfl, is, fun _ j => ?_, fun never => Bool.noConfusion never⟩
    by_cases below : j < i
    · exact whole j below
    · rw [unvisited j (by omega), List.getD_eq_default _ _ (by omega)]
  | succ left ih =>
    have below : i < chains.length := by omega
    have inArray : i < orig.htable.length := laid.length ▸ below
    have inMade : i < made.length := is.length ▸ below
    have chain := laid.listed i below
    rw [List.getD_eq_getElem _ _ inArray] at chain
    have start := unvisited i le_rfl
    have atStart : ChainAt s.nodes orig.htable[i] (chains.getD i []) := by
      refine (segment_congr fun b member => ?_).mpr chain
      obtain ⟨node, here⟩ := chain.allocated member
      rw [here]
      exact is.original here
    have enough := atStart.length_le
    have rest : (chains.getD i []).drop (made.getD i []).length = chains.getD i [] := by
      rw [start]
      rfl
    obtain ⟨done, mid, madeMid, ran, isMid, others, finished, failed⟩ :=
      is.copyChain inMade rest chain (Nat.lt_succ_of_le enough)
    rw [start, List.getLast?_nil] at ran
    rw [List.drop_eq_getElem_cons inArray, Duplication.copyTable, ran]
    cases done with
    | false => exact ⟨false, mid, madeMid, rfl, isMid, fun never => Bool.noConfusion never, failed⟩
    | true =>
      refine ih isMid (i + 1) (by omega) ?_ ?_ (by omega)
      · intro j after
        rw [others j (by omega)]
        exact unvisited j (by omega)
      · intro j before
        by_cases here : j = i
        · rw [here]
          exact finished rfl
        · rw [others j (Ne.symm here)]
          exact whole j (by omega)

end Copy

section Destroy

/-- What the loops at `error` leave of some nodes. -/
structure Destroyed (s s' : Duplication κ δ σ) (xs : List Nat) : Prop where
  nodes : ∀ b, s'.nodes.get b = if b ∈ xs then none else s.nodes.get b
  destroyed : s'.destroyed = (callsOf s.nodes xs).reverse ++ s.destroyed
  copied : s'.copied = s.copied
  new : s'.new = s.new

theorem destroyed_nil (s : Duplication κ δ σ) : Destroyed s s [] := by
  refine ⟨fun b => ?_, rfl, rfl, rfl⟩
  rw [if_neg List.not_mem_nil]

theorem Destroyed.trans {s'' : Duplication κ δ σ} {ys : List Nat} (first : Destroyed s s' xs)
    (second : Destroyed s' s'' ys) (apart : xs.Disjoint ys) : Destroyed s s'' (xs ++ ys) := by
  have kept : callsOf s'.nodes ys = callsOf s.nodes ys := by
    refine callsOf_congr fun a member => ?_
    rw [first.nodes a, if_neg fun inFirst => apart inFirst member]
  constructor
  · intro b
    rw [second.nodes, first.nodes]
    simp only [List.mem_append]
    by_cases one : b ∈ xs
    · simp only [one, if_true, true_or, ite_self]
    · simp only [one, if_false, false_or]
  · rw [second.destroyed, first.destroyed, kept]
    unfold callsOf
    rw [List.filterMap_append, List.reverse_append, List.append_assoc]
  · rw [second.copied, first.copied]
  · rw [second.new, first.new]

theorem destroyNode_destroyed (ops : DuplicateOps κ δ σ) {node : HashtabNode κ δ}
    (here : s.nodes.get cur = some node) :
    Destroyed s (s.destroyNode ops cur node) [cur] := by
  refine ⟨fun b => ?_, ?_, rfl, rfl⟩
  · simp only [List.mem_singleton]
    exact Heap.get_free _ _ _
  · rw [callsOf_cons here]
    rfl

theorem destroyChain_destroyed (chain : ChainAt s.nodes p xs) (enough : xs.length < turns) :
    ∃ s', Duplication.destroyChain ops turns p s = some s' ∧ Destroyed s s' xs := by
  induction xs generalizing s p turns with
  | nil =>
    obtain ⟨turns, rfl⟩ := Nat.exists_eq_add_one_of_ne_zero (Nat.ne_zero_of_lt enough)
    cases chain
    exact ⟨s, rfl, destroyed_nil s⟩
  | cons cur rest ih =>
    rw [List.length_cons] at enough
    obtain ⟨turns, rfl⟩ := Nat.exists_eq_add_one_of_ne_zero (Nat.ne_zero_of_lt enough)
    have once := List.nodup_cons.mp chain.nodup
    obtain ⟨rfl, node, here, later⟩ := chain
    have freed := destroyNode_destroyed ops here
    have remains : ChainAt (s.destroyNode ops cur node).nodes node.next rest := by
      refine (segment_congr fun b member => ?_).mpr later
      apply Heap.get_free_other
      rintro rfl
      exact once.1 member
    have within : rest.length < turns := by omega
    obtain ⟨s', ran, rests⟩ := ih remains within
    rw [Duplication.destroyChain, here]
    exact ⟨s', ran, freed.trans rests (List.singleton_disjoint.mpr once.1)⟩

theorem destroyTable_destroyed {heads : List (Option Nat)} {rows : List (List Nat)}
    (listed : List.Forall₂ (ChainAt s.nodes) heads rows) (once : rows.flatten.Nodup) :
    ∃ s', Duplication.destroyTable ops heads s = some s' ∧ Destroyed s s' rows.flatten := by
  induction rows generalizing heads s with
  | nil =>
    cases listed
    exact ⟨s, rfl, destroyed_nil s⟩
  | cons row rows ih =>
    obtain ⟨head, heads, chain, later, rfl⟩ := List.forall₂_cons_right_iff.mp listed
    obtain ⟨-, onceLater, apart⟩ := List.nodup_append'.mp once
    have enough := chain.length_le
    obtain ⟨mid, first, gone⟩ := destroyChain_destroyed chain (Nat.lt_succ_of_le enough)
    have remain : List.Forall₂ (ChainAt mid.nodes) heads rows := by
      rw [List.forall₂_iff_zip] at later ⊢
      refine ⟨later.1, fun {p xs} member => ?_⟩
      refine (segment_congr fun b inRow => ?_).mpr (later.2 member)
      have inRows := List.mem_flatten.mpr ⟨xs, (List.of_mem_zip member).2, inRow⟩
      rw [gone.nodes, if_neg fun inFirst => apart inFirst inRows]
    obtain ⟨s', second, rest⟩ := ih remain onceLater
    rw [Duplication.destroyTable, first]
    exact ⟨s', second, gone.trans rest apart⟩

end Destroy

/-- The new table has a copy of each chain in its order, and the original is in memory as it was. -/
structure Duplicated (ops : DuplicateOps κ δ σ) (nodes₀ : Heap (HashtabNode κ δ))
    (orig : HashtabObject) (chains : List (List Nat)) (s : Duplication κ δ σ) : Prop where
  chains : ∃ made, Laid s.nodes s.new made ∧
    List.Forall₂ (List.Forall₂ (CopyOf ops)) (made.map (entries s.nodes))
      (chains.map (entries nodes₀))
  size : s.new.size = orig.size
  nel : s.new.nel = orig.nel
  original : ∀ a node, nodes₀.get a = some node → s.nodes.get a = some node
  undone : s.destroyed = []

/-- The new table is empty, every node that was copied is destroyed once, and the memory is as it
was. -/
structure Undone (nodes₀ : Heap (HashtabNode κ δ)) (s : Duplication κ δ σ) : Prop where
  new : s.new = HashtabObject.zero
  nodes : ∀ a, s.nodes.get a = nodes₀.get a
  destroyed : s.destroyed.Perm s.copied
  once : (s.copied.map NodeCall.node).Nodup

section Duplicate

theorem copying_start (ops : DuplicateOps κ δ σ) (laid : Laid nodes₀ orig chains) (args : σ) :
    Copying ops nodes₀ orig chains (List.replicate orig.size.toNat [])
      { nodes := nodes₀
        new := { htable := List.replicate orig.size.toNat none, size := orig.size, nel := 0 }
        args, copied := [], destroyed := [] } := by
  have nothing : (List.replicate orig.size.toNat ([] : List Nat)).flatten = [] :=
    List.flatten_replicate_nil
  constructor
  · constructor
    · rw [List.length_replicate, List.length_replicate]
    · intro i inside
      rw [List.length_replicate] at inside
      simp only [List.getD_eq_getElem?_getD, List.getElem?_replicate, inside, if_true, Option.getD_some]
      rfl
    · rw [nothing]
      exact List.nodup_nil
  · rw [List.length_replicate, laid.size]
  · rfl
  · rw [nothing]
    rfl
  · intro a member
    rw [nothing] at member
    cases member
  · intro a _
    rfl
  · intro j
    rw [replicate_chain]
    exact Nat.zero_le _
  · intro j
    rw [replicate_chain]
    exact List.Forall₂.nil
  · rw [nothing]
    exact List.Perm.refl _
  · rfl

/-- A copy of every chain to its end is a copy of the table. -/
theorem Copying.duplicated (is : Copying ops nodes₀ orig chains made s)
    (laid : Laid nodes₀ orig chains)
    (whole : ∀ j, (made.getD j []).length = (chains.getD j []).length) :
    Duplicated ops nodes₀ orig chains s := by
  have lengths : made.map List.length = chains.map List.length := by
    apply List.ext_getElem
    · rw [List.length_map, List.length_map, is.length]
    · intro j inMade inChains
      rw [List.length_map] at inMade inChains
      have here := whole j
      rw [List.getD_eq_getElem _ _ inMade, List.getD_eq_getElem _ _ inChains] at here
      rw [List.getElem_map, List.getElem_map, here]
  have total : made.flatten.length = orig.nel.toNat := by
    rw [List.length_flatten, lengths, ← List.length_flatten]
    exact laid.nel
  have nel : s.new.nel = orig.nel := by
    rw [is.nel, total, BitVec.ofNat_toNat, BitVec.setWidth_eq]
  constructor
  · refine ⟨made, ⟨is.chained, ?_, ?_⟩, ?_⟩
    · rw [is.length, laid.size, is.size]
    · rw [total, nel]
    · rw [List.forall₂_map_left_iff, List.forall₂_map_right_iff, List.forall₂_iff_get]
      refine ⟨is.length, fun j inMade inChains => ?_⟩
      have here := is.copies j
      rw [whole j, List.take_length, List.getD_eq_getElem _ _ inMade,
        List.getD_eq_getElem _ _ inChains] at here
      exact here
  · exact is.size
  · exact nel
  · exact fun a node here => is.original here
  · exact is.undone

/-- The chains of an unfinished copy are destroyed. -/
theorem Copying.destroyTable (is : Copying ops nodes₀ orig chains made s) :
    ∃ s', Duplication.destroyTable ops s.new.htable s = some s' ∧
      Undone nodes₀ { s' with new := HashtabObject.zero } := by
  have listed : List.Forall₂ (ChainAt s.nodes) s.new.htable made := by
    rw [List.forall₂_iff_get]
    refine ⟨is.chained.length, fun j inArray inMade => ?_⟩
    have here := is.chained.listed j inMade
    rw [List.getD_eq_getElem _ _ inArray, List.getD_eq_getElem _ _ inMade] at here
    exact here
  obtain ⟨s', ran, gone⟩ := destroyTable_destroyed listed is.chained.once
  refine ⟨s', ran, rfl, ?_, ?_, ?_⟩
  · intro a
    dsimp only
    rw [gone.nodes]
    by_cases inMade : a ∈ made.flatten
    · rw [if_pos inMade, is.fresh a inMade]
    · rw [if_neg inMade, is.old a inMade]
  · dsimp only
    rw [gone.destroyed, is.undone, List.append_nil, gone.copied]
    exact (List.reverse_perm _).trans is.log.symm
  · dsimp only
    rw [gone.copied, (is.log.map NodeCall.node).nodup_iff,
      callsOf_nodes fun a member => is.chained.allocated member]
    exact is.chained.once

/-- `hashtab_duplicate` copies a table, or something fails and it undoes what it has done. -/
theorem duplicate_right (ops : DuplicateOps κ δ σ) (slab : Slab (HashtabNode κ δ))
    (allocated : Bool) (args : σ) (laid : Laid nodes₀ orig chains) :
    ∃ rc s, HashtabMemory.duplicate ops slab allocated nodes₀ orig args = some (rc, s) ∧
      (rc = .ok () ∧ Duplicated ops nodes₀ orig chains s ∨
        rc = .error (.err .ENOMEM) ∧ Undone nodes₀ s ∧ (allocated = false ∨ Fails ops slab)) := by
  unfold HashtabMemory.duplicate
  cases allocated with
  | false =>
    refine ⟨_, _, rfl, .inr ⟨rfl, ⟨rfl, fun _ => rfl, List.Perm.refl _, List.nodup_nil⟩, .inl rfl⟩⟩
  | true =>
    have start := copying_start ops laid args
    obtain ⟨done, s, made, ran, is, finished, failed⟩ :=
      start.copyTable laid.toChained 0 (Nat.zero_le _)
        (fun j _ => replicate_chain _ j) (fun j before => absurd before (Nat.not_lt_zero j))
    rw [List.drop_zero] at ran
    dsimp only
    rw [if_pos rfl, ran]
    cases done with
    | true => exact ⟨_, _, rfl, .inl ⟨rfl, is.duplicated laid (finished rfl)⟩⟩
    | false =>
      obtain ⟨s', destroyed, undone⟩ := is.destroyTable
      dsimp only
      rw [destroyed]
      exact ⟨_, _, rfl, .inr ⟨rfl, undone, .inr (failed rfl)⟩⟩

end Duplicate

end Ksrc.Guarantees.HashtabCopies

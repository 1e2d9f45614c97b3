import Ksrc.Guarantees.AvcCacheEffects
import Ksrc.Library.BucketTable
import Ksrc.Source.AvcNodes

/-!
# The structure of the access vector cache

Source: `security/selinux/avc.c`. Whatever the calls in progress do between each other, the
counter is the number of the nodes that are linked or held by a call, a slot links nodes of its
hash only and one for a key, and a node that is linked is linked once and in use.
-/
namespace Ksrc.Guarantees.AvcStructure

open Library Source AvcCacheEffects

variable {c c' : AvcMemory} {h k : Fin avcCacheSlots} {a b : Nat} {held others : List Nat}
  {content : AvcNode} {ecx : Nat}

/-- The number of the nodes that are linked in the slots. -/
def linkedNodes (c : AvcMemory) : Nat := ∑ h, (c.slots h).length

/-- The key of the node at an address. -/
def keyAt (c : AvcMemory) (a : Nat) : Option (U32 × U32 × U16) := (c.nodes.get a).map AvcNode.key

/-- The cache, where `held` are the nodes that are allocated and neither linked nor killed. -/
structure Structured (c : AvcMemory) (held : List Nat) : Prop where
  counted : c.activeNodes = BitVec.ofNat 32 (linkedNodes c + held.length)
  linked : ∀ h, ∀ a ∈ c.slots h, ∃ node, c.nodes.get a = some node ∧ node.hash = h
  distinct : ∀ h, ((c.slots h).map (keyAt c)).Nodup
  heldOnce : held.Nodup
  heldOnly : ∀ a ∈ held, c.nodes.get a ≠ none ∧ (∀ h, a ∉ c.slots h) ∧ a ∉ c.callRcu
  deletedOnce : c.callRcu.Nodup
  deletedOnly : ∀ a ∈ c.callRcu, c.nodes.get a ≠ none ∧ ∀ h, a ∉ c.slots h

section Facts

theorem Structured.perm {held' : List Nat} (ok : Structured c held) (same : held.Perm held') :
    Structured c held' := by
  constructor
  · rw [ok.counted, same.length_eq]
  · exact ok.linked
  · exact ok.distinct
  · exact same.nodup_iff.mp ok.heldOnce
  · intro a member
    exact ok.heldOnly a (same.mem_iff.mpr member)
  · exact ok.deletedOnce
  · exact ok.deletedOnly

/-- No slot links a node twice. -/
theorem Structured.once (ok : Structured c held) (h : Fin avcCacheSlots) : (c.slots h).Nodup :=
  List.Nodup.of_map _ (ok.distinct h)

/-- No two slots link one node. -/
theorem Structured.one_slot (ok : Structured c held) (inH : a ∈ c.slots h) (inK : a ∈ c.slots k) :
    h = k := by
  obtain ⟨node, here, hash⟩ := ok.linked h a inH
  obtain ⟨node', here', hash'⟩ := ok.linked k a inK
  rw [here] at here'
  cases here'
  exact hash.symm.trans hash'

/-- A linked node is in use. -/
theorem Structured.linked_in_use (ok : Structured c held) (inH : a ∈ c.slots h) :
    c.nodes.get a ≠ none := by
  obtain ⟨node, here, -⟩ := ok.linked h a inH
  rw [here]
  exact Option.some_ne_none node

theorem hash_of_key {node node' : AvcNode} (same : node.key = node'.key) :
    node.hash = node'.hash := by
  unfold AvcNode.key at same
  simp only [Prod.mk.injEq] at same
  unfold AvcNode.hash
  rw [same.1, same.2.1, same.2.2]

theorem keyEq_key {node : AvcNode} {ssid tsid : U32} {tclass : U16} :
    node.keyEq ssid tsid tclass = true ↔ node.key = (ssid, tsid, tclass) := by
  rw [AvcNode.keyEq_iff]
  unfold AvcNode.key
  rw [Prod.mk.injEq, Prod.mk.injEq]
  tauto

theorem accepts_iff {test : AvcNode → Bool} :
    c.accepts test a = true ↔ ∃ node, c.nodes.get a = some node ∧ test node = true := by
  unfold AvcMemory.accepts
  rw [Option.any_eq_true]

/-- Changing the list of one slot changes the number of linked nodes by its length. -/
theorem linkedNodes_update (c : AvcMemory) (h : Fin avcCacheSlots) (nodes : List Nat) :
    (∑ k, (Function.update c.slots h nodes k).length) + (c.slots h).length =
      linkedNodes c + nodes.length :=
  CountedTable.count_update ⟨c.slots, 0⟩ h nodes 0

theorem mem_update {nodes : List Nat} : a ∈ Function.update c.slots h nodes k ↔
    k = h ∧ a ∈ nodes ∨ k ≠ h ∧ a ∈ c.slots k := by
  by_cases same : k = h
  · subst same
    simp
  · simp [same]

theorem forall_update {nodes : List Nat} {p : Fin avcCacheSlots → List Nat → Prop}
    (here : p h nodes) (other : ∀ k, k ≠ h → p k (c.slots k)) (k : Fin avcCacheSlots) :
    p k (Function.update c.slots h nodes k) := by
  by_cases same : k = h
  · subst same
    rw [Function.update_self]
    exact here
  · rw [Function.update_of_ne same]
    exact other k same

end Facts

section Primitives

/-- `avc_node_delete` of a linked node. -/
theorem Structured.nodeDelete (ok : Structured c held) (linked : a ∈ c.slots h) :
    Structured (c.nodeDelete h a) held := by
  have gone : ∀ k, a ∉ (c.nodeDelete h a).slots k := by
    intro k member
    rcases mem_update.mp member with ⟨-, inside⟩ | ⟨other, inside⟩
    · exact (ok.once h).not_mem_erase inside
    · exact other (ok.one_slot inside linked)
  have fewer : ∀ k b, b ∈ (c.nodeDelete h a).slots k → b ∈ c.slots k := by
    intro k b member
    rcases mem_update.mp member with ⟨rfl, inside⟩ | ⟨-, inside⟩
    · exact List.mem_of_mem_erase inside
    · exact inside
  have new : a ∉ c.callRcu := fun deleted => (ok.deletedOnly a deleted).2 h linked
  constructor
  · have total := linkedNodes_update c h ((c.slots h).erase a)
    have length := List.length_erase_of_mem linked
    have positive := List.length_pos_of_mem linked
    have fits : linkedNodes c + held.length =
        linkedNodes (c.nodeDelete h a) + held.length + 1 := by
      unfold linkedNodes AvcMemory.nodeDelete at *
      dsimp only at *
      omega
    change c.activeNodes - 1 = _
    rw [ok.counted, fits, BitVec.ofNat_add]
    exact BitVec.add_sub_cancel _ _
  · intro k b member
    exact ok.linked k b (fewer k b member)
  · have fewerKeys : (((c.slots h).erase a).map (keyAt c)).Nodup :=
      (ok.distinct h).sublist (List.erase_sublist.map (keyAt c))
    exact forall_update (p := fun _ nodes => (nodes.map (keyAt c)).Nodup) fewerKeys
      fun k _ => ok.distinct k
  · exact ok.heldOnce
  · intro b member
    obtain ⟨live, unlinked, kept⟩ := ok.heldOnly b member
    refine ⟨live, fun k inside => unlinked k (fewer k b inside), ?_⟩
    rw [AvcMemory.nodeDelete, List.mem_cons, not_or]
    exact ⟨fun same => unlinked h (same ▸ linked), kept⟩
  · exact List.nodup_cons.mpr ⟨new, ok.deletedOnce⟩
  · intro b member
    rcases List.mem_cons.mp member with rfl | deleted
    · exact ⟨ok.linked_in_use linked, gone⟩
    · have old := ok.deletedOnly b deleted
      exact ⟨old.1, fun k inside => old.2 k (fewer k b inside)⟩

theorem ne_of_unlinked (unlinked : ∀ k, a ∉ c.slots k) (inside : b ∈ c.slots k) : b ≠ a := by
  intro isNode
  subst isNode
  exact unlinked k inside

/-- A change of the own node of a call: what it keeps. -/
theorem Structured.write (ok : Structured c (a :: others)) (content : AvcNode) :
    Structured (c.write a content) (a :: others) := by
  obtain ⟨live, unlinked, kept⟩ := ok.heldOnly a List.mem_cons_self
  have same : ∀ b, b ≠ a → (c.write a content).nodes.get b = c.nodes.get b :=
    fun b differs => Heap.get_set_other c.nodes content differs
  have still : ∀ b, c.nodes.get b ≠ none → (c.write a content).nodes.get b ≠ none := by
    intro b used
    by_cases isNode : b = a
    · subst isNode
      change (c.nodes.set b content).get b ≠ none
      rw [Heap.get_set_same]
      exact Option.some_ne_none content
    · rw [same b isNode]
      exact used
  constructor
  · exact ok.counted
  · intro k b inside
    rw [same b (ne_of_unlinked unlinked inside)]
    exact ok.linked k b inside
  · intro k
    have keys : (c.slots k).map (keyAt (c.write a content)) = (c.slots k).map (keyAt c) := by
      apply List.map_congr_left
      intro b inside
      unfold keyAt
      rw [same b (ne_of_unlinked unlinked inside)]
    exact keys ▸ ok.distinct k
  · exact ok.heldOnce
  · intro b member
    obtain ⟨used, rest⟩ := ok.heldOnly b member
    exact ⟨still b used, rest⟩
  · exact ok.deletedOnce
  · intro b deleted
    obtain ⟨used, rest⟩ := ok.deletedOnly b deleted
    exact ⟨still b used, rest⟩

/-- What the freeing of a node that is not linked keeps. -/
theorem keys_free (unlinked : ∀ k, a ∉ c.slots k) (k : Fin avcCacheSlots) :
    (c.slots k).map (fun b => ((c.nodes.free a).get b).map AvcNode.key) =
      (c.slots k).map (keyAt c) := by
  apply List.map_congr_left
  intro b inside
  rw [Heap.get_free_other c.nodes (ne_of_unlinked unlinked inside)]
  rfl

theorem linked_free (ok : Structured c held) (unlinked : ∀ k, a ∉ c.slots k)
    (k : Fin avcCacheSlots) (b : Nat) (inside : b ∈ c.slots k) :
    ∃ node, (c.nodes.free a).get b = some node ∧ node.hash = k := by
  rw [Heap.get_free_other c.nodes (ne_of_unlinked unlinked inside)]
  exact ok.linked k b inside

/-- `avc_node_kill` of the own node of a call. -/
theorem Structured.nodeKill (ok : Structured c (a :: others)) :
    Structured (c.nodeKill a) others := by
  obtain ⟨live, unlinked, kept⟩ := ok.heldOnly a List.mem_cons_self
  obtain ⟨fresh, once⟩ := List.nodup_cons.mp ok.heldOnce
  constructor
  · change c.activeNodes - 1 = BitVec.ofNat 32 (linkedNodes c + others.length)
    rw [ok.counted, List.length_cons, ← Nat.add_assoc, BitVec.ofNat_add]
    exact BitVec.add_sub_cancel _ _
  · exact linked_free ok unlinked
  · intro k
    have keys := keys_free unlinked k
    exact keys ▸ ok.distinct k
  · exact once
  · intro b member
    obtain ⟨used, rest⟩ := ok.heldOnly b (List.mem_cons_of_mem a member)
    have differs : b ≠ a := fun isNode => fresh (isNode ▸ member)
    exact ⟨by rw [AvcMemory.nodeKill, Heap.get_free_other c.nodes differs]; exact used, rest⟩
  · exact ok.deletedOnce
  · intro b deleted
    obtain ⟨used, rest⟩ := ok.deletedOnly b deleted
    have differs : b ≠ a := fun isNode => kept (isNode ▸ deleted)
    exact ⟨by rw [AvcMemory.nodeKill, Heap.get_free_other c.nodes differs]; exact used, rest⟩

/-- `avc_node_free` of a deleted node. -/
theorem Structured.nodeFree (ok : Structured c held) (deleted : a ∈ c.callRcu) :
    Structured (c.nodeFree a) held := by
  obtain ⟨live, unlinked⟩ := ok.deletedOnly a deleted
  have others : ∀ b ∈ c.callRcu.erase a, b ≠ a ∧ b ∈ c.callRcu := by
    intro b member
    exact (List.Nodup.mem_erase_iff ok.deletedOnce).mp member
  constructor
  · exact ok.counted
  · exact linked_free ok unlinked
  · intro k
    have keys := keys_free unlinked k
    exact keys ▸ ok.distinct k
  · exact ok.heldOnce
  · intro b member
    obtain ⟨used, notLinked, notDeleted⟩ := ok.heldOnly b member
    have differs : b ≠ a := fun isNode => notDeleted (isNode ▸ deleted)
    refine ⟨by rw [AvcMemory.nodeFree, Heap.get_free_other c.nodes differs]; exact used,
      notLinked, fun inside => notDeleted (others b inside).2⟩
  · exact ok.deletedOnce.erase a
  · intro b member
    obtain ⟨differs, inside⟩ := others b member
    obtain ⟨used, rest⟩ := ok.deletedOnly b inside
    exact ⟨by rw [AvcMemory.nodeFree, Heap.get_free_other c.nodes differs]; exact used, rest⟩

/-- A new object of the node cache. -/
theorem Structured.nodeAlloc (ok : Structured c held) (free : c.nodes.get a = none) :
    Structured (c.nodeAlloc a) (a :: held) := by
  have used : ∀ b, c.nodes.get b ≠ none → b ≠ a := fun b live isNode => live (isNode ▸ free)
  have same : ∀ b, c.nodes.get b ≠ none → (c.nodeAlloc a).nodes.get b = c.nodes.get b :=
    fun b live => Heap.get_set_other c.nodes avcNodeZero (used b live)
  have linked : ∀ k b, b ∈ c.slots k → (c.nodeAlloc a).nodes.get b = c.nodes.get b :=
    fun k b inside => same b (ok.linked_in_use inside)
  constructor
  · change c.activeNodes + 1 = BitVec.ofNat 32 (linkedNodes c + (held.length + 1))
    rw [ok.counted, ← Nat.add_assoc, BitVec.ofNat_add (linkedNodes c + held.length)]
    rfl
  · intro k b inside
    rw [linked k b inside]
    exact ok.linked k b inside
  · intro k
    have keys : (c.slots k).map (keyAt (c.nodeAlloc a)) = (c.slots k).map (keyAt c) := by
      apply List.map_congr_left
      intro b inside
      unfold keyAt
      rw [linked k b inside]
    exact keys ▸ ok.distinct k
  · exact List.nodup_cons.mpr ⟨fun member => (ok.heldOnly a member).1 free, ok.heldOnce⟩
  · intro b member
    rcases List.mem_cons.mp member with rfl | old
    · refine ⟨?_, fun k inside => ok.linked_in_use inside free,
        fun deleted => (ok.deletedOnly b deleted).1 free⟩
      rw [AvcMemory.nodeAlloc, Heap.get_set_same]
      exact Option.some_ne_none _
    · obtain ⟨live, rest⟩ := ok.heldOnly b old
      exact ⟨by rw [same b live]; exact live, rest⟩
  · exact ok.deletedOnce
  · intro b deleted
    obtain ⟨live, rest⟩ := ok.deletedOnly b deleted
    exact ⟨by rw [same b live]; exact live, rest⟩

/-- A call links its node to a slot of its hash that has no node of its key. -/
theorem Structured.addHead (ok : Structured c (a :: others)) (here : c.nodes.get a = some content)
    (hash : content.hash = h) (fresh : ∀ b ∈ c.slots h, keyAt c b ≠ some content.key) :
    Structured (c.addHead h a) others := by
  obtain ⟨live, unlinked, kept⟩ := ok.heldOnly a List.mem_cons_self
  obtain ⟨apart, once⟩ := List.nodup_cons.mp ok.heldOnce
  have member : ∀ k b, b ∈ (c.addHead h a).slots k → b = a ∧ k = h ∨ b ∈ c.slots k := by
    intro k b inside
    rcases mem_update.mp inside with ⟨rfl, inside⟩ | ⟨-, inside⟩
    · exact (List.mem_cons.mp inside).imp_left fun isNode => ⟨isNode, rfl⟩
    · exact .inr inside
  constructor
  · have total := linkedNodes_update c h (a :: c.slots h)
    have fits : linkedNodes (c.addHead h a) + others.length =
        linkedNodes c + (a :: others).length := by
      unfold linkedNodes AvcMemory.addHead at *
      simp only [List.length_cons] at *
      omega
    rw [fits]
    exact ok.counted
  · intro k b inside
    rcases member k b inside with ⟨rfl, rfl⟩ | old
    · exact ⟨content, here, hash⟩
    · exact ok.linked k b old
  · have keys : ((a :: c.slots h).map (keyAt c)).Nodup := by
      rw [List.map_cons, List.nodup_cons]
      refine ⟨fun inside => ?_, ok.distinct h⟩
      obtain ⟨b, linked, same⟩ := List.mem_map.mp inside
      apply fresh b linked
      rw [same]
      unfold keyAt
      rw [here]
      rfl
    exact forall_update (p := fun _ nodes => (nodes.map (keyAt c)).Nodup) keys
      fun k _ => ok.distinct k
  · exact once
  · intro b inside
    obtain ⟨used, notLinked, notDeleted⟩ := ok.heldOnly b (List.mem_cons_of_mem a inside)
    refine ⟨used, fun k linked => ?_, notDeleted⟩
    rcases member k b linked with ⟨rfl, -⟩ | old
    · exact apart inside
    · exact notLinked k old
  · exact ok.deletedOnce
  · intro b deleted
    obtain ⟨used, notLinked⟩ := ok.deletedOnly b deleted
    refine ⟨used, fun k linked => ?_⟩
    rcases member k b linked with ⟨rfl, -⟩ | old
    · exact kept deleted
    · exact notLinked k old

/-- A call puts its node in the place of a linked one of its key. -/
theorem Structured.nodeReplace (ok : Structured c (a :: others)) (linked : b ∈ c.slots h)
    (same : keyAt c a = keyAt c b) : Structured (c.nodeReplace h a b) others := by
  obtain ⟨live, unlinked, kept⟩ := ok.heldOnly a List.mem_cons_self
  obtain ⟨apart, once⟩ := List.nodup_cons.mp ok.heldOnce
  have member : ∀ k x, x ∈ (c.nodeReplace h a b).slots k →
      x = a ∧ k = h ∨ x ≠ b ∧ x ∈ c.slots k := by
    intro k x inside
    rcases mem_update.mp inside with ⟨rfl, inside⟩ | ⟨other, inside⟩
    · obtain ⟨pos, old, shown⟩ := List.mem_map.mp inside
      split at shown
      · exact .inl ⟨shown.symm, rfl⟩
      · rename_i differs
        subst shown
        exact .inr ⟨differs, old⟩
    · refine .inr ⟨fun isOld => other ?_, inside⟩
      rw [isOld] at inside
      exact ok.one_slot inside linked
  have gone : ∀ k, b ∉ (c.nodeReplace h a b).slots k := by
    intro k inside
    rcases member k b inside with ⟨rfl, -⟩ | ⟨differs, -⟩
    · exact unlinked h linked
    · exact differs rfl
  have new : b ∉ c.callRcu := fun deleted => (ok.deletedOnly b deleted).2 h linked
  constructor
  · have total := linkedNodes_update c h ((c.slots h).map fun pos => if pos = b then a else pos)
    have fits : linkedNodes c + (a :: others).length =
        linkedNodes (c.nodeReplace h a b) + others.length + 1 := by
      unfold linkedNodes AvcMemory.nodeReplace at *
      simp only [List.length_cons, List.length_map] at *
      omega
    change c.activeNodes - 1 = _
    rw [ok.counted, fits, BitVec.ofNat_add]
    exact BitVec.add_sub_cancel _ _
  · intro k x inside
    rcases member k x inside with ⟨rfl, rfl⟩ | ⟨-, old⟩
    · obtain ⟨node, isOld, hash⟩ := ok.linked k b linked
      obtain ⟨content, here⟩ := Option.ne_none_iff_exists'.mp live
      unfold keyAt at same
      rw [here, isOld] at same
      refine ⟨content, here, ?_⟩
      rw [hash_of_key (Option.some.inj same), hash]
    · exact ok.linked k x old
  · have keys : ((c.slots h).map fun pos => if pos = b then a else pos).map (keyAt c) =
        (c.slots h).map (keyAt c) := by
      rw [List.map_map]
      apply List.map_congr_left
      intro pos _
      rw [Function.comp_apply]
      split
      · rename_i isOld
        rw [isOld, same]
      · rfl
    exact forall_update (p := fun _ nodes => (nodes.map (keyAt c)).Nodup) (keys ▸ ok.distinct h)
      fun k _ => ok.distinct k
  · exact once
  · intro x inside
    obtain ⟨used, notLinked, notDeleted⟩ := ok.heldOnly x (List.mem_cons_of_mem a inside)
    refine ⟨used, fun k isLinked => ?_, ?_⟩
    · rcases member k x isLinked with ⟨rfl, -⟩ | ⟨-, old⟩
      · exact apart inside
      · exact notLinked k old
    · rw [AvcMemory.nodeReplace, List.mem_cons, not_or]
      exact ⟨fun isOld => notLinked h (isOld ▸ linked), notDeleted⟩
  · exact List.nodup_cons.mpr ⟨new, ok.deletedOnce⟩
  · intro x inside
    rcases List.mem_cons.mp inside with rfl | deleted
    · exact ⟨ok.linked_in_use linked, gone⟩
    · obtain ⟨used, notLinked⟩ := ok.deletedOnly x deleted
      refine ⟨used, fun k isLinked => ?_⟩
      rcases member k x isLinked with ⟨rfl, -⟩ | ⟨-, old⟩
      · exact kept deleted
      · exact notLinked k old

end Primitives

section Loops

/-- The loop over a locked slot deletes from its head. -/
theorem reclaimSlot_ok {nodes : List Nat} (ecx : Nat) (ok : Structured c held)
    (slot : c.slots h = nodes) :
    Structured (AvcMemory.reclaimSlot h nodes ecx c).2.2 held ∧
      (AvcMemory.reclaimSlot h nodes ecx c).2.2.nodes = c.nodes := by
  induction nodes generalizing c ecx with
  | nil => exact ⟨ok, rfl⟩
  | cons node rest ih =>
    have inside : node ∈ c.slots h := by
      rw [slot]
      exact List.mem_cons_self
    have deleted := ok.nodeDelete inside
    have shorter : (c.nodeDelete h node).slots h = rest := by
      unfold AvcMemory.nodeDelete
      dsimp only
      rw [Function.update_self, slot, List.erase_cons_head]
    unfold AvcMemory.reclaimSlot
    split
    · exact ⟨deleted, rfl⟩
    · exact ih _ deleted shorter

theorem flushSlot_ok {nodes : List Nat} (ok : Structured c held) (slot : c.slots h = nodes) :
    Structured (AvcMemory.flushSlot h nodes c) held ∧
      (AvcMemory.flushSlot h nodes c).nodes = c.nodes := by
  induction nodes generalizing c with
  | nil => exact ⟨ok, rfl⟩
  | cons node rest ih =>
    have inside : node ∈ c.slots h := by
      rw [slot]
      exact List.mem_cons_self
    have shorter : (c.nodeDelete h node).slots h = rest := by
      unfold AvcMemory.nodeDelete
      dsimp only
      rw [Function.update_self, slot, List.erase_cons_head]
    exact ih (ok.nodeDelete inside) shorter

end Loops

section Locked

theorem keyAt_some {key : U32 × U32 × U16} (is : keyAt c a = some key) :
    ∃ content, c.nodes.get a = some content ∧ content.key = key := by
  unfold keyAt at is
  exact Option.map_eq_some_iff.mp is

theorem hash_of_args {ssid tsid : U32} {tclass : U16} (is : content.key = (ssid, tsid, tclass)) :
    content.hash = avcHash ssid tsid tclass := by
  unfold AvcNode.key at is
  simp only [Prod.mk.injEq] at is
  unfold AvcNode.hash
  rw [is.1, is.2.1, is.2.2]

theorem keyAt_of_accepts {ssid tsid : U32} {tclass : U16}
    (accepted : c.accepts (·.keyEq ssid tsid tclass) a = true) :
    keyAt c a = some (ssid, tsid, tclass) := by
  obtain ⟨node, here, equal⟩ := accepts_iff.mp accepted
  unfold keyAt
  rw [here, Option.map_some, keyEq_key.mp equal]

/-- The locked part of `avc_insert` links the node of the call. -/
theorem Structured.insertLocked {args : InsertArgs} (ok : Structured c (a :: others))
    (ready : keyAt c a = some (args.ssid, args.tsid, args.tclass)) :
    Structured (c.insertLocked args a) others ∧ (c.insertLocked args a).nodes = c.nodes := by
  unfold AvcMemory.insertLocked
  dsimp only
  split
  · rename_i pos found
    have same := keyAt_of_accepts (List.find?_some found)
    have linked := List.mem_of_find?_eq_some found
    exact ⟨ok.nodeReplace linked (ready.trans same.symm), rfl⟩
  · rename_i none
    obtain ⟨content, here, key⟩ := keyAt_some ready
    refine ⟨ok.addHead here (hash_of_args key) fun b linked same => ?_, rfl⟩
    have refused := List.find?_eq_none.mp none b linked
    apply refused
    obtain ⟨node, isNode, equal⟩ := keyAt_some same
    exact accepts_iff.mpr ⟨node, isNode, keyEq_key.mpr (equal.trans key)⟩

/-- The private copy of `avc_update_node` has the key asked for. -/
theorem updateCopy_key {args : UpdateArgs} {orig : AvcNode} {t : Tape}
    (done : AvcMemory.updateCopy args orig t = .ok content) :
    content.key = (args.ssid, args.tsid, args.tclass) := by
  unfold AvcMemory.updateCopy at done
  dsimp only at done
  split at done
  · cases done
  · rename_i node t' populated
    have copied : node.ssid = args.ssid ∧ node.tsid = args.tsid ∧ node.tclass = args.tclass := by
      split at populated
      · have frame := avcXpermsPopulate_frame populated
        exact ⟨frame.1, frame.2.1, frame.2.2.1⟩
      · simp only [Prod.mk.injEq, Except.ok.injEq] at populated
        obtain ⟨rfl, -⟩ := populated
        exact ⟨rfl, rfl, rfl⟩
    have updated := avcUpdateEvent_frame (Prod.ext done rfl)
    unfold AvcNode.key
    rw [updated.1, updated.2.1, updated.2.2.1, copied.1, copied.2.1, copied.2.2]

/-- What `avc_update_node` does with its node under the lock. -/
inductive UpdateOutcome (c : AvcMemory) (a : Nat) (args : UpdateArgs) : AvcMemory → Prop
  | killed : UpdateOutcome c a args (c.nodeKill a)
  | replaced (pos : Nat) (content : AvcNode)
      (linked : pos ∈ c.slots (avcHash args.ssid args.tsid args.tclass))
      (same : keyAt c pos = some content.key) :
      UpdateOutcome c a args ((c.write a content).nodeReplace
        (avcHash args.ssid args.tsid args.tclass) a pos)

theorem updateLocked_outcome {args : UpdateArgs} {t : Tape}
    (done : c.updateLocked args a t = some c') : UpdateOutcome c a args c' := by
  unfold AvcMemory.updateLocked at done
  dsimp only at done
  split at done
  · cases done
    exact .killed
  · rename_i pos found
    split at done
    · cases done
    · rename_i orig isOrig
      split at done
      · cases done
      · cases done
        exact .killed
      · rename_i content copied
        cases done
        have linked := List.mem_of_find?_eq_some found
        obtain ⟨node, here, equal⟩ := accepts_iff.mp (List.find?_some found)
        refine .replaced pos content linked ?_
        unfold keyAt
        rw [here, Option.map_some, updateCopy_key copied,
          keyEq_key.mp (Bool.and_eq_true_iff.mp equal).1]

/-- The locked part of `avc_update_node` links or kills the node of the call. -/
theorem UpdateOutcome.structured {args : UpdateArgs} (outcome : UpdateOutcome c a args c')
    (ok : Structured c (a :: others)) : Structured c' others := by
  cases outcome with
  | killed => exact ok.nodeKill
  | replaced pos content linked same =>
    have unlinked := (ok.heldOnly a List.mem_cons_self).2.1
    have differs := ne_of_unlinked unlinked linked
    refine (ok.write content).nodeReplace linked ?_
    unfold keyAt AvcMemory.write at *
    rw [Heap.get_set_same, Heap.get_set_other c.nodes content differs, same, Option.map_some]

theorem UpdateOutcome.frame {args : UpdateArgs} (outcome : UpdateOutcome c a args c')
    (differs : b ≠ a) : c'.nodes.get b = c.nodes.get b := by
  cases outcome with
  | killed => exact Heap.get_free_other c.nodes differs
  | replaced pos content linked same => exact Heap.get_set_other c.nodes content differs

end Locked

section Calls

variable {call : AvcCall} {next : Option AvcCall} {choice : AvcChoice}

/-- A node about to be linked has been populated. -/
def Ready (c : AvcMemory) : AvcCall → Prop
  | .link args node => keyAt c node = some (args.ssid, args.tsid, args.tclass)
  | _ => True

/-- What a step of a call keeps, where `others` are the nodes of the other calls. -/
structure Advanced (c : AvcMemory) (call : AvcCall) (others : List Nat) (c' : AvcMemory)
    (next : Option AvcCall) : Prop where
  structured : Structured c' ((next.bind AvcCall.node).toList ++ others)
  ready : ∀ call ∈ next, Ready c' call
  frame : ∀ b ∈ others, c'.nodes.get b = c.nodes.get b
  freed : ∀ b, c.nodes.get b ≠ none → c'.nodes.get b = none → call.node = some b

/-- A step that leaves the nodes as they are. -/
theorem advanced_of_same (ok : Structured c' ((next.bind AvcCall.node).toList ++ others))
    (ready : ∀ call ∈ next, Ready c' call) (same : c'.nodes = c.nodes) :
    Advanced c call others c' next := by
  constructor
  · exact ok
  · exact ready
  · intro b _
    rw [same]
  · intro b used freed
    rw [same] at freed
    exact absurd freed used

theorem work_node (work : AvcWork) (node : Nat) : (work.next node).node = some node := by
  cases work with
  | insert args => rfl
  | update args => rfl

theorem work_ready (work : AvcWork) (node : Nat) : Ready c (work.next node) := by
  cases work with
  | insert args => trivial
  | update args => trivial

theorem next_work (ok : Structured c (a :: others)) (work : AvcWork) :
    Structured c (((some (work.next a)).bind AvcCall.node).toList ++ others) := by
  rw [Option.bind_some, work_node]
  exact ok

theorem none_ready : ∀ call ∈ (none : Option AvcCall), Ready c call := by
  intro call is
  cases is

theorem some_ready (ready : Ready c call) : ∀ next ∈ some call, Ready c next := by
  intro next is
  cases is
  exact ready

theorem advance_alloc {work : AvcWork} (ok : Structured c others)
    (done : c.advance choice (.alloc work) = some (c', next)) :
    Advanced c (.alloc work) others c' next := by
  unfold AvcMemory.advance at done
  dsimp only at done
  split at done
  · cases done
    exact advanced_of_same ok none_ready rfl
  · rename_i node isObject
    split at done
    · cases done
    · rename_i free
      rw [Option.not_isSome_iff_eq_none] at free
      have grown := ok.nodeAlloc free
      have frame : ∀ b, c.nodes.get b ≠ none →
          (c.nodeAlloc node).nodes.get b = c.nodes.get b := by
        intro b used
        apply Heap.get_set_other
        rintro rfl
        exact used free
      have kept : ∀ b ∈ others, (c.nodeAlloc node).nodes.get b = c.nodes.get b :=
        fun b member => frame b (ok.heldOnly b member).1
      have freed : ∀ b, c.nodes.get b ≠ none → (c.nodeAlloc node).nodes.get b = none →
          (AvcCall.alloc work).node = some b := by
        intro b used gone
        rw [frame b used] at gone
        exact absurd gone used
      split at done
      · cases done
        exact ⟨grown, some_ready trivial, kept, freed⟩
      · cases done
        exact ⟨next_work grown work, some_ready (work_ready work node), kept, freed⟩

theorem advance_reclaim {work : AvcWork} {node tries : Nat}
    (ok : Structured c (node :: others))
    (done : c.advance choice (.reclaim work node tries ecx h) = some (c', next)) :
    Advanced c (.reclaim work node tries ecx h) others c' next := by
  unfold AvcMemory.advance at done
  dsimp only at done
  split at done
  · have reclaimed := reclaimSlot_ok ecx ok (rfl : c.slots h = c.slots h)
    split at done
    · rename_i ecx' c'' slot
      rw [slot] at reclaimed
      cases done
      exact advanced_of_same (next_work reclaimed.1 work) (some_ready (work_ready work node)) reclaimed.2
    · rename_i ecx' c'' slot
      rw [slot] at reclaimed
      cases done
      exact advanced_of_same reclaimed.1 (some_ready trivial) reclaimed.2
  · cases done
    exact advanced_of_same ok (some_ready trivial) rfl

theorem advance_populate {args : InsertArgs} {node : Nat} (ok : Structured c (node :: others))
    (done : c.advance choice (.populate args node) = some (c', next)) :
    Advanced c (.populate args node) others c' next := by
  have differs : ∀ b ∈ others, b ≠ node := by
    rintro b member rfl
    exact (List.nodup_cons.mp ok.heldOnce).1 member
  unfold AvcMemory.advance at done
  dsimp only at done
  split at done
  · cases done
    refine ⟨ok.nodeKill, none_ready, ?_, ?_⟩
    · exact fun b member => Heap.get_free_other c.nodes (differs b member)
    · intro b used gone
      by_contra other
      apply used
      rw [← gone]
      exact (Heap.get_free_other c.nodes fun isNode => other (by rw [isNode]; rfl)).symm
  · rename_i content populated
    cases done
    have frame := avcXpermsPopulate_frame (Prod.ext populated rfl)
    have key : content.key = (args.ssid, args.tsid, args.tclass) := by
      unfold AvcNode.key
      rw [frame.1, frame.2.1, frame.2.2.1]
      rfl
    have isReady : keyAt (c.write node content) node = some (args.ssid, args.tsid, args.tclass) := by
      unfold keyAt AvcMemory.write
      rw [Heap.get_set_same, Option.map_some, key]
    refine ⟨ok.write content, some_ready isReady, ?_, ?_⟩
    · exact fun b member => Heap.get_set_other c.nodes content (differs b member)
    · intro b used gone
      by_cases isNode : b = node
      · rw [isNode]
        rfl
      · have kept : (c.write node content).nodes.get b = c.nodes.get b :=
          Heap.get_set_other c.nodes content isNode
        rw [kept] at gone
        exact absurd gone used

theorem advance_update {args : UpdateArgs} {node : Nat} (ok : Structured c (node :: others))
    (done : c.advance choice (.update args node) = some (c', next)) :
    Advanced c (.update args node) others c' next := by
  unfold AvcMemory.advance at done
  dsimp only at done
  obtain ⟨c'', locked, is⟩ := Option.map_eq_some_iff.mp done
  cases is
  have outcome := updateLocked_outcome locked
  refine ⟨outcome.structured ok, none_ready, ?_, ?_⟩
  · intro b member
    apply outcome.frame
    rintro rfl
    exact (List.nodup_cons.mp ok.heldOnce).1 member
  · intro b used gone
    by_contra other
    apply used
    rw [← gone]
    exact (outcome.frame fun isNode => other (by rw [isNode]; rfl)).symm

/-- Each step of a call keeps the structure. -/
theorem advance_ok (ok : Structured c (call.node.toList ++ others)) (ready : Ready c call)
    (done : c.advance choice call = some (c', next)) : Advanced c call others c' next := by
  cases call with
  | checkNotif args =>
    unfold AvcMemory.advance at done
    dsimp only at done
    split at done
    · cases done
      exact advanced_of_same ok none_ready rfl
    · cases done
      exact advanced_of_same ok (some_ready trivial) rfl
  | alloc work => exact advance_alloc ok done
  | incHint work node tries ecx =>
    unfold AvcMemory.advance at done
    dsimp only at done
    split at done
    · cases done
      exact advanced_of_same (next_work ok work) (some_ready (work_ready work node)) rfl
    · cases done
      refine advanced_of_same ?_ (some_ready trivial) rfl
      exact ⟨ok.counted, ok.linked, ok.distinct, ok.heldOnce, ok.heldOnly, ok.deletedOnce,
        ok.deletedOnly⟩
  | reclaim work node tries ecx slot => exact advance_reclaim ok done
  | populate args node => exact advance_populate ok done
  | link args node =>
    unfold AvcMemory.advance at done
    cases done
    have linked := Structured.insertLocked ok ready
    exact advanced_of_same linked.1 none_ready linked.2
  | update args node => exact advance_update ok done
  | flush slot =>
    unfold AvcMemory.advance at done
    dsimp only at done
    split at done
    · rename_i inside
      cases done
      have flushed := flushSlot_ok ok (rfl : c.slots ⟨slot, inside⟩ = c.slots ⟨slot, inside⟩)
      exact advanced_of_same flushed.1 (some_ready trivial) flushed.2
    · cases done
      exact advanced_of_same ok none_ready rfl

end Calls

section System

variable {s s' : AvcSystem} {call : AvcCall} {calls rest : List AvcCall}

/-- The nodes that the calls in progress have allocated and neither linked nor killed. -/
def heldNodes (calls : List AvcCall) : List Nat := calls.filterMap AvcCall.node

/-- What holds of the cache and its calls between steps. -/
structure Invariant (s : AvcSystem) : Prop where
  structured : Structured s.memory (heldNodes s.calls)
  ready : ∀ call ∈ s.calls, Ready s.memory call

theorem heldNodes_cons (call : AvcCall) (rest : List AvcCall) :
    heldNodes (call :: rest) = call.node.toList ++ heldNodes rest := by
  unfold heldNodes
  rw [List.filterMap_cons]
  cases call.node with
  | none => rfl
  | some node => rfl

theorem heldNodes_append (calls rest : List AvcCall) :
    heldNodes (calls ++ rest) = heldNodes calls ++ heldNodes rest :=
  List.filterMap_append

theorem heldNodes_toList (next : Option AvcCall) :
    heldNodes next.toList = (next.bind AvcCall.node).toList := by
  cases next with
  | none => rfl
  | some call =>
    rw [Option.toList_some, heldNodes_cons, Option.bind_some]
    exact List.append_nil _

theorem ready_frame (ready : Ready c call)
    (frame : ∀ b, call.node = some b → c'.nodes.get b = c.nodes.get b) : Ready c' call := by
  cases call with
  | link args node =>
    change keyAt c' node = _
    unfold keyAt
    rw [frame node rfl]
    exact ready
  | _ => trivial

theorem split_at {i : Nat} (here : calls[i]? = some call) :
    calls = calls.take i ++ call :: calls.drop (i + 1) := by
  obtain ⟨inside, is⟩ := List.getElem?_eq_some_iff.mp here
  conv => lhs; rw [← List.take_append_drop i calls]
  rw [List.drop_eq_getElem_cons inside, is]

/-- A step of one of the calls keeps the invariant, and frees its own node only. -/
theorem step_call {i : Nat} {choice : AvcChoice} {next : Option AvcCall} (ok : Invariant s)
    (here : s.calls[i]? = some call)
    (done : s.memory.advance choice call = some (c', next)) :
    Invariant { memory := c', calls := s.calls.take i ++ next.toList ++ s.calls.drop (i + 1) } ∧
      ∀ b, s.memory.nodes.get b ≠ none → c'.nodes.get b = none → b ∈ heldNodes s.calls := by
  have parts := split_at here
  have order : (heldNodes s.calls).Perm (call.node.toList ++
      heldNodes (s.calls.take i ++ s.calls.drop (i + 1))) := by
    conv => lhs; rw [parts]
    rw [heldNodes_append, heldNodes_cons, heldNodes_append]
    exact List.perm_append_comm_assoc _ _ _
  have member : call ∈ s.calls := List.mem_of_getElem? here
  have advanced := advance_ok (ok.structured.perm order) (ok.ready call member) done
  have kept : ∀ other ∈ s.calls.take i ++ s.calls.drop (i + 1), Ready c' other := by
    intro other inside
    have among : other ∈ s.calls := by
      rcases List.mem_append.mp inside with before | after
      · exact List.mem_of_mem_take before
      · exact List.mem_of_mem_drop after
    apply ready_frame (ok.ready other among)
    intro b held
    exact advanced.frame b (List.mem_filterMap.mpr ⟨other, inside, held⟩)
  constructor
  · constructor
    · apply advanced.structured.perm
      rw [List.append_assoc, heldNodes_append, heldNodes_append, heldNodes_append,
        heldNodes_toList]
      exact List.perm_append_comm_assoc _ _ _
    · intro other inside
      rw [List.mem_append, List.mem_append, Option.mem_toList] at inside
      rcases inside with (before | isNext) | after
      · exact kept other (List.mem_append_left _ before)
      · exact advanced.ready other isNext
      · exact kept other (List.mem_append_right _ after)
  · intro b used gone
    exact List.mem_filterMap.mpr ⟨call, member, advanced.freed b used gone⟩

/-- A call that begins holds no node. -/
theorem begin_ok (ok : Invariant s) (none : call.node = none) (ready : Ready s.memory call) :
    Invariant (s.begin call) := by
  constructor
  · change Structured s.memory (heldNodes (s.calls ++ [call]))
    rw [heldNodes_append, heldNodes_cons, none]
    exact ok.structured.perm (List.append_nil _ ▸ List.Perm.refl _)
  · intro other inside
    rcases List.mem_append.mp inside with old | new
    · exact ok.ready other old
    · rw [List.mem_singleton.mp new]
      exact ready

/-- What one move keeps: the invariant, and that it frees no linked node. -/
theorem step_ok {move : AvcMove} (ok : Invariant s) (done : s.step move = some s') :
    Invariant s' ∧ ∀ b, s.memory.nodes.get b ≠ none → s'.memory.nodes.get b = none →
      ∀ h, b ∉ s.memory.slots h := by
  have still : ∀ {s' : AvcSystem}, s'.memory.nodes = s.memory.nodes →
      ∀ b, s.memory.nodes.get b ≠ none → s'.memory.nodes.get b = none →
        ∀ h, b ∉ s.memory.slots h := by
    intro s' same b used gone
    rw [same] at gone
    exact absurd gone used
  cases move with
  | insert args =>
    cases done
    exact ⟨begin_ok ok rfl trivial, still rfl⟩
  | update args =>
    cases done
    exact ⟨begin_ok ok rfl trivial, still rfl⟩
  | flush =>
    cases done
    exact ⟨begin_ok ok rfl trivial, still rfl⟩
  | step i choice =>
    unfold AvcSystem.step at done
    dsimp only at done
    split at done
    · cases done
    · rename_i call here
      obtain ⟨next, advanced, is⟩ := Option.map_eq_some_iff.mp done
      cases is
      have stepped := step_call ok here advanced
      refine ⟨stepped.1, fun b used gone => ?_⟩
      exact (ok.structured.heldOnly b (stepped.2 b used gone)).2.1
  | nodeFree node =>
    unfold AvcSystem.step at done
    dsimp only at done
    split at done
    · rename_i deleted
      cases done
      have unlinked := (ok.structured.deletedOnly node deleted).2
      have frame : ∀ b, b ≠ node →
          (s.memory.nodeFree node).nodes.get b = s.memory.nodes.get b :=
        fun b differs => Heap.get_free_other s.memory.nodes differs
      constructor
      · constructor
        · exact ok.structured.nodeFree deleted
        · intro call member
          apply ready_frame (ok.ready call member)
          intro b held
          apply frame b
          rintro rfl
          have isHeld : b ∈ heldNodes s.calls := List.mem_filterMap.mpr ⟨call, member, held⟩
          exact (ok.structured.heldOnly b isHeld).2.2 deleted
      · intro b used gone
        by_cases isNode : b = node
        · rw [isNode]
          exact unlinked
        · exact absurd ((frame b isNode).symm.trans gone) used
    · cases done
  | notif seqno =>
    unfold AvcSystem.step at done
    dsimp only at done
    have same := ok.structured
    split at done
    · cases done
      refine ⟨⟨?_, ok.ready⟩, still rfl⟩
      exact ⟨same.counted, same.linked, same.distinct, same.heldOnce, same.heldOnly,
        same.deletedOnce, same.deletedOnly⟩
    · cases done
      exact ⟨ok, still rfl⟩
  | threshold value =>
    cases done
    have same := ok.structured
    refine ⟨⟨?_, ok.ready⟩, still rfl⟩
    exact ⟨same.counted, same.linked, same.distinct, same.heldOnce, same.heldOnly,
      same.deletedOnce, same.deletedOnly⟩

theorem start_ok (started : avcNodes.start s) : Invariant s := by
  obtain ⟨memory, calls⟩ := started
  have none : heldNodes s.calls = [] := by
    rw [calls]
    rfl
  constructor
  · rw [memory, none]
    constructor
    · unfold linkedNodes AvcMemory.init
      simp
    · intro h a member
      cases member
    · exact fun h => List.nodup_nil
    · exact List.nodup_nil
    · intro a member
      cases member
    · exact List.nodup_nil
    · intro a member
      cases member
  · intro call member
    rw [calls] at member
    cases member

theorem invariant_reachable (reached : avcNodes.Reachable Machine.free s) : Invariant s :=
  reached.invariant (fun _ started => start_ok started) fun _ _ _ ok _ done => (step_ok ok done).1

/-- The counter is the number of the nodes that are linked or held by a call; a slot links
nodes of its hash, one for a key; a linked node is linked once, held by no call, not deleted,
and no step frees it. -/
structure Sound (s : AvcSystem) : Prop where
  counted : s.memory.activeNodes =
    BitVec.ofNat 32 (linkedNodes s.memory + (heldNodes s.calls).length)
  onePerKey : ∀ h, ((s.memory.slots h).map (keyAt s.memory)).Nodup
  hashed : ∀ h, ∀ a ∈ s.memory.slots h, ∃ node, s.memory.nodes.get a = some node ∧ node.hash = h
  once : ∀ h, (s.memory.slots h).Nodup
  oneSlot : ∀ h k a, a ∈ s.memory.slots h → a ∈ s.memory.slots k → h = k
  heldOnce : (heldNodes s.calls).Nodup
  owned : ∀ h, ∀ a ∈ s.memory.slots h, a ∉ heldNodes s.calls ∧ a ∉ s.memory.callRcu
  unfreed : ∀ move s', s.step move = some s' → ∀ a, s.memory.nodes.get a ≠ none →
    s'.memory.nodes.get a = none → ∀ h, a ∉ s.memory.slots h

/-- The structure of the cache in every state that calls of any number reach, in any order of
their steps. -/
theorem avcNodes_sound (s : AvcSystem) (reached : avcNodes.Reachable Machine.free s) : Sound s := by
  have ok := invariant_reachable reached
  have same := ok.structured
  constructor
  · exact same.counted
  · exact same.distinct
  · exact same.linked
  · exact same.once
  · exact fun h k a inH inK => same.one_slot inH inK
  · exact same.heldOnce
  · intro h a linked
    constructor
    · exact fun held => (same.heldOnly a held).2.1 h linked
    · exact fun deleted => (same.deletedOnly a deleted).2 h linked
  · intro move s' done
    exact (step_ok ok done).2

/-- An insertion and an update of the same key, the second in an object of its own, and the
freeing of the first object. -/
def insertThenUpdate : List AvcMove :=
  let choice (object : Nat) : AvcChoice :=
    { object := some object, trylock := true, tape := { allocs := [], trylocks := [] } }
  let avd : AvDecision := { allowed := 1, auditallow := 0, auditdeny := 0, seqno := 0, flags := 0 }
  [ .insert { ssid := 3, tsid := 4, tclass := 2, avd
              xpNode := { xp := { len := 0, drivers := .zero }, xpdHead := [] } },
    .step 0 (choice 1), .step 0 (choice 1), .step 0 (choice 1), .step 0 (choice 1),
    .update { event := .grant, perms := 2, driver := 0, xperm := 0, ssid := 3, tsid := 4
              tclass := 2, seqno := 0, xpd := none, flags := 0 },
    .step 0 (choice 2), .step 0 (choice 2), .nodeFree 1 ]

theorem avcNodes_sound_update :
    ∃ s, avcNodes.exec ⟨.init, []⟩ insertThenUpdate = some s ∧ s.memory.activeNodes = 1 ∧
      Sound s := by
  have ran : (avcNodes.exec ⟨.init, []⟩ insertThenUpdate).map (fun s => s.memory.activeNodes) =
      some 1 := by decide
  obtain ⟨s, is, one⟩ := Option.map_eq_some_iff.mp ran
  exact ⟨s, is, one, avcNodes_sound s ⟨_, ⟨rfl, rfl⟩, Machine.exec_reaches is⟩⟩

end System

end Ksrc.Guarantees.AvcStructure

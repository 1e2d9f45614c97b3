import Ksrc.Source.Avc

/-!
# What the cache operations do to the slots

Source: `security/selinux/avc.c`. One lemma for each operation: a reclaim, a kill
and a flush only take nodes away; a link adds one node to the slot of its key; an
update puts a changed copy of one node in its place.
-/
namespace Ksrc.Guarantees.AvcCacheEffects

open Source

/-- Nodes left the cache from the head of their slots and nothing else changed. -/
structure Shrunk (c c' : AvcCache) : Prop where
  suffix : ∀ h, c'.slots h <:+ c.slots h
  latestNotif : c'.latestNotif = c.latestNotif

theorem Shrunk.refl (c : AvcCache) : Shrunk c c := ⟨fun _ => List.suffix_rfl, rfl⟩

theorem Shrunk.trans {c c' c'' : AvcCache} (first : Shrunk c c') (second : Shrunk c' c'') :
    Shrunk c c'' :=
  ⟨fun h => (second.suffix h).trans (first.suffix h), second.latestNotif.trans first.latestNotif⟩

theorem Shrunk.mem {c c' : AvcCache} (shrunk : Shrunk c c') {h : Fin avcCacheSlots}
    {node : AvcNode} (linked : node ∈ c'.slots h) : node ∈ c.slots h :=
  (shrunk.suffix h).subset linked

theorem setSlot_drop_shrunk (c : AvcCache) (h : Fin avcCacheSlots) (gone : Nat) :
    Shrunk c (c.setSlot h ((c.slots h).drop gone)) := by
  refine ⟨fun k => ?_, rfl⟩
  by_cases equal : k = h
  · subst equal
    simpa using List.drop_suffix gone _
  · simp [equal]

theorem avcReclaimScan_shrunk (tries ecx : Nat) (c : AvcCache) (t : Tape) :
    Shrunk c (avcReclaimScan tries ecx c t).1 := by
  induction tries generalizing ecx c t with
  | zero => exact Shrunk.refl c
  | succ tries ih =>
    have hinted : Shrunk c { c with lruHint := c.lruHint + 1 } :=
      ⟨fun _ => List.suffix_rfl, rfl⟩
    simp only [avcReclaimScan]
    split
    · exact hinted.trans (ih _ _ _)
    · have dropped := fun k n => setSlot_drop_shrunk { c with lruHint := c.lruHint + 1 } k n
      split
      · exact hinted.trans ⟨(dropped _ _).suffix, rfl⟩
      · refine Shrunk.trans ?_ (ih _ _ _)
        exact hinted.trans ⟨(dropped _ _).suffix, rfl⟩

theorem avcAllocNode_shrunk (c : AvcCache) (t : Tape) : Shrunk c (avcAllocNode c t).2.1 := by
  have counted : Shrunk c { c with activeNodes := c.activeNodes + 1 } :=
    ⟨fun _ => List.suffix_rfl, rfl⟩
  simp only [avcAllocNode]
  split
  · exact Shrunk.refl c
  · split
    · exact counted.trans (avcReclaimScan_shrunk _ _ _ _)
    · exact counted

theorem avcNodeKill_shrunk (c : AvcCache) : Shrunk c (avcNodeKill c) :=
  ⟨fun _ => List.suffix_rfl, rfl⟩

theorem avcFlushSlot_shrunk (c : AvcCache) (h : Fin avcCacheSlots) :
    Shrunk c (avcFlushSlot c h) := by
  have emptied := setSlot_drop_shrunk c h (c.slots h).length
  rw [List.drop_length] at emptied
  exact ⟨emptied.suffix, rfl⟩

@[simp] theorem avcFlushSlot_same (c : AvcCache) (h : Fin avcCacheSlots) :
    (avcFlushSlot c h).slots h = [] := by
  simp [avcFlushSlot, AvcCache.setSlot]

theorem avcFlushFrom_shrunk (c : AvcCache) (i count : Nat) :
    Shrunk c (avcFlushFrom c i count) := by
  induction count generalizing c i with
  | zero => exact Shrunk.refl c
  | succ count ih =>
    simp only [avcFlushFrom]
    split
    · exact (avcFlushSlot_shrunk c _).trans (ih _ _)
    · exact Shrunk.refl c

/-- The flush empties every slot it passes. -/
theorem avcFlushFrom_empty (c : AvcCache) {i count : Nat} {h : Fin avcCacheSlots}
    (above : i ≤ h.val) (below : h.val < i + count) : (avcFlushFrom c i count).slots h = [] := by
  induction count generalizing c i with
  | zero => omega
  | succ count ih =>
    have bound : i < avcCacheSlots := Nat.lt_of_le_of_lt above h.isLt
    simp only [avcFlushFrom, bound, dite_true]
    by_cases equal : h.val = i
    · have shrunk := avcFlushFrom_shrunk (avcFlushSlot c ⟨i, bound⟩) (i + 1) count
      have here : h = ⟨i, bound⟩ := Fin.ext equal
      have suffix := shrunk.suffix h
      rw [here, avcFlushSlot_same] at suffix
      rw [here]
      exact List.suffix_nil.mp suffix
    · exact ih _ (by omega) (by omega)

theorem avcFlush_empty (c : AvcCache) (h : Fin avcCacheSlots) : (avcFlush c).slots h = [] := by
  have below : h.val < 0 + avcCacheSlots := by
    rw [Nat.zero_add]
    exact h.isLt
  unfold avcFlush
  exact avcFlushFrom_empty c (Nat.zero_le _) below

@[simp] theorem avcLatestNotifUpdate_slots (c : AvcCache) (seqno : U32) :
    (avcLatestNotifUpdate c seqno).slots = c.slots := by
  simp only [avcLatestNotifUpdate]
  split <;> rfl

theorem mem_replaceFirst {old : AvcNode → Bool} {new n : AvcNode} {nodes : List AvcNode}
    (member : n ∈ replaceFirst old new nodes) : n ∈ nodes ∨ n = new := by
  induction nodes with
  | nil => simp [replaceFirst] at member
  | cons pos rest ih =>
    simp only [replaceFirst, List.replaceF] at member ih
    cases matched : old pos with
    | true =>
      simp only [matched, if_true, List.mem_cons] at member
      rcases member with rfl | member
      · exact .inr rfl
      · exact .inl (List.mem_cons_of_mem _ member)
    | false =>
      simp only [matched, Bool.false_eq_true, if_false, List.mem_cons] at member
      rcases member with rfl | member
      · exact .inl List.mem_cons_self
      · rcases ih member with member | equal
        · exact .inl (List.mem_cons_of_mem _ member)
        · exact .inr equal

@[simp] theorem avcInsertLink_latestNotif (c : AvcCache) (node : AvcNode) :
    (avcInsertLink c node).latestNotif = c.latestNotif := by
  simp only [avcInsertLink]
  split <;> rfl

/-- A link adds at most the new node, in the slot of its key. -/
theorem mem_avcInsertLink {c : AvcCache} {node n : AvcNode} {h : Fin avcCacheSlots}
    (linked : n ∈ (avcInsertLink c node).slots h) :
    n ∈ c.slots h ∨ (n = node ∧ h = avcHash node.ssid node.tsid node.tclass) := by
  by_cases equal : h = avcHash node.ssid node.tsid node.tclass
  · subst equal
    simp only [avcInsertLink] at linked
    split at linked
    · simp only [AvcCache.setSlot_same] at linked
      rcases mem_replaceFirst linked with member | rfl
      · exact .inl member
      · exact .inr ⟨rfl, rfl⟩
    · simp only [AvcCache.setSlot_same, List.mem_cons] at linked
      rcases linked with rfl | member
      · exact .inr ⟨rfl, rfl⟩
      · exact .inl member
  · simp only [avcInsertLink] at linked
    split at linked <;> simp only [AvcCache.setSlot_other _ _ equal] at linked <;>
      exact .inl linked

theorem mem_replaceFirst_of_any {old : AvcNode → Bool} {new : AvcNode} {nodes : List AvcNode}
    (found : nodes.any old = true) : new ∈ replaceFirst old new nodes := by
  induction nodes with
  | nil => simp at found
  | cons pos rest ih =>
    simp only [replaceFirst, List.replaceF]
    cases matched : old pos with
    | true => simp
    | false =>
      simp only [List.any_cons, matched, Bool.false_or] at found
      exact List.mem_cons_of_mem _ (ih found)

/-- The node a link is called with is in its slot afterwards. -/
theorem avcInsertLink_self (c : AvcCache) (node : AvcNode) :
    node ∈ (avcInsertLink c node).slots (avcHash node.ssid node.tsid node.tclass) := by
  simp only [avcInsertLink]
  split
  · rename_i found
    simpa using mem_replaceFirst_of_any found
  · simp

/-- Populating keeps the key and the decision of the node. -/
theorem avcXpermsPopulate_frame {node dest : AvcNode} {src : AvcXpermsNode} {t t' : Tape}
    (populated : avcXpermsPopulate node src t = (.ok dest, t')) :
    dest.ssid = node.ssid ∧ dest.tsid = node.tsid ∧ dest.tclass = node.tclass ∧
      dest.avd = node.avd := by
  simp only [avcXpermsPopulate] at populated
  split at populated
  · simp only [Prod.mk.injEq, Except.ok.injEq] at populated
    obtain ⟨rfl, -⟩ := populated
    exact ⟨rfl, rfl, rfl, rfl⟩
  · split at populated
    · simp at populated
    · split at populated
      · simp at populated
      · simp only [Prod.mk.injEq, Except.ok.injEq] at populated
        obtain ⟨rfl, -⟩ := populated
        exact ⟨rfl, rfl, rfl, rfl⟩

/-- The allowed vector after an event. -/
def eventAllowed (event : AvcEvent) (perms allowed : U32) : U32 :=
  match event with
  | .grant => allowed ||| perms
  | .tryRevoke | .revoke => allowed &&& ~~~perms
  | _ => allowed

/-- An event keeps the key, the sequence number and the flags of the node. -/
theorem avcUpdateEvent_frame {event : AvcEvent} {perms flags : U32} {driver xperm : U8}
    {xpd : Option ExtendedPermsDecision} {node dest : AvcNode} {t t' : Tape}
    (updated : avcUpdateEvent event perms driver xperm flags xpd node t = (.ok dest, t')) :
    dest.ssid = node.ssid ∧ dest.tsid = node.tsid ∧ dest.tclass = node.tclass ∧
      dest.avd.seqno = node.avd.seqno ∧ dest.avd.flags = node.avd.flags ∧
      dest.avd.allowed = eventAllowed event perms node.avd.allowed := by
  cases event with
  | addXperms =>
    cases xpd with
    | none => simp [avcUpdateEvent] at updated
    | some src =>
      simp only [avcUpdateEvent, avcAddXpermsDecision] at updated
      split at updated
      · simp at updated
      · split at updated
        · simp at updated
        · simp only [Prod.mk.injEq, Except.ok.injEq] at updated
          obtain ⟨rfl, -⟩ := updated
          simp [eventAllowed]
  | grant =>
    simp only [avcUpdateEvent] at updated
    split at updated
    · split at updated <;>
        (simp only [Prod.mk.injEq, Except.ok.injEq] at updated
         obtain ⟨rfl, -⟩ := updated
         simp [eventAllowed])
    · simp only [Prod.mk.injEq, Except.ok.injEq] at updated
      obtain ⟨rfl, -⟩ := updated
      simp [eventAllowed]
  | _ =>
    simp only [avcUpdateEvent, Prod.mk.injEq, Except.ok.injEq] at updated
    obtain ⟨rfl, -⟩ := updated
    simp [eventAllowed]

/-- What an update can leave in a slot: a node that was there, or the changed copy
of one that had the key and the sequence number asked for. -/
theorem mem_avcUpdateLocked {c : AvcCache} {event : AvcEvent} {perms flags seqno : U32}
    {driver xperm : U8} {ssid tsid : U32} {tclass : U16} {xpd : Option ExtendedPermsDecision}
    {t : Tape} {n : AvcNode} {h : Fin avcCacheSlots}
    (linked : n ∈ (avcUpdateLocked c event perms driver xperm ssid tsid tclass seqno xpd
      flags t).2.1.slots h) :
    n ∈ c.slots h ∨ (h = avcHash ssid tsid tclass ∧ ∃ orig ∈ c.slots h,
      n.ssid = ssid ∧ n.tsid = tsid ∧ n.tclass = tclass ∧
      orig.ssid = ssid ∧ orig.tsid = tsid ∧ orig.tclass = tclass ∧
      orig.avd.seqno = seqno ∧ n.avd.seqno = seqno ∧ n.avd.flags = orig.avd.flags ∧
      n.avd.allowed = eventAllowed event perms orig.avd.allowed) := by
  simp only [avcUpdateLocked] at linked
  split at linked
  · exact .inl linked
  · rename_i orig found
    have member := List.mem_of_find?_eq_some found
    have matched := List.find?_some found
    simp only [Bool.and_eq_true, AvcNode.keyEq_iff, beq_iff_eq] at matched
    obtain ⟨⟨ssidEq, tsidEq, tclassEq⟩, seqnoEq⟩ := matched
    split at linked
    · exact .inl linked
    · rename_i node t' populated
      have copied : node.ssid = ssid ∧ node.tsid = tsid ∧ node.tclass = tclass ∧
          node.avd = orig.avd := by
        split at populated
        · exact avcXpermsPopulate_frame populated
        · simp only [Prod.mk.injEq, Except.ok.injEq] at populated
          obtain ⟨rfl, -⟩ := populated
          exact ⟨rfl, rfl, rfl, rfl⟩
      obtain ⟨copySsid, copyTsid, copyTclass, copyAvd⟩ := copied
      split at linked
      · exact .inl linked
      · rename_i dest t'' updated
        obtain ⟨destSsid, destTsid, destTclass, destSeqno, destFlags, destAllowed⟩ :=
          avcUpdateEvent_frame updated
        by_cases equal : h = avcHash ssid tsid tclass
        · subst equal
          simp only [AvcCache.setSlot_same] at linked
          rcases mem_replaceFirst linked with old | rfl
          · exact .inl old
          · refine .inr ⟨rfl, orig, member, ?_⟩
            simp only [destSsid, destTsid, destTclass, destSeqno, destFlags, destAllowed,
              copySsid, copyTsid, copyTclass, copyAvd, ssidEq, tsidEq, tclassEq, seqnoEq,
              and_self]
        · simp only [AvcCache.setSlot_other _ _ equal] at linked
          exact .inl linked

@[simp] theorem avcUpdateLocked_latestNotif (c : AvcCache) (event : AvcEvent)
    (perms flags seqno : U32) (driver xperm : U8) (ssid tsid : U32) (tclass : U16)
    (xpd : Option ExtendedPermsDecision) (t : Tape) :
    (avcUpdateLocked c event perms driver xperm ssid tsid tclass seqno xpd
      flags t).2.1.latestNotif = c.latestNotif := by
  simp only [avcUpdateLocked]
  split
  · rfl
  · split
    · rfl
    · split <;> rfl

end Ksrc.Guarantees.AvcCacheEffects

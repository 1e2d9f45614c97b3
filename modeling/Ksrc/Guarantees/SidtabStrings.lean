import Ksrc.Source.SidtabStrings

/-!
# The SID-to-string cache under any calls

Source: `security/selinux/ss/sidtab.c` (`sidtab_sid2str_put`, `sidtab_sid2str_get`).

Each put keeps the objects on the LRU list and the entries' pointers in step and leaves
every object in place until its readers have gone, so a string read without the lock is
one that was put for that entry.
-/
namespace Ksrc.Guarantees.SidtabStrings

open Library Source

variable {ε : Type} {contextLen : ε → U32} {size : Nat}
  {puts : List (ε × List U8)} {s s' : Sid2strCache ε} {entry : ε} {str : List U8}

/-- The cache with room for `size` strings: list and pointers agree, a retired object is
off the list and still there, and every object holds a string put for its parent. -/
structure StringsOk (contextLen : ε → U32) (size : Nat) (puts : List (ε × List U8))
    (s : Sid2strCache ε) : Prop where
  slots : s.cacheFreeSlots + s.cacheLruList.length = size
  once : s.cacheLruList.Nodup
  alive : ∀ a ∈ s.cacheLruList, ∃ o, s.objects.get a = some o
  owned : ∀ entry a, s.cache entry = some a →
    a ∈ s.cacheLruList ∧ ∃ o, s.objects.get a = some o ∧ o.parent = entry
  owner : ∀ a ∈ s.cacheLruList, ∀ o, s.objects.get a = some o → s.cache o.parent = some a
  mapped : ∀ entry a, s.cache entry = some a → contextLen entry = 0
  retired : ∀ r ∈ s.retired, r.cache ∉ s.cacheLruList ∧ ∃ o, s.objects.get r.cache = some o
  retiredOnce : (s.retired.map RetiredCache.cache).Nodup
  content : ∀ a o, s.objects.get a = some o → (o.parent, o.str) ∈ puts

/-- What a put leaves of the objects: each stays, and one that leaves the list is retired
with the readers of the moment. -/
structure Keeps (readers : List Nat) (s s' : Sid2strCache ε) : Prop where
  objects : ∀ a o, s.objects.get a = some o → s'.objects.get a = some o
  listed : ∀ a ∈ s.cacheLruList, a ∈ s'.cacheLruList ∨ { cache := a, readers } ∈ s'.retired
  retired : ∀ r ∈ s.retired, r ∈ s'.retired

theorem StringsOk.init (contextLen : ε → U32) (size : Nat) :
    StringsOk contextLen size [] (.init size) := by
  constructor
  · rfl
  · exact List.nodup_nil
  · intro a member
    cases member
  · intro entry a here
    cases here
  · intro a member
    cases member
  · intro entry a here
    cases here
  · intro r member
    cases member
  · exact List.nodup_nil
  · intro a o here
    cases here

theorem StringsOk.more (ok : StringsOk contextLen size puts s) (new : ε × List U8) :
    StringsOk contextLen size (new :: puts) s :=
  { ok with content := fun a o here => List.mem_cons_of_mem _ (ok.content a o here) }

theorem Keeps.rfl' (readers : List Nat) (s : Sid2strCache ε) : Keeps readers s s :=
  ⟨fun _ _ here => here, fun _ member => .inl member, fun _ member => member⟩

theorem Keeps.trans {readers : List Nat} {s'' : Sid2strCache ε} (first : Keeps readers s s')
    (second : Keeps readers s' s'') : Keeps readers s s'' := by
  constructor
  · intro a o here
    exact second.objects a o (first.objects a o here)
  · intro a member
    cases first.listed a member with
    | inl listed => exact second.listed a listed
    | inr gone => exact .inr (second.retired _ gone)
  · intro r member
    exact second.retired r (first.retired r member)

/-- A bump: the list is only reordered. -/
theorem StringsOk.bump {cache : Nat} (ok : StringsOk contextLen size puts s)
    (member : cache ∈ s.cacheLruList) (readers : List Nat) :
    StringsOk contextLen size puts
        { s with cacheLruList := cache :: s.cacheLruList.erase cache } ∧
      Keeps readers s { s with cacheLruList := cache :: s.cacheLruList.erase cache } := by
  have perm : (cache :: s.cacheLruList.erase cache).Perm s.cacheLruList :=
    (List.perm_cons_erase member).symm
  constructor
  · constructor
    · have slots := ok.slots
      have length := perm.length_eq
      dsimp only
      omega
    · exact perm.nodup_iff.mpr ok.once
    · intro a listed
      exact ok.alive a (perm.mem_iff.mp listed)
    · intro entry a here
      obtain ⟨listed, object⟩ := ok.owned entry a here
      exact ⟨perm.mem_iff.mpr listed, object⟩
    · intro a listed
      exact ok.owner a (perm.mem_iff.mp listed)
    · exact ok.mapped
    · intro r gone
      obtain ⟨off, object⟩ := ok.retired r gone
      exact ⟨fun listed => off (perm.mem_iff.mp listed), object⟩
    · exact ok.retiredOnce
    · exact ok.content
  · constructor
    · intro a o here
      exact here
    · intro a listed
      exact .inl (perm.mem_iff.mpr listed)
    · intro r gone
      exact gone

section Puts

variable [DecidableEq ε]

/-- The tail of the list is popped. -/
theorem StringsOk.popVictim (ok : StringsOk contextLen (size + 1) puts s)
    (full : s.cacheFreeSlots = 0) (readers : List Nat) :
    ∃ s', s.popVictim readers = some s' ∧ StringsOk contextLen size puts s' ∧
      Keeps readers s s' ∧ s'.objects = s.objects ∧
      ∀ entry, s.cache entry = none → s'.cache entry = none := by
  have slots := ok.slots
  have filled : s.cacheLruList ≠ [] := by
    intro empty
    rw [empty] at slots
    simp only [List.length_nil] at slots
    omega
  have last := List.getLast?_eq_some_getLast filled
  obtain ⟨object, here⟩ := ok.alive _ (List.getLast_mem filled)
  have parts := List.dropLast_append_getLast filled
  generalize s.cacheLruList.getLast filled = victim at last here parts
  have listed : victim ∈ s.cacheLruList := by
    rw [← parts]
    simp
  have once := ok.once
  rw [← parts, List.nodup_append] at once
  have apart : ∀ a ∈ s.cacheLruList.dropLast, a ≠ victim :=
    fun a member => once.2.2 a member victim (by simp)
  have kept : ∀ a ∈ s.cacheLruList, a ≠ victim → a ∈ s.cacheLruList.dropLast := by
    intro a member other
    rw [← parts, List.mem_append, List.mem_singleton] at member
    cases member with
    | inl inside => exact inside
    | inr equal => exact absurd equal other
  have own := ok.owner victim listed object here
  refine ⟨{ s.setCache object.parent none with
      cacheLruList := s.cacheLruList.dropLast
      retired := { cache := victim, readers } :: s.retired },
    by simp only [Sid2strCache.popVictim, last, here], ?_, ?_, rfl, ?_⟩
  · constructor
    · have length : s.cacheLruList.dropLast.length = _ := List.length_dropLast
      dsimp only [Sid2strCache.setCache]
      omega
    · exact once.1
    · intro a member
      exact ok.alive a (List.dropLast_subset _ member)
    · intro entry a pointed
      dsimp only [Sid2strCache.setCache] at pointed
      rw [Function.update_apply] at pointed
      split at pointed
      · cases pointed
      · rename_i other
        obtain ⟨member, o, found, parent⟩ := ok.owned entry a pointed
        refine ⟨kept a member ?_, o, found, parent⟩
        intro equal
        rw [equal, here] at found
        cases found
        exact other parent.symm
    · intro a member o found
      have pointed := ok.owner a (List.dropLast_subset _ member) o found
      have other : o.parent ≠ object.parent := by
        intro equal
        rw [equal, own] at pointed
        cases pointed
        exact apart _ member rfl
      dsimp only [Sid2strCache.setCache]
      rw [Function.update_of_ne other]
      exact pointed
    · intro entry a pointed
      dsimp only [Sid2strCache.setCache] at pointed
      rw [Function.update_apply] at pointed
      split at pointed
      · cases pointed
      · exact ok.mapped entry a pointed
    · intro r gone
      cases gone with
      | head => exact ⟨fun member => apart _ member rfl, object, here⟩
      | tail _ old =>
        obtain ⟨off, there⟩ := ok.retired r old
        exact ⟨fun member => off (List.dropLast_subset _ member), there⟩
    · rw [List.map_cons, List.nodup_cons]
      refine ⟨fun member => ?_, ok.retiredOnce⟩
      obtain ⟨r, old, equal⟩ := List.mem_map.mp member
      dsimp only at equal
      exact (ok.retired r old).1 (equal ▸ listed)
    · exact ok.content
  · constructor
    · intro a o found
      exact found
    · intro a member
      by_cases equal : a = victim
      · rw [equal]
        exact .inr List.mem_cons_self
      · exact .inl (kept a member equal)
    · intro r old
      exact List.mem_cons_of_mem _ old
  · intro entry absent
    dsimp only [Sid2strCache.setCache]
    rw [Function.update_apply]
    split
    · rfl
    · exact absent

/-- A slot for a new string. -/
theorem StringsOk.takeSlot (ok : StringsOk contextLen (size + 1) puts s) (readers : List Nat) :
    ∃ s', s.takeSlot readers = some s' ∧ StringsOk contextLen size puts s' ∧
      Keeps readers s s' ∧ s'.objects = s.objects ∧
      ∀ entry, s.cache entry = none → s'.cache entry = none := by
  by_cases full : s.cacheFreeSlots = 0
  · obtain ⟨s', popped, rest⟩ := ok.popVictim full readers
    exact ⟨s', by rw [Sid2strCache.takeSlot, if_pos full, popped], rest⟩
  · have slots : s.cacheFreeSlots - 1 + s.cacheLruList.length = size := by
      have before := ok.slots
      omega
    refine ⟨{ s with cacheFreeSlots := s.cacheFreeSlots - 1 },
      by rw [Sid2strCache.takeSlot, if_neg full], { ok with slots }, ⟨?_, ?_, ?_⟩, rfl, ?_⟩
    · intro a o here
      exact here
    · intro a member
      exact .inl member
    · intro r gone
      exact gone
    · intro entry absent
      exact absent

/-- The new object becomes the head of the list and its parent's string. -/
theorem StringsOk.publish {cache : Nat} (ok : StringsOk contextLen size puts s)
    (fresh : s.objects.get cache = none) (absent : s.cache entry = none)
    (unmapped : contextLen entry = 0) (put : (entry, str) ∈ puts) (readers : List Nat) :
    StringsOk contextLen (size + 1) puts (s.publish entry str cache) ∧
      Keeps readers s (s.publish entry str cache) := by
  have unlisted : cache ∉ s.cacheLruList := by
    intro member
    obtain ⟨o, here⟩ := ok.alive cache member
    rw [fresh] at here
    cases here
  have kept : ∀ a o, s.objects.get a = some o → (s.publish entry str cache).objects.get a = some o := by
    intro a o here
    have other : a ≠ cache := by
      intro equal
      rw [equal, fresh] at here
      cases here
    exact (Heap.get_set_other _ _ other).trans here
  constructor
  · constructor
    · have slots := ok.slots
      simp only [Sid2strCache.publish, Sid2strCache.setCache, List.length_cons]
      omega
    · exact List.nodup_cons.mpr ⟨unlisted, ok.once⟩
    · intro a member
      cases member with
      | head => exact ⟨_, Heap.get_set_same _ _ _⟩
      | tail _ old =>
        obtain ⟨o, here⟩ := ok.alive a old
        exact ⟨o, kept a o here⟩
    · intro other a pointed
      simp only [Sid2strCache.publish, Sid2strCache.setCache, Function.update_apply] at pointed
      split at pointed
      · rename_i equal
        cases pointed
        exact ⟨List.mem_cons_self, _, Heap.get_set_same _ _ _, equal.symm⟩
      · obtain ⟨member, o, here, parent⟩ := ok.owned other a pointed
        exact ⟨List.mem_cons_of_mem _ member, o, kept a o here, parent⟩
    · intro a member o here
      simp only [Sid2strCache.publish, Sid2strCache.setCache] at here member ⊢
      cases member with
      | head =>
        rw [Heap.get_set_same] at here
        cases here
        exact Function.update_self _ _ _
      | tail _ old =>
        have other : a ≠ cache := fun equal => unlisted (equal ▸ old)
        rw [Heap.get_set_other _ _ other] at here
        have pointed := ok.owner a old o here
        rw [Function.update_of_ne _, pointed]
        intro equal
        rw [equal, absent] at pointed
        cases pointed
    · intro other a pointed
      simp only [Sid2strCache.publish, Sid2strCache.setCache, Function.update_apply] at pointed
      split at pointed
      · rename_i equal
        rw [equal, unmapped]
      · exact ok.mapped other a pointed
    · intro r gone
      obtain ⟨off, o, here⟩ := ok.retired r gone
      refine ⟨?_, o, kept _ o here⟩
      intro member
      cases member with
      | head =>
        rw [fresh] at here
        cases here
      | tail _ old => exact off old
    · exact ok.retiredOnce
    · intro a o here
      simp only [Sid2strCache.publish, Heap.get_set] at here
      split at here
      · cases here
        exact put
      · exact ok.content a o here
  · constructor
    · exact kept
    · intro a member
      exact .inl (List.mem_cons_of_mem _ member)
    · intro r gone
      exact gone

/-- A put, whatever the allocation gives. -/
theorem sidtabSid2strPut_ok (ok : StringsOk contextLen (size + 1) puts s)
    (put : (entry, str) ∈ puts) {allocated : Option Nat} (fresh : freshCache s allocated = true)
    (readers : List Nat) :
    ∃ s', sidtabSid2strPut contextLen readers s entry str allocated = some s' ∧
      StringsOk contextLen (size + 1) puts s' ∧ Keeps readers s s' := by
  by_cases unmapped : contextLen entry = 0
  · have enabled : ¬ contextLen entry ≠ 0 := not_not.mpr unmapped
    cases pointed : s.cache entry with
    | some cache =>
      have member := (ok.owned entry cache pointed).1
      refine ⟨_, ?_, ok.bump member readers⟩
      simp only [sidtabSid2strPut, enabled, pointed, member, if_true, if_false]
    | none =>
      cases allocated with
      | none =>
        refine ⟨s, ?_, ok, Keeps.rfl' readers s⟩
        simp only [sidtabSid2strPut, enabled, pointed, if_false]
      | some cache =>
        have free : s.objects.get cache = none := Option.isNone_iff_eq_none.mp fresh
        obtain ⟨taken, took, takenOk, keeps, objects, absent⟩ := ok.takeSlot readers
        obtain ⟨published, kept⟩ := takenOk.publish (objects ▸ free) (absent entry pointed)
          unmapped put readers
        refine ⟨taken.publish entry str cache, ?_, published, keeps.trans kept⟩
        simp only [sidtabSid2strPut, enabled, pointed, if_false, took, Option.map_some]
  · refine ⟨s, ?_, ok, Keeps.rfl' readers s⟩
    simp only [sidtabSid2strPut, unmapped, ne_eq, not_false_eq_true, if_true]

end Puts

/-- The table and the threads: a thread that reads holds an object of its entry that is
listed or waits for it, and a copy was put for its entry, as was every string returned. -/
structure MachineOk (contextLen : ε → U32) (size : Nat) (s : Sid2strMachine ε) : Prop where
  strings : StringsOk contextLen size s.puts s.strings
  reading : ∀ t entry a out, s.thread t = .reading entry a out → t ∈ s.readers ∧
    (∃ o, s.strings.objects.get a = some o ∧ o.parent = entry) ∧
    (a ∈ s.strings.cacheLruList ∨ ∃ r ∈ s.strings.retired, r.cache = a ∧ t ∈ r.readers)
  copied : ∀ t entry str, s.thread t = .copied entry str → (entry, str) ∈ s.puts
  answers : ∀ answer ∈ s.answers, ∀ len out, answer.result = .ok (len, out) →
    ∃ str, (answer.entry, str) ∈ s.puts ∧ len = str.length ∧ ∀ copy, out = some copy → copy = str

section Steps

variable {m m' : Sid2strMachine ε}

theorem MachineOk.start (begun : Sid2strStart size m) : MachineOk contextLen size m := by
  constructor
  · rw [begun.strings, begun.puts]
    exact StringsOk.init contextLen size
  · intro t entry a out place
    rw [begun.thread] at place
    cases place
  · intro t entry str place
    rw [begun.thread] at place
    cases place
  · intro answer member
    rw [begun.answers] at member
    cases member

/-- Any put keeps what the threads hold. -/
theorem MachineOk.keeps {strings : Sid2strCache ε} (ok : MachineOk contextLen size m)
    (okAfter : StringsOk contextLen size m.puts strings)
    (keeps : Keeps m.readers m.strings strings) :
    MachineOk contextLen size { m with strings } := by
  constructor
  · exact okAfter
  · intro t entry a out place
    obtain ⟨reader, ⟨o, here, parent⟩, held⟩ := ok.reading t entry a out place
    refine ⟨reader, ⟨o, keeps.objects a o here, parent⟩, ?_⟩
    cases held with
    | inl listed =>
      cases keeps.listed a listed with
      | inl still => exact .inl still
      | inr gone => exact .inr ⟨_, gone, rfl, reader⟩
    | inr waiting =>
      obtain ⟨r, gone, same, waits⟩ := waiting
      exact .inr ⟨r, keeps.retired r gone, same, waits⟩
  · exact ok.copied
  · exact ok.answers

/-- A string put by a caller. -/
theorem MachineOk.more (ok : MachineOk contextLen size m) (new : ε × List U8) :
    MachineOk contextLen size { m with puts := new :: m.puts } := by
  constructor
  · exact ok.strings.more new
  · exact ok.reading
  · intro t entry str place
    exact List.mem_cons_of_mem _ (ok.copied t entry str place)
  · intro answer member len out result
    obtain ⟨str, put, length, same⟩ := ok.answers answer member len out result
    exact ⟨str, List.mem_cons_of_mem _ put, length, same⟩

/-- A thread that turns idle. -/
theorem MachineOk.rest (ok : MachineOk contextLen size m) (t : Nat) :
    MachineOk contextLen size (m.setThread t .idle) := by
  constructor
  · exact ok.strings
  · intro u entry a out place
    simp only [Sid2strMachine.setThread, Function.update_apply] at place
    split at place
    · cases place
    · exact ok.reading u entry a out place
  · intro u entry str place
    simp only [Sid2strMachine.setThread, Function.update_apply] at place
    split at place
    · cases place
    · exact ok.copied u entry str place
  · exact ok.answers

theorem MachineOk.answer (ok : MachineOk contextLen size m)
    {result : Except Errno (Nat × Option (List U8))}
    (right : ∀ len out, result = .ok (len, out) →
      ∃ str, (entry, str) ∈ m.puts ∧ len = str.length ∧ ∀ copy, out = some copy → copy = str) :
    MachineOk contextLen size (m.answer entry result) := by
  constructor
  · exact ok.strings
  · exact ok.reading
  · exact ok.copied
  · intro answer member
    cases member with
    | head => exact right
    | tail _ old => exact ok.answers answer old

/-- A read begins, at an object that is listed. -/
theorem MachineOk.load (ok : MachineOk contextLen size m) {t cache : Nat} {out : Bool}
    (pointed : m.strings.cache entry = some cache) :
    MachineOk contextLen size ((m.readLock t).setThread t (.reading entry cache out)) := by
  constructor
  · exact ok.strings
  · intro u other a flag place
    simp only [Sid2strMachine.setThread, Function.update_apply] at place
    split at place
    · rename_i same
      cases place
      obtain ⟨listed, object⟩ := ok.strings.owned entry cache pointed
      exact ⟨same ▸ List.mem_cons_self, object, .inl listed⟩
    · obtain ⟨reader, rest⟩ := ok.reading u other a flag place
      exact ⟨List.mem_cons_of_mem _ reader, rest⟩
  · intro u other str place
    simp only [Sid2strMachine.setThread, Function.update_apply] at place
    split at place
    · cases place
    · exact ok.copied u other str place
  · exact ok.answers

/-- A read ends: the reader goes, and with it its claim on what it read. -/
theorem MachineOk.unload (ok : MachineOk contextLen size m) {t : Nat}
    {phase : Sid2strThread ε} (notReading : ∀ entry a out, phase ≠ .reading entry a out)
    (put : ∀ entry str, phase = .copied entry str → (entry, str) ∈ m.puts) :
    MachineOk contextLen size ((m.readUnlock t).setThread t phase) := by
  have stays : ∀ {readers : List Nat} {u : Nat}, u ∈ readers → u ≠ t →
      u ∈ readers.filter fun reader => reader != t := by
    intro readers u member other
    exact List.mem_filter.mpr ⟨member, bne_iff_ne.mpr other⟩
  constructor
  · refine { ok.strings with retired := ?_, retiredOnce := ?_ }
    · intro r gone
      obtain ⟨old, member, equal⟩ := List.mem_map.mp gone
      rw [← equal]
      exact ok.strings.retired old member
    · have same : ((m.readUnlock t).setThread t phase).strings.retired.map RetiredCache.cache =
          m.strings.retired.map RetiredCache.cache := by
        simp only [Sid2strMachine.setThread, Sid2strMachine.readUnlock, List.map_map]
        rfl
      rw [same]
      exact ok.strings.retiredOnce
  · intro u entry a out place
    simp only [Sid2strMachine.setThread, Function.update_apply] at place
    split at place
    · exact absurd place (notReading entry a out)
    · rename_i other
      obtain ⟨reader, object, held⟩ := ok.reading u entry a out place
      refine ⟨stays reader other, object, ?_⟩
      cases held with
      | inl listed => exact .inl listed
      | inr waiting =>
        obtain ⟨r, gone, same, waits⟩ := waiting
        exact .inr ⟨_, List.mem_map_of_mem gone, same, stays waits other⟩
  · intro u entry str place
    simp only [Sid2strMachine.setThread, Function.update_apply] at place
    split at place
    · exact put entry str place
    · exact ok.copied u entry str place
  · exact ok.answers

/-- An object nobody reads any more is freed. -/
theorem MachineOk.free (ok : MachineOk contextLen size m) {cache : Nat}
    (gone : { cache, readers := [] } ∈ m.strings.retired) :
    MachineOk contextLen size { m with strings := { m.strings with
      objects := m.strings.objects.free cache
      retired := m.strings.retired.filter fun r => r.cache != cache } } := by
  have unlisted := (ok.strings.retired _ gone).1
  have alone : ∀ r ∈ m.strings.retired, r.cache = cache → r = { cache, readers := [] } :=
    fun r member same => List.inj_on_of_nodup_map ok.strings.retiredOnce member gone same
  have kept : ∀ {a : Nat} {o : SidtabStrCache ε}, a ≠ cache → m.strings.objects.get a = some o →
      (m.strings.objects.free cache).get a = some o :=
    fun other here => (Heap.get_free_other _ other).trans here
  constructor
  · constructor
    · exact ok.strings.slots
    · exact ok.strings.once
    · intro a listed
      obtain ⟨o, here⟩ := ok.strings.alive a listed
      exact ⟨o, kept (fun equal => unlisted (equal ▸ listed)) here⟩
    · intro entry a pointed
      obtain ⟨listed, o, here, parent⟩ := ok.strings.owned entry a pointed
      exact ⟨listed, o, kept (fun equal => unlisted (equal ▸ listed)) here, parent⟩
    · intro a listed o here
      have other : a ≠ cache := fun equal => unlisted (equal ▸ listed)
      rw [Heap.get_free_other _ other] at here
      exact ok.strings.owner a listed o here
    · exact ok.strings.mapped
    · intro r member
      obtain ⟨old, other⟩ := List.mem_filter.mp member
      obtain ⟨off, o, here⟩ := ok.strings.retired r old
      exact ⟨off, o, kept (bne_iff_ne.mp other) here⟩
    · exact ok.strings.retiredOnce.sublist (List.filter_sublist.map _)
    · intro a o here
      rw [Heap.get_free] at here
      split at here
      · cases here
      · exact ok.strings.content a o here
  · intro t entry a out place
    obtain ⟨reader, ⟨o, here, parent⟩, held⟩ := ok.reading t entry a out place
    have other : a ≠ cache := by
      intro equal
      cases held with
      | inl listed => exact unlisted (equal ▸ listed)
      | inr waiting =>
        obtain ⟨r, member, same, waits⟩ := waiting
        rw [alone r member (same.trans equal)] at waits
        cases waits
    refine ⟨reader, ⟨o, kept other here, parent⟩, ?_⟩
    cases held with
    | inl listed => exact .inl listed
    | inr waiting =>
      obtain ⟨r, member, same, waits⟩ := waiting
      refine .inr ⟨r, List.mem_filter.mpr ⟨member, ?_⟩, same, waits⟩
      rw [bne_iff_ne, same]
      exact other
  · exact ok.copied
  · exact ok.answers

/-- One step of any thread. -/
theorem sid2strStep_ok [DecidableEq ε] {action : Sid2strAction ε}
    (ok : MachineOk contextLen (size + 1) m) (stepped : sid2strStep contextLen m action = some m') :
    MachineOk contextLen (size + 1) m' := by
  cases action with
  | put entry str allocated =>
    simp only [sid2strStep] at stepped
    split at stepped
    · rename_i fresh
      have more := ok.more (entry, str)
      obtain ⟨strings, put, okAfter, keeps⟩ :=
        sidtabSid2strPut_ok more.strings List.mem_cons_self fresh m.readers
      dsimp only at put
      rw [put, Option.map_some] at stepped
      cases stepped
      exact more.keeps okAfter keeps
    · cases stepped
  | getLoad t entry out =>
    simp only [sid2strStep] at stepped
    split at stepped
    · split at stepped
      · cases stepped
        exact ok.answer (by intro len out result; cases result)
      · split at stepped
        · cases stepped
          exact ok.answer (by intro len out result; cases result)
        · rename_i pointed
          cases stepped
          exact ok.load pointed
    · cases stepped
  | getCopy t copied =>
    simp only [sid2strStep] at stepped
    split at stepped
    · rename_i entry cache out place
      obtain ⟨-, ⟨o, here, parent⟩, -⟩ := ok.reading t entry cache out place
      rw [here] at stepped
      have put := ok.strings.content cache o here
      rw [parent] at put
      have idle : MachineOk contextLen (size + 1) ((m.readUnlock t).setThread t .idle) := by
        apply ok.unload
        · intro other a flag same
          cases same
        · intro other str same
          cases same
      dsimp only at stepped
      split at stepped
      · split at stepped
        · cases stepped
          apply ok.unload
          · intro other a flag same
            cases same
          · intro other str same
            cases same
            exact put
        · cases stepped
          exact idle.answer (by intro len out result; cases result)
      · cases stepped
        apply idle.answer
        intro len out result
        cases result
        exact ⟨o.str, put, rfl, by intro copy same; cases same⟩
    · cases stepped
  | getPut t allocated =>
    simp only [sid2strStep] at stepped
    split at stepped
    · rename_i entry str place
      have put := ok.copied t entry str place
      split at stepped
      · rename_i fresh
        obtain ⟨strings, done, okAfter, keeps⟩ := sidtabSid2strPut_ok ok.strings put fresh m.readers
        rw [done, Option.map_some] at stepped
        cases stepped
        apply ((ok.keeps okAfter keeps).rest t).answer
        intro len out result
        cases result
        exact ⟨str, put, rfl, by intro copy same; cases same; rfl⟩
      · cases stepped
    · cases stepped
  | rcuFree cache =>
    simp only [sid2strStep] at stepped
    split at stepped
    · rename_i gone
      cases stepped
      exact ok.free gone
    · cases stepped

end Steps

/-- The entry whose string an object holds. -/
def parentOf (s : Sid2strCache ε) (cache : Nat) : Option ε :=
  (s.objects.get cache).map SidtabStrCache.parent

/-- What holds between any two steps: slots and list make up the configured size, an entry
points to an object exactly when one element of the list is its own, which is that object,
entries without a mapped context point to none, and a get returned what was put. No
pointer leads to nothing: every put is defined and every read finds its object. -/
structure CacheRight [DecidableEq ε] (contextLen : ε → U32) (size : Nat) (m : Sid2strMachine ε) :
    Prop where
  slots : m.strings.cacheFreeSlots + m.strings.cacheLruList.length = size
  once : m.strings.cacheLruList.Nodup
  pointer : ∀ entry, m.strings.cache entry ≠ none ↔
    ∃! a, a ∈ m.strings.cacheLruList ∧ parentOf m.strings a = some entry
  own : ∀ entry a, m.strings.cache entry = some a →
    a ∈ m.strings.cacheLruList ∧ parentOf m.strings a = some entry
  unmapped : ∀ entry, contextLen entry ≠ 0 → m.strings.cache entry = none
  returned : ∀ answer ∈ m.answers, ∀ len out, answer.result = .ok (len, out) →
    ∃ str, (answer.entry, str) ∈ m.puts ∧ len = str.length ∧ ∀ copy, out = some copy → copy = str
  defined : ∀ entry str allocated, freshCache m.strings allocated = true →
    ∃ after, sidtabSid2strPut contextLen m.readers m.strings entry str allocated = some after
  found : ∀ t entry a out, m.thread t = .reading entry a out →
    ∃ o, m.strings.objects.get a = some o

theorem MachineOk.right [DecidableEq ε] {m : Sid2strMachine ε}
    (ok : MachineOk contextLen (size + 1) m) : CacheRight contextLen (size + 1) m := by
  have owned : ∀ entry a, m.strings.cache entry = some a →
      a ∈ m.strings.cacheLruList ∧ parentOf m.strings a = some entry := by
    intro entry a pointed
    obtain ⟨listed, o, here, parent⟩ := ok.strings.owned entry a pointed
    exact ⟨listed, by rw [parentOf, here, Option.map_some, parent]⟩
  have owner : ∀ entry a, a ∈ m.strings.cacheLruList → parentOf m.strings a = some entry →
      m.strings.cache entry = some a := by
    intro entry a listed parent
    obtain ⟨o, here, equal⟩ := Option.map_eq_some_iff.mp parent
    rw [← equal]
    exact ok.strings.owner a listed o here
  constructor
  · exact ok.strings.slots
  · exact ok.strings.once
  · intro entry
    constructor
    · intro pointed
      obtain ⟨a, here⟩ := Option.ne_none_iff_exists'.mp pointed
      refine ⟨a, owned entry a here, ?_⟩
      rintro b ⟨listed, parent⟩
      have there := owner entry b listed parent
      rw [here] at there
      cases there
      rfl
    · rintro ⟨a, ⟨listed, parent⟩, -⟩
      rw [owner entry a listed parent]
      exact Option.some_ne_none a
  · exact owned
  · intro entry mapped
    cases pointed : m.strings.cache entry with
    | none => rfl
    | some a => exact absurd (ok.strings.mapped entry a pointed) mapped
  · exact ok.answers
  · intro entry str allocated fresh
    obtain ⟨after, put, -⟩ := sidtabSid2strPut_ok (ok.more (entry, str)).strings
      List.mem_cons_self fresh m.readers
    exact ⟨after, put⟩
  · intro t entry a out place
    obtain ⟨-, ⟨o, here, -⟩, -⟩ := ok.reading t entry a out place
    exact ⟨o, here⟩

/-- Every interleaving of puts and gets, with any allocations failing. -/
theorem sid2str_right [DecidableEq ε] (contextLen : ε → U32) (size : Nat) (positive : 0 < size)
    (m : Sid2strMachine ε) (reached : (sid2strMachine contextLen size).Reachable Machine.free m) :
    CacheRight contextLen size m := by
  obtain ⟨room, rfl⟩ : ∃ room, size = room + 1 := ⟨size - 1, by omega⟩
  apply MachineOk.right
  apply reached.invariant
  · intro start begun
    exact MachineOk.start begun
  · intro before action after ok _ stepped
    exact sid2strStep_ok ok stepped

/-- A table just set up. -/
def freshMachine (size : Nat) : Sid2strMachine Nat :=
  { strings := .init size, thread := fun _ => .idle, readers := [], puts := [], answers := [] }

/-- A read of entry 0 that is evicted meanwhile, put again and freed. -/
def evictedRead : List (Sid2strAction Nat) :=
  [.put 0 [97] (some 0), .getLoad 1 0 true, .put 5 [98] (some 1), .getCopy 1 true,
    .rcuFree 0, .getPut 1 (some 0)]

theorem sid2str_right_evicted : ∃ m,
    (sid2strMachine (fun _ => 0) 1).exec (freshMachine 1) evictedRead = some m ∧
      CacheRight (fun _ => 0) 1 m := by
  have runs : ((sid2strMachine (fun _ => 0) 1).exec (freshMachine 1) evictedRead).isSome := by
    decide
  obtain ⟨m, ran⟩ := Option.isSome_iff_exists.mp runs
  refine ⟨m, ran, sid2str_right _ 1 (by decide) m ⟨freshMachine 1, ?_, Machine.exec_reaches ran⟩⟩
  exact ⟨rfl, fun _ => rfl, rfl, rfl, rfl⟩

end Ksrc.Guarantees.SidtabStrings

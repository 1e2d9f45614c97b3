import Ksrc.Guarantees.SidtabSearch

/-!
# The two writers of a conversion target

Source: `security/selinux/ss/sidtab.c` (`sidtab_context_to_sid` under `s->convert`,
`sidtab_convert_tree`, `sidtab_convert_hashtable`). What a live insertion, one entry of
the walk, and the fill of the hash table do to the target.
-/
namespace Ksrc.Guarantees.SidtabWalk

open Library Source SidtabTree SidtabTable
  SidtabCalls SidtabSearch

variable {j : Jhash} {s s' target target' : Sidtab}

section Insertion

variable {context : Context} {allocs targetAllocs : List Bool} {fault : Option Context}
  {converted : ConvertOutcome}

/-- A target that a call leaves as it was, but for new nodes and a write into the slot
of its next index. -/
structure TargetKept (j : Jhash) (target target' : Sidtab) : Prop where
  same : Unchanged j target target'
  table : ∀ first, TableOk j target first → TableOk j target' first

theorem TargetKept.refl (j : Jhash) (target : Sidtab) : TargetKept j target target :=
  ⟨.refl j target, fun _ ok => ok⟩

/-- The live conversion of a new context either appends it to the target or fails and
keeps the target. -/
theorem newConverted_effect {first : U32} {result : Except Errno Unit}
    (ok : TableOk j target first) (below : target.count.toNat + 1 < 2 ^ 32)
    (new : NewConverted j target target.count converted allocs result target') :
    (∃ e, result = .error e ∧ TargetKept j target target') ∨
      ∃ context dst, result = .ok () ∧ converted = .ok context ∧
        RadixTree.Shaped sidtabInnerShift target'.tree ∧ Appended j target target' context dst := by
  cases new with
  | noLeaf tree rest lookup =>
    exact .inl ⟨_, rfl, (allocated_unchanged ok lookup).1,
      fun _ ok => (allocated_unchanged ok lookup).2⟩
  | failed dst tree rest e left entry lookup isError =>
    exact .inl ⟨_, rfl, (written_unchanged ok below lookup entry).1,
      fun _ ok => (written_unchanged ok below lookup entry).2⟩
  | added dst tree rest context linked lookup isOk link =>
    have fresh := append_fresh ok below lookup
    unfold withEntry at link
    rw [hashAdd_fresh (by simpa using fresh)] at link
    cases link
    have app := appended_spec ok below lookup context
    have shaped := appended_shaped ok lookup context (j := j)
    simp only [appended] at app shaped
    exact .inr ⟨context, dst, rfl, isOk, by simpa using shaped, by simpa using app⟩

/-- What a call does to the target: it keeps it, unless the context is new and the table
is under conversion; then the converted context is appended there. -/
theorem sidtabContextToSid_target {first : U32} {result : Except Errno U32}
    (follows : s.converting = true → target.count = s.count ∧ TableOk j target first)
    (done : sidtabContextToSid j s target context allocs targetAllocs fault converted =
      some (result, s', target')) :
    (s'.count = s.count ∧ TargetKept j target target') ∨
      (s'.count = s.count + 1 ∧ if s.converting then
          ∃ context' dst', converted = .ok context' ∧
            RadixTree.Shaped sidtabInnerShift target'.tree ∧
            Appended j target target' context' dst'
        else target' = target) := by
  cases sidtabContextToSid_cases done with
  | found known => exact .inl ⟨rfl, .refl j _⟩
  | frozen unknown => exact .inl ⟨rfl, .refl j _⟩
  | full unknown => exact .inl ⟨rfl, .refl j _⟩
  | noLeaf tree rest unknown lookup => exact .inl ⟨rfl, .refl j _⟩
  | notCopied dst tree rest entry unknown room lookup => exact .inl ⟨by simp, .refl j _⟩
  | notConverted dst tree rest entry e target' unknown room lookup live new =>
    obtain ⟨sameCount, okTarget⟩ := follows live
    have below : target.count.toNat + 1 < 2 ^ 32 := sameCount ▸ count_below room
    refine .inl ⟨by simp, ?_⟩
    rw [← sameCount] at new
    rcases newConverted_effect okTarget below new with ⟨e, -, kept⟩ | ⟨context', dst', isOk, -⟩
    · exact kept
    · cases isOk
  | created dst tree rest linked target' unknown thawed room lookup new link =>
    obtain ⟨rfl, -⟩ := hashAdd_some link
    refine .inr ⟨rfl, ?_⟩
    by_cases live : s.converting = true
    · rw [if_pos live] at new ⊢
      obtain ⟨sameCount, okTarget⟩ := follows live
      have below : target.count.toNat + 1 < 2 ^ 32 := sameCount ▸ count_below room
      rw [← sameCount] at new
      rcases newConverted_effect okTarget below new with
        ⟨e, isError, -⟩ | ⟨context', dst', -, answer, shaped, app⟩
      · cases isError
      · exact ⟨context', dst', answer, shaped, app⟩
    · rw [if_neg live] at new ⊢
      exact new

end Insertion

section Walk

/-- The target has at an index what the source's context there was converted to. -/
def ConvertedAt {ε : Type} (convert : ε → Context → ConvertOutcome) (s target : Sidtab)
    (i : U32) : Prop :=
  ∃ src dst env, lookupRef s.tree i = some src ∧ lookupRef target.tree i = some dst ∧
    convert env (s.deref src).context = .ok (target.deref dst).context

variable {level : Nat} {pos : U32} {allocs : List Bool} {converted : Context → ConvertOutcome}

/-- What one entry of the walk does to the target. -/
structure Walked (s target target' : Sidtab) (pos : U32)
    (converted : Context → ConvertOutcome) : Prop where
  shaped : RadixTree.Shaped sidtabInnerShift target'.tree
  count : target'.count = target.count
  chains : target'.contextToSid = target.contextToSid
  entry : ∃ src dst, lookupRef s.tree pos = some src ∧ lookupRef target'.tree pos = some dst ∧
    converted (s.deref src).context = .ok (target'.deref dst).context
  keeps : ∀ i, i ≠ pos → i.toNat + 1 < 2 ^ 32 → ∀ r, lookupRef target.tree i = some r →
    lookupRef target'.tree i = some r ∧ target'.deref r = target.deref r

/-- The nodes an entry of the walk adds, and where its slot then is. -/
theorem descendAlloc_lookupRef {t t' : RadixTree SidtabEntry} {root leaf : Nat} {count : U32}
    {rest : List Bool} (shaped : RadixTree.Shaped sidtabInnerShift t)
    (levelEq : sidtabLevelFromCount count = some level) (here : t.roots level = some root)
    (less : pos < count)
    (done : RadixTree.descendAlloc sidtabInnerShift zeroEntry level
      (pos.toNat / sidtabLeafEntries) root t allocs = (some leaf, t', rest)) :
    RadixTree.Extends t t' ∧ RadixTree.Shaped sidtabInnerShift t' ∧
      lookupRef t' pos = some (.leaf leaf (pos.toNat % sidtabLeafEntries)) := by
  obtain ⟨name, named⟩ := shaped.named
  have spec := RadixTree.descendAlloc_spec zeroEntry (p := pos.toNat / sidtabLeafEntries) named
    (named.root _ _ here) allocs
  rw [done] at spec
  obtain ⟨extended, roots, named', found⟩ := spec
  have shaped' : RadixTree.Shaped sidtabInnerShift t' :=
    ⟨named', shaped.stacked.of_extends extended roots⟩
  refine ⟨extended, shaped', ?_⟩
  have here' := extended.root level root here
  rw [lookupRef_level shaped' levelEq here' less, RadixTree.leafAt, here', Option.bind_some,
    found leaf rfl, Option.map_some]

/-- One entry of the walk: with both roots there it returns, and on success the entry is
converted and every other one is kept. -/
theorem sidtabConvertEntry_spec (allocs : List Bool) (converted : Context → ConvertOutcome)
    {root root' : Nat} {count : U32} {src : EntryRef}
    (shaped : RadixTree.Shaped sidtabInnerShift s.tree)
    (shaped' : RadixTree.Shaped sidtabInnerShift target.tree)
    (levelEq : sidtabLevelFromCount count = some level) (here : s.tree.roots level = some root)
    (here' : target.tree.roots level = some root') (less : pos < count)
    (found : lookupRef s.tree pos = some src) :
    ∃ result target', sidtabConvertEntry s target level pos allocs converted =
        some (result, target') ∧
      (result = .ok () → Walked s target target' pos converted) := by
  have below : pos.toNat + 1 < 2 ^ 32 := below_of_lt less
  have source := lookupRef_level shaped levelEq here less
  rw [found] at source
  obtain ⟨leafSrc, leafEq, refEq⟩ := Option.map_eq_some_iff.mp source.symm
  subst refEq
  unfold sidtabConvertEntry
  simp only [leafEq, here']
  cases done : RadixTree.descendAlloc sidtabInnerShift zeroEntry level
      (pos.toNat / sidtabLeafEntries) root' target.tree allocs with
  | mk leaf out =>
    obtain ⟨t', rest⟩ := out
    cases leaf with
    | none => exact ⟨_, _, rfl, fun failed => by cases failed⟩
    | some leaf =>
      obtain ⟨extended, shapedNew, place⟩ :=
        descendAlloc_lookupRef shaped' levelEq here' less done
      cases answer : converted (s.deref (.leaf leafSrc (pos.toNat % sidtabLeafEntries))).context with
      | error failure =>
        obtain ⟨e, left⟩ := failure
        exact ⟨_, _, rfl, fun failed => by cases failed⟩
      | ok context =>
        refine ⟨_, _, rfl, fun _ => ?_⟩
        refine ⟨write_shaped _ _ shapedNew, by simp, by simp,
          ⟨_, .leaf leaf (pos.toNat % sidtabLeafEntries), found, ?_, ?_⟩, ?_⟩
        · rw [write_lookupRef]
          exact place
        · rw [answer, write_deref_same]
        · intro i apart belowI r foundI
          have still := lookupRef_extends extended foundI
          have differs : r ≠ .leaf leaf (pos.toNat % sidtabLeafEntries) := by
            rintro rfl
            exact apart (lookupRef_injective shapedNew belowI below still place)
          obtain ⟨leafI, rfl⟩ := lookupRef_isLeaf foundI
          refine ⟨by rw [write_lookupRef]; exact still, ?_⟩
          rw [write_deref_other _ _ differs]
          have used := lookupRef_used shaped' belowI foundI
          simp only [Sidtab.deref, extended.slot leafI used]

end Walk

section Fill

/-- The table during the fill of its chains: the indices up to `i` and from `c` on are
complete and linked, and every index has its slot. -/
structure Filling (j : Jhash) (s : Sidtab) (i c : Nat) : Prop where
  shaped : RadixTree.Shaped sidtabInnerShift s.tree
  present : ∀ x, x < s.count → ∃ r, lookupRef s.tree x = some r
  entry : ∀ x r, x < s.count → (x.toNat < i ∨ c ≤ x.toNat) → lookupRef s.tree x = some r →
    EntryOk j (s.deref r) x ∧ (j.hashMin (s.deref r).hash, r) ∈ s.contextToSid
  leaves : ∀ node ∈ s.contextToSid, ∀ a slot, node.2 = .leaf a slot →
    ∃ x, x < s.count ∧ (x.toNat < i ∨ c ≤ x.toNat) ∧ lookupRef s.tree x = some node.2
  once : (s.contextToSid.map Prod.snd).Nodup

/-- Before the loop nothing below `c` is linked. -/
theorem Filling.of_table {c : U32} (ok : TableOk j s c)
    (present : ∀ x, x < s.count → ∃ r, lookupRef s.tree x = some r) : Filling j s 0 c.toNat := by
  refine ⟨ok.shaped, present, fun x r less range found => ?_, fun node member a slot ref => ?_,
    ok.once⟩
  · have above : c ≤ x := by
      rw [BitVec.le_def]
      omega
    obtain ⟨r', found', entry, linked⟩ := ok.entry x above less
    rw [found, Option.some.injEq] at found'
    subst found'
    exact ⟨entry, linked⟩
  · obtain ⟨x, above, less, found⟩ := ok.leaves node member a slot ref
    rw [BitVec.le_def] at above
    exact ⟨x, less, .inr above, found⟩

/-- After the loop everything is. -/
theorem Filling.table {c : Nat} (filled : Filling j s c c) : TableOk j s 0 := by
  refine ⟨filled.shaped, fun x _ less => ?_, fun node member a slot ref => ?_, filled.once⟩
  · obtain ⟨r, found⟩ := filled.present x less
    exact ⟨r, found, filled.entry x r less (Nat.lt_or_ge _ _) found⟩
  · obtain ⟨x, less, -, found⟩ := filled.leaves node member a slot ref
    exact ⟨x, zero_le_index x, less, found⟩

/-- What the fill keeps: the places and the contexts of all entries. -/
structure ContextsKept (s s' : Sidtab) : Prop where
  count : s'.count = s.count
  places : ∀ x, lookupRef s'.tree x = lookupRef s.tree x
  contexts : ∀ r, (s'.deref r).context = (s.deref r).context

theorem ContextsKept.trans {s'' : Sidtab} (first : ContextsKept s s')
    (second : ContextsKept s' s'') : ContextsKept s s'' :=
  ⟨second.count.trans first.count, fun x => (second.places x).trans (first.places x),
    fun r => (second.contexts r).trans (first.contexts r)⟩

/-- One round of the loop. -/
theorem fill_step {i c : Nat} {index : U32} {r : EntryRef} (filling : Filling j s i c)
    (value : index.toNat = i) (inside : i < c) (less : index < s.count)
    (found : lookupRef s.tree index = some r) :
    let context := (s.deref r).context
    let hash := contextComputeHash j context
    let written := s.write r { sid := indexToSid index, hash, context }
    ∃ s', written.hashAdd (j.hashMin hash) r = some s' ∧ Filling j s' (i + 1) c ∧
      ContextsKept s s' := by
  intro context hash written
  have other : ∀ {x r'}, x < s.count → x ≠ index → lookupRef s.tree x = some r' → r' ≠ r := by
    intro x r' lessX apart foundX same
    subst same
    exact apart (lookupRef_injective filling.shaped (below_of_lt lessX) (below_of_lt less) foundX
      found)
  have fresh : ∀ node ∈ s.contextToSid, node.2 ≠ r := by
    intro node member same
    obtain ⟨leaf, isLeaf⟩ := lookupRef_isLeaf found
    obtain ⟨x, lessX, range, foundX⟩ := filling.leaves node member _ _ (same.trans isLeaf)
    have apart : x ≠ index := by
      rintro rfl
      omega
    exact other lessX apart foundX same
  refine ⟨_, hashAdd_fresh (by simpa [written] using fresh), ?_, ?_⟩
  · refine ⟨write_shaped _ _ filling.shaped, ?_, ?_, ?_, ?_⟩
    · intro x lessX
      simp only [written, write_lookupRef, write_count] at lessX ⊢
      exact filling.present x lessX
    · intro x r' lessX range foundX
      simp only [written, write_count, write_lookupRef] at lessX foundX
      by_cases same : x = index
      · subst same
        rw [found, Option.some.injEq] at foundX
        subst foundX
        have content : written.deref r = { sid := indexToSid x, hash, context } :=
          write_deref_same _ _ _
        change EntryOk j (written.deref r) x ∧
          (j.hashMin (written.deref r).hash, r) ∈ (j.hashMin hash, r) :: written.contextToSid
        rw [content]
        exact ⟨⟨rfl, rfl⟩, List.mem_cons_self⟩
      · have old : x.toNat < i ∨ c ≤ x.toNat := by
          have apart : x.toNat ≠ i := by
            intro equal
            exact same (BitVec.eq_of_toNat_eq (equal.trans value.symm))
          omega
        have content : written.deref r' = s.deref r' :=
          write_deref_other _ _ (other lessX same foundX)
        change EntryOk j (written.deref r') x ∧
          (j.hashMin (written.deref r').hash, r') ∈ (j.hashMin hash, r) :: written.contextToSid
        rw [content]
        obtain ⟨entry, linked⟩ := filling.entry x r' lessX old foundX
        exact ⟨entry, List.mem_cons_of_mem _ (by simpa [written] using linked)⟩
    · intro node member a slot ref
      simp only [written, write_count, write_lookupRef, write_contextToSid] at member ⊢
      rcases List.mem_cons.mp member with rfl | old
      · exact ⟨index, less, .inl (by omega), found⟩
      · obtain ⟨x, lessX, range, foundX⟩ := filling.leaves node old a slot ref
        exact ⟨x, lessX, by omega, foundX⟩
    · simp only [written, write_contextToSid, List.map_cons, List.nodup_cons]
      refine ⟨?_, filling.once⟩
      intro member
      obtain ⟨node, insideChain, same⟩ := List.mem_map.mp member
      exact fresh node insideChain same
  · refine ⟨by simp [written], fun x => by simp [written], fun r' => ?_⟩
    change (written.deref r').context = (s.deref r').context
    by_cases same : r' = r
    · subst same
      rw [write_deref_same]
    · rw [write_deref_other _ _ same]

/-- The loop of `sidtab_convert_hashtable` returns, links every index below `c`, and
keeps the contexts. -/
theorem sidtabConvertHashtable_spec {left i c : Nat} (filling : Filling j s i c)
    (rounds : i + left = c) (most : c ≤ s.count.toNat) :
    ∃ s', sidtabConvertHashtable j left i s = some s' ∧ Filling j s' c c ∧ ContextsKept s s' := by
  induction left generalizing i s with
  | zero =>
    rw [Nat.add_zero] at rounds
    subst rounds
    exact ⟨s, rfl, filling, rfl, fun _ => rfl, fun _ => rfl⟩
  | succ left ih =>
    have bound := s.count.isLt
    have value : (BitVec.ofNat 32 i).toNat = i := by
      rw [BitVec.toNat_ofNat]
      exact Nat.mod_eq_of_lt (by omega)
    have less : BitVec.ofNat 32 i < s.count := by
      rw [BitVec.lt_def, value]
      omega
    obtain ⟨r, found⟩ := filling.present _ less
    obtain ⟨tree, rest, lookup⟩ := sidtabDoLookup_of_ref found
    obtain ⟨s₁, added, filling₁, kept₁⟩ := fill_step filling value (by omega) less found
    obtain ⟨s₂, done, filling₂, kept₂⟩ := ih filling₁ (by omega) (by rw [kept₁.count]; exact most)
    refine ⟨s₂, ?_, filling₂, kept₁.trans kept₂⟩
    simp only [sidtabConvertHashtable, lookup, added, done]

end Fill

end Ksrc.Guarantees.SidtabWalk

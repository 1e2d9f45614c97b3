import Ksrc.Guarantees.SidtabSearch

/-!
# The SID table as a stable bijection

Source: `security/selinux/ss/sidtab.c` (`sidtab_set_initial`, `sidtab_context_to_sid`,
`sidtab_search_core`).

The initial SIDs are set first, then contexts are given SIDs in any order, with any
allocation failing; no conversion runs.
-/
namespace Ksrc.Guarantees.SidtabBijection

open Library Source SidtabTree SidtabTable
  SidtabCalls SidtabSearch

variable {ε : Type} {j : Jhash} {convert : ε → Context → ConvertOutcome}

section SetInitial

variable {s s' : Sidtab} {sid : U32} {context : Context} {fault : Option Context}
  {result : Except Errno Unit}

/-- What `sidtab_set_initial` leaves of a table: only the isid of its SID changes, and
its node is the only one that may be new. -/
structure InitialSet (s s' : Sidtab) (sid : U32) : Prop where
  tree : s'.tree = s.tree
  count : s'.count = s.count
  frozen : s'.frozen = s.frozen
  converting : s'.converting = s.converting
  others : ∀ k, k ≠ sid.toNat → s'.isids k = s.isids k
  set : (s.isids sid.toNat).set = true → (s'.isids sid.toNat).set = true
  number : (s.isids sid.toNat).entry.sid = sid → (s'.isids sid.toNat).entry.sid = sid
  chains : s'.contextToSid = s.contextToSid ∨ ∃ bucket,
    s'.contextToSid = (bucket, .isid sid.toNat) :: s.contextToSid ∧
      (∀ node ∈ s.contextToSid, node.2 ≠ .isid sid.toNat) ∧ sid ≠ 0 ∧
      sid.toNat ≤ secinitsidNum ∧ (s'.isids sid.toNat).set = true ∧
      (s'.isids sid.toNat).entry.sid = sid

theorem sidtabSetInitial_spec
    (done : sidtabSetInitial j s sid context fault = some (result, s')) : InitialSet s s' sid := by
  unfold sidtabSetInitial at done
  split at done
  · simp only [Option.some.injEq, Prod.mk.injEq] at done
    obtain ⟨-, rfl⟩ := done
    exact ⟨rfl, rfl, rfl, rfl, fun _ _ => rfl, id, id, .inl rfl⟩
  · rename_i range
    simp only [not_or, Nat.not_lt] at range
    split at done
    · simp only [Option.some.injEq, Prod.mk.injEq] at done
      obtain ⟨-, rfl⟩ := done
      exact ⟨rfl, rfl, rfl, rfl, fun k apart => by simp [Sidtab.write, apart],
        by simp [Sidtab.write], by simp [Sidtab.write], .inl rfl⟩
    · simp only at done
      split at done
      · obtain ⟨linked, added, outcome⟩ := Option.map_eq_some_iff.mp done
        obtain ⟨rfl, fresh⟩ := hashAdd_some added
        simp only [Prod.mk.injEq] at outcome
        obtain ⟨-, rfl⟩ := outcome
        refine ⟨rfl, rfl, rfl, rfl, fun k apart => by simp [Sidtab.write, apart],
          by simp [Sidtab.write], by simp [Sidtab.write], .inr ⟨_, rfl, fresh, range.1, range.2,
          by simp [Sidtab.write], by simp [Sidtab.write]⟩⟩
      · simp only [Option.some.injEq, Prod.mk.injEq] at done
        obtain ⟨-, rfl⟩ := done
        exact ⟨rfl, rfl, rfl, rfl, fun k apart => by simp [apart], by simp, by simp, .inl rfl⟩

theorem sidtabSetInitial_ok {first : U32} (ok : TableOk j s first) (done : InitialSet s s' sid) :
    TableOk j s' first := by
  have deref : ∀ a slot, s'.deref (.leaf a slot) = s.deref (.leaf a slot) := by
    intro a slot
    simp only [Sidtab.deref, done.tree]
  refine ⟨by rw [done.tree]; exact ok.shaped, fun i above less => ?_,
    fun node member a slot isLeaf => ?_, ?_⟩
  · rw [done.count] at less
    obtain ⟨r, found, entry, linked⟩ := ok.entry i above less
    obtain ⟨leaf, rfl⟩ := lookupRef_isLeaf found
    refine ⟨_, by rw [done.tree]; exact found, by rw [deref]; exact entry, ?_⟩
    rw [deref]
    rcases done.chains with same | ⟨bucket, added, -⟩
    · rw [same]
      exact linked
    · rw [added]
      exact List.mem_cons_of_mem _ linked
  · rw [done.tree, done.count]
    rcases done.chains with same | ⟨bucket, added, -⟩
    · rw [same] at member
      exact ok.leaves node member a slot isLeaf
    · rw [added] at member
      rcases List.mem_cons.mp member with rfl | old
      · cases isLeaf
      · exact ok.leaves node old a slot isLeaf
  · rcases done.chains with same | ⟨bucket, added, fresh, -⟩
    · rw [same]
      exact ok.once
    · rw [added, List.map_cons, List.nodup_cons]
      refine ⟨?_, ok.once⟩
      intro member
      obtain ⟨node, inside, equal⟩ := List.mem_map.mp member
      exact fresh node inside equal

theorem sidtabSetInitial_isids (ok : IsidsOk s) (done : InitialSet s s' sid) : IsidsOk s' := by
  have kept : ∀ node ∈ s.contextToSid, ∀ k, node.2 = .isid k → 0 < k ∧ k ≤ secinitsidNum ∧
      (s'.isids k).set = true ∧ (s'.isids k).entry.sid = BitVec.ofNat 32 k := by
    intro node member k ref
    obtain ⟨positive, most, set, number⟩ := ok node member k ref
    by_cases same : k = sid.toNat
    · subst same
      rw [BitVec.ofNat_toNat, BitVec.setWidth_eq] at number ⊢
      exact ⟨positive, most, done.set set, done.number number⟩
    · rw [done.others k same]
      exact ⟨positive, most, set, number⟩
  intro node member k ref
  rcases done.chains with same | ⟨bucket, added, -, real, most, set, number⟩
  · rw [same] at member
    exact kept node member k ref
  · rw [added] at member
    rcases List.mem_cons.mp member with rfl | old
    · simp only [EntryRef.isid.injEq] at ref
      subst ref
      refine ⟨?_, most, set, ?_⟩
      · rcases Nat.eq_zero_or_pos sid.toNat with zero | positive
        · exact absurd (BitVec.eq_of_toNat_eq zero) real
        · exact positive
      · rw [number, BitVec.ofNat_toNat, BitVec.setWidth_eq]
    · exact kept node old k ref

end SetInitial

/-- No conversion runs, and the initial SIDs are set before the first call. -/
def plainUse (s : SidtabSystem) : SidtabAction ε → Prop
  | .convertBegin _ _ => False
  | .setInitial _ _ _ => s.calls = []
  | _ => True

/-- The invariant of plain use: every SID handed out is the one its context still has,
and the entries from 0 to the count are those of the created contexts. -/
structure BijectionOk (j : Jhash) (s : SidtabSystem) : Prop where
  phase : s.phase = .idle
  plain : s.source.converting = false
  table : TableOk j s.source 0
  isids : IsidsOk s.source
  known : ∀ c sid, (c, Except.ok sid) ∈ s.calls → sid ≠ 0 ∧ sidOf j s.source c = sid
  total : s.source.count.toNat = s.created.length
  handed : ∀ i c, s.created[i]? = some c → ∃ r,
    lookupRef s.source.tree (BitVec.ofNat 32 i) = some r ∧ (s.source.deref r).context = c
  given : ∀ i c, s.created[i]? = some c →
    (c, Except.ok (indexToSid (BitVec.ofNat 32 i))) ∈ s.calls

section Run

variable {s s' : SidtabSystem}

theorem created_below (ok : BijectionOk j s) {i : Nat} {c : Context}
    (found : s.created[i]? = some c) : BitVec.ofNat 32 i < s.source.count ∧
      (BitVec.ofNat 32 i).toNat = i := by
  have less : i < s.created.length := (List.getElem?_eq_some_iff.mp found).1
  rw [← ok.total] at less
  have bound := s.source.count.isLt
  have value : (BitVec.ofNat 32 i).toNat = i := by
    rw [BitVec.toNat_ofNat]
    exact Nat.mod_eq_of_lt (by omega)
  exact ⟨by rw [BitVec.lt_def, value]; exact less, value⟩

theorem bijection_start (start : SidtabStart s) : BijectionOk j s := by
  obtain ⟨source, phase, calls, created⟩ := start
  refine ⟨phase, by rw [source]; rfl, by rw [source]; exact sidtabInit_ok j 0, ?_, ?_, ?_, ?_, ?_⟩
  · rw [source]
    intro node member
    cases member
  · rw [calls]
    intro c sid member
    cases member
  · rw [source, created]
    rfl
  · rw [created]
    intro i c found
    cases found
  · rw [created]
    intro i c found
    cases found

theorem bijection_setInitial {sid : U32} {context : Context} {fault : Option Context}
    (ok : BijectionOk j s) (early : s.calls = [])
    (stepped : sidtabSystemStep j convert s (.setInitial sid context fault) = some s') :
    BijectionOk j s' := by
  simp only [sidtabSystemStep] at stepped
  split at stepped
  · cases stepped
  · rename_i result source done
    simp only [Option.some.injEq] at stepped
    subst stepped
    have spec := sidtabSetInitial_spec done
    refine ⟨ok.phase, by rw [spec.converting]; exact ok.plain, sidtabSetInitial_ok ok.table spec,
      sidtabSetInitial_isids ok.isids spec, ?_, by rw [spec.count]; exact ok.total, ?_, ok.given⟩
    · intro c sid member
      simp only [early] at member
      cases member
    · intro i c found
      obtain ⟨r, place, content⟩ := ok.handed i c found
      obtain ⟨leaf, rfl⟩ := lookupRef_isLeaf place
      refine ⟨_, by rw [spec.tree]; exact place, ?_⟩
      simp only [Sidtab.deref, spec.tree] at content ⊢
      exact content

/-- Flags are the only thing that changes. -/
theorem bijection_flags (ok : BijectionOk j s) {frozen : Bool} :
    BijectionOk j { s with source := { s.source with frozen, converting := false },
                           phase := .idle } := by
  have keeps : KeepsEntries s.source { s.source with frozen, converting := false } :=
    fun i _ r found => ⟨found, by cases r <;> rfl⟩
  have same : Unchanged j s.source { s.source with frozen, converting := false } :=
    ⟨rfl, rfl, rfl, keeps⟩
  refine ⟨rfl, rfl, ok.table.of_keeps ok.table.shaped rfl rfl fun i _ less => keeps i less,
    ok.isids, ?_, ok.total, ?_, ok.given⟩
  · intro c sid member
    rw [sidOf_unchanged ok.table same]
    exact ok.known c sid member
  · intro i c found
    obtain ⟨r, place, content⟩ := ok.handed i c found
    obtain ⟨place', kept⟩ := keeps _ (created_below ok found).1 r place
    exact ⟨r, place', by rw [kept]; exact content⟩

theorem bijection_found {context : Context} {sid : U32} (ok : BijectionOk j s)
    (known : sidOf j s.source context = sid) (real : sid ≠ 0) {target : Sidtab} :
    BijectionOk j { s with target, calls := s.calls ++ [(context, .ok sid)] } := by
  refine ⟨ok.phase, ok.plain, ok.table, ok.isids, ?_, ok.total, ok.handed, ?_⟩
  · intro c sid' member
    rcases List.mem_append.mp member with old | new
    · exact ok.known c sid' old
    · simp only [List.mem_singleton, Prod.mk.injEq, Except.ok.injEq] at new
      obtain ⟨rfl, rfl⟩ := new
      exact ⟨real, known⟩
  · intro i c found
    exact List.mem_append_left _ (ok.given i c found)

theorem bijection_failed {context : Context} {e : Errno} {source target : Sidtab}
    (ok : BijectionOk j s) (same : Unchanged j s.source source) (table : TableOk j source 0)
    (converting : source.converting = s.source.converting) :
    BijectionOk j { s with source, target, calls := s.calls ++ [(context, .error e)] } := by
  refine ⟨ok.phase, converting.trans ok.plain, table, ?_, ?_, by rw [same.count]; exact ok.total,
    ?_, ?_⟩
  · intro node member k ref
    simp only [same.chains] at member
    rw [same.isids]
    exact ok.isids node member k ref
  · intro c sid member
    simp only [List.mem_append, List.mem_singleton, Prod.mk.injEq, reduceCtorEq, and_false,
      or_false] at member
    rw [sidOf_unchanged ok.table same]
    exact ok.known c sid member
  · intro i c found
    obtain ⟨r, place, content⟩ := ok.handed i c found
    obtain ⟨place', kept⟩ := same.keeps _ (created_below ok found).1 r place
    exact ⟨r, place', by rw [kept]; exact content⟩
  · intro i c found
    exact List.mem_append_left _ (ok.given i c found)

theorem bijection_created {context : Context} {dst : EntryRef} {source target : Sidtab}
    (ok : BijectionOk j s) (unknown : sidOf j s.source context = 0)
    (below : s.source.count.toNat + 1 < 2 ^ 32)
    (shaped : RadixTree.Shaped sidtabInnerShift source.tree)
    (app : Appended j s.source source context dst) :
    BijectionOk j { s with
      source, target
      calls := s.calls ++ [(context, .ok (indexToSid s.source.count))]
      created := s.created ++ [context] } := by
  have table : TableOk j source 0 := ok.table.append below (zero_le_index _) shaped app
  have count : source.count.toNat = s.source.count.toNat + 1 := by
    rw [app.count, toNat_succ below]
  have number : BitVec.ofNat 32 s.created.length = s.source.count := by
    rw [← ok.total, BitVec.ofNat_toNat, BitVec.setWidth_eq]
  have last : ∀ i c, (s.created ++ [context])[i]? = some c →
      s.created[i]? = some c ∨ (i = s.created.length ∧ c = context) := by
    intro i c found
    rw [List.getElem?_append] at found
    split at found
    · exact .inl found
    · rename_i beyond
      obtain ⟨less, value⟩ := List.getElem?_eq_some_iff.mp found
      simp only [List.length_singleton] at less
      exact .inr ⟨by omega, by simpa using value.symm⟩
  refine ⟨ok.phase, app.converting.trans ok.plain, table, ?_, ?_, ?_, ?_, ?_⟩
  · intro node member k ref
    simp only [app.chains] at member
    rw [app.isids]
    rcases List.mem_cons.mp member with rfl | old
    · obtain ⟨leaf, isLeaf⟩ := lookupRef_isLeaf app.here
      rw [isLeaf] at ref
      cases ref
    · exact ok.isids node old k ref
  · intro c sid member
    rw [sidOf_appended ok.table app]
    rcases List.mem_append.mp member with old | new
    · obtain ⟨real, known⟩ := ok.known c sid old
      refine ⟨real, ?_⟩
      split
      · rename_i same
        rw [← sidOf_congr same, unknown] at known
        exact absurd known.symm real
      · exact known
    · simp only [List.mem_singleton, Prod.mk.injEq, Except.ok.injEq] at new
      obtain ⟨rfl, rfl⟩ := new
      refine ⟨?_, by rw [if_pos (contextCmp_refl c)]⟩
      have small : s.source.count.toNat < sidtabLevelLimit := lookupRef_below below app.here
      intro zero
      have value := indexToSid_toNat small
      rw [zero] at value
      simp at value
  · simp only [count, ok.total, List.length_append, List.length_singleton]
  · intro i c found
    rcases last i c found with old | ⟨rfl, rfl⟩
    · obtain ⟨r, place, content⟩ := ok.handed i c old
      obtain ⟨place', kept⟩ := app.keeps _ (created_below ok old).1 r place
      exact ⟨r, place', by rw [kept]; exact content⟩
    · refine ⟨dst, by rw [number]; exact app.here, ?_⟩
      simp only [app.entry]
  · intro i c found
    rcases last i c found with old | ⟨rfl, rfl⟩
    · exact List.mem_append_left _ (ok.given i c old)
    · rw [number]
      exact List.mem_append_right _ List.mem_cons_self

/-- What the step of a call does to the system, from the effect of the call. -/
theorem bijection_call {context : Context} {allocs targetAllocs : List Bool}
    {fault : Option Context} {env : ε} (ok : BijectionOk j s)
    (stepped : sidtabSystemStep j convert s
      (.contextToSid context allocs targetAllocs fault env) = some s') : BijectionOk j s' := by
  simp only [sidtabSystemStep] at stepped
  split at stepped
  · cases stepped
  · rename_i result source target done
    cases stepped
    cases sidtabContextToSid_effect ok.table done with
    | found sid known real same =>
      subst same
      simp only [if_true]
      exact bijection_found ok known real
    | created dst unknown live below shaped app =>
      have moved : source.count ≠ s.source.count := by
        intro same
        have value := congrArg BitVec.toNat same
        rw [app.count, toNat_succ below] at value
        omega
      simp only [moved, if_false]
      exact bijection_created ok unknown below shaped app
    | failed e unknown same frozen converting table =>
      simp only [same.count, if_true]
      exact bijection_failed ok same (table 0 ok.table) converting

theorem bijection_step {a : SidtabAction ε} (ok : BijectionOk j s) (plain : plainUse s a)
    (stepped : sidtabSystemStep j convert s a = some s') : BijectionOk j s' := by
  cases a with
  | setInitial sid context fault => exact bijection_setInitial ok plain stepped
  | contextToSid context allocs targetAllocs fault env => exact bijection_call ok stepped
  | freeze =>
    simp only [sidtabSystemStep, ok.phase, Option.some.injEq] at stepped
    subst stepped
    exact bijection_flags ok
  | cancel =>
    simp only [sidtabSystemStep, ok.phase, Option.some.injEq] at stepped
    subst stepped
    exact bijection_flags ok
  | convertBegin isids allocs => exact absurd plain id
  | convertEntry allocs env => simp [sidtabSystemStep, ok.phase] at stepped
  | convertHashtable => simp [sidtabSystemStep, ok.phase] at stepped

/-- An SID above the initial ones was handed out first for a created context that
compares equal. -/
theorem call_created {c : Context} {sid : U32} (ok : BijectionOk j s)
    (called : (c, Except.ok sid) ∈ s.calls) (large : secinitsidNum < sid.toNat) :
    ∃ i c', s.created[i]? = some c' ∧ sid = indexToSid (BitVec.ofNat 32 i) ∧
      contextCmp c' c = true := by
  obtain ⟨real, known⟩ := ok.known c sid called
  obtain ⟨node, inside, found, number⟩ := sidOf_known (known ▸ real)
  rw [known] at number
  have ref := (chain_ref ok.table ok.isids inside).2
  rw [number, if_pos large] at ref
  obtain ⟨leaf, isLeaf⟩ := lookupRef_isLeaf ref
  obtain ⟨index, -, less, place, entry⟩ := leaf_entry ok.table inside isLeaf
  have inRange : index.toNat < s.created.length := by
    rw [← ok.total]
    exact less
  have value : BitVec.ofNat 32 index.toNat = index := by
    rw [BitVec.ofNat_toNat, BitVec.setWidth_eq]
  obtain ⟨r, place', content⟩ := ok.handed _ _ (List.getElem?_eq_getElem inRange)
  rw [value, place, Option.some.injEq] at place'
  subst place'
  refine ⟨index.toNat, _, List.getElem?_eq_getElem inRange, ?_, ?_⟩
  · rw [value, ← number, EntryOk.sid entry]
  · rw [← content]
    exact matches_cmp found

end Run

/-- The contract of a table in plain use, at one moment of a run: calls returned one
SID exactly for contexts that compare equal; the SIDs of new contexts are consecutive;
and each SID is found with the context it was created for. -/
structure StableBijection (s : SidtabSystem) : Prop where
  injective : ∀ c1 sid1 c2 sid2, (c1, Except.ok sid1) ∈ s.calls →
    (c2, Except.ok sid2) ∈ s.calls → (sid1 = sid2 ↔ contextCmp c1 c2 = true)
  consecutive : ∀ i c, s.created[i]? = some c →
    (c, Except.ok (indexToSid (BitVec.ofNat 32 i))) ∈ s.calls
  created : ∀ c sid, (c, Except.ok sid) ∈ s.calls → secinitsidNum < sid.toNat →
    ∃ i c', s.created[i]? = some c' ∧ sid = indexToSid (BitVec.ofNat 32 i) ∧
      contextCmp c' c = true
  total : s.source.count.toNat = s.created.length
  found : ∀ i c, s.created[i]? = some c → ∃ e, e.context = c ∧
    sidtabSearchEntryForce s.source (indexToSid (BitVec.ofNat 32 i)) = some (some e) ∧
    (c.len = 0 → sidtabSearchEntry s.source (indexToSid (BitVec.ofNat 32 i)) = some (some e))
  searched : ∀ c sid, (c, Except.ok sid) ∈ s.calls → ∃ e, contextCmp e.context c = true ∧
    sidtabSearchEntryForce s.source sid = some (some e) ∧
    (c.len = 0 → sidtabSearchEntry s.source sid = some (some e))

theorem len_of_cmp {c1 c2 : Context} (same : contextCmp c1 c2 = true) : c1.len = c2.len := by
  rw [contextCmp_iff] at same
  cases h1 : c1.str <;> cases h2 : c2.str <;>
    simp_all [Context.identity, Context.len]

theorem BijectionOk.stable {s : SidtabSystem} (ok : BijectionOk j s) : StableBijection s := by
  refine ⟨?_, ok.given, fun c sid called => call_created ok called, ok.total, ?_, ?_⟩
  · intro c1 sid1 c2 sid2 called1 called2
    obtain ⟨real1, known1⟩ := ok.known c1 sid1 called1
    obtain ⟨real2, known2⟩ := ok.known c2 sid2 called2
    rw [← known1, ← known2]
    exact sidOf_injective ok.table ok.isids (known1 ▸ real1)
  · intro i c created
    obtain ⟨r, place, content⟩ := ok.handed i c created
    obtain ⟨less, -⟩ := created_below ok created
    refine ⟨_, content, sidtabSearchCore_leaf less place (.inr rfl), ?_⟩
    intro mapped
    exact sidtabSearchCore_leaf less place (.inl (by rw [content]; exact mapped))
  · intro c sid called
    obtain ⟨real, known⟩ := ok.known c sid called
    obtain ⟨node, inside, found, number⟩ := sidOf_known (known ▸ real)
    rw [known] at number
    have cmp := matches_cmp found
    have search : ∀ force : Bool, (s.source.deref node.2).context.len = 0 ∨ force = true →
        sidtabSearchCore s.source sid force = some (some (s.source.deref node.2)) := by
      intro force shown
      rw [← number]
      exact sidtabSearchCore_chain ok.table ok.isids inside shown
    refine ⟨_, cmp, search true (.inr rfl), fun mapped => search false (.inl ?_)⟩
    rw [len_of_cmp cmp]
    exact mapped

/-- What a call that fails leaves as it was: the count, the answer of every search by
SID and of every search by context. -/
structure NothingMoved (j : Jhash) (s s' : Sidtab) : Prop where
  count : s'.count = s.count
  bySid : ∀ sid force, sidtabSearchCore s' sid force = sidtabSearchCore s sid force
  byContext : ∀ context, sidOf j s' context = sidOf j s context

/-- In every state of every plain run the contract holds; from there each call returns
while the count is below the limit of the level loop, and a call that fails moves
nothing. -/
theorem sidtab_stable_bijection {s : SidtabSystem}
    (run : (sidtabMachine j convert).Reachable plainUse s) :
    StableBijection s ∧
      (∀ context allocs targetAllocs fault env, s.source.count.toNat < sidtabLevelLimit →
        ∃ s', sidtabSystemStep j convert s
          (.contextToSid context allocs targetAllocs fault env) = some s') ∧
      (∀ context allocs targetAllocs fault env s' e, sidtabSystemStep j convert s
          (.contextToSid context allocs targetAllocs fault env) = some s' →
        s'.calls = s.calls ++ [(context, .error e)] → NothingMoved j s.source s'.source) := by
  have ok : BijectionOk j s := run.invariant (fun _ => bijection_start)
    fun _ _ _ ok plain stepped => bijection_step ok plain stepped
  refine ⟨ok.stable, ?_, ?_⟩
  · intro context allocs targetAllocs fault env small
    obtain ⟨result, source, done⟩ := sidtabContextToSid_returns s.target context allocs
      targetAllocs fault (convert env context) ok.table ok.plain small
    simp only [sidtabSystemStep, done]
    exact ⟨_, rfl⟩
  · intro context allocs targetAllocs fault env s' e stepped error
    simp only [sidtabSystemStep] at stepped
    split at stepped
    · cases stepped
    · rename_i result source target done
      cases stepped
      simp only [List.append_cancel_left_eq, List.cons.injEq, Prod.mk.injEq, true_and,
        and_true] at error
      subst error
      cases sidtabContextToSid_effect ok.table done with
      | failed _ unknown same frozen converting table =>
        exact ⟨same.count, sidtabSearchCore_unchanged ok.table same,
          sidOf_unchanged ok.table same⟩

/-- A small hash, and contexts that differ in their type. -/
def xorJhash : Jhash :=
  { words3 := fun a b c hash => a ^^^ b ^^^ c ^^^ hash
    words2 := fun a b hash => a ^^^ b ^^^ hash
    word1 := fun a hash => a ^^^ hash
    maps := fun _ hash => hash
    fullName := fun str => BitVec.ofNat 32 str.length
    hashMin := fun hash => hash.toNat % 512 }

def typeContext (type : U32) : Context := { contextInit with user := 1, role := 1, type }

/-- The string of a context the policy does not know. -/
def invalidContext : Context := { contextInit with str := some [117, 58, 114, 58, 116] }

def bootSidtab : SidtabSystem :=
  { source := sidtabInit, target := sidtabInit, phase := .idle, calls := [], created := [] }

def noConversion : Unit → Context → ConvertOutcome := fun _ _ => .error (.EINVAL, contextInit)

/-- One leaf is allocated by the first call. -/
def plainCall (context : Context) : SidtabAction Unit := .contextToSid context [true] [] none ()

/-- `SECINITSID_UNLABELED`, and a list of calls after it. -/
def unlabeledThen (calls : List (SidtabAction Unit)) : Option SidtabSystem :=
  (sidtabMachine xorJhash noConversion).exec bootSidtab
    (.setInitial 3 (typeContext 3) none :: calls)

theorem unlabeledThen_reachable {contexts : List Context} {s : SidtabSystem}
    (ran : unlabeledThen (contexts.map plainCall) = some s) :
    (sidtabMachine xorJhash noConversion).Reachable plainUse s := by
  simp only [unlabeledThen, Machine.exec, Option.bind_eq_some_iff] at ran
  obtain ⟨mid, stepped, ran⟩ := ran
  have first : (sidtabMachine xorJhash noConversion).Reaches plainUse bootSidtab mid :=
    Machine.Reaches.snoc Relation.ReflTransGen.refl (.setInitial 3 (typeContext 3) none) rfl stepped
  refine ⟨bootSidtab, ⟨rfl, rfl, rfl, rfl⟩, first.trans (Machine.exec_reaches_guard ran ?_)⟩
  intro a member s
  obtain ⟨context, -, rfl⟩ := List.mem_map.mp member
  trivial

/-- Three calls for two contexts: the third returns the SID of the first. -/
theorem sidtab_stable_bijection_calls : ∃ s,
    unlabeledThen ([typeContext 7, typeContext 8, typeContext 7].map plainCall) = some s ∧
      s.calls.map Prod.snd = [.ok 28, .ok 29, .ok 28] ∧ StableBijection s := by
  obtain ⟨s, ran, results⟩ : ∃ s,
      unlabeledThen ([typeContext 7, typeContext 8, typeContext 7].map plainCall) = some s ∧
        s.calls.map Prod.snd = [.ok 28, .ok 29, .ok 28] := ⟨_, rfl, rfl⟩
  exact ⟨s, ran, results, (sidtab_stable_bijection (unlabeledThen_reachable ran)).1⟩

/-- The context of an unmapped entry is not presented: the search for its SID gives the
entry of the unlabeled SID. And a second `sidtab_set_initial` of one SID adds its node
to a chain again. -/
theorem unmapped_context_presented_unlabeled :
    (∃ s, (sidtabMachine xorJhash noConversion).Reachable plainUse s ∧
      s.calls = [(invalidContext, .ok 28)] ∧ s.created = [invalidContext] ∧
      ∃ e, sidtabSearchEntry s.source 28 = some (some e) ∧ e.context = typeContext 3 ∧
        contextCmp e.context invalidContext = false) ∧
    (sidtabMachine xorJhash noConversion).exec bootSidtab
      [.setInitial 1 (typeContext 1) none, .setInitial 1 (typeContext 2) none] = none := by
  refine ⟨?_, rfl⟩
  obtain ⟨s, ran, calls, created, search⟩ : ∃ s,
      unlabeledThen ([invalidContext].map plainCall) = some s ∧
        s.calls = [(invalidContext, .ok 28)] ∧ s.created = [invalidContext] ∧
        ∃ e, sidtabSearchEntry s.source 28 = some (some e) ∧ e.context = typeContext 3 :=
    ⟨_, rfl, rfl, rfl, _, rfl, rfl⟩
  obtain ⟨e, found, unlabeled⟩ := search
  exact ⟨s, unlabeledThen_reachable ran, calls, created, e, found, unlabeled,
    by rw [unlabeled]; decide⟩

end Ksrc.Guarantees.SidtabBijection

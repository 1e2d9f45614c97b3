import Mathlib.Data.List.Nodup
import Ksrc.Guarantees.SidtabBijection
import Ksrc.Guarantees.SidtabWalk

/-!
# Live conversion of the SID table loses nothing

Source: `security/selinux/ss/sidtab.c` (`sidtab_convert`, `sidtab_context_to_sid`).

The walk fills the target up to the count of the snapshot, the insertions fill it from
there on, and neither touches what the other wrote. The hash chains of the part of the
walk are filled last, under the lock.
-/
namespace Ksrc.Guarantees.SidtabConversion

open Library Source SidtabTree SidtabTable
  SidtabCalls SidtabSearch SidtabWalk
  SidtabBijection

variable {ε : Type} {j : Jhash} {convert : ε → Context → ConvertOutcome}

/-- The invariant of the walk of `count` entries at `pos`: entries before `pos` and from
`count` on are converted, the latter are linked too. -/
structure WalkOk (j : Jhash) (convert : ε → Context → ConvertOutcome) (s : SidtabSystem)
    (count : U32) (level : Nat) (pos : U32) : Prop where
  live : s.source.converting = true
  level : sidtabLevelFromCount count = some level
  snapshot : count ≤ s.source.count
  total : s.target.count = s.source.count
  table : TableOk j s.target count
  last : 0 < count → ∃ r, lookupRef s.target.tree (count - 1) = some r
  inside : pos ≤ count
  converted : ∀ i, i < s.source.count → (i < pos ∨ count ≤ i) →
    ConvertedAt convert s.source s.target i

/-- The invariant after `sidtab_convert` returned 0. -/
structure ReturnedOk (j : Jhash) (convert : ε → Context → ConvertOutcome) (s : SidtabSystem) :
    Prop where
  live : s.source.converting = true
  total : s.target.count = s.source.count
  table : TableOk j s.target 0
  converted : ∀ i, i < s.source.count → ConvertedAt convert s.source s.target i

/-- The invariant of the system. -/
structure SystemOk (j : Jhash) (convert : ε → Context → ConvertOutcome) (s : SidtabSystem) :
    Prop where
  source : TableOk j s.source 0
  idle : s.phase = .idle → s.source.converting = false
  walking : ∀ count level pos, s.phase = .walking count level pos →
    WalkOk j convert s count level pos
  returned : s.phase = .returned → ReturnedOk j convert s

variable {s s' : SidtabSystem}

section Frame

variable {source source' target target' : Sidtab}

/-- What is converted stays converted while both tables keep their entries. -/
theorem convertedAt_keeps {i : U32} (here : ConvertedAt convert source target i)
    (less : i < source.count) (lessTarget : i < target.count) (first : KeepsEntries source source')
    (second : KeepsEntries target target') : ConvertedAt convert source' target' i := by
  obtain ⟨src, dst, env, placeSrc, placeDst, answer⟩ := here
  obtain ⟨placeSrc', keptSrc⟩ := first i less src placeSrc
  obtain ⟨placeDst', keptDst⟩ := second i lessTarget dst placeDst
  exact ⟨src, dst, env, placeSrc', placeDst', by rw [keptSrc, keptDst]; exact answer⟩

/-- Flags are not entries. -/
theorem flags_ok (frozen converting : Bool) {first : U32} (ok : TableOk j source first) :
    TableOk j { source with frozen, converting } first ∧
      Unchanged j source { source with frozen, converting } := by
  have keeps : KeepsEntries source { source with frozen, converting } :=
    fun i _ r found => ⟨found, by cases r <;> rfl⟩
  exact ⟨ok.of_keeps ok.shaped rfl rfl fun i _ less => keeps i less, rfl, rfl, rfl, keeps⟩

theorem initialSet_keeps {sid : U32} (spec : InitialSet source source' sid) :
    KeepsEntries source source' := by
  intro i _ r found
  obtain ⟨leaf, rfl⟩ := lookupRef_isLeaf found
  refine ⟨by rw [spec.tree]; exact found, ?_⟩
  simp only [Sidtab.deref, spec.tree]

end Frame

theorem system_start (start : SidtabStart s) : SystemOk j convert s := by
  obtain ⟨source, phase, calls, created⟩ := start
  refine ⟨by rw [source]; exact sidtabInit_ok j 0, fun _ => by rw [source]; rfl, ?_, ?_⟩
  · intro count level pos walking
    rw [phase] at walking
    cases walking
  · intro returned
    rw [phase] at returned
    cases returned

theorem system_setInitial {sid : U32} {context : Context} {fault : Option Context}
    (ok : SystemOk j convert s)
    (stepped : sidtabSystemStep j convert s (.setInitial sid context fault) = some s') :
    SystemOk j convert s' := by
  simp only [sidtabSystemStep] at stepped
  split at stepped
  · cases stepped
  · rename_i result source done
    cases stepped
    have spec := sidtabSetInitial_spec done
    have keeps := initialSet_keeps spec
    refine ⟨sidtabSetInitial_ok ok.source spec,
      fun idle => spec.converting.trans (ok.idle idle), ?_, ?_⟩
    · intro count level pos phase
      have walk := ok.walking count level pos phase
      refine ⟨spec.converting.trans walk.live, walk.level, by rw [spec.count]; exact walk.snapshot,
        walk.total.trans spec.count.symm, walk.table, walk.last, walk.inside, ?_⟩
      intro i less range
      rw [spec.count] at less
      exact convertedAt_keeps (walk.converted i less range) less (by rw [walk.total]; exact less) keeps
        (KeepsEntries.refl _)
    · intro phase
      have done := ok.returned phase
      refine ⟨spec.converting.trans done.live, done.total.trans spec.count.symm, done.table, ?_⟩
      intro i less
      rw [spec.count] at less
      exact convertedAt_keeps (done.converted i less) less (by rw [done.total]; exact less) keeps
        (KeepsEntries.refl _)

/-- The two effects of a call on both tables. -/
theorem call_effects {context : Context} {allocs targetAllocs : List Bool}
    {fault : Option Context} {env : ε} {first : U32} (ok : TableOk j s.source 0)
    (follows : s.source.converting = true →
      s.target.count = s.source.count ∧ TableOk j s.target first)
    (stepped : sidtabSystemStep j convert s
      (.contextToSid context allocs targetAllocs fault env) = some s') :
    s'.phase = s.phase ∧ s'.source.converting = s.source.converting ∧
      TableOk j s'.source 0 ∧ KeepsEntries s.source s'.source ∧
      ((s'.source.count = s.source.count ∧ TargetKept j s.target s'.target) ∨
        (s.source.count.toNat + 1 < 2 ^ 32 ∧ s'.source.count = s.source.count + 1 ∧
          ∃ dst, lookupRef s'.source.tree s.source.count = some dst ∧
            (s'.source.deref dst).context = context ∧
            (s.source.converting = true → ∃ context' dst', convert env context = .ok context' ∧
              RadixTree.Shaped sidtabInnerShift s'.target.tree ∧
              Appended j s.target s'.target context' dst'))) := by
  simp only [sidtabSystemStep] at stepped
  split at stepped
  · cases stepped
  · rename_i result source target done
    cases stepped
    have onTarget := sidtabContextToSid_target follows done
    cases sidtabContextToSid_effect ok done with
    | found sid known real same =>
      subst same
      refine ⟨rfl, rfl, ok, KeepsEntries.refl _, .inl ⟨rfl, ?_⟩⟩
      rcases onTarget with ⟨-, kept⟩ | ⟨moved, -⟩
      · exact kept
      · simp at moved
    | created dst unknown live below shaped app =>
      refine ⟨rfl, app.converting, ok.append below (zero_le_index _) shaped app, app.keeps,
        .inr ⟨below, app.count, dst, app.here, by rw [app.entry], ?_⟩⟩
      intro converting
      rcases onTarget with ⟨stays, -⟩ | ⟨-, appended⟩
      · rw [app.count] at stays
        simp at stays
      · rw [if_pos converting] at appended
        exact appended
    | failed e unknown same frozen converting table =>
      refine ⟨rfl, converting, table 0 ok, same.keeps, .inl ⟨same.count, ?_⟩⟩
      rcases onTarget with ⟨-, kept⟩ | ⟨moved, -⟩
      · exact kept
      · rw [same.count] at moved
        simp at moved

/-- A call during a conversion: the target follows the table, and a new index has its
conversion there. -/
structure Followed (j : Jhash) (convert : ε → Context → ConvertOutcome) (s s' : SidtabSystem)
    (first : U32) : Prop where
  live : s'.source.converting = true
  total : s'.target.count = s'.source.count
  table : TableOk j s'.target first
  grown : s.source.count ≤ s'.source.count
  source : KeepsEntries s.source s'.source
  target : KeepsEntries s.target s'.target
  converted : ∀ i, i < s'.source.count → i < s.source.count ∨
    ConvertedAt convert s'.source s'.target i

theorem call_followed {context : Context} {allocs targetAllocs : List Bool}
    {fault : Option Context} {env : ε} {first : U32} (ok : TableOk j s.source 0)
    (live : s.source.converting = true) (total : s.target.count = s.source.count)
    (table : TableOk j s.target first) (above : first ≤ s.source.count)
    (stepped : sidtabSystemStep j convert s
      (.contextToSid context allocs targetAllocs fault env) = some s') :
    Followed j convert s s' first := by
  obtain ⟨-, converting, -, keeps, effect⟩ := call_effects ok (fun _ => ⟨total, table⟩) stepped
  rcases effect with ⟨count, kept⟩ | ⟨below, count, dst, place, content, onTarget⟩
  · refine ⟨converting.trans live, ?_, kept.table first table, by rw [count]; exact BitVec.le_refl _,
      keeps, kept.same.keeps, fun i less => .inl (by rw [← count]; exact less)⟩
    rw [kept.same.count, count, total]
  · obtain ⟨context', dst', answer, shaped, app⟩ := onTarget live
    refine ⟨converting.trans live, by rw [app.count, count, total],
      table.append (by rw [total]; exact below) (by rw [total]; exact above) shaped app, ?_, keeps,
      app.keeps, ?_⟩
    · rw [count, BitVec.le_def, toNat_succ below]
      exact Nat.le_succ _
    · intro i less
      rw [count] at less
      rcases lt_succ_cases below less with old | rfl
      · exact .inl old
      · refine .inr ⟨dst, dst', env, place, ?_, ?_⟩
        · rw [← total]
          exact app.here
        · rw [content, app.entry]
          exact answer

theorem system_call {context : Context} {allocs targetAllocs : List Bool}
    {fault : Option Context} {env : ε} (ok : SystemOk j convert s)
    (stepped : sidtabSystemStep j convert s
      (.contextToSid context allocs targetAllocs fault env) = some s') : SystemOk j convert s' := by
  have follows : s.source.converting = true →
      ∃ first, first ≤ s.source.count ∧ s.target.count = s.source.count ∧
        TableOk j s.target first := by
    intro live
    cases phase : s.phase with
    | idle =>
      rw [ok.idle phase] at live
      cases live
    | walking count level pos =>
      have walk := ok.walking count level pos phase
      exact ⟨count, walk.snapshot, walk.total, walk.table⟩
    | returned =>
      have done := ok.returned phase
      exact ⟨0, zero_le_index _, done.total, done.table⟩
  obtain ⟨first, follows⟩ : ∃ first, s.source.converting = true →
      s.target.count = s.source.count ∧ TableOk j s.target first := by
    by_cases live : s.source.converting = true
    · obtain ⟨first, -, both⟩ := follows live
      exact ⟨first, fun _ => both⟩
    · exact ⟨0, fun on => absurd on live⟩
  obtain ⟨phase, converting, table, keeps, -⟩ := call_effects ok.source follows stepped
  refine ⟨table, ?_, ?_, ?_⟩
  · intro idle
    rw [converting]
    exact ok.idle (phase ▸ idle)
  · intro count level pos walking
    have walk := ok.walking count level pos (phase ▸ walking)
    have after := call_followed ok.source walk.live walk.total walk.table walk.snapshot stepped
    refine ⟨after.live, walk.level, BitVec.le_trans walk.snapshot after.grown, after.total,
      after.table, ?_, walk.inside, ?_⟩
    · intro some
      obtain ⟨r, found⟩ := walk.last some
      have less : count - 1 < s.target.count := by
        rw [walk.total]
        have snapshot := walk.snapshot
        bv_omega
      exact ⟨r, (after.target _ less r found).1⟩
    · intro i less range
      rcases after.converted i less with old | new
      · exact convertedAt_keeps (walk.converted i old range) old (by rw [walk.total]; exact old)
          after.source after.target
      · exact new
  · intro returned
    have done := ok.returned (phase ▸ returned)
    have after := call_followed ok.source done.live done.total done.table (zero_le_index _) stepped
    refine ⟨after.live, after.total, after.table, fun i less => ?_⟩
    rcases after.converted i less with old | new
    · exact convertedAt_keeps (done.converted i old) old (by rw [done.total]; exact old)
        after.source after.target
    · exact new

/-- Freeze, cancel and a failed walk: live conversion is off, the entries stay. -/
theorem system_off {frozen : Bool} {target : Sidtab} (ok : SystemOk j convert s) :
    SystemOk j convert { s with
      source := { s.source with frozen, converting := false }, target, phase := .idle } := by
  refine ⟨(flags_ok frozen false ok.source).1, fun _ => rfl, ?_, ?_⟩
  · intro count level pos phase
    cases phase
  · intro phase
    cases phase

/-- A fresh table with initial SIDs has no leaf entries. -/
theorem policydbLoadIsids_ok {isids : List (U32 × Context)} {t t' : Sidtab} {first : U32}
    (ok : TableOk j t first) (done : policydbLoadIsids j isids t = some t') :
    TableOk j t' first ∧ t'.count = t.count := by
  induction isids generalizing t with
  | nil =>
    cases done
    exact ⟨ok, rfl⟩
  | cons isid rest ih =>
    obtain ⟨sid, context⟩ := isid
    simp only [policydbLoadIsids] at done
    split at done
    · rename_i t₁ set
      have spec := sidtabSetInitial_spec set
      obtain ⟨ok', count⟩ := ih (sidtabSetInitial_ok ok spec) done
      exact ⟨ok', count.trans spec.count⟩
    · cases done

theorem system_convertBegin {isids : List (U32 × Context)} {allocs : List Bool}
    (ok : SystemOk j convert s)
    (stepped : sidtabSystemStep j convert s (.convertBegin isids allocs) = some s') :
    SystemOk j convert s' ∧ ((s'.phase = s.phase ∧ s'.source = s.source) ∨
      (s.phase = .idle ∧ ∃ count level, s'.phase = .walking count level 0)) := by
  simp only [sidtabSystemStep] at stepped
  split at stepped
  · cases stepped
  · rename_i target loaded
    obtain ⟨table, zero⟩ := policydbLoadIsids_ok (sidtabInit_ok j s.source.count) loaded
    unfold sidtabConvertBegin at stepped
    split at stepped
    · cases stepped
    · rename_i begun
      split at begun
      · simp only [Option.some.injEq, Prod.mk.injEq] at begun
        obtain ⟨-, rfl, -⟩ := begun
        cases stepped
        exact ⟨ok, .inl ⟨rfl, rfl⟩⟩
      · split at begun
        · cases begun
        · split at begun
          · cases begun
          · simp only [Option.some.injEq, Prod.mk.injEq] at begun
            obtain ⟨-, rfl, -⟩ := begun
            cases stepped
            exact ⟨ok, .inl ⟨rfl, rfl⟩⟩
          · simp at begun
    · rename_i begun
      split at begun
      · simp at begun
      · rename_i off
        split at begun
        · cases begun
        · rename_i level levelEq
          split at begun
          · cases begun
          · simp at begun
          · rename_i dst tree rest lookup
            simp only [Option.some.injEq, Prod.mk.injEq, Except.ok.injEq] at begun
            obtain ⟨⟨rfl, rfl⟩, rfl, rfl⟩ := begun
            cases stepped
            have idle : s.phase = .idle := by
              cases phase : s.phase with
              | idle => rfl
              | walking count level pos => exact absurd (ok.walking _ _ _ phase).live off
              | returned => exact absurd (ok.returned phase).live off
            obtain ⟨shaped, -⟩ := allocated_keeps table.shaped lookup
            have found := (sidtabDoLookup_alloc table.shaped lookup).2.2 dst rfl
            have flags := flags_ok s.source.frozen true ok.source
            refine ⟨⟨flags.1, (fun phase => by cases phase), ?_, (fun phase => by cases phase)⟩,
              .inr ⟨idle, _, _, rfl⟩⟩
            intro count level' pos phase
            cases phase
            have noLeaf : ∀ node ∈ target.contextToSid, ∀ a slot, node.2 ≠ .leaf a slot := by
              intro node member a slot ref
              obtain ⟨i, -, less, -⟩ := table.leaves node member a slot ref
              rw [zero, BitVec.lt_def] at less
              simp [sidtabInit] at less
            refine ⟨rfl, levelEq, BitVec.le_refl _, rfl, ⟨shaped, ?_, ?_, table.once⟩,
              fun _ => ⟨dst, found⟩, zero_le_index _, ?_⟩
            · intro i above less
              exact absurd less (BitVec.not_lt.mpr above)
            · intro node member a slot ref
              exact absurd ref (noLeaf node member a slot)
            · intro i less range
              rcases range with before | above
              · simp [BitVec.lt_def] at before
              · exact absurd less (BitVec.not_lt.mpr above)

/-- An entry of the walk returns; it is converted, or the walk fails and live conversion
is off. -/
theorem system_convertEntry {count : U32} {level : Nat} {pos : U32} (allocs : List Bool) (env : ε)
    (ok : SystemOk j convert s) (phase : s.phase = .walking count level pos) (more : pos < count) :
    ∃ s', sidtabSystemStep j convert s (.convertEntry allocs env) = some s' ∧
      SystemOk j convert s' ∧ (s'.phase = .idle → s'.source = sidtabCancelConvert s.source) := by
  have walk := ok.walking count level pos phase
  have some : 0 < count := by bv_omega
  have lastIndex : count - 1 + 1 = count := by bv_omega
  have snapshot := walk.snapshot
  have lastLess : count - 1 < s.source.count := by bv_omega
  have posLess : pos < s.source.count := by bv_omega
  have levelEq : sidtabLevelFromCount (count - 1 + 1) = .some level := by
    rw [lastIndex]
    exact walk.level
  obtain ⟨rTarget, lastTarget⟩ := walk.last some
  obtain ⟨rSource, lastSource, -⟩ := ok.source.entry (count - 1) (zero_le_index _) lastLess
  obtain ⟨root, here⟩ := lookupRef_root levelEq lastSource
  obtain ⟨root', here'⟩ := lookupRef_root levelEq lastTarget
  obtain ⟨src, found, -⟩ := ok.source.entry pos (zero_le_index _) posLess
  obtain ⟨result, target, done, walked⟩ := sidtabConvertEntry_spec allocs (convert env)
    ok.source.shaped walk.table.shaped walk.level here here' more found
  simp only [sidtabSystemStep, phase, more, if_true, done]
  cases result with
  | error e => exact ⟨_, rfl, system_off ok, fun _ => rfl⟩
  | ok done =>
    obtain ⟨shaped, total, chains, ⟨src, dst, foundSrc, foundDst, answer⟩, keeps⟩ := walked rfl
    refine ⟨_, rfl, ⟨ok.source, (fun idle => by cases idle), ?_, (fun idle => by cases idle)⟩,
      (fun idle => by cases idle)⟩
    intro count' level' pos' phase'
    cases phase'
    have posBelow : pos.toNat + 1 < 2 ^ 32 := below_of_lt more
    have keepsOther : ∀ i, i < s.target.count → i ≠ pos → ∀ r,
        lookupRef s.target.tree i = .some r →
          lookupRef target.tree i = .some r ∧ target.deref r = s.target.deref r :=
      fun i less apart r found => keeps i apart (below_of_lt less) r found
    refine ⟨walk.live, walk.level, walk.snapshot, total.trans walk.total, ?_, ?_, ?_, ?_⟩
    · refine walk.table.of_keeps shaped total chains fun i above less r found => ?_
      refine keepsOther i less ?_ r found
      rintro rfl
      exact BitVec.not_lt.mpr above more
    · intro some
      by_cases isLast : count - 1 = pos
      · rw [isLast]
        exact ⟨dst, foundDst⟩
      · exact ⟨rTarget, (keepsOther _ (by rw [walk.total]; exact lastLess) isLast _ lastTarget).1⟩
    · bv_omega
    · intro i less range
      by_cases same : i = pos
      · subst same
        exact ⟨src, dst, env, foundSrc, foundDst, answer⟩
      · have old : i < pos ∨ count ≤ i := by bv_omega
        obtain ⟨src', dst', env', placeSrc, placeDst, answer'⟩ := walk.converted i less old
        obtain ⟨placeDst', kept⟩ := keepsOther i (by rw [walk.total]; exact less) same dst' placeDst
        exact ⟨src', dst', env', placeSrc, placeDst', by rw [kept]; exact answer'⟩

/-- The fill of the hash table returns, and the conversion is complete. -/
theorem system_convertHashtable {count : U32} {level : Nat} {pos : U32}
    (ok : SystemOk j convert s) (phase : s.phase = .walking count level pos)
    (finished : ¬ pos < count) :
    ∃ s', sidtabSystemStep j convert s (.convertHashtable : SidtabAction ε) = some s' ∧
      s'.phase = .returned ∧ SystemOk j convert s' := by
  have walk := ok.walking count level pos phase
  have all : ∀ i, i < s.source.count → ConvertedAt convert s.source s.target i := by
    intro i less
    exact walk.converted i less (by bv_omega)
  have present : ∀ i, i < s.target.count → ∃ r, lookupRef s.target.tree i = some r := by
    intro i less
    rw [walk.total] at less
    obtain ⟨src, dst, env, -, placeDst, -⟩ := all i less
    exact ⟨dst, placeDst⟩
  obtain ⟨target, done, filled, kept⟩ := sidtabConvertHashtable_spec
    (Filling.of_table walk.table present) (Nat.zero_add _)
    (by rw [walk.total]; exact BitVec.le_def.mp walk.snapshot)
  refine ⟨{ s with target, phase := .returned },
    by simp only [sidtabSystemStep, phase, finished, if_false, done], rfl, ok.source,
    (fun idle => by cases idle), (fun count level pos idle => by cases idle), fun _ => ?_⟩
  refine ⟨walk.live, kept.count.trans walk.total, filled.table, fun i less => ?_⟩
  obtain ⟨src, dst, env, placeSrc, placeDst, answer⟩ := all i less
  exact ⟨src, dst, env, placeSrc, by rw [kept.places]; exact placeDst,
    by rw [kept.contexts]; exact answer⟩

theorem system_step {a : SidtabAction ε} (ok : SystemOk j convert s)
    (stepped : sidtabSystemStep j convert s a = some s') : SystemOk j convert s' := by
  cases a with
  | setInitial sid context fault => exact system_setInitial ok stepped
  | contextToSid context allocs targetAllocs fault env => exact system_call ok stepped
  | freeze =>
    cases phase : s.phase with
    | walking count level pos => simp [sidtabSystemStep, phase] at stepped
    | _ =>
      simp only [sidtabSystemStep, phase, Option.some.injEq] at stepped
      subst stepped
      exact system_off ok
  | cancel =>
    cases phase : s.phase with
    | walking count level pos => simp [sidtabSystemStep, phase] at stepped
    | _ =>
      simp only [sidtabSystemStep, phase, Option.some.injEq] at stepped
      subst stepped
      exact system_off ok
  | convertBegin isids allocs => exact (system_convertBegin ok stepped).1
  | convertEntry allocs env =>
    cases phase : s.phase with
    | walking count level pos =>
      by_cases more : pos < count
      · obtain ⟨s₁, done, ok₁, -⟩ := system_convertEntry allocs env ok phase more
        rw [stepped, Option.some.injEq] at done
        exact done ▸ ok₁
      · simp [sidtabSystemStep, phase, more] at stepped
    | _ => simp [sidtabSystemStep, phase] at stepped
  | convertHashtable =>
    cases phase : s.phase with
    | walking count level pos =>
      by_cases more : pos < count
      · simp [sidtabSystemStep, phase, more] at stepped
      · obtain ⟨s₁, done, -, ok₁⟩ := system_convertHashtable ok phase more
        rw [stepped, Option.some.injEq] at done
        exact done ▸ ok₁
    | _ => simp [sidtabSystemStep, phase] at stepped

/-- The contract of a conversion that has returned 0: the counts agree, and every index
below them has in the target the conversion of its context, complete, with its own SID
and linked once. -/
structure NothingLost (j : Jhash) (convert : ε → Context → ConvertOutcome) (s : SidtabSystem) :
    Prop where
  total : s.target.count = s.source.count
  entries : ∀ i, i < s.source.count → ∃ src dst env,
    lookupRef s.source.tree i = some src ∧ lookupRef s.target.tree i = some dst ∧
      convert env (s.source.deref src).context = .ok (s.target.deref dst).context ∧
      (s.target.deref dst).sid = indexToSid i ∧
      (s.target.deref dst).hash = contextComputeHash j (s.target.deref dst).context ∧
      (j.hashMin (s.target.deref dst).hash, dst) ∈ s.target.contextToSid ∧
      (s.target.contextToSid.map Prod.snd).count dst = 1

theorem ReturnedOk.nothingLost (ok : ReturnedOk j convert s) : NothingLost j convert s := by
  refine ⟨ok.total, fun i less => ?_⟩
  obtain ⟨src, dst, env, placeSrc, placeDst, answer⟩ := ok.converted i less
  obtain ⟨r, found, entry, linked⟩ := ok.table.entry i (zero_le_index _) (by rw [ok.total]; exact less)
  rw [placeDst, Option.some.injEq] at found
  subst found
  refine ⟨src, dst, env, placeSrc, placeDst, answer, entry.sid, entry.hash, linked, ?_⟩
  exact List.count_eq_one_of_mem ok.table.once (List.mem_map.mpr ⟨_, linked, rfl⟩)

/-- In every run, with any calls between the steps of the conversions: while a conversion
stands returned nothing is lost; a walk and its fill can always take their next step; a
conversion that fails, at its start or midway, leaves the table as it was with live
conversion off. -/
theorem live_conversion_loses_nothing {s : SidtabSystem}
    (run : (sidtabMachine j convert).Reachable Machine.free s) :
    (s.phase = .returned → NothingLost j convert s) ∧
      (∀ count level pos, s.phase = .walking count level pos → pos < count → ∀ allocs env,
        ∃ s', sidtabSystemStep j convert s (.convertEntry allocs env) = some s' ∧
          (s'.phase = .idle →
            s'.source.converting = false ∧ NothingMoved j s.source s'.source)) ∧
      (∀ count level pos, s.phase = .walking count level pos → ¬ pos < count →
        ∃ s', sidtabSystemStep j convert s (.convertHashtable : SidtabAction ε) = some s' ∧
          s'.phase = .returned) ∧
      (∀ isids allocs s', sidtabSystemStep j convert s (.convertBegin isids allocs) = some s' →
        s'.phase = .idle → s'.source = s.source ∧ s'.source.converting = false) := by
  have ok : SystemOk j convert s := run.invariant (fun _ => system_start)
    fun _ _ _ ok _ stepped => system_step ok stepped
  refine ⟨fun phase => (ok.returned phase).nothingLost, ?_, ?_, ?_⟩
  · intro count level pos phase more allocs env
    obtain ⟨s', done, -, failed⟩ := system_convertEntry allocs env ok phase more
    refine ⟨s', done, fun idle => ?_⟩
    rw [failed idle]
    have same := (flags_ok s.source.frozen false ok.source).2
    exact ⟨rfl, same.count, sidtabSearchCore_unchanged ok.source same,
      sidOf_unchanged ok.source same⟩
  · intro count level pos phase finished
    obtain ⟨s', done, returned, -⟩ := system_convertHashtable ok phase finished
    exact ⟨s', done, returned⟩
  · intro isids allocs s' stepped idle
    rcases (system_convertBegin ok stepped).2 with ⟨phase, source⟩ | ⟨-, count, level, phase⟩
    · exact ⟨source, by rw [source]; exact ok.idle (phase ▸ idle)⟩
    · rw [idle] at phase
      cases phase

/-- A policy that numbers its types anew. -/
def renumberTypes : Unit → Context → ConvertOutcome :=
  fun _ c => .ok { c with type := c.type + 100 }

/-- One entry before the conversion, one during the walk, one after the fill. -/
def reloadRun : List (SidtabAction Unit) :=
  [.setInitial 3 (typeContext 3) none, plainCall (typeContext 7),
    .convertBegin [(3, typeContext 103)] [], plainCall (typeContext 8), .convertEntry [] (),
    .convertHashtable, plainCall (typeContext 9)]

theorem live_conversion_three_entries : ∃ s,
    (sidtabMachine xorJhash renumberTypes).exec bootSidtab reloadRun = some s ∧
      s.phase = .returned ∧ s.source.count = 3 ∧ NothingLost xorJhash renumberTypes s := by
  obtain ⟨s, ran, phase, count⟩ : ∃ s,
      (sidtabMachine xorJhash renumberTypes).exec bootSidtab reloadRun = some s ∧
        s.phase = .returned ∧ s.source.count = 3 := ⟨_, rfl, rfl, rfl⟩
  exact ⟨s, ran, phase, count, (live_conversion_loses_nothing
    ⟨bootSidtab, ⟨rfl, rfl, rfl, rfl⟩, Machine.exec_reaches ran⟩).1 phase⟩

end Ksrc.Guarantees.SidtabConversion

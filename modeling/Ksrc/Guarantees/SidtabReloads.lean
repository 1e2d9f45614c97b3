import Ksrc.Guarantees.SidtabConversion

/-!
# The SID table over policy loads

Source: `security/selinux/ss/sidtab.c`, `security/selinux/ss/services.c`
(`selinux_policy_commit`). The initial SIDs of a target are set before its conversion starts,
and what the conversion links are leaf entries.
-/
namespace Ksrc.Guarantees.SidtabReloads

open Library Source SidtabTree SidtabTable
  SidtabCalls SidtabSearch SidtabBijection
  SidtabConversion

variable {ε : Type} {j : Jhash} {convert : ε → Context → ConvertOutcome}

section Kept

variable {t t' t'' : Sidtab}

/-- A table whose initial SIDs stay, and with nothing but leaf entries that are newly linked. -/
structure IsidsKept (t t' : Sidtab) : Prop where
  isids : t'.isids = t.isids
  converting : t'.converting = t.converting
  linked : ∀ node ∈ t'.contextToSid, ∀ k, node.2 = .isid k → node ∈ t.contextToSid

theorem IsidsKept.refl (t : Sidtab) : IsidsKept t t := ⟨rfl, rfl, fun _ member _ _ => member⟩

theorem IsidsKept.trans (first : IsidsKept t t') (second : IsidsKept t' t'') : IsidsKept t t'' :=
  ⟨second.isids.trans first.isids, second.converting.trans first.converting,
    fun node member k ref => first.linked node (second.linked node member k ref) k ref⟩

theorem IsidsKept.ok (kept : IsidsKept t t') (ok : IsidsOk t) : IsidsOk t' := by
  intro node member k ref
  rw [kept.isids]
  exact ok node (kept.linked node member k ref) k ref

theorem tree_kept (t : Sidtab) (tree : RadixTree SidtabEntry) : IsidsKept t { t with tree } :=
  ⟨rfl, rfl, fun _ member _ _ => member⟩

theorem count_kept (t : Sidtab) (count : U32) : IsidsKept t { t with count } :=
  ⟨rfl, rfl, fun _ member _ _ => member⟩

theorem write_kept (t : Sidtab) (a slot : Nat) (e : SidtabEntry) :
    IsidsKept t (t.write (.leaf a slot) e) := ⟨rfl, rfl, fun _ member _ _ => member⟩

theorem withEntry_kept (t : Sidtab) (count : U32) (tree : RadixTree SidtabEntry) (a slot : Nat)
    (context : Context) : IsidsKept t (withEntry j t count tree (.leaf a slot) context) :=
  ((tree_kept t tree).trans (write_kept _ a slot _)).trans (count_kept _ (count + 1))

theorem hashAdd_kept {bucket a slot : Nat} (added : t.hashAdd bucket (.leaf a slot) = some t') :
    IsidsKept t t' := by
  obtain ⟨rfl, -⟩ := hashAdd_some added
  refine ⟨rfl, rfl, fun node member k ref => ?_⟩
  rcases List.mem_cons.mp member with rfl | old
  · cases ref
  · exact old

theorem sidtabDoLookup_leaf {t t' : RadixTree SidtabEntry} {index : U32} {alloc : Bool}
    {allocs rest : List Bool} {dst : EntryRef}
    (done : sidtabDoLookup t index alloc allocs = some (some dst, t', rest)) :
    ∃ a slot, dst = .leaf a slot := by
  unfold sidtabDoLookup at done
  cases levelEq : sidtabLevelFromCount (index + 1) with
  | none =>
    rw [levelEq] at done
    cases done
  | some level =>
    rw [levelEq] at done
    dsimp only at done
    generalize (if alloc = true then sidtabAllocRoots t level allocs else (true, t, allocs)) = grown
      at done
    obtain ⟨ok, t₁, allocs₁⟩ := grown
    cases ok with
    | false => cases done
    | true =>
      dsimp only at done
      cases root : t₁.roots level with
      | none =>
        rw [root] at done
        dsimp only at done
        split at done
        · cases done
        · cases done
      | some a =>
        rw [root] at done
        dsimp only at done
        cases alloc with
        | true =>
          rw [if_pos rfl] at done
          cases descent : RadixTree.descendAlloc sidtabInnerShift zeroEntry level
              (index.toNat / sidtabLeafEntries) a t₁ allocs₁ with
          | mk leaf out =>
            rw [descent] at done
            cases leaf with
            | none => cases done
            | some leaf =>
              cases done
              exact ⟨_, _, rfl⟩
        | false =>
          rw [if_neg Bool.false_ne_true] at done
          cases descent : t₁.descend sidtabInnerShift level (index.toNat / sidtabLeafEntries) a with
          | none =>
            rw [descent] at done
            cases done
          | some leaf =>
            rw [descent] at done
            cases done
            exact ⟨_, _, rfl⟩

end Kept

section Steps

variable {s s' target target' : Sidtab} {context : Context}

theorem newConverted_kept {count : U32} {converted : ConvertOutcome} {allocs : List Bool}
    {result : Except Errno Unit} (new : NewConverted j target count converted allocs result target') :
    IsidsKept target target' := by
  cases new with
  | noLeaf tree rest lookup => exact tree_kept target tree
  | failed dst tree rest e left entry lookup isError =>
    obtain ⟨a, slot, rfl⟩ := sidtabDoLookup_leaf lookup
    exact (tree_kept target tree).trans (write_kept _ a slot entry)
  | added dst tree rest context linked lookup isOk link =>
    obtain ⟨a, slot, rfl⟩ := sidtabDoLookup_leaf lookup
    exact (withEntry_kept target count tree a slot context).trans (hashAdd_kept link)

theorem sidtabContextToSid_kept {allocs targetAllocs : List Bool} {fault : Option Context}
    {converted : ConvertOutcome} {result : Except Errno U32}
    (done : sidtabContextToSid j s target context allocs targetAllocs fault converted =
      some (result, s', target')) : IsidsKept s s' ∧ IsidsKept target target' := by
  cases sidtabContextToSid_cases done with
  | found known => exact ⟨.refl _, .refl _⟩
  | frozen unknown => exact ⟨.refl _, .refl _⟩
  | full unknown => exact ⟨.refl _, .refl _⟩
  | noLeaf tree rest unknown lookup => exact ⟨tree_kept s tree, .refl _⟩
  | notCopied dst tree rest entry unknown room lookup =>
    obtain ⟨a, slot, rfl⟩ := sidtabDoLookup_leaf lookup
    exact ⟨(tree_kept s tree).trans (write_kept _ a slot entry), .refl _⟩
  | notConverted dst tree rest entry e target' unknown room lookup live new =>
    obtain ⟨a, slot, rfl⟩ := sidtabDoLookup_leaf lookup
    exact ⟨(tree_kept s tree).trans (write_kept _ a slot entry), newConverted_kept new⟩
  | created dst tree rest linked target' unknown thawed room lookup new link =>
    obtain ⟨a, slot, rfl⟩ := sidtabDoLookup_leaf lookup
    refine ⟨(withEntry_kept s s.count tree a slot context).trans (hashAdd_kept link), ?_⟩
    by_cases live : s.converting = true
    · rw [if_pos live] at new
      exact newConverted_kept new
    · rw [if_neg live] at new
      rw [new]
      exact .refl _

theorem sidtabConvertEntry_kept {level : Nat} {pos : U32} {allocs : List Bool}
    {converted : Context → ConvertOutcome} {result : Except Errno Unit}
    (done : sidtabConvertEntry s target level pos allocs converted = some (result, target')) :
    IsidsKept target target' := by
  unfold sidtabConvertEntry at done
  dsimp only at done
  split at done
  · rename_i esrc edst _ _
    cases descent : RadixTree.descendAlloc sidtabInnerShift zeroEntry level
        (pos.toNat / sidtabLeafEntries) edst target.tree allocs with
    | mk leaf out =>
      obtain ⟨tree, rest⟩ := out
      rw [descent] at done
      cases leaf with
      | none =>
        cases done
        exact tree_kept target tree
      | some leaf =>
        dsimp only at done
        split at done
        · cases done
          exact (tree_kept target tree).trans (write_kept _ _ _ _)
        · cases done
          exact (tree_kept target tree).trans (write_kept _ _ _ _)
  · cases done

theorem sidtabConvertHashtable_kept {left i : Nat}
    (done : sidtabConvertHashtable j left i target = some target') : IsidsKept target target' := by
  induction left generalizing i target with
  | zero =>
    cases done
    exact .refl _
  | succ left ih =>
    rw [sidtabConvertHashtable] at done
    cases lookup : sidtabDoLookup target.tree (BitVec.ofNat 32 i) false [] with
    | none =>
      rw [lookup] at done
      cases done
    | some out =>
      obtain ⟨dst, tree, rest⟩ := out
      rw [lookup] at done
      cases dst with
      | none => cases done
      | some dst =>
        obtain ⟨a, slot, rfl⟩ := sidtabDoLookup_leaf lookup
        dsimp only at done
        split at done
        · rename_i linked added
          exact ((write_kept _ a slot _).trans (hashAdd_kept added)).trans (ih done)
        · cases done

theorem sidtabConvertBegin_kept {allocs : List Bool} {result : Except Errno (U32 × Nat)}
    (done : sidtabConvertBegin s target allocs = some (result, s', target')) :
    (IsidsOk s → IsidsOk s') ∧ IsidsKept target target' := by
  unfold sidtabConvertBegin at done
  by_cases busy : s.converting = true
  · rw [if_pos busy] at done
    cases done
    exact ⟨id, .refl _⟩
  rw [if_neg busy] at done
  cases level : sidtabLevelFromCount s.count with
  | none =>
    rw [level] at done
    cases done
  | some level' =>
    rw [level] at done
    dsimp only at done
    cases lookup : sidtabDoLookup target.tree (s.count - 1) true allocs with
    | none =>
      rw [lookup] at done
      cases done
    | some out =>
      obtain ⟨dst, tree, rest⟩ := out
      rw [lookup] at done
      cases dst with
      | none =>
        cases done
        exact ⟨id, tree_kept target tree⟩
      | some dst =>
        cases done
        exact ⟨id, (tree_kept target tree).trans (count_kept _ _)⟩

theorem policydbLoadIsids_isids {isids : List (U32 × Context)} (ok : IsidsOk target)
    (done : policydbLoadIsids j isids target = some target') :
    IsidsOk target' ∧ target'.converting = target.converting := by
  induction isids generalizing target with
  | nil =>
    cases done
    exact ⟨ok, rfl⟩
  | cons isid rest ih =>
    rw [policydbLoadIsids] at done
    split at done
    · rename_i t₁ set
      have spec := sidtabSetInitial_spec set
      obtain ⟨ok', converting⟩ := ih (sidtabSetInitial_isids ok spec) done
      exact ⟨ok', converting.trans spec.converting⟩
    · cases done

end Steps

section Loads

variable {s s' : SidtabSystem}

/-- The invariant over policy loads: that of the conversions, and of both tables what a search
by SID needs of the initial ones. -/
structure ReloadOk (j : Jhash) (convert : ε → Context → ConvertOutcome) (s : SidtabSystem) :
    Prop where
  system : SystemOk j convert s
  isids : IsidsOk s.source
  target : s.phase ≠ .idle → IsidsOk s.target ∧ s.target.converting = false

theorem reload_start (start : SidtabStart s) : ReloadOk j convert s := by
  refine ⟨system_start start, ?_, fun busy => absurd start.phase busy⟩
  rw [start.source]
  intro node member
  cases member

/-- A step that keeps the initial SIDs of both tables. -/
theorem ReloadOk.of_kept (ok : ReloadOk j convert s) (system : SystemOk j convert s')
    (phase : s'.phase ≠ .idle → s.phase ≠ .idle) (source : IsidsOk s'.source)
    (target : IsidsKept s.target s'.target) : ReloadOk j convert s' := by
  refine ⟨system, source, fun busy => ?_⟩
  obtain ⟨isids, off⟩ := ok.target (phase busy)
  exact ⟨target.ok isids, target.converting.trans off⟩

theorem reload_convertBegin {isids : List (U32 × Context)} {allocs : List Bool}
    (ok : ReloadOk j convert s)
    (stepped : sidtabSystemStep j convert s (.convertBegin isids allocs) = some s') :
    ReloadOk j convert s' := by
  have system := (system_convertBegin ok.system stepped).1
  simp only [sidtabSystemStep] at stepped
  split at stepped
  · cases stepped
  · rename_i target loaded
    have empty : IsidsOk sidtabInit := fun node member => by cases member
    obtain ⟨isidsOk, off⟩ := policydbLoadIsids_isids empty loaded
    split at stepped
    · cases stepped
    · rename_i begun
      cases stepped
      exact ok.of_kept system id ((sidtabConvertBegin_kept begun).1 ok.isids) (.refl _)
    · rename_i begun
      cases stepped
      obtain ⟨source, kept⟩ := sidtabConvertBegin_kept begun
      exact ⟨system, source ok.isids, fun _ => ⟨kept.ok isidsOk, kept.converting.trans off⟩⟩

theorem reload_step {a : ReloadAction ε} (ok : ReloadOk j convert s)
    (stepped : (reloadMachine j convert).step s a = some s') : ReloadOk j convert s' := by
  cases a with
  | commit =>
    change selinuxPolicyCommit s = some s' at stepped
    unfold selinuxPolicyCommit at stepped
    cases phase : s.phase with
    | returned =>
      rw [phase] at stepped
      cases stepped
      have walked : s.phase ≠ .idle := by
        rw [phase]
        intro same
        cases same
      obtain ⟨isids, off⟩ := ok.target walked
      have table := (ok.system.returned phase).table
      exact ⟨⟨table, fun _ => off, nofun, nofun⟩, isids, fun busy => absurd rfl busy⟩
    | _ =>
      rw [phase] at stepped
      cases stepped
  | sidtab a =>
    change sidtabSystemStep j convert s a = some s' at stepped
    have system := system_step ok.system stepped
    cases a with
    | setInitial sid context fault =>
      simp only [sidtabSystemStep] at stepped
      split at stepped
      · cases stepped
      · rename_i result source done
        cases stepped
        have isids := sidtabSetInitial_isids ok.isids (sidtabSetInitial_spec done)
        exact ok.of_kept system id isids (.refl _)
    | contextToSid context allocs targetAllocs fault env =>
      simp only [sidtabSystemStep] at stepped
      split at stepped
      · cases stepped
      · rename_i result source target done
        cases stepped
        obtain ⟨source, target⟩ := sidtabContextToSid_kept done
        exact ok.of_kept system id (source.ok ok.isids) target
    | freeze =>
      cases phase : s.phase with
      | walking count level pos => simp [sidtabSystemStep, phase] at stepped
      | _ =>
        simp only [sidtabSystemStep, phase, Option.some.injEq] at stepped
        subst stepped
        exact ⟨system, ok.isids, fun busy => absurd rfl busy⟩
    | cancel =>
      cases phase : s.phase with
      | walking count level pos => simp [sidtabSystemStep, phase] at stepped
      | _ =>
        simp only [sidtabSystemStep, phase, Option.some.injEq] at stepped
        subst stepped
        exact ⟨system, ok.isids, fun busy => absurd rfl busy⟩
    | convertBegin isids allocs => exact reload_convertBegin ok stepped
    | convertEntry allocs env =>
      cases phase : s.phase with
      | walking count level pos =>
        simp only [sidtabSystemStep, phase] at stepped
        by_cases more : pos < count
        · rw [if_pos more] at stepped
          split at stepped
          · cases stepped
          · rename_i e target done
            cases stepped
            exact ⟨system, ok.isids, fun busy => absurd rfl busy⟩
          · rename_i target done
            cases stepped
            have walking : s.phase ≠ .idle := by
              rw [phase]
              intro same
              cases same
            exact ok.of_kept system (fun _ => walking) ok.isids (sidtabConvertEntry_kept done)
        · rw [if_neg more] at stepped
          cases stepped
      | _ => simp [sidtabSystemStep, phase] at stepped
    | convertHashtable =>
      cases phase : s.phase with
      | walking count level pos =>
        simp only [sidtabSystemStep, phase] at stepped
        by_cases more : pos < count
        · rw [if_pos more] at stepped
          cases stepped
        · rw [if_neg more] at stepped
          split at stepped
          · cases stepped
          · rename_i target done
            cases stepped
            have walking : s.phase ≠ .idle := by
              rw [phase]
              intro same
              cases same
            exact ok.of_kept system (fun _ => walking) ok.isids (sidtabConvertHashtable_kept done)
      | _ => simp [sidtabSystemStep, phase] at stepped

/-- A table in use, of the first policy or of a later one. -/
theorem reload_reachable (run : (reloadMachine j convert).Reachable Machine.free s) :
    ReloadOk j convert s :=
  run.invariant (fun _ => reload_start) fun _ _ _ ok _ stepped => reload_step ok stepped

end Loads

section Calls

variable {s s' target target' : Sidtab} {context : Context} {allocs targetAllocs : List Bool}
  {fault : Option Context} {converted : ConvertOutcome}

/-- The SID that a call returns denotes a context that compares equal to its own. -/
theorem sidtabContextToSid_denotes {sid : U32} (ok : TableOk j s 0) (isids : IsidsOk s)
    (done : sidtabContextToSid j s target context allocs targetAllocs fault converted =
      some (.ok sid, s', target')) :
    ∃ e, sidtabSearchEntryForce s' sid = some (some e) ∧ contextCmp e.context context = true := by
  have effect := sidtabContextToSid_effect ok done
  generalize result : (Except.ok sid : Except Errno U32) = answer at effect
  cases effect with
  | found sid' known real same =>
    cases result
    obtain ⟨node, inside, found, number⟩ := sidOf_known (known ▸ real)
    rw [known] at number
    rw [same, ← number]
    exact ⟨_, sidtabSearchCore_chain ok isids inside (.inr rfl), matches_cmp found⟩
  | created dst unknown live below shaped app =>
    cases result
    have inside : s.count < s'.count := by
      rw [app.count, BitVec.lt_def, toNat_succ below]
      exact Nat.lt_succ_self _
    refine ⟨_, sidtabSearchCore_leaf inside app.here (.inr rfl), ?_⟩
    rw [app.entry]
    exact contextCmp_refl context
  | failed e unknown same frozen converting table => cases result

/-- The errors of a call whose conversions fail for want of memory only. -/
theorem sidtabContextToSid_errors {e : Errno} (memory : ∀ failure, converted = .error failure →
      failure.1 = .ENOMEM)
    (done : sidtabContextToSid j s target context allocs targetAllocs fault converted =
      some (.error e, s', target')) : e = .ESTALE ∨ e = .EOVERFLOW ∨ e = .ENOMEM := by
  cases sidtabContextToSid_cases done with
  | frozen unknown => exact .inl rfl
  | full unknown => exact .inr (.inl rfl)
  | noLeaf tree rest unknown lookup => exact .inr (.inr rfl)
  | notCopied dst tree rest entry unknown room lookup => exact .inr (.inr rfl)
  | notConverted dst tree rest entry e target' unknown room lookup live new =>
    refine .inr (.inr ?_)
    cases new with
    | noLeaf tree rest lookup => rfl
    | failed dst tree rest e left entry lookup isError => exact memory _ isError

end Calls

end Ksrc.Guarantees.SidtabReloads

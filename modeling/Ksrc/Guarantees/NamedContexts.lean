import Ksrc.Guarantees.QueryResults

/-!
# Contexts whose slots are filled

A query about contexts whose user, role, type and levels have their entries reads no empty slot, and a
query that has read no empty slot has the names it wants.
-/
namespace Ksrc.Guarantees.NamedContexts

open Library Source QueryResults

variable {p : Policydb} {α β : Type}

/-- The slot of a value in an array of the policy. -/
abbrev Filled (p : Policydb) (array : ValueArray) (value : U32) : Prop := Slot.Filled p ⟨array, value⟩

/-- A query that reads only filled slots. -/
abbrev Safe (p : Policydb) (m : Asking α) : Prop := Traced.Reads (Slot.Filled p) m

/-- A query that fails only where it reads an empty slot. -/
def Answers (p : Policydb) (m : Asking α) : Prop := Safe p m → ∃ a, m.result = .ok a

section Slots

/-- A filled slot has a value of the table. -/
theorem filled_value {array : ValueArray} {value : U32} (filled : Filled p array value) :
    valueIsvalid (array.nprim p) value = true := by
  have inside := filled.1
  dsimp only at inside
  unfold valueIsvalid
  rw [Bool.and_eq_true]
  constructor
  · rw [decide_eq_true_eq]
    rintro rfl
    have small := (array.nprim p).isLt
    simp at inside
    omega
  · have less : value.toNat ≤ (array.nprim p).toNat := by
      have bound := value.isLt
      rw [BitVec.toNat_sub] at inside
      simp at inside
      omega
    exact decide_eq_true less

theorem valid_inside {nprim value : U32} (valid : valueIsvalid nprim value = true) :
    value ≠ 0 ∧ value ≤ nprim ∧ (value - 1).toNat < nprim.toNat := by
  unfold valueIsvalid at valid
  rw [Bool.and_eq_true, decide_eq_true_eq, decide_eq_true_eq] at valid
  obtain ⟨nonzero, le⟩ := valid
  have range : value.toNat ≤ nprim.toNat := le
  have positive : value.toNat ≠ 0 := fun zero => nonzero (BitVec.eq_of_toNat_eq zero)
  refine ⟨nonzero, le, ?_⟩
  rw [BitVec.toNat_sub]
  have bound := value.isLt
  simp
  omega

theorem atValue_of_held {array : List (Option α)} {value : U32}
    (held : (array[(value - 1).toNat]?.join).isSome = true) :
    ∃ a, array[(value - 1).toNat]? = some (some a) ∧ atValue array value = .ok (some a) := by
  unfold atValue
  cases here : array[(value - 1).toNat]? with
  | none =>
    rw [here] at held
    cases held
  | some entry =>
    cases entry with
    | none =>
    rw [here] at held
    cases held
    | some a => exact ⟨a, rfl, rfl⟩

end Slots

section Rules

theorem answers_pure (a : α) : Answers p (pure a : Asking α) := fun _ => ⟨a, rfl⟩

/-- A sequence of queries that fail only at empty slots. -/
theorem Answers.bind {m : Asking α} {f : α → Asking β} (first : Answers p m)
    (rest : ∀ a, Answers p (f a)) : Answers p (m >>= f) := by
  intro safe
  obtain ⟨a, ended⟩ := first safe.left
  obtain ⟨b, done⟩ := rest a (safe.right ended)
  refine ⟨b, ?_⟩
  rw [Traced.result_bind, ended]
  exact done

/-- What a sequence reads behind a part that answers. -/
theorem safe_after {m : Asking α} {f : α → Asking β} (answers : Answers p m) (safe : Safe p (m >>= f)) :
    ∃ a, m.result = .ok a ∧ Safe p (f a) := by
  obtain ⟨a, ended⟩ := answers safe.left
  exact ⟨a, ended, safe.right ended⟩

end Rules

section Names

variable {array : ValueArray} {names : List (Option Name)} {value : U32}

theorem safe_symName : Safe p (symNameReads array names value) ↔ Filled p array value := by
  unfold Safe symNameReads
  rw [Traced.reads_bind, Traced.reads_read]
  exact and_iff_left fun _ _ => Traced.reads_lift _

theorem answers_symName (same : ∀ i, array.holds p i = (names[i]?.join).isSome) :
    Answers p (symNameReads array names value) := by
  intro safe
  have filled := safe_symName.mp safe
  have held := filled.2
  dsimp only at held
  rw [same] at held
  obtain ⟨name, -, here⟩ := atValue_of_held held
  refine ⟨name, ?_⟩
  rw [symNameReads_result, symName, here]
  rfl

theorem answers_catName : Answers p (catNameReads p value) := answers_symName fun _ => rfl

theorem answers_catsClose {head prev : Int} : Answers p (mlsSidToContextCloseReads p head prev) := by
  unfold mlsSidToContextCloseReads
  split
  · exact answers_catName.bind fun _ => answers_pure _
  · exact answers_pure _

theorem answers_cats {bits : List U32} {head prev : Int} :
    Answers p (mlsSidToContextCatsReads p bits head prev) := by
  induction bits generalizing head prev with
  | nil => exact answers_catsClose
  | cons i rest ih =>
    unfold mlsSidToContextCatsReads
    split
    · exact answers_catsClose.bind fun _ => answers_catName.bind fun _ => ih.bind fun _ =>
        answers_pure _
    · exact ih

theorem answers_level {l : MlsLevel} : Answers p (mlsSidToContextLevelReads p l) := by
  unfold mlsSidToContextLevelReads
  exact (answers_symName fun _ => rfl).bind fun _ => answers_cats.bind fun _ => answers_pure _

theorem answers_mls {c : Context} : Answers p (mlsSidToContextReads p c) := by
  unfold mlsSidToContextReads
  split
  · exact answers_pure _
  · refine answers_level.bind fun low => ?_
    split
    · exact answers_pure _
    · exact answers_level.bind fun _ => answers_pure _

theorem answers_closeLen {head prev : Int} : Answers p (mlsComputeCloseLenReads p head prev) := by
  unfold mlsComputeCloseLenReads
  split
  · exact answers_catName.bind fun _ => answers_pure _
  · exact answers_pure _

theorem answers_catsLen {bits : List U32} {head prev : Int} :
    Answers p (mlsComputeCatsLenReads p bits head prev) := by
  induction bits generalizing head prev with
  | nil => exact answers_closeLen
  | cons i rest ih =>
    unfold mlsComputeCatsLenReads
    split
    · exact answers_closeLen.bind fun _ => answers_catName.bind fun _ => ih.bind fun _ =>
        answers_pure _
    · exact ih

theorem answers_levelLen {l : MlsLevel} : Answers p (mlsComputeLevelLenReads p l) := by
  unfold mlsComputeLevelLenReads
  exact (answers_symName fun _ => rfl).bind fun _ => answers_catsLen.bind fun _ => answers_pure _

theorem answers_mlsLen {c : Context} : Answers p (mlsComputeContextLenReads p c) := by
  unfold mlsComputeContextLenReads
  split
  · exact answers_pure _
  · refine answers_levelLen.bind fun low => ?_
    split
    · exact answers_pure _
    · exact answers_levelLen.bind fun _ => answers_pure _

/-- A context is printed unless a name is missing. -/
theorem answers_print {c : Context} : Answers p (contextStructToStringReads p c) := by
  unfold contextStructToStringReads
  cases c.str with
  | some str => exact answers_pure _
  | none =>
    refine (answers_symName fun _ => rfl).bind fun _ => ?_
    refine (answers_symName fun _ => rfl).bind fun _ => ?_
    refine (answers_symName fun _ => rfl).bind fun _ => ?_
    exact answers_mlsLen.bind fun _ => answers_mls.bind fun _ => answers_pure _

/-- A level with the names of its sensitivity and of its categories. -/
def LevelNamed (p : Policydb) (l : MlsLevel) : Prop :=
  Filled p .levelNames l.sens ∧ ∀ bit ∈ ebitmapPositiveBits l.cat, Filled p .catNames (bit + 1)

/-- A context with everything that is read of it. -/
structure ContextFilled (p : Policydb) (c : Context) : Prop where
  userName : Filled p .userNames c.user
  roleName : Filled p .roleNames c.role
  typeName : Filled p .typeNames c.type
  user : Filled p .users c.user
  role : Filled p .roles c.role
  type : Filled p .types c.type
  levels : p.mlsEnabled = true → LevelNamed p c.range.low ∧ LevelNamed p c.range.high

theorem safe_catsClose {head prev : Int}
    (named : prev = head ∨ Filled p .catNames (BitVec.ofInt 32 prev + 1)) :
    Safe p (mlsSidToContextCloseReads p head prev) := by
  unfold mlsSidToContextCloseReads
  split
  · rename_i differs
    refine Traced.Reads.bind (safe_symName.mpr ?_) fun _ _ => Traced.reads_pure _
    exact named.resolve_left differs
  · exact Traced.reads_pure _

/-- The categories that are printed are bits of the level; the last one printed stays in hand. -/
theorem safe_cats {bits : List U32} {head prev : Int}
    (all : ∀ bit ∈ bits, Filled p .catNames (bit + 1))
    (named : prev = head ∨ Filled p .catNames (BitVec.ofInt 32 prev + 1)) :
    Safe p (mlsSidToContextCatsReads p bits head prev) := by
  induction bits generalizing head prev with
  | nil => exact safe_catsClose named
  | cons i rest ih =>
    obtain ⟨here, later⟩ := List.forall_mem_cons.mp all
    unfold mlsSidToContextCatsReads
    split
    · refine Traced.Reads.bind (safe_catsClose named) fun _ _ => ?_
      refine Traced.Reads.bind (safe_symName.mpr here) fun _ _ => ?_
      exact Traced.Reads.bind (ih later (.inl rfl)) fun _ _ => Traced.reads_pure _
    · refine ih later (.inr ?_)
      rw [BitVec.ofInt_toInt]
      exact here

theorem safe_closeLen {head prev : Int}
    (named : prev = head ∨ Filled p .catNames (BitVec.ofInt 32 prev + 1)) :
    Safe p (mlsComputeCloseLenReads p head prev) := by
  unfold mlsComputeCloseLenReads
  split
  · rename_i differs
    refine Traced.Reads.bind (safe_symName.mpr ?_) fun _ _ => Traced.reads_pure _
    exact named.resolve_left (Ne.symm differs)
  · exact Traced.reads_pure _

theorem safe_catsLen {bits : List U32} {head prev : Int}
    (all : ∀ bit ∈ bits, Filled p .catNames (bit + 1))
    (named : prev = head ∨ Filled p .catNames (BitVec.ofInt 32 prev + 1)) :
    Safe p (mlsComputeCatsLenReads p bits head prev) := by
  induction bits generalizing head prev with
  | nil => exact safe_closeLen named
  | cons i rest ih =>
    obtain ⟨here, later⟩ := List.forall_mem_cons.mp all
    unfold mlsComputeCatsLenReads
    split
    · refine Traced.Reads.bind (safe_closeLen named) fun _ _ => ?_
      refine Traced.Reads.bind (safe_symName.mpr here) fun _ _ => ?_
      exact Traced.Reads.bind (ih later (.inl rfl)) fun _ _ => Traced.reads_pure _
    · refine ih later (.inr ?_)
      rw [BitVec.ofInt_toInt]
      exact here

theorem safe_level {l : MlsLevel} (named : LevelNamed p l) : Safe p (mlsSidToContextLevelReads p l) := by
  unfold mlsSidToContextLevelReads
  refine Traced.Reads.bind (safe_symName.mpr named.1) fun _ _ => ?_
  exact Traced.Reads.bind (safe_cats named.2 (.inl rfl)) fun _ _ => Traced.reads_pure _

theorem safe_levelLen {l : MlsLevel} (named : LevelNamed p l) : Safe p (mlsComputeLevelLenReads p l) := by
  unfold mlsComputeLevelLenReads
  refine Traced.Reads.bind (safe_symName.mpr named.1) fun _ _ => ?_
  exact Traced.Reads.bind (safe_catsLen named.2 (.inl rfl)) fun _ _ => Traced.reads_pure _

theorem safe_mls {c : Context}
    (named : p.mlsEnabled = true → LevelNamed p c.range.low ∧ LevelNamed p c.range.high) :
    Safe p (mlsSidToContextReads p c) := by
  unfold mlsSidToContextReads
  split
  · exact Traced.reads_pure _
  · rename_i enabled
    obtain ⟨low, high⟩ := named (by simpa using enabled)
    refine Traced.Reads.bind (safe_level low) fun _ _ => ?_
    split
    · exact Traced.reads_pure _
    · exact Traced.Reads.bind (safe_level high) fun _ _ => Traced.reads_pure _

theorem safe_mlsLen {c : Context}
    (named : p.mlsEnabled = true → LevelNamed p c.range.low ∧ LevelNamed p c.range.high) :
    Safe p (mlsComputeContextLenReads p c) := by
  unfold mlsComputeContextLenReads
  split
  · exact Traced.reads_pure _
  · rename_i enabled
    obtain ⟨low, high⟩ := named (by simpa using enabled)
    refine Traced.Reads.bind (safe_levelLen low) fun _ _ => ?_
    split
    · exact Traced.reads_pure _
    · exact Traced.Reads.bind (safe_levelLen high) fun _ _ => Traced.reads_pure _

/-- A context that is filled is printed without an empty slot. -/
theorem safe_print {c : Context} (filled : ContextFilled p c) :
    Safe p (contextStructToStringReads p c) := by
  unfold contextStructToStringReads
  cases c.str with
  | some str => exact Traced.reads_pure _
  | none =>
    refine Traced.Reads.bind (safe_symName.mpr filled.userName) fun _ _ => ?_
    refine Traced.Reads.bind (safe_symName.mpr filled.roleName) fun _ _ => ?_
    refine Traced.Reads.bind (safe_symName.mpr filled.typeName) fun _ _ => ?_
    refine Traced.Reads.bind (safe_mlsLen filled.levels) fun _ _ => ?_
    exact Traced.Reads.bind (safe_mls filled.levels) fun _ _ => Traced.reads_pure _

/-- The names of a context that was printed without an empty slot. -/
theorem print_named {c : Context} (mapped : c.str = none) (safe : Safe p (contextStructToStringReads p c)) :
    Filled p .userNames c.user ∧ Filled p .roleNames c.role ∧ Filled p .typeNames c.type ∧
      Safe p (mlsComputeContextLenReads p c) := by
  unfold contextStructToStringReads at safe
  rw [mapped] at safe
  dsimp only at safe
  obtain ⟨_, _, afterUser⟩ := safe_after (answers_symName fun _ => rfl) safe
  obtain ⟨_, _, afterRole⟩ := safe_after (answers_symName fun _ => rfl) afterUser
  obtain ⟨_, _, afterType⟩ := safe_after (answers_symName fun _ => rfl) afterRole
  exact ⟨safe_symName.mp safe.left, safe_symName.mp afterUser.left, safe_symName.mp afterRole.left,
    afterType.left⟩

end Names

end Ksrc.Guarantees.NamedContexts

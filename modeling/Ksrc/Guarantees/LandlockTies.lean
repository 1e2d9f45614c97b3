import Ksrc.Guarantees.LandlockDrain

/-!
# Each reference taken for a Landlock object is dropped once

Source: `landlock/src/fs.c`, `object.c`. For every interleaving of `get_inode_object`,
`landlock_put_object` and `hook_sb_delete`.
-/
namespace Ksrc.Guarantees.LandlockTies

open Library Source LandlockInodes LandlockLives
open LandlockShutdown LandlockDrain

/-- Nobody has taken over the reference of an object. -/
def Tied (s : ObjectRun) (object : Nat) : Prop :=
  (∃ o, s.code.object object = some o ∧ o.underobj = some (s.inodeOf object)) ∧
    ∀ t inode part, holding (s.code.thread t) ≠ some (object, inode, part)

/-- One thread has taken over the reference, and nothing keeps it from dropping it. -/
def TakenOver (fs : Superblocks) (s : ObjectRun) (object : Nat) : Prop :=
  (∀ o, s.code.object object = some o → o.underobj = none) ∧
    ∃ t, (∃ part, holding (s.code.thread t) = some (object, s.inodeOf object, part)) ∧
      (∀ new, (s.code.threadStep fs t new).isSome) ∧
      ∀ u inode part, holding (s.code.thread u) = some (object, inode, part) → u = t

/-- The reference is dropped, and nobody is about to drop it again. -/
def Dropped (s : ObjectRun) (object : Nat) : Prop :=
  (∀ o, s.code.object object = some o → o.underobj = none) ∧
    ∀ t inode part, holding (s.code.thread t) ≠ some (object, inode, part)

/-- The `ihold` for an object is matched by one `iput`: it is not done yet where the object is
tied or one thread has taken the reference over, and a tied object that nobody uses is about to
be taken over. -/
structure DroppedOnce (fs : Superblocks) (s : ObjectRun) : Prop where
  iholds : ∀ o, s.iholds o ≤ 1
  before : ∀ o, s.iholds o = 0 → s.iputs o = 0
  once : ∀ o, s.iholds o = 1 → s.iputs o = 0 ∧ (Tied s o ∨ TakenOver fs s o) ∨
    s.iputs o = 1 ∧ Dropped s o
  unused : ∀ o x, s.code.object o = some x → x.usage = 0 → x.underobj ≠ none →
    ∃ t, s.code.thread t = .releasing o

/-- No two objects have a reference to one inode. -/
def OneReference (s : ObjectRun) : Prop :=
  ∀ inode o o', Outstanding s inode o → Outstanding s inode o' → o = o'

/-- Of two objects with a reference to one inode one is untied: its thread has reset
`inode_sec->object` and calls `iput` next. -/
def OneTied (s : ObjectRun) : Prop :=
  ∀ inode o o', Outstanding s inode o → Outstanding s inode o' → o ≠ o' →
    ∃ t x, (x = o ∨ x = o') ∧ holding (s.code.thread t) = some (x, inode, .resetter)

/-- After `hook_sb_delete` no `release_inode` is at work for an inode of the superblock. -/
def Drained (fs : Superblocks) (s : ObjectRun) : Prop :=
  ∀ sb, s.deleted sb = true → ∀ t inode, draining (s.code.thread t) = some inode →
    fs.superblock inode ≠ sb

section Lives

open InodeObjects

variable {fs : Superblocks} {s : ObjectRun} {life : Nat → Life} {t object inode : Nat} {part : Part}

/-- A thread that has taken over a reference never waits. -/
theorem taker_steps (agrees : Agrees s life)
    (holds : holding (s.code.thread t) = some (object, inode, part)) (took : part ≠ .creator)
    (new : Option Nat) : (s.code.threadStep fs t new).isSome := by
  unfold threadStep
  cases phase : s.code.thread t with
  | releaseTook o i =>
    have isLife := (agrees.holder holds).1
    rw [phase] at holds
    cases holds
    have under := agrees.underobjs object
    rw [isLife] at under
    obtain ⟨x, here, -⟩ := Option.map_eq_some_iff.mp under
    simp only [putStep, phase, here, Option.map_some, Option.isSome_some]
  | releaseCounted o i => simp only [putStep, phase, Option.isSome_some]
  | releaseCleared o i => simp only [putStep, phase, Option.isSome_some]
  | hookTook sb i o rest prev => simp only [hookStep, phase, Option.isSome_some]
  | hookCleared sb i o rest prev => simp only [hookStep, phase, Option.isSome_some]
  | created i o =>
    rw [phase] at holds
    cases holds
    exact absurd rfl took
  | _ =>
    rw [phase] at holds
    cases holds

theorem Agrees.unheld (agrees : Agrees s life) (nobody : (life object).holder = none) :
    holding (s.code.thread t) ≠ some (object, inode, part) := by
  intro holds
  have holder := ((agrees.holders t object inode part).mp holds).1
  rw [nobody] at holder
  cases holder

theorem Agrees.underobj (agrees : Agrees s life) {o : LandlockObject}
    (untied : (life object).underobj (s.inodeOf object) = some none)
    (here : s.code.object object = some o) : o.underobj = none := by
  have under := agrees.underobjs object
  rw [untied, here, Option.map_some] at under
  exact Option.some.inj under

theorem Agrees.takenOver (agrees : Agrees s life) (isLife : life object = .held t part)
    (took : part ≠ .creator) : TakenOver fs s object := by
  have holds : holding (s.code.thread t) = some (object, s.inodeOf object, part) := by
    rw [agrees.holders, isLife]
    exact ⟨rfl, rfl⟩
  refine ⟨fun o here => Agrees.underobj agrees ?_ here, t, ⟨part, holds⟩,
    taker_steps agrees holds took, ?_⟩
  · rw [isLife]
    cases part with
    | creator => exact absurd rfl took
    | taker => rfl
    | resetter => rfl
  · intro u i part' other
    have same := (agrees.holder other).1
    rw [isLife] at same
    cases same
    rfl

theorem dropped_once_of_lives (agrees : Agrees s life) (locked : Locked s) : DroppedOnce fs s := by
  refine ⟨fun o => ?_, fun o zero => ?_, fun o one => ?_, locked.unused⟩
  · rw [agrees.iholds]
    cases life o with
    | absent => exact Nat.zero_le 1
    | held u part => cases part <;> first | exact Nat.zero_le 1 | exact Nat.le_refl 1
    | tied => exact Nat.le_refl 1
    | dropped => exact Nat.le_refl 1
  · rw [agrees.iholds] at zero
    rw [agrees.iputs]
    cases isLife : life o with
    | dropped =>
      rw [isLife] at zero
      cases zero
    | _ => rfl
  · rw [agrees.iholds] at one
    rw [agrees.iputs]
    cases isLife : life o with
    | absent =>
      rw [isLife] at one
      cases one
    | held u part =>
      refine .inl ⟨rfl, .inr (Agrees.takenOver agrees isLife ?_)⟩
      rintro rfl
      rw [isLife] at one
      cases one
    | tied =>
      refine .inl ⟨rfl, .inl ⟨?_, fun t i part => Agrees.unheld agrees (by rw [isLife]; rfl)⟩⟩
      have under := agrees.underobjs o
      rw [isLife] at under
      exact Option.map_eq_some_iff.mp under
    | dropped =>
      refine .inr ⟨rfl, fun x here => Agrees.underobj agrees (by rw [isLife]; rfl) here, ?_⟩
      exact fun t i part => Agrees.unheld agrees (by rw [isLife]; rfl)

/-- A reference that is not dropped is tied, or a thread is about to drop it. -/
theorem outstanding_cases (agrees : Agrees s life) (outstanding : Outstanding s inode object) :
    (s.code.inode inode).object = some object ∨
      ∃ t, holding (s.code.thread t) = some (object, inode, .resetter) := by
  obtain ⟨home, one, zero⟩ := outstanding
  rw [agrees.iholds] at one
  rw [agrees.iputs] at zero
  cases isLife : life object with
  | absent =>
    rw [isLife] at one
    cases one
  | dropped =>
    rw [isLife] at zero
    cases zero
  | tied =>
    left
    rw [agrees.pointers, isLife]
    exact ⟨trivial, home⟩
  | held u part =>
    cases part with
    | creator =>
      rw [isLife] at one
      cases one
    | taker =>
      left
      rw [agrees.pointers, isLife]
      exact ⟨trivial, home⟩
    | resetter =>
      right
      refine ⟨u, ?_⟩
      rw [agrees.holders, isLife]
      exact ⟨rfl, home⟩

theorem one_tied_of_lives (agrees : Agrees s life) : OneTied s := by
  intro i o o' first second differs
  rcases outstanding_cases agrees first with pointer | ⟨t, resets⟩
  · rcases outstanding_cases agrees second with pointer' | ⟨t, resets⟩
    · rw [pointer] at pointer'
      exact absurd (Option.some.inj pointer') differs
    · exact ⟨t, o', .inr rfl, resets⟩
  · exact ⟨t, o, .inl rfl, resets⟩

end Lives

/-- What holds in every state of an unguarded run. -/
structure Kept (fs : Superblocks) (s : ObjectRun) (life : Nat → Life) : Prop where
  agrees : Agrees s life
  counted : Counted s
  locked : Locked s
  refs : RefsCount fs s

section Runs

variable {fs : Superblocks} {s s' : ObjectRun} {guard : ObjectRun → ObjectAct → Prop}

theorem untied_kept (untied : Untied s) : Kept fs s fun _ => .absent :=
  ⟨untied_agrees untied, untied_counted untied, untied_locked untied, untied_refs untied⟩

theorem Kept.step {life : Nat → Life} {a : ObjectAct} (kept : Kept fs s life)
    (stepped : act fs s a = some s') : ∃ life', Kept fs s' life' := by
  obtain ⟨life', agrees⟩ := act_agrees kept.agrees stepped
  exact ⟨life', agrees, act_counted kept.counted kept.agrees stepped,
    act_locked kept.locked kept.agrees stepped, act_refs kept.refs stepped⟩

theorem reachable_kept (reached : (inodeObjects fs).Reachable guard s) :
    ∃ life, Kept fs s life := by
  have start : ∀ s₀, (inodeObjects fs).start s₀ → ∃ life, Kept fs s₀ life :=
    fun s₀ untied => ⟨_, untied_kept untied⟩
  refine reached.invariant start ?_
  rintro s a s' ⟨life, kept⟩ _ stepped
  exact kept.step stepped

theorem reachable_closing (reached : (inodeObjects fs).Reachable (Unmounts fs) s) :
    Closing fs s := by
  have both : (∃ life, Kept fs s life) ∧ Closing fs s := by
    have start : ∀ s₀, (inodeObjects fs).start s₀ → (∃ life, Kept fs s₀ life) ∧ Closing fs s₀ :=
      fun s₀ untied => ⟨⟨_, untied_kept untied⟩, untied_closing untied⟩
    refine reached.invariant start ?_
    rintro s a s' ⟨⟨life, kept⟩, closing⟩ meets stepped
    exact ⟨kept.step stepped, act_closing closing kept.agrees kept.counted kept.locked kept.refs
      meets stepped⟩
  exact both.2

/-- Each reference is dropped exactly once and one object at a time is tied to an inode; where
superblocks are shut down as their callers promise, `hook_sb_delete` has waited for every
`release_inode`. -/
theorem inode_references_dropped_once :
    ((inodeObjects fs).Reachable Machine.free s → DroppedOnce fs s ∧ OneTied s) ∧
      ((inodeObjects fs).Reachable (Unmounts fs) s → Drained fs s) := by
  constructor
  · intro reached
    obtain ⟨life, kept⟩ := reachable_kept reached
    exact ⟨dropped_once_of_lives kept.agrees kept.locked, one_tied_of_lives kept.agrees⟩
  · intro reached sb deleted t inode drains home
    exact (reachable_closing reached).drained sb deleted t ⟨inode, drains, home⟩

end Runs

section Interleavings

/-- Each superblock has one inode. -/
def oneInodeEach : Superblocks where
  superblock := id
  inodes sb := [sb]
  listed _ _ home := List.mem_singleton.mpr home

def untiedInodes : ObjectRun where
  code := { inode := fun _ => { count := 2, state := .live, object := none }
            object := fun _ => none, inodeRefs := fun _ => 0, thread := fun _ => .idle }
  users := fun _ => 2
  owned := fun _ => 0
  inodeOf := fun _ => 0
  iholds := fun _ => 0
  releaseIputs := fun _ => 0
  hookIputs := fun _ => 0
  closing := fun _ => false
  deleted := fun _ => false

theorem untiedInodes_starts : (inodeObjects oneInodeEach).start untiedInodes :=
  ⟨fun _ => rfl, fun _ => rfl, fun _ => rfl, fun _ => rfl, nofun, fun _ => rfl, fun _ => rfl,
    fun _ => rfl, fun _ => rfl, fun _ => rfl, fun _ => rfl, fun _ => rfl⟩

/-- A `get_inode_object` that creates an object. -/
def tie (t inode object : Nat) : List ObjectAct :=
  [.getInodeObject t inode, .step t none, .step t (some object), .step t none]

/-- A `landlock_put_object` of the last reference up to the increment of `inode_refs`. -/
def release (t object : Nat) : List ObjectAct :=
  .putObject t object :: List.replicate 4 (.step t none)

/-- A second object is tied before the `iput` for the first one. -/
def tiedEarly : List ObjectAct := tie 0 0 0 ++ release 0 0 ++ [.step 0 none] ++ tie 1 0 1

/-- A `get_inode_object` overlaps with a `hook_sb_delete` of the superblock. -/
def tiedLate : List ObjectAct :=
  .getInodeObject 1 0 :: .sbDelete 0 0 :: List.replicate 4 (.step 0 none) ++
    [.step 1 none, .step 1 (some 0), .step 1 none] ++ release 1 0

def afterRun (acts : List ObjectAct) : ObjectRun :=
  ((inodeObjects oneInodeEach).exec untiedInodes acts).getD untiedInodes

theorem tied_and_drained_fail :
    (∃ s, (inodeObjects oneInodeEach).Reachable Machine.free s ∧ ¬ OneReference s) ∧
      ∃ s, (inodeObjects oneInodeEach).Reachable Machine.free s ∧ ¬ Drained oneInodeEach s := by
  constructor
  · have ran : (inodeObjects oneInodeEach).exec untiedInodes tiedEarly =
        some (afterRun tiedEarly) := rfl
    refine ⟨_, ⟨untiedInodes, untiedInodes_starts, Machine.exec_reaches ran⟩, fun one => ?_⟩
    have first : Outstanding (afterRun tiedEarly) 0 0 := ⟨rfl, rfl, rfl⟩
    have second : Outstanding (afterRun tiedEarly) 0 1 := ⟨rfl, rfl, rfl⟩
    exact absurd (one 0 0 1 first second) (by decide)
  · have ran : (inodeObjects oneInodeEach).exec untiedInodes tiedLate =
        some (afterRun tiedLate) := rfl
    refine ⟨_, ⟨untiedInodes, untiedInodes_starts, Machine.exec_reaches ran⟩, fun drained => ?_⟩
    exact drained 0 rfl 1 0 rfl rfl

/-- An object is tied and released, then the superblock is shut down. -/
def released : List ObjectAct :=
  .step 0 none :: .step 0 (some 0) :: .step 0 none :: release 0 0 ++ List.replicate 3 (.step 0 none)

def shutDown : List ObjectAct := .getInodeObject 0 0 :: released ++
  .sbDelete 0 0 :: List.replicate 4 (.step 0 none)

theorem shutDown_reachable :
    (inodeObjects oneInodeEach).Reachable (Unmounts oneInodeEach) (afterRun shutDown) := by
  have tied : (inodeObjects oneInodeEach).exec (afterRun [.getInodeObject 0 0]) released =
      some (afterRun (.getInodeObject 0 0 :: released)) := rfl
  have walked : (inodeObjects oneInodeEach).exec
      (afterRun (.getInodeObject 0 0 :: released ++ [.sbDelete 0 0])) (List.replicate 4 (.step 0 none)) =
        some (afterRun shutDown) := rfl
  have calls : (inodeObjects oneInodeEach).Reaches (Unmounts oneInodeEach) untiedInodes
      (afterRun [.getInodeObject 0 0]) :=
    Machine.Reaches.snoc Relation.ReflTransGen.refl (.getInodeObject 0 0) rfl rfl
  have before := calls.trans (Machine.exec_reaches_guard tied ?_)
  · have nobody : Unmounts oneInodeEach (afterRun (.getInodeObject 0 0 :: released)) (.sbDelete 0 0) := by
      intro t inode caller
      cases t with
      | zero => cases caller
      | succ t => cases caller
    have shut := before.snoc (.sbDelete 0 0) nobody rfl
    refine ⟨untiedInodes, untiedInodes_starts, shut.trans (Machine.exec_reaches_guard walked ?_)⟩
    intro a member s
    rw [List.eq_of_mem_replicate member]
    trivial
  · intro a member s
    simp only [released, release, List.replicate, List.cons_append, List.nil_append, List.mem_cons,
      List.not_mem_nil, or_false] at member
    rcases member with rfl | rfl | rfl | rfl | rfl | rfl | rfl | rfl | rfl | rfl | rfl <;> trivial

theorem inode_references_dropped_once_runs :
    (DroppedOnce oneInodeEach (afterRun tiedEarly) ∧ OneTied (afterRun tiedEarly)) ∧
      (afterRun shutDown).deleted 0 = true ∧ Drained oneInodeEach (afterRun shutDown) := by
  have ran : (inodeObjects oneInodeEach).exec untiedInodes tiedEarly =
      some (afterRun tiedEarly) := rfl
  exact ⟨inode_references_dropped_once.1
      ⟨untiedInodes, untiedInodes_starts, Machine.exec_reaches ran⟩,
    rfl, inode_references_dropped_once.2 shutDown_reachable⟩

end Interleavings

end Ksrc.Guarantees.LandlockTies

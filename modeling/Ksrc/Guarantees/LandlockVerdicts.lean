import Ksrc.Guarantees.LandlockRename

/-!
# The exact answer of a walk of two parents, and the masks it leaves

Source: `landlock/src/fs.c` (`is_access_to_paths_allowed`). A walk that ends at the real root
with a refusal has met every rule, so the requested bits of its masks are final at each of its
exits. The comparison of the two sides is made at the start of a turn only: the rule of the
last directory comes after the last comparison.
-/
namespace Ksrc.Guarantees.LandlockVerdicts

open Library Library.SearchTree Source LandlockShape
  LandlockMasks LandlockWalks LandlockPathAccess
  LandlockRefer LandlockRename

variable {vfs : Vfs} {dom : LandlockRuleset} {path up : VfsPath} {request request1 request2 : U16}
  {masks m1 m2 : LayerMasks} {c1 : ChildAccess} {c2 : Option ChildAccess} {turns : Nat}
  {handled : U16} {layer : Nat} {right : Right} {child1 child2 : Option ChildAccess}
  {out : Bool × LayerMasks × Option LayerMasks} {grants grants' : Prop}

section Turn

theorem unmaskRule_answer {layers : List LandlockLayer} (some : layers ≠ []) :
    (unmaskRule request layers masks).1 = isEmptyFor request (unmaskRule request layers masks).2 := by
  cases layers with
  | nil => exact absurd rfl some
  | cons l rest =>
    unfold unmaskRule
    dsimp only
    split
    · rename_i empty
      exact empty.symm
    · rename_i notEmpty
      exact unmaskRule_fst (Bool.eq_false_iff.mpr notEmpty)

theorem findRule_layers {dentry : Dentry} {rule : LandlockRule} (shape : DomainShape dom)
    (found : findRule dom dentry = some rule) : rule.layers ≠ [] := by
  unfold findRule at found
  split at found
  · cases found
  · unfold landlockFindRule at found
    split at found
    · cases found
    · exact (shape.rules rule (find_some found).1).some_layer

/-- Where there is a rule, `unmask_layers` answers whether anything requested is still denied. -/
theorem unmaskLayers_answer {dentry : Dentry} {rule : LandlockRule} (shape : DomainShape dom)
    (found : findRule dom dentry = some rule) (request : U16) (masks : LayerMasks) :
    (unmaskLayers (findRule dom dentry) request masks).1 =
      isEmptyFor request (unmaskLayers (findRule dom dentry) request masks).2 := by
  unfold unmaskLayers
  split
  · rename_i zero
    rw [zero]
    exact isEmptyFor_zero.symm
  · rw [found]
    exact unmaskRule_answer (findRule_layers shape found)

/-- The answer of a turn: whether nothing that is checked is denied on either side. A turn
without a rule answers no, but then something was denied before it. -/
theorem turn_answer (shape : DomainShape dom) (dentry : Dentry)
    (before : ¬ (isEmptyFor request1 m1 = true ∧ isEmptyFor request2 m2 = true)) :
    ((unmaskLayers (findRule dom dentry) request1 m1).1 &&
        (unmaskLayers (findRule dom dentry) request2 m2).1) = true ↔
      isEmptyFor request1 (unmaskLayers (findRule dom dentry) request1 m1).2 = true ∧
        isEmptyFor request2 (unmaskLayers (findRule dom dentry) request2 m2).2 = true := by
  rw [Bool.and_eq_true]
  constructor
  · intro both
    exact ⟨unmaskLayers_empty both.1, unmaskLayers_empty both.2⟩
  · intro both
    cases found : findRule dom dentry with
    | none =>
      have same : ∀ (request : U16) (masks : LayerMasks),
          (unmaskLayers (findRule dom dentry) request masks).2 = masks := by
        intro request masks
        unfold unmaskLayers
        rw [found]
        split
        · rfl
        · rfl
      rw [same, same] at both
      exact absurd both before
    | some rule =>
      rw [← found, unmaskLayers_answer shape found, unmaskLayers_answer shape found]
      exact both

/-- A turn that checks a right carries over what is left of it. -/
theorem left_parent_requested (shape : DomainShape dom) (ascends : ascend vfs path = .parent up)
    (requested : requests request right = true) :
    Left vfs dom up (unmaskLayers (findRule dom (vfs.dentries path.dentry)) request masks).2
      layer right ↔ Left vfs dom path masks layer right := by
  have cleared := turn_cleared request shape (vfs.dentries path.dentry) masks layer right
  unfold Left
  rw [cleared, granted_parent ascends]
  grind

theorem left_end_requested (shape : DomainShape dom) (ends : ∀ up, ascend vfs path ≠ .parent up)
    (requested : requests request right = true) :
    Denies (unmaskLayers (findRule dom (vfs.dentries path.dentry)) request masks).2 layer right ↔
      Left vfs dom path masks layer right := by
  have cleared := turn_cleared request shape (vfs.dentries path.dentry) masks layer right
  unfold Left
  rw [cleared, granted_end ends]
  grind

theorem left_end (shape : DomainShape dom) (ends : ∀ up, ascend vfs path ≠ .parent up)
    (within : Within handled masks)
    (layer : Nat) (right : Right) :
    Denies (unmaskLayers (findRule dom (vfs.dentries path.dentry)) handled masks).2 layer right ↔
      Left vfs dom path masks layer right := by
  have cleared := turn_cleared handled shape (vfs.dentries path.dentry) masks layer right
  have inside := within layer right
  unfold Left
  rw [cleared, granted_end ends]
  grind

theorem no_parent (ends : ascend vfs path = .realRoot) (up : VfsPath) :
    ascend vfs path ≠ .parent up := by
  rw [ends]
  exact Ascent.noConfusion

end Turn

section Verdict

/-- The requested part of a mask of a walk from `path` is what is left of it at the end. -/
def Final (vfs : Vfs) (dom : LandlockRuleset) (path : VfsPath) (request : U16)
    (masks final : LayerMasks) : Prop :=
  ∀ layer right, requests request right = true →
    (Denies final layer right ↔ Left vfs dom path masks layer right)

/-- What a walk of two parents answers, and the masks it leaves when it refuses. -/
structure Verdict (vfs : Vfs) (dom : LandlockRuleset) (path : VfsPath) (request1 request2 : U16)
    (m1 m2 : LayerMasks) (grants : Prop) (out : Bool × LayerMasks × Option LayerMasks) :
    Prop where
  answer : out.1 = true ↔ grants
  first : out.1 = false → Final vfs dom path request1 m1 out.2.1
  second : out.1 = false → ∃ final, out.2.2 = some final ∧ Final vfs dom path request2 m2 final

theorem Verdict.congr (verdict : Verdict vfs dom path request1 request2 m1 m2 grants out)
    (same : grants ↔ grants') : Verdict vfs dom path request1 request2 m1 m2 grants' out :=
  ⟨verdict.answer.trans same, verdict.first, verdict.second⟩

theorem verdict_granted (granted : out.1 = true) (holds : grants) :
    Verdict vfs dom path request1 request2 m1 m2 grants out := by
  have never : ¬ out.1 = false := by
    rw [granted]
    exact Bool.noConfusion
  exact ⟨⟨fun _ => holds, fun _ => granted⟩, fun refused => absurd refused never,
    fun refused => absurd refused never⟩

/-- What is final from a later directory, of masks that have the same left, is final. -/
theorem Final.of_left {path' : VfsPath} {masks' final : LayerMasks}
    (is : Final vfs dom path' request masks' final)
    (same : ∀ layer right, requests request right = true →
      (Left vfs dom path' masks' layer right ↔ Left vfs dom path masks layer right)) :
    Final vfs dom path request masks final := by
  intro layer right requested
  rw [is layer right requested, same layer right requested]

theorem Verdict.of_left {path' : VfsPath} {m1' m2' : LayerMasks}
    (verdict : Verdict vfs dom path' request1 request2 m1' m2' grants out)
    (same1 : ∀ layer right, requests request1 right = true →
      (Left vfs dom path' m1' layer right ↔ Left vfs dom path m1 layer right))
    (same2 : ∀ layer right, requests request2 right = true →
      (Left vfs dom path' m2' layer right ↔ Left vfs dom path m2 layer right))
    (same : grants ↔ grants') : Verdict vfs dom path request1 request2 m1 m2 grants' out := by
  constructor
  · exact verdict.answer.trans same
  · intro refused
    exact (verdict.first refused).of_left same1
  · intro refused
    obtain ⟨final, isFinal, left⟩ := verdict.second refused
    exact ⟨final, isFinal, left.of_left same2⟩

/-- The answer and the masks of a walk that only checks requests. -/
theorem requestWalk_verdict (shape : DomainShape dom) (below : vfs.height path < turns)
    (ends : ending vfs path = .realRoot)
    (before : ¬ (isEmptyFor request1 m1 = true ∧ isEmptyFor request2 m2 = true)) :
    Verdict vfs dom path request1 request2 m1 m2
      (GrantsAll vfs dom path request1 m1 ∧ GrantsAll vfs dom path request2 m2)
      (accessWalk vfs dom request1 request2 child1 child2 turns path
        (requestWalk request1 request2 m1 m2)) := by
  induction turns generalizing path m1 m2 with
  | zero => omega
  | succ turns ih =>
    have answer := turn_answer shape (vfs.dentries path.dentry) before
    have cleared1 := turn_cleared request1 shape (vfs.dentries path.dentry) m1
    have cleared2 := turn_cleared request2 shape (vfs.dentries path.dentry) m2
    unfold accessWalk referCheck requestWalk
    dsimp only [unmaskLayersOpt]
    split
    · rename_i both
      obtain ⟨granted1, granted2⟩ := Bool.and_eq_true_iff.mp both
      refine verdict_granted ?_ ⟨grantsAll_empty shape granted1, grantsAll_empty shape granted2⟩
      rfl
    · rename_i notBoth
      have some := fun both => notBoth (answer.mpr both)
      split
      · rename_i up ascends
        have lower := ascend_lower ascends
        rw [ending_parent ascends] at ends
        refine (ih (by omega) ends some).of_left ?_ ?_ ?_
        · intro layer right requested
          exact left_parent_requested shape ascends requested
        · intro layer right requested
          exact left_parent_requested shape ascends requested
        · rw [grantsAll_parent ascends cleared1, grantsAll_parent ascends cleared2]
      · rename_i atRoot
        have last := no_parent atRoot
        constructor
        · rw [← grantsAll_end last cleared1, ← grantsAll_end last cleared2]
          exact answer
        · intro _ layer right requested
          exact left_end_requested shape last requested
        · intro _
          exact ⟨_, rfl, fun layer right requested => left_end_requested shape last requested⟩
      · rename_i internal disconnected
        rw [ending_end fun up => by rw [disconnected]; exact Ascent.noConfusion, disconnected] at ends
        cases ends

end Verdict

section Comparison

/-- The comparison of `no_more_access`, of what two sides deny. -/
def Compares (c1 : ChildAccess) (c2 : Option ChildAccess) (denied1 denied2 : Nat → Right → Prop) :
    Prop :=
  (∀ layer right, Relevant c1 right → denied1 layer right → Denies c1.masks layer right →
    denied2 layer right) ∧
  ∀ c, c2 = some c → ∀ layer right, Relevant c right → denied2 layer right →
    Denies c.masks layer right → denied1 layer right

/-- What masks still deny at the last directory of a walk, before its rule. -/
def LeftBeforeLast (vfs : Vfs) (dom : LandlockRuleset) (path : VfsPath) (masks : LayerMasks)
    (layer : Nat) (right : Right) : Prop :=
  Denies masks layer right ∧
    ∀ d ∈ (visited vfs path).dropLast, ¬ RuleGrants (findRule dom (vfs.dentries d)) layer right

theorem leftBeforeLast_end (ends : ∀ up, ascend vfs path ≠ .parent up) :
    LeftBeforeLast vfs dom path masks layer right ↔ Denies masks layer right := by
  unfold LeftBeforeLast
  rw [visited_end ends]
  simp only [List.dropLast_singleton, List.not_mem_nil, false_imp_iff, implies_true, and_true]

theorem leftBeforeLast_parent (shape : DomainShape dom) (ascends : ascend vfs path = .parent up)
    (within : Within handled masks) :
    LeftBeforeLast vfs dom up (unmaskLayers (findRule dom (vfs.dentries path.dentry)) handled
      masks).2 layer right ↔ LeftBeforeLast vfs dom path masks layer right := by
  have cleared := turn_cleared handled shape (vfs.dentries path.dentry) masks layer right
  have inside := within layer right
  have some : visited vfs up ≠ [] := List.ne_nil_of_mem (start_visited vfs up)
  unfold LeftBeforeLast
  rw [cleared, visited_parent ascends, List.dropLast_cons_of_ne_nil some]
  simp only [List.mem_cons, forall_eq_or_imp]
  grind

theorem Compares.congr {denied1 denied2 denied1' denied2' : Nat → Right → Prop}
    (same1 : ∀ layer right, denied1 layer right ↔ denied1' layer right)
    (same2 : ∀ layer right, denied2 layer right ↔ denied2' layer right) :
    Compares c1 c2 denied1 denied2 ↔ Compares c1 c2 denied1' denied2' := by
  unfold Compares
  simp only [same1, same2]

/-- Rules that are met on the way take the same pairs out of both sides. -/
theorem Compares.beforeLast (compares : Compares c1 c2 (Denies m1) (Denies m2)) (path : VfsPath) :
    Compares c1 c2 (LeftBeforeLast vfs dom path m1) (LeftBeforeLast vfs dom path m2) := by
  constructor
  · intro layer right relevant left denies
    exact ⟨compares.1 layer right relevant left.1 denies, left.2⟩
  · intro c isC2 layer right relevant left denies
    exact ⟨compares.2 c isC2 layer right relevant left.1 denies, left.2⟩

/-- Nothing is left of the masks at the end of a walk. -/
def NoneLeft (vfs : Vfs) (dom : LandlockRuleset) (path : VfsPath) (masks : LayerMasks) : Prop :=
  ∀ layer right, ¬ Left vfs dom path masks layer right

theorem NoneLeft.grantsAll (none : NoneLeft vfs dom path masks) (request : U16) :
    GrantsAll vfs dom path request masks := by
  intro layer right _ denies
  by_contra notGranted
  exact none layer right ⟨denies, notGranted⟩

theorem grantsAll_scoped_iff :
    GrantsAll vfs dom path request (scopeToRequest request masks).2 ↔
      GrantsAll vfs dom path request masks := by
  constructor
  · exact grantsAll_scoped
  · intro all layer right requested denies
    exact all layer right requested ((scopeToRequest_denies request masks layer right).mp denies).2

theorem left_scoped (requested : requests request right = true) :
    Left vfs dom path (scopeToRequest request masks).2 layer right ↔
      Left vfs dom path masks layer right := by
  unfold Left
  rw [scopeToRequest_denies]
  grind

/-- `scope_to_request` answers whether nothing requested is denied. -/
theorem scopeToRequest_answer :
    (scopeToRequest request masks).1 = isEmptyFor request (scopeToRequest request masks).2 := by
  unfold scopeToRequest isEmptyFor
  dsimp only
  rw [decide_eq_decide]
  constructor
  · intro none right _
    exact none right
  · intro none right
    by_cases requested : requests request right = true
    · exact none right requested
    · exact if_neg requested

/-- What the walk of a comparison decides: the requests, where the comparison has held before
the last rule, or that nothing is left to deny. -/
def WalkGrants (vfs : Vfs) (dom : LandlockRuleset) (path : VfsPath) (request1 request2 : U16)
    (c1 : ChildAccess) (c2 : Option ChildAccess) (m1 m2 : LayerMasks) : Prop :=
  Compares c1 c2 (LeftBeforeLast vfs dom path m1) (LeftBeforeLast vfs dom path m2) ∧
      GrantsAll vfs dom path request1 m1 ∧ GrantsAll vfs dom path request2 m2 ∨
    NoneLeft vfs dom path m1 ∧ NoneLeft vfs dom path m2

theorem walkGrants_of_compares (compares : Compares c1 c2 (Denies m1) (Denies m2)) :
    WalkGrants vfs dom path request1 request2 c1 c2 m1 m2 ↔
      GrantsAll vfs dom path request1 m1 ∧ GrantsAll vfs dom path request2 m2 := by
  have holds : Compares c1 c2 (LeftBeforeLast vfs dom path m1) (LeftBeforeLast vfs dom path m2) :=
    compares.beforeLast path
  have all1 : NoneLeft vfs dom path m1 → GrantsAll vfs dom path request1 m1 :=
    fun none => none.grantsAll request1
  have all2 : NoneLeft vfs dom path m2 → GrantsAll vfs dom path request2 m2 :=
    fun none => none.grantsAll request2
  unfold WalkGrants
  grind

theorem grantsAll_iff_left : GrantsAll vfs dom path request masks ↔
    ∀ layer right, requests request right = true → ¬ Left vfs dom path masks layer right := by
  unfold GrantsAll Left
  constructor
  · intro all layer right requested left
    exact left.2 (all layer right requested left.1)
  · intro none layer right requested denies
    by_contra notGranted
    exact none layer right requested ⟨denies, notGranted⟩

/-- It depends on what is left only. -/
theorem walkGrants_congr {path' : VfsPath} {m1' m2' : LayerMasks}
    (left1 : ∀ layer right, Left vfs dom path' m1' layer right ↔ Left vfs dom path m1 layer right)
    (left2 : ∀ layer right, Left vfs dom path' m2' layer right ↔ Left vfs dom path m2 layer right)
    (last1 : ∀ layer right,
      LeftBeforeLast vfs dom path' m1' layer right ↔ LeftBeforeLast vfs dom path m1 layer right)
    (last2 : ∀ layer right,
      LeftBeforeLast vfs dom path' m2' layer right ↔ LeftBeforeLast vfs dom path m2 layer right) :
    WalkGrants vfs dom path' request1 request2 c1 c2 m1' m2' ↔
      WalkGrants vfs dom path request1 request2 c1 c2 m1 m2 := by
  unfold WalkGrants NoneLeft
  rw [Compares.congr last1 last2]
  simp only [grantsAll_iff_left, left1, left2]

/-- The verdict of a walk from a turn at which the comparison passes. -/
theorem accessWalk_compared (shape : DomainShape dom) (below : vfs.height path < turns + 1)
    (ends : ending vfs path = .realRoot) (compares : noMoreAccess m1 c1 m2 c2 = true) :
    Verdict vfs dom path request1 request2 m1 m2
      (GrantsAll vfs dom path request1 m1 ∧ GrantsAll vfs dom path request2 m2)
      (accessWalk vfs dom request1 request2 (some c1) c2 (turns + 1) path
        (domainWalk handled m1 m2)) := by
  by_cases both : ((scopeToRequest request1 m1).1 && (scopeToRequest request2 m2).1) = true
  · obtain ⟨granted1, granted2⟩ := Bool.and_eq_true_iff.mp both
    apply verdict_granted
    · unfold accessWalk referCheck domainWalk
      simp only [if_pos compares, both, if_true]
    · constructor
      · intro layer right requested denies
        exact absurd denies (scopeToRequest_fst request1 m1 granted1 layer right requested)
      · intro layer right requested denies
        exact absurd denies (scopeToRequest_fst request2 m2 granted2 layer right requested)
  · have check : referCheck request1 request2 (some c1) c2 (domainWalk handled m1 m2) =
        (false, requestWalk request1 request2 (scopeToRequest request1 m1).2
          (scopeToRequest request2 m2).2) := by
      unfold referCheck domainWalk requestWalk
      simp only [if_pos compares, both, Bool.false_eq_true, if_false]
    have some : ¬ (isEmptyFor request1 (scopeToRequest request1 m1).2 = true ∧
        isEmptyFor request2 (scopeToRequest request2 m2).2 = true) := by
      rw [← scopeToRequest_answer, ← scopeToRequest_answer, ← Bool.and_eq_true]
      exact both
    rw [accessWalk_downgrade check rfl rfl]
    refine (requestWalk_verdict shape below ends some).of_left ?_ ?_ ?_
    · intro layer right requested
      exact left_scoped requested
    · intro layer right requested
      exact left_scoped requested
    · rw [grantsAll_scoped_iff, grantsAll_scoped_iff]

/-- The verdict of a walk that compares restrictions and ends at the real root. -/
theorem domainWalk_verdict (shape : DomainShape dom) (below : vfs.height path < turns)
    (ends : ending vfs path = .realRoot)
    (within1 : Within handled m1)
    (within2 : Within handled m2)
    (before : ¬ (isEmptyFor handled m1 = true ∧ isEmptyFor handled m2 = true)) :
    Verdict vfs dom path request1 request2 m1 m2
      (WalkGrants vfs dom path request1 request2 c1 c2 m1 m2)
      (accessWalk vfs dom request1 request2 (some c1) c2 turns path (domainWalk handled m1 m2)) := by
  induction turns generalizing path m1 m2 with
  | zero => omega
  | succ turns ih =>
    by_cases compares : noMoreAccess m1 c1 m2 c2 = true
    · refine (accessWalk_compared shape below ends compares).congr (Iff.symm ?_)
      exact walkGrants_of_compares (noMoreAccess_iff.mp compares)
    · have check : referCheck request1 request2 (some c1) c2 (domainWalk handled m1 m2) =
          (false, domainWalk handled m1 m2) := by
        unfold referCheck domainWalk
        simp only [if_neg compares]
      have answer := turn_answer shape (vfs.dentries path.dentry) before
      unfold accessWalk
      rw [check]
      unfold domainWalk
      dsimp only [unmaskLayersOpt]
      by_cases both : ((unmaskLayers (findRule dom (vfs.dentries path.dentry)) handled m1).1 &&
          (unmaskLayers (findRule dom (vfs.dentries path.dentry)) handled m2).1) = true
      · rw [if_pos both]
        obtain ⟨empty1, empty2⟩ := Bool.and_eq_true_iff.mp both
        refine verdict_granted ?_ (.inr ⟨not_left (grantsAll_empty shape empty1) within1,
          not_left (grantsAll_empty shape empty2) within2⟩)
        rfl
      · rw [if_neg both]
        have some := fun empty => both (answer.mpr empty)
        split
        · rename_i up ascends
          have lower := ascend_lower ascends
          have left1 := left_parent shape ascends within1
          have left2 := left_parent shape ascends within2
          rw [ending_parent ascends] at ends
          refine (ih (by omega) ends (within_turn shape _ within1) (within_turn shape _ within2)
            some).of_left ?_ ?_ ?_
          · intro layer right _
            exact left1 layer right
          · intro layer right _
            exact left2 layer right
          · exact walkGrants_congr left1 left2
              (fun layer right => leftBeforeLast_parent shape ascends within1)
              (fun layer right => leftBeforeLast_parent shape ascends within2)
        · rename_i atRoot
          have last := no_parent atRoot
          have final1 := left_end shape last within1
          have final2 := left_end shape last within2
          constructor
          · constructor
            · intro granted
              exact absurd granted both
            · rintro (⟨holds, -⟩ | ⟨none1, none2⟩)
              · rw [Compares.congr (fun _ _ => leftBeforeLast_end last)
                  (fun _ _ => leftBeforeLast_end last)] at holds
                exact absurd (noMoreAccess_iff.mpr holds) compares
              · apply answer.mpr
                constructor
                · apply isEmptyFor_iff.mpr
                  intro layer right _ denies
                  exact none1 layer right ((final1 layer right).mp denies)
                · apply isEmptyFor_iff.mpr
                  intro layer right _ denies
                  exact none2 layer right ((final2 layer right).mp denies)
          · intro _ layer right _
            exact final1 layer right
          · intro _
            exact ⟨_, rfl, fun layer right _ => final2 layer right⟩
        · rename_i internal disconnected
          rw [ending_end fun up => by rw [disconnected]; exact Ascent.noConfusion, disconnected]
            at ends
          cases ends

end Comparison

section Reparent

variable {mnt dir oldParent oldDentry : Nat} {child2 : Option Nat} {out1 out2 : Bool × LayerMasks}

/-- Collecting answers whether nothing is denied, when something was. -/
theorem collectWalk_answer (before : isEmptyFor handled masks = false) (granted : isEmptyFor handled
    (collectWalk vfs dom mnt handled turns dir masks).2 = true) :
    (collectWalk vfs dom mnt handled turns dir masks).1 = true := by
  induction turns generalizing dir masks with
  | zero =>
    unfold collectWalk at granted
    rw [before] at granted
    cases granted
  | succ turns ih =>
    have answer := unmaskLayers_fst (findRule dom (vfs.dentries dir)) before
    unfold collectWalk at granted ⊢
    dsimp only at granted ⊢
    split
    · rename_i stops
      exact stops
    · rename_i goes
      rw [if_neg goes] at granted
      rw [answer] at goes
      split
      · rename_i atRoot
        rw [if_pos atRoot] at granted
        exact absurd granted goes
      · rename_i below
        rw [if_neg below] at granted
        exact ih (Bool.eq_false_iff.mpr goes) granted

theorem collectDomainAccesses_answer (shape : DomainShape dom)
    (none : ∀ layer right,
      ¬ Denies (collectDomainAccesses vfs dom mnt dir emptyMasks).2 layer right) :
    (collectDomainAccesses vfs dom mnt dir emptyMasks).1 = true := by
  have refers : ∃ right : Right, accessInitiallyDenied.getLsbD right = true := by decide
  have handles : ∃ layer right, LayerHandles dom layer right := by
    obtain ⟨right, set⟩ := refers
    refine ⟨0, right, dom.fsAccessMasks.get ⟨0, shape.some_mask⟩,
      List.getElem?_eq_getElem shape.some_mask, ?_⟩
    rw [BitVec.getLsbD_or, set, Bool.or_true]
  unfold collectDomainAccesses at none ⊢
  split
  · rfl
  · rename_i user
    rw [if_neg user] at none
    apply collectWalk_answer
    · apply initLayerMasks_some shape.mask_limit
      intro zero
      obtain ⟨layer, right, here⟩ := handles
      have set := (initLayerMasks_requests shape.mask_limit landlockMaskAccessFs right).mpr
        ⟨requests_all right, layer, here⟩
      unfold requests at set
      rw [zero, BitVec.ofNat_eq_ofNat, BitVec.getLsbD_zero] at set
      cases set
    · apply isEmptyFor_iff.mpr
      intro layer right _
      exact none layer right

/-- The verdict of `is_access_to_paths_allowed` on the collected masks of two ordinary
hierarchies that end at the real root, not both of which grant everything. -/
theorem isAccessToPathsAllowed_verdict (shape : DomainShape dom)
    (isOld : Collected vfs dom mnt oldParent out1) (isNew : Collected vfs dom mnt dir out2)
    (denied : ¬ ((∀ layer right, ¬ Denies out1.2 layer right) ∧
      ∀ layer right, ¬ Denies out2.2 layer right))
    (real : request1 ≠ 0) (ordinary : Ordinary vfs ⟨mnt, dir⟩)
    (ends : ending vfs ⟨mnt, dir⟩ = .realRoot) :
    Verdict vfs dom (rootPath vfs mnt) request1 request2 out1.2 out2.2
      (WalkGrants vfs dom (rootPath vfs mnt) request1 request2
        (childAccess dom (vfs.dentries oldDentry))
        (child2.map fun dentry => childAccess dom (vfs.dentries dentry)) out1.2 out2.2)
      (isAccessToPathsAllowed vfs dom (rootPath vfs mnt) request1 out1.2 (some oldDentry) request2
        (some out2.2) child2) := by
  obtain ⟨user, outside⟩ := ordinary.root
  have within1 := isOld.within
  have within2 := isNew.within
  rw [isAccessToPathsAllowed_eq shape real user]
  apply domainWalk_verdict shape (Nat.lt_succ_self _) _ within1 within2
  · rintro ⟨empty1, empty2⟩
    exact denied ⟨not_denies_of_empty empty1 within1, not_denies_of_empty empty2 within2⟩
  · rw [← ordinary.under.to_root.1]
    exact ends

/-- The answer to a reparenting by what the walk of both parents leaves. -/
def reparentAnswer (request1 request2 : U16) (checked : Bool × LayerMasks × Option LayerMasks) :
    Except Errno Unit :=
  if checked.1 then .ok ()
  else if isEacces checked.2.1 request1 ||
      (match checked.2.2 with
        | some masks2 => isEacces masks2 request2
        | none => false) then .error .EACCES
  else .error .EXDEV

theorem checkReparent_eq (vfs : Vfs) (dom : LandlockRuleset) (oldDentry : Nat) (newDir : VfsPath)
    (newDentry : Nat) (exchange : Bool) (request1 request2 : U16) :
    checkReparent vfs dom oldDentry newDir newDentry exchange request1 request2 =
      if (collectDomainAccesses vfs dom newDir.mnt (oldParentOf vfs oldDentry newDir)
          emptyMasks).1 &&
        (collectDomainAccesses vfs dom newDir.mnt newDir.dentry emptyMasks).1 then .ok ()
      else reparentAnswer (request1 ||| landlockAccessFsRefer) (request2 ||| landlockAccessFsRefer)
        (isAccessToPathsAllowed vfs dom (rootPath vfs newDir.mnt)
          (request1 ||| landlockAccessFsRefer)
          (collectDomainAccesses vfs dom newDir.mnt (oldParentOf vfs oldDentry newDir)
            emptyMasks).2
          (some oldDentry) (request2 ||| landlockAccessFsRefer)
          (some (collectDomainAccesses vfs dom newDir.mnt newDir.dentry emptyMasks).2)
          (if exchange then some newDentry else none)) :=
  rfl

theorem reparentAnswer_ok {checked : Bool × LayerMasks × Option LayerMasks} :
    reparentAnswer request1 request2 checked = .ok () ↔ checked.1 = true := by
  unfold reparentAnswer
  split
  · rename_i granted
    exact ⟨fun _ => granted, fun _ => rfl⟩
  · rename_i refused
    generalize (isEacces checked.2.1 request1 || _) = eacces
    cases eacces with
    | true => simp only [if_true, reduceCtorEq, refused]
    | false => simp only [Bool.false_eq_true, if_false, reduceCtorEq, refused]

/-- A reparenting between two ordinary hierarchies that end at the real root is granted by what
is collected, or by the walk from the root of their mount. -/
theorem checkReparent_verdict (shape : DomainShape dom) {newDir : VfsPath} (newDentry : Nat)
    (exchange : Bool) (request1 request2 : U16)
    (oldOrdinary : Ordinary vfs ⟨newDir.mnt, oldParentOf vfs oldDentry newDir⟩)
    (newOrdinary : Ordinary vfs newDir) (ends : ending vfs newDir = .realRoot) :
    ∃ out1 out2 : Bool × LayerMasks,
      out1 = collectDomainAccesses vfs dom newDir.mnt (oldParentOf vfs oldDentry newDir)
        emptyMasks ∧
      out2 = collectDomainAccesses vfs dom newDir.mnt newDir.dentry emptyMasks ∧
      ((∀ layer right, ¬ Denies out1.2 layer right) ∧ (∀ layer right, ¬ Denies out2.2 layer right) ∧
          checkReparent vfs dom oldDentry newDir newDentry exchange request1 request2 = .ok () ∨
        ∃ checked,
          Verdict vfs dom (rootPath vfs newDir.mnt) (request1 ||| landlockAccessFsRefer)
            (request2 ||| landlockAccessFsRefer) out1.2 out2.2
            (WalkGrants vfs dom (rootPath vfs newDir.mnt) (request1 ||| landlockAccessFsRefer)
              (request2 ||| landlockAccessFsRefer) (childAccess dom (vfs.dentries oldDentry))
              ((if exchange then some newDentry else none).map fun dentry =>
                childAccess dom (vfs.dentries dentry)) out1.2 out2.2) checked ∧
          checkReparent vfs dom oldDentry newDir newDentry exchange request1 request2 =
            reparentAnswer (request1 ||| landlockAccessFsRefer)
              (request2 ||| landlockAccessFsRefer) checked) := by
  have isOld := collectDomainAccesses_collected shape oldOrdinary
  have isNew : Collected vfs dom newDir.mnt newDir.dentry
      (collectDomainAccesses vfs dom newDir.mnt newDir.dentry emptyMasks) :=
    collectDomainAccesses_collected shape newOrdinary
  refine ⟨_, _, rfl, rfl, ?_⟩
  rw [checkReparent_eq]
  by_cases none : (∀ layer right, ¬ Denies (collectDomainAccesses vfs dom newDir.mnt
      (oldParentOf vfs oldDentry newDir) emptyMasks).2 layer right) ∧
      ∀ layer right, ¬ Denies (collectDomainAccesses vfs dom newDir.mnt newDir.dentry
        emptyMasks).2 layer right
  · refine .inl ⟨none.1, none.2, ?_⟩
    rw [collectDomainAccesses_answer shape none.1, collectDomainAccesses_answer shape none.2]
    rfl
  · refine .inr ⟨_, isAccessToPathsAllowed_verdict shape isOld isNew none
      (or_refer_ne_zero request1) newOrdinary ends, ?_⟩
    rw [if_neg]
    intro both
    obtain ⟨granted1, granted2⟩ := Bool.and_eq_true_iff.mp both
    exact none ⟨isOld.granted granted1, isNew.granted granted2⟩

/-- What the operation asks to make or remove in the old parent. -/
def requestAtOld (vfs : Vfs) (oldDentry newDentry : Nat) (removable exchange : Bool) : U16 :=
  (match exchange, (vfs.dentries newDentry).inode with
    | true, some newInode => getModeAccess newInode.mode
    | _, _ => 0) |||
  if removable then maybeRemove (vfs.dentries oldDentry) else 0

/-- What it asks to make or remove in the new parent. -/
def requestAtNew (vfs : Vfs) (oldDentry newDentry : Nat) (removable : Bool) : U16 :=
  (match (vfs.dentries oldDentry).inode with
    | some oldInode => getModeAccess oldInode.mode
    | none => 0) |||
  if removable then maybeRemove (vfs.dentries newDentry) else 0

/-- Between two directories the call compares their hierarchies. -/
theorem currentCheckReferPath_apart (shape : DomainShape dom) {newDir : VfsPath} {newDentry : Nat}
    {removable exchange : Bool} (oldExists : (vfs.dentries oldDentry).inode ≠ none)
    (newExists : exchange = true → (vfs.dentries newDentry).inode ≠ none)
    (apart : (vfs.dentries oldDentry).parent ≠ newDir.dentry) :
    currentCheckReferPath vfs (some dom) oldDentry newDir newDentry removable exchange =
      checkReparent vfs dom oldDentry newDir newDentry exchange
        (requestAtOld vfs oldDentry newDentry removable exchange)
        (requestAtNew vfs oldDentry newDentry removable) := by
  have layers : ¬ dom.numLayers < 1 := by
    have positive := shape.some_mask
    omega
  have isNew : ¬ (exchange = true ∧ (vfs.dentries newDentry).inode = none) :=
    fun both => newExists both.1 both.2
  obtain ⟨oldInode, isOld⟩ := Option.ne_none_iff_exists'.mp oldExists
  unfold currentCheckReferPath requestAtOld requestAtNew
  simp only [if_neg layers, isOld, if_neg isNew, if_neg apart]
  cases removable with
  | true => rfl
  | false =>
    exact congrArg₂ (checkReparent vfs dom oldDentry newDir newDentry exchange)
      BitVec.or_zero.symm BitVec.or_zero.symm

end Reparent

end Ksrc.Guarantees.LandlockVerdicts

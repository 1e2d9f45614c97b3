import Ksrc.Guarantees.LandlockPathAccess

/-!
# A link or a rename gives no right away

Source: `landlock/src/fs.c` (`no_more_access`, `collect_domain_accesses`,
`is_access_to_paths_allowed`, `current_check_refer_path`). Both parent hierarchies are
collected up to the root of their mount and walked together from there. Where the check of
restrictions passes at some turn it would pass at the end of the walk, because the rules met
later take the same pairs out of both masks.
-/
namespace Ksrc.Guarantees.LandlockRefer

open Library Source LandlockShape LandlockMasks
  LandlockWalks LandlockPathAccess

variable {vfs : Vfs} {dom : LandlockRuleset} {path : VfsPath} {request1 request2 : U16}
  {masks masks' m1 m2 : LayerMasks} {c1 : ChildAccess} {c2 : Option ChildAccess}
  {child1 child2 : Option ChildAccess} {turns : Nat} {s : AccessWalk}

/-- What one turn of a walk that grants does. -/
inductive GrantingTurn (vfs : Vfs) (dom : LandlockRuleset) (request1 request2 : U16)
    (child1 child2 : Option ChildAccess) (turns : Nat) (path : VfsPath) (s : AccessWalk) : Prop
  | checked (granted : (referCheck request1 request2 child1 child2 s).1 = true)
  | emptied (empty1 : (unmaskLayers (findRule dom (vfs.dentries path.dentry))
        (referCheck request1 request2 child1 child2 s).2.accessMasked1
        (referCheck request1 request2 child1 child2 s).2.masks1).1 = true)
      (empty2 : (unmaskLayersOpt (findRule dom (vfs.dentries path.dentry))
        (referCheck request1 request2 child1 child2 s).2.accessMasked2
        (referCheck request1 request2 child1 child2 s).2.masks2).1 = true)
  | further (up : VfsPath) (ascends : ascend vfs path = .parent up)
      (granted : (accessWalk vfs dom request1 request2 child1 child2 turns up
        { (referCheck request1 request2 child1 child2 s).2 with
          masks1 := (unmaskLayers (findRule dom (vfs.dentries path.dentry))
            (referCheck request1 request2 child1 child2 s).2.accessMasked1
            (referCheck request1 request2 child1 child2 s).2.masks1).2
          masks2 := (unmaskLayersOpt (findRule dom (vfs.dentries path.dentry))
            (referCheck request1 request2 child1 child2 s).2.accessMasked2
            (referCheck request1 request2 child1 child2 s).2.masks2).2 }).1 = true)
  | internal (ends : ascend vfs path = .disconnected true)

theorem accessWalk_granting (granted : (accessWalk vfs dom request1 request2 child1 child2
    (turns + 1) path s).1 = true) :
    GrantingTurn vfs dom request1 request2 child1 child2 turns path s := by
  unfold accessWalk at granted
  cases check : referCheck request1 request2 child1 child2 s with
  | mk stops s' =>
    have isState : (referCheck request1 request2 child1 child2 s).2 = s' := by rw [check]
    cases stops with
    | true => exact .checked (by rw [check])
    | false =>
      simp only [check] at granted
      split at granted
      · rename_i both
        obtain ⟨empty1, empty2⟩ := Bool.and_eq_true_iff.mp both
        exact .emptied (by rw [isState]; exact empty1) (by rw [isState]; exact empty2)
      · rename_i notBoth
        split at granted
        · rename_i up ascends
          exact .further up ascends (by rw [isState]; exact granted)
        · exact absurd granted notBoth
        · rename_i internal ends
          dsimp only at granted
          rw [granted] at ends
          exact .internal ends

theorem ending_internal (ends : ascend vfs path = .disconnected true) :
    ending vfs path = .disconnected true := by
  rw [ending_end fun up => by rw [ends]; exact Ascent.noConfusion]
  exact ends

theorem granted_here {layer : Nat} {right : Right}
    (grants : RuleGrants (findRule dom (vfs.dentries path.dentry)) layer right) :
    Granted vfs dom path layer right :=
  ⟨path.dentry, start_visited vfs path, grants⟩

/-- A turn that leaves nothing requested denied grants all of it. -/
theorem grantsAll_empty {request : U16} (shape : DomainShape dom)
    (empty : (unmaskLayers (findRule dom (vfs.dentries path.dentry)) request masks).1 = true) :
    GrantsAll vfs dom path request masks := by
  intro layer right requested denies
  have cleared := turn_cleared request shape (vfs.dentries path.dentry) masks
  exact granted_here ((cleared_empty cleared).mp (unmaskLayers_empty empty) layer right requested
    denies)

section Requests

/-- The state of a walk that only checks what is requested. -/
def requestWalk (request1 request2 : U16) (m1 m2 : LayerMasks) : AccessWalk :=
  { isDomCheck := false, accessMasked1 := request1, accessMasked2 := request2, masks1 := m1
    masks2 := some m2 }

/-- A walk that only checks requests grants them by the rules on its way. -/
theorem accessWalk_requests (shape : DomainShape dom)
    (granted : (accessWalk vfs dom request1 request2 child1 child2 turns path
      (requestWalk request1 request2 m1 m2)).1 = true) :
    ending vfs path = .disconnected true ∨
      GrantsAll vfs dom path request1 m1 ∧ GrantsAll vfs dom path request2 m2 := by
  induction turns generalizing path m1 m2 with
  | zero => cases granted
  | succ turns ih =>
    have turn := accessWalk_granting granted
    cases turn with
    | checked granted => cases granted
    | emptied empty1 empty2 => exact .inr ⟨grantsAll_empty shape empty1, grantsAll_empty shape empty2⟩
    | further up ascends granted =>
      rw [ending_parent ascends]
      refine (ih granted).imp_right fun all => ?_
      have cleared1 := turn_cleared request1 shape (vfs.dentries path.dentry) m1
      have cleared2 := turn_cleared request2 shape (vfs.dentries path.dentry) m2
      exact ⟨(grantsAll_parent ascends cleared1).mp all.1,
        (grantsAll_parent ascends cleared2).mp all.2⟩
    | internal ends => exact .inl (ending_internal ends)

end Requests

section NoMoreAccess

/-- The rights that matter to a child. -/
def Relevant (child : ChildAccess) (right : Right) : Prop :=
  child.isDirectory = true ∨ isFileAccess right = true

/-- What stays denied to the end of a walk. -/
def Left (vfs : Vfs) (dom : LandlockRuleset) (path : VfsPath) (masks : LayerMasks) (layer : Nat)
    (right : Right) : Prop :=
  Denies masks layer right ∧ ¬ Granted vfs dom path layer right

theorem or_eq_iff (a b c : U16) : ((a &&& b) ||| c == c) = true ↔
    ∀ layer, a.getLsbD layer = true → b.getLsbD layer = true → c.getLsbD layer = true := by
  rw [beq_iff_eq]
  constructor
  · intro same layer inA inB
    rw [← same, BitVec.getLsbD_or, BitVec.getLsbD_and, inA, inB]
    rfl
  · intro all
    apply BitVec.eq_of_getLsbD_eq
    intro layer _
    rw [BitVec.getLsbD_or, BitVec.getLsbD_and]
    have here := all layer
    cases inA : a.getLsbD layer with
    | false => rfl
    | true =>
      cases inB : b.getLsbD layer with
      | false => rfl
      | true => rw [here inA inB]; rfl

/-- `no_more_access` on the masks as they are. -/
theorem noMoreAccess_iff : noMoreAccess m1 c1 m2 c2 = true ↔
    (∀ layer right, Relevant c1 right → Denies m1 layer right → Denies c1.masks layer right →
      Denies m2 layer right) ∧
    ∀ c, c2 = some c → ∀ layer right, Relevant c right → Denies m2 layer right →
      Denies c.masks layer right → Denies m1 layer right := by
  have side : ∀ (c : ChildAccess) (a b : LayerMasks) (right : Right),
      ((!(c.isDirectory || isFileAccess right) || (a right &&& c.masks right) ||| b right == b right)
        = true) ↔ (Relevant c right → ∀ layer, Denies a layer right → Denies c.masks layer right →
          Denies b layer right) := by
    intro c a b right
    unfold Relevant Denies
    rw [Bool.or_eq_true, or_eq_iff]
    cases c.isDirectory <;> cases isFileAccess right <;> simp
  unfold noMoreAccess
  rw [List.all_eq_true]
  constructor
  · intro all
    constructor
    · intro layer right relevant
      have here := (Bool.and_eq_true_iff.mp (all right (List.mem_finRange right))).1
      exact (side c1 m1 m2 right).mp here relevant layer
    · rintro c rfl layer right relevant
      have here := (Bool.and_eq_true_iff.mp (all right (List.mem_finRange right))).2
      exact (side c m2 m1 right).mp here relevant layer
  · rintro ⟨forth, back⟩ right -
    apply Bool.and_eq_true_iff.mpr
    constructor
    · exact (side c1 m1 m2 right).mpr fun relevant layer => forth layer right relevant
    · cases isC2 : c2 with
      | none => rfl
      | some c => exact (side c m2 m1 right).mpr fun relevant layer => back c isC2 layer right relevant

theorem scopeToRequest_denies (request : U16) (masks : LayerMasks) (layer : Nat) (right : Right) :
    Denies (scopeToRequest request masks).2 layer right ↔
      requests request right = true ∧ Denies masks layer right := by
  unfold Denies scopeToRequest
  dsimp only
  split
  · rename_i requested
    simp only [requested, true_and]
  · rename_i not
    rw [BitVec.ofNat_eq_ofNat, BitVec.getLsbD_zero]
    simp only [not, Bool.false_eq_true, false_and]

theorem scopeToRequest_fst (request : U16) (masks : LayerMasks)
    (granted : (scopeToRequest request masks).1 = true) (layer : Nat) (right : Right)
    (requested : requests request right = true) : ¬ Denies masks layer right := by
  intro denies
  have kept := (scopeToRequest_denies request masks layer right).mpr ⟨requested, denies⟩
  unfold scopeToRequest at granted
  dsimp only at granted
  have zero := of_decide_eq_true granted right
  have gone := layerMask_eq_zero.mp zero layer
  unfold Denies scopeToRequest at kept
  dsimp only at kept
  rw [gone] at kept
  cases kept

theorem grantsAll_scoped {request : U16}
    (all : GrantsAll vfs dom path request (scopeToRequest request masks).2) :
    GrantsAll vfs dom path request masks := by
  intro layer right requested denies
  exact all layer right requested
    ((scopeToRequest_denies request masks layer right).mpr ⟨requested, denies⟩)

/-- The state of a walk that compares what the domain handles. -/
def domainWalk (handled : U16) (m1 m2 : LayerMasks) : AccessWalk :=
  { isDomCheck := true, accessMasked1 := handled, accessMasked2 := handled, masks1 := m1
    masks2 := some m2 }

/-- What a walk that grants has shown for both parents. -/
structure Refers (vfs : Vfs) (dom : LandlockRuleset) (path : VfsPath) (request1 request2 : U16)
    (c1 : ChildAccess) (c2 : Option ChildAccess) (m1 m2 : LayerMasks) : Prop where
  forth : ∀ layer right, Relevant c1 right → Left vfs dom path m1 layer right →
    Denies c1.masks layer right → Left vfs dom path m2 layer right
  back : ∀ c, c2 = some c → ∀ layer right, Relevant c right → Left vfs dom path m2 layer right →
    Denies c.masks layer right → Left vfs dom path m1 layer right
  first : GrantsAll vfs dom path request1 m1
  second : GrantsAll vfs dom path request2 m2

/-- Nothing is denied but what is asked for. -/
def Within (handled : U16) (masks : LayerMasks) : Prop :=
  ∀ layer right, Denies masks layer right → requests handled right = true

theorem left_parent {handled : U16} {up : VfsPath} (shape : DomainShape dom)
    (ascends : ascend vfs path = .parent up)
    (within : Within handled masks)
    (layer : Nat) (right : Right) :
    Left vfs dom up (unmaskLayers (findRule dom (vfs.dentries path.dentry)) handled masks).2
      layer right ↔ Left vfs dom path masks layer right := by
  have cleared := turn_cleared handled shape (vfs.dentries path.dentry) masks layer right
  have inside := within layer right
  unfold Left
  rw [cleared, granted_parent ascends]
  tauto

theorem within_turn {handled : U16} (shape : DomainShape dom) (dentry : Dentry)
    (within : Within handled masks) :
    Within handled (unmaskLayers (findRule dom dentry) handled masks).2 :=
  fun layer right denies =>
    within layer right ((turn_cleared handled shape dentry masks layer right).mp denies).1

/-- Where everything handled is granted, nothing is left. -/
theorem not_left {handled : U16} (all : GrantsAll vfs dom path handled masks)
    (within : Within handled masks)
    (layer : Nat) (right : Right) : ¬ Left vfs dom path masks layer right := by
  rintro ⟨denies, notGranted⟩
  exact notGranted (all layer right (within layer right denies) denies)

theorem refers_of_none (none1 : ∀ layer right, ¬ Left vfs dom path m1 layer right)
    (none2 : ∀ layer right, ¬ Left vfs dom path m2 layer right) :
    Refers vfs dom path request1 request2 c1 c2 m1 m2 := by
  have all : ∀ {masks : LayerMasks} {request : U16},
      (∀ layer right, ¬ Left vfs dom path masks layer right) →
        GrantsAll vfs dom path request masks := by
    intro masks request none layer right _ denies
    by_contra notGranted
    exact none layer right ⟨denies, notGranted⟩
  exact ⟨fun layer right _ left => absurd left (none1 layer right),
    fun c _ layer right _ left => absurd left (none2 layer right), all none1, all none2⟩

/-- The two walks agree on the turn at which the comparison passes. -/
theorem accessWalk_downgrade {handled : U16} {stops : Bool} {s' : AccessWalk}
    (check : referCheck request1 request2 child1 child2 (domainWalk handled m1 m2) = (stops, s'))
    (plain : s'.isDomCheck = false) (continues : stops = false) :
    accessWalk vfs dom request1 request2 child1 child2 (turns + 1) path (domainWalk handled m1 m2) =
      accessWalk vfs dom request1 request2 child1 child2 (turns + 1) path s' := by
  have again : referCheck request1 request2 child1 child2 s' = (false, s') := by
    unfold referCheck
    rw [plain]
  unfold accessWalk
  rw [check, again, continues]

/-- A walk that compares restrictions passes only if they hold at its end. -/
theorem accessWalk_refers {handled : U16} (shape : DomainShape dom)
    (within1 : Within handled m1)
    (within2 : Within handled m2)
    (granted : (accessWalk vfs dom request1 request2 (some c1) c2 turns path
      (domainWalk handled m1 m2)).1 = true) :
    ending vfs path = .disconnected true ∨ Refers vfs dom path request1 request2 c1 c2 m1 m2 := by
  induction turns generalizing path m1 m2 with
  | zero => cases granted
  | succ turns ih =>
    by_cases compares : noMoreAccess m1 c1 m2 c2 = true
    · -- the comparison passes here, and what is left of both masks shrinks alike
      obtain ⟨forth, back⟩ := noMoreAccess_iff.mp compares
      have forthLeft : ∀ layer right, Relevant c1 right → Left vfs dom path m1 layer right →
          Denies c1.masks layer right → Left vfs dom path m2 layer right :=
        fun layer right relevant left denies =>
          ⟨forth layer right relevant left.1 denies, left.2⟩
      have backLeft : ∀ c, c2 = some c → ∀ layer right, Relevant c right →
          Left vfs dom path m2 layer right → Denies c.masks layer right →
            Left vfs dom path m1 layer right :=
        fun c isC2 layer right relevant left denies =>
          ⟨back c isC2 layer right relevant left.1 denies, left.2⟩
      by_cases both : ((scopeToRequest request1 m1).1 && (scopeToRequest request2 m2).1) = true
      · obtain ⟨granted1, granted2⟩ := Bool.and_eq_true_iff.mp both
        refine .inr ⟨forthLeft, backLeft, ?_, ?_⟩
        · intro layer right requested denies
          exact absurd denies (scopeToRequest_fst request1 m1 granted1 layer right requested)
        · intro layer right requested denies
          exact absurd denies (scopeToRequest_fst request2 m2 granted2 layer right requested)
      · have check : referCheck request1 request2 (some c1) c2 (domainWalk handled m1 m2) =
            (false, requestWalk request1 request2 (scopeToRequest request1 m1).2
              (scopeToRequest request2 m2).2) := by
          unfold referCheck domainWalk requestWalk
          simp only [if_pos compares, both, Bool.false_eq_true, if_false]
        rw [accessWalk_downgrade check rfl rfl] at granted
        refine (accessWalk_requests shape granted).imp_right fun all => ?_
        exact ⟨forthLeft, backLeft, grantsAll_scoped all.1, grantsAll_scoped all.2⟩
    · have check : referCheck request1 request2 (some c1) c2 (domainWalk handled m1 m2) =
          (false, domainWalk handled m1 m2) := by
        unfold referCheck domainWalk
        simp only [if_neg compares]
      have turn := accessWalk_granting granted
      cases turn with
      | checked granted =>
        rw [check] at granted
        cases granted
      | emptied empty1 empty2 =>
        rw [check] at empty1 empty2
        exact .inr (refers_of_none
          (not_left (grantsAll_empty shape empty1) within1)
          (not_left (grantsAll_empty shape empty2) within2))
      | further up ascends granted =>
        rw [check] at granted
        rw [ending_parent ascends]
        refine (ih (within_turn shape _ within1) (within_turn shape _ within2) granted).imp_right
          fun refers => ?_
        have cleared1 := turn_cleared handled shape (vfs.dentries path.dentry) m1
        have cleared2 := turn_cleared handled shape (vfs.dentries path.dentry) m2
        have left1 := left_parent shape ascends within1
        have left2 := left_parent shape ascends within2
        constructor
        · intro layer right relevant left denies
          exact (left2 layer right).mp
            (refers.forth layer right relevant ((left1 layer right).mpr left) denies)
        · intro c isC2 layer right relevant left denies
          exact (left1 layer right).mp
            (refers.back c isC2 layer right relevant ((left2 layer right).mpr left) denies)
        · intro layer right requested denies
          by_contra notGranted
          have left := (left1 layer right).mpr ⟨denies, notGranted⟩
          exact left.2 (refers.first layer right requested left.1)
        · intro layer right requested denies
          by_contra notGranted
          have left := (left2 layer right).mpr ⟨denies, notGranted⟩
          exact left.2 (refers.second layer right requested left.1)
      | internal ends => exact .inl (ending_internal ends)

end NoMoreAccess

end Ksrc.Guarantees.LandlockRefer

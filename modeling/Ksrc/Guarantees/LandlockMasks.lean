import Ksrc.Guarantees.LandlockShape
import Ksrc.Source.LandlockFs

/-!
# What the layer masks of a path check say

Source: `landlock/src/fs.c`. The bit of a layer in the mask of an access right says that the
layer handles the right and that no rule met so far grants it there. The operations on the
masks are read as sets of pairs of a layer and a right.
-/
namespace Ksrc.Guarantees.LandlockMasks

open Library Source LandlockShape

/-- An access right by its bit. -/
abbrev Right := Fin landlockNumAccessFs

/-- Whether a layer, counted from 0, handles a right; each handles the initially denied. -/
def LayerHandles (dom : LandlockRuleset) (layer : Nat) (right : Right) : Prop :=
  ∃ mask, dom.fsAccessMasks[layer]? = some mask ∧
    (mask ||| accessInitiallyDenied).getLsbD right = true

def LayersGrant (layers : List LandlockLayer) (layer : Nat) (right : Right) : Prop :=
  ∃ l ∈ layers, l.level.toNat = layer + 1 ∧ l.access.getLsbD right = true

/-- Whether a rule grants a right in a layer. -/
def RuleGrants (rule : Option LandlockRule) (layer : Nat) (right : Right) : Prop :=
  ∃ r, rule = some r ∧ LayersGrant r.layers layer right

/-- Whether a layer still denies a right. -/
def Denies (masks : LayerMasks) (layer : Nat) (right : Right) : Prop :=
  (masks right).getLsbD layer = true

/-- Masks after the grants of some pairs are taken out of the requested rights. -/
def Cleared (request : U16) (grants : Nat → Right → Prop) (masks masks' : LayerMasks) : Prop :=
  ∀ layer right, Denies masks' layer right ↔
    Denies masks layer right ∧ ¬ (requests request right = true ∧ grants layer right)

/-- Levels that `BIT_ULL(level - 1)` has a bit for. -/
def LevelsOk (layers : List LandlockLayer) : Prop :=
  ∀ l ∈ layers, 1 ≤ l.level.toNat ∧ l.level.toNat ≤ landlockMaxNumLayers

variable {request : U16} {masks masks' masks'' : LayerMasks} {layers : List LandlockLayer}
  {grants grants' : Nat → Right → Prop} {dom : LandlockRuleset}

theorem layerMask_eq_zero {mask : U16} :
    mask = 0 ↔ ∀ layer, mask.getLsbD layer = false := by
  constructor
  · rintro rfl layer
    exact BitVec.getLsbD_zero
  · intro none
    apply BitVec.eq_of_getLsbD_eq
    intro layer _
    rw [none]
    exact BitVec.getLsbD_zero.symm

/-- Nothing requested is denied. -/
theorem isEmptyFor_iff : isEmptyFor request masks = true ↔
    ∀ layer right, requests request right = true → ¬ Denies masks layer right := by
  unfold isEmptyFor Denies
  rw [decide_eq_true_iff]
  constructor
  · intro empty layer right requested denies
    rw [empty right requested, BitVec.ofNat_eq_ofNat, BitVec.getLsbD_zero] at denies
    cases denies
  · intro none right requested
    apply layerMask_eq_zero.mpr
    intro layer
    exact Bool.eq_false_iff.mpr (none layer right requested)

theorem cleared_refl (none : ∀ layer right, requests request right = true → ¬ grants layer right) :
    Cleared request grants masks masks := by
  intro layer right
  constructor
  · intro denies
    exact ⟨denies, fun ⟨requested, granted⟩ => none layer right requested granted⟩
  · exact And.left

theorem Cleared.trans (first : Cleared request grants masks masks')
    (second : Cleared request grants' masks' masks'') :
    Cleared request (fun layer right => grants layer right ∨ grants' layer right) masks masks'' := by
  intro layer right
  rw [second, first]
  tauto

/-- Where nothing requested is left, more grants change nothing. -/
theorem Cleared.stop (cleared : Cleared request grants masks masks')
    (empty : isEmptyFor request masks' = true)
    (more : ∀ layer right, grants layer right → grants' layer right) :
    Cleared request grants' masks masks' := by
  intro layer right
  have none := isEmptyFor_iff.mp empty layer right
  have here := cleared layer right
  have wider := more layer right
  tauto

theorem Cleared.congr (cleared : Cleared request grants masks masks')
    (same : ∀ layer right, grants layer right ↔ grants' layer right) :
    Cleared request grants' masks masks' := by
  intro layer right
  rw [cleared, same]

theorem layerBit_getLsbD {level : U16} (positive : 1 ≤ level.toNat) (limit : level.toNat ≤ 16)
    (layer : Nat) : (1#16 <<< (level - 1).toNat).getLsbD layer = decide (level.toNat = layer + 1) := by
  have value : (level - 1).toNat = level.toNat - 1 := by
    have bound := level.isLt
    rw [BitVec.toNat_sub]
    simp only [BitVec.ofNat_eq_ofNat, BitVec.toNat_ofNat]
    omega
  rw [value, BitVec.getLsbD_shiftLeft, BitVec.getLsbD_one]
  by_cases here : level.toNat = layer + 1
  · have less : layer < 16 := by omega
    have above : ¬ layer < level.toNat - 1 := by omega
    have zero : layer - (level.toNat - 1) = 0 := by omega
    simp [here, less]
  · rw [decide_eq_false here]
    by_cases less : layer < level.toNat - 1
    · simp [less]
    · have differs : layer - (level.toNat - 1) ≠ 0 := by omega
      simp [differs]

theorem unmaskLayer_cleared (request : U16) (masks : LayerMasks) {l : LandlockLayer} (positive : 1 ≤ l.level.toNat)
    (limit : l.level.toNat ≤ landlockMaxNumLayers) :
    Cleared request (fun layer right => l.level.toNat = layer + 1 ∧ l.access.getLsbD right = true)
      masks (unmaskLayer request l masks) := by
  intro layer right
  unfold Denies unmaskLayer
  dsimp only
  split
  · rename_i granted
    rw [BitVec.getLsbD_and, BitVec.getLsbD_not, layerBit_getLsbD positive limit,
      Bool.and_eq_true_iff]
    have inside : (masks right).getLsbD layer = true → layer < 16 := BitVec.lt_of_getLsbD
    simp only [Bool.and_eq_true, Bool.not_eq_true', decide_eq_true_eq, decide_eq_false_iff_not]
    tauto
  · rename_i notGranted
    tauto

/-- A rule takes its grants out of the masks, whether or not its loop stops early. -/
theorem unmaskRule_cleared (levels : LevelsOk layers) :
    Cleared request (LayersGrant layers) masks (unmaskRule request layers masks).2 := by
  induction layers generalizing masks with
  | nil =>
    apply cleared_refl
    rintro layer right - ⟨l, member, -⟩
    cases member
  | cons l rest ih =>
    obtain ⟨positive, limit⟩ := levels l List.mem_cons_self
    have first := unmaskLayer_cleared request masks positive limit
    have later : Cleared request (LayersGrant rest) (unmaskLayer request l masks)
        (unmaskRule request rest (unmaskLayer request l masks)).2 :=
      ih fun l' member => levels l' (List.mem_cons_of_mem _ member)
    have wider : ∀ (layer : Nat) (right : Right), (l.level.toNat = layer + 1 ∧ l.access.getLsbD right = true ∨
        LayersGrant rest layer right) ↔ LayersGrant (l :: rest) layer right := by
      intro layer right
      unfold LayersGrant
      simp only [List.mem_cons, exists_eq_or_imp]
    unfold unmaskRule
    dsimp only
    split
    · rename_i empty
      exact first.stop empty fun layer right here => (wider layer right).mp (.inl here)
    · exact (first.trans later).congr wider

theorem unmaskRule_fst (before : isEmptyFor request masks = false) :
    (unmaskRule request layers masks).1 = isEmptyFor request (unmaskRule request layers masks).2 := by
  induction layers generalizing masks with
  | nil => exact before.symm
  | cons l rest ih =>
    unfold unmaskRule
    dsimp only
    split
    · rename_i empty
      exact empty.symm
    · rename_i some
      exact ih (Bool.eq_false_iff.mpr some)

theorem isEmptyFor_zero : isEmptyFor 0 masks = true := by
  apply isEmptyFor_iff.mpr
  intro layer right requested
  unfold requests at requested
  rw [BitVec.ofNat_eq_ofNat, BitVec.getLsbD_zero] at requested
  cases requested

/-- `unmask_layers` takes the grants of the rule out of the masks. -/
theorem unmaskLayers_cleared {rule : Option LandlockRule}
    (levels : ∀ r, rule = some r → LevelsOk r.layers) :
    Cleared request (RuleGrants rule) masks (unmaskLayers rule request masks).2 := by
  unfold unmaskLayers
  split
  · rename_i zero
    apply cleared_refl
    intro layer right requested
    unfold requests at requested
    rw [zero, BitVec.ofNat_eq_ofNat, BitVec.getLsbD_zero] at requested
    cases requested
  · cases rule with
    | none =>
      apply cleared_refl
      rintro layer right - ⟨r, shown, -⟩
      cases shown
    | some r =>
      refine (unmaskRule_cleared (levels r rfl)).congr fun layer right => ?_
      unfold RuleGrants
      simp only [Option.some.injEq, exists_eq_left']

/-- Its answer is whether the request is granted, when it was not before. -/
theorem unmaskLayers_fst (rule : Option LandlockRule) (before : isEmptyFor request masks = false) :
    (unmaskLayers rule request masks).1 = isEmptyFor request (unmaskLayers rule request masks).2 := by
  have real : request ≠ 0 := by
    rintro rfl
    rw [isEmptyFor_zero] at before
    cases before
  unfold unmaskLayers
  rw [if_neg real]
  cases rule with
  | none => exact before.symm
  | some r => exact unmaskRule_fst before

theorem unmaskRule_empty (granted : (unmaskRule request layers masks).1 = true) :
    isEmptyFor request (unmaskRule request layers masks).2 = true := by
  induction layers generalizing masks with
  | nil => cases granted
  | cons l rest ih =>
    unfold unmaskRule at granted ⊢
    dsimp only at granted ⊢
    split at granted
    · rename_i empty
      rw [if_pos empty]
      exact empty
    · rename_i some
      rw [if_neg some]
      exact ih granted

theorem unmaskLayers_empty {rule : Option LandlockRule}
    (granted : (unmaskLayers rule request masks).1 = true) :
    isEmptyFor request (unmaskLayers rule request masks).2 = true := by
  unfold unmaskLayers at granted ⊢
  split at granted
  · rename_i zero
    rw [if_pos zero, zero]
    exact isEmptyFor_zero
  · rename_i real
    rw [if_neg real]
    cases rule with
    | none => cases granted
    | some r => exact unmaskRule_empty granted

section Init

theorem layer_bit {first : Nat} (small : first < landlockMaxNumLayers) (layer : Nat) :
    (1#16 <<< first).getLsbD layer = decide (layer = first) := by
  unfold landlockMaxNumLayers at small
  rw [BitVec.getLsbD_shiftLeft, BitVec.getLsbD_one]
  by_cases here : layer = first
  · have less : layer < 16 := by omega
    simp [here, small]
  · by_cases less : layer < first
    · simp [less, here]
    · have differs : layer - first ≠ 0 := by omega
      simp [here, differs]

/-- One layer is denied what it handles of the request. -/
theorem initLayer_denies {first : Nat} (small : first < landlockMaxNumLayers) (request mask : U16)
    (acc : U16 × LayerMasks) (layer : Nat) (right : Right) :
    Denies (initLayer request acc (mask, first)).2 layer right ↔ Denies acc.2 layer right ∨
      requests request right = true ∧ layer = first ∧
        (mask ||| accessInitiallyDenied).getLsbD right = true := by
  have inMask : ∀ right : Right, landlockMaskAccessFs.getLsbD right = true := by decide
  unfold Denies initLayer requests
  simp only [BitVec.getLsbD_and, inMask right, Bool.and_true, Bool.and_eq_true]
  split
  · rename_i handles
    rw [BitVec.getLsbD_or, layer_bit small, Bool.or_eq_true, decide_eq_true_eq]
    simp only [handles, true_and, and_true]
  · rename_i handles
    constructor
    · exact Or.inl
    · intro either
      apply either.resolve_right
      intro new
      exact handles ⟨new.1, new.2.2⟩

theorem initLayer_handles (request mask : U16) (first : Nat) (acc : U16 × LayerMasks) (bit : Nat) :
    (initLayer request acc (mask, first)).1.getLsbD bit = true ↔
      acc.1.getLsbD bit = true ∨ request.getLsbD bit = true ∧
        landlockMaskAccessFs.getLsbD bit = true ∧
        (mask ||| accessInitiallyDenied).getLsbD bit = true := by
  unfold initLayer
  simp only [BitVec.getLsbD_or, BitVec.getLsbD_and, Bool.or_eq_true, Bool.and_eq_true]
  rw [and_assoc]
  exact or_congr_right (and_congr_right fun _ => and_comm)

theorem exists_cons {α : Type} {head : α} {tail : List α} {p : Nat → α → Prop} :
    (∃ i a, (head :: tail)[i]? = some a ∧ p i a) ↔
      p 0 head ∨ ∃ i a, tail[i]? = some a ∧ p (i + 1) a := by
  constructor
  · rintro ⟨i, a, here, holds⟩
    cases i with
    | zero =>
      rw [List.getElem?_cons_zero] at here
      cases here
      exact .inl holds
    | succ i =>
      rw [List.getElem?_cons_succ] at here
      exact .inr ⟨i, a, here, holds⟩
  · rintro (holds | ⟨i, a, here, holds⟩)
    · exact ⟨0, head, List.getElem?_cons_zero, holds⟩
    · exact ⟨i + 1, a, by rw [List.getElem?_cons_succ, here], holds⟩

/-- What the loop of `init_layer_masks` adds for the layers from an index on. -/
theorem initLayer_fold (request : U16) (masks : List U16) (first : Nat)
    (limit : first + masks.length ≤ landlockMaxNumLayers) (acc : U16 × LayerMasks) :
    let out := (masks.zipIdx first).foldl (initLayer request) acc
    (∀ layer right, Denies out.2 layer right ↔ Denies acc.2 layer right ∨
      requests request right = true ∧ ∃ (i : Nat) (mask : U16), masks[i]? = some mask ∧
        layer = first + i ∧
        (mask ||| accessInitiallyDenied).getLsbD right = true) ∧
    (∀ bit, out.1.getLsbD bit = true ↔ acc.1.getLsbD bit = true ∨
      request.getLsbD bit = true ∧ landlockMaskAccessFs.getLsbD bit = true ∧
        ∃ (i : Nat) (mask : U16), masks[i]? = some mask ∧
          (mask ||| accessInitiallyDenied).getLsbD bit = true) := by
  induction masks generalizing first acc with
  | nil =>
    dsimp only
    constructor
    · intro layer right
      simp only [List.zipIdx_nil, List.foldl_nil, List.getElem?_nil, reduceCtorEq, false_and,
        exists_const, and_false, or_false]
    · intro bit
      simp only [List.zipIdx_nil, List.foldl_nil, List.getElem?_nil, reduceCtorEq, false_and,
        exists_const, and_false, or_false]
  | cons mask rest ih =>
    rw [List.length_cons] at limit
    have later := ih (first + 1) (by omega) (initLayer request acc (mask, first))
    dsimp only at later ⊢
    rw [List.zipIdx_cons, List.foldl_cons]
    obtain ⟨denied, handled⟩ := later
    constructor
    · intro layer right
      rw [denied, initLayer_denies (by omega), exists_cons, or_assoc, ← and_or_left]
      simp only [Nat.add_zero, Nat.add_assoc, Nat.add_comm 1]
    · intro bit
      rw [handled, initLayer_handles, exists_cons, or_assoc, ← and_or_left, ← and_or_left]

/-- `init_layer_masks` denies each requested right in the layers that handle it. -/
theorem initLayerMasks_denies (limit : dom.numLayers ≤ landlockMaxNumLayers) (request : U16)
    (layer : Nat) (right : Right) :
    Denies (initLayerMasks dom request).2 layer right ↔
      requests request right = true ∧ LayerHandles dom layer right := by
  have none : ¬ Denies emptyMasks layer right := by
    unfold Denies emptyMasks
    rw [BitVec.ofNat_eq_ofNat, BitVec.getLsbD_zero]
    exact Bool.false_ne_true
  unfold initLayerMasks
  split
  · rename_i zero
    have never : ¬ requests request right = true := by
      unfold requests
      rw [zero, BitVec.ofNat_eq_ofNat, BitVec.getLsbD_zero]
      exact Bool.false_ne_true
    tauto
  · have fold := (initLayer_fold request dom.fsAccessMasks 0 (by rwa [Nat.zero_add])
      (0, emptyMasks)).1 layer right
    dsimp only at fold
    rw [fold]
    unfold LayerHandles
    simp only [Nat.zero_add]
    constructor
    · rintro (denies | ⟨requested, i, mask, here, rfl, handles⟩)
      · exact absurd denies none
      · exact ⟨requested, mask, here, handles⟩
    · rintro ⟨requested, mask, here, handles⟩
      exact .inr ⟨requested, layer, mask, here, rfl, handles⟩

/-- It returns the requested rights that some layer handles. -/
theorem initLayerMasks_handled (limit : dom.numLayers ≤ landlockMaxNumLayers) (request : U16)
    (bit : Nat) : (initLayerMasks dom request).1.getLsbD bit = true ↔
      ∃ right : Right, bit = right ∧ requests request right = true ∧
        ∃ layer, LayerHandles dom layer right := by
  have inMask : ∀ bit, landlockMaskAccessFs.getLsbD bit = true ↔ bit < landlockNumAccessFs := by
    intro bit
    by_cases small : bit < 16
    · have all : ∀ bit : Fin 16, landlockMaskAccessFs.getLsbD bit = true ↔
          bit.val < landlockNumAccessFs := by decide
      exact all ⟨bit, small⟩
    · rw [BitVec.getLsbD_of_ge _ _ (by omega)]
      unfold landlockNumAccessFs
      constructor
      · intro never
        cases never
      · omega
  unfold initLayerMasks
  split
  · rename_i zero
    unfold requests
    rw [zero, BitVec.ofNat_eq_ofNat]
    constructor
    · intro never
      rw [BitVec.getLsbD_zero] at never
      cases never
    · rintro ⟨right, -, never, -⟩
      rw [BitVec.getLsbD_zero] at never
      cases never
  · have fold := (initLayer_fold request dom.fsAccessMasks 0 (by rwa [Nat.zero_add])
      (0, emptyMasks)).2 bit
    dsimp only at fold
    rw [fold, BitVec.ofNat_eq_ofNat, BitVec.getLsbD_zero]
    constructor
    · rintro (never | ⟨requested, inside, i, mask, here, handles⟩)
      · cases never
      · exact ⟨⟨bit, (inMask bit).mp inside⟩, rfl, requested, i, mask, here, handles⟩
    · rintro ⟨right, rfl, requested, layer, mask, here, handles⟩
      exact .inr ⟨requested, (inMask right).mpr right.isLt, layer, mask, here, handles⟩

theorem initLayerMasks_requests (limit : dom.numLayers ≤ landlockMaxNumLayers) (request : U16)
    (right : Right) : requests (initLayerMasks dom request).1 right = true ↔
      requests request right = true ∧ ∃ layer, LayerHandles dom layer right := by
  unfold requests
  rw [initLayerMasks_handled limit]
  constructor
  · rintro ⟨right', same, requested, handled⟩
    have equal : right' = right := Fin.ext same.symm
    rw [equal] at requested handled
    exact ⟨requested, handled⟩
  · rintro ⟨requested, handled⟩
    exact ⟨right, rfl, requested, handled⟩

/-- A request some layer handles is denied at first. -/
theorem initLayerMasks_some (limit : dom.numLayers ≤ landlockMaxNumLayers)
    (real : (initLayerMasks dom request).1 ≠ 0) :
    isEmptyFor (initLayerMasks dom request).1 (initLayerMasks dom request).2 = false := by
  rw [Bool.eq_false_iff]
  intro empty
  apply real
  apply layerMask_eq_zero.mpr
  intro bit
  rw [Bool.eq_false_iff]
  intro set
  obtain ⟨right, rfl, requested, layer, handles⟩ := (initLayerMasks_handled limit request bit).mp set
  exact isEmptyFor_iff.mp empty layer right set
    ((initLayerMasks_denies limit request layer right).mpr ⟨requested, handles⟩)

end Init

end Ksrc.Guarantees.LandlockMasks

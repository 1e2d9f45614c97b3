import Mathlib.Data.List.Nodup

/-!
# Finite heaps

A heap holds values at finitely many addresses; an address whose value was freed may be
given out again. The counting lemmas say what one write does to the number of cells that
satisfy a predicate, which is what a reference count has to keep up with.
-/
namespace Ksrc.Library

universe u

structure Heap (α : Type u) where
  cells : List (Nat × α)
  once : (cells.map Prod.fst).Nodup

namespace Heap

variable {α : Type u} {h : Heap α} {a b : Nat} {v : α}

def empty : Heap α := { cells := [], once := List.nodup_nil }

/-- The value at an address, `none` where nothing is allocated. -/
def get (h : Heap α) (a : Nat) : Option α := (h.cells.find? fun cell => cell.1 == a).map Prod.snd

theorem keys_filter_nodup (h : Heap α) (p : Nat × α → Bool) :
    ((h.cells.filter p).map Prod.fst).Nodup :=
  h.once.sublist (List.filter_sublist.map Prod.fst)

/-- Give an address back. -/
def free (h : Heap α) (a : Nat) : Heap α :=
  { cells := h.cells.filter fun cell => cell.1 != a, once := h.keys_filter_nodup _ }

/-- Write a value at an address, allocated or not. -/
def set (h : Heap α) (a : Nat) (v : α) : Heap α :=
  { cells := (a, v) :: (h.free a).cells
    once := by
      rw [List.map_cons, List.nodup_cons]
      refine ⟨fun member => ?_, (h.free a).once⟩
      obtain ⟨cell, inside, same⟩ := List.mem_map.mp member
      have differs := (List.mem_filter.mp inside).2
      simp only [bne_iff_ne] at differs
      exact differs same }

/-- The number of cells that satisfy a predicate. -/
def count (p : Nat → α → Bool) (h : Heap α) : Nat := h.cells.countP fun cell => p cell.1 cell.2

@[simp] theorem get_empty (a : Nat) : (empty : Heap α).get a = none := rfl

theorem get_free_same (h : Heap α) (a : Nat) : (h.free a).get a = none := by
  unfold get free
  rw [Option.map_eq_none_iff, List.find?_eq_none]
  intro cell member same
  have differs := (List.mem_filter.mp member).2
  simp only [bne_iff_ne, ne_eq, beq_iff_eq] at differs same
  exact differs same

theorem get_free_other (h : Heap α) (differs : b ≠ a) : (h.free a).get b = h.get b := by
  unfold get free
  congr 1
  dsimp only
  induction h.cells with
  | nil => rfl
  | cons cell rest ih =>
    rw [List.filter_cons]
    split
    · rw [List.find?_cons, List.find?_cons, ih]
    · rename_i here
      simp only [bne_iff_ne, ne_eq, not_not] at here
      have other : (cell.1 == b) = false := by
        rw [here]
        exact beq_false_of_ne differs.symm
      rw [List.find?_cons, other, ih]

@[simp] theorem get_set_same (h : Heap α) (a : Nat) (v : α) : (h.set a v).get a = some v := by
  unfold get set
  rw [List.find?_cons]
  simp

theorem get_set_other (h : Heap α) (v : α) (differs : b ≠ a) : (h.set a v).get b = h.get b := by
  have behind := get_free_other h differs
  unfold get set at *
  have other : (a == b) = false := beq_false_of_ne differs.symm
  rw [List.find?_cons, other]
  exact behind

/-- What a write leaves at each address. -/
theorem get_set (h : Heap α) (a b : Nat) (v : α) :
    (h.set a v).get b = if b = a then some v else h.get b := by
  split
  · rename_i here
    rw [here, get_set_same]
  · rename_i differs
    exact get_set_other h v differs

/-- After a write a cell is the written one, or an old one elsewhere. -/
theorem set_cases {h : Heap α} {a b : Nat} {v w : α} (here : (h.set a v).get b = some w) :
    b = a ∧ w = v ∨ b ≠ a ∧ h.get b = some w := by
  rw [get_set] at here
  split at here
  · rename_i same
    exact .inl ⟨same, (Option.some.inj here).symm⟩
  · rename_i differs
    exact .inr ⟨differs, here⟩

theorem get_free (h : Heap α) (a b : Nat) :
    (h.free a).get b = if b = a then none else h.get b := by
  split
  · rename_i here
    rw [here, get_free_same]
  · rename_i differs
    exact get_free_other h differs

theorem mem_of_get (here : h.get a = some v) : (a, v) ∈ h.cells := by
  unfold get at here
  obtain ⟨cell, found, rfl⟩ := Option.map_eq_some_iff.mp here
  have same := List.find?_some found
  simp only [beq_iff_eq] at same
  rw [← same]
  exact List.mem_of_find?_eq_some found

theorem get_of_mem (member : (a, v) ∈ h.cells) : h.get a = some v := by
  unfold get
  cases found : h.cells.find? fun cell => cell.1 == a with
  | none =>
    have absent := List.find?_eq_none.mp found (a, v) member
    simp at absent
  | some cell =>
    have same := List.find?_some found
    simp only [beq_iff_eq] at same
    have equal : cell = (a, v) :=
      List.inj_on_of_nodup_map h.once (List.mem_of_find?_eq_some found) member same
    rw [equal]
    rfl

variable (p : Nat → α → Bool)

/-- What is counted is what is read. -/
theorem count_congr {h' : Heap α} (same : ∀ a, h'.get a = h.get a) : h'.count p = h.count p := by
  have cells : h'.cells.Perm h.cells := by
    apply (List.perm_ext_iff_of_nodup (List.Nodup.of_map _ h'.once) (List.Nodup.of_map _ h.once)).mpr
    rintro ⟨a, v⟩
    constructor
    · intro member
      have here := get_of_mem member
      rw [same] at here
      exact mem_of_get here
    · intro member
      have here := get_of_mem member
      rw [← same] at here
      exact mem_of_get here
  exact cells.countP_eq _

/-- Whether the cell at an address counts. -/
def counts (h : Heap α) (a : Nat) : Nat :=
  match h.get a with
  | some v => if p a v then 1 else 0
  | none => 0

theorem count_free (h : Heap α) (a : Nat) : (h.free a).count p + h.counts p a = h.count p := by
  unfold counts count free get
  dsimp only
  obtain ⟨cells, once⟩ := h
  induction cells with
  | nil => rfl
  | cons cell rest ih =>
    rw [List.map_cons, List.nodup_cons] at once
    rw [List.filter_cons, List.countP_cons, List.find?_cons]
    by_cases here : cell.1 = a
    · have gone : rest.filter (fun cell => cell.1 != a) = rest := by
        apply List.filter_eq_self.mpr
        intro other member
        rw [bne_iff_ne]
        intro same
        exact once.1 (List.mem_map.mpr ⟨other, member, same.trans here.symm⟩)
      simp only [here, bne_self_eq_false, Bool.false_eq_true, if_false, beq_self_eq_true, gone,
        Option.map_some]
    · have kept : (cell.1 != a) = true := bne_iff_ne.mpr here
      have other : (cell.1 == a) = false := beq_false_of_ne here
      have behind := ih once.2
      simp only at behind
      simp only [kept, if_true, other, List.countP_cons]
      omega

theorem count_set (h : Heap α) (a : Nat) (v : α) :
    (h.set a v).count p + h.counts p a = h.count p + if p a v then 1 else 0 := by
  have freed := count_free p h a
  have added : (h.set a v).count p = (h.free a).count p + if p a v then 1 else 0 := by
    unfold count set
    rw [List.countP_cons]
  omega

theorem counts_pos (here : h.get a = some v) (holds : p a v = true) : 0 < h.count p := by
  have freed := count_free p h a
  have one : h.counts p a = 1 := by
    unfold counts
    rw [here]
    simp only [holds, if_true]
  omega

theorem count_eq_zero : h.count p = 0 ↔ ∀ a v, h.get a = some v → p a v = false := by
  constructor
  · intro zero a v here
    cases holds : p a v with
    | false => rfl
    | true =>
      have positive := counts_pos p here holds
      omega
  · intro never
    unfold count
    rw [List.countP_eq_zero]
    intro cell member
    rw [never cell.1 cell.2 (get_of_mem member)]
    exact Bool.false_ne_true

end Heap

end Ksrc.Library

import Ksrc.Library.Heap

/-!
# Linked lists in a heap

A node holds the address of the next node, none at the end. A segment is a run of nodes from one
pointer to another, a list is a segment that runs to the end. What a write does to a list depends
only on whether it hits a node of the list.
-/
namespace Ksrc.Library.LinkedLists

universe u

variable {ν ι : Type u} {next : ν → Option Nat} {item : ν → ι} {h h' : Heap ν} {p q r : Option Nat}
  {xs ys : List Nat} {a b : Nat} {v v' : ν}

/-- The nodes at these addresses lead from the pointer `p` to the pointer `q`. -/
def Segment (next : ν → Option Nat) (h : Heap ν) : Option Nat → List Nat → Option Nat → Prop
  | p, [], q => p = q
  | p, a :: rest, q => p = some a ∧ ∃ v, h.get a = some v ∧ Segment next h (next v) rest q

/-- The list that starts at a pointer. -/
abbrev Listed (next : ν → Option Nat) (h : Heap ν) (p : Option Nat) (xs : List Nat) : Prop :=
  Segment next h p xs none

/-- What the nodes at some addresses hold. -/
def items (item : ν → ι) (h : Heap ν) (xs : List Nat) : List ι :=
  xs.filterMap fun a => (h.get a).map item

theorem segment_append : Segment next h p (xs ++ ys) q ↔
    ∃ r, Segment next h p xs r ∧ Segment next h r ys q := by
  induction xs generalizing p with
  | nil => simp [Segment]
  | cons a rest ih =>
    simp only [List.cons_append, Segment, ih]
    constructor
    · rintro ⟨rfl, v, here, r, first, second⟩
      exact ⟨r, ⟨rfl, v, here, first⟩, second⟩
    · rintro ⟨r, ⟨rfl, v, here, first⟩, second⟩
      exact ⟨rfl, v, here, r, first, second⟩

theorem segment_congr (same : ∀ a ∈ xs, h'.get a = h.get a) :
    Segment next h' p xs q ↔ Segment next h p xs q := by
  induction xs generalizing p with
  | nil => rfl
  | cons a rest ih =>
    obtain ⟨here, later⟩ := List.forall_mem_cons.mp same
    simp only [Segment, here, ih later]

theorem Segment.allocated (is : Segment next h p xs q) (member : a ∈ xs) :
    ∃ v, h.get a = some v := by
  induction xs generalizing p with
  | nil => cases member
  | cons b rest ih =>
    obtain ⟨-, v, here, later⟩ := is
    cases member with
    | head => exact ⟨v, here⟩
    | tail _ behind => exact ih later behind

theorem Segment.fresh_notMem (is : Segment next h p xs q) (fresh : h.get a = none) : a ∉ xs := by
  intro member
  obtain ⟨v, here⟩ := is.allocated member
  rw [fresh] at here
  cases here

/-- A pointer starts one list only. -/
theorem listed_unique (one : Listed next h p xs) (other : Listed next h p ys) : xs = ys := by
  induction xs generalizing p ys with
  | nil =>
    cases ys with
    | nil => rfl
    | cons b rest =>
      cases one
      cases other.1
  | cons a rest ih =>
    obtain ⟨rfl, v, here, later⟩ := one
    cases ys with
    | nil => cases other
    | cons b rest' =>
      obtain ⟨start, v', here', later'⟩ := other
      cases start
      rw [here] at here'
      cases here'
      rw [ih later later']

/-- A list that ends meets no node twice. -/
theorem Segment.nodup (is : Listed next h p xs) : xs.Nodup := by
  induction xs generalizing p with
  | nil => exact List.nodup_nil
  | cons a rest ih =>
    have whole := is
    obtain ⟨-, v, here, later⟩ := is
    refine List.nodup_cons.mpr ⟨fun again => ?_, ih later⟩
    obtain ⟨before, after, rfl⟩ := List.append_of_mem again
    obtain ⟨r, -, second⟩ := segment_append.mp later
    have again : r = some a := second.1
    have start : p = some a := whole.1
    rw [start] at whole
    rw [again] at second
    have same := congrArg List.length (listed_unique whole second)
    simp only [List.length_cons, List.length_append] at same
    omega

/-- No list is longer than the heap. -/
theorem Segment.length_le (is : Listed next h p xs) : xs.length ≤ h.cells.length := by
  have inside : xs ⊆ h.cells.map Prod.fst := by
    intro a member
    obtain ⟨v, here⟩ := is.allocated member
    exact List.mem_map.mpr ⟨(a, v), Heap.mem_of_get here, rfl⟩
  have bound := is.nodup.length_le_of_subset inside
  rwa [List.length_map] at bound

theorem items_congr (same : ∀ a ∈ xs, (h'.get a).map item = (h.get a).map item) :
    items item h' xs = items item h xs :=
  List.filterMap_congr same

theorem items_append : items item h (xs ++ ys) = items item h xs ++ items item h ys :=
  List.filterMap_append

theorem items_cons (here : h.get a = some v) : items item h (a :: xs) = item v :: items item h xs := by
  unfold items
  rw [List.filterMap_cons, here]
  rfl

section Writes

/-- A write beside a segment. -/
theorem Segment.set_other (is : Segment next h p xs q) (beside : a ∉ xs) :
    Segment next (h.set a v) p xs q := by
  refine (segment_congr fun b member => ?_).mpr is
  apply Heap.get_set_other
  rintro rfl
  exact beside member

/-- A write of the link of the last node of a segment moves its end. -/
theorem Segment.relink (is : Segment next h p (xs ++ [b]) q) (apart : b ∉ xs) (link : next v = r) :
    Segment next (h.set b v) p (xs ++ [b]) r := by
  obtain ⟨mid, first, last⟩ := segment_append.mp is
  refine segment_append.mpr ⟨mid, first.set_other apart, last.1, v, Heap.get_set_same _ _ _, link⟩

/-- A new node in front of a list. -/
theorem listed_cons (is : Listed next h p xs) (fresh : h.get a = none) (link : next v = p) :
    Listed next (h.set a v) (some a) (a :: xs) := by
  refine ⟨rfl, v, Heap.get_set_same _ _ _, ?_⟩
  rw [link]
  exact is.set_other (is.fresh_notMem fresh)

end Writes

end Ksrc.Library.LinkedLists

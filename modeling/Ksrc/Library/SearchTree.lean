import Mathlib.Data.List.Pairwise
import Mathlib.Data.List.Perm.Basic
import Mathlib.Order.Defs.LinearOrder
import Mathlib.Order.Lattice

/-!
# Search trees whose balance is somebody else's

Binary trees with coloured nodes, searched by a key. A new node is linked red at the place
where its walk ended; what then recolours and rotates the tree is only known to keep the
entries in their order. Search, update and insertion are related to the sequence of
entries.
-/
namespace Ksrc.Library

universe u v

inductive SearchTree (α : Type u) where
  | nil
  | node (red : Bool) (left : SearchTree α) (entry : α) (right : SearchTree α)
  deriving DecidableEq, Repr

namespace SearchTree

variable {α : Type u} {κ : Type v}

/-- The entries from the leftmost to the rightmost. -/
def inorder : SearchTree α → List α
  | nil => []
  | node _ left entry right => left.inorder ++ entry :: right.inorder

/-- The entries with each node behind its subtrees. -/
def postorder : SearchTree α → List α
  | nil => []
  | node _ left entry right => left.postorder ++ (right.postorder ++ [entry])

/-- What recolours and rotates a tree after an insertion. -/
structure Balance (α : Type u) where
  run : SearchTree α → SearchTree α
  inorder_run : ∀ t, (run t).inorder = t.inorder

/-- A tree left as it is. -/
def Balance.id : Balance α := { run := fun t => t, inorder_run := fun _ => rfl }

@[simp] theorem inorder_node (red : Bool) (left right : SearchTree α) (entry : α) :
    (node red left entry right).inorder = left.inorder ++ entry :: right.inorder := rfl

theorem postorder_perm (t : SearchTree α) : t.postorder.Perm t.inorder := by
  induction t with
  | nil => exact List.Perm.refl _
  | node red left entry right ihLeft ihRight =>
    rw [postorder, inorder_node]
    have back : (right.postorder ++ [entry]).Perm (entry :: right.inorder) :=
      List.perm_append_comm.trans (ihRight.cons entry)
    exact ihLeft.append back

section Search

variable [LinearOrder κ] (key : α → κ)

/-- The entry of a key. -/
def find (k : κ) : SearchTree α → Option α
  | nil => none
  | node _ left entry right =>
    if key entry = k then some entry
    else if key entry < k then find k right
    else find k left

/-- Change the entry of a key in its place. -/
def update (k : κ) (f : α → α) : SearchTree α → SearchTree α
  | nil => nil
  | node red left entry right =>
    if key entry = k then node red left (f entry) right
    else if key entry < k then node red left entry (update k f right)
    else node red (update k f left) entry right

/-- Link a new red node where the walk for its key ends. -/
def link (new : α) : SearchTree α → SearchTree α
  | nil => node true nil new nil
  | node red left entry right =>
    if key entry < key new then node red left entry (link new right)
    else node red (link new left) entry right

/-- The entries ascend by key. -/
def Ordered (t : SearchTree α) : Prop := t.inorder.Pairwise fun a b => key a < key b

variable {key} {t t' : SearchTree α} {k : κ} {a new : α}

section Equations

variable {red : Bool} {left right : SearchTree α} {entry : α}

theorem find_node : find key k (node red left entry right) =
    if key entry = k then some entry
    else if key entry < k then find key k right else find key k left := rfl

theorem update_node {f : α → α} : update key k f (node red left entry right) =
    if key entry = k then node red left (f entry) right
    else if key entry < k then node red left entry (update key k f right)
    else node red (update key k f left) entry right := rfl

theorem link_node : link key new (node red left entry right) =
    if key entry < key new then node red left entry (link key new right)
    else node red (link key new left) entry right := rfl

end Equations

theorem ordered_node {red : Bool} {left right : SearchTree α} :
    Ordered key (node red left a right) ↔ Ordered key left ∧ Ordered key right ∧
      (∀ b ∈ left.inorder, key b < key a) ∧ ∀ b ∈ right.inorder, key a < key b := by
  unfold Ordered
  rw [inorder_node, List.pairwise_append, List.pairwise_cons]
  constructor
  · rintro ⟨inLeft, ⟨above, inRight⟩, across⟩
    exact ⟨inLeft, inRight, fun b member => across b member a List.mem_cons_self, above⟩
  · rintro ⟨inLeft, inRight, below, above⟩
    refine ⟨inLeft, ⟨above, inRight⟩, ?_⟩
    intro b inL c inR
    rcases List.mem_cons.mp inR with rfl | inR
    · exact below b inL
    · exact (below b inL).trans (above c inR)

theorem find_some (found : find key k t = some a) : a ∈ t.inorder ∧ key a = k := by
  induction t with
  | nil => cases found
  | node red left entry right ihLeft ihRight =>
    rw [find_node] at found
    rw [inorder_node, List.mem_append, List.mem_cons]
    split at found
    · rename_i here
      cases found
      exact ⟨.inr (.inl rfl), here⟩
    · split at found
      · obtain ⟨member, same⟩ := ihRight found
        exact ⟨.inr (.inr member), same⟩
      · obtain ⟨member, same⟩ := ihLeft found
        exact ⟨.inl member, same⟩

/-- In an ordered tree the walk finds what there is. -/
theorem find_of_mem (ordered : Ordered key t) (member : a ∈ t.inorder) :
    find key (key a) t = some a := by
  induction t with
  | nil => cases member
  | node red left entry right ihLeft ihRight =>
    obtain ⟨inLeft, inRight, below, above⟩ := ordered_node.mp ordered
    rw [inorder_node] at member
    rw [find_node]
    rcases List.mem_append.mp member with member | member
    · have less := below a member
      rw [if_neg less.ne', if_neg less.asymm]
      exact ihLeft inLeft member
    · rcases List.mem_cons.mp member with rfl | member
      · rw [if_pos rfl]
      · have less := above a member
        rw [if_neg less.ne, if_pos less]
        exact ihRight inRight member

theorem find_iff (ordered : Ordered key t) : find key k t = some a ↔ a ∈ t.inorder ∧ key a = k := by
  constructor
  · exact find_some
  · rintro ⟨member, rfl⟩
    exact find_of_mem ordered member

theorem find_none (ordered : Ordered key t) :
    find key k t = none ↔ ∀ a ∈ t.inorder, key a ≠ k := by
  constructor
  · intro absent a member same
    rw [← same, find_of_mem ordered member] at absent
    cases absent
  · intro absent
    cases found : find key k t with
    | none => rfl
    | some a => exact absurd (find_some found).2 (absent a (find_some found).1)

/-- Ordered trees with the same entries are searched alike. -/
theorem find_congr (ordered : Ordered key t) (same : t'.inorder = t.inorder) (k : κ) :
    find key k t' = find key k t := by
  have ordered' : Ordered key t' := by
    unfold Ordered
    rw [same]
    exact ordered
  apply Option.ext
  intro a
  rw [find_iff ordered, find_iff ordered', same]

/-- In an ordered tree the only entry of a key is found by a walk over all of them. -/
theorem find_postorder (ordered : Ordered key t) (k : κ) :
    t.postorder.find? (fun a => decide (key a = k)) = find key k t := by
  cases found : find key k t with
  | none =>
    rw [List.find?_eq_none]
    intro a member same
    exact (find_none ordered).mp found a ((postorder_perm t).subset member) (of_decide_eq_true same)
  | some a =>
    cases met : t.postorder.find? fun a => decide (key a = k) with
    | none =>
      have inside := (postorder_perm t).symm.subset (find_some found).1
      exact absurd (decide_eq_true (find_some found).2) (List.find?_eq_none.mp met a inside)
    | some b =>
      have inside := (postorder_perm t).subset (List.mem_of_find?_eq_some met)
      have same := List.find?_some met
      simp only [decide_eq_true_eq] at same
      rw [← found, ← same]
      exact (find_of_mem ordered inside).symm

theorem pairwise_postorder (ordered : Ordered key t) :
    t.postorder.Pairwise fun a b => key a ≠ key b := by
  have apart : t.inorder.Pairwise fun a b => key a ≠ key b := ordered.imp fun less => less.ne
  exact (postorder_perm t).symm.pairwise apart fun differ => differ.symm

section Update

variable {f : α → α}

theorem find_update (keeps : ∀ a, key (f a) = key a) (k' : κ) :
    find key k' (update key k f t) = if k' = k then (find key k t).map f else find key k' t := by
  induction t with
  | nil =>
    simp only [update, find, Option.map_none, ite_self]
  | node red left entry right ihLeft ihRight =>
    rw [update_node]
    by_cases here : key entry = k
    · rw [if_pos here]
      simp only [find_node, keeps]
      by_cases asked : k' = k
      · rw [if_pos (here.trans asked.symm), if_pos asked, if_pos here]
        rfl
      · rw [if_neg asked]
        have differs : key entry ≠ k' := fun same => asked (same.symm.trans here)
        rw [if_neg differs, if_neg differs]
    · rw [if_neg here]
      by_cases less : key entry < k
      · rw [if_pos less]
        simp only [find_node, ihRight]
        by_cases asked : k' = k
        · subst asked
          simp only [if_true, if_neg here, if_pos less]
        · simp only [if_neg asked]
      · rw [if_neg less]
        simp only [find_node, ihLeft]
        by_cases asked : k' = k
        · subst asked
          simp only [if_true, if_neg here, if_neg less]
        · simp only [if_neg asked]

/-- In its place: the keys stay where they are. -/
theorem inorder_update_keys (keeps : ∀ a, key (f a) = key a) :
    (update key k f t).inorder.map key = t.inorder.map key := by
  induction t with
  | nil => rfl
  | node red left entry right ihLeft ihRight =>
    rw [update_node]
    split
    · simp only [inorder, List.map_append, List.map_cons, keeps]
    · split
      · simp only [inorder, List.map_append, List.map_cons, ihRight]
      · simp only [inorder, List.map_append, List.map_cons, ihLeft]

theorem length_update (keeps : ∀ a, key (f a) = key a) :
    (update key k f t).inorder.length = t.inorder.length := by
  have same := congrArg List.length (inorder_update_keys (t := t) (k := k) keeps)
  simpa using same

theorem ordered_update (keeps : ∀ a, key (f a) = key a) (ordered : Ordered key t) :
    Ordered key (update key k f t) := by
  have keys := inorder_update_keys (t := t) (k := k) keeps
  unfold Ordered at ordered ⊢
  rw [← List.pairwise_map] at ordered ⊢
  rw [keys]
  exact ordered

end Update

section Link

theorem link_perm (new : α) (t : SearchTree α) : (link key new t).inorder.Perm (new :: t.inorder) := by
  induction t with
  | nil => exact List.Perm.refl _
  | node red left entry right ihLeft ihRight =>
    rw [link_node]
    split
    · simp only [inorder_node]
      have inner := (ihRight.cons entry).trans (List.Perm.swap new entry right.inorder)
      exact (inner.append_left _).trans List.perm_middle
    · simp only [inorder_node]
      exact ihLeft.append_right _

theorem ordered_link (ordered : Ordered key t) (absent : ∀ b ∈ t.inorder, key b ≠ key new) :
    Ordered key (link key new t) := by
  induction t with
  | nil => exact List.pairwise_singleton _ _
  | node red left entry right ihLeft ihRight =>
    obtain ⟨inLeft, inRight, below, above⟩ := ordered_node.mp ordered
    have absentLeft : ∀ b ∈ left.inorder, key b ≠ key new := fun b member =>
      absent b (List.mem_append_left _ member)
    have absentRight : ∀ b ∈ right.inorder, key b ≠ key new := fun b member =>
      absent b (List.mem_append_right _ (List.mem_cons_of_mem _ member))
    have apart : key entry ≠ key new := absent entry (List.mem_append_right _ List.mem_cons_self)
    rw [link_node]
    split
    · rename_i less
      refine ordered_node.mpr ⟨inLeft, ihRight inRight absentRight, below, fun b member => ?_⟩
      rcases List.mem_cons.mp ((link_perm new right).subset member) with rfl | old
      · exact less
      · exact above b old
    · rename_i notLess
      refine ordered_node.mpr ⟨ihLeft inLeft absentLeft, inRight, fun b member => ?_, above⟩
      rcases List.mem_cons.mp ((link_perm new left).subset member) with rfl | old
      · exact lt_of_le_of_ne (le_of_not_gt notLess) apart.symm
      · exact below b old

/-- A linked node is found under its key, the others as before. -/
theorem find_link (absent : find key (key new) t = none) (k : κ) :
    find key k (link key new t) = if k = key new then some new else find key k t := by
  induction t with
  | nil =>
    rw [link, find_node]
    by_cases asked : k = key new
    · rw [if_pos asked.symm, if_pos asked]
    · rw [if_neg (Ne.symm asked), if_neg asked]
      simp only [find, ite_self]
  | node red left entry right ihLeft ihRight =>
    rw [find_node] at absent
    split at absent
    · cases absent
    · rename_i apart
      rw [link_node]
      split at absent
      · rename_i less
        rw [if_pos less]
        unfold find
        rw [ihRight absent]
        by_cases asked : k = key new
        · subst asked
          simp only [if_neg apart, if_pos less, if_true]
        · simp only [if_neg asked]
      · rename_i notLess
        rw [if_neg notLess]
        unfold find
        rw [ihLeft absent]
        by_cases asked : k = key new
        · subst asked
          simp only [if_neg apart, if_neg notLess, if_true]
        · simp only [if_neg asked]

end Link

section Balanced

variable (balance : Balance α)

/-- Balancing changes nothing that is said of the entries. -/
theorem ordered_run (ordered : Ordered key t) : Ordered key (balance.run t) := by
  unfold Ordered
  rw [balance.inorder_run]
  exact ordered

theorem find_run (ordered : Ordered key t) (k : κ) : find key k (balance.run t) = find key k t :=
  find_congr ordered (balance.inorder_run t) k

end Balanced

end Search

end SearchTree

end Ksrc.Library

import Mathlib.Algebra.BigOperators.Fin
import Mathlib.Data.List.Basic
import Mathlib.Logic.Function.Basic

/-!
# Bounded hash tables of keyed records

Two ways to bound a table whose buckets are lists with the newest record in
front: a limit for each bucket, past which the oldest record of the bucket goes,
and a limit for the whole table, past which an insertion is refused. The counts
are stored, so their agreement with the lists is an invariant.
-/
namespace Ksrc.Library

variable {α κ : Type*}

/-- A bucket with its recorded size. -/
structure Bucket (α : Type*) where
  size : Nat
  list : List α

namespace Bucket

def empty : Bucket α := ⟨0, []⟩

/-- Put a record in front; at the limit the last one goes. -/
def insert (limit : Nat) (b : Bucket α) (a : α) : Bucket α :=
  if b.size = limit then { b with list := (a :: b.list).dropLast }
  else ⟨b.size + 1, a :: b.list⟩

structure Ok (limit : Nat) (key : α → κ) (b : Bucket α) : Prop where
  size_eq : b.size = b.list.length
  bounded : b.size ≤ limit
  distinct : (b.list.map key).Nodup

variable {limit : Nat} {key : α → κ} {b : Bucket α} {a : α}

theorem empty_ok : Ok limit key (empty : Bucket α) := ⟨rfl, Nat.zero_le _, List.nodup_nil⟩

theorem insert_ok (ok : Ok limit key b) (fresh : ∀ x ∈ b.list, key x ≠ key a) :
    Ok limit key (b.insert limit a) := by
  have distinct : ((a :: b.list).map key).Nodup := by
    rw [List.map_cons, List.nodup_cons]
    refine ⟨?_, ok.distinct⟩
    intro member
    obtain ⟨x, inside, equal⟩ := List.mem_map.mp member
    exact fresh x inside equal
  simp only [insert]
  split
  · rename_i full
    refine ⟨?_, ok.bounded, ?_⟩
    · simp [ok.size_eq]
    · rw [List.map_dropLast]
      exact distinct.sublist (List.dropLast_sublist _)
  · rename_i room
    refine ⟨?_, ?_, distinct⟩
    · simp [ok.size_eq]
    · have := ok.bounded
      show b.size + 1 ≤ limit
      omega

theorem mem_insert {x : α} (member : x ∈ (b.insert limit a).list) : x = a ∨ x ∈ b.list := by
  simp only [insert] at member
  split at member
  · exact List.mem_cons.mp (List.mem_of_mem_dropLast member)
  · exact List.mem_cons.mp member

end Bucket

/-- A table whose total count is bounded. -/
structure CountedTable (n : Nat) (α : Type*) where
  slots : Fin n → List α
  total : Nat

namespace CountedTable

variable {n : Nat}

def empty : CountedTable n α := ⟨fun _ => [], 0⟩

/-- Number of records in all buckets. -/
def count (t : CountedTable n α) : Nat := ∑ i, (t.slots i).length

/-- Refused once `total` has reached `max`. -/
def insert (max : Nat) (t : CountedTable n α) (i : Fin n) (a : α) : Option (CountedTable n α) :=
  if max ≤ t.total then none
  else some { slots := Function.update t.slots i (a :: t.slots i), total := t.total + 1 }

/-- Remove the first record of bucket `i` that `p` accepts. -/
def remove (t : CountedTable n α) (i : Fin n) (p : α → Bool) : CountedTable n α :=
  if (t.slots i).any p then
    { slots := Function.update t.slots i ((t.slots i).eraseP p), total := t.total - 1 }
  else t

/-- Remove every record, counting each down. -/
def flush (t : CountedTable n α) : CountedTable n α :=
  { slots := fun _ => [], total := t.total - t.count }

structure Ok (max : Nat) (key : α → κ) (t : CountedTable n α) : Prop where
  total_eq : t.total = t.count
  bounded : t.total ≤ max
  distinct : ∀ i, ((t.slots i).map key).Nodup

variable {max : Nat} {key : α → κ} {t : CountedTable n α}

theorem empty_ok : Ok max key (empty : CountedTable n α) :=
  ⟨by simp [empty, count], Nat.zero_le _, fun _ => List.nodup_nil⟩

/-- Replacing one bucket changes the count by the change of its length. -/
theorem count_update (t : CountedTable n α) (i : Fin n) (xs : List α) (total : Nat) :
    count ⟨Function.update t.slots i xs, total⟩ + (t.slots i).length = t.count + xs.length := by
  simp only [count]
  rw [← Finset.add_sum_erase _ _ (Finset.mem_univ i),
    ← Finset.add_sum_erase _ (fun j => (t.slots j).length) (Finset.mem_univ i)]
  have rest : ∑ j ∈ Finset.univ.erase i, (Function.update t.slots i xs j).length =
      ∑ j ∈ Finset.univ.erase i, (t.slots j).length := by
    refine Finset.sum_congr rfl fun j member => ?_
    rw [Function.update_of_ne (Finset.ne_of_mem_erase member)]
  rw [rest, Function.update_self]
  omega

theorem insert_ok {i : Fin n} {a : α} {t' : CountedTable n α} (ok : Ok max key t)
    (fresh : ∀ x ∈ t.slots i, key x ≠ key a) (done : t.insert max i a = some t') :
    Ok max key t' := by
  simp only [insert] at done
  split at done
  · cases done
  · rename_i room
    cases done
    have counted := count_update t i (a :: t.slots i) (t.total + 1)
    refine ⟨?_, ?_, ?_⟩
    · have := ok.total_eq
      simp only [List.length_cons] at counted
      show t.total + 1 = _
      omega
    · show t.total + 1 ≤ max
      omega
    · intro j
      by_cases equal : j = i
      · subst equal
        simp only [Function.update_self, List.map_cons, List.nodup_cons]
        refine ⟨?_, ok.distinct j⟩
        intro member
        obtain ⟨x, inside, same⟩ := List.mem_map.mp member
        exact fresh x inside same
      · simpa only [Function.update_of_ne equal] using ok.distinct j

theorem remove_ok {i : Fin n} {p : α → Bool} (ok : Ok max key t) :
    Ok max key (t.remove i p) := by
  simp only [remove]
  split
  · rename_i found
    obtain ⟨x, inside, matched⟩ := List.any_eq_true.mp found
    have shorter := List.length_eraseP_of_mem inside matched
    have positive := List.length_pos_of_mem inside
    have counted := count_update t i ((t.slots i).eraseP p) (t.total - 1)
    refine ⟨?_, ?_, ?_⟩
    · have := ok.total_eq
      show t.total - 1 = _
      omega
    · have := ok.bounded
      show t.total - 1 ≤ max
      omega
    · intro j
      by_cases equal : j = i
      · subst equal
        simp only [Function.update_self]
        exact (ok.distinct j).sublist (List.eraseP_sublist.map key)
      · simpa only [Function.update_of_ne equal] using ok.distinct j
  · exact ok

theorem flush_ok (ok : Ok max key t) : Ok max key t.flush := by
  refine ⟨?_, ?_, fun _ => List.nodup_nil⟩
  · have := ok.total_eq
    simp [flush, count, this]
  · have := ok.bounded
    simp only [flush]
    omega

theorem mem_insert {i j : Fin n} {a x : α} {t' : CountedTable n α}
    (done : t.insert max i a = some t') (member : x ∈ t'.slots j) :
    (x = a ∧ j = i) ∨ x ∈ t.slots j := by
  simp only [insert] at done
  split at done
  · cases done
  · cases done
    by_cases equal : j = i
    · subst equal
      simp only [Function.update_self, List.mem_cons] at member
      rcases member with rfl | old
      · exact .inl ⟨rfl, rfl⟩
      · exact .inr old
    · simp only [Function.update_of_ne equal] at member
      exact .inr member

theorem mem_remove {i j : Fin n} {p : α → Bool} {x : α} (member : x ∈ (t.remove i p).slots j) :
    x ∈ t.slots j := by
  simp only [remove] at member
  split at member
  · by_cases equal : j = i
    · subst equal
      simp only [Function.update_self] at member
      exact List.mem_of_mem_eraseP member
    · simpa only [Function.update_of_ne equal] using member
  · exact member

end CountedTable

end Ksrc.Library

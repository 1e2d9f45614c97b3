import Ksrc.Source.LandlockFs

/-!
# Walks up a file hierarchy

Source: `landlock/src/fs.c`. The dentries a walk visits up to the real root or a disconnected
root, and what is said of them one step at a time.
-/
namespace Ksrc.Guarantees.LandlockWalks

open Source

variable {vfs : Vfs} {path up : VfsPath} {turns : Nat}

theorem jumpUp_enough (below : vfs.height path < turns) : jumpUp vfs turns path = ascend vfs path := by
  have equal : ∀ n m path, vfs.height path < n → vfs.height path < m →
      jumpUp vfs n path = jumpUp vfs m path := by
    intro n
    induction n with
    | zero =>
      intro m path below
      omega
    | succ n ih =>
      intro m path belowN belowM
      obtain ⟨m, rfl⟩ : ∃ k, m = k + 1 := ⟨m - 1, by omega⟩
      unfold jumpUp
      split
      · rename_i isRoot
        split
        · rename_i up above
          have lower := vfs.below_mountpoint path up isRoot above
          exact ih m up (by omega) (by omega)
        · rfl
      · rfl
  exact equal turns _ path below (Nat.lt_succ_self _)

/-- One turn at the label `jump_up`. -/
theorem ascend_eq (vfs : Vfs) (path : VfsPath) : ascend vfs path =
    if path.dentry = (vfs.mounts path.mnt).root then
      match (vfs.mounts path.mnt).above with
      | some up => ascend vfs up
      | none => .realRoot
    else if vfs.isRoot path.dentry then .disconnected (vfs.mounts path.mnt).internal
    else .parent { path with dentry := (vfs.dentries path.dentry).parent } := by
  conv => lhs; unfold ascend jumpUp
  by_cases isRoot : path.dentry = (vfs.mounts path.mnt).root
  · simp only [if_pos isRoot]
    cases above : (vfs.mounts path.mnt).above with
    | none => rfl
    | some up => exact jumpUp_enough (vfs.below_mountpoint path up isRoot above)
  · simp only [if_neg isRoot]

theorem jumpUp_lower (ascends : jumpUp vfs turns path = .parent up) :
    vfs.height up < vfs.height path := by
  induction turns generalizing path with
  | zero => cases ascends
  | succ turns ih =>
    unfold jumpUp at ascends
    split at ascends
    · rename_i isRoot
      split at ascends
      · rename_i next above
        exact (ih ascends).trans (vfs.below_mountpoint path next isRoot above)
      · cases ascends
    · rename_i inside
      split at ascends
      · cases ascends
      · rename_i notRoot
        cases ascends
        apply vfs.below_parent path inside
        intro same
        exact notRoot (beq_iff_eq.mpr same)

theorem ascend_lower (ascends : ascend vfs path = .parent up) :
    vfs.height up < vfs.height path :=
  jumpUp_lower ascends

/-- The dentries a walk visits and how it ends. -/
def trailFrom (vfs : Vfs) : Nat → VfsPath → List Nat × Ascent
  | 0, _ => ([], .realRoot)
  | turns + 1, path =>
    match ascend vfs path with
    | .parent up => (path.dentry :: (trailFrom vfs turns up).1, (trailFrom vfs turns up).2)
    | ending => ([path.dentry], ending)

def trail (vfs : Vfs) (path : VfsPath) : List Nat × Ascent := trailFrom vfs (vfs.height path + 1) path

def visited (vfs : Vfs) (path : VfsPath) : List Nat := (trail vfs path).1

def ending (vfs : Vfs) (path : VfsPath) : Ascent := (trail vfs path).2

theorem trailFrom_enough (below : vfs.height path < turns) : trailFrom vfs turns path = trail vfs path := by
  have equal : ∀ n m path, vfs.height path < n → vfs.height path < m →
      trailFrom vfs n path = trailFrom vfs m path := by
    intro n
    induction n with
    | zero =>
      intro m path below
      omega
    | succ n ih =>
      intro m path belowN belowM
      obtain ⟨m, rfl⟩ : ∃ k, m = k + 1 := ⟨m - 1, by omega⟩
      unfold trailFrom
      split
      · rename_i up ascends
        have lower := ascend_lower ascends
        rw [ih m up (by omega) (by omega)]
      · rfl
  exact equal turns _ path below (Nat.lt_succ_self _)

theorem trail_parent (ascends : ascend vfs path = .parent up) :
    trail vfs path = (path.dentry :: (trail vfs up).1, (trail vfs up).2) := by
  conv => lhs; unfold trail trailFrom
  simp only [ascends, trailFrom_enough (ascend_lower ascends)]

theorem trail_end (ends : ∀ up, ascend vfs path ≠ .parent up) :
    trail vfs path = ([path.dentry], ascend vfs path) := by
  unfold trail trailFrom
  split
  · rename_i up ascends
    exact absurd ascends (ends up)
  · rfl

theorem visited_parent (ascends : ascend vfs path = .parent up) :
    visited vfs path = path.dentry :: visited vfs up := by
  unfold visited
  rw [trail_parent ascends]

theorem ending_parent (ascends : ascend vfs path = .parent up) : ending vfs path = ending vfs up := by
  unfold ending
  rw [trail_parent ascends]

theorem visited_end (ends : ∀ up, ascend vfs path ≠ .parent up) : visited vfs path = [path.dentry] := by
  unfold visited
  rw [trail_end ends]

theorem ending_end (ends : ∀ up, ascend vfs path ≠ .parent up) :
    ending vfs path = ascend vfs path := by
  unfold ending
  rw [trail_end ends]

theorem start_visited (vfs : Vfs) (path : VfsPath) : path.dentry ∈ visited vfs path := by
  cases ascends : ascend vfs path with
  | parent up =>
    rw [visited_parent ascends]
    exact List.mem_cons_self
  | realRoot =>
    rw [visited_end fun up => by rw [ascends]; exact Ascent.noConfusion]
    exact List.mem_cons_self
  | disconnected internal =>
    rw [visited_end fun up => by rw [ascends]; exact Ascent.noConfusion]
    exact List.mem_cons_self

end Ksrc.Guarantees.LandlockWalks

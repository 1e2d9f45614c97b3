import Mathlib.Data.List.Perm.Basic
import Mathlib.Data.List.Pairwise
import Mathlib.Order.Lattice
import Ksrc.Source.RbTree

/-!
# What the rank-balanced tree holds

Rotations keep the elements in their order, whatever the ranks are. So an insertion adds its
element and a removal takes its element out, and a search of a tree that is ordered by a key
finds the element of the key. A new element is found by the walk that placed it in any tree,
ordered or not, until the tree is changed again.
-/
namespace Ksrc.Guarantees.RbTreeElements
open Source RbTree

variable {α : Type} {dir : RbDir} {long longSib : Bool} {t t' child sib : RbTree α}
  {elm parent new out : α} {grown shrunk : Bool}

section Rotations

@[simp] theorem branch_left : branch .left long longSib child elm sib =
    node long longSib child elm sib := rfl

@[simp] theorem branch_right : branch .right long longSib child elm sib =
    node longSib long sib elm child := rfl

@[simp] theorem foreach_nil : (nil : RbTree α).foreach = [] := rfl

@[simp] theorem foreach_node (longL longR : Bool) (left right : RbTree α) :
    (node longL longR left elm right).foreach = left.foreach ++ elm :: right.foreach := rfl

theorem links_some {fields : Bool × Bool × RbTree α × α × RbTree α}
    (known : links dir t = some fields) :
    t = branch dir fields.1 fields.2.1 fields.2.2.1 fields.2.2.2.1 fields.2.2.2.2 := by
  cases t with
  | nil => cases known
  | node longL longR left elm right =>
    cases dir with
    | left =>
      cases known
      rfl
    | right =>
      cases known
      rfl

/-- Recolouring after an insertion keeps the elements in their order. -/
theorem insertColor_foreach :
    (insertColor dir long longSib child parent sib).1.foreach =
      (branch dir long longSib child parent sib).foreach := by
  unfold insertColor
  split
  · cases dir <;> simp
  split
  · cases dir <;> simp
  split
  · cases dir <;> simp
  · rename_i known
    rw [links_some known]
    split
    · split
      · cases dir <;> simp
      · rename_i known'
        rw [links_some known']
        cases dir <;> simp
    · cases dir <;> simp

/-- So does recolouring after a removal. -/
theorem removeColor_foreach :
    (removeColor dir long longSib child parent sib).1.foreach =
      (branch dir long longSib child parent sib).foreach := by
  unfold removeColor
  split
  · cases dir <;> simp
  · split
    · cases dir <;> simp
    split
    · cases dir <;> simp
    split
    · cases dir <;> simp
    · rename_i known
      rw [links_some known]
      split
      · cases dir <;> simp
      split
      · split
        · cases dir <;> simp
        · rename_i known'
          rw [links_some known']
          cases dir <;> simp
      · cases dir <;> simp

end Rotations

section Search

variable {probe probe' : α → Int} {a : α}

/-- Whether a comparison sends a walk in a direction. -/
def Towards (dir : RbDir) (comp : Int) : Prop :=
  match dir with
  | .left => comp < 0
  | .right => 0 < comp

instance (dir : RbDir) (comp : Int) : Decidable (Towards dir comp) :=
  match dir with
  | .left => inferInstanceAs (Decidable (comp < 0))
  | .right => inferInstanceAs (Decidable (0 < comp))

theorem Towards.ne {comp : Int} (towards : Towards dir comp) : comp ≠ 0 := by
  unfold Towards at towards
  cases dir <;> (dsimp only at towards; omega)

theorem towards_left {comp : Int} : Towards .left comp ↔ comp < 0 := .rfl

theorem towards_right {comp : Int} : Towards .right comp ↔ 0 < comp := .rfl

theorem find_branch : find probe (branch dir long longSib child elm sib) =
    if probe elm = 0 then some elm
    else if Towards dir (probe elm) then find probe child
    else find probe sib := by
  cases dir with
  | left =>
    rw [branch_left, find]
    simp only [towards_left]
    split
    · rw [if_neg (by omega)]
    split
    · rw [if_neg (by omega)]
    · rw [if_pos (by omega)]
  | right =>
    rw [branch_right, find]
    simp only [towards_right]
    split
    · rw [if_neg (by omega), if_neg (by omega)]
    split
    · rw [if_neg (by omega)]
    · rw [if_pos (by omega)]

theorem find_some (found : find probe t = some a) : a ∈ t.foreach ∧ probe a = 0 := by
  induction t with
  | nil => cases found
  | node longL longR left elm right ihLeft ihRight =>
    rw [find] at found
    rw [foreach_node, List.mem_append, List.mem_cons]
    split at found
    · obtain ⟨member, same⟩ := ihLeft found
      exact ⟨.inl member, same⟩
    split at found
    · obtain ⟨member, same⟩ := ihRight found
      exact ⟨.inr (.inr member), same⟩
    · cases found
      exact ⟨.inr (.inl rfl), by omega⟩

/-- A search looks at the elements of the tree alone. -/
theorem find_congr (same : ∀ a ∈ t.foreach, probe a = probe' a) : find probe t = find probe' t := by
  induction t with
  | nil => rfl
  | node longL longR left elm right ihLeft ihRight =>
    rw [find, find, ihLeft fun a member => same a (List.mem_append_left _ member),
      ihRight fun a member => same a (List.mem_append_right _ (List.mem_cons_of_mem _ member)),
      same elm (List.mem_append_right _ List.mem_cons_self)]

end Search

section Insertion

variable {cmp : α → α → Int} {longL longR : Bool} {left right : RbTree α}

/-- A node above a subtree that an insertion has changed, and whether it has grown itself. -/
def Above (dir : RbDir) (child : RbTree α) (elm : α) (sib : RbTree α) (grownChild : Bool)
    (t : RbTree α) (grown : Bool) : Prop :=
  ∃ long longSib,
    (grownChild = true ∧ insertColor dir long longSib child elm sib = (t, grown)) ∨
    (grown = false ∧ t = branch dir long longSib child elm sib)

theorem Above.foreach {grownChild : Bool} (above : Above dir child elm sib grownChild t grown) :
    t.foreach = (branch dir false false child elm sib).foreach := by
  obtain ⟨long, longSib, ⟨-, coloured⟩ | ⟨-, rfl⟩⟩ := above
  · have same := congrArg (RbTree.foreach ∘ Prod.fst) coloured
    simp only [Function.comp_apply] at same
    rw [← same, insertColor_foreach]
    cases dir <;> rfl
  · cases dir <;> rfl

/-- One turn of the walk to the place of a new element. -/
theorem insertWalk_node (linked : insertWalk cmp new (node longL longR left elm right) =
      .ok (t', grown)) :
    (cmp new elm < 0 ∧ ∃ left' grown', insertWalk cmp new left = .ok (left', grown') ∧
      Above .left left' elm right grown' t' grown) ∨
    (0 < cmp new elm ∧ ∃ right' grown', insertWalk cmp new right = .ok (right', grown') ∧
      Above .right right' elm left grown' t' grown) := by
  rw [insertWalk] at linked
  split at linked
  · rename_i less
    split at linked
    · cases linked
    · rename_i left' walked
      rw [Except.ok.injEq] at linked
      exact .inl ⟨less, left', true, walked, longL, longR, .inl ⟨rfl, linked⟩⟩
    · rename_i left' walked
      cases linked
      exact .inl ⟨less, left', false, walked, longL, longR, .inr ⟨rfl, rfl⟩⟩
  split at linked
  · rename_i more
    split at linked
    · cases linked
    · rename_i right' walked
      rw [Except.ok.injEq] at linked
      exact .inr ⟨more, right', true, walked, longR, longL, .inl ⟨rfl, linked⟩⟩
    · rename_i right' walked
      cases linked
      exact .inr ⟨more, right', false, walked, longR, longL, .inr ⟨rfl, rfl⟩⟩
  · cases linked

/-- A linked element is there with the others. -/
theorem insertWalk_perm (linked : insertWalk cmp new t = .ok (t', grown)) :
    t'.foreach.Perm (new :: t.foreach) := by
  induction t generalizing t' grown with
  | nil =>
    cases linked
    exact .refl _
  | node longL longR left elm right ihLeft ihRight =>
    rcases insertWalk_node linked with
      ⟨-, left', grown', walked, above⟩ | ⟨-, right', grown', walked, above⟩
    · rw [above.foreach]
      exact (ihLeft walked).append_right _
    · rw [above.foreach]
      have inner := ((ihRight walked).cons elm).trans (List.Perm.swap new elm right.foreach)
      exact (inner.append_left _).trans List.perm_middle

/-- The walk of an insertion stops where a search stops. -/
theorem insertWalk_error {found : α} (met : insertWalk cmp new t = .error found) :
    find (cmp new) t = some found := by
  induction t with
  | nil => cases met
  | node longL longR left elm right ihLeft ihRight =>
    rw [insertWalk] at met
    rw [find]
    split at met
    · rename_i less
      rw [if_pos less]
      split at met
      · rename_i walked
        cases met
        exact ihLeft walked
      · cases met
      · cases met
    · rename_i notLess
      rw [if_neg notLess]
      split at met
      · rename_i more
        rw [if_pos more]
        split at met
        · rename_i walked
          cases met
          exact ihRight walked
        · cases met
        · cases met
      · rename_i notMore
        cases met
        rw [if_neg notMore]

theorem insertWalk_absent (linked : insertWalk cmp new t = .ok (t', grown)) :
    find (cmp new) t = none := by
  induction t generalizing t' grown with
  | nil => rfl
  | node longL longR left elm right ihLeft ihRight =>
    rw [find]
    rcases insertWalk_node linked with
      ⟨less, left', grown', walked, -⟩ | ⟨more, right', grown', walked, -⟩
    · rw [if_pos less]
      exact ihLeft walked
    · rw [if_neg (by omega), if_pos more]
      exact ihRight walked

section Found

variable {probe : α → Int} {a : α}

/-- A subtree that has grown is the new leaf, or its long edge points away from the walk to the
new element. -/
def Grown (probe : α → Int) (a : α) (t : RbTree α) : Prop :=
  t = node false false nil a nil ∨
    ∃ dir child elm sib, t = branch dir false true child elm sib ∧ Towards dir (probe elm)

theorem insertColor_grown (coloured : insertColor dir long longSib child parent sib = (t, true)) :
    t = branch dir false true child parent sib := by
  unfold insertColor at coloured
  split at coloured
  · cases coloured
  split at coloured
  · cases coloured
    rfl
  split at coloured
  · cases coloured
  split at coloured
  · split at coloured
    · cases coloured
    · cases coloured
  · cases coloured

/-- Where the long edge points towards the parent's other side, the walk goes into the child that
is rotated up. -/
theorem Grown.turns {e : α} {w c : RbTree α}
    (grown : Grown probe a (branch dir true longSib w e c)) :
    ¬ Towards dir (probe e) ∧ probe e ≠ 0 := by
  rcases grown with leaf | ⟨dir', child, elm, sib, shape, towards⟩
  · cases dir <;> cases leaf
  · cases dir with
    | left =>
      cases dir' with
      | left => cases shape
      | right =>
        cases shape
        unfold Towards at *
        dsimp only at *
        omega
    | right =>
      cases dir' with
      | right => cases shape
      | left =>
        cases shape
        unfold Towards at *
        dsimp only at *
        omega

/-- Recolouring leaves what has grown on the way of the walk that made it grow. -/
theorem find_insertColor (towards : Towards dir (probe parent)) (grew : Grown probe a child)
    (found : find probe child = some a) :
    find probe (insertColor dir long longSib child parent sib).1 = some a := by
  have onTop : ∀ l l', find probe (branch dir l l' child parent sib) = some a := by
    intro l l'
    rw [find_branch, if_neg towards.ne, if_pos towards, found]
  unfold insertColor
  split
  · exact onTop _ _
  split
  · exact onTop _ _
  split
  · exact onTop _ _
  · rename_i elmLong elmLongSib w e c known
    rw [links_some known, find_branch] at found
    dsimp only at found
    split
    · rename_i isLong
      rw [links_some known, isLong] at grew
      obtain ⟨away, apart⟩ := grew.turns
      rw [if_neg apart, if_neg away] at found
      split
      · exact onTop _ _
      · rename_i known'
        rw [links_some known', find_branch] at found
        simp only [find_branch, if_neg towards.ne, if_pos towards, if_neg apart, if_neg away]
        exact found
    · simp only [find_branch, if_neg towards.ne, if_pos towards]
      exact found

/-- A search finds the new element, and an element that has grown is on its way. -/
theorem insertWalk_finds (reflexive : cmp new new = 0)
    (linked : insertWalk cmp new t = .ok (t', grown)) :
    find (cmp new) t' = some new ∧ (grown = true → Grown (cmp new) new t') := by
  have step : ∀ dir child grownChild elm sib (t' : RbTree α) grown,
      Towards dir (cmp new elm) → find (cmp new) child = some new →
      (grownChild = true → Grown (cmp new) new child) →
      Above dir child elm sib grownChild t' grown →
      find (cmp new) t' = some new ∧ (grown = true → Grown (cmp new) new t') := by
    intro dir child grownChild elm sib t' grown towards found grew above
    obtain ⟨long, longSib, ⟨did, coloured⟩ | ⟨same, rfl⟩⟩ := above
    · have inside : find (cmp new) (insertColor dir long longSib child elm sib).1 = some new :=
        find_insertColor towards (grew did) found
      rw [coloured] at inside
      refine ⟨inside, fun isGrown => .inr ⟨dir, child, elm, sib, ?_, towards⟩⟩
      rw [isGrown] at coloured
      exact insertColor_grown coloured
    · refine ⟨?_, fun isGrown => absurd (same.symm.trans isGrown) Bool.false_ne_true⟩
      rw [find_branch, if_neg towards.ne, if_pos towards, found]
  induction t generalizing t' grown with
  | nil =>
    cases linked
    refine ⟨?_, fun _ => .inl rfl⟩
    rw [find, reflexive]
    rfl
  | node longL longR left elm right ihLeft ihRight =>
    rcases insertWalk_node linked with
      ⟨less, left', grown', walked, above⟩ | ⟨more, right', grown', walked, above⟩
    · obtain ⟨found, grew⟩ := ihLeft walked
      exact step .left left' grown' elm right t' grown less found grew above
    · obtain ⟨found, grew⟩ := ihRight walked
      exact step .right right' grown' elm left t' grown more found grew above

end Found

/-- `RB_INSERT` of an element that compares equal to one that is there changes nothing, as the
search for it shows. -/
theorem insert_some {prev : α} (met : RbTree.insert cmp t new = (some prev, t')) :
    find (cmp new) t = some prev ∧ t' = t := by
  unfold RbTree.insert at met
  split at met
  · rename_i found walked
    cases met
    exact ⟨insertWalk_error walked, rfl⟩
  · cases met

/-- Otherwise it adds the new element, and a search finds it. -/
theorem insert_none (linked : RbTree.insert cmp t new = (none, t')) :
    find (cmp new) t = none ∧ t'.foreach.Perm (new :: t.foreach) ∧
      (cmp new new = 0 → find (cmp new) t' = some new) := by
  unfold RbTree.insert at linked
  split at linked
  · cases linked
  · rename_i grown walked
    cases linked
    exact ⟨insertWalk_absent walked, insertWalk_perm walked,
      fun reflexive => (insertWalk_finds reflexive walked).1⟩

end Insertion

section Removal

variable {longL longR : Bool} {left right : RbTree α}

theorem removeColor_eq {result : RbTree α × Bool}
    (coloured : removeColor dir long longSib child elm sib = result) :
    result.1.foreach = (branch dir false false child elm sib).foreach := by
  rw [← coloured, removeColor_foreach]
  cases dir <;> rfl

theorem removeMin_none (empty : removeMin t = none) : t = nil := by
  cases t with
  | nil => rfl
  | node longL longR left elm right =>
    rw [removeMin] at empty
    split at empty <;> cases empty

/-- The element that is cut out is the first one. -/
theorem removeMin_some (cut : removeMin t = some (elm, t', shrunk)) :
    t.foreach = elm :: t'.foreach := by
  induction t generalizing elm t' shrunk with
  | nil => cases cut
  | node longL longR left e right ihLeft ihRight =>
    rw [removeMin] at cut
    split at cut
    · rename_i empty
      cases cut
      rw [removeMin_none empty]
      rfl
    · rename_i min left' inner
      rw [Option.some.injEq, Prod.mk.injEq] at cut
      obtain ⟨rfl, coloured⟩ := cut
      have same := removeColor_eq coloured
      dsimp only at same
      rw [same, foreach_node, ihLeft inner]
      rfl
    · rename_i min left' inner
      cases cut
      rw [foreach_node, ihLeft inner]
      rfl

/-- A node is replaced by the elements of its subtrees. -/
theorem removeNode_foreach :
    (removeNode longL longR left right).1.foreach = left.foreach ++ right.foreach := by
  unfold removeNode
  split
  · rename_i empty
    rw [removeMin_none empty]
    exact (List.append_nil _).symm
  · rename_i next right' shrunk cut
    split
    · rfl
    · split
      · rw [removeColor_eq rfl, removeMin_some cut]
        rfl
      · rw [removeMin_some cut]
        rfl

variable [DecidableEq α]

theorem removeAt_some (removed : removeAt out t = some (t', shrunk)) :
    ∃ before after, t.foreach = before ++ out :: after ∧ t'.foreach = before ++ after := by
  induction t generalizing t' shrunk with
  | nil => cases removed
  | node longL longR left elm right ihLeft ihRight =>
    rw [removeAt] at removed
    split at removed
    · rename_i here
      rw [Option.some.injEq] at removed
      have same := congrArg (RbTree.foreach ∘ Prod.fst) removed
      simp only [Function.comp_apply, removeNode_foreach] at same
      exact ⟨left.foreach, right.foreach, by rw [foreach_node, here], same.symm⟩
    split at removed
    · rename_i left' walked
      obtain ⟨before, after, was, is⟩ := ihLeft walked
      rw [Option.some.injEq] at removed
      have same := removeColor_eq removed
      refine ⟨before, after ++ elm :: right.foreach, ?_, ?_⟩
      · rw [foreach_node, was, List.append_assoc, List.cons_append]
      · rw [same, branch_left, foreach_node, is, List.append_assoc]
    · rename_i left' walked
      obtain ⟨before, after, was, is⟩ := ihLeft walked
      cases removed
      refine ⟨before, after ++ elm :: right.foreach, ?_, ?_⟩
      · rw [foreach_node, was, List.append_assoc, List.cons_append]
      · rw [foreach_node, is, List.append_assoc]
    · split at removed
      · rename_i right' walked
        obtain ⟨before, after, was, is⟩ := ihRight walked
        rw [Option.some.injEq] at removed
        have same := removeColor_eq removed
        refine ⟨left.foreach ++ elm :: before, after, ?_, ?_⟩
        · rw [foreach_node, was, List.append_assoc, List.cons_append]
        · rw [same, branch_right, foreach_node, is, List.append_assoc, List.cons_append]
      · rename_i right' walked
        obtain ⟨before, after, was, is⟩ := ihRight walked
        cases removed
        refine ⟨left.foreach ++ elm :: before, after, ?_, ?_⟩
        · rw [foreach_node, was, List.append_assoc, List.cons_append]
        · rw [foreach_node, is, List.append_assoc, List.cons_append]
      · cases removed

theorem removeAt_none (absent : removeAt out t = none) : out ∉ t.foreach := by
  induction t with
  | nil => exact List.not_mem_nil
  | node longL longR left elm right ihLeft ihRight =>
    rw [removeAt] at absent
    split at absent
    · cases absent
    · rename_i differs
      split at absent
      · cases absent
      · cases absent
      · rename_i walked
        split at absent
        · cases absent
        · cases absent
        · rename_i walked'
          rw [foreach_node, List.mem_append, List.mem_cons, not_or, not_or]
          exact ⟨ihLeft walked, fun same => differs same.symm, ihRight walked'⟩

/-- `RB_REMOVE` of a node of the tree takes it out. -/
theorem remove_some (removed : remove t out = some t') :
    ∃ before after, t.foreach = before ++ out :: after ∧ t'.foreach = before ++ after := by
  unfold remove at removed
  obtain ⟨⟨t', shrunk⟩, walked, rfl⟩ := Option.map_eq_some_iff.mp removed
  exact removeAt_some walked

theorem remove_none : remove t out = none ↔ out ∉ t.foreach := by
  constructor
  · intro absent
    unfold remove at absent
    exact removeAt_none (Option.map_eq_none_iff.mp absent)
  · intro absent
    cases removed : remove t out with
    | none => rfl
    | some t' =>
      obtain ⟨before, after, was, -⟩ := remove_some removed
      rw [was] at absent
      exact absurd (List.mem_append_right _ List.mem_cons_self) absent

end Removal

section Order

variable {κ : Type} [LinearOrder κ] {key : α → κ} {k : κ} {cmp : α → α → Int} {probe : α → Int}
  {a : α}

/-- The elements ascend by a key. -/
def Ascends (key : α → κ) (t : RbTree α) : Prop := t.foreach.Pairwise fun a b => key a < key b

theorem Ascends.congr {key' : α → κ} (ascends : Ascends key t)
    (same : ∀ a ∈ t.foreach, key' a = key a) : Ascends key' t := by
  unfold Ascends at *
  refine ascends.imp_of_mem fun {a b} inside inside' less => ?_
  rw [same a inside, same b inside']
  exact less

/-- A comparison that agrees with the keys of the elements of a tree. -/
def Measures (probe : α → Int) (key : α → κ) (k : κ) (t : RbTree α) : Prop :=
  ∀ a ∈ t.foreach, (probe a < 0 ↔ k < key a) ∧ (0 < probe a ↔ key a < k)

theorem ascends_node {longL longR : Bool} {left right : RbTree α} :
    Ascends key (node longL longR left a right) ↔ Ascends key left ∧ Ascends key right ∧
      (∀ b ∈ left.foreach, key b < key a) ∧ ∀ b ∈ right.foreach, key a < key b := by
  unfold Ascends
  rw [foreach_node, List.pairwise_append, List.pairwise_cons]
  constructor
  · rintro ⟨inLeft, ⟨above, inRight⟩, across⟩
    exact ⟨inLeft, inRight, fun b member => across b member a List.mem_cons_self, above⟩
  · rintro ⟨inLeft, inRight, below, above⟩
    refine ⟨inLeft, ⟨above, inRight⟩, ?_⟩
    intro b inL c inR
    rcases List.mem_cons.mp inR with rfl | inR
    · exact below b inL
    · exact (below b inL).trans (above c inR)

/-- In a tree in order a search finds the element of its key. -/
theorem find_iff (ascends : Ascends key t) (measures : Measures probe key k t) :
    find probe t = some a ↔ a ∈ t.foreach ∧ key a = k := by
  induction t with
  | nil =>
    rw [find]
    exact iff_of_false (fun none => by cases none) fun both => List.not_mem_nil both.1
  | node longL longR left elm right ihLeft ihRight =>
    obtain ⟨inLeft, inRight, below, above⟩ := ascends_node.mp ascends
    have measuresLeft : Measures probe key k left := fun b member =>
      measures b (List.mem_append_left _ member)
    have measuresRight : Measures probe key k right := fun b member =>
      measures b (List.mem_append_right _ (List.mem_cons_of_mem _ member))
    obtain ⟨less, more⟩ := measures elm (List.mem_append_right _ List.mem_cons_self)
    rw [find, foreach_node, List.mem_append, List.mem_cons]
    by_cases isLess : probe elm < 0
    · rw [if_pos isLess, ihLeft inLeft measuresLeft]
      have here := less.mp isLess
      constructor
      · exact fun both => ⟨.inl both.1, both.2⟩
      · rintro ⟨member | rfl | member, rfl⟩
        · exact ⟨member, rfl⟩
        · exact absurd here (lt_irrefl _)
        · exact absurd ((above a member).trans here) (lt_irrefl _)
    · by_cases isMore : 0 < probe elm
      · rw [if_neg isLess, if_pos isMore, ihRight inRight measuresRight]
        have here := more.mp isMore
        constructor
        · exact fun both => ⟨.inr (.inr both.1), both.2⟩
        · rintro ⟨member | rfl | member, rfl⟩
          · exact absurd ((below a member).trans here) (lt_irrefl _)
          · exact absurd here (lt_irrefl _)
          · exact ⟨member, rfl⟩
      · rw [if_neg isLess, if_neg isMore]
        have same : key elm = k :=
          le_antisymm (not_lt.mp fun less' => isLess (less.mpr less'))
            (not_lt.mp fun more' => isMore (more.mpr more'))
        constructor
        · intro found
          cases found
          exact ⟨.inr (.inl rfl), same⟩
        · rintro ⟨member | rfl | member, rfl⟩
          · exact absurd (same ▸ below a member) (lt_irrefl _)
          · rfl
          · exact absurd (same ▸ above a member) (lt_irrefl _)

theorem find_none (ascends : Ascends key t) (measures : Measures probe key k t) :
    find probe t = none ↔ ∀ a ∈ t.foreach, key a ≠ k := by
  rw [Option.eq_none_iff_forall_ne_some]
  constructor
  · intro absent a member same
    exact absent a ((find_iff ascends measures).mpr ⟨member, same⟩)
  · intro absent a found
    obtain ⟨member, same⟩ := (find_iff ascends measures).mp found
    exact absent a member same

/-- An insertion keeps a tree in order. -/
theorem insertWalk_ascends (ascends : Ascends key t) (measures : Measures (cmp new) key (key new) t)
    (linked : insertWalk cmp new t = .ok (t', grown)) : Ascends key t' := by
  induction t generalizing t' grown with
  | nil =>
    cases linked
    exact List.pairwise_singleton _ _
  | node longL longR left elm right ihLeft ihRight =>
    obtain ⟨inLeft, inRight, below, above⟩ := ascends_node.mp ascends
    have measuresLeft : Measures (cmp new) key (key new) left := fun b member =>
      measures b (List.mem_append_left _ member)
    have measuresRight : Measures (cmp new) key (key new) right := fun b member =>
      measures b (List.mem_append_right _ (List.mem_cons_of_mem _ member))
    obtain ⟨isLess, isMore⟩ := measures elm (List.mem_append_right _ List.mem_cons_self)
    rcases insertWalk_node linked with
      ⟨less, left', grown', walked, on⟩ | ⟨more, right', grown', walked, on⟩
    · have inner := ihLeft inLeft measuresLeft walked
      unfold Ascends
      rw [on.foreach]
      refine ascends_node.mpr ⟨inner, inRight, fun b member => ?_, above⟩
      rcases List.mem_cons.mp ((insertWalk_perm walked).subset member) with rfl | old
      · exact isLess.mp less
      · exact below b old
    · have inner := ihRight inRight measuresRight walked
      unfold Ascends
      rw [on.foreach]
      refine ascends_node.mpr ⟨inLeft, inner, below, fun b member => ?_⟩
      rcases List.mem_cons.mp ((insertWalk_perm walked).subset member) with rfl | old
      · exact isMore.mp more
      · exact above b old

theorem insert_ascends (ascends : Ascends key t) (measures : Measures (cmp new) key (key new) t)
    (linked : RbTree.insert cmp t new = (none, t')) : Ascends key t' := by
  unfold RbTree.insert at linked
  split at linked
  · cases linked
  · rename_i grown walked
    cases linked
    exact insertWalk_ascends ascends measures walked

/-- So does a removal. -/
theorem remove_ascends [DecidableEq α] (ascends : Ascends key t) (removed : remove t out = some t') :
    Ascends key t' := by
  obtain ⟨before, after, was, is⟩ := remove_some removed
  unfold Ascends at *
  rw [was] at ascends
  rw [is]
  exact ascends.sublist ((List.sublist_cons_self out after).append_left before)

end Order

end Ksrc.Guarantees.RbTreeElements

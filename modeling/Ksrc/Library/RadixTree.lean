import Mathlib.Logic.Function.Basic
import Mathlib.Tactic.Ring

/-!
# Radix trees in a heap that grow at the root

Nodes live at addresses of a heap. An inner node has children, a leaf has slots;
a fresh node is blank as both. There is a root for each level, and the root of
level `l + 1` has the root of level `l` as its child 0, so that a growing tree
keeps its old leaves. A position is divided by powers of the fan-out `2 ^ k`.
-/
namespace Ksrc.Library

variable {ε : Type*}

structure RadixNode (ε : Type*) where
  child : Nat → Option Nat
  slot : Nat → ε

structure RadixTree (ε : Type*) where
  roots : Nat → Option Nat
  nodes : Nat → RadixNode ε
  next : Nat

/-- Take the outcome of one allocation; an exhausted list answers success. -/
def takeAlloc : List Bool → Bool × List Bool
  | [] => (true, [])
  | ok :: rest => (ok, rest)

namespace RadixTree

/-- Allocate a blank node at address `next`. -/
def grow (t : RadixTree ε) (blank : ε) : RadixTree ε :=
  { t with nodes := Function.update t.nodes t.next ⟨fun _ => none, fun _ => blank⟩
           next := t.next + 1 }

def setChild (t : RadixTree ε) (a i : Nat) (b : Option Nat) : RadixTree ε :=
  let node := { t.nodes a with child := Function.update (t.nodes a).child i b }
  { t with nodes := Function.update t.nodes a node }

def setRoot (t : RadixTree ε) (l : Nat) (a : Option Nat) : RadixTree ε :=
  { t with roots := Function.update t.roots l a }

def setSlot (t : RadixTree ε) (a i : Nat) (e : ε) : RadixTree ε :=
  let node := { t.nodes a with slot := Function.update (t.nodes a).slot i e }
  { t with nodes := Function.update t.nodes a node }

/-- The leaf of position `p` under the node `a` of level `l`. -/
def descend (k : Nat) (t : RadixTree ε) : Nat → Nat → Nat → Option Nat
  | 0, _, a => some a
  | l + 1, p, a =>
    match (t.nodes a).child (p / 2 ^ (k * l)) with
    | none => none
    | some b => descend k t l (p % 2 ^ (k * l)) b

/-- The same, allocating what is missing; `none` when an allocation fails. -/
def descendAlloc (k : Nat) (blank : ε) :
    Nat → Nat → Nat → RadixTree ε → List Bool → Option Nat × RadixTree ε × List Bool
  | 0, _, a, t, allocs => (some a, t, allocs)
  | l + 1, p, a, t, allocs =>
    match (t.nodes a).child (p / 2 ^ (k * l)) with
    | some b => descendAlloc k blank l (p % 2 ^ (k * l)) b t allocs
    | none =>
      match takeAlloc allocs with
      | (false, allocs) => (none, t, allocs)
      | (true, allocs) =>
        descendAlloc k blank l (p % 2 ^ (k * l)) t.next
          ((t.grow blank).setChild a (p / 2 ^ (k * l)) (some t.next)) allocs

/-- Allocate the missing roots up to a level, each above the one below it. -/
def growRoots (blank : ε) : Nat → RadixTree ε → List Bool → Bool × RadixTree ε × List Bool
  | 0, t, allocs =>
    match t.roots 0 with
    | some _ => (true, t, allocs)
    | none =>
      match takeAlloc allocs with
      | (false, allocs) => (false, t, allocs)
      | (true, allocs) => (true, (t.grow blank).setRoot 0 (some t.next), allocs)
  | l + 1, t, allocs =>
    match growRoots blank l t allocs with
    | (false, t, allocs) => (false, t, allocs)
    | (true, t, allocs) =>
      match t.roots (l + 1) with
      | some _ => (true, t, allocs)
      | none =>
        match takeAlloc allocs with
        | (false, allocs) => (false, t, allocs)
        | (true, allocs) =>
          (true, ((t.grow blank).setChild t.next 0 (t.roots l)).setRoot (l + 1) (some t.next),
            allocs)

/-- The leaf of position `p`, sought from the root of level `l`. -/
def leafAt (k : Nat) (t : RadixTree ε) (l p : Nat) : Option Nat :=
  (t.roots l).bind (descend k t l p)

/-- Each address has one name: its level and its number among the nodes of that
level. -/
structure Named (k : Nat) (t : RadixTree ε) (name : Nat → Option (Nat × Nat)) : Prop where
  root : ∀ l a, t.roots l = some a → name a = some (l, 0)
  child : ∀ a i b, (t.nodes a).child i = some b →
    ∃ l n, name a = some (l + 1, n) ∧ name b = some (l, n * 2 ^ k + i)
  used : ∀ a, name a ≠ none → a < t.next

/-- Each root has the one below it as its first child. -/
def Stacked (t : RadixTree ε) : Prop :=
  ∀ l a, t.roots (l + 1) = some a → ∃ b, t.roots l = some b ∧ (t.nodes a).child 0 = some b

structure Shaped (k : Nat) (t : RadixTree ε) : Prop where
  named : ∃ name, Named k t name
  stacked : Stacked t

/-- `t'` has what `t` has: pointers are only added, and slots of old nodes stay. -/
structure Extends (t t' : RadixTree ε) : Prop where
  next : t.next ≤ t'.next
  root : ∀ l a, t.roots l = some a → t'.roots l = some a
  child : ∀ a i b, (t.nodes a).child i = some b → (t'.nodes a).child i = some b
  slot : ∀ a, a < t.next → (t'.nodes a).slot = (t.nodes a).slot

theorem Extends.refl (t : RadixTree ε) : Extends t t :=
  ⟨Nat.le_refl _, fun _ _ h => h, fun _ _ _ h => h, fun _ _ => rfl⟩

theorem Extends.trans {t t' t'' : RadixTree ε} (first : Extends t t') (second : Extends t' t'') :
    Extends t t'' := by
  refine ⟨Nat.le_trans first.next second.next, fun l a h => second.root l a (first.root l a h),
    fun a i b h => second.child a i b (first.child a i b h), fun a old => ?_⟩
  rw [second.slot a (Nat.lt_of_lt_of_le old first.next), first.slot a old]

section Lookup

variable {k : Nat} {t t' : RadixTree ε}

theorem descend_extends (extended : Extends t t') {l p a b : Nat}
    (found : descend k t l p a = some b) : descend k t' l p a = some b := by
  induction l generalizing p a with
  | zero => exact found
  | succ l ih =>
    simp only [descend] at found ⊢
    cases child : (t.nodes a).child (p / 2 ^ (k * l)) with
    | none => simp [child] at found
    | some c =>
      rw [child] at found
      rw [extended.child _ _ _ child]
      exact ih found

theorem leafAt_extends (extended : Extends t t') {l p b : Nat} (found : leafAt k t l p = some b) :
    leafAt k t' l p = some b := by
  obtain ⟨a, root, found⟩ := Option.bind_eq_some_iff.mp found
  simp only [leafAt, extended.root l a root, Option.bind_some]
  exact descend_extends extended found

theorem descend_named {name : Nat → Option (Nat × Nat)} (named : Named k t name)
    {l n p a b : Nat} (here : name a = some (l, n)) (found : descend k t l p a = some b) :
    name b = some (0, n * 2 ^ (k * l) + p) ∨ l = 0 ∧ name b = some (0, n) := by
  induction l generalizing n p a with
  | zero =>
    cases found
    exact .inr ⟨rfl, here⟩
  | succ l ih =>
    left
    simp only [descend] at found
    cases child : (t.nodes a).child (p / 2 ^ (k * l)) with
    | none => simp [child] at found
    | some c =>
      rw [child] at found
      obtain ⟨l', n', nameA, nameC⟩ := named.child _ _ _ child
      rw [here] at nameA
      simp only [Option.some.injEq, Prod.mk.injEq, Nat.add_right_cancel_iff] at nameA
      obtain ⟨rfl, rfl⟩ := nameA
      have split := Nat.div_add_mod p (2 ^ (k * l))
      have power : 2 ^ (k * (l + 1)) = 2 ^ k * 2 ^ (k * l) := by
        rw [Nat.mul_succ, Nat.pow_add, Nat.mul_comm]
      have sum : (n * 2 ^ k + p / 2 ^ (k * l)) * 2 ^ (k * l) + p % 2 ^ (k * l) =
          n * 2 ^ (k * (l + 1)) + p := by
        rw [power, Nat.add_mul]
        calc n * 2 ^ k * 2 ^ (k * l) + p / 2 ^ (k * l) * 2 ^ (k * l) + p % 2 ^ (k * l)
            = n * (2 ^ k * 2 ^ (k * l)) + (2 ^ (k * l) * (p / 2 ^ (k * l)) + p % 2 ^ (k * l)) := by
              ring
          _ = n * (2 ^ k * 2 ^ (k * l)) + p := by rw [split]
      rcases ih nameC found with named' | ⟨rfl, named'⟩
      · rw [named', sum]
      · simp only [Nat.mul_zero, Nat.pow_zero, Nat.div_one, Nat.mod_one, Nat.mul_one,
          Nat.add_zero] at sum named'
        rw [named', sum]

/-- A leaf found for a position is named by it. -/
theorem leafAt_named {name : Nat → Option (Nat × Nat)} (named : Named k t name) {l p b : Nat}
    (inside : p < 2 ^ (k * l)) (found : leafAt k t l p = some b) : name b = some (0, p) := by
  obtain ⟨a, root, found⟩ := Option.bind_eq_some_iff.mp found
  rcases descend_named named (named.root l a root) found with here | ⟨rfl, here⟩
  · simpa using here
  · have zero : p = 0 := by simpa using inside
    rw [here, zero]

/-- Two positions never share a leaf. -/
theorem leafAt_injective (shaped : Shaped k t) {l l' p p' b : Nat} (inside : p < 2 ^ (k * l))
    (inside' : p' < 2 ^ (k * l')) (found : leafAt k t l p = some b)
    (found' : leafAt k t l' p' = some b) : p = p' := by
  obtain ⟨name, named⟩ := shaped.named
  have here := leafAt_named named inside found
  rw [leafAt_named named inside' found'] at here
  simpa using here.symm

/-- From a higher root the same leaf is found. -/
theorem leafAt_succ (shaped : Shaped k t) {l p a : Nat} (root : t.roots (l + 1) = some a)
    (inside : p < 2 ^ (k * l)) : leafAt k t (l + 1) p = leafAt k t l p := by
  obtain ⟨b, below, first⟩ := shaped.stacked l a root
  simp [leafAt, root, below, descend, Nat.div_eq_of_lt inside, Nat.mod_eq_of_lt inside, first]

/-- So every root high enough for a position finds its leaf. -/
theorem leafAt_of_le (shaped : Shaped k t) {l l' p a : Nat} (root : t.roots l' = some a)
    (above : l ≤ l') (inside : p < 2 ^ (k * l)) : leafAt k t l' p = leafAt k t l p := by
  induction l' generalizing a with
  | zero => rw [Nat.le_zero.mp above]
  | succ l' ih =>
    rcases Nat.lt_or_eq_of_le above with lower | rfl
    · have low : l ≤ l' := Nat.lt_succ_iff.mp lower
      obtain ⟨b, below, -⟩ := shaped.stacked l' a root
      have wider : 2 ^ (k * l) ≤ 2 ^ (k * l') :=
        Nat.pow_le_pow_right (by decide) (Nat.mul_le_mul_left k low)
      rw [leafAt_succ shaped root (Nat.lt_of_lt_of_le inside wider), ih below low]
    · rfl

end Lookup

section Allocation

variable {k : Nat} {t : RadixTree ε}

theorem grow_extends (t : RadixTree ε) (blank : ε) (clear : ∀ i, (t.nodes t.next).child i = none) :
    Extends t (t.grow blank) := by
  refine ⟨Nat.le_succ _, fun _ _ h => h, fun a i b h => ?_, fun a old => ?_⟩
  · by_cases fresh : a = t.next
    · rw [fresh, clear i] at h
      cases h
    · simpa [grow, fresh] using h
  · simp [grow, Nat.ne_of_lt old]

theorem Named.clear {name : Nat → Option (Nat × Nat)} (named : Named k t name) (i : Nat) :
    (t.nodes t.next).child i = none := by
  cases child : (t.nodes t.next).child i with
  | none => rfl
  | some b =>
    obtain ⟨l, n, here, -⟩ := named.child _ _ _ child
    have := named.used t.next (by simp [here])
    omega

theorem setChild_extends {a i : Nat} {b : Option Nat} (empty : (t.nodes a).child i = none) :
    Extends t (t.setChild a i b) := by
  refine ⟨Nat.le_refl _, fun _ _ h => h, fun a' i' b' h => ?_, fun a' _ => ?_⟩
  · by_cases sameNode : a' = a
    · subst sameNode
      by_cases sameIndex : i' = i
      · rw [sameIndex, empty] at h
        cases h
      · simpa [setChild, sameIndex] using h
    · simpa [setChild, sameNode] using h
  · by_cases sameNode : a' = a
    · subst sameNode
      simp [setChild]
    · simp [setChild, sameNode]

theorem setRoot_extends {l : Nat} {a : Option Nat} (empty : t.roots l = none) :
    Extends t (t.setRoot l a) := by
  refine ⟨Nat.le_refl _, fun l' a' h => ?_, fun _ _ _ h => h, fun _ _ => rfl⟩
  by_cases same : l' = l
  · rw [same, empty] at h
    cases h
  · simpa [setRoot, same] using h

/-- Naming the node about to be allocated. -/
theorem Named.grow {name : Nat → Option (Nat × Nat)} (named : Named k t name) (blank : ε)
    (l n : Nat) : Named k (t.grow blank) (Function.update name t.next (some (l, n))) := by
  have fresh : name t.next = none := by
    by_contra used
    have := named.used _ used
    omega
  have kept : ∀ {a v}, name a = some v →
      Function.update name t.next (some (l, n)) a = some v := by
    intro a v here
    have different : a ≠ t.next := by
      rintro rfl
      rw [fresh] at here
      cases here
    rw [Function.update_of_ne different, here]
  refine ⟨fun l' a root => kept (named.root l' a root), fun a i b child => ?_, fun a used => ?_⟩
  · by_cases isNew : a = t.next
    · subst isNew
      simp [RadixTree.grow] at child
    · simp only [RadixTree.grow, Function.update_of_ne isNew] at child
      obtain ⟨l', n', nameA, nameB⟩ := named.child a i b child
      exact ⟨l', n', kept nameA, kept nameB⟩
  · by_cases isNew : a = t.next
    · subst isNew
      exact Nat.lt_succ_self _
    · rw [Function.update_of_ne isNew] at used
      exact Nat.lt_succ_of_lt (named.used a used)

theorem Named.setChild {name : Nat → Option (Nat × Nat)} (named : Named k t name) {a i l n : Nat}
    {b : Option Nat} (nameA : name a = some (l + 1, n))
    (nameB : ∀ c, b = some c → name c = some (l, n * 2 ^ k + i)) :
    Named k (t.setChild a i b) name := by
  refine ⟨named.root, fun a' i' b' child => ?_, named.used⟩
  by_cases sameNode : a' = a
  · subst sameNode
    by_cases sameIndex : i' = i
    · subst sameIndex
      simp only [RadixTree.setChild, Function.update_self] at child
      exact ⟨l, n, nameA, nameB b' child⟩
    · simp only [RadixTree.setChild, Function.update_self, Function.update_of_ne sameIndex] at child
      exact named.child _ _ _ child
  · simp only [RadixTree.setChild, Function.update_of_ne sameNode] at child
    exact named.child _ _ _ child

theorem Named.setRoot {name : Nat → Option (Nat × Nat)} (named : Named k t name) {a l : Nat}
    (here : name a = some (l, 0)) : Named k (t.setRoot l (some a)) name := by
  refine ⟨fun l' a' root => ?_, named.child, named.used⟩
  by_cases same : l' = l
  · subst same
    simp only [RadixTree.setRoot, Function.update_self, Option.some.injEq] at root
    rw [← root, here]
  · simp only [RadixTree.setRoot, Function.update_of_ne same] at root
    exact named.root _ _ root

/-- Adding pointers below the roots keeps the roots stacked. -/
theorem Stacked.of_extends {t' : RadixTree ε} (stacked : Stacked t) (extended : Extends t t')
    (roots : t'.roots = t.roots) : Stacked t' := by
  intro l a root
  rw [roots] at root
  obtain ⟨b, below, first⟩ := stacked l a root
  exact ⟨b, extended.root l b below, extended.child a 0 b first⟩

/-- What a descent with allocation does: it only adds, and on success the plain
descent then finds the leaf. -/
theorem descendAlloc_spec (blank : ε) {name : Nat → Option (Nat × Nat)} (named : Named k t name)
    {l n p a : Nat} (here : name a = some (l, n)) (allocs : List Bool) :
    let r := descendAlloc k blank l p a t allocs
    Extends t r.2.1 ∧ r.2.1.roots = t.roots ∧ (∃ name', Named k r.2.1 name') ∧
      ∀ b, r.1 = some b → descend k r.2.1 l p a = some b := by
  induction l generalizing n p a t name allocs with
  | zero => exact ⟨.refl t, rfl, ⟨name, named⟩, fun b found => found⟩
  | succ l ih =>
    simp only [descendAlloc]
    cases child : (t.nodes a).child (p / 2 ^ (k * l)) with
    | some c =>
      obtain ⟨l', n', nameA, nameC⟩ := named.child _ _ _ child
      rw [here] at nameA
      simp only [Option.some.injEq, Prod.mk.injEq, Nat.add_right_cancel_iff] at nameA
      obtain ⟨rfl, rfl⟩ := nameA
      obtain ⟨extended, roots, shaped, found⟩ := ih named nameC allocs
      refine ⟨extended, roots, shaped, fun b result => ?_⟩
      simp only [descend]
      rw [extended.child _ _ _ child]
      exact found b result
    | none =>
      cases alloc : takeAlloc allocs with
      | mk ok rest =>
        cases ok with
        | false => exact ⟨.refl t, rfl, ⟨name, named⟩, by simp⟩
        | true =>
          have different : a ≠ t.next := by
            have := named.used a (by simp [here])
            omega
          have grown := grow_extends t blank named.clear
          have stillEmpty : ((t.grow blank).nodes a).child (p / 2 ^ (k * l)) = none := by
            simpa [RadixTree.grow, different] using child
          have linked := grown.trans (setChild_extends (b := some t.next) stillEmpty)
          have nameNew := named.grow blank l (n * 2 ^ k + p / 2 ^ (k * l))
          have nameA : Function.update name t.next (some (l, n * 2 ^ k + p / 2 ^ (k * l))) a =
              some (l + 1, n) := by
            rw [Function.update_of_ne different, here]
          have nameLinked := nameNew.setChild (i := p / 2 ^ (k * l)) (b := some t.next) nameA
            (by rintro c ⟨⟩; exact Function.update_self _ _ _)
          obtain ⟨extended, roots, shaped, found⟩ :=
            ih nameLinked (Function.update_self _ _ _) rest
          refine ⟨linked.trans extended, roots, shaped, fun b result => ?_⟩
          have pointer : (((t.grow blank).setChild a (p / 2 ^ (k * l)) (some t.next)).nodes a).child
              (p / 2 ^ (k * l)) = some t.next := by
            simp [RadixTree.setChild]
          simp only [descend]
          rw [extended.child _ _ _ pointer]
          exact found b result

/-- What growing the roots does: it only adds, keeps the shape, and on success
every root up to the level is there. -/
theorem growRoots_spec (blank : ε) (shaped : Shaped k t) (level : Nat) (allocs : List Bool) :
    let r := growRoots blank level t allocs
    Extends t r.2.1 ∧ Shaped k r.2.1 ∧ (r.1 = true → ∀ l, l ≤ level → r.2.1.roots l ≠ none) ∧
      ∀ l, level < l → r.2.1.roots l = t.roots l := by
  induction level generalizing allocs with
  | zero =>
    simp only [growRoots]
    cases root : t.roots 0 with
    | some a =>
      refine ⟨.refl t, shaped, fun _ l low => ?_, fun _ _ => rfl⟩
      rw [Nat.le_zero.mp low, root]
      simp
    | none =>
      cases alloc : takeAlloc allocs with
      | mk ok rest =>
        cases ok with
        | false => exact ⟨.refl t, shaped, by simp, fun _ _ => rfl⟩
        | true =>
          obtain ⟨name, named⟩ := shaped.named
          have grown := grow_extends t blank named.clear
          have rooted := grown.trans (setRoot_extends (a := some t.next)
            (show (t.grow blank).roots 0 = none from root))
          refine ⟨rooted, ⟨⟨_, (named.grow blank 0 0).setRoot (Function.update_self _ _ _)⟩, ?_⟩,
            fun _ l low => ?_, fun l high => ?_⟩
          · intro l a above
            have noRoot : t.roots (l + 1) = some a := by
              simpa [RadixTree.setRoot, RadixTree.grow] using above
            obtain ⟨b, below, first⟩ := shaped.stacked l a noRoot
            exact ⟨b, rooted.root l b below, rooted.child a 0 b first⟩
          · rw [Nat.le_zero.mp low]
            simp [RadixTree.setRoot]
          · have apart : l ≠ 0 := by omega
            simp [RadixTree.setRoot, RadixTree.grow, apart]
  | succ level ih =>
    obtain ⟨extended, shaped', present, above⟩ := ih allocs
    simp only [growRoots]
    cases first : growRoots blank level t allocs with
    | mk ok rest =>
      obtain ⟨t', allocs'⟩ := rest
      rw [first] at extended shaped' present above
      simp only at extended shaped' present above
      cases ok with
      | false => exact ⟨extended, shaped', by simp, fun l high => above l (by omega)⟩
      | true =>
        have lower := present rfl
        dsimp only
        cases root : t'.roots (level + 1) with
        | some a =>
          refine ⟨extended, shaped', fun _ l low => ?_, fun l high => above l (by omega)⟩
          by_cases top : l = level + 1
          · rw [top, root]
            simp
          · exact lower l (by omega)
        | none =>
          dsimp only
          cases alloc : takeAlloc allocs' with
          | mk ok rest =>
            cases ok with
            | false => exact ⟨extended, shaped', by simp, fun l high => above l (by omega)⟩
            | true =>
              obtain ⟨name, named⟩ := shaped'.named
              obtain ⟨b, below⟩ := Option.ne_none_iff_exists'.mp (lower level (Nat.le_refl _))
              have grown := grow_extends t' blank named.clear
              have usedB := named.used b (by rw [named.root _ _ below]; simp)
              have differentB : b ≠ t'.next := Nat.ne_of_lt usedB
              have blankChild : ((t'.grow blank).nodes t'.next).child 0 = none := by
                simp [RadixTree.grow]
              have linked := grown.trans (setChild_extends (b := t'.roots level) blankChild)
              have rooted := linked.trans (setRoot_extends (a := some t'.next)
                (show ((t'.grow blank).setChild t'.next 0 (t'.roots level)).roots (level + 1) = none
                  from root))
              have nameNew := named.grow blank (level + 1) 0
              have nameB : ∀ c, t'.roots level = some c →
                  Function.update name t'.next (some (level + 1, 0)) c =
                    some (level, 0 * 2 ^ k + 0) := by
                intro c isRoot
                rw [below] at isRoot
                cases isRoot
                rw [Function.update_of_ne differentB, named.root _ _ below]
                simp
              have nameLinked := nameNew.setChild (Function.update_self _ _ _) nameB
              refine ⟨extended.trans rooted,
                ⟨⟨_, nameLinked.setRoot (Function.update_self _ _ _)⟩, ?_⟩,
                fun _ l low => ?_, fun l high => ?_⟩
              · intro l a up
                by_cases top : l = level
                · subst top
                  simp only [RadixTree.setRoot, Function.update_self, Option.some.injEq] at up
                  subst up
                  refine ⟨b, rooted.root l b below, ?_⟩
                  simp [RadixTree.setRoot, RadixTree.setChild, below]
                · have old : t'.roots (l + 1) = some a := by
                    have apart : l + 1 ≠ level + 1 := by omega
                    simpa [RadixTree.setRoot, RadixTree.setChild, RadixTree.grow, top] using up
                  obtain ⟨c, under, firstChild⟩ := shaped'.stacked l a old
                  exact ⟨c, rooted.root l c under, rooted.child a 0 c firstChild⟩
              · by_cases top : l = level + 1
                · rw [top]
                  simp [RadixTree.setRoot]
                · obtain ⟨c, isRoot⟩ := Option.ne_none_iff_exists'.mp (lower l (by omega))
                  rw [rooted.root l c isRoot]
                  simp
              · have apart : l ≠ level + 1 := by omega
                rw [← above l (by omega)]
                simp [RadixTree.setRoot, RadixTree.setChild, RadixTree.grow, apart]

end Allocation

section Slots

variable {k : Nat} {t : RadixTree ε}

@[simp] theorem setSlot_child (t : RadixTree ε) (a i a' : Nat) (e : ε) :
    ((t.setSlot a i e).nodes a').child = (t.nodes a').child := by
  by_cases same : a' = a
  · subst same
    simp [setSlot]
  · simp [setSlot, same]

@[simp] theorem setSlot_roots (t : RadixTree ε) (a i : Nat) (e : ε) :
    (t.setSlot a i e).roots = t.roots := rfl

theorem setSlot_same (t : RadixTree ε) (a i : Nat) (e : ε) :
    ((t.setSlot a i e).nodes a).slot i = e := by
  simp [setSlot]

theorem setSlot_other (t : RadixTree ε) {a i a' i' : Nat} (e : ε) (apart : a' ≠ a ∨ i' ≠ i) :
    ((t.setSlot a i e).nodes a').slot i' = (t.nodes a').slot i' := by
  by_cases sameNode : a' = a
  · subst sameNode
    have differs : i' ≠ i := by simpa using apart
    simp [setSlot, differs]
  · simp [setSlot, sameNode]

@[simp] theorem descend_setSlot (t : RadixTree ε) (a i : Nat) (e : ε) (l p b : Nat) :
    descend k (t.setSlot a i e) l p b = descend k t l p b := by
  induction l generalizing p b with
  | zero => rfl
  | succ l ih =>
    simp only [descend, setSlot_child]
    cases (t.nodes b).child (p / 2 ^ (k * l)) with
    | none => rfl
    | some c => exact ih _ _

@[simp] theorem leafAt_setSlot (t : RadixTree ε) (a i : Nat) (e : ε) (l p : Nat) :
    leafAt k (t.setSlot a i e) l p = leafAt k t l p := by
  simp [leafAt]

theorem Shaped.setSlot (shaped : Shaped k t) (a i : Nat) (e : ε) : Shaped k (t.setSlot a i e) := by
  obtain ⟨name, named⟩ := shaped.named
  refine ⟨⟨name, named.root, ?_, named.used⟩, ?_⟩
  · intro a' i' b child
    rw [setSlot_child] at child
    exact named.child a' i' b child
  · intro l a' root
    obtain ⟨b, below, first⟩ := shaped.stacked l a' root
    exact ⟨b, below, by rw [setSlot_child]; exact first⟩

end Slots

end RadixTree

end Ksrc.Library

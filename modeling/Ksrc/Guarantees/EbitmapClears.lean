import Ksrc.Guarantees.EbitmapFiles

/-!
# Clearing bits

Source: `security/selinux/ss/ebitmap.c` (`ebitmap_set_bit`).

A node without bits is dropped, and `highbit` moves back when it was the last one, so that the bitmap
stays canonical.
-/
namespace Ksrc.Guarantees.EbitmapClears

open Source EbitmapBits EbitmapFiles

variable {n : EbitmapNode} {nodes : List EbitmapNode} {e : Ebitmap} {low b x : Nat}

/-- `ebitmap_node_clr_bit` clears one bit. -/
theorem bit_clrBit (n : EbitmapNode) {ofs k : Nat} (small : ofs < ebitmapSize)
    (inside : k < ebitmapSize) : (n.clrBit ofs).bit k = (!decide (k = ofs) && n.bit k) := by
  have unit : ofs / ebitmapUnitSize < ebitmapUnitNums := by
    unfold ebitmapSize at small
    unfold ebitmapUnitSize ebitmapUnitNums
    omega
  have place : k % ebitmapUnitSize < 64 := Nat.mod_lt k (by decide)
  rw [bit_of_lt inside, bit_of_lt inside]
  unfold EbitmapNode.clrBit
  dsimp only
  by_cases same : k / ebitmapUnitSize = ofs / ebitmapUnitSize
  · rw [same, vector_getD (n.maps.setIfInBounds _ _), Vector.getElem?_setIfInBounds_self_of_lt unit,
      Option.getD_some]
    rw [BitVec.getLsbD_and, BitVec.getLsbD_not, BitVec.getLsbD_shiftLeft, BitVec.getLsbD_one,
      Bool.and_comm]
    congr 1
    have differ : (k % ebitmapUnitSize = ofs % ebitmapUnitSize) ↔ k = ofs := by
      unfold ebitmapUnitSize at same ⊢
      omega
    by_cases equal : k = ofs
    · rw [equal] at place ⊢
      simp [place]
    · have apart : k % ebitmapUnitSize ≠ ofs % ebitmapUnitSize := fun rest => equal (differ.mp rest)
      rw [decide_eq_false equal]
      by_cases below : k % ebitmapUnitSize < ofs % ebitmapUnitSize
      · simp [below, place]
      · have positive : k % ebitmapUnitSize - ofs % ebitmapUnitSize ≠ 0 := by omega
        simp [positive, place]
  · have differ : decide (k = ofs) = false := decide_eq_false fun equal => same (by rw [equal])
    rw [differ, Bool.not_false, Bool.true_and]
    rw [vector_getD, Vector.getElem?_setIfInBounds_ne (Ne.symm same), ← vector_getD]

theorem inNode_clrBit (lower : n.startbit.toNat ≤ b) (upper : b < n.startbit.toNat + ebitmapSize) :
    InNode (n.clrBit (b - n.startbit.toNat)) x ↔ x ≠ b ∧ InNode n x := by
  have same : (n.clrBit (b - n.startbit.toNat)).startbit = n.startbit := rfl
  unfold InNode
  rw [same]
  by_cases below : n.startbit.toNat ≤ x
  · by_cases above : x < n.startbit.toNat + ebitmapSize
    · have offset : x - n.startbit.toNat = b - n.startbit.toNat ↔ x = b := by omega
      rw [bit_clrBit n (by omega) (by omega), Bool.and_eq_true, Bool.not_eq_true', decide_eq_false_iff_not,
        offset]
      simp only [below, above, true_and]
    · simp only [above, false_and, and_false]
  · simp only [below, false_and, and_false]

/-- A node is kept while it has a bit. -/
theorem lastBit_isSome : n.lastBit.isSome = true ↔ ∃ b, InNode n b := by
  unfold EbitmapNode.lastBit
  rw [List.find?_isSome]
  constructor
  · rintro ⟨ofs, member, set⟩
    have small : ofs < ebitmapSize := by simpa using member
    exact ⟨n.startbit.toNat + ofs, by omega, by omega, by rwa [Nat.add_sub_cancel_left]⟩
  · rintro ⟨b, lower, upper, set⟩
    refine ⟨b - n.startbit.toNat, ?_, set⟩
    simp only [List.mem_reverse, List.mem_range]
    omega

/-- Where the nodes after another begin. -/
def startOf (prev : Option U32) : Nat := prev.elim 0 fun startbit => startbit.toNat + ebitmapSize

/-- What `ebitmap_set_bit` does to the nodes when it clears a bit. -/
structure BitCleared (b low : Nat) (nodes nodes' : List EbitmapNode)
    (dropped : Option (Option U32)) : Prop where
  ok : NodesFrom low nodes'
  bits : ∀ x, InNodes nodes' x ↔ x ≠ b ∧ InNodes nodes x
  ends : endOf low nodes' = dropped.elim (endOf low nodes) startOf
  shrinks : endOf low nodes' ≤ endOf low nodes

theorem inNodes_of_absent (absent : ¬ InNodes nodes b) : InNodes nodes x ↔ x ≠ b ∧ InNodes nodes x :=
  ⟨fun inside => ⟨fun same => absent (same ▸ inside), inside⟩, And.right⟩

theorem clrBitNodes_clear (prev : Option U32) (ok : NodesFrom (startOf prev) nodes) :
    BitCleared b (startOf prev) nodes (ebitmapClrBitNodes b prev nodes).1
      (ebitmapClrBitNodes b prev nodes).2 := by
  induction nodes generalizing prev with
  | nil => exact ⟨trivial, fun x => inNodes_of_absent inNodes_nil, rfl, Nat.le_refl _⟩
  | cons n rest ih =>
    obtain ⟨first, aligned, used, later⟩ := ok
    have next : NodesFrom (startOf (some n.startbit)) rest := later
    unfold ebitmapClrBitNodes
    by_cases below : n.startbit.toNat ≤ b
    · rw [if_pos below]
      by_cases inside : b < n.startbit.toNat + ebitmapSize
      · rw [if_pos inside]
        have start : (n.clrBit (b - n.startbit.toNat)).startbit = n.startbit := rfl
        have notLater : ¬ InNodes rest b := fun there => by
          have := later.lower there
          omega
        have bits : ∀ x, InNode (n.clrBit (b - n.startbit.toNat)) x ∨ InNodes rest x ↔
            x ≠ b ∧ InNodes (n :: rest) x := by
          intro x
          rw [inNode_clrBit below inside, inNodes_of_absent (x := x) notLater, inNodes_cons, and_or_left]
        dsimp only
        by_cases kept : (n.clrBit (b - n.startbit.toNat)).lastBit.isSome = true
        · rw [if_pos kept]
          refine ⟨⟨by rw [start]; exact first, by rw [start]; exact aligned, lastBit_isSome.mp kept,
            by rw [start]; exact later⟩, fun x => ?_, rfl, Nat.le_refl _⟩
          rw [← bits, inNodes_cons]
        · -- the node is dropped, and `highbit` moves when no node follows
          rw [if_neg kept]
          have empty : ∀ x, ¬ InNode (n.clrBit (b - n.startbit.toNat)) x := fun x here =>
            kept (lastBit_isSome.mpr ⟨x, here⟩)
          have room : startOf prev ≤ n.startbit.toNat + ebitmapSize := by omega
          refine ⟨later.mono room, fun x => ?_, ?_, ?_⟩
          · rw [← bits, or_iff_right (empty x)]
          · cases rest with
            | nil => rfl
            | cons m rest => rfl
          · cases rest with
            | nil => exact room
            | cons m rest => exact Nat.le_refl _
      · rw [if_neg inside]
        have step := ih (some n.startbit) next
        have here : ∀ x, InNode n x → x ≠ b := by
          intro x here same
          exact inside (same ▸ here.upper)
        refine ⟨⟨first, aligned, used, step.ok⟩, fun x => ?_, step.ends, step.shrinks⟩
        dsimp only
        rw [inNodes_cons, inNodes_cons, step.bits, and_or_left]
        exact or_congr_left ⟨fun inNode => ⟨here x inNode, inNode⟩, And.right⟩
    · rw [if_neg below]
      refine ⟨⟨first, aligned, used, later⟩, fun x => inNodes_of_absent fun there => ?_, rfl,
        Nat.le_refl _⟩
      rcases inNodes_cons.mp there with here | there
      · exact below here.lower
      · have := later.lower there
        omega

/-- `ebitmap_set_bit` takes one bit away. -/
theorem clrBit_canonical (ok : Canonical e) (b : Nat) :
    Canonical (ebitmapSetBit e b false) ∧
      ∀ x, InBitmap (ebitmapSetBit e b false) x ↔ x ≠ b ∧ InBitmap e x := by
  have step := clrBitNodes_clear (b := b) none ok.nodes
  have fits : endOf 0 (ebitmapClrBitNodes b none e.node).1 < 2 ^ 32 := by
    refine lt_of_le_of_lt step.shrinks ?_
    show endOf 0 e.node < 2 ^ 32
    rw [← ok.high]
    exact e.highbit.isLt
  have ends := step.ends
  have bits := step.bits
  have nodes := step.ok
  change endOf 0 _ = _ at ends
  change NodesFrom 0 _ at nodes
  unfold ebitmapSetBit InBitmap
  rw [if_neg Bool.false_ne_true]
  rcases cleared : ebitmapClrBitNodes b none e.node with ⟨node, dropped⟩
  rw [cleared] at fits ends bits nodes
  dsimp only at fits ends bits nodes ⊢
  cases dropped with
  | none =>
    refine ⟨⟨nodes, ?_⟩, bits⟩
    rw [ends]
    exact ok.high
  | some prev =>
    cases prev with
    | none => exact ⟨⟨nodes, ends.symm⟩, bits⟩
    | some prev =>
      have high : endOf 0 node = prev.toNat + ebitmapSize := ends
      refine ⟨⟨nodes, ?_⟩, bits⟩
      dsimp only
      rw [BitVec.toNat_ofNat, high, Nat.mod_eq_of_lt]
      omega

end Ksrc.Guarantees.EbitmapClears

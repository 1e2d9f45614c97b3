import Ksrc.Guarantees.OrderedChains
import Ksrc.Guarantees.PolicyCodecs

/-!
# Hash tables that are written and read again

Source: `security/selinux/ss/hashtab.h` (`hashtab_insert`), `hashtab.c` (`hashtab_init`, `hashtab_map`),
and the loops of `policydb.c` that fill a table from a policy file.

A table is written in the order of `hashtab_map`, and has the size that `hashtab_init` computes from the
number of its entries. So each entry that is read again comes to the end of its chain.
-/
namespace Ksrc.Guarantees.HashtabFiles

open Library Source OrderedChains PolicyCodecs

variable {κ δ : Type} {params : HashtabKeyParams κ} {h h' start : Hashtab κ δ} {key : κ} {datum : δ}
  {chain : List (κ × δ)}

/-- The walk to each entry of a chain passes those before it. -/
def Ascending (cmp : κ → κ → Int) (chain : List (κ × δ)) : Prop := chain.Pairwise fun a b => 0 < cmp b.1 a.1

/-- A table as `hashtab_init` and as many insertions as it has entries leave it. -/
structure Settled (params : HashtabKeyParams κ) (h : Hashtab κ δ) : Prop where
  size : h.size = hashtabComputeSize (BitVec.ofNat 32 h.nel)
  fits : h.size ≤ hashtabMaxSize
  count : h.nel = h.entries.length
  counted : h.nel < 2 ^ 32
  slot : ∀ i, ∀ e ∈ h.htable.getD i [], hashtabSlot params h e.1 = i
  ascending : ∀ i, Ascending params.cmp (h.htable.getD i [])

section Rebuild

variable {chains : List (List (κ × δ))} {n : Nat}

theorem chainInsert_end (all : ∀ e ∈ chain, 0 < params.cmp key e.1) :
    hashtabChainInsert params.cmp key datum chain = .ok (chain ++ [(key, datum)]) := by
  induction chain with
  | nil => rfl
  | cons cur next ih =>
    have here := all cur List.mem_cons_self
    unfold hashtabChainInsert
    rw [if_neg (by omega), if_neg (by omega), ih fun e member => all e (List.mem_cons_of_mem _ member)]
    rfl

/-- One slot is filled, in the order of its chain. -/
theorem fill_chain (done later : List (List (κ × δ))) (front : List (κ × δ))
    (slots : ∀ e ∈ chain, ∀ t : Hashtab κ δ, t.size = done.length + later.length + 1 →
      hashtabSlot params t e.1 = done.length)
    (ascending : Ascending params.cmp (front ++ chain)) (room : n + chain.length < 2 ^ 32) :
    chain.foldlM (fun t e => hashtabInsert params t e.1 e.2) { htable := done ++ front :: later, nel := n } =
      .ok { htable := done ++ (front ++ chain) :: later, nel := n + chain.length } := by
  induction chain generalizing front n with
  | nil =>
    rw [List.append_nil]
    rfl
  | cons e chain ih =>
    rw [List.length_cons] at room
    have slot := slots e List.mem_cons_self { htable := done ++ front :: later, nel := n } (by
      rw [Hashtab.size, List.length_append, List.length_cons, Nat.add_assoc])
    have here : (done ++ front :: later).getD done.length [] = front := by
      rw [List.getD_append_right _ _ _ _ (Nat.le_refl _), Nat.sub_self]
      rfl
    have passed : ∀ other ∈ front, 0 < params.cmp e.1 other.1 := fun other member =>
      (List.pairwise_append.mp ascending).2.2 other member e List.mem_cons_self
    have once : hashtabInsert params { htable := done ++ front :: later, nel := n } e.1 e.2 =
        .ok { htable := done ++ (front ++ [e]) :: later, nel := n + 1 } := by
      have some : ¬ ((done ++ front :: later).length = 0 ∨ n = hashtabMaxNodes) := by
        rw [List.length_append, List.length_cons]
        unfold hashtabMaxNodes
        omega
      unfold hashtabInsert Hashtab.size
      simp only
      rw [if_neg some, slot, here, chainInsert_end passed]
      simp only
      rw [List.set_append_right _ _ (Nat.le_refl _), Nat.sub_self]
      rfl
    have whole : front ++ e :: chain = (front ++ [e]) ++ chain := List.append_cons front e chain
    rw [whole] at ascending ⊢
    rw [List.foldlM_cons, once]
    change chain.foldlM _ _ = _
    rw [ih (front ++ [e]) (fun other member => slots other (List.mem_cons_of_mem _ member)) ascending (by omega),
      List.length_cons, Nat.add_assoc, Nat.add_comm 1]

/-- The slots are filled one after the other. -/
theorem fill_chains (done : List (List (κ × δ)))
    (slots : ∀ i, ∀ e ∈ chains.getD i [], ∀ t : Hashtab κ δ, t.size = done.length + chains.length →
      hashtabSlot params t e.1 = done.length + i)
    (ascending : ∀ i, Ascending params.cmp (chains.getD i [])) (room : n + chains.flatten.length < 2 ^ 32) :
    chains.flatten.foldlM (fun t e => hashtabInsert params t e.1 e.2)
        { htable := done ++ List.replicate chains.length [], nel := n } =
      .ok { htable := done ++ chains, nel := n + chains.flatten.length } := by
  induction chains generalizing done n with
  | nil => rfl
  | cons chain chains ih =>
    rw [List.flatten_cons, List.length_append] at room ⊢
    have first : chain.foldlM _ _ = _ := fill_chain (n := n) done (List.replicate chains.length []) []
      (fun e member t size => slots 0 e member t (by rw [size, List.length_replicate, List.length_cons]; omega))
      (ascending 0) (by omega)
    have more := ih (n := n + chain.length) (done ++ [chain])
      (fun i e member t size => by
        have slot := slots (i + 1) e member t (by
          rw [size, List.length_append, List.length_singleton, List.length_cons]
          omega)
        rw [slot, List.length_append, List.length_singleton]
        omega)
      (fun i => ascending (i + 1)) (by omega)
    rw [List.append_assoc, List.append_assoc, List.singleton_append, List.singleton_append, Nat.add_assoc] at more
    rw [List.foldlM_append, List.length_cons, List.replicate_succ, first]
    exact more

/-- What is in a settled table, inserted in the order of `hashtab_map`, makes the table again. -/
theorem rebuilt (settled : Settled params h) :
    ∃ start, hashtabInit (BitVec.ofNat 32 h.nel) = .ok start ∧
      h.entries.foldlM (fun t e => hashtabInsert params t e.1 e.2) start = .ok h := by
  have size := settled.size
  refine ⟨{ htable := List.replicate h.htable.length [], nel := 0 }, ?_, ?_⟩
  · unfold hashtabInit
    simp only
    rw [← size, if_neg (Nat.not_lt_of_le settled.fits)]
    rfl
  · have counted := settled.counted
    have count := settled.count
    unfold Hashtab.entries at count ⊢
    have filled := fill_chains (n := 0) []
      (fun i e member t size => by
        rw [List.length_nil, Nat.zero_add, ← settled.slot i e member]
        exact hashtabSlot_size (by rw [size, List.length_nil, Nat.zero_add]; rfl) e.1)
      settled.ascending (by omega)
    rw [Nat.zero_add, ← count] at filled
    exact filled

/-- A table is carried by the rounds that read its entries. -/
theorem table_carries {w : κ × δ → PolicyWriter} {round : Hashtab κ δ → PolicyReader (Hashtab κ δ)}
    (settled : Settled params h)
    (each : ∀ t e t', e ∈ h.entries → hashtabInsert params t e.1 e.2 = .ok t' → Carries einval (w e) (round t) t') :
    Carries einval (ByteWriter.seq [putCount h.nel, ByteWriter.each w h.entries])
      (nextU32 >>= fun nel => ByteReader.lift (hashtabInit nel) >>= fun table =>
        ByteReader.times round nel.toNat table) h := by
  obtain ⟨start, made, run⟩ := rebuilt settled
  have count : (BitVec.ofNat 32 h.nel).toNat = h.entries.length := by
    rw [BitVec.toNat_ofNat, Nat.mod_eq_of_lt settled.counted, settled.count]
  refine (u32_carries _).cons (.lift made ?_)
  rw [count]
  have related : List.Forall₂ (fun e e' => e' = e ∧ e ∈ h.entries) h.entries h.entries :=
    List.forall₂_same.mpr fun e member => ⟨rfl, member⟩
  refine (Carries.times related (fun t e e' t' same made => ?_) run).last
  obtain ⟨rfl, member⟩ := same
  exact each t e' t' member made

end Rebuild

section Read

variable {ω : Type} [LinearOrder ω] {code : κ → ω} {good : κ → Prop}

/-- A table that is being filled with entries that are good. -/
structure Filling (params : HashtabKeyParams κ) (code : κ → ω) (fits : κ × δ → Prop) (size : Nat)
    (h : Hashtab κ δ) : Prop where
  size : h.size = size
  items : ∃ items, Placed params h items ∧ ∀ e ∈ items, fits e
  sorted : ChainsSorted (fun _ => code) h

theorem ascending_of_sorted (agrees : Agrees params.cmp code good) (goods : ∀ e ∈ chain, good e.1)
    (sorted : Sorted code chain) : Ascending params.cmp chain := by
  refine List.Pairwise.imp_of_mem (fun {a b} inA inB less => ?_) sorted
  have differs : params.cmp b.1 a.1 ≠ 0 := fun zero => by
    rw [agrees.same.mp zero] at less
    exact lt_irrefl _ less
  have notLess : ¬ params.cmp b.1 a.1 < 0 := fun negative =>
    lt_asymm less ((agrees.less (goods b inB) (goods a inA)).mp negative)
  omega

/-- A table that a file was read into is settled. -/
theorem table_read {fits : κ × δ → Prop} {round : Hashtab κ δ → PolicyReader (Hashtab κ δ)} {bytes rest : List U8}
    (agrees : Agrees params.cmp code good) (goods : ∀ e, fits e → good e.1)
    (each : ∀ t bytes t' rest, round t bytes = .ok (t', rest) →
      ∃ e, fits e ∧ hashtabInsert params t e.1 e.2 = .ok t')
    (read : (nextU32 >>= fun nel => ByteReader.lift (hashtabInit nel) >>= fun table =>
      ByteReader.times round nel.toNat table) bytes = .ok (h, rest)) :
    Settled params h ∧ ∀ e ∈ h.entries, fits e := by
  simp only [ByteReader.bind_ok, ByteReader.lift_ok] at read
  obtain ⟨nel, _, -, start, _, ⟨made, rfl⟩, loop⟩ := read
  have init : start.size = hashtabComputeSize nel ∧ start.size ≤ hashtabMaxSize ∧ start.nel = 0 ∧
      ∀ i, start.htable.getD i [] = [] := by
    unfold hashtabInit at made
    dsimp only at made
    split at made
    · cases made
    · rename_i small
      cases made
      have size : (List.replicate (hashtabComputeSize nel) ([] : List (κ × δ))).length = hashtabComputeSize nel :=
        List.length_replicate
      exact ⟨size, by unfold Hashtab.size; rw [size]; omega, rfl, fun i => replicate_chain _ i⟩
  obtain ⟨size, small, none, empty⟩ := init
  have first : Filling params code fits start.size start := by
    refine ⟨rfl, ⟨[], placed_init made, by simp⟩, fun i => ?_⟩
    rw [empty]
    exact List.Pairwise.nil
  obtain ⟨filling, counted⟩ := times_counted (Filling params code fits start.size) Hashtab.nel
    (fun t bytes t' rest before once => by
      obtain ⟨e, fit, inserted⟩ := each t bytes t' rest once
      have step := hashtabInsert_inserted inserted
      obtain ⟨items, placed, all⟩ := before.items
      refine ⟨⟨step.size.trans before.size, ⟨items ++ [(e.1, e.2)], placed.insert step, ?_⟩, ?_⟩, step.count⟩
      · intro other member
        rcases List.mem_append.mp member with old | new
        · exact all other old
        · rw [List.mem_singleton.mp new]
          exact fit
      · exact ChainsSorted.insert (fun _ => agrees) placed (fun e member => goods e (all e member)) (goods e fit)
          before.sorted step) first loop
  obtain ⟨items, placed, all⟩ := filling.items
  have entries : ∀ e ∈ h.entries, fits e := fun e member => all e (placed.entries.mem_iff.mp member)
  rw [none, Nat.zero_add] at counted
  refine ⟨⟨?_, ?_, ?_, ?_, placed.slot, fun i => ?_⟩, entries⟩
  · rw [filling.size, size, counted, BitVec.ofNat_toNat, BitVec.setWidth_eq]
  · rw [filling.size]
    exact small
  · rw [placed.count, placed.entries.length_eq]
  · rw [counted]
    exact nel.isLt
  · have goodHere : ∀ e ∈ h.htable.getD i [], good e.1 := fun e member =>
      goods e (all e (placed.mem_chain.mp member).1)
    exact ascending_of_sorted agrees goodHere (filling.sorted i)

end Read

end Ksrc.Guarantees.HashtabFiles

import Ksrc.Guarantees.OrderedChains
import Ksrc.Guarantees.PolicydbShape
import Ksrc.Guarantees.StringOrder

/-!
# Symbol tables and the symbols that were read

Source: `security/selinux/ss/hashtab.h` (`hashtab_insert`, `hashtab_search`), `symtab.c`,
`policydb.c` (the loop over the symbol tables in `policydb_read`).

Each name is on the chain of its hash value, and each chain is in the strict order of the names: a
search finds exactly the entries, and no name is twice in a table.
-/
namespace Ksrc.Guarantees.SymbolTables

open Library Source OrderedChains PolicydbShape
  StringOrder

variable {δ : Type} {key : Name} {datum : δ}

/-- A chain in the strict order of its names. -/
def NamesSorted (chain : List (Name × δ)) : Prop :=
  chain.Pairwise fun a b => a.1.map BitVec.toNat < b.1.map BitVec.toNat

/-- The comparison of names is that of their bytes. -/
theorem strcmp_agrees : Agrees strcmp (List.map BitVec.toNat) fun _ => True where
  less _ _ := strcmp_neg
  same := strcmp_zero
  inj _ _ same := text_inj.mp same

/-- Each name is on its chain, and each chain is in order. -/
structure TableOk (h : Hashtab Name δ) : Prop where
  placed : ∀ i, ∀ e ∈ h.htable.getD i [], hashtabSlot symtabKeyParams h e.1 = i
  sorted : ∀ i, NamesSorted (h.htable.getD i [])

section Tables

variable {h h' : Hashtab Name δ} {s s' : Symtab δ}

theorem tableOk_empty (n nel : Nat) :
    TableOk { htable := List.replicate n ([] : List (Name × δ)), nel } := by
  constructor
  · intro i e member
    simp only [replicate_chain] at member
    cases member
  · intro i
    simp only [replicate_chain]
    exact List.Pairwise.nil

theorem hashtabInsert_ok (ok : TableOk h) (inserted : hashtabInsert symtabKeyParams h key datum = .ok h') :
    TableOk h' ∧ h'.entries.Perm ((key, datum) :: h.entries) := by
  have step := hashtabInsert_inserted inserted
  refine ⟨⟨step.slots ok.placed, fun i => ?_⟩, step.perm⟩
  by_cases here : i = hashtabSlot symtabKeyParams h key
  · subst here
    exact chainInsert_sorted strcmp_agrees trivial (fun _ _ => trivial) (ok.sorted _) step.link
  · rw [step.frame i here]
    exact ok.sorted i

theorem hashtabSearch_iff (ok : TableOk h) :
    hashtabSearch symtabKeyParams h key = some datum ↔ (key, datum) ∈ h.entries := by
  unfold hashtabSearch
  split
  · rename_i empty
    have none : h.htable = [] := List.length_eq_zero_iff.mp empty
    unfold Hashtab.entries
    rw [none]
    simp
  · have chain := @chainSearch_iff Name δ _ _ strcmp _ _ key datum
      (h.htable.getD (hashtabSlot symtabKeyParams h key) []) strcmp_agrees trivial (fun _ _ => trivial)
      (ok.sorted _)
    refine chain.trans ((mem_chain_iff ok.placed).trans ?_)
    exact and_iff_left rfl

/-- A search by name finds exactly the entries. -/
theorem symtabSearch_iff (ok : TableOk s.table) :
    symtabSearch s key = some datum ↔ (key, datum) ∈ s.table.entries :=
  hashtabSearch_iff ok

/-- What a search finds is an entry of the name. -/
theorem symtabSearch_mem (found : symtabSearch s key = some datum) : (key, datum) ∈ s.table.entries :=
  hashtabSearch_mem strcmp_zero found

theorem symtabInsert_ok (ok : TableOk s.table) (inserted : symtabInsert s key datum = .ok s') :
    s'.nprim = s.nprim ∧ TableOk s'.table ∧ s'.table.entries.Perm ((key, datum) :: s.table.entries) := by
  unfold symtabInsert at inserted
  split at inserted
  · cases inserted
  · rename_i table linked
    cases inserted
    exact ⟨rfl, hashtabInsert_ok ok linked⟩

theorem symtabInit_ok {size : U32} (made : symtabInit size = .ok s) :
    TableOk s.table ∧ s.table.entries = [] := by
  refine ⟨?_, symtabInit_entries made⟩
  unfold symtabInit hashtabInit at made
  dsimp only at made
  split at made
  · cases made
  · rename_i table sized
    split at sized
    · cases sized
    · cases sized
      cases made
      exact tableOk_empty _ 0

end Tables

section Read

variable {reader : PolicyReader (Name × δ)} {s s' : Symtab δ} {n : Nat} {bytes rest : List U8}

/-- A table with the symbols read so far. -/
structure SymbolsRead (s : Symtab δ) (items : List (Name × δ)) : Prop where
  ok : TableOk s.table
  entries : s.table.entries.Perm items

theorem symRead_item {items : List (Name × δ)} (read : SymbolsRead s items)
    (once : symRead reader s bytes = .ok (s', rest)) :
    ∃ e, reader bytes = .ok (e, rest) ∧ SymbolsRead s' (items ++ [e]) := by
  simp only [symRead, ByteReader.bind_ok, ByteReader.lift_ok] at once
  obtain ⟨⟨key, datum⟩, _, item, inserted, rfl⟩ := once
  obtain ⟨-, ok, perm⟩ := symtabInsert_ok read.ok inserted
  refine ⟨(key, datum), item, ok, ?_⟩
  calc
    s'.table.entries.Perm ((key, datum) :: s.table.entries) := perm
    List.Perm _ ((key, datum) :: items) := read.entries.cons _
    List.Perm _ (items ++ [(key, datum)]) := (List.perm_append_singleton _ _).symm

/-- The symbols of a table are those read. -/
theorem symbols_read (ok : TableOk s.table) (empty : s.table.entries = [])
    (loop : ByteReader.times (symRead reader) n s bytes = .ok (s', rest)) :
    ∃ items, ByteReader.several reader n bytes = .ok (items, rest) ∧ SymbolsRead s' items := by
  have start : SymbolsRead s [] := by
    constructor
    · exact ok
    · rw [empty]
  obtain ⟨items, same, done⟩ := ByteReader.times_several SymbolsRead
    (fun _ _ _ _ _ read once => symRead_item read once) start loop
  exact ⟨items, same, done⟩

theorem symtabRead_symbols (read : symtabRead .ok (symRead reader) bytes = .ok (s, rest)) :
    ∃ nprim nel items more mid, nextU32 bytes = .ok (nprim, more) ∧ nextU32 more = .ok (nel, mid) ∧
      ByteReader.several reader nel.toNat mid = .ok (items, rest) ∧ SymbolsRead s items := by
  simp only [symtabRead, ByteReader.bind_ok, ByteReader.pure_ok, ByteReader.lift_ok] at read
  obtain ⟨nprim, _, first, nel, _, second, s₀, _, ⟨made, rfl⟩, s₁, _, ⟨same, rfl⟩, s₂, _, loop, rfl,
    rfl⟩ := read
  cases same
  obtain ⟨ok, empty⟩ := symtabInit_ok made
  obtain ⟨items, taken, done⟩ := symbols_read ok empty loop
  exact ⟨nprim, nel, items, _, _, first, second, taken, done.ok, done.entries⟩

end Read

end Ksrc.Guarantees.SymbolTables

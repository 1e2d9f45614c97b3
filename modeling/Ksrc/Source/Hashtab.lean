import Ksrc.Source.PolicyFile

/-!
# Hash tables and symbol tables

Source: `security/selinux/ss/hashtab.h`, `hashtab.c`, `symtab.h`, `symtab.c`. A slot is a
chain of key and datum pairs, kept in the order of the key comparison.
-/
namespace Ksrc.Source

variable {κ δ : Type}

/-- `struct hashtab_key_params`; `cmp` is negative, 0 or positive like its `int`. -/
structure HashtabKeyParams (κ : Type) where
  hash : κ → U32
  cmp : κ → κ → Int

/-- `struct hashtab`; its `size` is the number of slots. -/
structure Hashtab (κ δ : Type) where
  htable : List (List (κ × δ))
  nel : Nat
  deriving DecidableEq, Repr

/-- `HASHTAB_MAX_NODES`. -/
def hashtabMaxNodes : Nat := 0xffffffff

/-- The most slots whose array of pointers `is_order_out_of_range` lets through, for
4 KiB pages and a `MAX_ORDER` of 10. -/
def hashtabMaxSize : Nat := 524288

namespace Hashtab

def size (h : Hashtab κ δ) : Nat := h.htable.length

/-- The entries in the order `hashtab_map` visits them. -/
def entries (h : Hashtab κ δ) : List (κ × δ) := h.htable.flatten

end Hashtab

/-- `roundup_pow_of_two`. -/
def roundupPowOfTwo (n : Nat) : Nat := if n ≤ 1 then 1 else 2 ^ (Nat.log2 (n - 1) + 1)

/-- `hashtab_compute_size`, whose result is cut to 32 bits. -/
def hashtabComputeSize (nel : U32) : Nat :=
  if nel = 0 then 0 else roundupPowOfTwo nel.toNat % 2 ^ 32

/-- A table zeroed by its owner before `hashtab_init`. -/
def hashtabZero : Hashtab κ δ := { htable := [], nel := 0 }

/-- `hashtab_init`. -/
def hashtabInit (nelHint : U32) : Except Fault (Hashtab κ δ) :=
  let size := hashtabComputeSize nelHint
  if hashtabMaxSize < size then .error (.err .ENOMEM)
  else .ok { htable := List.replicate size [], nel := 0 }

/-- The slot of a key. -/
def hashtabSlot (params : HashtabKeyParams κ) (h : Hashtab κ δ) (key : κ) : Nat :=
  (params.hash key &&& BitVec.ofNat 32 (h.size - 1)).toNat

/-- The chain walk of `hashtab_insert` and the link in `__hashtab_insert`. -/
def hashtabChainInsert (cmp : κ → κ → Int) (key : κ) (datum : δ) :
    List (κ × δ) → Except Fault (List (κ × δ))
  | [] => .ok [(key, datum)]
  | cur :: next =>
    if cmp key cur.1 = 0 then .error (.err .EEXIST)
    else if cmp key cur.1 < 0 then .ok ((key, datum) :: cur :: next)
    else
      match hashtabChainInsert cmp key datum next with
      | .error e => .error e
      | .ok next => .ok (cur :: next)

/-- `hashtab_insert`. -/
def hashtabInsert (params : HashtabKeyParams κ) (h : Hashtab κ δ) (key : κ) (datum : δ) :
    Except Fault (Hashtab κ δ) :=
  if h.size = 0 ∨ h.nel = hashtabMaxNodes then .error einval
  else
    match hashtabChainInsert params.cmp key datum (h.htable.getD (hashtabSlot params h key) []) with
    | .error e => .error e
    | .ok chain =>
      .ok { htable := h.htable.set (hashtabSlot params h key) chain, nel := h.nel + 1 }

/-- The chain walk of `hashtab_search`. -/
def hashtabChainSearch (cmp : κ → κ → Int) (key : κ) : List (κ × δ) → Option δ
  | [] => none
  | cur :: next =>
    if cmp key cur.1 = 0 then some cur.2
    else if cmp key cur.1 < 0 then none
    else hashtabChainSearch cmp key next

/-- `hashtab_search`. -/
def hashtabSearch (params : HashtabKeyParams κ) (h : Hashtab κ δ) (key : κ) : Option δ :=
  if h.size = 0 then none
  else hashtabChainSearch params.cmp key (h.htable.getD (hashtabSlot params h key) [])

/-- `hashtab_map`, with the state that `apply` changes. -/
def hashtabMap {σ : Type} (apply : κ → δ → σ → Except Fault σ) :
    List (κ × δ) → σ → Except Fault σ
  | [], s => .ok s
  | cur :: next, s =>
    match apply cur.1 cur.2 s with
    | .error e => .error e
    | .ok s => hashtabMap apply next s

/-- `symhash`; the kernel is built with unsigned characters. -/
def symhash (key : Name) : U32 :=
  key.foldl (fun val p => (val <<< 4 ||| val >>> 28) ^^^ p.zeroExtend 32) 0

/-- `symtab_key_params`. -/
def symtabKeyParams : HashtabKeyParams Name := { hash := symhash, cmp := strcmp }

/-- `struct symtab`. -/
structure Symtab (δ : Type) where
  table : Hashtab Name δ
  nprim : U32
  deriving DecidableEq, Repr

/-- `symtab_init`. -/
def symtabInit (size : U32) : Except Fault (Symtab δ) :=
  match hashtabInit size with
  | .error e => .error e
  | .ok table => .ok { table, nprim := 0 }

/-- A symbol table of a zeroed policy database. -/
def symtabZero : Symtab δ := { table := hashtabZero, nprim := 0 }

/-- `symtab_insert`. -/
def symtabInsert (s : Symtab δ) (name : Name) (datum : δ) : Except Fault (Symtab δ) :=
  match hashtabInsert symtabKeyParams s.table name datum with
  | .error e => .error e
  | .ok table => .ok { s with table }

/-- `symtab_search`. -/
def symtabSearch (s : Symtab δ) (name : Name) : Option δ :=
  hashtabSearch symtabKeyParams s.table name

end Ksrc.Source

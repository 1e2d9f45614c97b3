import Ksrc.Source.Avtab

/-!
# Filling an access vector table

Source: `security/selinux/ss/avtab.c` (`avtab_insert`, `avtab_insert_nonunique`,
`avtab_insert_node`). The calls with their allocations: a node, and for an extended rule
its permissions, are allocated once the walk has found the place, and a failure links
nothing.
-/
namespace Ksrc.Source

/-- `avtab_insert`; `allocated` tells whether `avtab_insert_node` got its memory. -/
def avtabInsertCall (h : Avtab) (key : AvtabKey) (datum : AvtabDatum) (allocated : Bool) :
    Except Fault Unit × Avtab :=
  match avtabInsert h key datum with
  | .error e => (.error e, h)
  | .ok h' => if allocated then (.ok (), h') else (.error (.err .ENOMEM), h)

/-- `avtab_insert_nonunique`; the address of the node, `none` for `NULL`. -/
def avtabInsertNonuniqueCall (h : Avtab) (key : AvtabKey) (datum : AvtabDatum)
    (allocated : Bool) : Option Nat × Avtab :=
  match avtabInsertNonunique h key datum with
  | none => (none, h)
  | some (h', addr) => if allocated then (some addr, h') else (none, h)

inductive AvtabCall where
  | insert (key : AvtabKey) (datum : AvtabDatum) (allocated : Bool)
  | insertNonunique (key : AvtabKey) (datum : AvtabDatum) (allocated : Bool)

def avtabCall (h : Avtab) : AvtabCall → Avtab
  | .insert key datum allocated => (avtabInsertCall h key datum allocated).2
  | .insertNonunique key datum allocated => (avtabInsertNonuniqueCall h key datum allocated).2

/-- The table that a sequence of calls fills. -/
def avtabFill (h : Avtab) (calls : List AvtabCall) : Avtab := calls.foldl avtabCall h

end Ksrc.Source

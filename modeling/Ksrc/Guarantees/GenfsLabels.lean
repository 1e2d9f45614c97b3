import Ksrc.Guarantees.SidtabReloads
import Ksrc.Guarantees.StringOrder
import Ksrc.Source.GenfsSid

/-!
# The longest prefix labels a path

Source: `security/selinux/ss/policydb.c` (`genfs_read`), `security/selinux/ss/services.c`
(`__security_genfs_sid`).

The filesystem types are in the order of their names, and the entries of each have descending lengths,
whatever the order in which they were read. The first entry that fits is the longest.
-/
namespace Ksrc.Guarantees.GenfsLabels

open Library Source StringOrder

variable {p : Policydb} {bytes rest : List U8}

section Entries

variable {head head' : List Ocontext} {c c' newc : Ocontext} {path : Name} {sclass : U16}

/-- Two entries of one name that some class would have both of. -/
def Clash (c c' : Ocontext) : Prop :=
  c.uName = c'.uName ∧ (c.v = 0 ∨ c'.v = 0 ∨ c.v = c'.v)

theorem Clash.symm (clash : Clash c c') : Clash c' c := by
  obtain ⟨name, classes⟩ := clash
  refine ⟨name.symm, ?_⟩
  rcases classes with zero | zero | same
  · exact .inr (.inl zero)
  · exact .inl zero
  · exact .inr (.inr same.symm)

/-- The entries of a filesystem type: from the longest name to the shortest, no two of which clash. -/
structure EntriesOk (head : List Ocontext) : Prop where
  longer : head.Pairwise fun c c' => c'.uName.length ≤ c.uName.length
  apart : head.Pairwise fun c c' => ¬ Clash c c'

theorem genfsInsertEntry_perm (inserted : genfsInsertEntry newc head = .ok head') :
    head'.Perm (newc :: head) := by
  induction head generalizing head' with
  | nil =>
    cases inserted
    exact List.Perm.refl _
  | cons c next ih =>
    unfold genfsInsertEntry at inserted
    split at inserted
    · cases inserted
    split at inserted
    · cases inserted
      exact List.Perm.refl _
    · split at inserted
      · cases inserted
      · rename_i linked
        cases inserted
        calc
          List.Perm (c :: _) (c :: newc :: next) := (ih linked).cons c
          List.Perm _ (newc :: c :: next) := List.Perm.swap newc c next

/-- An entry that is let in clashes with none, since one of the same name is not behind a shorter one. -/
theorem genfsInsertEntry_apart (ok : EntriesOk head)
    (inserted : genfsInsertEntry newc head = .ok head') : ∀ c ∈ head, ¬ Clash newc c := by
  induction head generalizing head' with
  | nil =>
    intro c member
    cases member
  | cons c next ih =>
    obtain ⟨longer, longers⟩ := List.pairwise_cons.mp ok.longer
    obtain ⟨-, aparts⟩ := List.pairwise_cons.mp ok.apart
    unfold genfsInsertEntry at inserted
    split at inserted
    · cases inserted
    rename_i different
    have first : ¬ Clash newc c := by
      rintro ⟨name, classes⟩
      refine different ⟨name, ?_⟩
      rcases classes with zero | zero | same
      · exact .inr (.inl zero)
      · exact .inl zero
      · exact .inr (.inr same)
    split at inserted
    · rename_i short
      intro other member
      rcases List.mem_cons.mp member with rfl | later
      · exact first
      · rintro ⟨name, -⟩
        have le := longer other later
        rw [← name] at le
        omega
    · split at inserted
      · cases inserted
      · rename_i linked
        exact List.forall_mem_cons.mpr ⟨first, ih ⟨longers, aparts⟩ linked⟩

theorem genfsInsertEntry_longer (longer : head.Pairwise fun c c' => c'.uName.length ≤ c.uName.length)
    (inserted : genfsInsertEntry newc head = .ok head') :
    head'.Pairwise fun c c' => c'.uName.length ≤ c.uName.length := by
  induction head generalizing head' with
  | nil =>
    cases inserted
    exact List.pairwise_singleton _ _
  | cons c next ih =>
    obtain ⟨first, later⟩ := List.pairwise_cons.mp longer
    unfold genfsInsertEntry at inserted
    split at inserted
    · cases inserted
    split at inserted
    · rename_i short
      cases inserted
      refine List.pairwise_cons.mpr ⟨?_, longer⟩
      intro other member
      rcases List.mem_cons.mp member with rfl | member
      · omega
      · exact (first other member).trans (by omega)
    · rename_i notShort
      split at inserted
      · cases inserted
      · rename_i linked
        cases inserted
        refine List.pairwise_cons.mpr ⟨?_, ih later linked⟩
        intro other member
        rcases List.mem_cons.mp ((genfsInsertEntry_perm linked).mem_iff.mp member) with rfl | old
        · omega
        · exact first other old

theorem genfsInsertEntry_ok (ok : EntriesOk head)
    (inserted : genfsInsertEntry newc head = .ok head') : EntriesOk head' := by
  refine ⟨genfsInsertEntry_longer ok.longer inserted, ?_⟩
  have all : (newc :: head).Pairwise fun c c' => ¬ Clash c c' :=
    List.pairwise_cons.mpr ⟨genfsInsertEntry_apart ok inserted, ok.apart⟩
  exact (genfsInsertEntry_perm inserted).symm.pairwise all fun apart clash => apart clash.symm

/-- `strncmp` of a whole string is a test for a beginning. -/
theorem strncmp_zero (a b : Name) : strncmp a.length a b = 0 ↔ a <+: b := by
  induction a generalizing b with
  | nil => simp [strncmp]
  | cons x a ih =>
    cases b with
    | nil => simp [strncmp]
    | cons y b =>
      simp only [List.length_cons, strncmp, List.cons_prefix_cons]
      split
      · rename_i same
        simp [same, ih]
      · rename_i differs
        split
        · simp [differs]
        · simp [differs]

/-- An entry fits a path and a class. -/
def Fits (path : Name) (sclass : U16) (c : Ocontext) : Prop :=
  c.uName <+: path ∧ (c.v = 0 ∨ c.v = sclass.zeroExtend 32)

/-- The first entry that fits. -/
theorem genfsFindEntry_eq (path : Name) (sclass : U16) (head : List Ocontext) :
    (genfsFindEntry path sclass head = none ∧ ∀ c ∈ head, ¬ Fits path sclass c) ∨
      ∃ before c after, genfsFindEntry path sclass head = some c ∧ head = before ++ c :: after ∧
        Fits path sclass c ∧ ∀ other ∈ before, ¬ Fits path sclass other := by
  induction head with
  | nil => exact .inl ⟨rfl, by simp⟩
  | cons c next ih =>
    have test : (c.v = 0 ∨ sclass.zeroExtend 32 = c.v) ∧ strncmp c.uName.length c.uName path = 0 ↔
        Fits path sclass c := by
      unfold Fits
      rw [strncmp_zero, and_comm, @eq_comm _ (sclass.zeroExtend 32)]
    unfold genfsFindEntry
    by_cases fits : Fits path sclass c
    · rw [if_pos (test.mpr fits)]
      exact .inr ⟨[], c, next, rfl, rfl, fits, by simp⟩
    · rw [if_neg fun passes => fits (test.mp passes)]
      rcases ih with ⟨none, all⟩ | ⟨before, found, after, some, split, holds, all⟩
      · exact .inl ⟨none, List.forall_mem_cons.mpr ⟨fits, all⟩⟩
      · refine .inr ⟨c :: before, found, after, some, ?_, holds, List.forall_mem_cons.mpr ⟨fits, all⟩⟩
        rw [split]
        rfl

/-- Two entries that fit one path and class are the same or of different lengths. -/
theorem fits_apart (one : Fits path sclass c) (other : Fits path sclass c') (apart : ¬ Clash c c') :
    c.uName.length ≠ c'.uName.length := by
  intro length
  have name : c.uName = c'.uName :=
    (List.prefix_of_prefix_length_le one.1 other.1 length.le).eq_of_length length
  refine apart ⟨name, ?_⟩
  rcases one.2 with zero | here
  · exact .inl zero
  · rcases other.2 with zero | there
    · exact .inr (.inl zero)
    · exact .inr (.inr (here.trans there.symm))

end Entries

section Types

variable {genfs genfs' before behind : List Genfs} {g : Genfs} {fstype : Name}

/-- The filesystem types: ascending names, each with its entries in order. -/
structure TypesOk (genfs : List Genfs) : Prop where
  ascending : genfs.Pairwise fun g g' => g.fstype.map BitVec.toNat < g'.fstype.map BitVec.toNat
  entries : ∀ g ∈ genfs, EntriesOk g.head

theorem genfsPlace_split (placed : genfsPlace fstype genfs = .ok (before, behind))
    (ascending : genfs.Pairwise fun g g' => g.fstype.map BitVec.toNat < g'.fstype.map BitVec.toNat) :
    genfs = before ++ behind ∧
      (∀ g ∈ before, g.fstype.map BitVec.toNat < fstype.map BitVec.toNat) ∧
        ∀ g ∈ behind, fstype.map BitVec.toNat < g.fstype.map BitVec.toNat := by
  induction genfs generalizing before with
  | nil =>
    cases placed
    exact ⟨rfl, by simp, by simp⟩
  | cons g next ih =>
    obtain ⟨first, later⟩ := List.pairwise_cons.mp ascending
    unfold genfsPlace at placed
    split at placed
    · cases placed
    rename_i differs
    split at placed
    · rename_i less
      cases placed
      have ahead := strcmp_neg.mp less
      refine ⟨rfl, by simp, List.forall_mem_cons.mpr ⟨ahead, fun other member => ?_⟩⟩
      exact ahead.trans (first other member)
    · rename_i notLess
      split at placed
      · cases placed
      · rename_i rest
        cases placed
        obtain ⟨split, below, above⟩ := ih rest later
        refine ⟨by rw [split]; rfl, List.forall_mem_cons.mpr ⟨?_, below⟩, above⟩
        apply strcmp_pos.mp
        omega

/-- A filesystem type between those before its place and those behind it. -/
theorem typesOk_placed (ok : TypesOk genfs) (placed : genfsPlace fstype genfs = .ok (before, behind))
    {head : List Ocontext} (entries : EntriesOk head) :
    TypesOk (before ++ { fstype, head } :: behind) := by
  obtain ⟨split, below, above⟩ := genfsPlace_split placed ok.ascending
  have parts := ok.ascending
  rw [split] at parts
  obtain ⟨first, second, -⟩ := List.pairwise_append.mp parts
  constructor
  · refine List.pairwise_append.mpr ⟨first, List.pairwise_cons.mpr ⟨above, second⟩, ?_⟩
    intro g here g' there
    rcases List.mem_cons.mp there with rfl | later
    · exact below g here
    · exact (below g here).trans (above g' later)
  · intro g member
    have old : ∀ g, g ∈ before ∨ g ∈ behind → EntriesOk g.head := by
      intro g member
      apply ok.entries
      rw [split]
      exact List.mem_append.mpr member
    rcases List.mem_append.mp member with here | there
    · exact old g (.inl here)
    · rcases List.mem_cons.mp there with rfl | later
      · exact entries
      · exact old g (.inr later)

theorem genfsReadOne_ok (ok : TypesOk genfs)
    (read : genfsReadOne p genfs bytes = .ok (genfs', rest)) : TypesOk genfs' := by
  simp only [genfsReadOne, ByteReader.bind_ok, ByteReader.pure_ok, ByteReader.lift_ok] at read
  obtain ⟨len, _, -, fstype, _, -, ⟨before, behind⟩, _, ⟨placed, rfl⟩, nel2, _, -, head, _, loop, rfl,
    rfl⟩ := read
  refine typesOk_placed ok placed ?_
  have empty : EntriesOk [] := ⟨List.Pairwise.nil, List.Pairwise.nil⟩
  refine ByteReader.times_preserves EntriesOk (fun head bytes head' rest before once => ?_) empty loop
  simp only [genfsReadEntry, ByteReader.bind_ok, ByteReader.lift_ok] at once
  obtain ⟨_, _, -, _, _, -, _, _, -, _, _, -, inserted, -⟩ := once
  exact genfsInsertEntry_ok before inserted

/-- What `genfs_read` builds, in whatever order the entries come. -/
theorem genfsRead_ok (read : genfsRead p bytes = .ok (genfs, rest)) : TypesOk genfs := by
  simp only [genfsRead, ByteReader.bind_ok] at read
  obtain ⟨nel, _, -, loop⟩ := read
  have empty : TypesOk [] := ⟨List.Pairwise.nil, by simp⟩
  exact ByteReader.times_preserves TypesOk (fun _ _ _ _ ok once => genfsReadOne_ok ok once) empty loop

/-- A filesystem type without the SIDs that lookups left in its entries. -/
def withoutSids (g : Genfs) : Genfs := { g with head := g.head.map fun c => { c with sid0 := 0 } }

theorem entriesOk_withoutSids {head : List Ocontext} :
    EntriesOk (head.map fun c => { c with sid0 := 0 }) ↔ EntriesOk head := by
  constructor
  · rintro ⟨longer, apart⟩
    rw [List.pairwise_map] at longer apart
    exact ⟨longer, apart⟩
  · rintro ⟨longer, apart⟩
    exact ⟨List.pairwise_map.mpr longer, List.pairwise_map.mpr apart⟩

theorem typesOk_withoutSids : TypesOk (genfs.map withoutSids) ↔ TypesOk genfs := by
  constructor
  · rintro ⟨ascending, entries⟩
    rw [List.pairwise_map] at ascending
    refine ⟨ascending, fun g member => entriesOk_withoutSids.mp ?_⟩
    exact entries (withoutSids g) (List.mem_map_of_mem member)
  · rintro ⟨ascending, entries⟩
    refine ⟨List.pairwise_map.mpr ascending, fun g member => ?_⟩
    obtain ⟨g', before, rfl⟩ := List.mem_map.mp member
    exact entriesOk_withoutSids.mpr (entries g' before)

/-- The walk over the filesystem types finds the one of the name. -/
theorem genfsFindType_iff (ok : TypesOk genfs) :
    genfsFindType fstype genfs = some g ↔ g ∈ genfs ∧ g.fstype = fstype := by
  obtain ⟨ascending, -⟩ := ok
  induction genfs with
  | nil => simp [genfsFindType]
  | cons first next ih =>
    obtain ⟨ahead, later⟩ := List.pairwise_cons.mp ascending
    unfold genfsFindType
    split
    · rename_i le
      have notLater : ∀ other ∈ next, other.fstype ≠ fstype := by
        rintro other member rfl
        have greater := strcmp_pos.mpr (ahead other member)
        omega
      split
      · rename_i same
        have name := strcmp_zero.mp same
        constructor
        · intro found
          cases found
          exact ⟨List.mem_cons_self, name.symm⟩
        · rintro ⟨member, named⟩
          rcases List.mem_cons.mp member with rfl | member
          · rfl
          · exact absurd named (notLater g member)
      · rename_i differs
        constructor
        · intro found
          cases found
        rintro ⟨member, named⟩
        rcases List.mem_cons.mp member with rfl | member
        · exact absurd (strcmp_zero.mpr named.symm) differs
        · exact absurd named (notLater g member)
    · rename_i notLe
      rw [ih later]
      constructor
      · rintro ⟨member, named⟩
        exact ⟨List.mem_cons_of_mem _ member, named⟩
      · rintro ⟨member, named⟩
        rcases List.mem_cons.mp member with rfl | member
        · exact absurd (strcmp_zero.mpr named.symm).le notLe
        · exact ⟨member, named⟩

end Types

section Labels

variable {genfs : List Genfs} {fstype path : Name} {sclass : U16} {c : Ocontext}

/-- A path without all but one of the slashes that it begins with. -/
def collapsed : Name → Name
  | [] => []
  | a :: path => if a = slash then slash :: path.dropWhile (· = slash) else a :: path

theorem skipSlashes_eq (path : Name) : skipSlashes path = collapsed path := by
  induction path using skipSlashes.induct with
  | case1 a b path slashes ih =>
    obtain ⟨rfl, rfl⟩ := slashes
    rw [skipSlashes, if_pos ⟨rfl, rfl⟩, ih]
    simp [collapsed]
  | case2 a b path notBoth =>
    rw [skipSlashes, if_neg notBoth, collapsed]
    split
    · rename_i one
      have other : ¬ b = slash := fun two => notBoth ⟨one, two⟩
      simp [one, other]
    · rfl
  | case3 path short =>
    match path with
    | [] => rfl
    | [a] =>
      by_cases one : a = slash
      · simp [skipSlashes, collapsed, one]
      · simp [skipSlashes, collapsed, one]
    | a :: b :: path => exact absurd rfl (short a b path)

/-- The entries of a filesystem type that fit a path and a class. -/
def Labels (genfs : List Genfs) (fstype path : Name) (sclass : U16) (c : Ocontext) : Prop :=
  ∃ g ∈ genfs, g.fstype = fstype ∧ c ∈ g.head ∧ Fits path sclass c

/-- One that fits, and that every other one is shorter than. -/
def Longest (fits : Ocontext → Prop) (c : Ocontext) : Prop :=
  fits c ∧ ∀ other, fits other → other = c ∨ other.uName.length < c.uName.length

theorem Longest.unique {fits : Ocontext → Prop} {c' : Ocontext} (one : Longest fits c)
    (other : Longest fits c') : c = c' := by
  rcases other.2 c one.1 with same | shorter
  · exact same
  · rcases one.2 c' other.1 with same | longer
    · exact same.symm
    · omega

/-- The entry that is taken fits and is the longest, and none is taken when none fits. -/
theorem genfsFind_eq (ok : TypesOk genfs) (map : SelinuxMap) (fstype path : Name) (origSclass : U16) :
    (genfsFind genfs map fstype path origSclass = none ∧
        ∀ c, ¬ Labels genfs fstype (collapsed path) (unmapClass map origSclass) c) ∨
      ∃ c, genfsFind genfs map fstype path origSclass = some c ∧
        Longest (Labels genfs fstype (collapsed path) (unmapClass map origSclass)) c := by
  unfold genfsFind
  cases found : genfsFindType fstype genfs with
  | none =>
    refine .inl ⟨rfl, ?_⟩
    rintro c ⟨g, member, named, -⟩
    rw [(genfsFindType_iff ok).mpr ⟨member, named⟩] at found
    cases found
  | some g =>
    obtain ⟨member, named⟩ := (genfsFindType_iff ok).mp found
    have only : ∀ g', g' ∈ genfs → g'.fstype = fstype → g' = g := by
      intro g' member' named'
      have same := (genfsFindType_iff ok).mpr ⟨member', named'⟩
      rw [found] at same
      cases same
      rfl
    dsimp only
    rw [skipSlashes_eq]
    rcases genfsFindEntry_eq (collapsed path) (unmapClass map origSclass) g.head with
      ⟨none, all⟩ | ⟨before, c, after, some, split, fits, earlier⟩
    · refine .inl ⟨none, ?_⟩
      rintro c ⟨g', member', named', inside, fits⟩
      rw [only g' member' named'] at inside
      exact all c inside fits
    · refine .inr ⟨c, some, ⟨g, member, named, by simp [split], fits⟩, ?_⟩
      rintro other ⟨g', member', named', inside, fits'⟩
      rw [only g' member' named', split] at inside
      obtain ⟨longer, apart⟩ := ok.entries g member
      rw [split] at longer apart
      obtain ⟨-, longer, -⟩ := List.pairwise_append.mp longer
      obtain ⟨-, apart, -⟩ := List.pairwise_append.mp apart
      rcases List.mem_append.mp inside with front | back
      · exact absurd fits' (earlier other front)
      · rcases List.mem_cons.mp back with rfl | back
        · exact .inl rfl
        · have le := (List.pairwise_cons.mp longer).1 other back
          have ne := fits_apart fits fits' ((List.pairwise_cons.mp apart).1 other back)
          exact .inr (by omega)

/-- What `ocontext_to_sid` fails with. -/
theorem ocontextToSid_errors {j : Jhash} {s s' target target' : Sidtab} {c' : Ocontext}
    {allocs targetAllocs : List Bool} {fault : Option Context} {converted : ConvertOutcome} {e : Errno}
    (memory : ∀ failure, converted = .error failure → failure.1 = .ENOMEM)
    (done : ocontextToSid j s target c allocs targetAllocs fault converted =
      some (.error e, s', target', c')) : e = .ESTALE ∨ e = .EOVERFLOW ∨ e = .ENOMEM := by
  unfold ocontextToSid at done
  split at done
  · cases done
  · obtain ⟨⟨answer, t, t'⟩, called, same⟩ := Option.map_eq_some_iff.mp done
    cases answer with
    | error e' =>
      cases same
      exact SidtabReloads.sidtabContextToSid_errors memory called
    | ok sid => cases same

/-- The entry that a path gets is the only one of the longest that fit, and `-ENOENT` is for the paths
that none fits, whatever SIDs earlier lookups left in the entries. -/
theorem takes_longest {j : Jhash} {s target : Sidtab} {allocs targetAllocs : List Bool}
    {fault : Option Context} {converted : ConvertOutcome} {loaded : List Genfs}
    (read : genfsRead p bytes = .ok (loaded, rest))
    (same : genfs.map withoutSids = loaded.map withoutSids)
    (memory : ∀ failure, converted = .error failure → failure.1 = .ENOMEM)
    (map : SelinuxMap) (fstype path : Name) (origSclass : U16) :
    (∀ c, genfsFind genfs map fstype path origSclass = some c ↔
      Longest (Labels genfs fstype (collapsed path) (unmapClass map origSclass)) c) ∧
    ((∃ c, Labels genfs fstype (collapsed path) (unmapClass map origSclass) c) →
      ∃! c, Longest (Labels genfs fstype (collapsed path) (unmapClass map origSclass)) c) ∧
    ((∃ sid s' target' entry, securityGenfsSid j genfs map s target fstype path origSclass allocs
        targetAllocs fault converted = some ((some .ENOENT, sid), s', target', entry)) ↔
      ∀ c, ¬ Labels genfs fstype (collapsed path) (unmapClass map origSclass) c) := by
  have ok : TypesOk genfs := by
    rw [← typesOk_withoutSids, same, typesOk_withoutSids]
    exact genfsRead_ok read
  unfold securityGenfsSid
  rcases genfsFind_eq ok map fstype path origSclass with
    ⟨none, all⟩ | ⟨c, some, longest⟩
  · refine ⟨fun c => ?_, fun ⟨c, labels⟩ => absurd labels (all c), ?_⟩
    · rw [none]
      refine iff_of_false (fun found => by cases found) fun longest => all c longest.1
    · rw [none]
      exact iff_of_true ⟨_, _, _, _, rfl⟩ all
  · refine ⟨fun c' => ?_, fun _ => ⟨c, longest, fun c' other => other.unique longest⟩, ?_⟩
    · rw [some]
      constructor
      · intro same
        cases same
        exact longest
      · intro other
        rw [longest.unique other]
    · rw [some]
      refine iff_of_false ?_ fun all => all c longest.1
      rintro ⟨sid, s', target', entry, done⟩
      obtain ⟨⟨answer, t, t', c'⟩, called, same⟩ := Option.map_eq_some_iff.mp done
      cases answer with
      | ok sid => cases same
      | error e =>
        cases same
        rcases ocontextToSid_errors memory called with stale | large | full
        · cases stale
        · cases large
        · cases full

/-- A policy with one user, one role and one type. -/
def labelPolicy : Policydb :=
  { policydbInit with
    pRoles := { symtabZero with nprim := 1 }
    pTypes := { symtabZero with nprim := 1 }
    pUsers := { symtabZero with nprim := 1 } }

/-- An entry for all classes, as it is in a file. -/
def labelBytes (name : Name) : List U8 :=
  cpuToLe32 (BitVec.ofNat 32 name.length) ++ name ++ cpuToLe32 0 ++ cpuToLe32 1 ++ cpuToLe32 1 ++
    cpuToLe32 1

def label (name : Name) : Ocontext :=
  ocontextOf (.name name) 0 { contextInit with user := 1, role := 1, type := 1 }

/-- The shorter entry comes first in the file. -/
theorem takes_longest_net : ∃ loaded,
    genfsRead labelPolicy (cpuToLe32 1 ++ cpuToLe32 4 ++ cstr ['p', 'r', 'o', 'c'] ++ cpuToLe32 2 ++
      labelBytes (cstr ['/']) ++ labelBytes (cstr ['/', 'n', 'e', 't'])) = .ok (loaded, []) ∧
      genfsFind loaded { mapping := [] } (cstr ['p', 'r', 'o', 'c']) (cstr ['/', '/', 'n', 'e', 't', '/']) 7 =
        some (label (cstr ['/', 'n', 'e', 't'])) := by
  have read : genfsRead labelPolicy (cpuToLe32 1 ++ cpuToLe32 4 ++ cstr ['p', 'r', 'o', 'c'] ++
      cpuToLe32 2 ++ labelBytes (cstr ['/']) ++ labelBytes (cstr ['/', 'n', 'e', 't'])) =
        .ok ([{ fstype := cstr ['p', 'r', 'o', 'c']
                head := [label (cstr ['/', 'n', 'e', 't']), label (cstr ['/'])] }], []) := by
    decide
  have memory : ∀ failure, (.ok contextInit : ConvertOutcome) = .error failure →
      failure.1 = .ENOMEM := by
    intro failure same
    cases same
  have taken := @takes_longest _ _ _ _ SidtabBijection.xorJhash sidtabInit sidtabInit [] [] none _ _ read
    rfl memory { mapping := [] } (cstr ['p', 'r', 'o', 'c']) (cstr ['/', '/', 'n', 'e', 't', '/']) 7
  refine ⟨_, read, (taken.1 _).mpr ⟨⟨_, List.mem_singleton_self _, rfl, List.mem_cons_self, ?_⟩, ?_⟩⟩
  · exact ⟨by decide, .inl rfl⟩
  · rintro other ⟨g, member, -, inside, -⟩
    rw [List.mem_singleton.mp member] at inside
    rcases List.mem_cons.mp inside with same | shorter
    · exact .inl same
    · rw [List.mem_singleton.mp shorter]
      exact .inr (by decide)

end Labels

end Ksrc.Guarantees.GenfsLabels

import Ksrc.Library.Rounds
import Ksrc.Source.LuaModules

/-!
# Registrations that do all or nothing

The loop over a module's table goes on from the key that is on the stack, and `lua_tostring` has put a
string there for a number: `lua_next` raises an error, or goes on somewhere else. The chunk is then
allocated with the `err` of the call before. A registration that meets neither, and no error of the
Lua library outside a protected call, links one module or nothing.
-/
namespace Ksrc.Guarantees.LuaRegistration
open Source Library

variable {hooks : LuaHooks} {env : RegisterEnv} {r r' : LuaRegistry} {table : LuaTable}
  {entry : LuaKey × LuaField} {fields after : ModuleFields} {place rounds : Nat} {name : Option Name}

section Conditions

/-- The string of a key that the loop compares, if it gets to compare one. -/
def keyString : LuaKey → Option Name
  | .string key => some (cString key)
  | .number text tostring => if tostring then some (cString text) else none
  | .other => none

def isNumber : LuaKey → Bool
  | .number .. => true
  | _ => false

/-- The fields of a module that the table gives. -/
def fieldNames : List Name :=
  [cstr "name".toList, cstr "author".toList, cstr "description".toList, cstr "license".toList,
    cstr "version".toList]

/-- The name of a hook that is not supported. -/
def refused (hooks : LuaHooks) (key : Name) : Bool :=
  !fieldNames.contains key &&
    ((hooks.names.findIdx? (· = key)).any fun i => !hooks.supported i)

/-- The entries at which the loop is left. -/
def leaves (hooks : LuaHooks) (entry : LuaKey × LuaField) : Bool :=
  (keyString entry.1).any (refused hooks)

/-- The name after an entry. -/
def nameAfter (old : Option Name) (entry : LuaKey × LuaField) : Option Name :=
  if keyString entry.1 = some (cstr "name".toList) then stringField old entry.2 else old

/-- The name that a table gives. -/
def givenName (table : LuaTable) : Option Name := table.foldl nameAfter none

/-- No key is a number up to where the loop is left. -/
def NoNumberKey (hooks : LuaHooks) (table : LuaTable) : Prop :=
  ∀ entry ∈ table.takeWhile (fun entry => !leaves hooks entry), isNumber entry.1 = false

/-- The call of the chunk ends, and so does the print of its error. -/
def CallReturns : LuaCall → Prop
  | .done => True
  | .failed _ message => message = true
  | .endless => False

/-- The chunk is dumped without an error that is raised, and there is room for it. -/
def ChunkKept (env : RegisterEnv) : Prop :=
  env.recompile = none →
    env.dump ≠ .raised ∧ (env.dump = .done → env.pushresult = true ∧ env.kmalloc = true)

/-- The table that is walked. -/
def walked (env : RegisterEnv) : Option LuaTable :=
  if env.vm ∧ env.push ∧ env.load = none ∧ env.call = .done ∧ env.kzalloc then env.result else none

/-- What a registration needs to do all or nothing. -/
structure RegistersSafely (hooks : LuaHooks) (env : RegisterEnv) : Prop where
  push : env.vm = true → env.push = true
  call : env.vm = true → env.load = none → CallReturns env.call
  keys : ∀ table, walked env = some table → NoNumberKey hooks table
  chunk : ∀ table, walked env = some table → table.any (leaves hooks) = false →
    (givenName table).isSome = true → ChunkKept env

end Conditions

section Outcomes

/-- One new live module of the name is linked, and counted. -/
def Linked (name : Option Name) (r r' : LuaRegistry) : Prop :=
  ∃ module : LuaLsmModule, name = some module.name ∧ module.state = .live ∧
    (∀ m ∈ r.modules, m.name ≠ module.name) ∧ r'.modules = r.modules ++ [module] ∧
    (∀ i, r'.nhooks i = r.nhooks i + if i ∈ module.hookfuncs then 1 else 0) ∧
    r'.active = r.active + 1

/-- A result of 0 where and only where a module was linked, and otherwise an error and nothing done. -/
def Settled (name : Option Name) (r : LuaRegistry) (done : RegisterResult × LuaRegistry) : Prop :=
  (done.1 = .ok ↔ Linked name r done.2) ∧
    (done.1 ≠ .ok → (∃ e, done.1 = .error e) ∧ done.2 = r)

/-- Every entry is visited once, in the order of the table, up to where the loop is left. -/
def VisitsOnce (table : LuaTable) (walk : FieldsRead × List Nat) : Prop :=
  walk.2 = List.range walk.2.length ∧ ∀ fields, walk.1 = .done fields → walk.2.length = table.length

/-- The registration does all or nothing. -/
def AllOrNothing (hooks : LuaHooks) (env : RegisterEnv) (r : LuaRegistry) : Prop :=
  Settled (env.result.bind givenName) r (luaLsmModuleRegister hooks env r) ∧
    ∀ table, walked env = some table → VisitsOnce table (readTable hooks table)

theorem not_linked_same : ¬ Linked name r r := by
  intro ⟨module, _, _, _, longer, _⟩
  have lengths := congrArg List.length longer
  simp at lengths

theorem settled_error (e : Errno) : Settled name r (.error e, r) :=
  ⟨iff_of_false RegisterResult.noConfusion not_linked_same, fun _ => ⟨⟨e, rfl⟩, rfl⟩⟩

theorem not_settled_ok : ¬ Settled name r (.ok, r) := fun settled =>
  not_linked_same (settled.1.mp rfl)

theorem not_settled_fault : ¬ Settled name r (.fault, r) := by
  intro settled
  obtain ⟨⟨e, returned⟩, -⟩ := settled.2 RegisterResult.noConfusion
  exact RegisterResult.noConfusion returned

theorem not_settled_endless : ¬ Settled name r (.endless, r) := by
  intro settled
  obtain ⟨⟨e, returned⟩, -⟩ := settled.2 RegisterResult.noConfusion
  exact RegisterResult.noConfusion returned

end Outcomes

section Entries

/-- A key that is compared: an unsupported hook is refused, and the name is taken. -/
theorem readField_outcome (hooks : LuaHooks) (fields : ModuleFields) (key : Name) (value : LuaField) :
    (refused hooks key = true ∧ readField hooks fields key value = .error .EOPNOTSUPP) ∨
      refused hooks key = false ∧ ∃ after, readField hooks fields key value = .ok after ∧
        after.name =
          if key = cstr "name".toList then stringField fields.name value else fields.name := by
  have known : fieldNames.contains key = true ↔ key = cstr "name".toList ∨
      key = cstr "author".toList ∨ key = cstr "description".toList ∨ key = cstr "license".toList ∨
      key = cstr "version".toList := by
    simp [fieldNames]
  unfold readField refused
  by_cases isName : key = cstr "name".toList
  · rw [if_pos isName, if_pos isName, known.mpr (Or.inl isName)]
    exact Or.inr ⟨rfl, _, rfl, rfl⟩
  rw [if_neg isName]
  by_cases isAuthor : key = cstr "author".toList
  · rw [if_pos isAuthor, known.mpr (Or.inr (Or.inl isAuthor))]
    exact Or.inr ⟨rfl, _, rfl, (if_neg isName).symm⟩
  rw [if_neg isAuthor]
  by_cases isDescription : key = cstr "description".toList
  · rw [if_pos isDescription, known.mpr (Or.inr (Or.inr (Or.inl isDescription)))]
    exact Or.inr ⟨rfl, _, rfl, (if_neg isName).symm⟩
  rw [if_neg isDescription]
  by_cases isLicense : key = cstr "license".toList
  · rw [if_pos isLicense, known.mpr (Or.inr (Or.inr (Or.inr (Or.inl isLicense))))]
    exact Or.inr ⟨rfl, _, rfl, (if_neg isName).symm⟩
  rw [if_neg isLicense]
  by_cases isVersion : key = cstr "version".toList
  · rw [if_pos isVersion, known.mpr (Or.inr (Or.inr (Or.inr (Or.inr isVersion)))), if_neg isName]
    refine Or.inr ⟨rfl, ?_⟩
    split
    · exact ⟨_, rfl, rfl⟩
    · exact ⟨_, rfl, rfl⟩
  rw [if_neg isVersion, if_neg isName]
  have unknown : fieldNames.contains key = false := by
    rw [Bool.eq_false_iff]
    intro inside
    rcases known.mp inside with same | same | same | same | same
    · exact isName same
    · exact isAuthor same
    · exact isDescription same
    · exact isLicense same
    · exact isVersion same
  rw [unknown]
  cases hook : hooks.names.findIdx? (· = key) with
  | none => exact Or.inr ⟨rfl, _, rfl, rfl⟩
  | some i =>
    cases supported : hooks.supported i with
    | false => exact Or.inl ⟨by simp [supported], by simp [supported]⟩
    | true =>
      refine Or.inr ⟨by simp [supported], ?_⟩
      simp only [supported, not_true_eq_false, if_false]
      split
      · exact ⟨_, rfl, rfl⟩
      · exact ⟨_, rfl, rfl⟩

/-- The body of the loop. -/
theorem readEntry_outcome (hooks : LuaHooks) (fields : ModuleFields) (entry : LuaKey × LuaField) :
    (leaves hooks entry = true ∧ readEntry hooks fields entry = .error .EOPNOTSUPP) ∨
      (leaves hooks entry = false ∧ isNumber entry.1 = true ∧ keyString entry.1 = none ∧
        readEntry hooks fields entry = .fault) ∨
      leaves hooks entry = false ∧ ∃ after, readEntry hooks fields entry = .done after ∧
        after.name = nameAfter fields.name entry := by
  obtain ⟨key, value⟩ := entry
  have compared : ∀ text, keyString key = some text →
      (∀ e, readField hooks fields text value = .error e →
        readEntry hooks fields (key, value) = .error e) →
      (∀ after, readField hooks fields text value = .ok after →
        readEntry hooks fields (key, value) = .done after) →
      (leaves hooks (key, value) = true ∧
        readEntry hooks fields (key, value) = .error .EOPNOTSUPP) ∨
      leaves hooks (key, value) = false ∧ ∃ after, readEntry hooks fields (key, value) = .done after ∧
        after.name = nameAfter fields.name (key, value) := by
    intro text string fails goes
    unfold leaves nameAfter
    rw [string]
    rcases readField_outcome hooks fields text value with
      ⟨isRefused, failed⟩ | ⟨kept, after, done, named⟩
    · exact Or.inl ⟨isRefused, fails _ failed⟩
    · refine Or.inr ⟨kept, after, goes after done, ?_⟩
      simp only [Option.some.injEq]
      exact named
  cases key with
  | other => exact Or.inr (Or.inr ⟨rfl, fields, rfl, rfl⟩)
  | string key =>
    refine (compared _ rfl (fun e failed => ?_) fun after done => ?_).imp_right Or.inr
    · simp only [readEntry, failed]
    · simp only [readEntry, done]
  | number text tostring =>
    cases tostring with
    | false => exact Or.inr (Or.inl ⟨rfl, rfl, rfl, rfl⟩)
    | true =>
      refine (compared _ rfl (fun e failed => ?_) fun after done => ?_).imp_right Or.inr
      · simp [readEntry, failed]
      · simp [readEntry, done]

end Entries

section Walks

/-- The entries after which the loop goes on, if `lua_next` finds its key. -/
def goesOn (hooks : LuaHooks) (entry : LuaKey × LuaField) : Bool :=
  !leaves hooks entry && (!isNumber entry.1 || (keyString entry.1).isSome)

/-- Where the loop goes on after a place; `none` where it is left. -/
def placeAfter (hooks : LuaHooks) (table : LuaTable) (place : Nat) : Option Nat :=
  match table[place]? with
  | none => none
  | some entry => if goesOn hooks entry then luaNext table place entry.1 else none

theorem readEntry_goesOn (fields : ModuleFields) (on : goesOn hooks entry = true) :
    ∃ after, readEntry hooks fields entry = .done after ∧ after.name = nameAfter fields.name entry := by
  unfold goesOn at on
  rcases readEntry_outcome hooks fields entry with
    ⟨left, _⟩ | ⟨_, number, string, _⟩ | ⟨_, done⟩
  · rw [left] at on
    cases on
  · simp [number, string] at on
  · exact done

theorem readEntry_stops (fields : ModuleFields) (off : goesOn hooks entry = false) :
    readEntry hooks fields entry = .error .EOPNOTSUPP ∨ readEntry hooks fields entry = .fault := by
  unfold goesOn at off
  rcases readEntry_outcome hooks fields entry with
    ⟨_, failed⟩ | ⟨_, _, _, faulted⟩ | ⟨stays, after, done, _⟩
  · exact Or.inl failed
  · exact Or.inr faulted
  -- an entry whose body comes to its end
  rw [stays] at off
  obtain ⟨key, value⟩ := entry
  cases key with
  | other => cases off
  | string key => cases off
  | number text tostring =>
    cases tostring with
    | true => cases off
    | false => cases done

theorem readFields_ends : (readFields hooks table rounds place fields).1 ≠ .endless ↔
    endsWithin (placeAfter hooks table) rounds place = true := by
  induction rounds generalizing place fields with
  | zero => simp [readFields, endsWithin]
  | succ rounds ih =>
    simp only [readFields, endsWithin]
    cases here : table[place]? with
    | none => simp [placeAfter, here]
    | some entry =>
      cases on : goesOn hooks entry with
      | false =>
        have stops : placeAfter hooks table place = none := by simp [placeAfter, here, on]
        rw [stops]
        rcases readEntry_stops fields on with failed | faulted
        · simp [failed]
        · simp [faulted]
      | true =>
        have next : placeAfter hooks table place = luaNext table place entry.1 := by
          simp [placeAfter, here, on]
        obtain ⟨after, done, _⟩ := readEntry_goesOn fields on
        rw [next]
        simp only [done]
        cases luaNext table place entry.1 with
        | none => simp
        | some there => exact ih

/-- `lua_next` does not leave the table. -/
theorem luaNext_le {key : LuaKey} {there : Nat} (inside : place < table.length)
    (next : luaNext table place key = some there) : there ≤ table.length := by
  unfold luaNext at next
  split at next
  · obtain ⟨found, at_, rfl⟩ := Option.map_eq_some_iff.mp next
    exact (List.findIdx?_eq_some_iff_getElem.mp at_).1
  · cases next
    exact inside

theorem walk_inside (le : place ≤ table.length) {there : Nat}
    (visited : there ∈ walk (placeAfter hooks table) rounds place) : there ≤ table.length := by
  induction rounds generalizing place with
  | zero => cases visited
  | succ rounds ih =>
    rcases List.mem_cons.mp (by simpa only [walk] using visited) with rfl | later
    · exact le
    · cases next : placeAfter hooks table place with
      | none => simp [next] at later
      | some after =>
        simp only [next] at later
        unfold placeAfter at next
        split at next
        · cases next
        · rename_i here
          split at next
          · exact ih (luaNext_le (List.getElem?_eq_some_iff.mp here).1 next) later
          · cases next

/-- A loop that does not end in a round for each entry never ends. -/
theorem readTable_endless (endless : (readTable hooks table).1 = .endless) :
    (readFields hooks table rounds 0 .zero).1 = .endless := by
  by_contra ends
  have soon : endsWithin (placeAfter hooks table) (List.range (table.length + 1)).length 0 = true := by
    refine endsWithin_places (readFields_ends.mp ends) fun there visited => ?_
    have inside := walk_inside (Nat.zero_le _) visited
    exact List.mem_range.mpr (by omega)
  rw [List.length_range] at soon
  exact readFields_ends.mpr soon endless

end Walks

section Visits

theorem luaNext_plain {key : LuaKey} (plain : isNumber key = false) :
    luaNext table place key = some (place + 1) := by
  cases key with
  | number => cases plain
  | string => rfl
  | other => rfl

theorem goesOn_plain (plain : isNumber entry.1 = false) :
    goesOn hooks entry = !leaves hooks entry := by
  unfold goesOn
  rw [plain]
  simp

/-- Without number keys the loop goes from entry to entry. -/
theorem readFields_plain (fields : ModuleFields) {rest : LuaTable} (here : table.drop place = rest)
    (le : place ≤ table.length) (plain : NoNumberKey hooks rest) (enough : rest.length < rounds) :
    ∃ result count,
      readFields hooks table rounds place fields = (result, List.range' place count) ∧
      ((rest.any (leaves hooks) = true ∧ ∃ e, result = .error e) ∨
        rest.any (leaves hooks) = false ∧ place + count = table.length ∧
          ∃ after, result = .done after ∧ after.name = rest.foldl nameAfter fields.name) := by
  induction rest generalizing place rounds fields with
  | nil =>
    obtain ⟨rounds, rfl⟩ : ∃ n, rounds = n + 1 := ⟨rounds - 1, by simp at enough; omega⟩
    have past : table.length ≤ place := List.drop_eq_nil_iff.mp here
    refine ⟨.done fields, 0, ?_, Or.inr ⟨rfl, by omega, fields, rfl, rfl⟩⟩
    unfold readFields
    rw [List.getElem?_eq_none past]
    rfl
  | cons entry rest ih =>
    obtain ⟨rounds, rfl⟩ : ∃ n, rounds = n + 1 := ⟨rounds - 1, by simp at enough; omega⟩
    have at_ : table[place]? = some entry := by
      rw [← List.head?_drop, here]
      rfl
    unfold readFields
    rw [at_]
    dsimp only
    cases left : leaves hooks entry with
    | true =>
      have failed : readEntry hooks fields entry = .error .EOPNOTSUPP := by
        rcases readEntry_outcome hooks fields entry with
          ⟨_, failed⟩ | ⟨stays, _⟩ | ⟨stays, _⟩
        · exact failed
        · rw [left] at stays
          cases stays
        · rw [left] at stays
          cases stays
      rw [failed]
      refine ⟨_, 1, rfl, Or.inl ⟨?_, _, rfl⟩⟩
      rw [List.any_cons, left]
      rfl
    | false =>
      unfold NoNumberKey at plain
      rw [List.takeWhile_cons_of_pos (by rw [left]; rfl), List.forall_mem_cons] at plain
      have on : goesOn hooks entry = true := by
        rw [goesOn_plain plain.1, left]
        rfl
      obtain ⟨after, done, named⟩ := readEntry_goesOn fields on
      rw [done]
      dsimp only
      rw [luaNext_plain plain.1]
      have inside : place < table.length := (List.getElem?_eq_some_iff.mp at_).1
      have further : table.drop (place + 1) = rest := by
        rw [← List.tail_drop, here]
        rfl
      have shorter : rest.length < rounds := by
        rw [List.length_cons] at enough
        omega
      obtain ⟨result, count, walked, outcome⟩ := ih after further inside plain.2 shorter
      refine ⟨result, count + 1, ?_, ?_⟩
      · simp only [walked, List.range'_succ]
      · rw [List.any_cons, left, Bool.false_or, List.foldl_cons, ← named]
        rcases outcome with stopped | ⟨none, ends, at_end⟩
        · exact Or.inl stopped
        · exact Or.inr ⟨none, by omega, at_end⟩

/-- The places from a place on, in order, up to the end if the loop ends. -/
def VisitsFrom (table : LuaTable) (place : Nat) (walk : FieldsRead × List Nat) : Prop :=
  walk.2 = List.range' place walk.2.length ∧
    ∀ fields, walk.1 = .done fields → place + walk.2.length = table.length

/-- The first place of a loop that does not end at once. -/
theorem readFields_first (inside : place < table.length) {result : FieldsRead} {places : List Nat}
    (walked : readFields hooks table (rounds + 1) place fields = (result, places)) :
    places.head? = some place := by
  unfold readFields at walked
  rw [List.getElem?_eq_getElem inside] at walked
  dsimp only at walked
  split at walked
  · split at walked
    · cases walked
      rfl
    · cases walked
      rfl
  · cases walked
    rfl

/-- After a number key the loop is not at the next entry. -/
theorem luaNext_number {text : Name} {tostring : Bool} {value : LuaField} {there : Nat}
    (here : table[place]? = some (.number text tostring, value))
    (next : luaNext table place (.number text tostring) = some there) : there ≠ place + 1 := by
  unfold luaNext at next
  obtain ⟨found, at_, rfl⟩ := Option.map_eq_some_iff.mp next
  obtain ⟨inside, string, _⟩ := List.findIdx?_eq_some_iff_getElem.mp at_
  intro same
  obtain rfl : found = place := by omega
  rw [List.getElem?_eq_getElem inside, Option.some.injEq] at here
  rw [here] at string
  simp at string

/-- A loop that goes on from a number key does not return, or leaves out an entry. -/
theorem walk_strays {text : Name} {tostring : Bool} {value : LuaField} {there : Nat}
    (here : table[place]? = some (.number text tostring, value))
    (next : luaNext table place (.number text tostring) = some there) {result : FieldsRead}
    {places : List Nat} (walked : readFields hooks table (rounds + 1) there fields = (result, places)) :
    ¬ VisitsFrom table place (result, place :: places) := by
  intro visits
  have elsewhere : there ≠ place + 1 := luaNext_number here next
  have inside : place < table.length := (List.getElem?_eq_some_iff.mp here).1
  have bound : there ≤ table.length := luaNext_le inside next
  by_cases ended : there < table.length
  · have first := readFields_first ended walked
    have all := visits.1
    rw [List.length_cons, List.range'_succ] at all
    have tail := (List.cons.inj all).2
    cases places with
    | nil => cases first
    | cons second places =>
      rw [List.head?_cons, Option.some.injEq] at first
      rw [List.length_cons, List.range'_succ] at tail
      exact elsewhere (first ▸ (List.cons.inj tail).1)
  · -- the loop ends after the last entry, and has left out those in between
    have past : table[there]? = none := List.getElem?_eq_none (by omega)
    unfold readFields at walked
    rw [past] at walked
    cases walked
    have counted := visits.2 fields rfl
    simp only [List.length_singleton] at counted
    omega

/-- With a number key the loop does not return, or does not visit every entry once. -/
theorem readFields_number (fields : ModuleFields) {rest : LuaTable} (here : table.drop place = rest)
    (number : ¬ NoNumberKey hooks rest) :
    (readFields hooks table rounds place fields).1 = .fault ∨
      (readFields hooks table rounds place fields).1 = .endless ∨
      ¬ VisitsFrom table place (readFields hooks table rounds place fields) := by
  induction rest generalizing place rounds fields with
  | nil => exact absurd (fun entry member => absurd member List.not_mem_nil) number
  | cons entry rest ih =>
    cases rounds with
    | zero => exact Or.inr (Or.inl rfl)
    | succ rounds =>
      have at_ : table[place]? = some entry := by
        rw [← List.head?_drop, here]
        rfl
      have further : table.drop (place + 1) = rest := by
        rw [← List.tail_drop, here]
        rfl
      have stays : leaves hooks entry = false := by
        by_contra left
        refine number fun other member => ?_
        rw [List.takeWhile_cons_of_neg (by simpa using left)] at member
        exact absurd member List.not_mem_nil
      unfold readFields
      rw [at_]
      dsimp only
      cases on : goesOn hooks entry with
      | false =>
        rcases readEntry_stops fields on with failed | faulted
        · rcases readEntry_outcome hooks fields entry with
            ⟨left, _⟩ | ⟨_, _, _, faulted⟩ | ⟨_, _, done, _⟩
          · rw [stays] at left
            cases left
          · rw [failed] at faulted
            cases faulted
          · rw [failed] at done
            cases done
        · rw [faulted]
          exact Or.inl rfl
      | true =>
        obtain ⟨after, done, _⟩ := readEntry_goesOn fields on
        rw [done]
        dsimp only
        cases isNum : isNumber entry.1 with
        | false =>
          rw [luaNext_plain isNum]
          dsimp only
          have later : ¬ NoNumberKey hooks rest := by
            intro plain
            refine number fun other member => ?_
            rw [List.takeWhile_cons_of_pos (by rw [stays]; rfl)] at member
            rcases List.mem_cons.mp member with rfl | member
            · exact isNum
            · exact plain other member
          rcases ih after further later with
            faulted | endless | strays
          · exact Or.inl faulted
          · exact Or.inr (Or.inl endless)
          · refine Or.inr (Or.inr fun visits => strays ⟨?_, fun fields ended => ?_⟩)
            · have all := visits.1
              rw [List.length_cons, List.range'_succ] at all
              exact (List.cons.inj all).2
            · have counted := visits.2 fields ended
              rw [List.length_cons] at counted
              omega
        | true =>
          obtain ⟨key, value⟩ := entry
          cases key with
          | string => cases isNum
          | other => cases isNum
          | number text tostring =>
            cases next : luaNext table place (.number text tostring) with
            | none => exact Or.inl rfl
            | some there =>
              cases rounds with
              | zero => exact Or.inr (Or.inl rfl)
              | succ rounds => exact Or.inr (Or.inr (walk_strays at_ next rfl))

theorem visitsOnce_iff {walk : FieldsRead × List Nat} :
    VisitsOnce table walk ↔ VisitsFrom table 0 walk := by
  unfold VisitsOnce VisitsFrom
  rw [List.range_eq_range']
  simp only [Nat.zero_add]

theorem readTable_plain (plain : NoNumberKey hooks table) :
    VisitsOnce table (readTable hooks table) ∧
      ((table.any (leaves hooks) = true ∧ ∃ e, (readTable hooks table).1 = .error e) ∨
        table.any (leaves hooks) = false ∧
          ∃ after, (readTable hooks table).1 = .done after ∧ after.name = givenName table) := by
  obtain ⟨result, count, walked, outcome⟩ := readFields_plain .zero List.drop_zero
    (Nat.zero_le _) plain (Nat.lt_succ_self table.length)
  rw [visitsOnce_iff]
  unfold readTable
  rw [walked]
  rcases outcome with ⟨left, e, rfl⟩ | ⟨none, ends, after, rfl, named⟩
  · refine ⟨⟨?_, fun _ done => by cases done⟩, Or.inl ⟨left, e, rfl⟩⟩
    rw [List.length_range']
  · refine ⟨⟨?_, fun _ _ => ?_⟩, Or.inr ⟨none, after, rfl, named⟩⟩
    · rw [List.length_range']
    · rw [List.length_range']
      exact ends

theorem readTable_number (number : ¬ NoNumberKey hooks table) :
    (readTable hooks table).1 = .fault ∨ (readTable hooks table).1 = .endless ∨
      ¬ VisitsOnce table (readTable hooks table) := by
  rw [visitsOnce_iff]
  exact readFields_number .zero List.drop_zero number

end Visits

section Registrations

theorem registerSection_found {module : LuaLsmModule}
    (found : registerSection r module = (true, r')) : r' = r := by
  unfold registerSection at found
  split at found
  · cases found
    rfl
  · cases found

theorem registerSection_linked {module : LuaLsmModule}
    (linked : registerSection r module = (false, r')) : Linked (some module.name) r r' := by
  unfold registerSection at linked
  split at linked
  · cases linked
  · rename_i there
    cases linked
    refine ⟨{ module with state := .live }, rfl, rfl, fun m member same => ?_, rfl, fun i => ?_, rfl⟩
    · exact there (List.any_eq_true.mpr ⟨m, member, by simp [same]⟩)
    · dsimp only
      split
      · rfl
      · rw [Int.add_zero]

/-- After the table is read only the chunk can go wrong. -/
theorem registerFields_settled (fields : ModuleFields) :
    Settled fields.name r (registerFields env r fields) ↔
      (fields.name.isSome = true → ChunkKept env) := by
  unfold registerFields
  cases named : fields.name with
  | none => exact iff_of_true (settled_error _) (fun some_ => by cases some_)
  | some name =>
    simp only [Option.isSome_some, true_implies]
    unfold ChunkKept
    cases env.recompile with
    | some status => exact iff_of_true (settled_error _) (fun same => by cases same)
    | none =>
      simp only [true_implies]
      cases env.dump with
      | raised => exact iff_of_false not_settled_fault (fun kept => kept.1 rfl)
      | failed => exact iff_of_true (settled_error _) ⟨LuaDump.noConfusion, LuaDump.noConfusion⟩
      | done =>
        cases env.pushresult with
        | false => exact iff_of_false not_settled_fault (fun kept => by cases (kept.2 rfl).1)
        | true =>
          cases env.kmalloc with
          | false => exact iff_of_false not_settled_ok (fun kept => by cases (kept.2 rfl).2)
          | true =>
            refine iff_of_true ?_ ⟨LuaDump.noConfusion, fun _ => ⟨rfl, rfl⟩⟩
            simp only [not_true_eq_false, if_false]
            split
            · rename_i found
              rw [registerSection_found found]
              exact settled_error _
            · rename_i linked
              exact ⟨iff_of_true rfl (registerSection_linked linked), fun failed => absurd rfl failed⟩

/-- A registration that does not come to the table. -/
theorem unwalked (none_ : walked env = none)
    (settled : Settled (env.result.bind givenName) r (luaLsmModuleRegister hooks env r) ↔
      (env.vm = true → env.push = true) ∧
        (env.vm = true → env.load = none → CallReturns env.call)) :
    AllOrNothing hooks env r ↔ RegistersSafely hooks env := by
  have never : ∀ table, walked env ≠ some table := by
    intro table some_
    rw [none_] at some_
    cases some_
  constructor
  · intro all
    obtain ⟨push, call⟩ := settled.mp all.1
    exact ⟨push, call, fun table some_ => absurd some_ (never table),
      fun table some_ => absurd some_ (never table)⟩
  · intro safe
    exact ⟨settled.mpr ⟨safe.push, safe.call⟩, fun table some_ => absurd some_ (never table)⟩

/-- A registration that walks a table. -/
theorem walked_settled (walks : walked env = some table) :
    AllOrNothing hooks env r ↔ NoNumberKey hooks table ∧
      (table.any (leaves hooks) = false → (givenName table).isSome = true → ChunkKept env) := by
  have visited : AllOrNothing hooks env r ↔ Settled (givenName table) r
      (registerTable hooks env r table) ∧ VisitsOnce table (readTable hooks table) := by
    unfold walked at walks
    split at walks
    · rename_i before
      obtain ⟨vm, push, load, call, kzalloc⟩ := before
      unfold AllOrNothing luaLsmModuleRegister walked
      simp [vm, push, load, call, kzalloc, walks]
    · cases walks
  rw [visited]
  unfold registerTable
  by_cases plain : NoNumberKey hooks table
  · obtain ⟨once, outcome⟩ := readTable_plain plain
    rcases outcome with ⟨left, e, failed⟩ | ⟨none_, after, done, named⟩
    · refine iff_of_true ⟨?_, once⟩ ⟨plain, fun none_ => ?_⟩
      · rw [failed]
        exact settled_error e
      · rw [left] at none_
        cases none_
    · rw [done, ← named]
      dsimp only
      rw [registerFields_settled]
      simp [plain, once, none_]
  · refine iff_of_false (fun all => ?_) fun safe => plain safe.1
    rcases readTable_number plain with faulted | endless | strays
    · rw [faulted] at all
      exact not_settled_fault all.1
    · rw [endless] at all
      exact not_settled_endless all.1
    · exact strays all.2

/-- A registration does all or nothing, and visits every entry of its table once, where and only where
nothing raises an error outside a protected call, the chunk's call ends, no key is a number up to
where the loop is left, and there is room for the dumped chunk. -/
theorem registers_all_or_nothing (hooks : LuaHooks) (env : RegisterEnv) (r : LuaRegistry) :
    AllOrNothing hooks env r ↔ RegistersSafely hooks env := by
  cases walks : walked env with
  | some table =>
    rw [walked_settled walks]
    have before := walks
    unfold walked at before
    split at before
    · rename_i reached
      obtain ⟨vm, push, load, call, kzalloc⟩ := reached
      constructor
      · intro ⟨plain, kept⟩
        refine ⟨fun _ => push, fun _ _ => ?_, fun other same => ?_, fun other same => ?_⟩
        · rw [call]
          trivial
        · rw [walks] at same
          cases same
          exact plain
        · rw [walks] at same
          cases same
          exact kept
      · intro safe
        exact ⟨safe.keys table walks, safe.chunk table walks⟩
    · cases before
  | none =>
    refine unwalked walks ?_
    unfold walked at walks
    unfold luaLsmModuleRegister
    cases vm : env.vm with
    | false => exact iff_of_true (settled_error _) (by simp)
    | true =>
      cases push : env.push with
      | false => exact iff_of_false not_settled_fault (by simp)
      | true =>
        cases load : env.load with
        | some status => exact iff_of_true (settled_error _) (by simp)
        | none =>
          simp only [vm, push, load, true_and] at walks
          cases call : env.call with
          | endless => exact iff_of_false not_settled_endless (by simp [CallReturns])
          | failed status message =>
            cases message with
            | false => exact iff_of_false not_settled_fault (by simp [CallReturns])
            | true => exact iff_of_true (settled_error _) (by simp [CallReturns])
          | done =>
            refine iff_of_true ?_ ⟨fun _ => rfl, fun _ _ => trivial⟩
            cases result : env.result with
            | none => exact settled_error _
            | some table =>
              cases kzalloc : env.kzalloc with
              | false => exact settled_error _
              | true => simp [call, result, kzalloc] at walks

end Registrations

section Slips

/-- The hook `file_open`. -/
def oneHook : LuaHooks where
  names := [cstr "file_open".toList]
  supported := fun _ => true

/-- A chunk that returns a table, and nothing that fails. -/
def tableChunk (table : LuaTable) : RegisterEnv where
  vm := true
  push := true
  load := none
  call := .done
  result := some table
  kzalloc := true
  recompile := none
  dump := .done
  pushresult := true
  kmalloc := true

/-- `{ name = "a", file_open = function ... }`. -/
def namedTable : LuaTable :=
  [(.string (cstr "name".toList), .string (cstr "a".toList) true),
    (.string (cstr "file_open".toList), .function)]

/-- `{ true, name = "a" }`. -/
def positionalTable : LuaTable :=
  [(.number (cstr "1".toList) true, .other),
    (.string (cstr "name".toList), .string (cstr "a".toList) true)]

def emptyRegistry : LuaRegistry where
  modules := []
  nhooks := fun _ => 0
  active := 0

/-- No room for the chunk is a result of 0 with nothing linked, and a number key is an error that
nothing catches. -/
theorem registers_nothing_ok :
    luaLsmModuleRegister oneHook { tableChunk namedTable with kmalloc := false } emptyRegistry =
      (.ok, emptyRegistry) ∧
    ¬ AllOrNothing oneHook { tableChunk namedTable with kmalloc := false } emptyRegistry ∧
    luaLsmModuleRegister oneHook (tableChunk positionalTable) emptyRegistry =
      (.fault, emptyRegistry) ∧
    ¬ AllOrNothing oneHook (tableChunk positionalTable) emptyRegistry := by
  have nothing : luaLsmModuleRegister oneHook { tableChunk namedTable with kmalloc := false }
      emptyRegistry = (.ok, emptyRegistry) := rfl
  have raised : luaLsmModuleRegister oneHook (tableChunk positionalTable) emptyRegistry =
      (.fault, emptyRegistry) := rfl
  refine ⟨nothing, fun all => ?_, raised, fun all => ?_⟩
  · have settled := all.1
    rw [nothing] at settled
    exact not_settled_ok settled
  · have settled := all.1
    rw [raised] at settled
    exact not_settled_fault settled

end Slips

end Ksrc.Guarantees.LuaRegistration

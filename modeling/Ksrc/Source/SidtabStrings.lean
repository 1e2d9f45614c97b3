import Ksrc.Library.Heap
import Ksrc.Library.Transition
import Ksrc.Source.Security

/-!
# The SID-to-string cache

Source: `security/selinux/ss/sidtab.c` (`sidtab_sid2str_put`, `sidtab_sid2str_get`, and
what `sidtab_init` sets up for them).

A put is one critical section of the cache lock. A get reads the entry's pointer, copies
the string and leaves its read-side section, and puts the copy: three steps, between
which any others may come. A string handed to `kfree_rcu` is freed once the readers of
that moment have left their sections.
-/
namespace Ksrc.Source

open Library

/-- `struct sidtab_str_cache`; `len` is the length of `str`. -/
structure SidtabStrCache (ε : Type) where
  parent : ε
  str : List U8
  deriving DecidableEq, Repr

/-- An object handed to `kfree_rcu`, with the readers it still waits for. -/
structure RetiredCache where
  cache : Nat
  readers : List Nat
  deriving DecidableEq, Repr

/-- The cache of one table: the objects by address, each entry's `cache` pointer, and the
LRU list from its head. -/
structure Sid2strCache (ε : Type) where
  objects : Heap (SidtabStrCache ε)
  cache : ε → Option Nat
  cacheFreeSlots : Nat
  cacheLruList : List Nat
  retired : List RetiredCache

namespace Sid2strCache

variable {ε : Type} [DecidableEq ε]

/-- `sidtab_init`. -/
def init (size : Nat) : Sid2strCache ε :=
  { objects := .empty, cache := fun _ => none, cacheFreeSlots := size, cacheLruList := []
    retired := [] }

def setCache (s : Sid2strCache ε) (entry : ε) (cache : Option Nat) : Sid2strCache ε :=
  { s with cache := Function.update s.cache entry cache }

/-- Pop the tail of the LRU list, unset its parent's pointer and retire it; `none` where
the list is empty, so that its head would be taken for an object, or the object is gone. -/
def popVictim (s : Sid2strCache ε) (readers : List Nat) : Option (Sid2strCache ε) :=
  match s.cacheLruList.getLast? with
  | none => none
  | some victim =>
    match s.objects.get victim with
    | none => none
    | some object =>
      some { s.setCache object.parent none with
        cacheLruList := s.cacheLruList.dropLast
        retired := { cache := victim, readers } :: s.retired }

/-- A slot for a new string, taken from the free ones or from the victim. -/
def takeSlot (s : Sid2strCache ε) (readers : List Nat) : Option (Sid2strCache ε) :=
  if s.cacheFreeSlots = 0 then s.popVictim readers
  else some { s with cacheFreeSlots := s.cacheFreeSlots - 1 }

/-- Fill the new object and publish it. -/
def publish (s : Sid2strCache ε) (entry : ε) (str : List U8) (cache : Nat) : Sid2strCache ε :=
  { s.setCache entry (some cache) with
    objects := s.objects.set cache { parent := entry, str }
    cacheLruList := cache :: s.cacheLruList }

end Sid2strCache

section Calls

variable {ε : Type} [DecidableEq ε]

/-- `sidtab_sid2str_put`. `contextLen` is `context.len` of the entries, `allocated` the
address `kmalloc` returns, `readers` the threads in a read-side section. Moving an object
that is not on the list gives `none`. -/
def sidtabSid2strPut (contextLen : ε → U32) (readers : List Nat) (s : Sid2strCache ε) (entry : ε)
    (str : List U8) (allocated : Option Nat) : Option (Sid2strCache ε) :=
  if contextLen entry ≠ 0 then some s
  else
    match s.cache entry with
    | some cache =>
      if cache ∈ s.cacheLruList then
        some { s with cacheLruList := cache :: s.cacheLruList.erase cache }
      else none
    | none =>
      match allocated with
      | none => some s
      | some cache => (s.takeSlot readers).map fun s => s.publish entry str cache

/-- Where a thread inside `sidtab_sid2str_get` is. -/
inductive Sid2strThread (ε : Type) where
  | idle
  | reading (entry : ε) (cache : Nat) (out : Bool)
  | copied (entry : ε) (str : List U8)
  deriving DecidableEq, Repr

/-- What a get returned: the length, and the string unless `out` is `NULL`. -/
structure Sid2strAnswer (ε : Type) where
  entry : ε
  result : Except Errno (Nat × Option (List U8))
  deriving DecidableEq, Repr

/-- One table's cache, the threads and what they were answered. `puts` are the strings
other callers have put, newest first. -/
structure Sid2strMachine (ε : Type) where
  strings : Sid2strCache ε
  thread : Nat → Sid2strThread ε
  readers : List Nat
  puts : List (ε × List U8)
  answers : List (Sid2strAnswer ε)

namespace Sid2strMachine

def setThread (s : Sid2strMachine ε) (t : Nat) (phase : Sid2strThread ε) : Sid2strMachine ε :=
  { s with thread := Function.update s.thread t phase }

def answer (s : Sid2strMachine ε) (entry : ε) (result : Except Errno (Nat × Option (List U8))) :
    Sid2strMachine ε :=
  { s with answers := { entry, result } :: s.answers }

/-- `rcu_read_lock`. -/
def readLock (s : Sid2strMachine ε) (t : Nat) : Sid2strMachine ε :=
  { s with readers := t :: s.readers }

/-- `rcu_read_unlock`: nothing waits for this reader any more. -/
def readUnlock (s : Sid2strMachine ε) (t : Nat) : Sid2strMachine ε :=
  { s with
    readers := s.readers.filter fun reader => reader != t
    strings := { s.strings with
      retired := s.strings.retired.map fun gone =>
        { gone with readers := gone.readers.filter fun reader => reader != t } } }

end Sid2strMachine

inductive Sid2strAction (ε : Type) where
  | put (entry : ε) (str : List U8) (allocated : Option Nat)
  | getLoad (t : Nat) (entry : ε) (out : Bool)
  | getCopy (t : Nat) (copied : Bool)
  | getPut (t : Nat) (allocated : Option Nat)
  | rcuFree (cache : Nat)

/-- `kmalloc` returns an address that is not in use. -/
def freshCache (s : Sid2strCache ε) : Option Nat → Bool
  | none => true
  | some cache => (s.objects.get cache).isNone

/-- One step; `none` where it is not the thread's next one, or where the code would use a
pointer to nothing. -/
def sid2strStep (contextLen : ε → U32) (s : Sid2strMachine ε) :
    Sid2strAction ε → Option (Sid2strMachine ε)
  | .put entry str allocated =>
    if freshCache s.strings allocated then
      (sidtabSid2strPut contextLen s.readers s.strings entry str allocated).map fun strings =>
        { s with strings, puts := (entry, str) :: s.puts }
    else none
  | .getLoad t entry out =>
    match s.thread t with
    | .idle =>
      if contextLen entry ≠ 0 then some (s.answer entry (.error .ENOENT))
      else
        match s.strings.cache entry with
        | none => some (s.answer entry (.error .ENOENT))
        | some cache => some ((s.readLock t).setThread t (.reading entry cache out))
    | _ => none
  | .getCopy t copied =>
    match s.thread t with
    | .reading entry cache out =>
      match s.strings.objects.get cache with
      | none => none
      | some object =>
        let s := s.readUnlock t
        if out then
          if copied then some (s.setThread t (.copied entry object.str))
          else some ((s.setThread t .idle).answer entry (.error .ENOMEM))
        else some ((s.setThread t .idle).answer entry (.ok (object.str.length, none)))
    | _ => none
  | .getPut t allocated =>
    match s.thread t with
    | .copied entry str =>
      if freshCache s.strings allocated then
        (sidtabSid2strPut contextLen s.readers s.strings entry str allocated).map fun strings =>
          ({ s with strings }.setThread t .idle).answer entry (.ok (str.length, some str))
      else none
    | _ => none
  | .rcuFree cache =>
    if { cache, readers := [] } ∈ s.strings.retired then
      some { s with strings := { s.strings with
        objects := s.strings.objects.free cache
        retired := s.strings.retired.filter fun gone => gone.cache != cache } }
    else none

/-- A table just set up, no call under way. -/
structure Sid2strStart (size : Nat) (s : Sid2strMachine ε) : Prop where
  strings : s.strings = .init size
  thread : ∀ t, s.thread t = .idle
  readers : s.readers = []
  puts : s.puts = []
  answers : s.answers = []

def sid2strMachine (contextLen : ε → U32) (size : Nat) :
    Machine (Sid2strMachine ε) (Sid2strAction ε) where
  start := Sid2strStart size
  step := sid2strStep contextLen

end Calls

end Ksrc.Source

import Ksrc.Source.PolicydbRead

/-!
# Policy images by their sections

Source: `security/selinux/ss/policydb.c` (`policydb_read`), `policydb_write` for the order of the
sections.
-/
namespace Ksrc.Guarantees.PolicyImages

open Source

def word (n : Nat) : List U8 := cpuToLe32 (BitVec.ofNat 32 n)
def half (n : Nat) : List U8 := cpuToLe16 (BitVec.ofNat 16 n)
def quad (n : Nat) : List U8 := cpuToLe64 (BitVec.ofNat 64 n)

/-- A bitmap with the words of `units` at their start bits. -/
def bitmapBytes (high : Nat) (units : List (Nat × Nat)) : List U8 :=
  word 64 ++ word high ++ word units.length ++ units.flatMap fun unit => word unit.1 ++ quad unit.2

def emptyBitmap : List U8 := bitmapBytes 0 []

/-- A count and what it counts. -/
def counted (items : List (List U8)) : List U8 := word items.length ++ items.flatten

/-- A symbol table: its values go up to `nprim`. -/
def symbols (nprim : Nat) (items : List (List U8)) : List U8 := word nprim ++ counted items

def permBytes (value : Nat) (name : Name) : List U8 := word name.length ++ word value ++ name

/-- A class without a common, from the version with default types on. -/
def classBytes (value : Nat) (name : Name) (perms : List (List U8)) : List U8 :=
  word name.length ++ word 0 ++ word value ++ word perms.length ++ word perms.length ++ word 0 ++
    name ++ perms.flatten ++ word 0 ++ word 0 ++ word 0 ++ word 0 ++ word 0

def roleBytes (value bounds : Nat) (name : Name) (types : List U8) : List U8 :=
  word name.length ++ word value ++ word bounds ++ name ++ emptyBitmap ++ types

/-- A type; `property` is 1 for a primary one. -/
def typeBytes (value property bounds : Nat) (name : Name) : List U8 :=
  word name.length ++ word value ++ word property ++ word bounds ++ name

/-- A range that is one level without categories. -/
def rangeBytes (sens : Nat) : List U8 := word 1 ++ word sens ++ emptyBitmap

def userBytes (value bounds sens : Nat) (name : Name) (roles : List U8) : List U8 :=
  word name.length ++ word value ++ word bounds ++ name ++ roles ++ rangeBytes sens ++ word sens ++
    emptyBitmap

def boolBytes (value state : Nat) (name : Name) : List U8 :=
  word value ++ word state ++ word name.length ++ name

def sensBytes (sens : Nat) (name : Name) (cats : List U8) : List U8 :=
  word name.length ++ word 0 ++ name ++ word sens ++ cats

def catBytes (value : Nat) (name : Name) : List U8 := word name.length ++ word value ++ word 0 ++ name

/-- A rule with one word of data. -/
def ruleBytes (source target tclass specified data : Nat) : List U8 :=
  half source ++ half target ++ half tclass ++ half specified ++ word data

/-- An extended rule. -/
def xpermsBytes (source target tclass specified kind driver first : Nat) : List U8 :=
  half source ++ half target ++ half tclass ++ half specified ++
    [BitVec.ofNat 8 kind, BitVec.ofNat 8 driver] ++ word first ++ (List.replicate 7 (word 0)).flatten

/-- A conditional: its state, the nodes of its expression and the rules of its two lists. -/
def condBytes (state : Nat) (expr : List (Nat × Nat)) (trueList falseList : List (List U8)) : List U8 :=
  word state ++ counted (expr.map fun node => word node.1 ++ word node.2) ++ counted trueList ++
    counted falseList

/-- The sections of an image. -/
structure PolicyImage where
  header : List U8
  commons : List U8
  classes : List U8
  roles : List U8
  types : List U8
  users : List U8
  bools : List U8
  levels : List U8
  cats : List U8
  rules : List U8
  conds : List U8
  roleTrans : List U8
  roleAllow : List U8
  fileTrans : List U8
  ocontexts : List U8
  genfs : List U8
  rangeTrans : List U8
  typeAttrs : List U8

namespace PolicyImage

def bytes (image : PolicyImage) : List U8 :=
  image.header ++ image.commons ++ image.classes ++ image.roles ++ image.types ++ image.users ++
    image.bools ++ image.levels ++ image.cats ++ image.rules ++ image.conds ++ image.roleTrans ++
    image.roleAllow ++ image.fileTrans ++ image.ocontexts ++ image.genfs ++ image.rangeTrans ++
    image.typeAttrs

/-- The image is accepted and the test holds of the policy. -/
def accepts (image : PolicyImage) (test : Policydb → Bool) : Bool :=
  match policydbRead image.bytes with
  | .ok (p, _) => test p
  | .error _ => false

theorem accepts_iff {image : PolicyImage} {test : Policydb → Bool} :
    image.accepts test = true ↔
      ∃ p rest, policydbRead image.bytes = .ok (p, rest) ∧ test p = true := by
  unfold accepts
  cases policydbRead image.bytes with
  | error e => simp
  | ok pair =>
    obtain ⟨p, rest⟩ := pair
    simp

end PolicyImage

/-- The start of an image of the newest version. -/
def newHeader (config : Nat) : List U8 :=
  word policydbMagic.toNat ++ word policydbString.length ++ policydbString ++ word 33 ++ word config ++
    word 8 ++ word 9 ++ emptyBitmap ++ emptyBitmap

def processClass : List U8 :=
  classBytes 1 processName [permBytes 1 transitionName, permBytes 2 dyntransitionName]

/-- The process class, two types and a user; one rule between the types. -/
def smallImage : PolicyImage where
  header := newHeader 0
  commons := symbols 0 []
  classes := symbols 1 [processClass]
  roles := symbols 1 [roleBytes 1 0 objectR emptyBitmap]
  types := symbols 2 [typeBytes 1 1 0 (cstr ['a']), typeBytes 2 1 0 (cstr ['b'])]
  users := symbols 1 [userBytes 1 0 0 (cstr ['u']) emptyBitmap]
  bools := symbols 0 []
  levels := symbols 0 []
  cats := symbols 0 []
  rules := counted [ruleBytes 2 2 1 1 1]
  conds := counted []
  roleTrans := counted []
  roleAllow := counted []
  fileTrans := counted []
  ocontexts := (List.replicate 9 (word 0)).flatten
  genfs := counted []
  rangeTrans := counted []
  typeAttrs := bitmapBytes 64 [(0, 1)] ++ bitmapBytes 64 [(0, 2)]

/-- An item of the format before `POLICYDB_VERSION_AVTAB`: a word of specifiers and a word of data
for each of them. -/
def oldItemBytes (source target tclass specified : Nat) (data : List Nat) : List U8 :=
  counted ([word source, word target, word tclass, word specified] ++ data.map word)

/-- The process class, two types and a boolean, in the last version of the old format of rules. -/
def oldImage (rules conds : List (List U8)) : PolicyImage where
  header := word policydbMagic.toNat ++ word policydbString.length ++ policydbString ++ word 19 ++
    word 0 ++ word 8 ++ word 7
  commons := symbols 0 []
  classes := symbols 1 [word processName.length ++ word 0 ++ word 1 ++ word 2 ++ word 2 ++ word 0 ++
    processName ++ permBytes 1 transitionName ++ permBytes 2 dyntransitionName ++ word 0]
  roles := symbols 1 [word objectR.length ++ word 1 ++ objectR ++ emptyBitmap ++ emptyBitmap]
  types := symbols 2 [word 1 ++ word 1 ++ word 1 ++ cstr ['a'], word 1 ++ word 2 ++ word 1 ++ cstr ['b']]
  users := symbols 1 [word 1 ++ word 1 ++ cstr ['u'] ++ emptyBitmap ++ rangeBytes 0 ++ word 0 ++ emptyBitmap]
  bools := symbols 1 [boolBytes 1 0 (cstr ['c'])]
  levels := symbols 0 []
  cats := symbols 0 []
  rules := counted rules
  conds := counted conds
  roleTrans := counted []
  roleAllow := counted []
  fileTrans := []
  ocontexts := (List.replicate 7 (word 0)).flatten
  genfs := counted []
  rangeTrans := counted []
  typeAttrs := []

end Ksrc.Guarantees.PolicyImages

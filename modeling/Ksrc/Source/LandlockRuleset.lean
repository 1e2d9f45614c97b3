import Ksrc.Library.Heap
import Ksrc.Library.SearchTree
import Ksrc.Source.Security

/-!
# Landlock rulesets and domains

Source: `landlock/src/ruleset.c`, `ruleset.h`, `limits.h`, and the access rights of
`uapi/linux/landlock.h`.

Structures live at addresses of heaps. The tree of a ruleset is a red-black tree of the
kernel, whose `rb_insert_color` is a parameter. Each `kzalloc` takes the outcome that is
next on a list. The references of rules to their objects are left out, as are locks.
-/
namespace Ksrc.Source

open Library

def landlockAccessFsExecute : U16 := 1#16 <<< 0
def landlockAccessFsWriteFile : U16 := 1#16 <<< 1
def landlockAccessFsReadFile : U16 := 1#16 <<< 2
def landlockAccessFsReadDir : U16 := 1#16 <<< 3
def landlockAccessFsRemoveDir : U16 := 1#16 <<< 4
def landlockAccessFsRemoveFile : U16 := 1#16 <<< 5
def landlockAccessFsMakeChar : U16 := 1#16 <<< 6
def landlockAccessFsMakeDir : U16 := 1#16 <<< 7
def landlockAccessFsMakeReg : U16 := 1#16 <<< 8
def landlockAccessFsMakeSock : U16 := 1#16 <<< 9
def landlockAccessFsMakeFifo : U16 := 1#16 <<< 10
def landlockAccessFsMakeBlock : U16 := 1#16 <<< 11
def landlockAccessFsMakeSym : U16 := 1#16 <<< 12
def landlockAccessFsRefer : U16 := 1#16 <<< 13
def landlockAccessFsTruncate : U16 := 1#16 <<< 14

def landlockMaxNumLayers : Nat := 16
def landlockMaxNumRules : Nat := 0xffffffff
def landlockNumAccessFs : Nat := 15

/-- `LANDLOCK_MASK_ACCESS_FS`. -/
def landlockMaskAccessFs : U16 := (landlockAccessFsTruncate <<< 1) - 1

/-- `struct landlock_layer`. -/
structure LandlockLayer where
  level : U16
  access : U16
  deriving DecidableEq, Repr

/-- `struct landlock_rule`; `num_layers` is the number of its layers. -/
structure LandlockRule where
  object : Nat
  layers : List LandlockLayer
  deriving DecidableEq, Repr

/-- `struct landlock_hierarchy`. -/
structure LandlockHierarchy where
  parent : Option Nat
  usage : Nat
  deriving DecidableEq, Repr

/-- `struct landlock_ruleset`; `num_layers` is the number of its access masks. -/
structure LandlockRuleset where
  root : SearchTree LandlockRule
  hierarchy : Option Nat
  usage : Nat
  numRules : Nat
  fsAccessMasks : List U16
  deriving DecidableEq, Repr

namespace LandlockRuleset

def numLayers (r : LandlockRuleset) : Nat := r.fsAccessMasks.length

end LandlockRuleset

/-- `rb_insert_color` on trees of rules. -/
abbrev RbInsertColor := SearchTree.Balance LandlockRule

/-- How a function of `ruleset.c` fails: with an error, or with one behind a
`WARN_ON_ONCE`. -/
inductive Refusal where
  | err (e : Errno)
  | warn (e : Errno)
  deriving DecidableEq, Repr

/-- Whether the next `kzalloc` succeeds; those past the end of the list do. -/
def kzalloc : List Bool → Bool × List Bool
  | [] => (true, [])
  | ok :: rest => (ok, rest)

/-- `create_ruleset`. -/
def createRuleset (numLayers : Nat) (allocs : List Bool) :
    Except Refusal LandlockRuleset × List Bool :=
  match kzalloc allocs with
  | (false, allocs) => (.error (.err .ENOMEM), allocs)
  | (true, allocs) =>
    (.ok { root := .nil, hierarchy := none, usage := 1, numRules := 0
           fsAccessMasks := List.replicate numLayers 0 }, allocs)

/-- `landlock_create_ruleset`. -/
def landlockCreateRuleset (fsAccessMask : U16) (allocs : List Bool) :
    Except Refusal LandlockRuleset × List Bool :=
  if fsAccessMask = 0 then (.error (.err .ENOMSG), allocs)
  else
    match createRuleset 1 allocs with
    | (.error e, allocs) => (.error e, allocs)
    | (.ok newRuleset, allocs) =>
      (.ok { newRuleset with fsAccessMasks := newRuleset.fsAccessMasks.set 0 fsAccessMask }, allocs)

/-- `create_rule`. -/
def createRule (object : Nat) (layers : List LandlockLayer) (newLayer : Option LandlockLayer)
    (allocs : List Bool) : Except Refusal LandlockRule × List Bool :=
  if newLayer.isSome ∧ landlockMaxNumLayers ≤ layers.length then (.error (.warn .E2BIG), allocs)
  else
    match kzalloc allocs with
    | (false, allocs) => (.error (.err .ENOMEM), allocs)
    | (true, allocs) => (.ok { object, layers := layers ++ newLayer.toList }, allocs)

/-- The first layer of a rule. -/
def LandlockRule.layer0 (rule : LandlockRule) : LandlockLayer := rule.layers.headD ⟨0, 0⟩

/-- `this->layers[0].access |= access`. -/
def LandlockRule.extend (access : U16) (rule : LandlockRule) : LandlockRule :=
  let layer := rule.layer0
  { rule with layers := rule.layers.set 0 { layer with access := layer.access ||| access } }

/-- `insert_rule`; a `NULL` object is `none`. -/
def insertRule (color : RbInsertColor) (ruleset : LandlockRuleset) (object : Option Nat)
    (layers : List LandlockLayer) (allocs : List Bool) :
    Except Refusal LandlockRuleset × List Bool :=
  match object with
  | none => (.error (.warn .ENOENT), allocs)
  | some object =>
    match ruleset.root.find LandlockRule.object object with
    | some this =>
      match layers with
      | [layer] =>
        if layer.level = 0 then
          if this.layers.length ≠ 1 then (.error (.warn .EINVAL), allocs)
          else if this.layer0.level ≠ 0 then (.error (.warn .EINVAL), allocs)
          else
            let root := ruleset.root.update LandlockRule.object object (.extend layer.access)
            (.ok { ruleset with root }, allocs)
        else if this.layer0.level = 0 then (.error (.warn .EINVAL), allocs)
        else
          match createRule object this.layers (some layer) allocs with
          | (.error e, allocs) => (.error e, allocs)
          | (.ok newRule, allocs) =>
            -- `rb_replace_node`
            let root := ruleset.root.update LandlockRule.object object fun this =>
              { this with layers := newRule.layers }
            (.ok { ruleset with root }, allocs)
      | _ => (.error (.warn .EINVAL), allocs)
    | none =>
      if landlockMaxNumRules ≤ ruleset.numRules then (.error (.err .E2BIG), allocs)
      else
        match createRule object layers none allocs with
        | (.error e, allocs) => (.error e, allocs)
        | (.ok newRule, allocs) =>
          (.ok { ruleset with
            root := color.run (ruleset.root.link LandlockRule.object newRule)
            numRules := ruleset.numRules + 1 }, allocs)

/-- `landlock_insert_rule`. -/
def landlockInsertRule (color : RbInsertColor) (ruleset : LandlockRuleset) (object : Option Nat)
    (access : U16) (allocs : List Bool) : Except Refusal LandlockRuleset × List Bool :=
  insertRule color ruleset object [{ level := 0, access }] allocs

/-- The loop over the source tree in `merge_ruleset`. -/
def mergeRules (color : RbInsertColor) :
    List LandlockRule → LandlockRuleset → List Bool → Except Refusal LandlockRuleset × List Bool
  | [], dst, allocs => (.ok dst, allocs)
  | walkerRule :: rest, dst, allocs =>
    if walkerRule.layers.length ≠ 1 then (.error (.warn .EINVAL), allocs)
    else if walkerRule.layer0.level ≠ 0 then (.error (.warn .EINVAL), allocs)
    else
      let layer : LandlockLayer :=
        { level := BitVec.ofNat 16 dst.numLayers, access := walkerRule.layer0.access }
      match insertRule color dst (some walkerRule.object) [layer] allocs with
      | (.error e, allocs) => (.error e, allocs)
      | (.ok dst, allocs) => mergeRules color rest dst allocs

/-- `merge_ruleset`. -/
def mergeRuleset (color : RbInsertColor) (dst src : LandlockRuleset) (allocs : List Bool) :
    Except Refusal LandlockRuleset × List Bool :=
  if dst.hierarchy = none then (.error (.warn .EINVAL), allocs)
  else if src.numLayers ≠ 1 ∨ dst.numLayers < 1 then (.error (.warn .EINVAL), allocs)
  else
    let mask := src.fsAccessMasks.headD 0
    mergeRules color src.root.postorder
      { dst with fsAccessMasks := dst.fsAccessMasks.set (dst.numLayers - 1) mask } allocs

/-- The loop over the parent's tree in `inherit_ruleset`. -/
def inheritRules (color : RbInsertColor) :
    List LandlockRule → LandlockRuleset → List Bool → Except Refusal LandlockRuleset × List Bool
  | [], child, allocs => (.ok child, allocs)
  | walkerRule :: rest, child, allocs =>
    match insertRule color child (some walkerRule.object) walkerRule.layers allocs with
    | (.error e, allocs) => (.error e, allocs)
    | (.ok child, allocs) => inheritRules color rest child allocs

/-- The hierarchy nodes by their addresses. -/
abbrev Hierarchies := Heap LandlockHierarchy

/-- `get_hierarchy`; `none` is the use of a node that is not there. -/
def getHierarchy (hs : Hierarchies) (hierarchy : Nat) : Option Hierarchies :=
  (hs.get hierarchy).map fun node => hs.set hierarchy { node with usage := node.usage + 1 }

/-- `put_hierarchy`. A chain has a node for each layer of a domain, so one that is longer
does not end. -/
def putHierarchyFrom : Nat → Hierarchies → Option Nat → Option Hierarchies
  | _, hs, none => some hs
  | 0, _, some _ => none
  | left + 1, hs, some hierarchy =>
    match hs.get hierarchy with
    | none => none
    | some node =>
      if node.usage = 1 then putHierarchyFrom left (hs.free hierarchy) node.parent
      else some (hs.set hierarchy { node with usage := node.usage - 1 })

def putHierarchy (hs : Hierarchies) (hierarchy : Option Nat) : Option Hierarchies :=
  putHierarchyFrom landlockMaxNumLayers hs hierarchy

/-- The end of `inherit_ruleset`: the layer stack and the hierarchy. -/
def inheritHierarchy (hs : Hierarchies) (parent child : LandlockRuleset) (newHierarchy : Nat) :
    Option (Except Refusal LandlockRuleset × Hierarchies) :=
  if child.numLayers ≤ parent.numLayers then some (.error (.warn .EINVAL), hs)
  else
    let child := { child with
      fsAccessMasks := parent.fsAccessMasks ++ child.fsAccessMasks.drop parent.numLayers }
    match parent.hierarchy with
    | none => some (.error (.warn .EINVAL), hs)
    | some above =>
      match getHierarchy hs above with
      | none => none
      | some hs =>
        (hs.get newHierarchy).map fun node =>
          (.ok child, hs.set newHierarchy { node with parent := some above })

/-- `inherit_ruleset`, for a child whose hierarchy node is at `newHierarchy`. -/
def inheritRuleset (color : RbInsertColor) (hs : Hierarchies) (parent : Option LandlockRuleset)
    (child : LandlockRuleset) (newHierarchy : Nat) (allocs : List Bool) :
    Option (Except Refusal LandlockRuleset × Hierarchies × List Bool) :=
  match parent with
  | none => some (.ok child, hs, allocs)
  | some parent =>
    match inheritRules color parent.root.postorder child allocs with
    | (.error e, allocs) => some (.error e, hs, allocs)
    | (.ok child, allocs) =>
      (inheritHierarchy hs parent child newHierarchy).map fun out => (out.1, out.2, allocs)

/-- `free_ruleset`. -/
def freeRuleset (hs : Hierarchies) (ruleset : LandlockRuleset) : Option Hierarchies :=
  putHierarchy hs ruleset.hierarchy

/-- `landlock_merge_ruleset` after the creation of the new domain and its hierarchy node. -/
def buildDomain (color : RbInsertColor) (hs : Hierarchies) (parent : Option LandlockRuleset)
    (ruleset newDom : LandlockRuleset) (newHierarchy : Nat) (allocs : List Bool) :
    Option (Except Refusal LandlockRuleset × Hierarchies) :=
  match inheritRuleset color hs parent newDom newHierarchy allocs with
  | none => none
  | some (.error e, hs, _) => (freeRuleset hs newDom).map fun hs => (.error e, hs)
  | some (.ok child, hs, allocs) =>
    match mergeRuleset color child ruleset allocs with
    | (.error e, _) => (freeRuleset hs child).map fun hs => (.error e, hs)
    | (.ok dom, _) => some (.ok dom, hs)

/-- `landlock_merge_ruleset` behind its check of the pointers; the hierarchy node of the
new domain is allocated at `newHierarchy`. -/
def mergeDomain (color : RbInsertColor) (hs : Hierarchies) (parent : Option LandlockRuleset)
    (ruleset : LandlockRuleset) (newHierarchy : Nat) (allocs : List Bool) :
    Option (Except Refusal LandlockRuleset × Hierarchies) :=
  let layers := match parent with
    | some parent => parent.numLayers
    | none => 0
  if landlockMaxNumLayers ≤ layers then some (.error (.err .E2BIG), hs)
  else
    match createRuleset (layers + 1) allocs with
    | (.error e, _) => some (.error e, hs)
    | (.ok newDom, allocs) =>
      match kzalloc allocs with
      | (false, _) => (freeRuleset hs newDom).map fun hs => (.error (.err .ENOMEM), hs)
      | (true, allocs) =>
        buildDomain color (hs.set newHierarchy { parent := none, usage := 1 }) parent ruleset
          { newDom with hierarchy := some newHierarchy } newHierarchy allocs

/-- The rulesets, domains among them, and the hierarchy nodes of the kernel. -/
structure LandlockHeap where
  rulesets : Heap LandlockRuleset
  hierarchies : Hierarchies

/-- `landlock_merge_ruleset`; the new domain is allocated at `newDom`. -/
def landlockMergeRuleset (color : RbInsertColor) (h : LandlockHeap) (parent ruleset : Option Nat)
    (newDom newHierarchy : Nat) (allocs : List Bool) :
    Option (Except Refusal Nat × LandlockHeap) :=
  match ruleset with
  | none => some (.error (.warn .EINVAL), h)
  | some rulesetAddr =>
    if parent = some rulesetAddr then some (.error (.warn .EINVAL), h)
    else
      match h.rulesets.get rulesetAddr with
      | none => none
      | some ruleset =>
        let merge (parent : Option LandlockRuleset) :=
          (mergeDomain color h.hierarchies parent ruleset newHierarchy allocs).map fun out =>
            match out with
            | (.error e, hierarchies) => (.error e, { h with hierarchies })
            | (.ok dom, hierarchies) =>
              (.ok newDom, { rulesets := h.rulesets.set newDom dom, hierarchies })
        match parent with
        | none => merge none
        | some parent =>
          match h.rulesets.get parent with
          | none => none
          | some parent => merge (some parent)

/-- `landlock_get_ruleset`. -/
def landlockGetRuleset (h : LandlockHeap) (ruleset : Option Nat) : Option LandlockHeap :=
  match ruleset with
  | none => some h
  | some addr =>
    (h.rulesets.get addr).map fun r =>
      { h with rulesets := h.rulesets.set addr { r with usage := r.usage + 1 } }

/-- `landlock_put_ruleset`, also for `landlock_put_ruleset_deferred`, whose work runs later. -/
def landlockPutRuleset (h : LandlockHeap) (ruleset : Option Nat) : Option LandlockHeap :=
  match ruleset with
  | none => some h
  | some addr =>
    match h.rulesets.get addr with
    | none => none
    | some r =>
      if r.usage = 1 then
        (freeRuleset h.hierarchies r).map fun hierarchies =>
          { rulesets := h.rulesets.free addr, hierarchies }
      else some { h with rulesets := h.rulesets.set addr { r with usage := r.usage - 1 } }

/-- `landlock_find_rule`. -/
def landlockFindRule (ruleset : LandlockRuleset) (object : Option Nat) : Option LandlockRule :=
  match object with
  | none => none
  | some object => ruleset.root.find LandlockRule.object object

end Ksrc.Source

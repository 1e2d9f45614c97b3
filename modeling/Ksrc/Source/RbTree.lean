import Mathlib.Data.List.Basic

/-!
# The rank-balanced trees of tree.h

Source: `lua/tree.h` (`RB_INSERT`, `RB_INSERT_COLOR`, `RB_FIND`, `RB_REMOVE`,
`RB_REMOVE_COLOR`, `RB_FOREACH`). Each node keeps two bits in its parent pointer that tell
which of the edges to its children are long. The loops that climb from a node to the root are
recursions here: what a subtree returns says whether its rank has changed.
-/
namespace Ksrc.Source

/-- `_RB_L` and `_RB_R`. -/
inductive RbDir where
  | left
  | right
  deriving DecidableEq, Repr

/-- A tree under `RB_HEAD`; a node has its long edges, its children and its element. -/
inductive RbTree (α : Type) where
  | nil
  | node (longL longR : Bool) (left : RbTree α) (elm : α) (right : RbTree α)
  deriving DecidableEq, Repr

namespace RbTree

variable {α : Type}

/-- The elements in the order of `RB_FOREACH`. -/
def foreach : RbTree α → List α
  | nil => []
  | node _ _ left elm right => left.foreach ++ elm :: right.foreach

/-- A node written from the side of one of its children. -/
def branch (dir : RbDir) (long longSib : Bool) (child : RbTree α) (elm : α) (sib : RbTree α) :
    RbTree α :=
  match dir with
  | .left => node long longSib child elm sib
  | .right => node longSib long sib elm child

/-- The fields of a node, read from the side of one of its children. -/
def links (dir : RbDir) : RbTree α → Option (Bool × Bool × RbTree α × α × RbTree α)
  | nil => none
  | node longL longR left elm right =>
    match dir with
    | .left => some (longL, longR, left, elm, right)
    | .right => some (longR, longL, right, elm, left)

/-- `RB_INSERT_COLOR` at one parent whose child `elm` in direction `elmdir` has grown: what
takes the place of the parent, and whether that has grown. -/
def insertColor (elmdir : RbDir) (long longSib : Bool) (elm : RbTree α) (parent : α)
    (sib : RbTree α) : RbTree α × Bool :=
  -- shorten the parent-elm edge to rebalance
  if long then (branch elmdir false longSib elm parent sib, false)
  -- both edges now short, retry from parent
  else if ¬ longSib then (branch elmdir false true elm parent sib, true)
  else
    match links elmdir elm with
    -- what has grown is not empty
    | none => (branch elmdir false false elm parent sib, false)
    | some (elmLong, elmLongSib, w, e, child) =>
      if elmLong then
        match links elmdir child with
        -- the edge to `child` grew in the turn before
        | none => (branch elmdir false false elm parent sib, false)
        | some (childLong, childLongSib, x, c, y) =>
          (branch elmdir false false
            (branch elmdir false (xor elmLongSib childLong) w e x) c
            (branch elmdir childLongSib false y parent sib), false)
      else
        (branch elmdir false false w e (branch elmdir false false child parent sib), false)

/-- `RB_INSERT`: the walk to the place of a new element. It ends at an element that compares
equal, or with the tree and whether it has grown. -/
def insertWalk (cmp : α → α → Int) (new : α) : RbTree α → Except α (RbTree α × Bool)
  | nil => .ok (node false false nil new nil, true)
  | node longL longR left elm right =>
    let comp := cmp new elm
    if comp < 0 then
      match insertWalk cmp new left with
      | .error found => .error found
      | .ok (left, true) => .ok (insertColor .left longL longR left elm right)
      | .ok (left, false) => .ok (node longL longR left elm right, false)
    else if comp > 0 then
      match insertWalk cmp new right with
      | .error found => .error found
      | .ok (right, true) => .ok (insertColor .right longR longL right elm left)
      | .ok (right, false) => .ok (node longL longR left elm right, false)
    else .error elm

/-- `RB_INSERT`: the element that compares equal, if there is one, and the tree. -/
def insert (cmp : α → α → Int) (t : RbTree α) (new : α) : Option α × RbTree α :=
  match insertWalk cmp new t with
  | .error found => (some found, t)
  | .ok (t, _) => (none, t)

/-- `RB_FIND`; `probe` is the comparison with the element that is looked for. -/
def find (probe : α → Int) : RbTree α → Option α
  | nil => none
  | node _ _ left elm right =>
    let comp := probe elm
    if comp < 0 then find probe left
    else if comp > 0 then find probe right
    else some elm

/-- `RB_REMOVE_COLOR` at one parent whose child `elm` in direction `elmdir` has shrunk: what
takes the place of the parent, and whether that has shrunk. -/
def removeColor (elmdir : RbDir) (long longSib : Bool) (elm : RbTree α) (parent : α)
    (sib : RbTree α) : RbTree α × Bool :=
  match links elmdir elm, links elmdir sib with
  -- demote a leaf whose only child was deleted
  | none, none => (branch elmdir false false elm parent sib, true)
  | _, sibLinks =>
    -- lengthen the parent-elm edge to rebalance
    if ¬ long then (branch elmdir true longSib elm parent sib, false)
    -- shorten other edge, retry from parent
    else if longSib then (branch elmdir true false elm parent sib, true)
    else
      match sibLinks with
      -- the rank of an only child is too small to shrink under a long edge
      | none => (branch elmdir true false elm parent sib, false)
      | some (sLong, sLongSib, inner, s, outer) =>
        -- shorten edges descending from sib, retry
        if sLong ∧ sLongSib then
          (branch elmdir true false elm parent (branch elmdir false false inner s outer), true)
        else if sLongSib then
          match links elmdir inner with
          -- the short edge from `sib` does not end in a null child
          | none => (branch elmdir true false elm parent sib, false)
          | some (eLong, eLongSib, x, e, y) =>
            (branch elmdir true true
              (branch elmdir false eLong elm parent x) e
              (branch elmdir eLongSib false y s outer), false)
        else
          (branch elmdir sLong true
            (branch elmdir (!sLong) false elm parent inner) s outer, false)

/-- Cut the leftmost node out: its element, and what is left. -/
def removeMin : RbTree α → Option (α × RbTree α × Bool)
  | nil => none
  | node longL longR left elm right =>
    match removeMin left with
    | none => some (elm, right, true)
    | some (min, left, true) => some (min, removeColor .left longL longR left elm right)
    | some (min, left, false) => some (min, node longL longR left elm right, false)

/-- `RB_REMOVE` of a node with these fields: its only child takes its place, or the next
element. -/
def removeNode (longL longR : Bool) (left right : RbTree α) : RbTree α × Bool :=
  match removeMin right with
  | none => (left, true)
  | some (next, right', shrunk) =>
    match left with
    | nil => (right, true)
    | left =>
      if shrunk then removeColor .right longR longL right' next left
      else (node longL longR left next right', false)

/-- `RB_REMOVE`; a pointer knows its place in the tree, which is looked up here. -/
def removeAt [DecidableEq α] (out : α) : RbTree α → Option (RbTree α × Bool)
  | nil => none
  | node longL longR left elm right =>
    if elm = out then some (removeNode longL longR left right)
    else
      match removeAt out left with
      | some (left, true) => some (removeColor .left longL longR left elm right)
      | some (left, false) => some (node longL longR left elm right, false)
      | none =>
        match removeAt out right with
        | some (right, true) => some (removeColor .right longR longL right elm left)
        | some (right, false) => some (node longL longR left elm right, false)
        | none => none

/-- `RB_REMOVE`: the tree without a node, `none` where the node is not in it. -/
def remove [DecidableEq α] (t : RbTree α) (out : α) : Option (RbTree α) := (removeAt out t).map Prod.fst

end RbTree

end Ksrc.Source

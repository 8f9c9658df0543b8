import MiniWeb.Lib.Loop
import MiniWeb.UserStore.Shm

/-!
# The red-black index (`user_index.c`)

Each function works on the tree pool and on the `BST` it is given; the name of a node is read
from the list node its `user_off` names. The rotations and the two fixups come in the source as
two mirrored texts; here they are one text with a direction, and the source's names are its two
instances.

A loop runs under a bound of `USER_STORE_POOL_NODES` passes and answers `none` when it would go
on. The strings are never `NULL`, so the guards against `NULL` arguments have no counterpart.
-/

namespace MiniWeb.UserStore

open RedBlack Loop CStr

variable (lists : Off → ListNode)

/-- `LIST(x->user_off)->data.name`. -/
def nameAt (trees : Off → BSTnode) (x : Off) : CStr := (lists (trees x).userOff).data.name

/-! ## Rotations -/

namespace Index

/-- The three-way link update of a rotation and of a transplant: `v` comes to hang below `q`
where `u` hangs. -/
def relink (d : Dir) (q u v : Off) (t : Index) : Index :=
  if q = gNil then t.setRoot v
  else if u = (t.trees q).child d then t.setChild q d v
  else t.setChild q d.flip v

end Index

def rbtRotate (d : Dir) (t : Index) (x : Off) : Index :=
  let y := (t.trees x).child d.flip
  let t := t.setChild x d.flip ((t.trees y).child d)
  let t := if (t.trees y).child d = gNil then t else t.setParent ((t.trees y).child d) x
  let t := t.setParent y (t.trees x).parentOff
  let t := t.relink d (t.trees x).parentOff x y
  let t := t.setChild y d x
  t.setParent x y

def rbtLeftRotate (t : Index) (x : Off) : Index := rbtRotate .left t x
def rbtRightRotate (t : Index) (x : Off) : Index := rbtRotate .right t x

/-! ## Insertion -/

/-- The descent of `bst_insert`: `x` walks down, `y` is the node before it. -/
def bstInsertStep (trees : Off → BSTnode) (name : CStr) (s : Off × Off) : Step (Off × Off) Off :=
  let (x, y) := s
  if x = gNil then .done y
  else if (trees x).userOff ≠ 0 ∧ strcmp name (nameAt lists trees x) = .lt then
    .next ((trees x).leftOff, x)
  else .next ((trees x).rightOff, x)

/-- The body of `rbt_insert_fixup` when the parent `zp` is the `d`-child of `zpp`. -/
def rbtInsertFixupBody (d : Dir) (t : Index) (z zp zpp : Off) : Index × Off :=
  let y := (t.trees zpp).child d.flip
  if (t.trees y).color = .red then
    (((t.setColor zp .black).setColor y .black).setColor zpp .red, zpp)
  else if z = (t.trees zp).child d.flip then
    let z := zp
    let t := rbtRotate d t z
    let zp := (t.trees z).parentOff
    let zpp := (t.trees zp).parentOff
    (rbtRotate d.flip ((t.setColor zp .black).setColor zpp .red) zpp, z)
  else
    (rbtRotate d.flip ((t.setColor zp .black).setColor zpp .red) zpp, z)

def rbtInsertFixupStep (s : Index × Off) : Step (Index × Off) Index :=
  let (t, z) := s
  let zp := (t.trees z).parentOff
  if (t.trees zp).color = .red then
    let zpp := (t.trees zp).parentOff
    let d := if zp = (t.trees zpp).leftOff then Dir.left else Dir.right
    .next (rbtInsertFixupBody d t z zp zpp)
  else .done (t.setColor t.bst.rootOff .black)

def rbtInsertFixup (t : Index) (z : Off) : Option Index :=
  run rbtInsertFixupStep userStorePoolNodes (t, z)

/-- `bst_insert`: the node to insert is the one allocated last, slot `tree_next_free - 1`. -/
def bstInsert (treeNextFree : Nat) (t : Index) (user : Off) : Option Index :=
  let z := treeSlot (treeNextFree - 1)
  let name := (lists user).data.name
  let t := (((t.setChild z .left gNil).setChild z .right gNil).setColor z .red)
  (run (bstInsertStep lists t.trees name) userStorePoolNodes (t.bst.rootOff, gNil)).bind fun y =>
    let t := t.setParent z y
    let t :=
      if y = gNil then t.setRoot z
      else if (t.trees y).userOff ≠ 0 ∧ strcmp name (nameAt lists t.trees y) = .lt then
        t.setChild y .left z
      else t.setChild y .right z
    rbtInsertFixup (t.setSize (t.bst.size + 1)) z

/-! ## Search -/

def bstFindStep (trees : Off → BSTnode) (name : CStr) (x : Off) : Step Off Off :=
  if x = gNil then .done 0
  else if (trees x).userOff = 0 then .done 0
  else
    match strcmp name (nameAt lists trees x) with
    | .eq => .done (trees x).userOff
    | .lt => .next (trees x).leftOff
    | .gt => .next (trees x).rightOff

/-- `bst_find`: the list node of the first record of that name met on the way down. -/
def bstFind (t : Index) (name : CStr) : Option Off :=
  run (bstFindStep lists t.trees name) userStorePoolNodes t.bst.rootOff

/-! ## Deletion -/

def rbtMinimum (t : Index) (node : Off) : Option Off :=
  run
    (fun node => if (t.trees node).leftOff = gNil then .done node
      else .next (t.trees node).leftOff)
    userStorePoolNodes node

def rbtTransplant (t : Index) (u v : Off) : Index :=
  let t := t.relink .left (t.trees u).parentOff u v
  t.setParent v (t.trees u).parentOff

/-- The search of `bst_delete`: it stops at a node of that name, at a node without a user, or at
the sentinel. -/
def bstDeleteStep (trees : Off → BSTnode) (name : CStr) (z : Off) : Step Off Off :=
  if z = gNil then .done z
  else if (trees z).userOff = 0 then .done z
  else
    match strcmp name (nameAt lists trees z) with
    | .eq => .done z
    | .lt => .next (trees z).leftOff
    | .gt => .next (trees z).rightOff

/-- First half of the body of `rbt_delete_fixup`, for `x` the `d`-child of `xp`: a red sibling is
rotated away. Answers the tree, the parent and the sibling. -/
def rbtDeleteFixupRed (d : Dir) (t : Index) (x : Off) : Index × Off × Off :=
  let xp := (t.trees x).parentOff
  let w := (t.trees xp).child d.flip
  if (t.trees w).color = .red then
    let t := rbtRotate d ((t.setColor w .black).setColor xp .red) xp
    let xp := (t.trees x).parentOff
    (t, xp, (t.trees xp).child d.flip)
  else (t, xp, w)

/-- Second half: the sibling `w` is black. -/
def rbtDeleteFixupBlack (d : Dir) (t : Index) (x xp w : Off) : Index × Off :=
  let near := (t.trees w).child d
  let far := (t.trees w).child d.flip
  if (t.trees near).color = .black ∧ (t.trees far).color = .black then (t.setColor w .red, xp)
  else
    let (t, xp, w) :=
      if (t.trees far).color = .black then
        let t := rbtRotate d.flip ((t.setColor near .black).setColor w .red) w
        let xp := (t.trees x).parentOff
        (t, xp, (t.trees xp).child d.flip)
      else (t, xp, w)
    let t := (t.setColor w (t.trees xp).color).setColor xp .black
    let t := t.setColor ((t.trees w).child d.flip) .black
    let t := rbtRotate d t xp
    (t, t.bst.rootOff)

def rbtDeleteFixupStep (s : Index × Off) : Step (Index × Off) Index :=
  let (t, x) := s
  if x ≠ t.bst.rootOff ∧ (t.trees x).color = .black then
    let d := if x = (t.trees (t.trees x).parentOff).leftOff then Dir.left else Dir.right
    let (t, xp, w) := rbtDeleteFixupRed d t x
    .next (rbtDeleteFixupBlack d t x xp w)
  else .done (t.setColor x .black)

def rbtDeleteFixup (t : Index) (x : Off) : Option Index :=
  run rbtDeleteFixupStep userStorePoolNodes (t, x)

/-- `y`, the successor of `z`, leaves its place to its right child `x`. -/
def bstDetachSuccessor (t : Index) (z y x : Off) : Index :=
  if (t.trees y).parentOff = z then t.setParent x y
  else
    let t := rbtTransplant t y x
    let t := t.setChild y .right (t.trees z).rightOff
    t.setParent (t.trees y).rightOff y

/-- `y` takes the place, the left child and the colour of `z`. -/
def bstTakePlace (t : Index) (z y : Off) : Index :=
  let t := rbtTransplant t z y
  let t := t.setChild y .left (t.trees z).leftOff
  let t := t.setParent (t.trees y).leftOff y
  t.setColor y (t.trees z).color

/-- The part of `bst_delete` that takes `z` out of the tree. Answers the tree, the node `x` that
moved up and the colour that left its place. -/
def bstSplice (t : Index) (z : Off) : Option (Index × Off × Color) :=
  if (t.trees z).leftOff = gNil then
    some (rbtTransplant t z (t.trees z).rightOff, (t.trees z).rightOff, (t.trees z).color)
  else if (t.trees z).rightOff = gNil then
    some (rbtTransplant t z (t.trees z).leftOff, (t.trees z).leftOff, (t.trees z).color)
  else
    (rbtMinimum t (t.trees z).rightOff).map fun y =>
      let x := (t.trees y).rightOff
      (bstTakePlace (bstDetachSuccessor t z y x) z y, x, (t.trees y).color)

/-- `bst_delete`: `-1` when no node has that name. -/
def bstDelete (t : Index) (name : CStr) : Option (Int × Index) :=
  (run (bstDeleteStep lists t.trees name) userStorePoolNodes t.bst.rootOff).bind fun z =>
    if z = gNil then some (-1, t)
    else
      (bstSplice t z).bind fun (t, x, yOrigColor) =>
        let t := t.setUnused z
        (if yOrigColor = .black then rbtDeleteFixup t x else some t).map fun t =>
          (0, t.setSize (t.bst.size - 1))

end MiniWeb.UserStore

import MiniWeb.UserStore.Store

/-!
# The index operations with their checks

The functions of `user_index.c` once more, each with what its author relied on: the grandparent,
the sibling and the child a rotation lifts are not the sentinel, no link of the sentinel is
written and no write changes its colour, and a fixup takes no more passes than the tree is high.
A check that fails answers `none`; otherwise every function here computes what the one without
`Guarded` does.
-/

namespace MiniWeb.UserStore

open RedBlack Loop CStr

namespace Index

/-- Write a child link of a node that is not the sentinel. -/
def putChild (t : Index) (a : Off) (d : Dir) (v : Off) : Option Index :=
  if a = gNil then none else some (t.setChild a d v)

/-- Write a colour; the sentinel may only be given the colour it has. -/
def putColor (t : Index) (a : Off) (c : Color) : Option Index :=
  if a = gNil ∧ (t.trees gNil).color ≠ c then none else some (t.setColor a c)

/-- The height of the tree below an offset, followed to a depth. -/
def heightBelow (t : Index) : Nat → Off → Nat
  | 0, _ => 0
  | depth + 1, a =>
    if a = gNil then 0
    else max (t.heightBelow depth (t.trees a).leftOff) (t.heightBelow depth (t.trees a).rightOff) + 1

/-- The height of the tree of an index. -/
def height (t : Index) : Nat := t.heightBelow userStorePoolNodes t.bst.rootOff

def relinkGuarded (d : Dir) (q u v : Off) (t : Index) : Option Index :=
  if q = gNil then some (t.setRoot v)
  else if u = (t.trees q).child d then t.putChild q d v
  else t.putChild q d.flip v

end Index

/-- A rotation lifts a child that is a node. -/
def rbtRotateGuarded (d : Dir) (t : Index) (x : Off) : Option Index :=
  let y := (t.trees x).child d.flip
  if y = gNil then none
  else
    (t.putChild x d.flip ((t.trees y).child d)).bind fun t =>
      let t := if (t.trees y).child d = gNil then t else t.setParent ((t.trees y).child d) x
      let t := t.setParent y (t.trees x).parentOff
      (t.relinkGuarded d (t.trees x).parentOff x y).bind fun t =>
        (t.putChild y d x).map fun t => t.setParent x y

/-! ## Insertion -/

/-- The two colours and the rotation that end a pass. -/
def rbtInsertFixupTurnGuarded (d : Dir) (t : Index) (z zp zpp : Off) : Option (Index × Off) :=
  if zpp = gNil then none
  else
    (t.putColor zp .black).bind fun t =>
      (t.putColor zpp .red).bind fun t =>
        (rbtRotateGuarded d.flip t zpp).map fun t => (t, z)

def rbtInsertFixupBodyGuarded (d : Dir) (t : Index) (z zp zpp : Off) : Option (Index × Off) :=
  let y := (t.trees zpp).child d.flip
  if zpp = gNil then none
  else if (t.trees y).color = .red then
    (t.putColor zp .black).bind fun t =>
      (t.putColor y .black).bind fun t =>
        (t.putColor zpp .red).map fun t => (t, zpp)
  else if z = (t.trees zp).child d.flip then
    let z := zp
    (rbtRotateGuarded d t z).bind fun t =>
      let zp := (t.trees z).parentOff
      let zpp := (t.trees zp).parentOff
      rbtInsertFixupTurnGuarded d t z zp zpp
  else rbtInsertFixupTurnGuarded d t z zp zpp

def rbtInsertFixupStepGuarded (s : Index × Off) : Option (Step (Index × Off) Index) :=
  let (t, z) := s
  let zp := (t.trees z).parentOff
  if (t.trees zp).color = .red then
    let zpp := (t.trees zp).parentOff
    let d := if zp = (t.trees zpp).leftOff then Dir.left else Dir.right
    (rbtInsertFixupBodyGuarded d t z zp zpp).map .next
  else (t.putColor t.bst.rootOff .black).map .done

/-- At most `passes` passes, and the test that ends the loop. -/
def rbtInsertFixupGuarded (passes : Nat) (t : Index) (z : Off) : Option Index :=
  runChecked rbtInsertFixupStepGuarded (passes + 1) (t, z)

/-- The link `bst_insert` makes below `y`. -/
def linkBelowGuarded (lists : Off → ListNode) (t : Index) (name : CStr) (y z : Off) :
    Option Index :=
  if y = gNil then some (t.setRoot z)
  else if (t.trees y).userOff ≠ 0 ∧ strcmp name (nameAt lists t.trees y) = .lt then
    t.putChild y .left z
  else t.putChild y .right z

/-- `bst_insert`: the fixup has as many passes as the tree found was high. -/
def bstInsertGuarded (lists : Off → ListNode) (treeNextFree : Nat) (t : Index) (user : Off) :
    Option Index :=
  let z := treeSlot (treeNextFree - 1)
  let name := (lists user).data.name
  let passes := t.height
  (t.putChild z .left gNil).bind fun t =>
    (t.putChild z .right gNil).bind fun t =>
      (t.putColor z .red).bind fun t =>
        (run (bstInsertStep lists t.trees name) userStorePoolNodes (t.bst.rootOff, gNil)).bind
          fun y =>
            (linkBelowGuarded lists (t.setParent z y) name y z).bind fun t =>
              rbtInsertFixupGuarded passes (t.setSize (t.bst.size + 1)) z

/-! ## Deletion -/

def rbtTransplantGuarded (t : Index) (u v : Off) : Option Index :=
  (t.relinkGuarded .left (t.trees u).parentOff u v).map fun t =>
    t.setParent v (t.trees u).parentOff

def rbtDeleteFixupRedGuarded (d : Dir) (t : Index) (x : Off) : Option (Index × Off × Off) :=
  let xp := (t.trees x).parentOff
  let w := (t.trees xp).child d.flip
  if w = gNil then none
  else if (t.trees w).color = .red then
    (t.putColor w .black).bind fun t =>
      (t.putColor xp .red).bind fun t =>
        (rbtRotateGuarded d t xp).map fun t =>
          let xp := (t.trees x).parentOff
          (t, xp, (t.trees xp).child d.flip)
  else some (t, xp, w)

/-- The colours and the rotation of the last case. -/
def rbtDeleteFixupTurnGuarded (d : Dir) (t : Index) (xp w : Off) : Option (Index × Off) :=
  if w = gNil then none
  else
    (t.putColor w (t.trees xp).color).bind fun t =>
      (t.putColor xp .black).bind fun t =>
        (t.putColor ((t.trees w).child d.flip) .black).bind fun t =>
          (rbtRotateGuarded d t xp).map fun t => (t, t.bst.rootOff)

def rbtDeleteFixupBlackGuarded (d : Dir) (t : Index) (x xp w : Off) : Option (Index × Off) :=
  let near := (t.trees w).child d
  let far := (t.trees w).child d.flip
  if w = gNil then none
  else if (t.trees near).color = .black ∧ (t.trees far).color = .black then
    (t.putColor w .red).map fun t => (t, xp)
  else if (t.trees far).color = .black then
    (t.putColor near .black).bind fun t =>
      (t.putColor w .red).bind fun t =>
        (rbtRotateGuarded d.flip t w).bind fun t =>
          let xp := (t.trees x).parentOff
          rbtDeleteFixupTurnGuarded d t xp ((t.trees xp).child d.flip)
  else rbtDeleteFixupTurnGuarded d t xp w

def rbtDeleteFixupStepGuarded (s : Index × Off) : Option (Step (Index × Off) Index) :=
  let (t, x) := s
  if x ≠ t.bst.rootOff ∧ (t.trees x).color = .black then
    let d := if x = (t.trees (t.trees x).parentOff).leftOff then Dir.left else Dir.right
    (rbtDeleteFixupRedGuarded d t x).bind fun (t, xp, w) =>
      (rbtDeleteFixupBlackGuarded d t x xp w).map .next
  else (t.putColor x .black).map .done

/-- At most `passes` passes, and the test that ends the loop. -/
def rbtDeleteFixupGuarded (passes : Nat) (t : Index) (x : Off) : Option Index :=
  runChecked rbtDeleteFixupStepGuarded (passes + 1) (t, x)

def bstDetachSuccessorGuarded (t : Index) (z y x : Off) : Option Index :=
  if (t.trees y).parentOff = z then some (t.setParent x y)
  else
    (rbtTransplantGuarded t y x).bind fun t =>
      (t.putChild y .right (t.trees z).rightOff).map fun t => t.setParent (t.trees y).rightOff y

def bstTakePlaceGuarded (t : Index) (z y : Off) : Option Index :=
  (rbtTransplantGuarded t z y).bind fun t =>
    (t.putChild y .left (t.trees z).leftOff).bind fun t =>
      let t := t.setParent (t.trees y).leftOff y
      t.putColor y (t.trees z).color

def bstSpliceGuarded (t : Index) (z : Off) : Option (Index × Off × Color) :=
  if (t.trees z).leftOff = gNil then
    (rbtTransplantGuarded t z (t.trees z).rightOff).map fun t' =>
      (t', (t.trees z).rightOff, (t.trees z).color)
  else if (t.trees z).rightOff = gNil then
    (rbtTransplantGuarded t z (t.trees z).leftOff).map fun t' =>
      (t', (t.trees z).leftOff, (t.trees z).color)
  else
    (rbtMinimum t (t.trees z).rightOff).bind fun y =>
      let x := (t.trees y).rightOff
      (bstDetachSuccessorGuarded t z y x).bind fun t' =>
        (bstTakePlaceGuarded t' z y).map fun t' => (t', x, (t.trees y).color)

/-- `bst_delete`: the fixup has as many passes as the tree found was high. -/
def bstDeleteGuarded (lists : Off → ListNode) (t : Index) (name : CStr) : Option (Int × Index) :=
  let passes := t.height
  (run (bstDeleteStep lists t.trees name) userStorePoolNodes t.bst.rootOff).bind fun z =>
    if z = gNil then some (-1, t)
    else
      (bstSpliceGuarded t z).bind fun (t, x, yOrigColor) =>
        let t := t.setUnused z
        (if yOrigColor = .black then rbtDeleteFixupGuarded passes t x else some t).map fun t =>
          (0, t.setSize (t.bst.size - 1))

/-! ## The calls of the store -/

/-- `placeRecord`, for any insertion into the index. -/
def placeRecordWith
    (insert : (Off → ListNode) → Nat → Index → Off → Option Index) (elem : ElemType) (s : Store) :
    Option (Bool × Store) :=
  match listAlloc s.shm with
  | none => some (false, s)
  | some (node, shm) =>
    let s : Store := { s with shm := shm }
    let s := s.modifyList node fun n => { n with data := elem }
    let head := s.shm.header.headOff
    let s := s.modifyList node fun n => { n with nextOff := (s.shm.lists head).nextOff }
    let s := s.modifyList head fun n => { n with nextOff := node }
    match treeAlloc s.shm with
    | none => some (false, s)
    | some (tn, shm) =>
      let s : Store := { s with shm := shm }
      let t := s.index.modify tn fun n => { n with userOff := node }
      let t := (t.setChild tn .left gNil).setChild tn .right gNil
      let t := (t.setParent tn gNil).setColor tn .red
      (insert s.shm.lists s.shm.header.treeNextFree t node).map fun t => (true, s.withIndex t)

theorem placeRecordWith_bstInsert : placeRecordWith bstInsert = placeRecord := rfl

/-- `user_store_delete`, for any deletion from the index. -/
def userStoreDeleteWith
    (delete : (Off → ListNode) → Index → CStr → Option (Int × Index)) (name : CStr) (s : Store) :
    Option (Int × Store) :=
  let head := s.shm.header.headOff
  (run (userStoreDeleteStep s.shm.lists name) userStorePoolNodes
      (head, (s.shm.lists head).nextOff)).bind fun found =>
    match found with
    | none => some (-1, s)
    | some (prev, cur) =>
      let s := s.modifyList prev fun n => { n with nextOff := (s.shm.lists cur).nextOff }
      let s := s.modifyList cur fun n => { n with used := false }
      (delete s.shm.lists s.index name).map fun (_, t) =>
        (0, ((s.withIndex t).addSize (-1)).syncRoot)

theorem userStoreDeleteWith_bstDelete : userStoreDeleteWith bstDelete = userStoreDelete := rfl

end MiniWeb.UserStore

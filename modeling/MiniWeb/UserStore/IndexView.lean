import MiniWeb.Lib.TreeSplice
import MiniWeb.UserStore.Index

/-!
# The index as a linked tree

The functions of `user_index.c` that write links act on the linked tree seen through
`Index.view` as the generic operations do, and no function changes another part of a node.
-/

namespace MiniWeb.UserStore

open RedBlack Loop CStr

namespace Index

variable {B : Type} {f : BSTnode → B} (hf : LinkFree f) (t : Index)

theorem child_eq (a : Off) (d : Dir) : (t.trees a).child d = (t.view.cell a).child d :=
  (BSTnode.links_child _ _).symm
theorem leftOff_eq (a : Off) : (t.trees a).leftOff = (t.view.cell a).left := rfl
theorem rightOff_eq (a : Off) : (t.trees a).rightOff = (t.view.cell a).right := rfl
theorem parentOff_eq (a : Off) : (t.trees a).parentOff = (t.view.cell a).parent := rfl
theorem color_eq (a : Off) : (t.trees a).color = (t.view.cell a).color := rfl

theorem child_setColor (a b : Off) (c : Color) (d : Dir) :
    ((t.setColor b c).trees a).child d = (t.trees a).child d := by
  simp only [setColor, modify, Function.update_apply]
  split
  next h => rw [h]; cases d <;> rfl
  next => rfl

theorem view_relink (d : Dir) (q u v : Off) :
    (t.relink d q u v).view = t.view.relink gNil d q u v := by
  unfold relink Linked.relink
  rw [child_eq]
  split
  · rfl
  · split
    · exact view_setChild ..
    · exact view_setChild ..

include hf in
theorem kept_relink (d : Dir) (q u v : Off) : Kept f t (t.relink d q u v) := by
  unfold relink
  split
  · exact kept_setRoot ..
  · split
    · exact kept_setChild hf ..
    · exact kept_setChild hf ..

theorem view_rotate (d : Dir) (x : Off) : (rbtRotate d t x).view = t.view.rotate gNil d x := by
  unfold rbtRotate Linked.rotate
  simp only [child_eq, parentOff_eq, view_setParent, view_setChild, view_relink]
  split
  · simp only [view_setChild]
  · simp only [view_setParent, view_setChild]

include hf in
theorem kept_rotate (d : Dir) (x : Off) : Kept f t (rbtRotate d t x) := by
  unfold rbtRotate
  refine Kept.trans ?_ (kept_setParent hf ..)
  refine Kept.trans ?_ (kept_setChild hf ..)
  refine Kept.trans ?_ (kept_relink hf ..)
  refine Kept.trans ?_ (kept_setParent hf ..)
  split
  · exact kept_setChild hf ..
  · exact (kept_setChild hf ..).trans (kept_setParent hf ..)

theorem sameUsers_rotate (d : Dir) (x : Off) : SameUsers t (rbtRotate d t x) :=
  ⟨(kept_rotate linkFree_userOff t d x).eq⟩

theorem view_transplant (u v : Off) : (rbtTransplant t u v).view = t.view.transplant gNil u v := by
  unfold rbtTransplant Linked.transplant
  simp only [parentOff_eq, view_setParent, view_relink]

include hf in
theorem kept_transplant (u v : Off) : Kept f t (rbtTransplant t u v) :=
  (kept_relink hf ..).trans (kept_setParent hf ..)

theorem sameUsers_transplant (u v : Off) : SameUsers t (rbtTransplant t u v) :=
  ⟨(kept_transplant linkFree_userOff t u v).eq⟩

theorem view_takePlace (z y : Off) : (bstTakePlace t z y).view = t.view.takePlace gNil z y := by
  unfold bstTakePlace Linked.takePlace
  simp only [leftOff_eq, color_eq, view_setColor, view_setParent, view_setChild, view_transplant]

include hf in
theorem kept_takePlace (z y : Off) : Kept f t (bstTakePlace t z y) := by
  unfold bstTakePlace
  refine Kept.trans ?_ (kept_setColor hf ..)
  refine Kept.trans ?_ (kept_setParent hf ..)
  exact (kept_transplant hf ..).trans (kept_setChild hf ..)

theorem sameUsers_takePlace (z y : Off) : SameUsers t (bstTakePlace t z y) :=
  ⟨(kept_takePlace linkFree_userOff t z y).eq⟩

theorem view_detachSuccessor (z y x : Off) :
    (bstDetachSuccessor t z y x).view = t.view.detach gNil z y x := by
  unfold bstDetachSuccessor Linked.detach
  by_cases h : (t.trees y).parentOff = z
  · rw [if_pos h, if_pos (show (t.view.cell y).parent = z from h)]
    exact view_setParent ..
  · rw [if_neg h, if_neg (show (t.view.cell y).parent ≠ z from h)]
    simp only [rightOff_eq, view_setParent, view_setChild, view_transplant]

include hf in
theorem kept_detachSuccessor (z y x : Off) : Kept f t (bstDetachSuccessor t z y x) := by
  unfold bstDetachSuccessor
  split
  · exact kept_setParent hf ..
  · exact ((kept_transplant hf ..).trans (kept_setChild hf ..)).trans (kept_setParent hf ..)

theorem sameUsers_detachSuccessor (z y x : Off) : SameUsers t (bstDetachSuccessor t z y x) :=
  ⟨(kept_detachSuccessor linkFree_userOff t z y x).eq⟩

end Index

end MiniWeb.UserStore

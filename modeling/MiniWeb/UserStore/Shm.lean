import MiniWeb.Lib.CString
import MiniWeb.Lib.LinkedTree

/-!
# The shared user store: data

The store lives in one mmap region: a header, a pool of list nodes and a pool of tree nodes.
Every pointer into the region is an `int32_t` byte offset from its base, with `0` for `NULL`, and
since the region is mapped at one address in every process a pointer is modelled by its offset.
The two pools are zero-filled maps from offsets to nodes.

What a process keeps outside the region is its copy of `g_user_bst`.
-/

namespace MiniWeb.UserStore

open RedBlack

/-- A byte offset from `g_shm_base`; `0` is `NULL`. -/
abbrev Off := Nat

def userStoreMaxNodes : Nat := 200000
def userStorePoolNodes : Nat := userStoreMaxNodes + 1000

def sizeofShmHeader : Nat := 80
def sizeofListNode : Nat := 284
def sizeofBSTnode : Nat := 24

/-- `OFF_L(&g_list_pool[i])`. -/
def listSlot (i : Nat) : Off := sizeofShmHeader + i * sizeofListNode

/-- `OFF_T(&g_tree_pool[i])`. -/
def treeSlot (i : Nat) : Off :=
  sizeofShmHeader + userStorePoolNodes * sizeofListNode + i * sizeofBSTnode

/-- `OFF_T(g_nil)`: the sentinel is slot 0 of the tree pool. -/
def gNil : Off := treeSlot 0

theorem listSlot_inj {i j : Nat} (h : listSlot i = listSlot j) : i = j := by
  have h' : 80 + i * 284 = 80 + j * 284 := h
  omega

theorem treeSlot_inj {i j : Nat} (h : treeSlot i = treeSlot j) : i = j := by
  have h' : 80 + 201000 * 284 + i * 24 = 80 + 201000 * 284 + j * 24 := h
  omega

theorem listSlot_ne_zero (i : Nat) : listSlot i ≠ 0 := by
  have h' : 80 + i * 284 ≠ 0 := by omega
  exact h'

theorem treeSlot_ne_zero (i : Nat) : treeSlot i ≠ 0 := by
  have h' : 80 + 201000 * 284 + i * 24 ≠ 0 := by omega
  exact h'

theorem treeSlot_ne_gNil {i : Nat} (h : 0 < i) : treeSlot i ≠ gNil := by
  intro h0
  have := treeSlot_inj h0
  omega

/-- `UsrInfo`. -/
structure ElemType where
  name : CStr
  password : CStr
  birthdate : CStr
  phone : CStr
  mobile : CStr
  email : CStr
deriving DecidableEq, Repr

def ElemType.zero : ElemType := ⟨[], [], [], [], [], []⟩

structure ListNode where
  data : ElemType
  nextOff : Off
  used : Bool
deriving DecidableEq, Repr

def ListNode.zero : ListNode := ⟨.zero, 0, false⟩

/-- A tree node. `RBT_RED` is `0`, so a zeroed node is red. -/
structure BSTnode where
  userOff : Off
  leftOff : Off
  rightOff : Off
  parentOff : Off
  color : Color
  used : Bool
deriving DecidableEq, Repr

def BSTnode.zero : BSTnode := ⟨0, 0, 0, 0, .red, false⟩

namespace BSTnode

def child (n : BSTnode) : Dir → Off
  | .left => n.leftOff
  | .right => n.rightOff

def setChild (n : BSTnode) (d : Dir) (v : Off) : BSTnode :=
  match d with
  | .left => { n with leftOff := v }
  | .right => { n with rightOff := v }

/-- The tree structure of a node. -/
def links (n : BSTnode) : Links Off := ⟨n.leftOff, n.rightOff, n.parentOff, n.color⟩

@[simp] theorem links_child (n : BSTnode) (d : Dir) : n.links.child d = n.child d := by
  cases d <;> rfl
@[simp] theorem links_parent (n : BSTnode) : n.links.parent = n.parentOff := rfl
@[simp] theorem links_color (n : BSTnode) : n.links.color = n.color := rfl
@[simp] theorem links_left (n : BSTnode) : n.links.left = n.leftOff := rfl
@[simp] theorem links_right (n : BSTnode) : n.links.right = n.rightOff := rfl
@[simp] theorem links_setChild (n : BSTnode) (d : Dir) (v : Off) :
    (n.setChild d v).links = n.links.setChild d v := by cases d <;> rfl
@[simp] theorem userOff_setChild (n : BSTnode) (d : Dir) (v : Off) :
    (n.setChild d v).userOff = n.userOff := by cases d <;> rfl
theorem used_setChild (n : BSTnode) (d : Dir) (v : Off) : (n.setChild d v).used = n.used := by
  cases d <;> rfl

end BSTnode

/-- `shm_header_t`, less the mutex: every operation runs under it as a whole. -/
structure ShmHeader where
  headOff : Off
  rootOff : Off
  nilOff : Off
  size : Int
  listNextFree : Nat
  treeNextFree : Nat
deriving DecidableEq, Repr

/-- The mapped region. -/
structure Shm where
  header : ShmHeader
  lists : Off → ListNode
  trees : Off → BSTnode

/-- `BST`, the type of `g_user_bst`. -/
structure BST where
  rootOff : Off
  nilOff : Off
  size : Int
deriving DecidableEq, Repr

/-- What one process sees: the region and its own `g_user_bst`. -/
structure Store where
  shm : Shm
  bst : BST

/-- What the functions of `user_index.c` change: the tree pool and the `BST` they are given. -/
structure Index where
  trees : Off → BSTnode
  bst : BST

def Store.index (s : Store) : Index := ⟨s.shm.trees, s.bst⟩

def Store.withIndex (s : Store) (t : Index) : Store :=
  { shm := { s.shm with trees := t.trees }, bst := t.bst }

namespace Index

def modify (t : Index) (a : Off) (f : BSTnode → BSTnode) : Index :=
  { t with trees := Function.update t.trees a (f (t.trees a)) }

def setChild (t : Index) (a : Off) (d : Dir) (v : Off) : Index := t.modify a (·.setChild d v)
def setParent (t : Index) (a v : Off) : Index := t.modify a fun n => { n with parentOff := v }
def setColor (t : Index) (a : Off) (c : Color) : Index := t.modify a fun n => { n with color := c }
def setUnused (t : Index) (a : Off) : Index := t.modify a fun n => { n with used := false }
def setRoot (t : Index) (a : Off) : Index := { t with bst := { t.bst with rootOff := a } }
def setSize (t : Index) (n : Int) : Index := { t with bst := { t.bst with size := n } }

/-- The tree structure of the pool, forgetting users and flags. -/
def view (t : Index) : Linked Off := ⟨fun a => (t.trees a).links, t.bst.rootOff⟩

@[simp] theorem view_cell (t : Index) (a : Off) : t.view.cell a = (t.trees a).links := rfl
@[simp] theorem view_root (t : Index) : t.view.root = t.bst.rootOff := rfl

theorem view_modify (t : Index) (a : Off) (f : BSTnode → BSTnode) :
    (t.modify a f).view = t.view.update a (f (t.trees a)).links := by
  simp only [view, modify, Linked.update]
  congr 1
  funext b
  simp only [Function.update_apply]
  split <;> rfl

theorem view_setChild (t : Index) (a : Off) (d : Dir) (v : Off) :
    (t.setChild a d v).view = t.view.setChild a d v := by
  rw [setChild, view_modify, BSTnode.links_setChild]
  rfl

theorem view_setParent (t : Index) (a v : Off) :
    (t.setParent a v).view = t.view.setParent a v := view_modify ..

theorem view_setColor (t : Index) (a : Off) (c : Color) :
    (t.setColor a c).view = t.view.setColor a c := view_modify ..

@[simp] theorem view_setSize (t : Index) (n : Int) : (t.setSize n).view = t.view := rfl

@[simp] theorem view_setUnused (t : Index) (a : Off) : (t.setUnused a).view = t.view := by
  rw [setUnused, view_modify]
  simp only [view, Linked.update]
  congr 1
  exact Function.update_eq_self ..

/-! ## Parts of a node that stay -/

/-- A part of a node that no write of a link or a colour touches. -/
structure LinkFree {B : Type} (f : BSTnode → B) : Prop where
  child : ∀ n d v, f (n.setChild d v) = f n
  parent : ∀ (n : BSTnode) v, f { n with parentOff := v } = f n
  color : ∀ (n : BSTnode) c, f { n with color := c } = f n

theorem linkFree_userOff : LinkFree BSTnode.userOff :=
  ⟨BSTnode.userOff_setChild, fun _ _ => rfl, fun _ _ => rfl⟩

theorem linkFree_used : LinkFree BSTnode.used :=
  ⟨BSTnode.used_setChild, fun _ _ => rfl, fun _ _ => rfl⟩

/-- Every node has the same part before and after. -/
structure Kept {B : Type} (f : BSTnode → B) (t t' : Index) : Prop where
  eq : ∀ a, f (t'.trees a) = f (t.trees a)

section Kept

variable {B : Type} {f : BSTnode → B} {t t' t'' : Index}

theorem Kept.refl (t : Index) : Kept f t t := ⟨fun _ => rfl⟩

theorem Kept.trans (h : Kept f t t') (h' : Kept f t' t'') : Kept f t t'' :=
  ⟨fun a => (h'.eq a).trans (h.eq a)⟩

theorem kept_modify (t : Index) (a : Off) {g : BSTnode → BSTnode} (hg : ∀ n, f (g n) = f n) :
    Kept f t (t.modify a g) := by
  refine ⟨fun b => ?_⟩
  simp only [modify, Function.update_apply]
  split
  · next h => rw [hg, h]
  · rfl

theorem kept_setChild (hf : LinkFree f) (t : Index) (a : Off) (d : Dir) (v : Off) :
    Kept f t (t.setChild a d v) := kept_modify t a fun n => hf.child n d v
theorem kept_setParent (hf : LinkFree f) (t : Index) (a v : Off) : Kept f t (t.setParent a v) :=
  kept_modify t a fun n => hf.parent n v
theorem kept_setColor (hf : LinkFree f) (t : Index) (a : Off) (c : Color) :
    Kept f t (t.setColor a c) := kept_modify t a fun n => hf.color n c
theorem kept_setUnused (hf : ∀ n : BSTnode, f { n with used := false } = f n) (t : Index)
    (a : Off) : Kept f t (t.setUnused a) := kept_modify t a hf
theorem kept_setRoot (t : Index) (a : Off) : Kept f t (t.setRoot a) := ⟨fun _ => rfl⟩
theorem kept_setSize (t : Index) (n : Int) : Kept f t (t.setSize n) := ⟨fun _ => rfl⟩

end Kept

/-- Every node names the same user before and after. -/
structure SameUsers (t t' : Index) : Prop where
  userOff : ∀ a, (t'.trees a).userOff = (t.trees a).userOff

theorem SameUsers.refl (t : Index) : SameUsers t t := ⟨fun _ => rfl⟩

theorem SameUsers.trans {t t' t'' : Index} (h : SameUsers t t') (h' : SameUsers t' t'') :
    SameUsers t t'' := ⟨fun a => (h'.userOff a).trans (h.userOff a)⟩

theorem sameUsers_setChild (t : Index) (a : Off) (d : Dir) (v : Off) :
    SameUsers t (t.setChild a d v) := ⟨(kept_setChild linkFree_userOff ..).eq⟩
theorem sameUsers_setParent (t : Index) (a v : Off) : SameUsers t (t.setParent a v) :=
  ⟨(kept_setParent linkFree_userOff ..).eq⟩
theorem sameUsers_setColor (t : Index) (a : Off) (c : Color) : SameUsers t (t.setColor a c) :=
  ⟨(kept_setColor linkFree_userOff ..).eq⟩
theorem sameUsers_setUnused (t : Index) (a : Off) : SameUsers t (t.setUnused a) :=
  ⟨(kept_setUnused (fun _ => rfl) ..).eq⟩
theorem sameUsers_setRoot (t : Index) (a : Off) : SameUsers t (t.setRoot a) := ⟨fun _ => rfl⟩
theorem sameUsers_setSize (t : Index) (n : Int) : SameUsers t (t.setSize n) := ⟨fun _ => rfl⟩

end Index

end MiniWeb.UserStore

import MiniWeb.Lib.RedBlack
import Mathlib.Logic.Function.Basic

/-!
# Trees laid out as linked cells

A cell holds the addresses of its children and of its parent and a colour; absent children and
the parent of the root are one shared sentinel address. `Layout g nil q t` says that the cells of
`g` lay out the tree `t` of addresses below the cell `q`, and `Zip g nil p t` that they lay out
the whole tree with the subtree `t` at the place `p`.

The sentinel's own cell is never part of a represented tree. Its parent field may hold anything,
which is what lets an algorithm use it as scratch space.

The writes a tree algorithm makes are `setChild`, `setParent` and `setColor`; a rotation and a
transplant are compositions of them. Each has a lemma saying what the cells lay out afterwards.
-/

namespace MiniWeb.RedBlack

open ColorTree TreePath

universe u

/-- What a cell says about the tree. -/
structure Links (A : Type u) where
  left : A
  right : A
  parent : A
  color : Color

namespace Links

variable {A : Type u}

def child (l : Links A) : Dir → A
  | .left => l.left
  | .right => l.right

def setChild (l : Links A) (d : Dir) (a : A) : Links A :=
  match d with
  | .left => { l with left := a }
  | .right => { l with right := a }

/-- The cell whose `d`-child is `near` and whose other child is `far`. -/
def build : Dir → A → A → A → Color → Links A
  | .left, near, far, p, c => ⟨near, far, p, c⟩
  | .right, near, far, p, c => ⟨far, near, p, c⟩

theorem build_flip (d : Dir) (x y p : A) (c : Color) : build d.flip x y p c = build d y x p c := by
  cases d <;> rfl

@[simp] theorem child_build (d : Dir) (x y p : A) (c : Color) : (build d x y p c).child d = x := by
  cases d <;> rfl
@[simp] theorem child_flip_build (d : Dir) (x y p : A) (c : Color) :
    (build d x y p c).child d.flip = y := by cases d <;> rfl
@[simp] theorem parent_build (d : Dir) (x y p : A) (c : Color) : (build d x y p c).parent = p := by
  cases d <;> rfl
@[simp] theorem color_build (d : Dir) (x y p : A) (c : Color) : (build d x y p c).color = c := by
  cases d <;> rfl
@[simp] theorem setChild_build (d : Dir) (x y p v : A) (c : Color) :
    (build d x y p c).setChild d v = build d v y p c := by cases d <;> rfl
@[simp] theorem setChild_flip_build (d : Dir) (x y p v : A) (c : Color) :
    (build d x y p c).setChild d.flip v = build d x v p c := by cases d <;> rfl
@[simp] theorem setParent_build (d : Dir) (x y p v : A) (c : Color) :
    { build d x y p c with parent := v } = build d x y v c := by cases d <;> rfl
@[simp] theorem setColor_build (d : Dir) (x y p : A) (c k : Color) :
    { build d x y p c with color := k } = build d x y p k := by cases d <;> rfl
@[simp] theorem parent_setChild (l : Links A) (d : Dir) (v : A) :
    (l.setChild d v).parent = l.parent := by cases d <;> rfl
@[simp] theorem color_setChild (l : Links A) (d : Dir) (v : A) :
    (l.setChild d v).color = l.color := by cases d <;> rfl

end Links

/-- Cells by address, and the address of the root. -/
structure Linked (A : Type u) where
  cell : A → Links A
  root : A

variable {A : Type u}

/-- The address of a tree: its root's label, or the sentinel. -/
def ColorTree.addr (nil : A) : ColorTree A → A
  | .nil => nil
  | .node _ _ a _ => a

/-- The address of the node above a place. -/
def TreePath.topAddr (nil : A) : TreePath A → A
  | [] => nil
  | f :: _ => f.label

@[simp] theorem ColorTree.addr_nil (nil : A) : (ColorTree.nil : ColorTree A).addr nil = nil := rfl
@[simp] theorem ColorTree.addr_node (nil : A) (c : Color) (l : ColorTree A) (a : A)
    (r : ColorTree A) :
    (ColorTree.node c l a r).addr nil = a := rfl
@[simp] theorem ColorTree.addr_build (nil : A) (d : Dir) (c : Color) (t : ColorTree A) (a : A)
    (s : ColorTree A) : (build d c t a s).addr nil = a := by cases d <;> rfl
@[simp] theorem ColorTree.addr_blacken (nil : A) (t : ColorTree A) :
    t.blacken.addr nil = t.addr nil := by
  cases t <;> rfl
@[simp] theorem TreePath.topAddr_nil (nil : A) : TreePath.topAddr nil ([] : TreePath A) = nil := rfl
@[simp] theorem TreePath.topAddr_cons (nil : A) (f : Frame A) (p : TreePath A) :
    TreePath.topAddr nil (f :: p) = f.label := rfl

theorem ColorTree.addr_mem (nil : A) {t : ColorTree A} (h : t ≠ .nil) : t.addr nil ∈ t.toList := by
  cases t with
  | nil => exact absurd rfl h
  | node c l a r => simp

/-- The address above a place is the sentinel or a label of the context. -/
theorem topAddr_eq_or_mem (nil : A) (p : TreePath A) :
    topAddr nil p = nil ∨ topAddr nil p ∈ labels p := by
  cases p with
  | nil => exact Or.inl rfl
  | cons f p => exact Or.inr (mem_labels_cons.mpr (Or.inl rfl))

theorem addr_eq_or_mem (nil : A) (t : ColorTree A) : t.addr nil = nil ∨ t.addr nil ∈ t.toList := by
  cases t with
  | nil => exact Or.inl rfl
  | node c l a r => exact Or.inr (by simp)

/-! ## Layout -/

/-- The cells lay out `t` below the cell `q`. -/
def Layout (g : Linked A) (nil : A) : A → ColorTree A → Prop
  | _, .nil => True
  | q, .node c l a r =>
    a ≠ nil ∧ g.cell a = ⟨l.addr nil, r.addr nil, q, c⟩ ∧ Layout g nil a l ∧ Layout g nil a r

/-- The cells lay out the context `p` of a place whose subtree has the address `c`. -/
def LayoutPath (g : Linked A) (nil : A) : TreePath A → A → Prop
  | [], c => g.root = c
  | f :: p, c =>
    f.label ≠ nil ∧
      g.cell f.label = Links.build f.dir c (f.sibling.addr nil) (topAddr nil p) f.color ∧
      Layout g nil f.label f.sibling ∧ LayoutPath g nil p f.label

/-- The cells lay out a tree with the subtree `t` at the place `p`. -/
def Zip (g : Linked A) (nil : A) (p : TreePath A) (t : ColorTree A) : Prop :=
  LayoutPath g nil p (t.addr nil) ∧ Layout g nil (topAddr nil p) t

section Layout

variable {g g' : Linked A} {nil : A}

@[simp] theorem rep_nil {q : A} : Layout g nil q .nil := trivial

theorem rep_build {d : Dir} {c : Color} {t s : ColorTree A} {a q : A} :
    Layout g nil q (build d c t a s) ↔
      a ≠ nil ∧ g.cell a = Links.build d (t.addr nil) (s.addr nil) q c ∧
        Layout g nil a t ∧ Layout g nil a s := by
  cases d
  · exact Iff.rfl
  · simp only [build, Layout, Links.build]
    tauto

theorem Layout.ne_nil {q : A} {t : ColorTree A} (h : Layout g nil q t) :
    ∀ x ∈ t.toList, x ≠ nil := by
  induction t generalizing q with
  | nil => intro x hx; cases hx
  | node c l a r ihl ihr =>
    obtain ⟨ha, -, hl, hr⟩ := h
    intro x hx
    rw [toList_node, List.mem_append, List.mem_cons] at hx
    rcases hx with hx | rfl | hx
    · exact ihl hl x hx
    · exact ha
    · exact ihr hr x hx

theorem LayoutPath.ne_nil {p : TreePath A} {c : A} (h : LayoutPath g nil p c) :
    ∀ x ∈ labels p, x ≠ nil := by
  induction p generalizing c with
  | nil => intro x hx; cases hx
  | cons f p ih =>
    obtain ⟨ha, -, hs, hp⟩ := h
    intro x hx
    rcases mem_labels_cons.mp hx with rfl | hx | hx
    · exact ha
    · exact hs.ne_nil x hx
    · exact ih hp x hx

/-- The address of a laid out subtree is the sentinel only for the empty tree. -/
theorem Layout.addr_eq_nil {q : A} {t : ColorTree A} (h : Layout g nil q t) :
    t.addr nil = nil ↔ t = .nil := by
  cases t with
  | nil => simp
  | node c l a r => simp [h.1]

theorem LayoutPath.topAddr_eq_nil {p : TreePath A} {c : A} (h : LayoutPath g nil p c) :
    topAddr nil p = nil ↔ p = [] := by
  cases p with
  | nil => simp
  | cons f p =>
    obtain ⟨ha, -⟩ := h
    simp [ha]

/-- **Frame rule**: a layout depends only on the cells of its labels. -/
theorem Layout.congr {q : A} {t : ColorTree A} (h : Layout g nil q t)
    (hag : ∀ x ∈ t.toList, g'.cell x = g.cell x) : Layout g' nil q t := by
  induction t generalizing q with
  | nil => trivial
  | node c l a r ihl ihr =>
    obtain ⟨ha, hc, hl, hr⟩ := h
    refine ⟨ha, (hag a (by simp)).trans hc, ihl hl ?_, ihr hr ?_⟩
    · intro x hx; exact hag x (by simp [hx])
    · intro x hx; exact hag x (by simp [hx])

theorem LayoutPath.congr {p : TreePath A} {c : A} (h : LayoutPath g nil p c)
    (hroot : g'.root = g.root)
    (hag : ∀ x ∈ labels p, g'.cell x = g.cell x) : LayoutPath g' nil p c := by
  induction p generalizing c with
  | nil => exact hroot.trans h
  | cons f p ih =>
    obtain ⟨ha, hc, hs, hp⟩ := h
    refine ⟨ha, (hag _ (mem_labels_cons.mpr (Or.inl rfl))).trans hc, hs.congr ?_, ih hp ?_⟩
    · intro x hx; exact hag x (mem_labels_cons.mpr (Or.inr (Or.inl hx)))
    · intro x hx; exact hag x (mem_labels_cons.mpr (Or.inr (Or.inr hx)))

/-- A subtree moved below another cell: only its root's parent changes. -/
theorem Layout.move {q q' : A} {t : ColorTree A} (h : Layout g nil q t) (hnd : t.toList.Nodup)
    (hroot : t ≠ .nil → g'.cell (t.addr nil) = { g.cell (t.addr nil) with parent := q' })
    (hag : ∀ x ∈ t.toList, x ≠ t.addr nil → g'.cell x = g.cell x) : Layout g' nil q' t := by
  cases t with
  | nil => trivial
  | node c l a r =>
    obtain ⟨ha, hc, hl, hr⟩ := h
    simp only [toList_node] at hnd hag
    have hal : a ∉ l.toList ∧ a ∉ r.toList := by
      have := (List.perm_middle.nodup_iff).mp hnd
      rw [List.nodup_cons, List.mem_append, not_or] at this
      exact this.1
    refine ⟨ha, ?_, hl.congr ?_, hr.congr ?_⟩
    · have := hroot (by simp)
      simp only [addr_node] at this
      rw [this, hc]
    · intro x hx
      exact hag x (by simp [hx]) (fun he => hal.1 (by rw [addr_node] at he; exact he ▸ hx))
    · intro x hx
      exact hag x (by simp [hx]) (fun he => hal.2 (by rw [addr_node] at he; exact he ▸ hx))

/-- The context with another subtree address below it: only the child field of the nearest
ancestor changes, or the root when there is none. -/
theorem LayoutPath.redirect {p : TreePath A} {c c' : A} (h : LayoutPath g nil p c)
    (hnd : (labels p).Nodup) (hroot : p = [] → g'.root = c') (hroot' : p ≠ [] → g'.root = g.root)
    (htop : ∀ f q, p = f :: q → g'.cell f.label = (g.cell f.label).setChild f.dir c')
    (hag : ∀ x ∈ labels p, x ≠ topAddr nil p → g'.cell x = g.cell x) : LayoutPath g' nil p c' := by
  cases p with
  | nil => exact hroot rfl
  | cons f p =>
    obtain ⟨ha, hc, hs, hp⟩ := h
    have hf : f.label ∉ f.sibling.toList ∧ f.label ∉ labels p := by
      have hperm : (labels (f :: p)).Perm (f.label :: (f.sibling.toList ++ labels p)) := by
        have h1 := toList_plug_perm (f :: p) .nil
        have h2 := toList_plug_perm p (f.attach .nil)
        have h3 := toList_build_perm f.dir f.color .nil f.label f.sibling
        simp only [plug_cons, toList_nil, List.nil_append] at h1 h2 h3
        exact h1.symm.trans (h2.trans (h3.append_right _))
      have := hperm.nodup_iff.mp hnd
      rw [List.nodup_cons, List.mem_append, not_or] at this
      exact this.1
    refine ⟨ha, ?_, hs.congr ?_, hp.congr (hroot' (by simp)) ?_⟩
    · rw [htop f p rfl, hc, Links.setChild_build]
    · intro x hx
      refine hag x (mem_labels_cons.mpr (Or.inr (Or.inl hx))) ?_
      rintro rfl
      exact hf.1 hx
    · intro x hx
      refine hag x (mem_labels_cons.mpr (Or.inr (Or.inr hx))) ?_
      rintro rfl
      exact hf.2 hx

/-- Moving the place one level down or up. -/
theorem zip_cons {f : Frame A} {p : TreePath A} {t : ColorTree A} :
    Zip g nil (f :: p) t ↔ Zip g nil p (f.attach t) := by
  rcases f with ⟨d, c, a, s⟩
  simp only [Zip, Frame.attach, rep_build, LayoutPath, topAddr_cons, addr_build]
  tauto

/-- The layout of a place is the layout of the whole tree. -/
theorem zip_plug {p : TreePath A} {t : ColorTree A} : Zip g nil p t ↔ Zip g nil [] (plug p t) := by
  induction p generalizing t with
  | nil => exact Iff.rfl
  | cons f p ih => rw [zip_cons, ih]; rfl

theorem Zip.ne_nil {p : TreePath A} {t : ColorTree A} (h : Zip g nil p t) :
    ∀ x ∈ (plug p t).toList, x ≠ nil := by
  intro x hx
  rcases mem_toList_plug.mp hx with hx | hx
  · exact h.2.ne_nil x hx
  · exact h.1.ne_nil x hx

/-- The parent field of a nonempty subtree at a place names the nearest ancestor. -/
theorem Zip.parent {p : TreePath A} {t : ColorTree A} (h : Zip g nil p t) (ht : t ≠ .nil) :
    (g.cell (t.addr nil)).parent = topAddr nil p := by
  cases t with
  | nil => exact absurd rfl ht
  | node c l a r => rw [addr_node, h.2.2.1]

theorem Layout.color {q : A} {t : ColorTree A} (h : Layout g nil q t)
    (hnil : (g.cell nil).color = .black) :
    (g.cell (t.addr nil)).color = t.color := by
  cases t with
  | nil => exact hnil
  | node c l a r => rw [addr_node, h.2.1]; rfl

end Layout

/-- What the labels of a place being distinct says about the two nodes of a rotation. -/
structure RotateDisjoint (p : TreePath A) (a b e : ColorTree A) (x y : A) : Prop where
  ne : x ≠ y
  x_notMem : x ∉ a.toList ∧ x ∉ b.toList ∧ x ∉ e.toList ∧ x ∉ labels p
  y_notMem : y ∉ a.toList ∧ y ∉ b.toList ∧ y ∉ e.toList ∧ y ∉ labels p
  path : ∀ z ∈ labels p, z ∉ a.toList ∧ z ∉ b.toList ∧ z ∉ e.toList
  trees : (∀ z ∈ b.toList, z ∉ a.toList ∧ z ∉ e.toList)
  nodup : b.toList.Nodup ∧ (labels p).Nodup

theorem RotateDisjoint.of_nodup {p : TreePath A} {d : Dir} {cx cy : Color} {a b e : ColorTree A}
    {x y : A} (h : (plug p (build d cx a x (build d cy b y e))).toList.Nodup) :
    RotateDisjoint p a b e x y := by
  have hperm : (plug p (build d cx a x (build d cy b y e))).toList.Perm
      (x :: y :: (b.toList ++ (a.toList ++ (e.toList ++ labels p)))) := by
    refine (toList_plug_perm p _).trans ?_
    refine (((toList_build_perm d cx a x _).trans
      (((toList_build_perm d cy b y e).append_left a.toList).cons x)).append_right _).trans ?_
    simp only [List.cons_append, List.append_assoc]
    refine List.Perm.cons x ?_
    refine List.perm_middle.trans (List.Perm.cons y ?_)
    exact List.perm_append_comm_assoc _ _ _
  have hn := hperm.nodup_iff.mp h
  simp only [List.nodup_cons, List.mem_cons, List.mem_append, not_or, List.nodup_append',
    List.disjoint_left] at hn
  obtain ⟨⟨hxy, hxb, hxa, hxe, hxp⟩, ⟨hyb, hya, hye, hyp⟩, hb, ⟨-, ⟨-, hp, hep⟩, haep⟩, hbd⟩ := hn
  refine ⟨hxy, ⟨hxa, hxb, hxe, hxp⟩, ⟨hya, hyb, hye, hyp⟩, ?_, ?_, hb, hp⟩
  · intro z hz
    exact ⟨fun hza => (haep hza).2 hz, fun hzb => (hbd hzb).2.2 hz, fun hze => hep hze hz⟩
  · intro z hz
    exact ⟨(hbd hz).1, (hbd hz).2.1⟩

/-! ## Writes -/

def Linked.setRoot (g : Linked A) (a : A) : Linked A := { g with root := a }

@[simp] theorem Linked.setRoot_root (g : Linked A) (a : A) : (g.setRoot a).root = a := rfl
@[simp] theorem Linked.setRoot_cell (g : Linked A) (a : A) : (g.setRoot a).cell = g.cell := rfl

section Writes

variable [DecidableEq A]

namespace Linked

def update (g : Linked A) (a : A) (l : Links A) : Linked A :=
  { g with cell := Function.update g.cell a l }

def setChild (g : Linked A) (a : A) (d : Dir) (v : A) : Linked A :=
  g.update a ((g.cell a).setChild d v)

def setParent (g : Linked A) (a v : A) : Linked A :=
  g.update a { g.cell a with parent := v }

def setColor (g : Linked A) (a : A) (c : Color) : Linked A :=
  g.update a { g.cell a with color := c }

@[simp] theorem update_root (g : Linked A) (a : A) (l : Links A) : (g.update a l).root = g.root :=
  rfl
theorem update_cell (g : Linked A) (a b : A) (l : Links A) :
    (g.update a l).cell b = if b = a then l else g.cell b := Function.update_apply ..
@[simp] theorem setChild_root (g : Linked A) (a : A) (d : Dir) (v : A) :
    (g.setChild a d v).root = g.root := rfl
@[simp] theorem setParent_root (g : Linked A) (a v : A) : (g.setParent a v).root = g.root := rfl
@[simp] theorem setColor_root (g : Linked A) (a : A) (c : Color) :
    (g.setColor a c).root = g.root := rfl
theorem setChild_cell (g : Linked A) (a b v : A) (d : Dir) :
    (g.setChild a d v).cell b = if b = a then (g.cell b).setChild d v else g.cell b := by
  rw [setChild, update_cell]
  split
  · next h => rw [h]
  · rfl
theorem setParent_cell (g : Linked A) (a b v : A) :
    (g.setParent a v).cell b = if b = a then { g.cell b with parent := v } else g.cell b := by
  rw [setParent, update_cell]
  split
  · next h => rw [h]
  · rfl
theorem setColor_cell (g : Linked A) (a b : A) (c : Color) :
    (g.setColor a c).cell b = if b = a then { g.cell b with color := c } else g.cell b := by
  rw [setColor, update_cell]
  split
  · next h => rw [h]
  · rfl

/-- Painting a cell its own colour changes nothing. -/
theorem setColor_same {g : Linked A} {a : A} {c : Color} (h : (g.cell a).color = c) :
    g.setColor a c = g := by
  subst h
  exact congrArg (Linked.mk · g.root) (Function.update_eq_self ..)

/-- Make `v` hang below `q` where `u` hung: the root when `q` is the sentinel, else the child
field of `q` that names `u`. The `d`-child is compared first. -/
def relink (nil : A) (d : Dir) (q u v : A) (g : Linked A) : Linked A :=
  if q = nil then g.setRoot v
  else if u = (g.cell q).child d then g.setChild q d v
  else g.setChild q d.flip v

/-- Rotate at `x` towards `d`: its child `y` on the other side takes its place. -/
def rotate (nil : A) (d : Dir) (x : A) (g : Linked A) : Linked A :=
  let y := (g.cell x).child d.flip
  let g := g.setChild x d.flip ((g.cell y).child d)
  let g := if (g.cell y).child d = nil then g else g.setParent ((g.cell y).child d) x
  let g := g.setParent y (g.cell x).parent
  let g := g.relink nil d (g.cell x).parent x y
  let g := g.setChild y d x
  g.setParent x y

/-- Hang `v` where `u` hung. -/
def transplant (nil u v : A) (g : Linked A) : Linked A :=
  let g := g.relink nil .left (g.cell u).parent u v
  g.setParent v (g.cell u).parent

/-- `y` takes the place, the left child and the colour of `z`. -/
def takePlace (nil z y : A) (g : Linked A) : Linked A :=
  let g := g.transplant nil z y
  let g := g.setChild y .left (g.cell z).left
  let g := g.setParent (g.cell y).left y
  g.setColor y (g.cell z).color

end Linked

open Linked

variable {g : Linked A} {nil : A}

/-- Relinking below the nearest ancestor of a place redirects its context. -/
theorem LayoutPath.relink {p : TreePath A} {u v : A} (d : Dir) (h : LayoutPath g nil p u)
    (hnd : (labels p).Nodup) (hu : u ≠ nil) (hup : u ∉ labels p) :
    LayoutPath (g.relink nil d (topAddr nil p) u v) nil p v := by
  cases p with
  | nil => simp [Linked.relink, LayoutPath]
  | cons f p =>
    obtain ⟨ha, hc, hs, hp⟩ := h
    have hsib : u ≠ f.sibling.addr nil := by
      intro hus
      rcases eq_or_ne f.sibling .nil with h0 | h0
      · rw [h0] at hus; exact hu hus
      · exact hup (mem_labels_cons.mpr (Or.inr (Or.inl (hus ▸ ColorTree.addr_mem nil h0))))
    have hset : g.relink nil d f.label u v = g.setChild f.label f.dir v := by
      unfold Linked.relink
      rw [if_neg ha, hc]
      rcases Dir.eq_or_eq_flip d f.dir with hd | hd
      · rw [hd, Links.child_build, if_pos rfl]
      · rw [hd, Links.build_flip, Links.child_build, if_neg hsib]
    rw [topAddr_cons, hset]
    refine LayoutPath.redirect (g := g) (c := u) ⟨ha, hc, hs, hp⟩ hnd (by simp) (by simp) ?_ ?_
    · intro f' q hq
      cases hq
      rw [setChild_cell, if_pos rfl]
    · intro x _ hx
      rw [topAddr_cons] at hx
      rw [setChild_cell, if_neg hx]

/-- Relinking writes no cell but that of the ancestor, and no cell at all below the sentinel. -/
theorem Linked.relink_cell {d : Dir} {q u v x : A} (hx : x = q → q = nil) :
    (g.relink nil d q u v).cell x = g.cell x := by
  unfold Linked.relink
  split
  · rfl
  · next hq => split <;> rw [setChild_cell, if_neg fun h => hq (hx h)]

theorem Linked.relink_parent {d : Dir} {q u v x : A} :
    ((g.relink nil d q u v).cell x).parent = (g.cell x).parent := by
  unfold Linked.relink
  split
  · rfl
  · split <;> rw [setChild_cell] <;> split <;> simp

/-- Below an ancestor the root stays; without one the new subtree is the root. -/
theorem Linked.relink_root {d : Dir} {q u v : A} :
    (g.relink nil d q u v).root = if q = nil then v else g.root := by
  unfold Linked.relink
  split
  · rfl
  · split <;> rfl

theorem Linked.transplant_eq {u v : A} : g.transplant nil u v =
    (g.relink nil .left (g.cell u).parent u v).setParent v (g.cell u).parent := by
  simp only [Linked.transplant, relink_parent]

/-- The writes of a rotation up to the point where the upper link is redirected. -/
def Linked.handOver (nil : A) (d : Dir) (x y b q : A) (g : Linked A) : Linked A :=
  let g := g.setChild x d.flip b
  let g := if b = nil then g else g.setParent b x
  g.setParent y q

theorem Linked.handOver_cell {d : Dir} {x y b q z : A} (hx : z ≠ x) (hy : z ≠ y)
    (hb : z = b → b = nil) : (g.handOver nil d x y b q).cell z = g.cell z := by
  simp only [handOver, setParent_cell, if_neg hy]
  split
  · rw [setChild_cell, if_neg hx]
  · next hbn => rw [setParent_cell, if_neg (fun h => hbn (hb h)), setChild_cell, if_neg hx]

theorem Linked.handOver_root {d : Dir} {x y b q : A} :
    (g.handOver nil d x y b q).root = g.root := by
  simp only [handOver, setParent_root]
  split <;> rfl

section Rotate

variable {d : Dir} {x y a b e q : A} {cx cy : Color}
  (hx : g.cell x = Links.build d a y q cx) (hy : g.cell y = Links.build d b e x cy)
  (hxy : x ≠ y) (hbx : b ≠ x) (hby : b ≠ y) (hqx : q ≠ x) (hqy : q ≠ y)

include hx hy hxy hbx in
theorem Linked.rotate_eq : g.rotate nil d x =
    (((g.handOver nil d x y b q).relink nil d q x y).setChild y d x).setParent x y := by
  have hb : (g.cell y).child d = b := by rw [hy, Links.child_build]
  have hyc : (g.cell x).child d.flip = y := by rw [hx, Links.child_flip_build]
  have hb' : ((g.setChild x d.flip b).cell y).child d = b := by
    rw [setChild_cell, if_neg hxy.symm, hb]
  have hq : ∀ v, ((if b = nil then g.setChild x d.flip b
      else (g.setChild x d.flip b).setParent b x).setParent y v).cell x =
      Links.build d a b q cx := by
    intro v
    rw [setParent_cell, if_neg hxy]
    split
    · rw [setChild_cell, if_pos rfl, hx, Links.setChild_flip_build]
    · rw [setParent_cell, if_neg hbx.symm, setChild_cell, if_pos rfl, hx,
        Links.setChild_flip_build]
  have hq' : (if b = nil then g.setChild x d.flip b
      else (g.setChild x d.flip b).setParent b x).cell x = Links.build d a b q cx := by
    split
    · rw [setChild_cell, if_pos rfl, hx, Links.setChild_flip_build]
    · rw [setParent_cell, if_neg hbx.symm, setChild_cell, if_pos rfl, hx,
        Links.setChild_flip_build]
  simp only [rotate, handOver, hyc, hb, hb', hq, hq', Links.parent_build]

include hx hxy hbx in
theorem Linked.handOver_cell_x :
    (g.handOver nil d x y b q).cell x = Links.build d a b q cx := by
  simp only [handOver, setParent_cell, if_neg hxy]
  split
  · rw [setChild_cell, if_pos rfl, hx, Links.setChild_flip_build]
  · rw [setParent_cell, if_neg hbx.symm, setChild_cell, if_pos rfl, hx, Links.setChild_flip_build]

include hy hxy hby in
theorem Linked.handOver_cell_y :
    (g.handOver nil d x y b q).cell y = Links.build d b e q cy := by
  simp only [handOver, setParent_cell, if_true]
  split
  · rw [setChild_cell, if_neg hxy.symm, hy, Links.setParent_build]
  · rw [setParent_cell, if_neg hby.symm, setChild_cell, if_neg hxy.symm, hy, Links.setParent_build]

include hbx hby in
theorem Linked.handOver_cell_b (hb : b ≠ nil) :
    (g.handOver nil d x y b q).cell b = { g.cell b with parent := x } := by
  simp only [handOver, setParent_cell, if_neg hby, if_neg hb, if_true]
  rw [setChild_cell, if_neg hbx]

include hx hy hxy hbx hqx in
theorem Linked.rotate_cell_x : (g.rotate nil d x).cell x = Links.build d a b y cx := by
  rw [rotate_eq hx hy hxy hbx, setParent_cell, if_pos rfl, setChild_cell, if_neg hxy,
    relink_cell fun h => absurd h.symm hqx, handOver_cell_x hx hxy hbx, Links.setParent_build]

include hx hy hxy hbx hby hqy in
theorem Linked.rotate_cell_y : (g.rotate nil d x).cell y = Links.build d x e q cy := by
  rw [rotate_eq hx hy hxy hbx, setParent_cell, if_neg hxy.symm, setChild_cell, if_pos rfl,
    relink_cell fun h => absurd h.symm hqy, handOver_cell_y hy hxy hby, Links.setChild_build]

include hx hy hxy hbx hby in
theorem Linked.rotate_cell_b (hb : b ≠ nil) (hbq : b ≠ q) :
    (g.rotate nil d x).cell b = { g.cell b with parent := x } := by
  rw [rotate_eq hx hy hxy hbx, setParent_cell, if_neg hbx, setChild_cell, if_neg hby,
    relink_cell fun h => absurd h hbq, handOver_cell_b hbx hby hb]

include hx hy hxy hbx in
/-- A rotation leaves every other cell alone; the sentinel counts as other. -/
theorem Linked.rotate_cell {z : A} (hzx : z ≠ x) (hzy : z ≠ y) (hzq : z = q → q = nil)
    (hzb : z = b → b = nil) : (g.rotate nil d x).cell z = g.cell z := by
  rw [rotate_eq hx hy hxy hbx, setParent_cell, if_neg hzx, setChild_cell, if_neg hzy,
    relink_cell hzq, handOver_cell hzx hzy hzb]

include hx hy hxy hbx in
theorem Linked.rotate_root : (g.rotate nil d x).root = if q = nil then y else g.root := by
  rw [rotate_eq hx hy hxy hbx, setParent_root, setChild_root, relink_root, handOver_root]

end Rotate

/-- **Rotation.** The cells lay out the rotated subtree at the same place. -/
theorem Zip.rotate {p : TreePath A} {d : Dir} {cx cy : Color} {a b e : ColorTree A} {x y : A}
    (h : Zip g nil p (build d cx a x (build d cy b y e)))
    (hnd : (plug p (build d cx a x (build d cy b y e))).toList.Nodup) :
    Zip (g.rotate nil d x) nil p (build d cy (build d cx a x b) y e) := by
  have hd := RotateDisjoint.of_nodup hnd
  obtain ⟨hp, hrep⟩ := h
  rw [addr_build] at hp
  rw [rep_build] at hrep
  obtain ⟨hxn, hx, ha, hrep⟩ := hrep
  rw [rep_build] at hrep
  obtain ⟨hyn, hy, hb, he⟩ := hrep
  rw [addr_build] at hx
  have hbx : b.addr nil ≠ x := by
    rcases addr_eq_or_mem nil b with h0 | h0
    · rw [h0]; exact hxn.symm
    · rintro h1; exact hd.x_notMem.2.1 (h1 ▸ h0)
  have hby : b.addr nil ≠ y := by
    rcases addr_eq_or_mem nil b with h0 | h0
    · rw [h0]; exact hyn.symm
    · rintro h1; exact hd.y_notMem.2.1 (h1 ▸ h0)
  have hqx : topAddr nil p ≠ x := by
    rcases topAddr_eq_or_mem nil p with h0 | h0
    · rw [h0]; exact hxn.symm
    · rintro h1; exact hd.x_notMem.2.2.2 (h1 ▸ h0)
  have hqy : topAddr nil p ≠ y := by
    rcases topAddr_eq_or_mem nil p with h0 | h0
    · rw [h0]; exact hyn.symm
    · rintro h1; exact hd.y_notMem.2.2.2 (h1 ▸ h0)
  -- a cell of the three subtrees is written only when it is the root of `b`
  have hother : ∀ z, z ∉ labels p → z ≠ x → z ≠ y → (z = b.addr nil → b = .nil) →
      (g.rotate nil d x).cell z = g.cell z := by
    intro z hzp hzx hzy hzb
    refine rotate_cell hx hy hd.ne hbx hzx hzy ?_ ?_
    · intro h1
      exact (topAddr_eq_or_mem nil p).resolve_right fun h0 => hzp (h1 ▸ h0)
    · intro h1; rw [hzb h1]; rfl
  have hab : ∀ z ∈ a.toList ++ e.toList, z ∉ labels p ∧ z ≠ x ∧ z ≠ y ∧
      (z = b.addr nil → b = .nil) := by
    intro z hz
    rcases List.mem_append.mp hz with hz | hz
    · refine ⟨fun hp => (hd.path z hp).1 hz, ?_, ?_, ?_⟩
      · rintro rfl; exact hd.x_notMem.1 hz
      · rintro rfl; exact hd.y_notMem.1 hz
      · intro h0
        by_contra hbn
        exact (hd.trees z (h0 ▸ addr_mem nil hbn)).1 hz
    · refine ⟨fun hp => (hd.path z hp).2.2 hz, ?_, ?_, ?_⟩
      · rintro rfl; exact hd.x_notMem.2.2.1 hz
      · rintro rfl; exact hd.y_notMem.2.2.1 hz
      · intro h0
        by_contra hbn
        exact (hd.trees z (h0 ▸ addr_mem nil hbn)).2 hz
  refine ⟨?_, ?_⟩
  · rw [addr_build, rotate_eq hx hy hd.ne hbx]
    have h3 : LayoutPath (g.handOver nil d x y (b.addr nil) (topAddr nil p)) nil p x := by
      refine hp.congr handOver_root fun z hz => handOver_cell ?_ ?_ ?_
      · rintro rfl; exact hd.x_notMem.2.2.2 hz
      · rintro rfl; exact hd.y_notMem.2.2.2 hz
      · intro h0
        rcases addr_eq_or_mem nil b with h1 | h1
        · exact h1
        · exact absurd (h0 ▸ h1) (hd.path z hz).2.1
    refine (h3.relink d hd.nodup.2 hxn hd.x_notMem.2.2.2 (v := y)).congr rfl fun z hz => ?_
    rw [setParent_cell, if_neg, setChild_cell, if_neg]
    · rintro rfl; exact hd.y_notMem.2.2.2 hz
    · rintro rfl; exact hd.x_notMem.2.2.2 hz
  · rw [rep_build, rep_build, addr_build]
    refine ⟨hyn, rotate_cell_y hx hy hd.ne hbx hby hqy, ⟨hxn, ?_, ?_, ?_⟩, ?_⟩
    · exact rotate_cell_x hx hy hd.ne hbx hqx
    · refine ha.congr fun z hz => ?_
      obtain ⟨h1, h2, h3, h4⟩ := hab z (List.mem_append_left _ hz)
      exact hother z h1 h2 h3 h4
    · refine hb.move hd.nodup.1 ?_ ?_
      · intro hbn
        have hbm := addr_mem nil hbn
        refine rotate_cell_b hx hy hd.ne hbx hby (hb.ne_nil _ hbm) ?_
        rcases topAddr_eq_or_mem nil p with h0 | h0
        · rw [h0]; exact hb.ne_nil _ hbm
        · intro h1; exact (hd.path _ h0).2.1 (h1 ▸ hbm)
      · intro z hz hzb
        refine hother z (fun hp => (hd.path z hp).2.1 hz) ?_ ?_
          (fun h0 => absurd h0 hzb)
        · rintro rfl; exact hd.x_notMem.2.1 hz
        · rintro rfl; exact hd.y_notMem.2.1 hz
    · refine he.congr fun z hz => ?_
      obtain ⟨h1, h2, h3, h4⟩ := hab z (List.mem_append_right _ hz)
      exact hother z h1 h2 h3 h4

end Writes

end MiniWeb.RedBlack

import Mathlib.Algebra.Group.Nat.Defs
import Mathlib.Data.List.Nodup
import Mathlib.Data.List.Sort
import Mathlib.Order.Basic
import Mathlib.Tactic.Common

/-!
# Red-black trees with a path to the root

Trees over an arbitrary type of labels, and the zipper of a place in a tree: the subtree at the
place and the `TreePath` of frames above it, innermost first. A frame remembers the direction taken,
the colour and label of the ancestor and the subtree that was left behind.

The bottom-up repair loops work at such a place. `RBPath p n` says that the context accepts any
subtree of black height `n`; each repair step is then one statement about the frames next to the
place (`RBPath.recolor`, `RB.rotateOuter`, ...), written with `build d`, the node whose
`d`-child comes first, so that a step and its mirror image are one lemma.
-/

namespace MiniWeb.RedBlack

universe u

inductive Color where
  | red
  | black
deriving DecidableEq, Repr

inductive Dir where
  | left
  | right
deriving DecidableEq, Repr

namespace Dir

def flip : Dir → Dir
  | .left => .right
  | .right => .left

@[simp] theorem flip_left : Dir.left.flip = .right := rfl
@[simp] theorem flip_right : Dir.right.flip = .left := rfl
@[simp] theorem flip_flip (d : Dir) : d.flip.flip = d := by cases d <;> rfl
@[simp] theorem flip_ne (d : Dir) : d.flip ≠ d := by cases d <;> decide
@[simp] theorem ne_flip (d : Dir) : d ≠ d.flip := by cases d <;> decide

theorem eq_or_eq_flip (d e : Dir) : e = d ∨ e = d.flip := by
  cases d <;> cases e <;> simp

end Dir

inductive ColorTree (A : Type u) where
  | nil
  | node (c : Color) (l : ColorTree A) (a : A) (r : ColorTree A)

namespace ColorTree

variable {A : Type u}

/-- The labels in order. -/
def toList : ColorTree A → List A
  | .nil => []
  | .node _ l a r => l.toList ++ a :: r.toList

/-- The empty tree counts as black. -/
def color : ColorTree A → Color
  | .nil => .black
  | .node c _ _ _ => c

def blacken : ColorTree A → ColorTree A
  | .nil => .nil
  | .node _ l a r => .node .black l a r

/-- The node whose `d`-child is `near` and whose other child is `far`. -/
def build : Dir → Color → ColorTree A → A → ColorTree A → ColorTree A
  | .left, c, near, a, far => .node c near a far
  | .right, c, near, a, far => .node c far a near

@[simp] theorem toList_nil : (nil : ColorTree A).toList = [] := rfl
@[simp] theorem toList_node (c : Color) (l : ColorTree A) (a : A) (r : ColorTree A) :
    (node c l a r).toList = l.toList ++ a :: r.toList := rfl
@[simp] theorem color_nil : (nil : ColorTree A).color = .black := rfl
@[simp] theorem color_node (c : Color) (l : ColorTree A) (a : A) (r : ColorTree A) :
    (node c l a r).color = c := rfl
@[simp] theorem blacken_nil : (nil : ColorTree A).blacken = nil := rfl
@[simp] theorem blacken_node (c : Color) (l : ColorTree A) (a : A) (r : ColorTree A) :
    (node c l a r).blacken = node .black l a r := rfl
@[simp] theorem color_build (d : Dir) (c : Color) (t : ColorTree A) (a : A) (s : ColorTree A) :
    (build d c t a s).color = c := by cases d <;> rfl
@[simp] theorem blacken_build (d : Dir) (c : Color) (t : ColorTree A) (a : A) (s : ColorTree A) :
    (build d c t a s).blacken = build d .black t a s := by cases d <;> rfl
@[simp] theorem toList_blacken (t : ColorTree A) : t.blacken.toList = t.toList := by cases t <;> rfl
@[simp] theorem color_blacken (t : ColorTree A) : t.blacken.color = .black := by cases t <;> rfl

theorem blacken_of_black {t : ColorTree A} (h : t.color = .black) : t.blacken = t := by
  cases t with
  | nil => rfl
  | node c l a r => simp only [color_node] at h; subst h; rfl

@[simp] theorem build_ne_nil (d : Dir) (c : Color) (t : ColorTree A) (a : A) (s : ColorTree A) :
    build d c t a s ≠ nil := by cases d <;> simp [build]

theorem build_flip (d : Dir) (c : Color) (t : ColorTree A) (a : A) (s : ColorTree A) :
    build d.flip c t a s = build d c s a t := by cases d <;> rfl

/-- Every node is `build d` of its colour, label and children. -/
theorem exists_build (d : Dir) {t : ColorTree A} (h : t ≠ nil) :
    ∃ c near a far, t = build d c near a far := by
  cases t with
  | nil => exact absurd rfl h
  | node c l a r =>
    cases d
    · exact ⟨c, l, a, r, rfl⟩
    · exact ⟨c, r, a, l, rfl⟩

theorem ne_nil_of_red {t : ColorTree A} (h : t.color = .red) : t ≠ nil := by
  rintro rfl
  cases h

@[simp] theorem mem_toList_build {d : Dir} {c : Color} {t s : ColorTree A} {a x : A} :
    x ∈ (build d c t a s).toList ↔ x = a ∨ x ∈ t.toList ∨ x ∈ s.toList := by
  cases d <;> simp [build] <;> tauto

theorem toList_build_perm (d : Dir) (c : Color) (t : ColorTree A) (a : A) (s : ColorTree A) :
    (build d c t a s).toList.Perm (a :: (t.toList ++ s.toList)) := by
  cases d
  · exact List.perm_middle
  · exact (List.perm_middle).trans ((List.perm_append_comm).cons a)

/-- The order of the labels does not depend on the colour. -/
theorem toList_build_color (d : Dir) (c c' : Color) (t : ColorTree A) (a : A) (s : ColorTree A) :
    (build d c t a s).toList = (build d c' t a s).toList := by cases d <;> rfl

/-- A rotation keeps the labels in order. -/
theorem toList_rotate (d : Dir) (c c' k k' : Color) (t : ColorTree A) (x : A) (s : ColorTree A)
    (y : A) (r : ColorTree A) :
    (build d c' (build d c t x s) y r).toList = (build d k t x (build d k' s y r)).toList := by
  cases d <;> simp [build]

end ColorTree

/-! ## Places in a tree -/

open ColorTree

/-- One ancestor of a place: the direction taken below it, its colour and label, and the subtree
on the other side. -/
structure Frame (A : Type u) where
  dir : Dir
  color : Color
  label : A
  sibling : ColorTree A

/-- The ancestors of a place, innermost first. -/
abbrev TreePath (A : Type u) := List (Frame A)

variable {A : Type u}

/-- Put a subtree back below an ancestor. -/
def Frame.attach (f : Frame A) (t : ColorTree A) : ColorTree A :=
  build f.dir f.color t f.label f.sibling

namespace TreePath

def plug : TreePath A → ColorTree A → ColorTree A
  | [], t => t
  | f :: p, t => plug p (f.attach t)

/-- The colour of the node above the place; the root hangs below a black sentinel. -/
def topColor : TreePath A → Color
  | [] => .black
  | f :: _ => f.color

/-- The labels before the place, in order. -/
def before : TreePath A → List A
  | [] => []
  | f :: p =>
    match f.dir with
    | .left => before p
    | .right => before p ++ (f.sibling.toList ++ [f.label])

/-- The labels after the place, in order. -/
def after : TreePath A → List A
  | [] => []
  | f :: p =>
    match f.dir with
    | .left => f.label :: f.sibling.toList ++ after p
    | .right => after p

/-- All labels of the context. -/
def labels (p : TreePath A) : List A := before p ++ after p

@[simp] theorem plug_nil (t : ColorTree A) : plug [] t = t := rfl
@[simp] theorem plug_cons (f : Frame A) (p : TreePath A) (t : ColorTree A) :
    plug (f :: p) t = plug p (f.attach t) := rfl
@[simp] theorem topColor_nil : topColor ([] : TreePath A) = .black := rfl
@[simp] theorem topColor_cons (f : Frame A) (p : TreePath A) : topColor (f :: p) = f.color := rfl
@[simp] theorem before_nil : before ([] : TreePath A) = [] := rfl
@[simp] theorem after_nil : after ([] : TreePath A) = [] := rfl
@[simp] theorem labels_nil : labels ([] : TreePath A) = [] := rfl

theorem plug_append (p q : TreePath A) (t : ColorTree A) : plug (p ++ q) t = plug q (plug p t) := by
  induction p generalizing t with
  | nil => rfl
  | cons f p ih => exact ih (f.attach t)

/-- The labels of a filled context: those before the place, those of the subtree, those after. -/
theorem toList_plug (p : TreePath A) (t : ColorTree A) :
    (plug p t).toList = before p ++ t.toList ++ after p := by
  induction p generalizing t with
  | nil => simp
  | cons f p ih =>
    rw [plug_cons, ih]
    rcases f with ⟨d, c, a, s⟩
    cases d <;> simp [Frame.attach, build, before, after]

@[simp] theorem mem_labels_cons {f : Frame A} {p : TreePath A} {x : A} :
    x ∈ labels (f :: p) ↔ x = f.label ∨ x ∈ f.sibling.toList ∨ x ∈ labels p := by
  rcases f with ⟨d, c, a, s⟩
  cases d <;> simp [labels, before, after] <;> tauto

theorem mem_labels_append {p q : TreePath A} {x : A} :
    x ∈ labels (p ++ q) ↔ x ∈ labels p ∨ x ∈ labels q := by
  induction p with
  | nil => simp
  | cons f p ih => rw [List.cons_append, mem_labels_cons, mem_labels_cons, ih]; tauto

theorem toList_plug_perm (p : TreePath A) (t : ColorTree A) :
    (plug p t).toList.Perm (t.toList ++ labels p) := by
  rw [toList_plug, labels, List.append_assoc]
  exact List.perm_append_comm_assoc _ _ _

/-- The label of the place, and all others in their order. -/
theorem toList_plug_node (p : TreePath A) (c : Color) (l : ColorTree A) (a : A) (r : ColorTree A) :
    (plug p (.node c l a r)).toList.Perm
      (a :: (before p ++ (l.toList ++ r.toList) ++ after p)) := by
  rw [toList_plug, toList_node]
  simp only [List.append_assoc, List.cons_append]
  rw [← List.append_assoc, ← List.append_assoc (before p)]
  exact List.perm_middle

theorem mem_toList_plug {p : TreePath A} {t : ColorTree A} {x : A} :
    x ∈ (plug p t).toList ↔ x ∈ t.toList ∨ x ∈ labels p := by
  rw [(toList_plug_perm p t).mem_iff, List.mem_append]

theorem plug_ne_nil {p : TreePath A} {t : ColorTree A} (h : t ≠ .nil) : plug p t ≠ .nil := by
  induction p generalizing t with
  | nil => exact h
  | cons f p ih => exact ih (build_ne_nil _ _ _ _ _)

theorem length_le_labels (p : TreePath A) : p.length ≤ (labels p).length := by
  induction p with
  | nil => exact le_rfl
  | cons f p ih =>
    rcases f with ⟨d, c, a, s⟩
    cases d <;> simp [labels, before, after] at ih ⊢ <;> omega

theorem nodup_plug {p : TreePath A} {t : ColorTree A} :
    (plug p t).toList.Nodup ↔
      t.toList.Nodup ∧ (labels p).Nodup ∧ ∀ x ∈ t.toList, x ∉ labels p := by
  rw [(toList_plug_perm p t).nodup_iff, List.nodup_append']
  exact ⟨fun ⟨h1, h2, h3⟩ => ⟨h1, h2, fun x hx hp => h3 hx hp⟩,
    fun ⟨h1, h2, h3⟩ => ⟨h1, h2, fun x hx hp => h3 x hx hp⟩⟩

end TreePath

open TreePath

/-! ## The red-black conditions -/

/-- `RB t n`: no red node of `t` has a red child, and every way from the root of `t` to a leaf
crosses `n` black nodes. -/
inductive RB : ColorTree A → Nat → Prop where
  | nil : RB .nil 0
  | red {l r : ColorTree A} {a : A} {n : Nat} (hl : l.color = .black) (hr : r.color = .black)
      (bl : RB l n) (br : RB r n) : RB (.node .red l a r) n
  | black {l r : ColorTree A} {a : A} {n : Nat} (bl : RB l n) (br : RB r n) :
      RB (.node .black l a r) (n + 1)

/-- A red-black tree: black at the root, and the red-black conditions below. -/
structure RBTree (t : ColorTree A) : Prop where
  root_black : t.color = .black
  height : ∃ n, RB t n

/-- The nodes on the longest way down. -/
def ColorTree.height : ColorTree A → Nat
  | .nil => 0
  | .node _ l _ r => max l.height r.height + 1

theorem ColorTree.height_le_length (t : ColorTree A) : t.height ≤ t.toList.length := by
  induction t with
  | nil => exact Nat.le_refl _
  | node c l a r ihl ihr =>
    rw [ColorTree.height, toList_node, List.length_append, List.length_cons]
    omega

/-- At most every second node of a way down is red. -/
theorem RB.height_le {t : ColorTree A} {n : Nat} (h : RB t n) :
    t.height ≤ 2 * n + 1 ∧ (t.color = .black → t.height ≤ 2 * n) := by
  induction h with
  | nil => exact ⟨Nat.zero_le _, fun _ => Nat.le_refl _⟩
  | red hl hr _ _ ihl ihr =>
    have hl' := ihl.2 hl
    have hr' := ihr.2 hr
    refine ⟨?_, fun hc => by cases hc⟩
    rw [ColorTree.height]
    omega
  | black _ _ ihl ihr =>
    have hl' := ihl.1
    have hr' := ihr.1
    rw [ColorTree.height]
    exact ⟨by omega, fun _ => by omega⟩

/-- A tree of black height `n` has the black nodes of a full tree of that height. -/
theorem RB.two_pow_le {t : ColorTree A} {n : Nat} (h : RB t n) : 2 ^ n ≤ t.toList.length + 1 := by
  induction h with
  | nil => exact Nat.le_refl _
  | red _ _ _ _ ihl ihr =>
    rw [toList_node, List.length_append, List.length_cons]
    omega
  | black _ _ ihl ihr =>
    rw [toList_node, List.length_append, List.length_cons, Nat.pow_succ]
    omega

/-- **Red-black trees are flat.** -/
theorem RBTree.two_pow_height_le {t : ColorTree A} (h : RBTree t) :
    2 ^ t.height ≤ (t.toList.length + 1) ^ 2 := by
  obtain ⟨n, hn⟩ := h.height
  have hheight : t.height ≤ 2 * n := hn.height_le.2 h.root_black
  calc
    2 ^ t.height ≤ 2 ^ (2 * n) := Nat.pow_le_pow_right (by omega) hheight
    _ = (2 ^ n) ^ 2 := by rw [Nat.mul_comm, Nat.pow_mul]
    _ ≤ (t.toList.length + 1) ^ 2 := Nat.pow_le_pow_left hn.two_pow_le 2

theorem height_plug_le (p : TreePath A) (t : ColorTree A) :
    p.length + t.height ≤ (TreePath.plug p t).height := by
  induction p generalizing t with
  | nil => exact Nat.le_of_eq (Nat.zero_add _)
  | cons f p ih =>
    have hattach : t.height + 1 ≤ (f.attach t).height := by
      rcases f with ⟨d, c, a, s⟩
      cases d <;> simp only [Frame.attach, build, ColorTree.height] <;> omega
    have hp := ih (f.attach t)
    rw [TreePath.plug_cons, List.length_cons]
    omega

theorem RB.build_red {d : Dir} {t s : ColorTree A} {a : A} {n : Nat} (ht : t.color = .black)
    (hs : s.color = .black) (bt : RB t n) (bs : RB s n) : RB (build d .red t a s) n := by
  cases d
  · exact .red ht hs bt bs
  · exact .red hs ht bs bt

theorem RB.build_black {d : Dir} {t s : ColorTree A} {a : A} {n : Nat} (bt : RB t n) (bs : RB s n) :
    RB (build d .black t a s) (n + 1) := by
  cases d
  · exact .black bt bs
  · exact .black bs bt

theorem RB.red_inv {d : Dir} {t s : ColorTree A} {a : A} {n : Nat} (h : RB (build d .red t a s) n) :
    t.color = .black ∧ s.color = .black ∧ RB t n ∧ RB s n := by
  cases d <;> cases h with
  | red hl hr bl br => first | exact ⟨hl, hr, bl, br⟩ | exact ⟨hr, hl, br, bl⟩

theorem RB.black_inv {d : Dir} {t s : ColorTree A} {a : A} {n : Nat}
    (h : RB (build d .black t a s) n) : ∃ m, n = m + 1 ∧ RB t m ∧ RB s m := by
  cases d <;> cases h with
  | black bl br => first | exact ⟨_, rfl, bl, br⟩ | exact ⟨_, rfl, br, bl⟩

/-- A black tree of positive black height has a root, so the sibling that a repair inspects is
never the sentinel. -/
theorem RB.black_succ {t : ColorTree A} {n : Nat} (d : Dir) (h : RB t (n + 1))
    (hc : t.color = .black) :
    ∃ s a r, t = build d .black s a r ∧ RB s n ∧ RB r n := by
  cases h with
  | red hl hr bl br => cases hc
  | black bl br =>
    cases d
    · exact ⟨_, _, _, rfl, bl, br⟩
    · exact ⟨_, _, _, rfl, br, bl⟩

/-- A red tree has a root and two black children of its own black height. -/
theorem RB.red_root {t : ColorTree A} {n : Nat} (d : Dir) (h : RB t n) (hc : t.color = .red) :
    ∃ s a r, t = build d .red s a r ∧ s.color = .black ∧ r.color = .black ∧ RB s n ∧ RB r n := by
  cases h with
  | nil => cases hc
  | black bl br => cases hc
  | red hl hr bl br =>
    cases d
    · exact ⟨_, _, _, rfl, hl, hr, bl, br⟩
    · exact ⟨_, _, _, rfl, hr, hl, br, bl⟩

theorem RB.blacken {t : ColorTree A} {n : Nat} (h : RB t n) : ∃ m, RB t.blacken m := by
  cases h with
  | nil => exact ⟨0, .nil⟩
  | red hl hr bl br => exact ⟨_, .black bl br⟩
  | black bl br => exact ⟨_, .black bl br⟩

theorem RB.blacken_red {t : ColorTree A} {n : Nat} (h : RB t n) (hc : t.color = .red) :
    RB t.blacken (n + 1) := by
  cases h with
  | red hl hr bl br => exact .black bl br
  | nil => cases hc
  | black bl br => cases hc

/-- `RBPath p n`: the context is red-black and accepts a subtree of black height `n` at its
place. A red ancestor is never the root and hangs below a black one. -/
inductive RBPath : TreePath A → Nat → Prop where
  | nil {n : Nat} : RBPath [] n
  | red {d : Dir} {a : A} {s : ColorTree A} {p : TreePath A} {n : Nat} (hs : s.color = .black)
      (bs : RB s n) (hp : p ≠ []) (ht : topColor p = .black) (bp : RBPath p n) :
      RBPath (⟨d, .red, a, s⟩ :: p) n
  | black {d : Dir} {a : A} {s : ColorTree A} {p : TreePath A} {n : Nat} (bs : RB s n)
      (bp : RBPath p (n + 1)) : RBPath (⟨d, .black, a, s⟩ :: p) n

/-- The colour a context asks of the subtree at its place: black below a red ancestor and at the
root. -/
def Accepts (p : TreePath A) (t : ColorTree A) : Prop :=
  p = [] ∨ topColor p = .red → t.color = .black

theorem Accepts.of_black {p : TreePath A} {t : ColorTree A} (h : t.color = .black) : Accepts p t :=
  fun _ => h

/-- A context filled with a subtree it accepts is a red-black tree. -/
theorem RBPath.plug {p : TreePath A} {n : Nat} (hp : RBPath p n) :
    ∀ {t : ColorTree A}, RB t n → Accepts p t → RBTree (plug p t) := by
  induction hp with
  | nil => intro t ht ha; exact ⟨ha (Or.inl rfl), _, ht⟩
  | red hs bs hne htop _ ih =>
    intro t ht ha
    refine ih (RB.build_red (ha (Or.inr rfl)) hs ht bs) ?_
    rintro (h | h)
    · exact absurd h hne
    · rw [htop] at h; cases h
  | black bs _ ih =>
    intro t ht _
    exact ih (RB.build_black ht bs) (.of_black (color_build ..))

/-- Every place of a red-black tree splits it into a context and a subtree it accepts. -/
theorem RBTree.unplug {p : TreePath A} :
    ∀ {t : ColorTree A}, RBTree (TreePath.plug p t) → ∃ n, RBPath p n ∧ RB t n ∧ Accepts p t := by
  induction p with
  | nil =>
    rintro t ⟨hc, n, h⟩
    exact ⟨n, .nil, h, fun _ => hc⟩
  | cons f p ih =>
    intro t h
    rcases f with ⟨d, c, a, s⟩
    obtain ⟨n, hp, ht, ha⟩ := ih h
    cases c with
    | red =>
      obtain ⟨htc, hsc, bt, bs⟩ := ht.red_inv
      have hne : p ≠ [] := by
        intro hp0
        have := ha (Or.inl hp0)
        simp [Frame.attach] at this
      have htop : topColor p = .black := by
        cases htp : topColor p with
        | black => rfl
        | red =>
          have := ha (Or.inr htp)
          simp [Frame.attach] at this
      exact ⟨n, .red hsc bs hne htop hp, bt, fun _ => htc⟩
    | black =>
      obtain ⟨m, rfl, bt, bs⟩ := ht.black_inv
      refine ⟨m, .black bs hp, bt, ?_⟩
      rintro (h0 | h0) <;> cases h0

/-! ## Repair after an insertion

The subtree at the place is red and its own conditions hold; only the edge to the node above it
may join two red nodes. -/

/-- A red ancestor has an ancestor of its own, which is black. -/
theorem RBPath.grandparent {d : Dir} {a : A} {s : ColorTree A} {p : TreePath A} {n : Nat}
    (h : RBPath (⟨d, .red, a, s⟩ :: p) n) :
    s.color = .black ∧ RB s n ∧ ∃ e b u q, p = ⟨e, .black, b, u⟩ :: q ∧ RB u n ∧
      RBPath q (n + 1) := by
  cases h with
  | red hs bs hne htop bp =>
    refine ⟨hs, bs, ?_⟩
    cases bp with
    | nil => exact absurd rfl hne
    | red _ _ _ _ _ => cases htop
    | black bu bq => exact ⟨_, _, _, _, rfl, bu, bq⟩

/-- Red uncle: the two red nodes below the grandparent turn black and the grandparent red; the
violation moves up two levels. -/
theorem RB.recolor {d e : Dir} {a b : A} {t s u : ColorTree A} {n : Nat} (ht : RB t n) (hs : RB s n)
    (hu : RB u n) (hred : u.color = .red) :
    RB (build e .red (build d .black t a s) b u.blacken) (n + 1) :=
  .build_red (color_build ..) (color_blacken u) (.build_black ht hs) (hu.blacken_red hred)

/-- Black uncle, outer grandchild: one rotation at the grandparent. -/
theorem RB.rotateOuter {e : Dir} {a b : A} {t s u : ColorTree A} {n : Nat} (ht : RB t n)
    (hs : RB s n) (hsc : s.color = .black) (hu : RB u n) (huc : u.color = .black) :
    RB (build e .black t a (build e .red s b u)) (n + 1) :=
  .build_black ht (.build_red hsc huc hs hu)

/-- Inner grandchild: a rotation at the parent makes the parent the outer grandchild. -/
theorem RBPath.rotateInner {d : Dir} {a z : A} {s tn tf : ColorTree A} {p : TreePath A} {n : Nat}
    (hp : RBPath (⟨d.flip, .red, a, s⟩ :: p) n) (ht : RB (build d .red tn z tf) n) :
    RB (build d .red s a tn) n ∧ RBPath (⟨d, .red, z, tf⟩ :: p) n := by
  obtain ⟨hnc, hfc, bn, bf⟩ := ht.red_inv
  cases hp with
  | red hs bs hne htop bp => exact ⟨.build_red hs hnc bs bn, .red hfc bf hne htop bp⟩

/-- When the node above is black the repair is over, up to painting the root. -/
theorem RBPath.plug_blacken {p : TreePath A} {t : ColorTree A} {n : Nat} (hp : RBPath p n)
    (ht : RB t n) (htop : topColor p = .black) : RBTree (TreePath.plug p t).blacken := by
  cases p with
  | nil => exact ⟨color_blacken t, ht.blacken⟩
  | cons f p =>
    have h := hp.plug ht (by rintro (h0 | h0) <;> simp_all)
    rw [blacken_of_black h.root_black]
    exact h

/-- Does the repair of a red subtree at a place end with a rotation at the root? It climbs two
levels while parent and uncle are both red. -/
def rotatesRoot : TreePath A → Bool
  | f :: g :: p =>
    f.color = .red && if g.sibling.color = .red then rotatesRoot p else p.isEmpty
  | _ => false

/-! ## Repair after a deletion

The subtree at the place is one black node short. -/

/-- `Short t n`: `t` misses one black node to stand where a tree of black height `n + 1` stood,
and colouring its root black supplies it when the root is red. -/
def Short (t : ColorTree A) (n : Nat) : Prop :=
  match t.color with
  | .red => RB t.blacken (n + 1)
  | .black => RB t n

theorem Short.of_rb {t : ColorTree A} {n : Nat} (h : RB t n) : Short t n := by
  unfold Short
  cases hc : t.color with
  | red => exact h.blacken_red hc
  | black => exact h

theorem Short.red {t : ColorTree A} {n : Nat} (h : Short t n) (hc : t.color = .red) :
    RB t.blacken (n + 1) := by
  unfold Short at h
  rwa [hc] at h

theorem Short.black {t : ColorTree A} {n : Nat} (h : Short t n) (hc : t.color = .black) :
    RB t n := by
  unfold Short at h
  rwa [hc] at h

/-- A black node with black children: the sibling that a deletion repair only paints. -/
def ColorTree.recolors : ColorTree A → Bool
  | .nil => true
  | .node c l _ r => c = .black && l.color = .black && r.color = .black

@[simp] theorem ColorTree.recolors_build (d : Dir) (c : Color) (t : ColorTree A) (a : A)
    (s : ColorTree A) : (build d c t a s).recolors =
      (decide (c = .black) && decide (t.color = .black) && decide (s.color = .black)) := by
  cases d
  · rfl
  · exact (Bool.and_right_comm ..)

/-- Does the repair of a short black subtree at a place rotate at the root? It climbs while the
sibling is only painted and the parent is black. -/
def shortRotatesRoot : TreePath A → Bool
  | [] => false
  | f :: p => if f.sibling.recolors then f.color = .black && shortRotatesRoot p else p.isEmpty

/-- The sibling of a short place is a proper node. -/
theorem RBPath.sibling_ne_nil {f : Frame A} {p : TreePath A} {n : Nat}
    (h : RBPath (f :: p) (n + 1)) :
    f.sibling ≠ .nil := by
  cases h with
  | red hs bs _ _ _ => intro h0; simp only at h0; subst h0; cases bs
  | black bs _ => intro h0; simp only at h0; subst h0; cases bs

/-- Red sibling: a rotation at the parent leaves the place below a red parent with a black
sibling. -/
theorem RBPath.rotateRed {d : Dir} {c : Color} {a w : A} {s r : ColorTree A} {p : TreePath A}
    {n : Nat} (h : RBPath (⟨d, c, a, build d .red s w r⟩ :: p) n) :
    c = .black ∧ RBPath (⟨d, .red, a, s⟩ :: ⟨d, .black, w, r⟩ :: p) n := by
  cases h with
  | red hs bs hne htop bp => simp at hs
  | black bs bp =>
    obtain ⟨hsc, hrc, bs, br⟩ := bs.red_inv
    exact ⟨rfl, .red hsc bs (by simp) rfl (.black br bp)⟩

/-- Black sibling with black children: the sibling turns red and the parent is short. -/
theorem RBPath.recolorSibling {d : Dir} {c : Color} {a w : A} {t s r : ColorTree A} {p : TreePath A}
    {n : Nat} (h : RBPath (⟨d, c, a, build d .black s w r⟩ :: p) (n + 1)) (ht : RB t n)
    (hs : s.color = .black) (hr : r.color = .black) :
    ∃ m, RBPath p (m + 1) ∧ Short (build d c t a (build d .red s w r)) m := by
  cases h with
  | red hc bs hne htop bp =>
    obtain ⟨m, hm, bs, br⟩ := bs.black_inv
    cases hm
    refine ⟨n, bp, ?_⟩
    simp only [Short, color_build, blacken_build]
    exact .build_black ht (.build_red hs hr bs br)
  | black bs bp =>
    obtain ⟨m, hm, bs, br⟩ := bs.black_inv
    cases hm
    refine ⟨n + 1, bp, ?_⟩
    simp only [Short, color_build]
    exact .build_black ht (.build_red hs hr bs br)

/-- Black sibling with a red far child: a rotation at the parent restores the missing black
node. -/
theorem RBPath.rotateFar {d : Dir} {c : Color} {a w : A} {t s r : ColorTree A} {p : TreePath A}
    {n : Nat} (h : RBPath (⟨d, c, a, build d .black s w r⟩ :: p) (n + 1)) (ht : RB t n)
    (hr : r.color = .red) :
    ∃ m, RBPath p m ∧ RB (build d c (build d .black t a s) w r.blacken) m ∧
      Accepts p (build d c (build d .black t a s) w r.blacken) := by
  cases h with
  | red hc bs hne htop bp =>
    obtain ⟨m, hm, bs, br⟩ := bs.black_inv
    cases hm
    refine ⟨n + 1, bp, .build_red (color_build ..) (color_blacken r) (.build_black ht bs)
      (br.blacken_red hr), ?_⟩
    rintro (h0 | h0)
    · exact absurd h0 hne
    · rw [htop] at h0; cases h0
  | black bs bp =>
    obtain ⟨m, hm, bs, br⟩ := bs.black_inv
    cases hm
    exact ⟨n + 2, bp, .build_black (.build_black ht bs) (br.blacken_red hr),
      .of_black (color_build ..)⟩

/-- Black sibling with a black far and a red near child: a rotation at the sibling brings a red
far child. -/
theorem RBPath.rotateNear {d : Dir} {c : Color} {a w u : A} {s₁ s₂ r : ColorTree A} {p : TreePath A}
    {n : Nat} (h : RBPath (⟨d, c, a, build d .black (build d .red s₁ u s₂) w r⟩ :: p) n)
    (hr : r.color = .black) :
    RBPath (⟨d, c, a, build d .black s₁ u (build d .red s₂ w r)⟩ :: p) n := by
  have key : ∀ {m}, RB (build d .black (build d .red s₁ u s₂) w r) m →
      RB (build d .black s₁ u (build d .red s₂ w r)) m := by
    intro m hm
    obtain ⟨k, rfl, bs, br⟩ := hm.black_inv
    obtain ⟨_, h₂c, b₁, b₂⟩ := bs.red_inv
    exact .build_black b₁ (.build_red h₂c hr b₂ br)
  cases h with
  | red hc bs hne htop bp => exact .red (color_build ..) (key bs) hne htop bp
  | black bs bp => exact .black (key bs) bp

end MiniWeb.RedBlack

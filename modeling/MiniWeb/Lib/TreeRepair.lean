import MiniWeb.Lib.TreePlace

/-!
# The repair steps of a red-black tree on linked cells

One lemma for each step of the two bottom-up repairs: what the writes of the step make of the
place it works at. No step writes the sentinel's cell, and the root changes only in a rotation
with no ancestor above it.
-/

namespace MiniWeb.RedBlack

open ColorTree TreePath Linked

universe u

variable {A : Type u} [DecidableEq A] {g : Linked A} {nil : A} {T : List A} {p : TreePath A}
  {t : ColorTree A}

namespace IsPlace

/-- The colour writes before a rotation: a node and its child on the rotating side. -/
theorem setColor_pair {d : Dir} {cx cy : Color} {a b e : ColorTree A} {x y : A} (kx ky : Color)
    (h : IsPlace g nil T p (build d cx a x (build d cy b y e))) :
    IsPlace ((g.setColor y ky).setColor x kx) nil T p (build d kx a x (build d ky b y e)) := by
  have h1 := (sibling.mp (child.mp h)).setColor ky
  exact child.mpr ((sibling.mpr h1).setColor_top kx)

theorem setColor_pair_nil {d : Dir} {cx cy : Color} {a b e : ColorTree A} {x y : A} (kx ky : Color)
    (h : IsPlace g nil T p (build d cx a x (build d cy b y e))) :
    ((g.setColor y ky).setColor x kx).cell nil = g.cell nil := by
  have hm : ∀ z, z = x ∨ z = y → z ≠ nil := fun z hz => h.ne_nil z <| by
    refine mem_toList_plug.mpr (Or.inl ?_)
    rw [mem_toList_build, mem_toList_build]
    tauto
  rw [setColor_nil (hm x (Or.inl rfl)), setColor_nil (hm y (Or.inr rfl))]

/-! ## After an insertion -/

section Insert

variable {d e : Dir} {ca cb : Color} {a b : A} {s u : ColorTree A}

/-- Parent and uncle turn black, the grandparent red. -/
theorem recolorUncle (h : IsPlace g nil T (⟨e, ca, a, s⟩ :: ⟨d, cb, b, u⟩ :: p) t)
    (hu : u ≠ .nil) :
    IsPlace (((g.setColor a .black).setColor (u.addr nil) .black).setColor b .red) nil T p
      (build d .red (build e .black t a s) b u.blacken) := by
  have h1 := sibling.mp (up.mp (h.setColor_top .black))
  have h2 := sibling.mp (h1.blacken hu)
  rw [Dir.flip_flip] at h2
  exact up.mp (h2.setColor_top .red)

theorem recolorUncle_nil (h : IsPlace g nil T (⟨e, ca, a, s⟩ :: ⟨d, cb, b, u⟩ :: p) t)
    (hu : u ≠ .nil) :
    (((g.setColor a .black).setColor (u.addr nil) .black).setColor b .red).cell nil =
      g.cell nil := by
  have hm : ∀ z ∈ (plug (⟨e, ca, a, s⟩ :: ⟨d, cb, b, u⟩ :: p) t).toList, z ≠ nil := h.ne_nil
  simp only [mem_toList_plug, mem_labels_cons] at hm
  rw [setColor_nil (hm b (by simp)), setColor_nil (hm _ (by simp [addr_mem nil hu])),
    setColor_nil (hm a (by simp))]

/-- The rotation at the grandparent, for an outer grandchild. -/
theorem rotateOuter (h : IsPlace g nil T (⟨d, ca, a, s⟩ :: ⟨d, cb, b, u⟩ :: p) t) :
    IsPlace (((g.setColor a .black).setColor b .red).rotate nil d.flip b) nil T
      (⟨d, .black, a, build d .red s b u⟩ :: p) t := by
  have h1 : IsPlace g nil T p (build d.flip cb u b (build d.flip ca s a t)) := by
    rw [build_flip, build_flip]
    exact up.mp (up.mp h)
  have h2 := (h1.setColor_pair .red .black).rotate
  rw [build_flip, build_flip] at h2
  exact child.mp h2

theorem rotateOuter_nil (h : IsPlace g nil T (⟨d, ca, a, s⟩ :: ⟨d, cb, b, u⟩ :: p) t) :
    (((g.setColor a .black).setColor b .red).rotate nil d.flip b).cell nil = g.cell nil := by
  have h1 : IsPlace g nil T p (build d.flip cb u b (build d.flip ca s a t)) := by
    rw [build_flip, build_flip]
    exact up.mp (up.mp h)
  rw [(h1.setColor_pair .red .black).rotate_nil, h1.setColor_pair_nil]

theorem rotateOuter_root (h : IsPlace g nil T (⟨d, ca, a, s⟩ :: ⟨d, cb, b, u⟩ :: p) t)
    (hp : p ≠ []) :
    (((g.setColor a .black).setColor b .red).rotate nil d.flip b).root = g.root := by
  have h1 : IsPlace g nil T p (build d.flip cb u b (build d.flip ca s a t)) := by
    rw [build_flip, build_flip]
    exact up.mp (up.mp h)
  rw [(h1.setColor_pair .red .black).rotate_root, if_neg hp]
  rfl

/-- The rotation at the parent, for an inner grandchild: the parent becomes the place. -/
theorem rotateInner {tn tf : ColorTree A} {z : A} {c : Color}
    (h : IsPlace g nil T (⟨d.flip, ca, a, s⟩ :: p) (build d c tn z tf)) :
    IsPlace (g.rotate nil d a) nil T (⟨d, c, z, tf⟩ :: p) (build d ca s a tn) := by
  have h1 : IsPlace g nil T p (build d ca s a (build d c tn z tf)) := by
    have h0 := up.mp h
    simpa only [Frame.attach, build_flip] using h0
  exact child.mp h1.rotate

theorem rotateInner_nil {tn tf : ColorTree A} {z : A} {c : Color}
    (h : IsPlace g nil T (⟨d.flip, ca, a, s⟩ :: p) (build d c tn z tf)) :
    (g.rotate nil d a).cell nil = g.cell nil := by
  have h1 : IsPlace g nil T p (build d ca s a (build d c tn z tf)) := by
    have h0 := up.mp h
    simpa only [Frame.attach, build_flip] using h0
  exact h1.rotate_nil

theorem rotateInner_root {tn tf : ColorTree A} {z : A} {c : Color}
    (h : IsPlace g nil T (⟨d.flip, ca, a, s⟩ :: p) (build d c tn z tf)) (hp : p ≠ []) :
    (g.rotate nil d a).root = g.root := by
  have h1 : IsPlace g nil T p (build d ca s a (build d c tn z tf)) := by
    have h0 := up.mp h
    simpa only [Frame.attach, build_flip] using h0
  rw [h1.rotate_root, if_neg hp]

end Insert

/-! ## After a deletion -/

section Delete

variable {d : Dir} {c cw : Color} {a w : A} {s r : ColorTree A}

/-- A red sibling is rotated above the parent. -/
theorem rotateRed (h : IsPlace g nil T (⟨d, c, a, build d cw s w r⟩ :: p) t) :
    IsPlace (((g.setColor w .black).setColor a .red).rotate nil d a) nil T
      (⟨d, .red, a, s⟩ :: ⟨d, .black, w, r⟩ :: p) t :=
  child.mp (child.mp ((child.mpr h).setColor_pair .red .black).rotate)

theorem rotateRed_nil (h : IsPlace g nil T (⟨d, c, a, build d cw s w r⟩ :: p) t) :
    (((g.setColor w .black).setColor a .red).rotate nil d a).cell nil = g.cell nil := by
  rw [((child.mpr h).setColor_pair .red .black).rotate_nil, (child.mpr h).setColor_pair_nil]

theorem rotateRed_root (h : IsPlace g nil T (⟨d, c, a, build d cw s w r⟩ :: p) t) (hp : p ≠ []) :
    (((g.setColor w .black).setColor a .red).rotate nil d a).root = g.root := by
  rw [((child.mpr h).setColor_pair .red .black).rotate_root, if_neg hp]
  rfl

/-- A black sibling with black children turns red; the parent becomes the place. -/
theorem recolorSibling (h : IsPlace g nil T (⟨d, c, a, build d cw s w r⟩ :: p) t) :
    IsPlace (g.setColor w .red) nil T p (build d c t a (build d .red s w r)) :=
  child.mpr (h.setColor_sibling .red)

theorem recolorSibling_nil (h : IsPlace g nil T (⟨d, c, a, build d cw s w r⟩ :: p) t) :
    (g.setColor w .red).cell nil = g.cell nil := by
  refine setColor_nil (h.ne_nil w ?_)
  simp [mem_toList_plug, Frame.attach]

/-- A red near child of the sibling is rotated above it. -/
theorem rotateNear {cu : Color} {u : A} {s₁ s₂ : ColorTree A}
    (h : IsPlace g nil T (⟨d, c, a, build d cw (build d cu s₁ u s₂) w r⟩ :: p) t) :
    IsPlace (((g.setColor u .black).setColor w .red).rotate nil d.flip w) nil T
      (⟨d, c, a, build d .black s₁ u (build d .red s₂ w r)⟩ :: p) t := by
  have h1 := sibling.mp h
  rw [← build_flip, ← build_flip d] at h1
  have h2 := (h1.setColor_pair .red .black).rotate
  rw [build_flip, build_flip] at h2
  have h3 := sibling.mp h2
  rwa [Dir.flip_flip] at h3

theorem rotateNear_nil {cu : Color} {u : A} {s₁ s₂ : ColorTree A}
    (h : IsPlace g nil T (⟨d, c, a, build d cw (build d cu s₁ u s₂) w r⟩ :: p) t) :
    (((g.setColor u .black).setColor w .red).rotate nil d.flip w).cell nil = g.cell nil := by
  have h1 := sibling.mp h
  rw [← build_flip, ← build_flip d] at h1
  rw [(h1.setColor_pair .red .black).rotate_nil, h1.setColor_pair_nil]

theorem rotateNear_root {cu : Color} {u : A} {s₁ s₂ : ColorTree A}
    (h : IsPlace g nil T (⟨d, c, a, build d cw (build d cu s₁ u s₂) w r⟩ :: p) t) :
    (((g.setColor u .black).setColor w .red).rotate nil d.flip w).root = g.root := by
  have h1 := sibling.mp h
  rw [← build_flip, ← build_flip d] at h1
  rw [(h1.setColor_pair .red .black).rotate_root, if_neg (by simp)]
  rfl

/-- The colour writes before the last rotation of a deletion repair. -/
theorem setColor_far (h : IsPlace g nil T (⟨d, c, a, build d cw s w r⟩ :: p) t) (hr : r ≠ .nil) :
    IsPlace (((g.setColor w c).setColor a .black).setColor (r.addr nil) .black) nil T p
      (build d .black t a (build d c s w r.blacken)) := by
  have h1 := (child.mpr h).setColor_pair .black c
  have h2 := sibling.mp (child.mp (sibling.mp (child.mp h1)))
  have h3 := sibling.mp (h2.blacken hr)
  rw [Dir.flip_flip] at h3
  have h4 := sibling.mp (child.mpr h3)
  rw [Dir.flip_flip] at h4
  exact child.mpr h4

theorem setColor_far_nil (h : IsPlace g nil T (⟨d, c, a, build d cw s w r⟩ :: p) t)
    (hr : r ≠ .nil) :
    (((g.setColor w c).setColor a .black).setColor (r.addr nil) .black).cell nil =
      g.cell nil := by
  have hrn : r.addr nil ≠ nil := h.ne_nil _ <| by
    simp [mem_toList_plug, Frame.attach, addr_mem nil hr]
  rw [setColor_nil hrn, (child.mpr h).setColor_pair_nil]

/-- The last rotation: the sibling takes the parent's colour and place. -/
theorem rotateFar (h : IsPlace g nil T (⟨d, c, a, build d cw s w r⟩ :: p) t) (hr : r ≠ .nil) :
    IsPlace ((((g.setColor w c).setColor a .black).setColor (r.addr nil) .black).rotate nil d a)
      nil T p (build d c (build d .black t a s) w r.blacken) :=
  (h.setColor_far hr).rotate

theorem rotateFar_nil (h : IsPlace g nil T (⟨d, c, a, build d cw s w r⟩ :: p) t)
    (hr : r ≠ .nil) :
    ((((g.setColor w c).setColor a .black).setColor (r.addr nil) .black).rotate nil d a).cell
      nil = g.cell nil := by
  rw [(h.setColor_far hr).rotate_nil, h.setColor_far_nil hr]

theorem rotateFar_root (h : IsPlace g nil T (⟨d, c, a, build d cw s w r⟩ :: p) t)
    (hr : r ≠ .nil) (hp : p ≠ []) :
    ((((g.setColor w c).setColor a .black).setColor (r.addr nil) .black).rotate nil d a).root =
      g.root := by
  rw [(h.setColor_far hr).rotate_root, if_neg hp]
  rfl

end Delete

end IsPlace

end MiniWeb.RedBlack

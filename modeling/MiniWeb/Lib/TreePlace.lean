import MiniWeb.Lib.LinkedTree

/-!
# Places in a laid out tree

`IsPlace g nil T p t` is the invariant of an algorithm that works at one place of a linked tree:
the cells lay out the whole tree, its labels in order are `T` and distinct, and the subtree `t`
stands at the place `p`. The lemmas move the place (`up`, `sibling`, `whole`) and say what each
write makes of it, so a proof about a repair loop never looks at single cells.
-/

namespace MiniWeb.RedBlack

open ColorTree TreePath Linked

universe u

variable {A : Type u}

structure IsPlace (g : Linked A) (nil : A) (T : List A) (p : TreePath A) (t : ColorTree A) :
    Prop where
  zip : Zip g nil p t
  labels_eq : (plug p t).toList = T
  distinct : T.Nodup

namespace IsPlace

variable {g g' : Linked A} {nil : A} {T : List A} {p q : TreePath A} {t : ColorTree A}

theorem whole : IsPlace g nil T p t ↔ IsPlace g nil T [] (plug p t) :=
  ⟨fun h => ⟨zip_plug.mp h.zip, h.labels_eq, h.distinct⟩,
    fun h => ⟨zip_plug.mpr h.zip, h.labels_eq, h.distinct⟩⟩

theorem up {f : Frame A} : IsPlace g nil T (f :: p) t ↔ IsPlace g nil T p (f.attach t) :=
  ⟨fun h => ⟨zip_cons.mp h.zip, h.labels_eq, h.distinct⟩,
    fun h => ⟨zip_cons.mpr h.zip, h.labels_eq, h.distinct⟩⟩

theorem append : IsPlace g nil T (p ++ q) t ↔ IsPlace g nil T q (plug p t) := by
  rw [whole, plug_append, ← whole]

theorem sibling {d : Dir} {c : Color} {a : A} {s : ColorTree A} :
    IsPlace g nil T (⟨d, c, a, s⟩ :: p) t ↔ IsPlace g nil T (⟨d.flip, c, a, t⟩ :: p) s := by
  rw [up, up]
  simp only [Frame.attach, build_flip]

theorem child {d : Dir} {c : Color} {a : A} {s : ColorTree A} :
    IsPlace g nil T p (build d c t a s) ↔ IsPlace g nil T (⟨d, c, a, s⟩ :: p) t :=
  (up (f := ⟨d, c, a, s⟩)).symm

/-- Two trees with the same labels in order, one of them laid out. -/
theorem of_zip {s : ColorTree A} (h : IsPlace g nil T p t) (hz : Zip g' nil p s)
    (hl : s.toList = t.toList) : IsPlace g' nil T p s := by
  refine ⟨hz, ?_, h.distinct⟩
  rw [toList_plug, hl, ← toList_plug]
  exact h.labels_eq

theorem nodup (h : IsPlace g nil T p t) : (plug p t).toList.Nodup := h.labels_eq ▸ h.distinct

theorem root (h : IsPlace g nil T p t) : g.root = (plug p t).addr nil := (whole.mp h).zip.1

theorem ne_nil (h : IsPlace g nil T p t) : ∀ x ∈ (plug p t).toList, x ≠ nil := h.zip.ne_nil

theorem addr_eq_nil (h : IsPlace g nil T p t) : t.addr nil = nil ↔ t = .nil := h.zip.2.addr_eq_nil

theorem topAddr_eq_nil (h : IsPlace g nil T p t) : topAddr nil p = nil ↔ p = [] :=
  h.zip.1.topAddr_eq_nil

theorem color (h : IsPlace g nil T p t) (hnil : (g.cell nil).color = .black) :
    (g.cell (t.addr nil)).color = t.color := h.zip.2.color hnil

theorem topColor (h : IsPlace g nil T p t) (hnil : (g.cell nil).color = .black) :
    (g.cell (topAddr nil p)).color = TreePath.topColor p := by
  cases p with
  | nil => exact hnil
  | cons f p => rw [topAddr_cons, h.zip.1.2.1, Links.color_build]; rfl

theorem cell {d : Dir} {c : Color} {a : A} {s : ColorTree A}
    (h : IsPlace g nil T p (build d c t a s)) :
    g.cell a = Links.build d (t.addr nil) (s.addr nil) (topAddr nil p) c :=
  (rep_build.mp h.zip.2).2.1

theorem frame_cell {f : Frame A} (h : IsPlace g nil T (f :: p) t) :
    g.cell f.label =
      Links.build f.dir (t.addr nil) (f.sibling.addr nil) (topAddr nil p) f.color := by
  rw [up] at h
  exact h.cell

theorem parent (h : IsPlace g nil T p t) (ht : t ≠ .nil) :
    (g.cell (t.addr nil)).parent = topAddr nil p := h.zip.parent ht

theorem nodup_tree (h : IsPlace g nil T p t) : t.toList.Nodup := (nodup_plug.mp h.nodup).1
theorem nodup_path (h : IsPlace g nil T p t) : (labels p).Nodup := (nodup_plug.mp h.nodup).2.1
theorem disjoint (h : IsPlace g nil T p t) : ∀ x ∈ t.toList, x ∉ labels p :=
  (nodup_plug.mp h.nodup).2.2

/-- The root of a node differs from the labels of its children. -/
theorem notMem {d : Dir} {c : Color} {a : A} {s : ColorTree A}
    (h : IsPlace g nil T p (build d c t a s)) : a ∉ t.toList ∧ a ∉ s.toList ∧ a ∉ labels p := by
  have hn := ((toList_build_perm d c t a s).nodup_iff).mp h.nodup_tree
  rw [List.nodup_cons, List.mem_append, not_or] at hn
  exact ⟨hn.1.1, hn.1.2, h.disjoint a (mem_toList_build.mpr (Or.inl rfl))⟩

theorem nodup_child {d : Dir} {c : Color} {a : A} {s : ColorTree A}
    (h : IsPlace g nil T p (build d c t a s)) :
    t.toList.Nodup ∧ s.toList.Nodup ∧ ∀ x ∈ t.toList, x ∉ s.toList := by
  have hn := ((toList_build_perm d c t a s).nodup_iff).mp h.nodup_tree
  rw [List.nodup_cons, List.nodup_append'] at hn
  exact ⟨hn.2.1, hn.2.2.1, fun x hx hs => hn.2.2.2 hx hs⟩

/-- The subtree's address is not a label of the context. -/
theorem addr_notMem (h : IsPlace g nil T p t) : t.addr nil ∉ labels p := by
  intro hm
  rcases addr_eq_or_mem nil t with h0 | h0
  · exact h.zip.1.ne_nil _ hm h0
  · exact h.disjoint _ h0 hm

/-- The place hangs as the `d`-child of the nearest ancestor exactly when the context says so. -/
theorem child_eq_iff {f : Frame A} (h : IsPlace g nil T (f :: p) t) (d : Dir)
    (hne : t.addr nil ≠ f.sibling.addr nil) :
    t.addr nil = (g.cell f.label).child d ↔ f.dir = d := by
  rw [h.frame_cell]
  rcases Dir.eq_or_eq_flip f.dir d with hd | hd
  · subst hd; simp
  · subst hd; simp [hne]

/-- Distinct addresses on the two sides of an ancestor, unless both sides are empty. -/
theorem addr_ne_sibling {f : Frame A} (h : IsPlace g nil T (f :: p) t)
    (hne : t ≠ .nil ∨ f.sibling ≠ .nil) : t.addr nil ≠ f.sibling.addr nil := by
  have hc := (up.mp h).nodup_child
  have hs := (sibling.mp h)
  intro he
  rcases addr_eq_or_mem nil t with h0 | h0
  · have h1 : f.sibling.addr nil = nil := he ▸ h0
    rcases hne with h2 | h2
    · exact h2 (h.addr_eq_nil.mp h0)
    · exact h2 (hs.addr_eq_nil.mp h1)
  · rcases addr_eq_or_mem nil f.sibling with h1 | h1
    · exact h.ne_nil _ (mem_toList_plug.mpr (Or.inl h0)) (he.trans h1)
    · exact hc.2.2 _ h0 (he ▸ h1)

/-- The subtree's address is the root's only at the top. -/
theorem addr_eq_root (h : IsPlace g nil T p t) :
    t.addr nil = (plug p t).addr nil ↔ p = [] := by
  refine ⟨fun h0 => ?_, fun hp => by rw [hp]; rfl⟩
  by_contra hp
  have hm : (plug p t).addr nil ∈ labels p := by
    clear h h0
    induction p generalizing t with
    | nil => exact absurd rfl hp
    | cons f p ih =>
      rw [plug_cons]
      by_cases hq : p = []
      · subst hq
        exact mem_labels_cons.mpr (Or.inl (addr_build ..))
      · exact mem_labels_cons.mpr (Or.inr (Or.inr (ih hq)))
  exact h.addr_notMem (h0 ▸ hm)

variable [DecidableEq A]

/-! ## Painting -/

theorem setColor {d : Dir} {c : Color} {a : A} {s : ColorTree A} (k : Color)
    (h : IsPlace g nil T p (build d c t a s)) :
    IsPlace (g.setColor a k) nil T p (build d k t a s) := by
  obtain ⟨ht, hs, hp⟩ := h.notMem
  have hag : ∀ x, x ≠ a → (g.setColor a k).cell x = g.cell x := fun x hx => by
    rw [setColor_cell, if_neg hx]
  obtain ⟨hz, hrep⟩ := h.zip
  obtain ⟨ha, hc, hrt, hrs⟩ := rep_build.mp hrep
  refine h.of_zip ⟨?_, rep_build.mpr ⟨ha, ?_, ?_, ?_⟩⟩ (toList_build_color ..)
  · rw [addr_build] at hz ⊢
    exact hz.congr rfl fun x hx => hag x fun h0 => hp (h0 ▸ hx)
  · rw [setColor_cell, if_pos rfl, hc, Links.setColor_build]
  · exact hrt.congr fun x hx => hag x fun h0 => ht (h0 ▸ hx)
  · exact hrs.congr fun x hx => hag x fun h0 => hs (h0 ▸ hx)

theorem blacken (h : IsPlace g nil T p t) (ht : t ≠ .nil) :
    IsPlace (g.setColor (t.addr nil) .black) nil T p t.blacken := by
  obtain ⟨c, l, a, r, rfl⟩ := exists_build .left ht
  rw [addr_build, blacken_build]
  exact h.setColor .black

/-- Painting the nearest ancestor. -/
theorem setColor_top {d : Dir} {c : Color} {a : A} {s : ColorTree A} (k : Color)
    (h : IsPlace g nil T (⟨d, c, a, s⟩ :: p) t) :
    IsPlace (g.setColor a k) nil T (⟨d, k, a, s⟩ :: p) t :=
  child.mp ((child.mpr h).setColor k)

/-- Painting the subtree on the other side of the nearest ancestor. -/
theorem setColor_sibling {d e : Dir} {c c' : Color} {a b : A} {s r : ColorTree A} (k : Color)
    (h : IsPlace g nil T (⟨d, c, a, build e c' s b r⟩ :: p) t) :
    IsPlace (g.setColor b k) nil T (⟨d, c, a, build e k s b r⟩ :: p) t :=
  sibling.mpr ((sibling.mp h).setColor k)

theorem setColor_nil {a : A} {k : Color} (ha : a ≠ nil) :
    (g.setColor a k).cell nil = g.cell nil := by
  rw [setColor_cell, if_neg ha.symm]

/-! ## Rotating -/

theorem rotate {d : Dir} {cx cy : Color} {a b e : ColorTree A} {x y : A}
    (h : IsPlace g nil T p (build d cx a x (build d cy b y e))) :
    IsPlace (g.rotate nil d x) nil T p (build d cy (build d cx a x b) y e) :=
  h.of_zip (h.zip.rotate h.nodup) (toList_rotate ..)

/-- A rotation does not write the sentinel's cell. -/
theorem rotate_nil {d : Dir} {cx cy : Color} {a b e : ColorTree A} {x y : A}
    (h : IsPlace g nil T p (build d cx a x (build d cy b y e))) :
    (g.rotate nil d x).cell nil = g.cell nil := by
  have hd := RotateDisjoint.of_nodup h.nodup
  obtain ⟨hxn, hx, -, hrep⟩ := rep_build.mp h.zip.2
  obtain ⟨hyn, hy, hb, -⟩ := rep_build.mp hrep
  rw [addr_build] at hx
  refine rotate_cell hx hy hd.ne ?_ hxn.symm hyn.symm Eq.symm Eq.symm
  rintro rfl
  rcases addr_eq_or_mem nil b with h0 | h0
  · exact hxn h0
  · exact hd.x_notMem.2.1 h0

/-- A rotation below an ancestor keeps the root. -/
theorem rotate_root {d : Dir} {cx cy : Color} {a b e : ColorTree A} {x y : A}
    (h : IsPlace g nil T p (build d cx a x (build d cy b y e))) :
    (g.rotate nil d x).root = if p = [] then y else g.root := by
  have hd := RotateDisjoint.of_nodup h.nodup
  obtain ⟨hxn, hx, -, hrep⟩ := rep_build.mp h.zip.2
  obtain ⟨hyn, hy, hb, -⟩ := rep_build.mp hrep
  rw [addr_build] at hx
  rw [Linked.rotate_root hx hy hd.ne]
  · simp only [h.topAddr_eq_nil]
  · rintro rfl
    rcases addr_eq_or_mem nil b with h0 | h0
    · exact hxn h0
    · exact hd.x_notMem.2.1 h0

/-! ## Transplanting -/

/-- A child of a node takes the node's place; the node and its other child are dropped. -/
theorem transplant {d : Dir} {c : Color} {z : A} {s : ColorTree A}
    (h : IsPlace g nil T p (build d c t z s)) :
    IsPlace (g.transplant nil z (t.addr nil)) nil (plug p t).toList p t := by
  obtain ⟨hzt, hzs, hzp⟩ := h.notMem
  have hpar : (g.cell z).parent = topAddr nil p := by rw [h.cell, Links.parent_build]
  have htp : ∀ x ∈ t.toList, x ∉ labels p := fun x hx =>
    h.disjoint x (mem_toList_build.mpr (Or.inr (Or.inl hx)))
  have htq : ∀ x ∈ t.toList, x = topAddr nil p → topAddr nil p = nil := fun x hx h0 =>
    (topAddr_eq_or_mem nil p).resolve_right fun h1 => htp x hx (h0 ▸ h1)
  obtain ⟨hz, hrep⟩ := h.zip
  obtain ⟨hzn, -, hrt, -⟩ := rep_build.mp hrep
  rw [addr_build] at hz
  rw [transplant_eq, hpar]
  refine ⟨⟨?_, ?_⟩, rfl, nodup_plug.mpr ⟨h.nodup_child.1, h.nodup_path, htp⟩⟩
  · refine (hz.relink .left h.nodup_path hzn hzp (v := t.addr nil)).congr rfl fun x hx => ?_
    rw [setParent_cell, if_neg]
    rintro rfl
    rcases addr_eq_or_mem nil t with h0 | h0
    · exact hz.ne_nil _ hx h0
    · exact htp _ h0 hx
  · refine hrt.move h.nodup_child.1 (fun htn => ?_) fun x hx hxt => ?_
    · rw [setParent_cell, if_pos rfl, relink_cell (htq _ (addr_mem nil htn))]
    · rw [setParent_cell, if_neg hxt, relink_cell (htq x hx)]

/-- A transplant keeps the root unless it happens there. -/
theorem transplant_root {d : Dir} {c : Color} {z v : A} {s : ColorTree A}
    (h : IsPlace g nil T p (build d c t z s)) :
    (g.transplant nil z v).root = if p = [] then v else g.root := by
  rw [transplant_eq, setParent_root, relink_root, h.cell, Links.parent_build]
  simp only [h.topAddr_eq_nil]

/-! ## Taking over a place

A node `y` that is no longer part of the tree, but whose right child already is the right
subtree of `z`, takes the place, the left subtree and the colour of `z`. -/

section TakePlace

variable {c : Color} {l r : ColorTree A} {z y r' : A}

/-- What is known when `y` is about to take over. -/
structure ReadyToTake (g : Linked A) (nil : A) (p : TreePath A) (c : Color) (l r : ColorTree A)
    (z y : A) : Prop where
  path : LayoutPath g nil p z
  cell_z : (g.cell z).left = l.addr nil ∧ (g.cell z).parent = topAddr nil p ∧ (g.cell z).color = c
  left : Layout g nil z l
  left_ne : l ≠ .nil
  right : Layout g nil y r
  cell_y : (g.cell y).right = r.addr nil
  nodup : (plug p (.node c l z r)).toList.Nodup
  fresh : y ∉ (plug p (.node c l z r)).toList
  z_ne : z ≠ nil
  y_ne : y ≠ nil

theorem takePlace_eq (h : ReadyToTake g nil p c l r z y) :
    g.takePlace nil z y =
      ((((g.relink nil .left (topAddr nil p) z y).setParent y (topAddr nil p)).setChild y .left
        (l.addr nil)).setParent (l.addr nil) y).setColor y c := by
  have hzy : z ≠ y := by
    rintro rfl
    exact h.fresh (mem_toList_plug.mpr (Or.inl (by simp)))
  have hzp : z = topAddr nil p → topAddr nil p = nil := fun h0 =>
    (topAddr_eq_or_mem nil p).resolve_right fun h1 =>
      (nodup_plug.mp h.nodup).2.2 z (by simp) (h0 ▸ h1)
  have hzl : z ≠ l.addr nil := by
    intro h0
    have hm := h0 ▸ addr_mem nil h.left_ne
    have hn := List.perm_middle.nodup_iff.mp (nodup_plug.mp h.nodup).1
    rw [List.nodup_cons, List.mem_append, not_or] at hn
    exact hn.1.1 hm
  obtain ⟨hl, hq, hc⟩ := h.cell_z
  simp only [Linked.takePlace, transplant_eq, setParent_cell, setChild_cell, if_neg hzy,
    if_neg hzl, relink_cell hzp, hl, hq, hc, if_true, Links.setChild]

/-- The cells after taking over, outside the taker, the left child's root and the ancestor. -/
theorem takePlace_cell (h : ReadyToTake g nil p c l r z y) {x : A} (hy : x ≠ y)
    (hl : x ≠ l.addr nil) (hq : x = topAddr nil p → topAddr nil p = nil) :
    (g.takePlace nil z y).cell x = g.cell x := by
  rw [takePlace_eq h, setColor_cell, if_neg hy, setParent_cell, if_neg hl, setChild_cell,
    if_neg hy, setParent_cell, if_neg hy, relink_cell hq]

/-- Taking over does not write the sentinel's cell. -/
theorem takePlace_nil (h : ReadyToTake g nil p c l r z y) :
    (g.takePlace nil z y).cell nil = g.cell nil :=
  takePlace_cell h h.y_ne.symm (fun h0 => h.left_ne (h.left.addr_eq_nil.mp h0.symm)) Eq.symm

theorem takePlace_root (h : ReadyToTake g nil p c l r z y) :
    (g.takePlace nil z y).root = if p = [] then y else g.root := by
  rw [takePlace_eq h, setColor_root, setParent_root, setChild_root, setParent_root, relink_root]
  simp only [h.path.topAddr_eq_nil]

omit [DecidableEq A] in
/-- The labels after taking over are distinct. -/
theorem ReadyToTake.nodup_take (h : ReadyToTake g nil p c l r z y) :
    (plug p (.node c l y r)).toList.Nodup := by
  obtain ⟨ht, hp, hd⟩ := nodup_plug.mp h.nodup
  have hfr := h.fresh
  rw [mem_toList_plug, not_or] at hfr
  simp only [toList_node, List.mem_append, List.mem_cons, not_or] at hfr ht hd ⊢
  have hn := List.perm_middle.nodup_iff.mp ht
  rw [List.nodup_cons] at hn
  refine nodup_plug.mpr ⟨?_, hp, ?_⟩
  · rw [toList_node, List.perm_middle.nodup_iff, List.nodup_cons, List.mem_append, not_or]
    exact ⟨⟨hfr.1.1, hfr.1.2.2⟩, hn.2⟩
  · intro x hx
    rw [toList_node, List.mem_append, List.mem_cons] at hx
    rcases hx with hx | rfl | hx
    · exact hd x (Or.inl hx)
    · exact hfr.2
    · exact hd x (Or.inr (Or.inr hx))

/-- **Taking over.** The cells lay out the tree with `y` in the place of `z`. -/
theorem takePlace (h : ReadyToTake g nil p c l r z y) :
    IsPlace (g.takePlace nil z y) nil (plug p (.node c l y r)).toList p (.node c l y r) := by
  obtain ⟨ht, hp, hd⟩ := nodup_plug.mp h.nodup
  obtain ⟨ht', -, hd'⟩ := nodup_plug.mp h.nodup_take
  have hlm := addr_mem nil h.left_ne
  rw [toList_node] at ht ht'
  have hn := List.perm_middle.nodup_iff.mp ht'
  rw [List.nodup_cons, List.mem_append, not_or, List.nodup_append'] at hn
  obtain ⟨⟨hyl, hyr⟩, hnl, hnr, hlr⟩ := hn
  have hly : l.addr nil ≠ y := by rintro h0; exact hyl (h0 ▸ hlm)
  -- no label of a subtree is the ancestor whose child field is redirected
  have htop : ∀ x ∈ l.toList ++ y :: r.toList, x = topAddr nil p → topAddr nil p = nil :=
    fun x hx h0 => (topAddr_eq_or_mem nil p).resolve_right fun h1 => hd' x hx (h0 ▸ h1)
  refine ⟨⟨?_, h.y_ne, ?_, ?_, ?_⟩, rfl, h.nodup_take⟩
  · have hzp : z ∉ labels p := hd z (by simp)
    rw [addr_node, takePlace_eq h]
    refine (h.path.relink .left hp h.z_ne hzp (v := y)).congr rfl fun x hx => ?_
    have hxy : x ≠ y := by rintro rfl; exact hd' x (by simp) hx
    have hxl : x ≠ l.addr nil := by rintro rfl; exact hd' _ (by simp [hlm]) hx
    rw [setColor_cell, if_neg hxy, setParent_cell, if_neg hxl, setChild_cell, if_neg hxy,
      setParent_cell, if_neg hxy]
  · rw [takePlace_eq h, setColor_cell, if_pos rfl, setParent_cell, if_neg hly.symm, setChild_cell,
      if_pos rfl, setParent_cell, if_pos rfl, relink_cell (htop y (by simp))]
    rw [Links.mk.injEq]
    exact ⟨rfl, h.cell_y, rfl, rfl⟩
  · refine h.left.move hnl (fun _ => ?_) fun x hx hxl => ?_
    · rw [takePlace_eq h, setColor_cell, if_neg hly, setParent_cell, if_pos rfl, setChild_cell,
        if_neg hly, setParent_cell, if_neg hly, relink_cell (htop _ (by simp [hlm]))]
    · refine takePlace_cell h ?_ hxl (htop x (by simp [hx]))
      rintro rfl; exact hyl hx
  · refine h.right.congr fun x hx => takePlace_cell h ?_ ?_ (htop x (by simp [hx]))
    · rintro rfl; exact hyr hx
    · rintro rfl; exact hlr hlm hx

end TakePlace

end IsPlace

end MiniWeb.RedBlack

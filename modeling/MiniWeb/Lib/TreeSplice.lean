import MiniWeb.Lib.TreePlace

/-!
# Hanging a leaf and taking a node out

`hang` puts a new leaf at an empty place. `splice` says which tree is left when the root of a
subtree is taken out: a node with a missing child leaves its place to the other child, a node
with two children to its successor, the least node of its right subtree. It answers the place
that lost one node above it, the subtree there and the colour that was lost, which is what the
deletion repair starts from.
-/

namespace MiniWeb.RedBlack

open ColorTree TreePath Linked

universe u

variable {A : Type u}

/-! ## A new leaf -/

section Hang

variable [DecidableEq A]

/-- Make `z` the subtree at the empty place `p`. -/
def Linked.hang (p : TreePath A) (z : A) (g : Linked A) : Linked A :=
  match p with
  | [] => g.setRoot z
  | f :: _ => g.setChild f.label f.dir z

theorem Linked.hang_cell {p : TreePath A} {z x : A} {g : Linked A} (hx : x ∉ labels p) :
    (g.hang p z).cell x = g.cell x := by
  cases p with
  | nil => rfl
  | cons f p =>
    refine (setChild_cell ..).trans (if_neg ?_)
    rintro rfl
    exact hx (mem_labels_cons.mpr (Or.inl rfl))

theorem IsPlace.hang {g : Linked A} {nil z : A} {T : List A} {p : TreePath A} {c : Color}
    (h : IsPlace g nil T p .nil) (hz : z ∉ T) (hzn : z ≠ nil)
    (hcell : g.cell z = ⟨nil, nil, topAddr nil p, c⟩) :
    IsPlace (g.hang p z) nil (before p ++ z :: after p) p (.node c .nil z .nil) := by
  have hT : T = labels p := by
    rw [← h.labels_eq, toList_plug, toList_nil, List.append_nil, labels]
  rw [hT] at hz
  refine ⟨⟨?_, hzn, ?_, trivial, trivial⟩, ?_, ?_⟩
  · refine h.zip.1.redirect h.nodup_path ?_ ?_ ?_ ?_
    · rintro rfl; rfl
    · intro hp
      cases p with
      | nil => exact absurd rfl hp
      | cons f p => rfl
    · rintro f q rfl
      exact (setChild_cell ..).trans (if_pos rfl)
    · intro x hx hxt
      cases p with
      | nil => cases hx
      | cons f p => exact (setChild_cell ..).trans (if_neg hxt)
  · rw [hang_cell hz, hcell]
    rfl
  · rw [toList_plug, toList_node, toList_nil, List.append_assoc]
    rfl
  · rw [List.perm_middle.nodup_iff, List.nodup_cons]
    exact ⟨hz, h.nodup_path⟩

end Hang

/-! ## The least node -/

/-- The least node of a subtree: its place, colour and label and its right subtree. -/
structure Least (A : Type u) where
  path : TreePath A
  color : Color
  label : A
  right : ColorTree A

/-- The least node below a node of colour `c`, label `a` and right subtree `r`, given its left
subtree. -/
def least (p : TreePath A) (c : Color) (a : A) (r : ColorTree A) : ColorTree A → Least A
  | .nil => ⟨p, c, a, r⟩
  | .node c' l' a' r' => least (⟨.left, c, a, r⟩ :: p) c' a' r' l'

theorem plug_least (p : TreePath A) (c : Color) (a : A) (r l : ColorTree A) :
    let m := least p c a r l
    plug m.path (.node m.color .nil m.label m.right) = plug p (.node c l a r) := by
  induction l generalizing p c a r with
  | nil => rfl
  | node c' l' a' r' ih _ => exact ih ..

/-- No label below stands before the least one. -/
theorem before_least (p : TreePath A) (c : Color) (a : A) (r l : ColorTree A) :
    before (least p c a r l).path = before p := by
  induction l generalizing p c a r with
  | nil => rfl
  | node c' l' a' r' ih _ => exact ih ..

/-! ## Taking a node out -/

/-- What is left of a node of colour `c` with children `l` and `r` at the place `p`. -/
def splice (p : TreePath A) (c : Color) (l r : ColorTree A) : TreePath A × ColorTree A × Color :=
  match l, r with
  | .nil, r => (p, r, c)
  | l, .nil => (p, l, c)
  | l, .node cr lr a rr =>
    let m := least [] cr a rr lr
    (m.path ++ ⟨.right, c, m.label, l⟩ :: p, m.right, m.color)

/-- Colours and heights do not see the label of an ancestor. -/
theorem RBPath.relabel {q p : TreePath A} {d : Dir} {c : Color} {a : A} (b : A) {s : ColorTree A}
    {n : Nat} (h : RBPath (q ++ ⟨d, c, a, s⟩ :: p) n) : RBPath (q ++ ⟨d, c, b, s⟩ :: p) n := by
  induction q generalizing n with
  | nil =>
    cases h with
    | red hs bs hp ht bp => exact .red hs bs hp ht bp
    | black bs bp => exact .black bs bp
  | cons f q ih =>
    cases h with
    | red hs bs hp ht bp =>
      refine .red hs bs (by simp) ?_ (ih bp)
      cases q with
      | nil => exact ht
      | cons _ _ => exact ht
    | black bs bp => exact .black bs (ih bp)

/-- What remains of a red-black tree where a node with a missing child stood: a red-black tree
when the node was red, and else a place that is one black node short. -/
def Remains (p : TreePath A) (t : ColorTree A) : Color → Prop
  | .red => RBTree (plug p t)
  | .black => ∃ n, RBPath p (n + 1) ∧ Short t n

theorem RBPath.remains {p : TreePath A} {d : Dir} {c : Color} {z : A} {t : ColorTree A} {n : Nat}
    (hp : RBPath p n) (ht : RB (build d c t z .nil) n) : Remains p t c := by
  cases c with
  | red =>
    obtain ⟨htc, -, bt, -⟩ := ht.red_inv
    exact hp.plug bt (.of_black htc)
  | black =>
    obtain ⟨m, rfl, bt, -⟩ := ht.black_inv
    exact ⟨m, hp, .of_rb bt⟩

theorem RBTree.splice {p : TreePath A} {c : Color} {l r : ColorTree A} {z : A}
    (h : RBTree (plug p (.node c l z r))) :
    Remains (splice p c l r).1 (splice p c l r).2.1 (splice p c l r).2.2 := by
  unfold RedBlack.splice
  split
  · obtain ⟨n, hp, ht, -⟩ := h.unplug
    exact hp.remains (d := .right) ht
  · obtain ⟨n, hp, ht, -⟩ := h.unplug
    exact hp.remains (d := .left) ht
  next cr lr a rr _ =>
    -- the successor leaves its place and its label replaces that of the node
    have heq := plug_least [] cr a rr lr
    simp only [plug_nil] at heq
    rw [← heq] at h
    have h' : RBTree (plug ((least [] cr a rr lr).path ++ ⟨.right, c, z, l⟩ :: p)
        (.node (least [] cr a rr lr).color .nil (least [] cr a rr lr).label
          (least [] cr a rr lr).right)) := by
      rw [plug_append]
      exact h
    obtain ⟨n, hp, ht, -⟩ := h'.unplug
    exact (hp.relabel _).remains (d := .right) ht

/-- The place that is left is not deeper than the tree was high. -/
theorem length_splice_lt (p : TreePath A) (c : Color) (l r : ColorTree A) (z : A) :
    (RedBlack.splice p c l r).1.length < (plug p (.node c l z r)).height := by
  have hp := height_plug_le p (.node c l z r)
  rw [ColorTree.height] at hp
  unfold RedBlack.splice
  split
  · change p.length < _
    omega
  · change p.length < _
    omega
  next cr lr a rr _ =>
    have hr := height_plug_le (least [] cr a rr lr).path (.node (least [] cr a rr lr).color .nil
      (least [] cr a rr lr).label (least [] cr a rr lr).right)
    rw [plug_least, plug_nil, ColorTree.height] at hr
    rw [List.length_append, List.length_cons]
    omega

/-- The labels that are left, in order. -/
theorem toList_splice (p : TreePath A) (c : Color) (l r : ColorTree A) :
    (plug (splice p c l r).1 (splice p c l r).2.1).toList =
      before p ++ (l.toList ++ r.toList) ++ after p := by
  unfold splice
  split
  · rw [toList_plug, toList_nil, List.nil_append]
  · rw [toList_plug, toList_nil, List.append_nil]
  next cr lr a rr _ =>
    have heq := congrArg toList (plug_least [] cr a rr lr)
    rw [toList_plug] at heq
    simp only [plug_nil] at heq
    rw [plug_append, plug_cons, toList_plug, ← heq]
    simp [Frame.attach, build, toList_plug, before_least]

/-! ## Taking a node out of linked cells -/

section Detach

variable [DecidableEq A] {g : Linked A} {nil : A} {T : List A} {p q : TreePath A}

/-- `y`, the successor of `z`, leaves its place to its right child `x` and takes over the right
subtree of `z`. -/
def Linked.detach (nil z y x : A) (g : Linked A) : Linked A :=
  if (g.cell y).parent = z then g.setParent x y
  else
    let g := g.transplant nil y x
    let g := g.setChild y .right (g.cell z).right
    g.setParent (g.cell y).right y

namespace IsPlace

/-- The sentinel's parent field is the scratch space of a transplant. -/
theorem transplant_nil {d : Dir} {c : Color} {z : A} {t s : ColorTree A}
    (h : IsPlace g nil T p (build d c t z s)) :
    ∃ w, (g.transplant nil z (t.addr nil)).cell nil = { g.cell nil with parent := w } ∧
      (t = .nil → w = topAddr nil p) := by
  have hpar : (g.cell z).parent = topAddr nil p := by rw [h.cell, Links.parent_build]
  rw [transplant_eq, hpar, setParent_cell, relink_cell Eq.symm]
  split
  · exact ⟨_, rfl, fun _ => rfl⟩
  next hne =>
    refine ⟨(g.cell nil).parent, rfl, ?_⟩
    rintro rfl
    exact absurd rfl hne

omit [DecidableEq A] in
/-- With the sentinel's parent field set, the parent field below a place is right also when the
place is empty. -/
theorem parent_addr {t : ColorTree A} (h : IsPlace g nil T p t)
    (hw : t = .nil → (g.cell nil).parent = topAddr nil p) :
    (g.cell (t.addr nil)).parent = topAddr nil p := by
  by_cases ht : t = .nil
  · subst ht
    exact hw rfl
  · exact h.parent ht

variable {c cy : Color} {l ry : ColorTree A} {z y : A}

omit [DecidableEq A] in
/-- The successor, seen from the place of the node. -/
theorem successor (h : IsPlace g nil T p (.node c l z (plug q (.node cy .nil y ry)))) :
    IsPlace g nil T (q ++ ⟨.right, c, z, l⟩ :: p) (build .right cy ry y .nil) :=
  append.mpr ((child (d := .right)).mp h)

omit [DecidableEq A] in
/-- The successor is another node, and no other label of the tree. -/
theorem successor_notMem (h : IsPlace g nil T p (.node c l z (plug q (.node cy .nil y ry)))) :
    y ≠ z ∧ y ∉ (plug p (.node c l z (plug q ry))).toList := by
  obtain ⟨hry, -, hlab⟩ := h.successor.notMem
  refine ⟨?_, ?_⟩
  · rintro rfl
    exact hlab (mem_labels_append.mpr (Or.inr (mem_labels_cons.mpr (Or.inl rfl))))
  · have hp : plug p (.node c l z (plug q ry)) = plug (q ++ ⟨.right, c, z, l⟩ :: p) ry := by
      rw [plug_append]
      rfl
    rw [hp, mem_toList_plug, not_or]
    exact ⟨hry, hlab⟩

/-- The successor is the right child: it already has its right subtree. -/
theorem detach_child (h : IsPlace g nil T p (.node c l z (.node cy .nil y ry))) (hl : l ≠ .nil) :
    ReadyToTake (g.detach nil z y (ry.addr nil)) nil p c l ry z y ∧
      ∃ w, (g.detach nil z y (ry.addr nil)).cell nil = { g.cell nil with parent := w } ∧
        (ry = .nil → w = y) := by
  have hs : IsPlace g nil T (⟨.right, c, z, l⟩ :: p) (build .right cy ry y .nil) :=
    h.successor (q := [])
  have hpar : (g.cell y).parent = z := by rw [hs.cell, Links.parent_build]; rfl
  have hd : g.detach nil z y (ry.addr nil) = g.setParent (ry.addr nil) y := by
    rw [Linked.detach, if_pos hpar]
  obtain ⟨hyz, hy⟩ := h.successor_notMem (q := [])
  obtain ⟨hroot, hzn, hcz, hrl, hyn, hcy, -, hry⟩ := h.zip
  -- the write changes nothing but the sentinel's parent field
  have hcell : ∀ x, x ≠ nil → (g.detach nil z y (ry.addr nil)).cell x = g.cell x := by
    intro x hx
    rw [hd, setParent_cell]
    split
    next hxr =>
      have hne : ry ≠ .nil := by
        rintro rfl
        exact hx hxr
      have hp : (g.cell (ry.addr nil)).parent = y := (child.mp hs).parent hne
      rw [hxr, ← hp]
    next => rfl
  have hT := h.ne_nil
  refine ⟨⟨?_, ?_, ?_, hl, ?_, ?_, ?_, hy, hzn, hyn⟩, ?_⟩
  · refine hroot.congr ?_ fun x hx => hcell x (hT x (mem_toList_plug.mpr (Or.inr hx)))
    rw [hd, setParent_root]
  · rw [hcell z hzn, hcz]
    exact ⟨rfl, rfl, rfl⟩
  · exact hrl.congr fun x hx => hcell x (hrl.ne_nil x hx)
  · exact hry.congr fun x hx => hcell x (hry.ne_nil x hx)
  · rw [hcell y hyn, hcy]
  · have hn := h.nodup
    rw [nodup_plug] at hn ⊢
    simp only [toList_node, toList_nil, List.nil_append, List.mem_append, List.mem_cons] at hn ⊢
    refine ⟨?_, hn.2.1, fun x hx => hn.2.2 x (by tauto)⟩
    exact hn.1.sublist (by simp)
  · rw [hd, setParent_cell]
    split
    · exact ⟨y, rfl, fun _ => rfl⟩
    next hne =>
      refine ⟨(g.cell nil).parent, rfl, ?_⟩
      rintro rfl
      exact absurd rfl hne

/-- The successor lies deeper: it leaves its place first. -/
theorem detach_deep {f : Frame A} (h : IsPlace g nil T p
      (.node c l z (plug (f :: q) (.node cy .nil y ry)))) (hl : l ≠ .nil) :
    ReadyToTake (g.detach nil z y (ry.addr nil)) nil p c l (plug (f :: q) ry) z y ∧
      ∃ w, (g.detach nil z y (ry.addr nil)).cell nil = { g.cell nil with parent := w } ∧
        (ry = .nil → w = f.label) := by
  have hs := h.successor
  have hpar : (g.cell y).parent = f.label := by rw [hs.cell, Links.parent_build]; rfl
  have hfz : f.label ≠ z := by
    intro h0
    have hf := (up.mp hs).notMem.2.2
    rw [h0] at hf
    exact hf (mem_labels_append.mpr (Or.inr (mem_labels_cons.mpr (Or.inl rfl))))
  obtain ⟨hyz, hy⟩ := h.successor_notMem
  have hyn : y ≠ nil := hs.zip.2.ne_nil y (by simp)
  -- after the transplant the tree without `y` is laid out
  obtain ⟨w, hw, hwt⟩ := hs.transplant_nil
  have h1 : IsPlace (g.transplant nil y (ry.addr nil)) nil _ p
      (.node c l z (plug (f :: q) ry)) := up.mp (append.mp hs.transplant)
  generalize hR : plug (f :: q) ry = R at h1 hy ⊢
  have hRne : R ≠ .nil := hR ▸ plug_ne_nil (p := q) (build_ne_nil _ _ _ _ _)
  obtain ⟨hroot, hzn, hcz, hrl, hrR⟩ := h1.zip
  have hRm := addr_mem nil hRne
  rw [mem_toList_plug, not_or, toList_node, List.mem_append, List.mem_cons, not_or, not_or] at hy
  obtain ⟨⟨hyl, -, hyR⟩, hyp⟩ := hy
  obtain ⟨hzl, hzR, hzp⟩ := h1.notMem (d := .left)
  have hnR := (h1.nodup_child (d := .left)).2.1
  have hyv : y ≠ R.addr nil := by rintro h0; exact hyR (h0 ▸ hRm)
  have hd : g.detach nil z y (ry.addr nil) =
      ((g.transplant nil y (ry.addr nil)).setChild y .right (R.addr nil)).setParent
        (R.addr nil) y := by
    rw [Linked.detach, if_neg (by rw [hpar]; exact hfz)]
    simp only [hcz, setChild_cell, if_true, Links.setChild]
  have hcell : ∀ x, x ≠ y → x ≠ R.addr nil → (g.detach nil z y (ry.addr nil)).cell x =
      (g.transplant nil y (ry.addr nil)).cell x := by
    intro x hxy hxv
    rw [hd, setParent_cell, if_neg hxv, setChild_cell, if_neg hxy]
  refine ⟨⟨?_, ?_, ?_, hl, ?_, ?_, h1.nodup, ?_, hzn, hyn⟩, w, ?_, hwt⟩
  · refine hroot.congr (by rw [hd]; rfl) fun x hx => hcell x ?_ ?_
    · rintro rfl; exact hyp hx
    · rintro rfl; exact h1.disjoint _ (by simp [hRm]) hx
  · rw [hcell z hyz.symm fun h0 => hzR (h0 ▸ hRm), hcz]
    exact ⟨rfl, rfl, rfl⟩
  · refine hrl.congr fun x hx => hcell x ?_ ?_
    · rintro rfl; exact hyl hx
    · rintro rfl; exact (h1.nodup_child (d := .left)).2.2 _ hx hRm
  · refine hrR.move hnR (fun _ => ?_) fun x hx hxv => hcell x ?_ hxv
    · rw [hd, setParent_cell, if_pos rfl, setChild_cell, if_neg hyv.symm]
    · rintro rfl; exact hyR hx
  · rw [hd, setParent_cell, if_neg hyv, setChild_cell, if_pos rfl]
    rfl
  · rw [mem_toList_plug, not_or, toList_node, List.mem_append, List.mem_cons, not_or, not_or]
    exact ⟨⟨hyl, hyz, hyR⟩, hyp⟩
  · rw [hcell nil hyn.symm fun h0 => hRne (hrR.addr_eq_nil.mp h0.symm), hw]

omit [DecidableEq A] in
theorem topAddr_successor (nil : A) (q p : TreePath A) (c : Color) (y : A) (l : ColorTree A) :
    topAddr nil (q ++ ⟨.right, c, y, l⟩ :: p) = topAddr y q := by
  cases q <;> rfl

/-- Until it takes over, the successor leaves the root alone. -/
theorem detach_root (h : IsPlace g nil T p (.node c l z (plug q (.node cy .nil y ry)))) :
    (g.detach nil z y (ry.addr nil)).root = g.root := by
  unfold Linked.detach
  split
  · rfl
  · exact (h.successor.transplant_root).trans (if_neg (by simp))

/-- **A node with two children leaves its place to its successor.** -/
theorem takeOver (h : IsPlace g nil T p (.node c l z (plug q (.node cy .nil y ry))))
    (hl : l ≠ .nil) :
    let g' := (g.detach nil z y (ry.addr nil)).takePlace nil z y
    let p' := q ++ ⟨.right, c, y, l⟩ :: p
    IsPlace g' nil (plug p' ry).toList p' ry ∧
      (∃ w, g'.cell nil = { g.cell nil with parent := w } ∧
        (ry = .nil → w = topAddr nil p')) ∧
      (p ≠ [] → g'.root = g.root) := by
  obtain ⟨hready, w, hw, hwt⟩ :
      ReadyToTake (g.detach nil z y (ry.addr nil)) nil p c l (plug q ry) z y ∧
      ∃ w, (g.detach nil z y (ry.addr nil)).cell nil = { g.cell nil with parent := w } ∧
        (ry = .nil → w = topAddr y q) := by
    cases q with
    | nil => exact h.detach_child hl
    | cons f q => exact h.detach_deep hl
  refine ⟨?_, ⟨w, ?_, ?_⟩, fun hp => ?_⟩
  · rw [append, plug_append]
    exact (child (d := .right)).mp (takePlace hready)
  · rw [takePlace_nil hready, hw]
  · rw [topAddr_successor]
    exact hwt
  · rw [takePlace_root hready, if_neg hp, h.detach_root]

end IsPlace

end Detach

end MiniWeb.RedBlack

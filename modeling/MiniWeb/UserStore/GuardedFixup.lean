import MiniWeb.UserStore.DeleteFixup
import MiniWeb.UserStore.Guarded

/-!
# The fixups never fail a check

Under the loop invariants of the two repairs every check of a pass is met: the nodes above the
place are labels of the tree, a red node is not the sentinel, and the child a rotation lifts is
the node the pass came from or the sibling. So the checked loops are the loops.
-/

namespace MiniWeb.UserStore

open RedBlack Loop CStr ColorTree TreePath

namespace Index

variable {t : Index} {a x : Off} {c : Color} {d : Dir}

theorem putChild_of_ne (ha : a ≠ gNil) (v : Off) : t.putChild a d v = some (t.setChild a d v) :=
  if_neg ha

theorem putColor_of_ne (ha : a ≠ gNil) (c : Color) : t.putColor a c = some (t.setColor a c) :=
  if_neg fun h => ha h.1

theorem putColor_same (hc : (t.trees gNil).color = c) (a : Off) :
    t.putColor a c = some (t.setColor a c) :=
  if_neg fun h => h.2 hc

/-- Relinking tests for the sentinel itself. -/
theorem relinkGuarded_eq (d : Dir) (q u v : Off) (t : Index) :
    t.relinkGuarded d q u v = some (t.relink d q u v) := by
  unfold relinkGuarded relink
  split
  · rfl
  next hq =>
    split
    · exact putChild_of_ne hq v
    · exact putChild_of_ne hq v

/-- A node whose colour differs from the sentinel's is not the sentinel. -/
theorem ne_gNil_of_red (hnil : (t.trees gNil).color = .black) (ha : (t.trees a).color = .red) :
    a ≠ gNil := by
  rintro rfl
  rw [hnil] at ha
  cases ha

end Index

theorem rbtTransplantGuarded_eq (t : Index) (u v : Off) :
    rbtTransplantGuarded t u v = some (rbtTransplant t u v) := by
  rw [rbtTransplantGuarded, Index.relinkGuarded_eq]
  rfl

/-- A rotation at a node meets its checks when the lifted child is a node. -/
theorem rbtRotateGuarded_eq {t : Index} {d : Dir} {x : Off} (hx : x ≠ gNil)
    (hy : (t.trees x).child d.flip ≠ gNil) :
    rbtRotateGuarded d t x = some (rbtRotate d t x) := by
  unfold rbtRotateGuarded rbtRotate
  simp only [if_neg hy, Index.putChild_of_ne hx, Index.putChild_of_ne hy, Index.relinkGuarded_eq,
    Option.bind_some, Option.map_some]

section

variable {t₀ t : Index} {T : List Off} {climbs : Bool} {p : TreePath Off} {x : ColorTree Off}
  (hnil : (t₀.view.cell gNil).color = .black)

/-! ## Insertion -/

/-- The end of a pass, with the grandparent's `d`-child below it. -/
theorem rbtInsertFixupTurnGuarded_eq {d : Dir} {z zp zpp : Off} (hzp : zp ≠ gNil)
    (hzpp : zpp ≠ gNil) (hchild : (t.trees zpp).child d = zp) :
    rbtInsertFixupTurnGuarded d t z zp zpp =
      some (rbtRotate d.flip ((t.setColor zp .black).setColor zpp .red) zpp, z) := by
  have hy : (((t.setColor zp .black).setColor zpp .red).trees zpp).child d.flip.flip ≠ gNil := by
    rw [Index.child_setColor, Index.child_setColor, Dir.flip_flip, hchild]
    exact hzp
  simp only [rbtInsertFixupTurnGuarded, if_neg hzpp, Index.putColor_of_ne hzp,
    Index.putColor_of_ne hzpp, Option.bind_some, rbtRotateGuarded_eq hzpp hy, Option.map_some]

include hnil in
/-- A pass of the insertion repair meets its checks. -/
theorem rbtInsertFixupBodyGuarded_eq {d fd : Dir} {a b : Off} {s u : ColorTree Off} {k n : Nat}
    {z : Off}
    (h : InsertInv t₀ T climbs k (t, z) (⟨fd, .red, a, s⟩ :: ⟨d, .black, b, u⟩ :: p) x n) :
    rbtInsertFixupBodyGuarded d t z a b = some (rbtInsertFixupBody d t z a b) := by
  have hpl := h.place
  have hlab := hpl.zip.1.ne_nil
  have ha : a ≠ gNil := hlab a (mem_labels_cons.mpr (Or.inl rfl))
  have hb : b ≠ gNil := (IsPlace.up.mp hpl).zip.1.ne_nil b (mem_labels_cons.mpr (Or.inl rfl))
  have hzn : z ≠ gNil := by
    rw [← show x.addr gNil = z from h.addr_eq]
    exact fun h0 => ne_nil_of_red h.red (hpl.addr_eq_nil.mp h0)
  unfold rbtInsertFixupBodyGuarded rbtInsertFixupBody
  rw [if_neg hb]
  simp only
  split
  next hred =>
    have hy := Index.ne_gNil_of_red (h.spares.nil_black hnil) hred
    simp only [Index.putColor_of_ne ha, Index.putColor_of_ne hy, Index.putColor_of_ne hb,
      Option.bind_some, Option.map_some]
  next =>
    split
    next hz =>
      have hfd : fd = d.flip := by
        have := hpl.child_eq_iff d.flip (hpl.addr_ne_sibling (Or.inl (ne_nil_of_red h.red)))
        rw [h.addr_eq] at this
        exact this.mp (hz.trans (Index.child_eq ..))
      subst hfd
      obtain ⟨h1, h2, h3⟩ := h.turned
      rw [rbtRotateGuarded_eq ha (hz ▸ hzn), Option.bind_some]
      simp only [h1, h2]
      exact rbtInsertFixupTurnGuarded_eq hzn hb h3
    next hz =>
      have hfd : fd = d := by
        refine (Dir.eq_or_eq_flip d fd).resolve_right fun hf => hz ?_
        have := hpl.child_eq_iff d.flip (hpl.addr_ne_sibling (Or.inl (ne_nil_of_red h.red)))
        rw [h.addr_eq] at this
        exact (this.mpr hf).trans (Index.child_eq ..).symm
      have hcell := (IsPlace.up.mp hpl).frame_cell
      refine rbtInsertFixupTurnGuarded_eq ha hb ?_
      rw [Index.child_eq, hcell, Links.child_build]
      exact addr_build ..

include hnil in
theorem rbtInsertFixupStepGuarded_eq {k n : Nat} {z : Off}
    (h : InsertInv t₀ T climbs k (t, z) p x n) :
    rbtInsertFixupStepGuarded (t, z) = some (rbtInsertFixupStep (t, z)) := by
  unfold rbtInsertFixupStepGuarded rbtInsertFixupStep
  simp only [h.test hnil]
  split
  next hred =>
    obtain ⟨fd, a, s, d, b, u, q, rfl, hzp, hpar, hside⟩ := h.reads hred
    simp only [hzp, hpar, hside, rbtInsertFixupBodyGuarded_eq hnil h, Option.map_some]
  next =>
    have hne : plug p x ≠ .nil := plug_ne_nil (ne_nil_of_red h.red)
    have hroot : t.bst.rootOff ≠ gNil := by
      have hr : t.bst.rootOff = (plug p x).addr gNil := h.place.root
      rw [hr]
      exact h.place.ne_nil _ (addr_mem gNil hne)
    rw [Index.putColor_of_ne hroot, Option.map_some]

include hnil in
/-- **The insertion repair meets its checks** and takes at most as many passes as the place is
deep. -/
theorem rbtInsertFixupGuarded_eq {n passes : Nat} {z : Off} (hpasses : p.length ≤ passes)
    (hfuel : p.length < userStorePoolNodes) (h : InsertInv t₀ T climbs p.length (t, z) p x n) :
    rbtInsertFixupGuarded passes t z = rbtInsertFixup t z :=
  runChecked_total (fun k s => ∃ p x n, InsertInv t₀ T climbs k s p x n)
    (fun _ _ ⟨_, _, _, hs⟩ => rbtInsertFixupStep_inv hnil hs)
    (fun _ _ ⟨_, _, _, hs⟩ => rbtInsertFixupStepGuarded_eq hnil hs) ⟨p, x, n, h⟩
    (Nat.lt_succ_of_le hpasses) hfuel

/-! ## Deletion -/

/-- The first half of a pass meets its checks. -/
theorem rbtDeleteFixupRedGuarded_eq {d : Dir} {c : Color} {a z : Off} {u : ColorTree Off} {k n : Nat}
    (h : DeleteInv t₀ T climbs k (t, z) (⟨d, c, a, u⟩ :: p) x n) :
    rbtDeleteFixupRedGuarded d t z = some (rbtDeleteFixupRed d t z) := by
  have hpl := h.place
  have hpar : (t.trees z).parentOff = a := h.parent
  have hsib : (t.trees a).child d.flip = u.addr gNil := by
    rw [Index.child_eq, hpl.frame_cell, Links.child_flip_build]
  have ha : a ≠ gNil := hpl.zip.1.ne_nil a (mem_labels_cons.mpr (Or.inl rfl))
  have hw : u.addr gNil ≠ gNil := fun h0 =>
    h.path.sibling_ne_nil ((IsPlace.sibling.mp hpl).addr_eq_nil.mp h0)
  unfold rbtDeleteFixupRedGuarded rbtDeleteFixupRed
  simp only [hpar, hsib, if_neg hw]
  split
  next =>
    have hlift : (((t.setColor (u.addr gNil) .black).setColor a .red).trees a).child d.flip ≠
        gNil := by
      rw [Index.child_setColor, Index.child_setColor, hsib]
      exact hw
    simp only [Index.putColor_of_ne hw, Index.putColor_of_ne ha, Option.bind_some,
      rbtRotateGuarded_eq ha hlift, Option.map_some]
  next => rfl

/-- The parent and the sibling of the second half are nodes. -/
theorem DeleteMid.ne_gNil {d : Dir} {c : Color} {a w : Off} {s r : ColorTree Off} {n : Nat}
    (h : DeleteMid t₀ T climbs t d c a s w r p x n) : a ≠ gNil ∧ w ≠ gNil := by
  refine ⟨h.place.zip.1.ne_nil a (mem_labels_cons.mpr (Or.inl rfl)), fun h0 => ?_⟩
  have hw := (IsPlace.sibling.mp h.place).addr_eq_nil
  rw [addr_build] at hw
  exact build_ne_nil _ _ _ _ _ (hw.mp h0)

/-- The last case meets its checks. -/
theorem DeleteMid.turnGuarded {d : Dir} {c : Color} {a w : Off} {s r : ColorTree Off} {n : Nat}
    (h : DeleteMid t₀ T climbs t d c a s w r p x n) (hr : r ≠ .nil) :
    rbtDeleteFixupTurnGuarded d t a w = some (farRotated d t c a w (r.addr gNil),
      (farRotated d t c a w (r.addr gNil)).bst.rootOff) := by
  obtain ⟨ha, hw⟩ := h.ne_gNil
  obtain ⟨hac, hwr⟩ := h.far_reads
  have hrn : r.addr gNil ≠ gNil := fun h0 =>
    hr ((IsPlace.sibling.mp (IsPlace.child.mp (IsPlace.sibling.mp h.place))).addr_eq_nil.mp h0)
  have hlift : ((((t.setColor w c).setColor a .black).setColor (r.addr gNil) .black).trees a).child
      d.flip ≠ gNil := by
    rw [Index.child_setColor, Index.child_setColor, Index.child_setColor, Index.child_eq,
      h.place.frame_cell, Links.child_flip_build, addr_build]
    exact hw
  simp only [rbtDeleteFixupTurnGuarded, if_neg hw, hac, Index.putColor_of_ne hw,
    Index.putColor_of_ne ha, Option.bind_some, hwr, Index.putColor_of_ne hrn,
    rbtRotateGuarded_eq ha hlift, Option.map_some, farRotated]

include hnil in
/-- The second half of a pass meets its checks. -/
theorem rbtDeleteFixupBlackGuarded_eq {d : Dir} {c : Color} {a w z : Off} {s r : ColorTree Off}
    {n : Nat} (h : DeleteMid t₀ T climbs t d c a s w r p x n) (hz : x.addr gNil = z) :
    rbtDeleteFixupBlackGuarded d t z a w = some (rbtDeleteFixupBlack d t z a w) := by
  have hnb := h.spares.nil_black hnil
  obtain ⟨ha, hw⟩ := h.ne_gNil
  have hcell := (IsPlace.sibling.mp h.place).cell
  have hnear : (t.trees w).child d = s.addr gNil := by
    rw [Index.child_eq, hcell, Links.child_build]
  have hfar : (t.trees w).child d.flip = r.addr gNil := by
    rw [Index.child_eq, hcell, Links.child_flip_build]
  have hsc : (t.trees (s.addr gNil)).color = s.color :=
    (IsPlace.child.mp (IsPlace.sibling.mp h.place)).color hnb
  have hrc : (t.trees (r.addr gNil)).color = r.color :=
    (IsPlace.sibling.mp (IsPlace.child.mp (IsPlace.sibling.mp h.place))).color hnb
  unfold rbtDeleteFixupBlackGuarded rbtDeleteFixupBlack
  simp only [hnear, hfar, hsc, hrc, if_neg hw]
  split
  next => rw [Index.putColor_of_ne hw, Option.map_some]
  next hone =>
    cases hrcol : r.color with
    | red =>
      obtain ⟨hac, hwr⟩ := h.far_reads
      rw [if_neg (by simp), if_neg (by simp), h.turnGuarded (ne_nil_of_red hrcol)]
      simp only [hac, hwr]
      rfl
    | black =>
      obtain ⟨s₁, u, s₂, rfl⟩ := h.near_red hone hrcol
      have hmid := h.rotateNear hrcol
      have hpar := hmid.parent
      rw [hz] at hpar
      have hsib := hmid.place.frame_cell
      obtain ⟨hac, hwr⟩ := hmid.far_reads
      have hu : u ≠ gNil := hmid.ne_gNil.2
      have hlift : (((t.setColor u .black).setColor w .red).trees w).child d.flip.flip ≠ gNil := by
        rw [Index.child_setColor, Index.child_setColor, Dir.flip_flip, hnear, addr_build]
        exact hu
      have hturn := hmid.turnGuarded (build_ne_nil _ _ _ _ _)
      rw [addr_build] at hwr hturn
      rw [if_pos rfl, if_pos rfl]
      simp only [addr_build, Index.putColor_of_ne hu, Index.putColor_of_ne hw, Option.bind_some,
        rbtRotateGuarded_eq hw hlift, Index.parentOff_eq, hpar, Index.child_eq _ a, hsib,
        Links.child_flip_build, hturn, hac, hwr]
      rfl

include hnil in
theorem rbtDeleteFixupStepGuarded_eq {k n : Nat} {z : Off}
    (h : DeleteInv t₀ T climbs k (t, z) p x n) :
    rbtDeleteFixupStepGuarded (t, z) = some (rbtDeleteFixupStep (t, z)) := by
  unfold rbtDeleteFixupStepGuarded rbtDeleteFixupStep
  simp only [ne_eq, h.at_root, h.test hnil]
  split
  next hloop =>
    obtain ⟨d, c, a, u, q, rfl, hside⟩ := h.reads hloop.1
    obtain ⟨t', c', s, w, r, q', heq, hmid, -⟩ := rbtDeleteFixupRed_mid hnil h hloop.2
    simp only [hside, rbtDeleteFixupRedGuarded_eq h, Option.bind_some, heq,
      rbtDeleteFixupBlackGuarded_eq hnil hmid h.addr_eq, Option.map_some]
  next hexit =>
    -- only the sentinel may be painted the colour it has
    by_cases hz : z = gNil
    · subst hz
      rw [Index.putColor_same (h.spares.nil_black hnil), Option.map_some]
    · rw [Index.putColor_of_ne hz, Option.map_some]

include hnil in
/-- **The deletion repair meets its checks** and takes at most as many passes as its measure. -/
theorem rbtDeleteFixupGuarded_eq {n k passes : Nat} {z : Off} (hpasses : k ≤ passes)
    (hfuel : k < userStorePoolNodes) (h : DeleteInv t₀ T climbs k (t, z) p x n) :
    rbtDeleteFixupGuarded passes t z = rbtDeleteFixup t z :=
  runChecked_total (fun k s => ∃ p x n, DeleteInv t₀ T climbs k s p x n)
    (fun _ _ ⟨_, _, _, hs⟩ => rbtDeleteFixupStep_inv hnil hs)
    (fun _ _ ⟨_, _, _, hs⟩ => rbtDeleteFixupStepGuarded_eq hnil hs) ⟨p, x, n, h⟩
    (Nat.lt_succ_of_le hpasses) hfuel

end

end MiniWeb.UserStore

import MiniWeb.Lib.TreeRepair
import MiniWeb.UserStore.IndexView

/-!
# `rbt_insert_fixup` restores the red-black tree

The loop invariant: the pool lays out a tree whose labels are `T`, the node `z` is the red root
of a subtree at a place `p`, and everything but the edge from `z` to its parent is red-black. A
pass either moves the place two levels up or rotates and leaves a black parent; the length of
the path falls.
-/

namespace MiniWeb.UserStore

open RedBlack Loop CStr ColorTree TreePath

/-- Writes that spare the sentinel's links and colour and the users of all nodes. -/
structure Spares (t t' : Index) : Prop where
  nil_cell : t'.view.cell gNil = t.view.cell gNil
  users : Index.SameUsers t t'

theorem Spares.refl (t : Index) : Spares t t := ⟨rfl, .refl t⟩

theorem Spares.trans {t t' t'' : Index} (h : Spares t t') (h' : Spares t' t'') : Spares t t'' :=
  ⟨h'.nil_cell.trans h.nil_cell, h.users.trans h'.users⟩

/-- Invariant of the insertion repair, with the length of the path as its measure. `climbs` tells
whether the repair was going to rotate at the root; if not, the root stays what it was. -/
structure InsertInv (t₀ : Index) (T : List Off) (climbs : Bool) (k : Nat) (s : Index × Off)
    (p : TreePath Off) (x : ColorTree Off) (n : Nat) : Prop where
  length_eq : p.length = k
  place : IsPlace s.1.view gNil T p x
  addr_eq : x.addr gNil = s.2
  red : x.color = .red
  rb : RB x n
  path : RBPath p n
  spares : Spares t₀ s.1
  keeps : climbs = false → rotatesRoot p = false ∧ s.1.bst.rootOff = t₀.bst.rootOff

/-- What the repair leaves: a red-black tree with the same labels in order. -/
structure Repaired (t₀ : Index) (T : List Off) (climbs : Bool) (t : Index) (X : ColorTree Off) :
    Prop where
  place : IsPlace t.view gNil T [] X
  rb : RBTree X
  spares : Spares t₀ t
  keeps : climbs = false → t.bst.rootOff = t₀.bst.rootOff

section

variable {t₀ t : Index} {T : List Off} {climbs : Bool} {p : TreePath Off} {x : ColorTree Off}
  (hnil : (t₀.view.cell gNil).color = .black)

theorem Spares.nil_black (hnil : (t₀.view.cell gNil).color = .black) (h : Spares t₀ t) :
    (t.view.cell gNil).color = .black := by
  rw [h.nil_cell, hnil]

/-- The side the source computes for a place is the direction of its nearest frame. -/
theorem side_eq {f : RedBlack.Frame Off} (h : IsPlace t.view gNil T (f :: p) x)
    (hne : x ≠ .nil ∨ f.sibling ≠ .nil) :
    (if x.addr gNil = (t.trees f.label).leftOff then Dir.left else Dir.right) = f.dir := by
  have hiff := h.child_eq_iff .left (h.addr_ne_sibling hne)
  have hc : (t.view.cell f.label).child .left = (t.trees f.label).leftOff := rfl
  rw [hc] at hiff
  cases hd : f.dir with
  | left => rw [if_pos (hiff.mpr hd)]
  | right => rw [if_neg fun h0 => by rw [hiff.mp h0] at hd; cases hd]

/-- The writes of the last case of the body: the parent takes the grandparent's place. -/
theorem rbtInsertFixup_outer {d : Dir} {ca cb : Color} {a b : Off} {s u : ColorTree Off}
    (h : IsPlace t.view gNil T (⟨d, ca, a, s⟩ :: ⟨d, cb, b, u⟩ :: p) x) :
    let t' := rbtRotate d.flip ((t.setColor a .black).setColor b .red) b
    IsPlace t'.view gNil T (⟨d, .black, a, build d .red s b u⟩ :: p) x ∧ Spares t t' ∧
      (p ≠ [] → t'.bst.rootOff = t.bst.rootOff) := by
  have hv : (rbtRotate d.flip ((t.setColor a .black).setColor b .red) b).view =
      ((t.view.setColor a .black).setColor b .red).rotate gNil d.flip b := by
    rw [Index.view_rotate, Index.view_setColor, Index.view_setColor]
  refine ⟨?_, ⟨?_, ?_⟩, fun hp => ?_⟩
  · rw [hv]; exact h.rotateOuter
  · rw [hv, h.rotateOuter_nil]
  · exact ((Index.sameUsers_setColor ..).trans (Index.sameUsers_setColor ..)).trans
      (Index.sameUsers_rotate ..)
  · rw [← Index.view_root, hv, h.rotateOuter_root hp, Index.view_root]

/-- An inner grandchild turned outward: the parent hangs below `z` and `z` below the
grandparent. -/
theorem InsertInv.turned {d : Dir} {a b : Off} {s u : ColorTree Off} {k n : Nat} {z : Off}
    (h : InsertInv t₀ T climbs k (t, z) (⟨d.flip, .red, a, s⟩ :: ⟨d, .black, b, u⟩ :: p) x n) :
    let t' := rbtRotate d t a
    (t'.trees a).parentOff = z ∧ (t'.trees z).parentOff = b ∧ (t'.trees b).child d = z := by
  obtain ⟨tn, zl, tf, rfl, -, -, -, -⟩ := h.rb.red_root d h.red
  have hz : zl = z := (addr_build ..).symm.trans h.addr_eq
  have h1 := h.place.rotateInner
  rw [← Index.view_rotate, hz] at h1
  refine ⟨?_, ?_, ?_⟩
  · have := h1.parent (build_ne_nil _ _ _ _ _)
    rwa [addr_build, topAddr_cons] at this
  · have := h1.frame_cell
    rw [Index.parentOff_eq, this, Links.parent_build, topAddr_cons]
  · have := (IsPlace.up.mp h1).frame_cell
    rw [Index.child_eq, this, Links.child_build, Frame.attach, addr_build]

include hnil in
/-- One pass of the insertion repair. -/
theorem rbtInsertFixupBody_inv {d fd : Dir} {a b : Off} {s u : ColorTree Off} {k n : Nat} {z : Off}
    (h : InsertInv t₀ T climbs k (t, z) (⟨fd, .red, a, s⟩ :: ⟨d, .black, b, u⟩ :: p) x n) :
    ∃ m p' x' n', m < k ∧
      InsertInv t₀ T climbs m (rbtInsertFixupBody d t z a b) p' x' n' := by
  have hpl := h.place
  have hk : p.length + 2 = k := by rw [← h.length_eq]; rfl
  obtain ⟨hsc, hs, e, b', u', q, heq, hu, hq⟩ := h.path.grandparent
  cases heq
  have hb := (IsPlace.up.mp hpl).frame_cell
  have huncle : (t.trees b).child d.flip = u.addr gNil := by
    rw [Index.child_eq, hb, Links.child_flip_build]
  have hucol : (t.trees (u.addr gNil)).color = u.color := by
    have := (IsPlace.sibling.mp (IsPlace.up.mp hpl)).color (h.spares.nil_black hnil)
    exact this
  unfold rbtInsertFixupBody
  simp only [huncle, hucol]
  by_cases hured : u.color = .red
  · -- the violation moves up to the grandparent
    rw [if_pos hured]
    have hune := ne_nil_of_red hured
    refine ⟨p.length, p, _, n + 1, by omega, rfl, ?_, addr_build .., color_build ..,
      RB.recolor h.rb hs hu hured (d := fd) (e := d) (a := a) (b := b), hq, h.spares.trans
        ⟨?_, ?_⟩, ?_⟩
    · simp only [Index.view_setColor]
      exact hpl.recolorUncle hune
    · simp only [Index.view_setColor]
      exact hpl.recolorUncle_nil hune
    · exact ((Index.sameUsers_setColor ..).trans (Index.sameUsers_setColor ..)).trans
        (Index.sameUsers_setColor ..)
    · intro hc
      obtain ⟨h1, h2⟩ := h.keeps hc
      simp only [rotatesRoot, hured, decide_true, if_true, Bool.true_and] at h1
      exact ⟨h1, h2⟩
  · rw [if_neg hured]
    have hublack : u.color = .black := by
      cases hc : u.color with
      | red => exact absurd hc hured
      | black => rfl
    have hroot : climbs = false → p ≠ [] ∧ t.bst.rootOff = t₀.bst.rootOff := by
      intro hc
      obtain ⟨h1, h2⟩ := h.keeps hc
      simp only [rotatesRoot, hublack, decide_true, Bool.true_and] at h1
      exact ⟨fun h0 => by simp [h0] at h1, h2⟩
    have hzside : z = (t.trees a).child d.flip ↔ fd = d.flip := by
      have := hpl.child_eq_iff d.flip (hpl.addr_ne_sibling (Or.inl (ne_nil_of_red h.red)))
      rw [h.addr_eq] at this
      rwa [Index.child_eq]
    by_cases hinner : fd = d.flip
    · -- an inner grandchild is first turned into an outer one
      rw [if_pos (hzside.mpr hinner)]
      subst hinner
      obtain ⟨hp1, hp2, -⟩ := h.turned
      obtain ⟨tn, zl, tf, rfl, hnc, hfc, bn, bf⟩ := h.rb.red_root d h.red
      obtain rfl : zl = z := (addr_build ..).symm.trans h.addr_eq
      have h1 := hpl.rotateInner
      obtain ⟨hrb, hpath⟩ := h.path.rotateInner h.rb
      rw [← Index.view_rotate] at h1
      simp only [hp1, hp2]
      obtain ⟨hpl2, hsp2, hroot2⟩ := rbtInsertFixup_outer h1
      refine ⟨p.length + 1, _, _, n, by omega, rfl, hpl2, addr_build .., color_build .., hrb,
        .black (.build_red hfc hublack bf hu) hq, ?_, fun hc => ⟨?_, ?_⟩⟩
      · refine (h.spares.trans ⟨?_, Index.sameUsers_rotate t d a⟩).trans hsp2
        rw [Index.view_rotate, hpl.rotateInner_nil]
      · cases p <;> rfl
      · rw [hroot2 (hroot hc).1, ← Index.view_root, Index.view_rotate,
          hpl.rotateInner_root (by simp), Index.view_root, (hroot hc).2]
    · rw [if_neg fun h0 => hinner (hzside.mp h0)]
      obtain rfl : fd = d := (Dir.eq_or_eq_flip d fd).resolve_right hinner
      obtain ⟨hpl2, hsp2, hroot2⟩ := rbtInsertFixup_outer hpl
      refine ⟨p.length + 1, _, _, n, by omega, rfl, hpl2, h.addr_eq, h.red, h.rb,
        .black (.build_red hsc hublack hs hu) hq, h.spares.trans hsp2, fun hc => ⟨?_, ?_⟩⟩
      · cases p <;> rfl
      · rw [hroot2 (hroot hc).1, (hroot hc).2]

/-- Leaving the loop: painting the root black completes the repair. -/
theorem InsertInv.repaired {k n : Nat} {z : Off} (h : InsertInv t₀ T climbs k (t, z) p x n)
    (htop : p.topColor = .black) :
    ∃ X, Repaired t₀ T climbs (t.setColor t.bst.rootOff .black) X := by
  have hw := IsPlace.whole.mp h.place
  have hne : plug p x ≠ .nil := plug_ne_nil (ne_nil_of_red h.red)
  have hroot : t.bst.rootOff = (plug p x).addr gNil := h.place.root
  refine ⟨(plug p x).blacken, ?_, h.path.plug_blacken h.rb htop, h.spares.trans ⟨?_, ?_⟩, ?_⟩
  · rw [hroot, Index.view_setColor]
    exact hw.blacken hne
  · rw [hroot, Index.view_setColor]
    exact IsPlace.setColor_nil (h.place.ne_nil _ (addr_mem gNil hne))
  · exact Index.sameUsers_setColor ..
  · intro hc
    exact (h.keeps hc).2

include hnil in
/-- The colour the loop tests. -/
theorem InsertInv.test {k n : Nat} {z : Off} (h : InsertInv t₀ T climbs k (t, z) p x n) :
    (t.trees (t.trees z).parentOff).color = p.topColor := by
  have hzp : (t.trees z).parentOff = topAddr gNil p := by
    have := h.place.parent (ne_nil_of_red h.red)
    rwa [h.addr_eq] at this
  rw [hzp]
  exact h.place.topColor (h.spares.nil_black hnil)

/-- What a pass reads: a red parent is not the root, so there is a grandparent. -/
theorem InsertInv.reads {k n : Nat} {z : Off} (h : InsertInv t₀ T climbs k (t, z) p x n)
    (hred : p.topColor = .red) :
    ∃ fd a s d b u q, p = ⟨fd, .red, a, s⟩ :: ⟨d, .black, b, u⟩ :: q ∧
      (t.trees z).parentOff = a ∧ (t.trees a).parentOff = b ∧
      (if a = (t.trees b).leftOff then Dir.left else Dir.right) = d := by
  rcases p with _ | ⟨⟨fd, fc, a, s⟩, p⟩
  · cases hred
  · rw [topColor_cons] at hred
    simp only at hred
    subst hred
    obtain ⟨-, -, d, b, u, q, rfl, -, -⟩ := h.path.grandparent
    have hup := IsPlace.up.mp h.place
    have hzp := h.place.parent (ne_nil_of_red h.red)
    rw [h.addr_eq, topAddr_cons] at hzp
    have hpar : (t.trees a).parentOff = b := by
      have := hup.parent (t := Frame.attach _ x) (build_ne_nil _ _ _ _ _)
      simpa [Frame.attach] using this
    have hside := side_eq hup (Or.inl (build_ne_nil _ _ _ _ _))
    simp only [Frame.attach, addr_build] at hside
    exact ⟨fd, a, s, d, b, u, q, rfl, hzp, hpar, hside⟩

include hnil in
/-- One step of the insertion repair: the measure falls, or the repair is complete. -/
theorem rbtInsertFixupStep_inv {k n : Nat} {z : Off}
    (h : InsertInv t₀ T climbs k (t, z) p x n) :
    StepOK (fun k s => ∃ p x n, InsertInv t₀ T climbs k s p x n)
      (fun t => ∃ X, Repaired t₀ T climbs t X) k (rbtInsertFixupStep (t, z)) := by
  unfold rbtInsertFixupStep
  simp only [h.test hnil]
  split
  next hred =>
    obtain ⟨fd, a, s, d, b, u, q, rfl, hzp, hpar, hside⟩ := h.reads hred
    simp only [hzp, hpar, hside]
    obtain ⟨m, p', x', n', hm, hInv⟩ := rbtInsertFixupBody_inv hnil h
    exact ⟨m, hm, p', x', n', hInv⟩
  next hblack =>
    refine h.repaired ?_
    cases hc : p.topColor with
    | red => exact absurd hc hblack
    | black => rfl

include hnil in
/-- **`rbt_insert_fixup` is total and repairs.** From a red node `z` whose edge to its parent is
the only defect, the loop ends and leaves a red-black tree of the same labels in order. -/
theorem rbtInsertFixup_spec {n : Nat} {z : Off} (hfuel : p.length < userStorePoolNodes)
    (h : InsertInv t₀ T climbs p.length (t, z) p x n) :
    ∃ t' X, rbtInsertFixup t z = some t' ∧ Repaired t₀ T climbs t' X := by
  obtain ⟨t', hrun, X, hX⟩ :=
    run_total (fun k s => ∃ p x n, InsertInv t₀ T climbs k s p x n)
      (fun k s ⟨p, x, n, hs⟩ => rbtInsertFixupStep_inv hnil hs) ⟨p, x, n, h⟩ hfuel
  exact ⟨t', X, hrun, hX⟩

end

end MiniWeb.UserStore

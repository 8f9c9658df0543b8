import MiniWeb.UserStore.InsertFixup

/-!
# `rbt_delete_fixup` restores the red-black tree

The loop invariant: the pool lays out a tree whose labels are `T`, and the subtree of `x` at a
place `p` is one black node short. `x` may be the sentinel, whose parent field then names the
node above the place. A pass either moves the place one level up or ends with a rotation that
makes the tree whole; a red sibling first costs a rotation that lengthens the path, but then the
parent is red and the next pass is the last.
-/

namespace MiniWeb.UserStore

open RedBlack Loop CStr ColorTree TreePath

/-- Invariant of the deletion repair. The measure is the length of the path, plus one while the
subtree is black. -/
structure DeleteInv (t₀ : Index) (T : List Off) (climbs : Bool) (k : Nat) (s : Index × Off)
    (p : TreePath Off) (x : ColorTree Off) (n : Nat) : Prop where
  measure_eq : p.length + (if x.color = .black then 1 else 0) = k
  place : IsPlace s.1.view gNil T p x
  addr_eq : x.addr gNil = s.2
  parent : (s.1.view.cell s.2).parent = topAddr gNil p
  short : Short x n
  path : RBPath p (n + 1)
  spares : Spares t₀ s.1
  keeps : climbs = false →
    (x.color = .black → shortRotatesRoot p = false) ∧ s.1.bst.rootOff = t₀.bst.rootOff

/-- Half way through a pass: the subtree `x` is black and its sibling is black. -/
structure DeleteMid (t₀ : Index) (T : List Off) (climbs : Bool) (t : Index) (d : Dir) (c : Color)
    (a : Off) (s : ColorTree Off) (w : Off) (r : ColorTree Off) (p : TreePath Off)
    (x : ColorTree Off) (n : Nat) :
    Prop where
  place : IsPlace t.view gNil T (⟨d, c, a, build d .black s w r⟩ :: p) x
  parent : (t.view.cell (x.addr gNil)).parent = a
  rb : RB x n
  path : RBPath (⟨d, c, a, build d .black s w r⟩ :: p) (n + 1)
  spares : Spares t₀ t
  keeps : climbs = false →
    shortRotatesRoot (⟨d, c, a, build d .black s w r⟩ :: p) = false ∧
      t.bst.rootOff = t₀.bst.rootOff

section

variable {t₀ t : Index} {T : List Off} {climbs : Bool} {p : TreePath Off} {x : ColorTree Off}
  (hnil : (t₀.view.cell gNil).color = .black)

/-- A black sibling needs no first half. -/
theorem DeleteInv.mid {d : Dir} {c : Color} {a w z : Off} {s r : ColorTree Off} {k n : Nat}
    (h : DeleteInv t₀ T climbs k (t, z) (⟨d, c, a, build d .black s w r⟩ :: p) x n)
    (hx : x.color = .black) : DeleteMid t₀ T climbs t d c a s w r p x n where
  place := h.place
  parent := by rw [h.addr_eq]; exact h.parent
  rb := h.short.black hx
  path := h.path
  spares := h.spares
  keeps := fun hc => ⟨(h.keeps hc).1 hx, (h.keeps hc).2⟩

/-- A red sibling is rotated above the parent, which turns red. -/
theorem DeleteInv.mid_red {d : Dir} {c : Color} {a w z : Off} {s r : ColorTree Off} {k n : Nat}
    (h : DeleteInv t₀ T climbs k (t, z) (⟨d, c, a, build d .red s w r⟩ :: p) x n)
    (hx : x.color = .black) :
    ∃ s₁ w₁ r₁, s = build d .black s₁ w₁ r₁ ∧
      DeleteMid t₀ T climbs (rbtRotate d ((t.setColor w .black).setColor a .red) a)
        d .red a s₁ w₁ r₁ (⟨d, .black, w, r⟩ :: p) x n := by
  have hv : (rbtRotate d ((t.setColor w .black).setColor a .red) a).view =
      ((t.view.setColor w .black).setColor a .red).rotate gNil d a := by
    rw [Index.view_rotate, Index.view_setColor, Index.view_setColor]
  obtain ⟨-, hpath⟩ := h.path.rotateRed
  obtain ⟨hsc, bs⟩ : s.color = .black ∧ RB s (n + 1) := by
    cases hpath with
    | red hsc bs _ _ _ => exact ⟨hsc, bs⟩
  obtain ⟨s₁, w₁, r₁, rfl, -, -⟩ := bs.black_succ d hsc
  have hpl := h.place.rotateRed
  refine ⟨s₁, w₁, r₁, rfl, hv ▸ hpl, ?_, h.short.black hx, hpath,
    h.spares.trans ⟨?_, ?_⟩, fun hc => ⟨?_, ?_⟩⟩
  · rw [hv]
    refine hpl.parent_addr fun hx0 => ?_
    have hp := h.parent
    rw [← h.addr_eq, hx0] at hp
    rw [h.place.rotateRed_nil]
    exact hp
  · rw [hv, h.place.rotateRed_nil]
  · exact ((Index.sameUsers_setColor ..).trans (Index.sameUsers_setColor ..)).trans
      (Index.sameUsers_rotate ..)
  · simp [shortRotatesRoot]
  · obtain ⟨h1, h2⟩ := h.keeps hc
    have hne : p ≠ [] := by
      have := h1 hx
      simpa [shortRotatesRoot] using this
    rw [← Index.view_root, hv, h.place.rotateRed_root hne, Index.view_root]
    exact h2

/-- The first half of the body, whatever the colour of the sibling. -/
theorem rbtDeleteFixupRed_mid (hnil : (t₀.view.cell gNil).color = .black) {d : Dir} {c : Color}
    {a z : Off} {u : ColorTree Off} {k n : Nat}
    (h : DeleteInv t₀ T climbs k (t, z) (⟨d, c, a, u⟩ :: p) x n) (hx : x.color = .black) :
    ∃ t' c' s w r q, rbtDeleteFixupRed d t z = (t', a, w) ∧
      DeleteMid t₀ T climbs t' d c' a s w r q x n ∧
      q.length + (if c' = .black then 1 else 0) ≤ p.length + 1 := by
  have hpar : (t.trees z).parentOff = a := h.parent
  have hsib : (t.trees a).child d.flip = u.addr gNil := by
    rw [Index.child_eq, h.place.frame_cell, Links.child_flip_build]
  have hcol : (t.trees (u.addr gNil)).color = u.color :=
    (IsPlace.sibling.mp h.place).color (h.spares.nil_black hnil)
  obtain ⟨cu, s, w, r, rfl⟩ := exists_build d h.path.sibling_ne_nil
  rw [addr_build] at hsib hcol
  rw [color_build] at hcol
  unfold rbtDeleteFixupRed
  simp only [hpar, hsib, hcol]
  cases cu with
  | black =>
    rw [if_neg (by simp)]
    refine ⟨t, c, s, w, r, p, rfl, h.mid hx, ?_⟩
    split <;> omega
  | red =>
    rw [if_pos rfl]
    obtain ⟨s₁, w₁, r₁, rfl, hmid⟩ := h.mid_red hx
    have hpar' := hmid.parent
    rw [h.addr_eq] at hpar'
    have hsib' := hmid.place.frame_cell
    refine ⟨_, .red, s₁, w₁, r₁, _, ?_, hmid, ?_⟩
    · simp only [Index.parentOff_eq, hpar', Index.child_eq, hsib', Links.child_flip_build,
        addr_build]
    · simp

/-- Black sibling with black children: the sibling turns red and the parent is short. -/
theorem DeleteMid.recolor {d : Dir} {c : Color} {a w : Off} {s r : ColorTree Off} {n : Nat}
    (h : DeleteMid t₀ T climbs t d c a s w r p x n) (hs : s.color = .black)
    (hr : r.color = .black) :
    ∃ x' m, DeleteInv t₀ T climbs (p.length + if c = .black then 1 else 0) (t.setColor w .red, a)
      p x' m := by
  obtain ⟨m, hm, hshort⟩ := h.path.recolorSibling h.rb hs hr
  have hpl := h.place.recolorSibling
  have hv := Index.view_setColor t w .red
  refine ⟨_, m, by rw [color_build], hv ▸ hpl, addr_build .., ?_, hshort, hm,
    h.spares.trans ⟨?_, ?_⟩, fun hc => ⟨fun hb => ?_, (h.keeps hc).2⟩⟩
  · have := hpl.parent (build_ne_nil _ _ _ _ _)
    rw [addr_build] at this
    rwa [hv]
  · rw [hv, h.place.recolorSibling_nil]
  · exact Index.sameUsers_setColor ..
  · rw [color_build] at hb
    have h1 := (h.keeps hc).1
    simp only [shortRotatesRoot, recolors_build, hs, hr, hb, decide_true, Bool.and_self, if_true,
      Bool.true_and] at h1
    exact h1

/-- The near child of a black sibling is red and the far child black: a rotation at the sibling
makes the far child red. -/
theorem DeleteMid.rotateNear {d : Dir} {c : Color} {a w u : Off} {s₁ s₂ r : ColorTree Off} {n : Nat}
    (h : DeleteMid t₀ T climbs t d c a (build d .red s₁ u s₂) w r p x n)
    (hr : r.color = .black) :
    DeleteMid t₀ T climbs (rbtRotate d.flip ((t.setColor u .black).setColor w .red) w) d c a
      s₁ u (build d .red s₂ w r) p x n := by
  have hv : (rbtRotate d.flip ((t.setColor u .black).setColor w .red) w).view =
      ((t.view.setColor u .black).setColor w .red).rotate gNil d.flip w := by
    rw [Index.view_rotate, Index.view_setColor, Index.view_setColor]
  have hpl := h.place.rotateNear
  refine ⟨hv ▸ hpl, ?_, h.rb, h.path.rotateNear hr, h.spares.trans ⟨?_, ?_⟩,
    fun hc => ⟨?_, ?_⟩⟩
  · rw [hv]
    refine hpl.parent_addr fun hx0 => ?_
    have hp := h.parent
    rw [hx0] at hp
    rw [h.place.rotateNear_nil]
    exact hp
  · rw [hv, h.place.rotateNear_nil]
  · exact ((Index.sameUsers_setColor ..).trans (Index.sameUsers_setColor ..)).trans
      (Index.sameUsers_rotate ..)
  · have h1 := (h.keeps hc).1
    simp only [shortRotatesRoot, recolors_build, color_build] at h1 ⊢
    simpa using h1
  · rw [← Index.view_root, hv, h.place.rotateNear_root, Index.view_root]
    exact (h.keeps hc).2

/-- The writes that end the repair when the far child of a black sibling is red. -/
def farRotated (d : Dir) (t : Index) (c : Color) (a w r : Off) : Index :=
  rbtRotate d (((t.setColor w c).setColor a .black).setColor r .black) a

/-- Black sibling with a red far child: a rotation at the parent makes the tree whole. -/
theorem DeleteMid.rotateFar {d : Dir} {c : Color} {a w : Off} {s r : ColorTree Off} {n : Nat}
    (h : DeleteMid t₀ T climbs t d c a s w r p x n) (hr : r.color = .red) :
    ∃ X m, DeleteInv t₀ T climbs 1 (farRotated d t c a w (r.addr gNil),
      (farRotated d t c a w (r.addr gNil)).bst.rootOff) [] X m := by
  have hrn := ne_nil_of_red hr
  have hv : (farRotated d t c a w (r.addr gNil)).view =
      (((t.view.setColor w c).setColor a .black).setColor (r.addr gNil) .black).rotate
        gNil d a := by
    rw [farRotated, Index.view_rotate, Index.view_setColor, Index.view_setColor,
      Index.view_setColor]
  obtain ⟨m, hp, hrb, hacc⟩ := h.path.rotateFar h.rb hr
  have hpl := IsPlace.whole.mp (hv ▸ h.place.rotateFar hrn)
  obtain ⟨hblack, k, hk⟩ := hp.plug hrb hacc
  have hne := plug_ne_nil (p := p) (build_ne_nil d c (build d .black x a s) w r.blacken)
  refine ⟨_, k, by rw [if_pos hblack]; rfl, hpl, hpl.root.symm, ?_, .of_rb hk, .nil,
    h.spares.trans ⟨?_, ?_⟩, fun hc => ⟨fun _ => rfl, ?_⟩⟩
  · have h1 := hpl.parent hne
    have h2 := hpl.root
    rw [plug_nil] at h2
    simp only [← Index.view_root]
    rwa [h2]
  · rw [hv, h.place.rotateFar_nil hrn]
  · exact (((Index.sameUsers_setColor ..).trans (Index.sameUsers_setColor ..)).trans
      (Index.sameUsers_setColor ..)).trans (Index.sameUsers_rotate ..)
  · obtain ⟨h1, h2⟩ := h.keeps hc
    have hpne : p ≠ [] := by
      simpa [shortRotatesRoot, hr] using h1
    rw [← Index.view_root, hv, h.place.rotateFar_root hrn hpne]
    exact h2

/-- The colour of the parent and the far child of the sibling, as the last case reads them. -/
theorem DeleteMid.far_reads {d : Dir} {c : Color} {a w : Off} {s r : ColorTree Off} {n : Nat}
    (h : DeleteMid t₀ T climbs t d c a s w r p x n) : (t.trees a).color = c ∧
      (((t.setColor w c).setColor a .black).trees w).child d.flip = r.addr gNil := by
  refine ⟨?_, ?_⟩
  · rw [Index.color_eq, h.place.frame_cell, Links.color_build]
  · have hw := (IsPlace.sibling.mp h.place).cell
    rw [Index.child_setColor, Index.child_setColor, Index.child_eq, hw, Links.child_flip_build]

/-- One child of the sibling is red, and if it is not the far one it is the near one. -/
theorem DeleteMid.near_red {d : Dir} {c : Color} {a w : Off} {s r : ColorTree Off} {n : Nat}
    (h : DeleteMid t₀ T climbs t d c a s w r p x n)
    (hone : ¬(s.color = .black ∧ r.color = .black)) (hr : r.color = .black) :
    ∃ s₁ u s₂, s = build d .red s₁ u s₂ := by
  have hsred : s.color = .red := by
    cases hs : s.color with
    | red => rfl
    | black => exact absurd ⟨hs, hr⟩ hone
  obtain ⟨m₀, bs⟩ : ∃ m, RB s m := by
    cases h.path with
    | red _ bs _ _ _ => obtain ⟨m, -, bs, -⟩ := bs.black_inv; exact ⟨m, bs⟩
    | black bs _ => obtain ⟨m, -, bs, -⟩ := bs.black_inv; exact ⟨m, bs⟩
  obtain ⟨s₁, u, s₂, hs, -⟩ := bs.red_root d hsred
  exact ⟨s₁, u, s₂, hs⟩

include hnil in
/-- The second half of the body. -/
theorem rbtDeleteFixupBlack_inv {d : Dir} {c : Color} {a w z : Off} {s r : ColorTree Off}
    {n k : Nat} (h : DeleteMid t₀ T climbs t d c a s w r p x n) (hz : x.addr gNil = z)
    (hk : p.length + (if c = .black then 1 else 0) < k) (hk1 : 1 < k) :
    ∃ m p' x' n', m < k ∧
      DeleteInv t₀ T climbs m (rbtDeleteFixupBlack d t z a w) p' x' n' := by
  have hnb := h.spares.nil_black hnil
  have hw := (IsPlace.sibling.mp h.place).cell
  have hnear : (t.trees w).child d = s.addr gNil := by
    rw [Index.child_eq, hw, Links.child_build]
  have hfar : (t.trees w).child d.flip = r.addr gNil := by
    rw [Index.child_eq, hw, Links.child_flip_build]
  have hsc : (t.trees (s.addr gNil)).color = s.color :=
    (IsPlace.child.mp (IsPlace.sibling.mp h.place)).color hnb
  have hrc : (t.trees (r.addr gNil)).color = r.color :=
    (IsPlace.sibling.mp (IsPlace.child.mp (IsPlace.sibling.mp h.place))).color hnb
  unfold rbtDeleteFixupBlack
  simp only [hnear, hfar, hsc, hrc]
  split
  next hboth =>
    obtain ⟨x', m, hInv⟩ := h.recolor hboth.1 hboth.2
    exact ⟨_, p, x', m, hk, hInv⟩
  next hone =>
    cases hrcol : r.color with
    | red =>
      obtain ⟨hac, hwr⟩ := h.far_reads
      obtain ⟨X, m, hInv⟩ := h.rotateFar hrcol
      rw [if_neg (by simp)]
      simp only [hac, hwr]
      exact ⟨1, [], X, m, hk1, hInv⟩
    | black =>
      -- the near child is red: it comes to be the sibling
      obtain ⟨s₁, u, s₂, rfl⟩ := h.near_red hone hrcol
      have hmid := h.rotateNear hrcol
      have hpar := hmid.parent
      rw [hz] at hpar
      have hsib := hmid.place.frame_cell
      obtain ⟨hac, hwr⟩ := hmid.far_reads
      obtain ⟨X, m, hInv⟩ := hmid.rotateFar (color_build ..)
      rw [addr_build] at hwr hInv
      rw [if_pos rfl]
      simp only [addr_build, Index.parentOff_eq, hpar, Index.child_eq _ a, hsib,
        Links.child_flip_build, hac, hwr]
      exact ⟨1, [], X, m, hk1, hInv⟩

/-- Leaving the loop: painting `x` black completes the repair. -/
theorem DeleteInv.repaired {k n : Nat} {z : Off} (h : DeleteInv t₀ T climbs k (t, z) p x n)
    (hnil : (t₀.view.cell gNil).color = .black) (hexit : p = [] ∨ x.color = .red) :
    ∃ X, Repaired t₀ T climbs (t.setColor z .black) X := by
  have hnb : (t.view.cell gNil).color = .black := h.spares.nil_black hnil
  have hz : x.addr gNil = z := h.addr_eq
  have hpl : IsPlace t.view gNil T p x := h.place
  have hplace : IsPlace (t.setColor z .black).view gNil T p x.blacken := by
    rw [Index.view_setColor]
    by_cases hx : x = .nil
    · -- painting the sentinel black changes nothing
      subst hx
      rw [addr_nil] at hz
      subst hz
      rw [Linked.setColor_same hnb]
      exact hpl
    · rw [← hz]
      exact hpl.blacken hx
  have hcell : (t.setColor z .black).view.cell gNil = t.view.cell gNil := by
    rw [Index.view_setColor, Linked.setColor_cell]
    split
    next h0 => rw [← hnb]
    next => rfl
  refine ⟨plug p x.blacken, IsPlace.whole.mp hplace, ?_, h.spares.trans ⟨hcell, ?_⟩,
    fun hc => (h.keeps hc).2⟩
  · cases hx : x.color with
    | red => exact h.path.plug (h.short.red hx) (.of_black (color_blacken x))
    | black =>
      obtain rfl := hexit.resolve_right (by simp [hx])
      rw [blacken_of_black hx]
      exact ⟨hx, n, h.short.black hx⟩
  · exact Index.sameUsers_setColor ..

include hnil in
/-- The colour the loop tests. -/
theorem DeleteInv.test {k n : Nat} {z : Off} (h : DeleteInv t₀ T climbs k (t, z) p x n) :
    (t.trees z).color = x.color := by
  rw [← show x.addr gNil = z from h.addr_eq]
  exact h.place.color (h.spares.nil_black hnil)

/-- The loop stands at the root when nothing is above the place. -/
theorem DeleteInv.at_root {k n : Nat} {z : Off} (h : DeleteInv t₀ T climbs k (t, z) p x n) :
    z = t.bst.rootOff ↔ p = [] := by
  have h0 : t.bst.rootOff = (plug p x).addr gNil := h.place.root
  rw [h0, ← show x.addr gNil = z from h.addr_eq]
  exact h.place.addr_eq_root

/-- What a pass reads: the parent, and the side of `x` below it. -/
theorem DeleteInv.reads {k n : Nat} {z : Off} (h : DeleteInv t₀ T climbs k (t, z) p x n)
    (hp : ¬p = []) : ∃ d c a u q, p = ⟨d, c, a, u⟩ :: q ∧
      (if z = (t.trees (t.trees z).parentOff).leftOff then Dir.left else Dir.right) = d := by
  obtain ⟨⟨d, c, a, u⟩, q, rfl⟩ := List.exists_cons_of_ne_nil hp
  have hpar : (t.trees z).parentOff = a := h.parent
  have hside := side_eq h.place (Or.inr h.path.sibling_ne_nil)
  rw [h.addr_eq] at hside
  exact ⟨d, c, a, u, q, rfl, by rw [hpar]; exact hside⟩

include hnil in
/-- One step of the deletion repair: the measure falls, or the repair is complete. -/
theorem rbtDeleteFixupStep_inv {k n : Nat} {z : Off}
    (h : DeleteInv t₀ T climbs k (t, z) p x n) :
    StepOK (fun k s => ∃ p x n, DeleteInv t₀ T climbs k s p x n)
      (fun t => ∃ X, Repaired t₀ T climbs t X) k (rbtDeleteFixupStep (t, z)) := by
  unfold rbtDeleteFixupStep
  simp only [ne_eq, h.at_root, h.test hnil]
  split
  next hloop =>
    obtain ⟨hp, hx⟩ := hloop
    obtain ⟨d, c, a, u, q, rfl, hside⟩ := h.reads hp
    obtain ⟨t', c', s, w, r, q', heq, hmid, hlen⟩ := rbtDeleteFixupRed_mid hnil h hx
    have hk := h.measure_eq
    rw [if_pos hx, List.length_cons] at hk
    simp only [hside, heq]
    obtain ⟨m, p', x', n', hm, hInv⟩ :=
      rbtDeleteFixupBlack_inv hnil (k := k) hmid h.addr_eq (by omega) (by omega)
    exact ⟨m, hm, p', x', n', hInv⟩
  next hexit =>
    refine h.repaired hnil ?_
    cases hx : x.color with
    | red => exact Or.inr rfl
    | black => exact Or.inl (by_contra fun hp => hexit ⟨hp, hx⟩)

include hnil in
/-- **`rbt_delete_fixup` is total and repairs.** From a node `x`, possibly the sentinel, whose
subtree is one black node short, the loop ends and leaves a red-black tree of the same labels in
order. -/
theorem rbtDeleteFixup_spec {n k : Nat} {z : Off} (hfuel : k < userStorePoolNodes)
    (h : DeleteInv t₀ T climbs k (t, z) p x n) :
    ∃ t' X, rbtDeleteFixup t z = some t' ∧ Repaired t₀ T climbs t' X := by
  obtain ⟨t', hrun, X, hX⟩ :=
    run_total (fun k s => ∃ p x n, DeleteInv t₀ T climbs k s p x n)
      (fun k s ⟨p, x, n, hs⟩ => rbtDeleteFixupStep_inv hnil hs) ⟨p, x, n, h⟩ hfuel
  exact ⟨t', X, hrun, hX⟩

end

end MiniWeb.UserStore

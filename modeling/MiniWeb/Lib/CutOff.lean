import MiniWeb.Lib.RedBlack
import Mathlib.Data.List.Induction
import Mathlib.Algebra.GroupWithZero.Nat

/-!
# Listings that are cut off

An in-order walk writes the labels it keeps into a buffer. Before it enters a subtree it asks for a
margin of room; a label is written if it fits, and counted in any case. Once there is no room for
entering, the ancestors of the place reached are still visited, so what is written need not be the
beginning of the full listing.

`cleanCut_iff` says when it is, and counted right: at the labels that are met with room before their
subtree, which is a condition on the tree and the widths alone (`Met`, `CleanCut`). A walk with room
for everything lists everything (`traverse_all`).
-/

namespace MiniWeb.CutOff

open RedBlack ColorTree TreePath

universe u

variable {A : Type u}

/-- What is written, how far the buffer is filled, and the count. -/
structure Out (A : Type u) where
  shown : List A
  offset : Nat
  total : Nat

/-- The kept labels with their widths, the size of the buffer and the margin. -/
structure Listing (A : Type u) where
  keep : A → Bool
  width : A → Nat
  size : Nat
  margin : Nat

namespace Listing

variable (P : Listing A)

def visit (a : A) (o : Out A) : Out A :=
  if P.keep a = true then
    if o.offset + P.width a < P.size then ⟨o.shown ++ [a], o.offset + P.width a, o.total + 1⟩
    else { o with total := o.total + 1 }
  else o

def traverse : ColorTree A → Out A → Out A
  | .nil, o => o
  | .node _ l a r, o =>
    if P.size ≤ o.offset + P.margin then o else traverse r (P.visit a (traverse l o))

/-- The width of the kept labels of a list. -/
def cost (L : List A) : Nat := ((L.filter P.keep).map P.width).sum

/-- The kept labels that are met with room before their subtree, when every kept label before it was
written; `off` is the offset before the tree. -/
def admitted : ColorTree A → Nat → List A
  | .nil, _ => []
  | .node _ l a r, off =>
    if P.size ≤ off + P.margin then []
    else admitted l off ++ ([a].filter P.keep ++ admitted r (off + P.cost (l.toList ++ [a])))

/-- There is room where the subtree of `a` begins. -/
def Met (t : ColorTree A) (off : Nat) (a : A) : Prop :=
  ∃ p c l r, plug p (.node c l a r) = t ∧ off + P.cost (before p) + P.margin < P.size

/-- A kept label that is met with room is written, and so are all before it. -/
def CleanCut (t : ColorTree A) (off : Nat) : Prop :=
  ∀ L₁ a L₂, t.toList = L₁ ++ a :: L₂ → P.keep a = true → P.Met t off a →
    off + P.cost (L₁ ++ [a]) < P.size ∧ ∀ b ∈ L₁, P.keep b = true → P.Met t off b

variable {P} {t : ColorTree A} {o : Out A} {off : Nat} {a : A}

/-! ## Costs -/

theorem cost_append (L K : List A) : P.cost (L ++ K) = P.cost L + P.cost K := by
  rw [cost, List.filter_append, List.map_append, List.sum_append]
  rfl

theorem cost_singleton (h : P.keep a = true) : P.cost [a] = P.width a := by
  rw [cost, List.filter_cons_of_pos h]
  exact Nat.add_zero _

theorem cost_singleton_skip (h : ¬P.keep a = true) : P.cost [a] = 0 := by
  rw [cost, List.filter_cons_of_neg h]
  rfl

theorem visit_skip (h : ¬P.keep a = true) : P.visit a o = o := if_neg h

theorem visit_write (h : P.keep a = true) (hfit : o.offset + P.width a < P.size) :
    P.visit a o = ⟨o.shown ++ [a], o.offset + P.width a, o.total + 1⟩ := by
  rw [visit, if_pos h, if_pos hfit]

/-! ## The labels admitted -/

theorem admitted_sublist (t : ColorTree A) (off : Nat) :
    (P.admitted t off).Sublist (t.toList.filter P.keep) := by
  induction t generalizing off with
  | nil => exact List.Sublist.refl _
  | node c l a r ihl ihr =>
    rw [admitted]
    split
    · exact List.nil_sublist _
    · have hcons : a :: r.toList = [a] ++ r.toList := rfl
      rw [toList_node, List.filter_append, hcons, List.filter_append]
      exact (ihl off).append ((List.Sublist.refl _).append (ihr _))

theorem before_append (p q : TreePath A) : before (p ++ q) = before q ++ before p := by
  induction p with
  | nil => exact (List.append_nil _).symm
  | cons f p ih =>
    rcases f with ⟨d, c, x, s⟩
    cases d
    · exact ih
    · rw [List.cons_append, before, before, ih, List.append_assoc]

/-- A label is admitted if it is kept and met with room. -/
theorem mem_admitted_iff : a ∈ P.admitted t off ↔ P.keep a = true ∧ P.Met t off a := by
  constructor
  · intro h
    refine ⟨(List.mem_filter.mp ((P.admitted_sublist t off).subset h)).2, ?_⟩
    induction t generalizing off with
    | nil => cases h
    | node c l x r ihl ihr =>
      rw [admitted] at h
      split at h
      · cases h
      next hroom =>
        rcases List.mem_append.mp h with h | h
        · obtain ⟨p, c', l', r', hplug, hmet⟩ := ihl h
          refine ⟨p ++ [⟨.left, c, x, r⟩], c', l', r', ?_, ?_⟩
          · rw [plug_append, hplug]
            rfl
          · rw [before_append]
            exact hmet
        rcases List.mem_append.mp h with h | h
        · obtain rfl := List.mem_singleton.mp (List.mem_filter.mp h).1
          exact ⟨[], c, l, r, rfl, by simpa [cost] using hroom⟩
        · obtain ⟨p, c', l', r', hplug, hmet⟩ := ihr h
          refine ⟨p ++ [⟨.right, c, x, l⟩], c', l', r', ?_, ?_⟩
          · rw [plug_append, hplug]
            rfl
          · rw [before_append, cost_append, ← Nat.add_assoc]
            exact hmet
  · rintro ⟨hkeep, p, c, l, r, hplug, hmet⟩
    induction p using List.reverseRecOn generalizing t off with
    | nil =>
      subst hplug
      rw [plug_nil, admitted, if_neg (by simpa [cost] using hmet), List.filter_cons_of_pos hkeep]
      simp
    | append_singleton p f ih =>
      rw [plug_append] at hplug
      subst hplug
      rw [before_append, cost_append] at hmet
      rcases f with ⟨d, c', x, s⟩
      have hroom : ¬P.size ≤ off + P.margin := by omega
      cases d with
      | left =>
        have hmet' : off + P.cost (before p) + P.margin < P.size := by
          simp only [before, cost, List.filter_nil, List.map_nil, List.sum_nil] at hmet ⊢
          omega
        have hin := ih rfl hmet'
        simp only [plug_cons, plug_nil, Frame.attach, build, admitted, if_neg hroom]
        exact List.mem_append_left _ hin
      | right =>
        have hmet' : off + P.cost (s.toList ++ [x]) + P.cost (before p) + P.margin < P.size := by
          simp only [before, List.nil_append] at hmet
          omega
        have hin := ih rfl hmet'
        simp only [plug_cons, plug_nil, Frame.attach, build, admitted, if_neg hroom]
        exact List.mem_append_right _ (List.mem_append_right _ hin)

/-! ## What is written -/

/-- Every kept label that the walk visits is written. -/
def Writes : ColorTree A → Out A → Prop
  | .nil, _ => True
  | .node _ l a r, o =>
    P.size ≤ o.offset + P.margin ∨
      Writes l o ∧ (P.keep a = true → (P.traverse l o).offset + P.width a < P.size) ∧
        Writes r (P.visit a (P.traverse l o))

/-- The buffer stands where it stands when everything was written, or there is no more room for
entering. -/
def Sync (o : Out A) (off : Nat) : Prop :=
  o.offset = off ∨ P.size ≤ o.offset + P.margin ∧ o.offset ≤ off

theorem Sync.le (h : P.Sync o off) : o.offset ≤ off := by
  rcases h with h | h
  · exact h.le
  · exact h.2

theorem Sync.room (h : P.Sync o off) : P.size ≤ o.offset + P.margin ↔ P.size ≤ off + P.margin := by
  rcases h with h | ⟨hfull, hle⟩
  · rw [h]
  · exact iff_of_true hfull (by omega)

/-- A visit that writes what it should. -/
theorem visit_of_writes (h : P.keep a = true → o.offset + P.width a < P.size) :
    P.visit a o = ⟨o.shown ++ [a].filter P.keep, o.offset + P.cost [a],
      o.total + ([a].filter P.keep).length⟩ := by
  by_cases hkeep : P.keep a = true
  · rw [visit_write hkeep (h hkeep), cost_singleton hkeep, List.filter_cons_of_pos hkeep]
    rfl
  · rw [visit_skip hkeep, cost_singleton_skip hkeep, List.filter_cons_of_neg hkeep,
      List.filter_nil, List.append_nil]
    rfl

theorem cost_filter (L : List A) : P.cost (L.filter P.keep) = P.cost L := by
  rw [cost, List.filter_filter, cost]
  simp only [Bool.and_self]

theorem Sync.visit {L : List A} (hs : P.Sync o (off + P.cost L))
    (h : P.keep a = true → o.offset + P.width a < P.size) :
    P.Sync (P.visit a o) (off + P.cost (L ++ [a])) := by
  rw [cost_append, visit_of_writes h, ← Nat.add_assoc]
  rcases hs with hs | ⟨hfull, hle⟩
  · exact Or.inl (congrArg (· + P.cost [a]) hs)
  · exact Or.inr ⟨by simp only; omega, Nat.add_le_add_right hle _⟩

/-- **A walk that writes all it visits** lists the labels admitted. -/
theorem traverse_of_writes (hw : P.Writes t o) (hs : P.Sync o off) :
    P.traverse t o = ⟨o.shown ++ P.admitted t off, o.offset + P.cost (P.admitted t off),
        o.total + (P.admitted t off).length⟩ ∧
      P.Sync (P.traverse t o) (off + P.cost t.toList) := by
  induction t generalizing o off with
  | nil => exact ⟨by simp [traverse, admitted, cost], hs⟩
  | node c l a r ihl ihr =>
    by_cases hfull : P.size ≤ o.offset + P.margin
    · rw [traverse, if_pos hfull, admitted, if_pos (hs.room.mp hfull)]
      exact ⟨by simp [cost], Or.inr ⟨hfull, hs.le.trans (Nat.le_add_right ..)⟩⟩
    obtain ⟨hwl, hwa, hwr⟩ := hw.resolve_left hfull
    obtain ⟨hl, hsl⟩ := ihl hwl hs
    have hvisit := visit_of_writes hwa
    obtain ⟨hr, hsr⟩ := ihr hwr (hsl.visit hwa)
    rw [traverse, if_neg hfull, admitted, if_neg (mt hs.room.mpr hfull)]
    refine ⟨?_, ?_⟩
    · rw [hr, hvisit, hl]
      simp only [cost_append, cost_filter, List.append_assoc, List.length_append, Nat.add_assoc]
    · have hcons : a :: r.toList = [a] ++ r.toList := rfl
      rw [toList_node, hcons, ← List.append_assoc, cost_append, ← Nat.add_assoc]
      exact hsr

/-- If every admitted label fits behind the kept labels before it, all that is visited is
written. -/
theorem writes_of_fits (hs : P.Sync o off)
    (hfit : ∀ L₁ a L₂, t.toList = L₁ ++ a :: L₂ → a ∈ P.admitted t off →
      off + P.cost (L₁ ++ [a]) < P.size) : P.Writes t o := by
  induction t generalizing o off with
  | nil => trivial
  | node c l a r ihl ihr =>
    by_cases hfull : P.size ≤ o.offset + P.margin
    · exact Or.inl hfull
    rw [admitted, if_neg (mt hs.room.mpr hfull)] at hfit
    have hwl : P.Writes l o := by
      refine ihl hs fun L₁ b L₂ hL hb => ?_
      refine hfit L₁ b (L₂ ++ a :: r.toList) ?_ (List.mem_append_left _ hb)
      rw [toList_node, hL, List.append_assoc, List.cons_append]
    have hsl := (traverse_of_writes hwl hs).2
    have hwa : P.keep a = true → (P.traverse l o).offset + P.width a < P.size := by
      intro hkeep
      have h := hfit l.toList a r.toList rfl
        (List.mem_append_right _ (List.mem_append_left _ (by simp [hkeep])))
      rw [cost_append, cost_singleton hkeep] at h
      have := hsl.le
      omega
    have hsa := hsl.visit hwa
    refine Or.inr ⟨hwl, hwa, ihr hsa ?_⟩
    · intro L₁ b L₂ hL hb
      have h := hfit (l.toList ++ a :: L₁) b L₂ (by rw [toList_node, hL]; simp)
        (List.mem_append_right _ (List.mem_append_right _ hb))
      have hcons : l.toList ++ a :: L₁ ++ [b] = l.toList ++ [a] ++ (L₁ ++ [b]) := by simp
      rwa [hcons, cost_append, ← Nat.add_assoc] at h

/-! ## What is counted -/

theorem visit_count (a : A) (o : Out A) :
    o.total + (P.visit a o).shown.length ≤ (P.visit a o).total + o.shown.length ∧
      (o.total + (P.visit a o).shown.length = (P.visit a o).total + o.shown.length ↔
        (P.keep a = true → o.offset + P.width a < P.size)) := by
  by_cases hkeep : P.keep a = true
  · by_cases hfit : o.offset + P.width a < P.size
    · rw [visit_write hkeep hfit]
      simp only [List.length_append, List.length_singleton]
      exact ⟨by omega, iff_of_true (by omega) fun _ => hfit⟩
    · rw [visit, if_pos hkeep, if_neg hfit]
      simp only
      exact ⟨by omega, iff_of_false (by omega) fun h => hfit (h hkeep)⟩
  · rw [visit_skip hkeep]
    exact ⟨le_refl _, iff_of_true rfl fun h => absurd h hkeep⟩

/-- **The count** never falls behind what is written, and keeps level exactly if all that is visited
is written. -/
theorem traverse_count (t : ColorTree A) (o : Out A) :
    o.total + (P.traverse t o).shown.length ≤ (P.traverse t o).total + o.shown.length ∧
      (o.total + (P.traverse t o).shown.length = (P.traverse t o).total + o.shown.length ↔
        P.Writes t o) := by
  induction t generalizing o with
  | nil => exact ⟨le_refl _, iff_of_true rfl trivial⟩
  | node c l a r ihl ihr =>
    rw [traverse, Writes]
    split
    next hfull => exact ⟨le_refl _, iff_of_true rfl (Or.inl hfull)⟩
    next hroom =>
      obtain ⟨hl, hleq⟩ := ihl o
      obtain ⟨ha, haeq⟩ := P.visit_count a (P.traverse l o)
      obtain ⟨hr, hreq⟩ := ihr (P.visit a (P.traverse l o))
      refine ⟨by omega, ?_⟩
      rw [or_iff_right hroom, ← hleq, ← haeq, ← hreq]
      omega

theorem visit_offset_lt (h : o.offset < P.size) : (P.visit a o).offset < P.size := by
  unfold visit
  split
  · split
    next hfit => exact hfit
    next => exact h
  · exact h

theorem traverse_offset_lt (h : o.offset < P.size) : (P.traverse t o).offset < P.size := by
  induction t generalizing o with
  | nil => exact h
  | node c l a r ihl ihr =>
    rw [traverse]
    split
    · exact h
    · exact ihr (visit_offset_lt (ihl h))

/-! ## Clean cuts -/

/-- Kept labels that include all kept labels before them are the first ones. -/
theorem prefix_of_closed {keep : A → Bool} {L M : List A} (hsub : L.Sublist (M.filter keep))
    (hnd : M.Nodup) (hclosed : ∀ L₁ a L₂, M = L₁ ++ a :: L₂ → a ∈ L → ∀ b ∈ L₁, keep b = true →
      b ∈ L) : L <+: M.filter keep := by
  induction M generalizing L with
  | nil =>
    rw [List.filter_nil, List.sublist_nil] at hsub
    rw [hsub]
    exact List.nil_prefix
  | cons x M ih =>
    obtain ⟨hx, hnd⟩ := List.nodup_cons.mp hnd
    by_cases hkeep : keep x = true
    · rw [List.filter_cons_of_pos hkeep] at hsub ⊢
      cases hsub with
      | cons _ hsub =>
        -- the first label is missing, so nothing is there
        rcases L with _ | ⟨a, L⟩
        · exact List.nil_prefix
        have ha := (List.mem_filter.mp (hsub.subset List.mem_cons_self)).1
        obtain ⟨L₁, L₂, hM⟩ := List.append_of_mem ha
        have hmem := hclosed (x :: L₁) a L₂ (by rw [hM]; rfl) List.mem_cons_self x
          List.mem_cons_self hkeep
        exact absurd (List.mem_filter.mp (hsub.subset hmem)).1 hx
      | cons_cons _ hsub =>
        rw [List.cons_prefix_cons]
        refine ⟨rfl, ih hsub hnd fun L₁ a L₂ hM ha b hb hbk => ?_⟩
        have hmem := hclosed (x :: L₁) a L₂ (by rw [hM]; rfl) (List.mem_cons_of_mem _ ha) b
          (List.mem_cons_of_mem _ hb) hbk
        refine (List.mem_cons.mp hmem).resolve_left ?_
        rintro rfl
        exact hx (by rw [hM]; exact List.mem_append_left _ hb)
    · rw [List.filter_cons_of_neg hkeep] at hsub ⊢
      refine ih hsub hnd fun L₁ a L₂ hM ha b hb hbk => ?_
      exact hclosed (x :: L₁) a L₂ (by rw [hM]; rfl) ha b (List.mem_cons_of_mem _ hb) hbk

/-- The first kept labels include the kept labels before each of them. -/
theorem filter_prefix_of_mem {keep : A → Bool} {L L₁ L₂ : List A} {a : A}
    (hpre : L <+: (L₁ ++ a :: L₂).filter keep) (hnd : (L₁ ++ a :: L₂).Nodup) (ha : a ∈ L) :
    (L₁ ++ [a]).filter keep <+: L := by
  have hkeep : keep a = true := (List.mem_filter.mp (hpre.subset ha)).2
  have hwhole : (L₁ ++ [a]).filter keep <+: (L₁ ++ a :: L₂).filter keep := by
    have hcons : L₁ ++ a :: L₂ = L₁ ++ [a] ++ L₂ := by simp
    rw [hcons, List.filter_append (L₁ ++ [a])]
    exact List.prefix_append ..
  rcases List.prefix_or_prefix_of_prefix hwhole hpre with h | h
  · exact h
  · -- the shorter of the two holds `a`, which comes last
    rw [List.filter_append, List.filter_cons_of_pos hkeep, List.filter_nil] at h ⊢
    rcases List.prefix_concat_iff.mp h with h | h
    · exact h ▸ List.prefix_refl _
    · have hL₁ := (List.mem_filter.mp (h.subset ha)).1
      exact absurd rfl ((List.nodup_append.mp hnd).2.2 a hL₁ a List.mem_cons_self)

/-- **When a cut is clean.** What the walk lists is the beginning of the kept labels and is counted
right exactly if every kept label that is met with room is written, and so are all before it. -/
theorem cleanCut_iff (hnd : t.toList.Nodup) :
    (P.traverse t ⟨[], off, 0⟩).shown <+: t.toList.filter P.keep ∧
        (P.traverse t ⟨[], off, 0⟩).total = (P.traverse t ⟨[], off, 0⟩).shown.length ↔
      P.CleanCut t off := by
  have hsync : P.Sync ⟨[], off, 0⟩ off := Or.inl rfl
  have hcount := (P.traverse_count t ⟨[], off, 0⟩).2
  simp only [Nat.zero_add, List.length_nil, Nat.add_zero] at hcount
  constructor
  · rintro ⟨hpre, htotal⟩ L₁ a L₂ hL hkeep hmet
    have hrun := (traverse_of_writes (hcount.mp htotal.symm) hsync).1
    have ha : a ∈ P.admitted t off := mem_admitted_iff.mpr ⟨hkeep, hmet⟩
    rw [hrun, hL] at hpre
    change P.admitted t off <+: _ at hpre
    have hbefore := filter_prefix_of_mem hpre (hL ▸ hnd) ha
    refine ⟨?_, fun b hb hbk => ?_⟩
    · obtain ⟨p, c, l, r, -, hroom⟩ := hmet
      have hlt := traverse_offset_lt (t := t) (o := ⟨[], off, 0⟩) (P := P)
        (show off < P.size by omega)
      have hend := congrArg Out.offset hrun
      obtain ⟨K, hK⟩ := hbefore
      rw [← hK, cost_append, cost_filter] at hend
      simp only at hend
      omega
    · have hmem := hbefore.subset
        (List.mem_filter.mpr ⟨List.mem_append_left [a] hb, hbk⟩)
      exact (mem_admitted_iff.mp hmem).2
  · intro hclean
    have hw : P.Writes t ⟨[], off, 0⟩ := by
      refine writes_of_fits hsync fun L₁ a L₂ hL ha => ?_
      obtain ⟨hkeep, hmet⟩ := mem_admitted_iff.mp ha
      exact (hclean L₁ a L₂ hL hkeep hmet).1
    refine ⟨?_, (hcount.mpr hw).symm⟩
    rw [(traverse_of_writes hw hsync).1]
    refine prefix_of_closed (P.admitted_sublist t off) hnd fun L₁ a L₂ hL ha b hb hbk => ?_
    obtain ⟨hkeep, hmet⟩ := mem_admitted_iff.mp ha
    exact mem_admitted_iff.mpr ⟨hbk, (hclean L₁ a L₂ hL hkeep hmet).2 b hb hbk⟩

/-- **A walk with room for everything** lists everything. -/
theorem traverse_all (h : o.offset + P.cost t.toList + P.margin < P.size) :
    P.traverse t o = ⟨o.shown ++ t.toList.filter P.keep, o.offset + P.cost t.toList,
      o.total + (t.toList.filter P.keep).length⟩ := by
  induction t generalizing o with
  | nil => simp [traverse, cost]
  | node c l a r ihl ihr =>
    have hcons : a :: r.toList = [a] ++ r.toList := rfl
    rw [toList_node, hcons, cost_append, cost_append] at h ⊢
    have hvisit : P.visit a (P.traverse l o) = ⟨o.shown ++ l.toList.filter P.keep ++
        [a].filter P.keep, o.offset + P.cost l.toList + P.cost [a],
        o.total + (l.toList.filter P.keep).length + ([a].filter P.keep).length⟩ := by
      rw [ihl (by omega)]
      refine visit_of_writes fun hkeep => ?_
      rw [cost_singleton hkeep] at h
      simp only
      omega
    rw [traverse, if_neg (by omega), hvisit, ihr (by simp only; omega)]
    simp only [List.filter_append, List.append_assoc, List.length_append, Nat.add_assoc]

end Listing

end MiniWeb.CutOff

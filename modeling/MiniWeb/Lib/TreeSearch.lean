import MiniWeb.Lib.Loop
import MiniWeb.Lib.RedBlack

/-!
# Descending in a tree

A search goes down from the root and decides at each label whether to stop or which child to
enter. `descend go` is that walk on trees; it answers the place it ends at. A loop over cells
that follows the same decisions ends at the same place (`run_descend`), so its proof only has to
read one node.

When the decision compares a key with an ordered list of labels, everything before the place
lies on one side of the key and everything after it on the other (`before_forall`,
`after_forall`).
-/

namespace MiniWeb.RedBlack

open ColorTree TreePath Loop

universe u v w

variable {A : Type u}

def descend (go : A → Option Dir) : TreePath A → ColorTree A → TreePath A × ColorTree A
  | p, .nil => (p, .nil)
  | p, .node c l a r =>
    match go a with
    | none => (p, .node c l a r)
    | some .left => descend go (⟨.left, c, a, r⟩ :: p) l
    | some .right => descend go (⟨.right, c, a, l⟩ :: p) r

variable {go : A → Option Dir} {p : TreePath A} {t : ColorTree A}

/-- The walk stays in the tree. -/
theorem plug_descend (go : A → Option Dir) (p : TreePath A) (t : ColorTree A) :
    plug (descend go p t).1 (descend go p t).2 = plug p t := by
  induction t generalizing p with
  | nil => rfl
  | node c l a r ihl ihr =>
    unfold descend
    split
    · rfl
    · exact ihl _
    · exact ihr _

/-- The walk ends at an empty place or at a label that stops it. -/
theorem descend_stop (go : A → Option Dir) (p : TreePath A) (t : ColorTree A) :
    (descend go p t).2 = .nil ∨
      ∃ c l a r, (descend go p t).2 = .node c l a r ∧ go a = none := by
  induction t generalizing p with
  | nil => exact Or.inl rfl
  | node c l a r ihl ihr =>
    unfold descend
    split
    next h => exact Or.inr ⟨c, l, a, r, rfl, h⟩
    · exact ihl _
    · exact ihr _

/-- Every ancestor on the way was left in the direction the decision names. -/
theorem descend_frames (go : A → Option Dir) (t : ColorTree A)
    (hp : ∀ f ∈ p, go f.label = some f.dir) :
    ∀ f ∈ (descend go p t).1, go f.label = some f.dir := by
  induction t generalizing p with
  | nil => exact hp
  | node c l a r ihl ihr =>
    unfold descend
    split
    · exact hp
    next h => exact ihl (List.forall_mem_cons.mpr ⟨h, hp⟩)
    next h => exact ihr (List.forall_mem_cons.mpr ⟨h, hp⟩)

/-- The walk asks only about labels of the tree. -/
theorem descend_congr {go go' : A → Option Dir} (p : TreePath A) {t : ColorTree A}
    (h : ∀ a ∈ t.toList, go a = go' a) : descend go p t = descend go' p t := by
  induction t generalizing p with
  | nil => rfl
  | node c l a r ihl ihr =>
    simp only [toList_node, List.mem_append, List.mem_cons] at h
    unfold descend
    rw [h a (by simp), ihl _ fun b hb => h b (by simp [hb]), ihr _ fun b hb => h b (by simp [hb])]

/-- **Search loops.** A loop that at each node of the whole tree `X` does what `go` decides ends
where the walk ends. -/
theorem run_descend {σ : Type v} {α : Type w} (go : A → Option Dir) (step : σ → Step σ α)
    {X : ColorTree A} (st : TreePath A → ColorTree A → σ) (out : TreePath A → ColorTree A → α)
    (hnil : ∀ p, plug p .nil = X → step (st p .nil) = .done (out p .nil))
    (hnode : ∀ p c l a r, plug p (.node c l a r) = X → step (st p (.node c l a r)) =
      match go a with
      | none => .done (out p (.node c l a r))
      | some .left => .next (st (⟨.left, c, a, r⟩ :: p) l)
      | some .right => .next (st (⟨.right, c, a, l⟩ :: p) r))
    {fuel : Nat} (h : plug p t = X) (hfuel : t.toList.length < fuel) :
    run step fuel (st p t) = some (out (descend go p t).1 (descend go p t).2) := by
  induction t generalizing p fuel with
  | nil =>
    obtain ⟨fuel, rfl⟩ : ∃ k, fuel = k + 1 := ⟨fuel - 1, by omega⟩
    exact run_succ_done (hnil p h)
  | node c l a r ihl ihr =>
    obtain ⟨fuel, rfl⟩ : ∃ k, fuel = k + 1 := ⟨fuel - 1, by omega⟩
    have hst := hnode p c l a r h
    rw [toList_node, List.length_append, List.length_cons] at hfuel
    unfold descend
    split
    next hgo =>
      rw [hgo] at hst
      exact run_succ_done hst
    next hgo =>
      rw [hgo] at hst
      rw [run_succ_next hst]
      exact ihl h (by omega)
    next hgo =>
      rw [hgo] at hst
      rw [run_succ_next hst]
      exact ihr h (by omega)

/-! ## Ordered labels -/

/-- A property that passes down to earlier labels holds before a place when it holds of the
ancestors left to the right. -/
theorem before_forall {P : A → Prop} {p : TreePath A}
    (hP : (before p).Pairwise fun a b => P b → P a) (hf : ∀ f ∈ p, f.dir = .right → P f.label) :
    ∀ b ∈ before p, P b := by
  induction p with
  | nil => intro b hb; cases hb
  | cons f p ih =>
    rcases f with ⟨d, c, a, s⟩
    obtain ⟨hfa, hfp⟩ := List.forall_mem_cons.mp hf
    cases d with
    | left => exact ih hP hfp
    | right =>
      have ha : P a := hfa rfl
      simp only [before, ← List.append_assoc] at hP ⊢
      rw [List.pairwise_append] at hP
      intro b hb
      rcases List.mem_append.mp hb with hb | hb
      · exact hP.2.2 b hb a (List.mem_singleton.mpr rfl) ha
      · rwa [List.mem_singleton.mp hb]

/-- The same towards later labels. -/
theorem after_forall {P : A → Prop} {p : TreePath A}
    (hP : (after p).Pairwise fun a b => P a → P b) (hf : ∀ f ∈ p, f.dir = .left → P f.label) :
    ∀ b ∈ after p, P b := by
  induction p with
  | nil => intro b hb; cases hb
  | cons f p ih =>
    rcases f with ⟨d, c, a, s⟩
    obtain ⟨hfa, hfp⟩ := List.forall_mem_cons.mp hf
    cases d with
    | right => exact ih hP hfp
    | left =>
      have ha : P a := hfa rfl
      simp only [after, List.cons_append] at hP ⊢
      rw [List.pairwise_cons] at hP
      intro b hb
      rcases List.mem_cons.mp hb with rfl | hb
      · exact ha
      · exact hP.1 b hb ha

end MiniWeb.RedBlack

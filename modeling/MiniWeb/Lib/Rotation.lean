import Mathlib.Data.List.Basic
import Mathlib.Data.List.Induction
import Mathlib.Logic.Function.Basic
import Mathlib.Tactic.Common

/-!
# A log that is rotated

Texts are kept under names, and a log has the names `p 0`, …, `p N`: its current text and the older
ones. A rotation drops the text of `p N`, moves every other text up by one name, highest first, and
starts a new one. Any of the names may be free.

`holds` is all that a log has, oldest first: an addition is put at its end, and a rotation drops a
whole text from its front (`holds_rotate`).
-/

namespace MiniWeb.Rotation

universe u v

variable {A : Type u} {C : Type v} [DecidableEq A]

/-- What `old` holds goes to `new`; nothing happens when `old` is free. -/
def move {B : Type v} (old new : A) (m : A → Option B) : A → Option B :=
  match m old with
  | none => m
  | some b => Function.update (Function.update m old none) new (some b)

/-- What `p k`, …, `p 0` hold goes up by one name. -/
def moveUp {B : Type v} (p : Nat → A) : Nat → (A → Option B) → A → Option B
  | 0, m => move (p 0) (p 1) m
  | k + 1, m => moveUp p k (move (p (k + 1)) (p (k + 2)) m)

/-- A rotation of a log with the older texts `p 1`, …, `p (k + 1)`. -/
def rotate (p : Nat → A) (k : Nat) (m : A → Option (List C)) : A → Option (List C) :=
  Function.update (moveUp p k (Function.update m (p (k + 1)) none)) (p 0) (some [])

section Move

variable {B : Type v} {p : Nat → A} {k : Nat} {m : A → Option B} {old new a : A}

/-- To a free name. -/
theorem move_free (hfree : m new = none) (hne : old ≠ new) :
    move old new m = Function.update (Function.update m new (m old)) old none := by
  unfold move
  cases hold : m old with
  | none =>
    funext a
    simp only [Function.update_apply]
    split
    next h => rw [h, hold]
    next =>
      split
      next h => rw [h, hfree]
      next => rfl
  | some b => exact Function.update_comm hne none (some b) m

theorem moveUp_spec (hinj : ∀ i j, i ≤ k + 1 → j ≤ k + 1 → p i = p j → i = j)
    (hfree : m (p (k + 1)) = none) :
    (∀ i ≤ k, moveUp p k m (p (i + 1)) = m (p i)) ∧ moveUp p k m (p 0) = none ∧
      ∀ a, (∀ i ≤ k + 1, a ≠ p i) → moveUp p k m a = m a := by
  induction k generalizing m with
  | zero =>
    have hne : p 0 ≠ p 1 := fun h => by
      have := hinj 0 1 (by omega) (by omega) h
      omega
    rw [moveUp, move_free hfree hne]
    refine ⟨?_, Function.update_self .., ?_⟩
    · intro i hi
      obtain rfl : i = 0 := by omega
      rw [Function.update_of_ne hne.symm, Function.update_self]
    · intro a ha
      rw [Function.update_of_ne (ha 0 (by omega)), Function.update_of_ne (ha 1 (by omega))]
  | succ k ih =>
    have hne : ∀ i j, i ≤ k + 2 → j ≤ k + 2 → i ≠ j → p i ≠ p j := fun i j hi hj hij h =>
      hij (hinj i j hi hj h)
    rw [moveUp, move_free hfree (hne _ _ (by omega) (by omega) (by omega))]
    obtain ⟨hup, hzero, hother⟩ := ih
      (m := Function.update (Function.update m (p (k + 2)) (m (p (k + 1)))) (p (k + 1)) none)
      (fun i j hi hj => hinj i j (by omega) (by omega)) (Function.update_self ..)
    refine ⟨?_, hzero, ?_⟩
    · intro i hi
      rcases Nat.lt_or_ge i (k + 1) with hlt | hge
      · rw [hup i (by omega), Function.update_of_ne (hne _ _ (by omega) (by omega) (by omega)),
          Function.update_of_ne (hne _ _ (by omega) (by omega) (by omega))]
      · obtain rfl : i = k + 1 := by omega
        rw [hother _ fun j hj => hne _ _ (by omega) (by omega) (by omega),
          Function.update_of_ne (hne _ _ (by omega) (by omega) (by omega)), Function.update_self]
    · intro a ha
      rw [hother a fun i hi => ha i (by omega), Function.update_of_ne (ha _ (by omega)),
        Function.update_of_ne (ha _ (by omega))]

end Move

section Rotate

variable {p : Nat → A} {k : Nat} {m : A → Option (List C)}

/-- **A rotation** moves the texts up, starts a new one and leaves other names alone. -/
theorem rotate_spec (hinj : ∀ i j, i ≤ k + 1 → j ≤ k + 1 → p i = p j → i = j) :
    (∀ i ≤ k, rotate p k m (p (i + 1)) = m (p i)) ∧ rotate p k m (p 0) = some [] ∧
      ∀ a, (∀ i ≤ k + 1, a ≠ p i) → rotate p k m a = m a := by
  obtain ⟨hup, -, hother⟩ := moveUp_spec (m := Function.update m (p (k + 1)) none) hinj
    (Function.update_self ..)
  refine ⟨?_, Function.update_self .., ?_⟩
  · intro i hi
    have hne : p (i + 1) ≠ p 0 := fun h => by
      have := hinj (i + 1) 0 (by omega) (by omega) h
      omega
    have hne' : p i ≠ p (k + 1) := fun h => by
      have := hinj i (k + 1) (by omega) (by omega) h
      omega
    rw [rotate, Function.update_of_ne hne, hup i hi, Function.update_of_ne hne']
  · intro a ha
    rw [rotate, Function.update_of_ne (ha 0 (by omega)), hother a ha,
      Function.update_of_ne (ha _ (by omega))]

end Rotate

/-! ## What a log holds -/

/-- The text under a name; a missing one is empty. -/
def text (m : A → Option (List C)) (a : A) : List C := (m a).getD []

/-- All that a log holds, oldest first. -/
def holds (p : Nat → A) : Nat → (A → Option (List C)) → List C
  | 0, m => text m (p 0)
  | n + 1, m => text m (p (n + 1)) ++ holds p n m

section Holds

variable {p : Nat → A} {n k : Nat} {m m' : A → Option (List C)}

omit [DecidableEq A] in
theorem holds_congr (h : ∀ i ≤ n, text m' (p i) = text m (p i)) :
    holds p n m' = holds p n m := by
  induction n with
  | zero => exact h 0 (by omega)
  | succ n ih => rw [holds, holds, h (n + 1) (by omega), ih fun i hi => h i (by omega)]

/-- Adding to the current text. -/
theorem holds_append (hinj : ∀ i j, i ≤ n → j ≤ n → p i = p j → i = j) (x : List C) :
    holds p n (Function.update m (p 0) (some (text m (p 0) ++ x))) = holds p n m ++ x := by
  induction n with
  | zero =>
    show (Function.update m (p 0) _ (p 0)).getD [] = text m (p 0) ++ x
    rw [Function.update_self, Option.getD_some]
  | succ n ih =>
    have hne : p (n + 1) ≠ p 0 := fun h => by
      have := hinj (n + 1) 0 (by omega) (by omega) h
      omega
    have hlast : text (Function.update m (p 0) (some (text m (p 0) ++ x))) (p (n + 1)) =
        text m (p (n + 1)) := congrArg (Option.getD · []) (Function.update_of_ne hne ..)
    rw [holds, holds, hlast, ih fun i j hi hj => hinj i j (by omega) (by omega),
      List.append_assoc]

omit [DecidableEq A] in
/-- All texts one name up, and a new one. -/
theorem holds_shift (hup : ∀ i ≤ n, m' (p (i + 1)) = m (p i)) (hzero : m' (p 0) = some []) :
    holds p (n + 1) m' = holds p n m := by
  induction n with
  | zero =>
    have hfirst : text m' (p 1) = text m (p 0) := congrArg (Option.getD · []) (hup 0 (by omega))
    have hnew : text m' (p 0) = [] := congrArg (Option.getD · []) hzero
    rw [holds, holds, holds, hfirst, hnew, List.append_nil]
  | succ n ih =>
    have hlast : text m' (p (n + 2)) = text m (p (n + 1)) :=
      congrArg (Option.getD · []) (hup (n + 1) (by omega))
    rw [holds, hlast, ih fun i hi => hup i (by omega), holds]

/-- **A rotation drops the oldest text**, in whole, and nothing else. -/
theorem holds_rotate (hinj : ∀ i j, i ≤ k + 1 → j ≤ k + 1 → p i = p j → i = j) :
    text m (p (k + 1)) ++ holds p (k + 1) (rotate p k m) = holds p (k + 1) m := by
  obtain ⟨hup, hzero, -⟩ := rotate_spec (m := m) hinj
  rw [holds_shift hup hzero, holds]

end Holds

end MiniWeb.Rotation

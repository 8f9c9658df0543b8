import Mathlib.Data.List.Basic
import Mathlib.Data.List.Nodup
import Mathlib.Data.List.Count
import Mathlib.Logic.Function.Basic
import Mathlib.Tactic.Common

/-!
# Slots and who holds them

A table of `n` slots marks each of them active or free; every active slot in use has one holder,
and a holder has at most one slot. `Owned` says that the holders' slots are active and that no two
holders share one. A slot is acquired, handed over or released; each of the three keeps `Owned`,
and changes the number of active slots by one, by none or by one.
-/

namespace MiniWeb.Slots

universe u

/-- The number of active slots. -/
def count (n : Nat) (active : Nat → Bool) : Nat := (List.range n).countP active

variable {n slot : Nat} {active : Nat → Bool}

theorem count_le : count n active ≤ n := by
  have h := List.countP_le_length (p := active) (l := List.range n)
  rwa [List.length_range] at h

/-- A slot beyond the table is not counted. -/
theorem count_beyond (active : Nat → Bool) (b : Bool) (h : n ≤ slot) :
    count n (Function.update active slot b) = count n active := by
  apply List.countP_congr
  intro i hi
  have hne : i ≠ slot := by
    have := List.mem_range.mp hi
    omega
  rw [Function.update_of_ne hne]

/-- Marking a free slot active. -/
theorem count_acquire (h : slot < n) (hfree : active slot = false) :
    count n (Function.update active slot true) = count n active + 1 := by
  induction n with
  | zero => omega
  | succ n ih =>
    unfold count at ih ⊢
    rw [List.range_succ, List.countP_append, List.countP_append, List.countP_singleton,
      List.countP_singleton]
    by_cases hn : slot = n
    · subst hn
      have hbelow := count_beyond active true (Nat.le_refl slot)
      unfold count at hbelow
      rw [hbelow, Function.update_self, hfree]
      rfl
    · rw [ih (by omega), Function.update_of_ne (Ne.symm hn)]
      omega

/-- Marking an active slot free. -/
theorem count_release (h : slot < n) (hactive : active slot = true) :
    count n (Function.update active slot false) + 1 = count n active := by
  have hback : Function.update (Function.update active slot false) slot true = active := by
    rw [Function.update_idem, ← hactive, Function.update_eq_self]
  have hcount : count n (Function.update (Function.update active slot false) slot true) = _ :=
    count_acquire h (Function.update_self ..)
  rw [hback] at hcount
  exact hcount.symm

/-- The first free slot, as a loop over the table finds it. -/
def firstFree (n : Nat) (active : Nat → Bool) : Option Nat :=
  (List.range n).find? fun slot => !active slot

theorem firstFree_spec (h : firstFree n active = some slot) :
    slot < n ∧ active slot = false := by
  refine ⟨List.mem_range.mp (List.mem_of_find?_eq_some h), ?_⟩
  have hfree := List.find?_some h
  rwa [Bool.not_eq_true'] at hfree

/-! ## Holders -/

variable {α : Type u} {holds holds' : α → Option Nat} {a b : α}

/-- Every holder's slot is active, and no two holders share one. -/
structure Owned (n : Nat) (active : Nat → Bool) (holds : α → Option Nat) : Prop where
  active : ∀ a slot, holds a = some slot → slot < n ∧ active slot = true
  unique : ∀ a b slot, holds a = some slot → holds b = some slot → a = b

theorem owned_none : Owned n active fun _ : α => none where
  active _ _ h := by cases h
  unique _ _ _ h := by cases h

/-- No holder has more slots than before. -/
theorem Owned.mono (h : Owned n active holds)
    (hmono : ∀ a slot, holds' a = some slot → holds a = some slot) : Owned n active holds' where
  active a slot ha := h.active a slot (hmono a slot ha)
  unique a b slot ha hb := h.unique a b slot (hmono a slot ha) (hmono b slot hb)

theorem Owned.acquire (h : Owned n active holds) (hslot : slot < n) (hfree : active slot = false)
    (ha : holds' a = some slot) (hothers : ∀ b, b ≠ a → holds' b = holds b) :
    Owned n (Function.update active slot true) holds' := by
  have hnew : ∀ b s, holds' b = some s → b ≠ a → s ≠ slot ∧ s < n ∧ active s = true := by
    intro b s hb hne
    rw [hothers b hne] at hb
    obtain ⟨hlt, hact⟩ := h.active b s hb
    refine ⟨?_, hlt, hact⟩
    intro heq
    rw [heq, hfree] at hact
    cases hact
  constructor
  · intro b s hb
    by_cases hba : b = a
    · rw [hba, ha, Option.some.injEq] at hb
      rw [← hb]
      exact ⟨hslot, Function.update_self ..⟩
    · obtain ⟨hne, hlt, hact⟩ := hnew b s hb hba
      exact ⟨hlt, by rw [Function.update_of_ne hne, hact]⟩
  · intro b c s hb hc
    by_cases hba : b = a
    · by_cases hca : c = a
      · rw [hba, hca]
      · rw [hba, ha, Option.some.injEq] at hb
        exact absurd hb.symm (hnew c s hc hca).1
    · by_cases hca : c = a
      · rw [hca, ha, Option.some.injEq] at hc
        exact absurd hc.symm (hnew b s hb hba).1
      · rw [hothers b hba] at hb
        rw [hothers c hca] at hc
        exact h.unique b c s hb hc

theorem Owned.release (h : Owned n active holds) (hold : holds a = some slot)
    (ha : holds' a = none) (hothers : ∀ b, b ≠ a → holds' b = holds b) :
    Owned n (Function.update active slot false) holds' := by
  have hne : ∀ b, holds' b ≠ none → b ≠ a := by
    intro b hb hba
    rw [hba] at hb
    exact hb ha
  constructor
  · intro b s hb
    have hba : b ≠ a := hne b (by rw [hb]; exact Option.some_ne_none s)
    rw [hothers b hba] at hb
    obtain ⟨hlt, hact⟩ := h.active b s hb
    have hs : s ≠ slot := by
      intro heq
      rw [heq] at hb
      exact hba (h.unique b a slot hb hold)
    exact ⟨hlt, by rw [Function.update_of_ne hs, hact]⟩
  · intro b c s hb hc
    have hba : b ≠ a := hne b (by rw [hb]; exact Option.some_ne_none s)
    have hca : c ≠ a := hne c (by rw [hc]; exact Option.some_ne_none s)
    rw [hothers b hba] at hb
    rw [hothers c hca] at hc
    exact h.unique b c s hb hc

/-- `a` hands its slot to `b`. -/
theorem Owned.handOver (h : Owned n active holds) (hold : holds a = some slot)
    (ha : holds' a = none) (hb : holds' b = some slot)
    (hothers : ∀ c, c ≠ a → c ≠ b → holds' c = holds c) : Owned n active holds' := by
  -- whoever holds a slot now held it before, or is `b` with the slot of `a`
  have hcases : ∀ c s, holds' c = some s → c = b ∧ s = slot ∨ c ≠ b ∧ c ≠ a ∧ holds c = some s := by
    intro c s hc
    by_cases hcb : c = b
    · rw [hcb, hb, Option.some.injEq] at hc
      exact Or.inl ⟨hcb, hc.symm⟩
    · have hca : c ≠ a := by
        intro hca
        rw [hca, ha] at hc
        cases hc
      rw [hothers c hca hcb] at hc
      exact Or.inr ⟨hcb, hca, hc⟩
  constructor
  · intro c s hc
    obtain ⟨-, rfl⟩ | ⟨-, -, hc⟩ := hcases c s hc
    · exact h.active a _ hold
    · exact h.active c s hc
  · intro c d s hc hd
    obtain ⟨hcb, hcs⟩ | ⟨-, hca, hc⟩ := hcases c s hc
    · obtain ⟨hdb, -⟩ | ⟨-, hda, hd⟩ := hcases d s hd
      · rw [hcb, hdb]
      · rw [hcs] at hd
        exact absurd (h.unique d a slot hd hold) hda
    · obtain ⟨-, hds⟩ | ⟨-, -, hd⟩ := hcases d s hd
      · rw [hds] at hc
        exact absurd (h.unique c a slot hc hold) hca
      · exact h.unique c d s hc hd

/-- Different holders, as many active slots. -/
theorem Owned.length_le (h : Owned n active holds) {as : List α} (hnodup : as.Nodup)
    (hholds : ∀ a ∈ as, (holds a).isSome = true) : as.length ≤ count n active := by
  have hsub : as.filterMap holds ⊆ (List.range n).filter active := by
    intro slot hslot
    obtain ⟨a, -, ha⟩ := List.mem_filterMap.mp hslot
    obtain ⟨hlt, hact⟩ := h.active a slot ha
    exact List.mem_filter.mpr ⟨List.mem_range.mpr hlt, hact⟩
  have hdistinct : (as.filterMap holds).Nodup :=
    hnodup.filterMap fun a b slot ha hb => h.unique a b slot ha hb
  have hlength : (as.filterMap holds).length = as.length := by
    rw [List.length_filterMap_eq_countP, List.countP_eq_length]
    exact hholds
  rw [← hlength, count, List.countP_eq_length_filter]
  exact (List.subperm_of_subset hdistinct hsub).length_le

end MiniWeb.Slots

import MiniWeb.Lib.Loop
import Mathlib.Data.List.Nodup

/-!
# Singly linked chains

`Chain next stop a L` says that following `next` from `a` to the end mark `stop` visits the
cells `L`. A search down the chain, with the cell before the current one at hand or not, finds
the first cell that answers (`run_chain`); linking a new first cell and unlinking a cell behind
its predecessor do to `L` what they should.
-/

namespace MiniWeb.Loop

universe u v w

variable {A : Type u}

def Chain (next : A → A) (stop : A) : A → List A → Prop
  | a, [] => a = stop
  | a, x :: L => a = x ∧ x ≠ stop ∧ Chain next stop (next x) L

variable {next next' : A → A} {stop a x : A} {L L₁ L₂ : List A}

theorem Chain.ne_stop (h : Chain next stop a L) : ∀ y ∈ L, y ≠ stop := by
  induction L generalizing a with
  | nil => intro y hy; cases hy
  | cons x L ih =>
    obtain ⟨-, hx, hL⟩ := h
    exact List.forall_mem_cons.mpr ⟨hx, ih hL⟩

/-- A chain depends only on the link fields of its own cells. -/
theorem Chain.congr (h : Chain next stop a L) (hag : ∀ y ∈ L, next' y = next y) :
    Chain next' stop a L := by
  induction L generalizing a with
  | nil => exact h
  | cons x L ih =>
    obtain ⟨ha, hx, hL⟩ := h
    obtain ⟨hagx, hagL⟩ := List.forall_mem_cons.mp hag
    exact ⟨ha, hx, hagx ▸ ih hL hagL⟩

/-- A chain is determined by its first cell. -/
theorem Chain.unique {L' : List A} (h : Chain next stop a L) (h' : Chain next stop a L') :
    L = L' := by
  induction L generalizing a L' with
  | nil =>
    cases L' with
    | nil => rfl
    | cons x L' => exact absurd (h'.1.symm.trans h) h'.2.1
  | cons x L ih =>
    cases L' with
    | nil => exact absurd (h.1.symm.trans h') h.2.1
    | cons y L' =>
      obtain ⟨rfl, -, hL⟩ := h
      obtain ⟨rfl, -, hL'⟩ := h'
      rw [ih hL hL']

/-- The cells from `a` to the end mark, `fuel` at most. -/
def cells [DecidableEq A] (next : A → A) (stop : A) : Nat → A → List A
  | 0, _ => []
  | fuel + 1, a => if a = stop then [] else a :: cells next stop fuel (next a)

theorem Chain.cells_eq [DecidableEq A] {fuel : Nat} (h : Chain next stop a L)
    (hfuel : L.length ≤ fuel) : cells next stop fuel a = L := by
  induction L generalizing a fuel with
  | nil =>
    cases fuel with
    | zero => rfl
    | succ fuel => exact if_pos h
  | cons x L ih =>
    obtain ⟨rfl, hx, hL⟩ := h
    obtain ⟨fuel, rfl⟩ : ∃ k, fuel = k + 1 := ⟨fuel - 1, by simp at hfuel; omega⟩
    rw [cells, if_neg hx, ih hL (by simpa using hfuel)]

/-- Unlinking the cell `x` behind `prev`: the cell before `x` takes over its link. -/
theorem Chain.unlink {prev : A} (h : Chain next stop (next prev) (L₁ ++ x :: L₂))
    (hnd : (prev :: (L₁ ++ x :: L₂)).Nodup)
    (hlast : next' (L₁.getLastD prev) = next x)
    (hag : ∀ y, y ≠ L₁.getLastD prev → next' y = next y) :
    Chain next' stop (next' prev) (L₁ ++ L₂) := by
  induction L₁ generalizing prev with
  | nil =>
    obtain ⟨hx, -, hL⟩ := h
    rw [List.getLastD_nil] at hlast hag
    rw [hlast]
    refine hL.congr fun y hy => hag y ?_
    rintro rfl
    simp [hy] at hnd
  | cons b L₁ ih =>
    obtain ⟨hb, hbs, hL⟩ := h
    rw [List.getLastD_cons] at hlast hag
    obtain ⟨hp, hnd'⟩ := List.nodup_cons.mp hnd
    refine ⟨?_, hbs, ih hL hnd' hlast hag⟩
    rw [hag prev, hb]
    rintro rfl
    exact hp (List.mem_append_left (x :: L₂) List.getLastD_mem_cons)

/-- **Searching a chain.** The loop ends at the first cell that answers, knowing the cell before
it, or at the end of the chain. -/
theorem run_chain {σ : Type v} {α : Type w} (step : σ → Step σ α) (st : A → A → σ)
    (hit : A → Prop) (out : A → A → α) (d : α)
    (hstop : ∀ prev, step (st prev stop) = .done d)
    (hhit : ∀ prev x, x ≠ stop → hit x → step (st prev x) = .done (out prev x))
    (hmiss : ∀ prev x, x ≠ stop → ¬ hit x → step (st prev x) = .next (st x (next x)))
    {fuel : Nat} (prev : A) (h : Chain next stop a L) (hfuel : L.length < fuel) :
    ((∀ y ∈ L, ¬ hit y) ∧ run step fuel (st prev a) = some d) ∨
      ∃ L₁ x L₂, L = L₁ ++ x :: L₂ ∧ hit x ∧ (∀ y ∈ L₁, ¬ hit y) ∧
        run step fuel (st prev a) = some (out (L₁.getLastD prev) x) := by
  obtain ⟨fuel, rfl⟩ : ∃ k, fuel = k + 1 := ⟨fuel - 1, by omega⟩
  induction L generalizing a prev fuel with
  | nil =>
    obtain rfl : a = stop := h
    exact Or.inl ⟨by simp, run_succ_done (hstop prev)⟩
  | cons x L ih =>
    obtain ⟨rfl, hx, hL⟩ := h
    by_cases hh : hit a
    · exact Or.inr ⟨[], a, L, rfl, hh, by simp, run_succ_done (hhit prev a hx hh)⟩
    · obtain ⟨fuel, rfl⟩ : ∃ k, fuel = k + 1 := ⟨fuel - 1, by simp at hfuel; omega⟩
      rw [run_succ_next (hmiss prev a hx hh)]
      rcases ih a hL fuel (by simpa using hfuel) with ⟨hno, hrun⟩ |
        ⟨L₁, y, L₂, rfl, hy, hno, hrun⟩
      · exact Or.inl ⟨List.forall_mem_cons.mpr ⟨hh, hno⟩, hrun⟩
      · refine Or.inr ⟨a :: L₁, y, L₂, rfl, hy, List.forall_mem_cons.mpr ⟨hh, hno⟩, ?_⟩
        rw [List.getLastD_cons]
        exact hrun

end MiniWeb.Loop
